/-
Paths as the operating system has them: their parts, how one is put behind
another, and the paths of the directories above. The separator is a byte
that is part of no other character, so a path can be taken apart whether its
bytes are those of a text or not.
-/
import Prerender.Text.OsText

namespace Prerender.Files

/-- The byte between the parts of a path, a slash. -/
def separator : UInt8 := 0x2f

/-- The pieces of a list of bytes between slashes. -/
def splitSlashes : List UInt8 → List (List UInt8)
  | [] => [[]]
  | byte :: rest =>
      if byte = separator then [] :: splitSlashes rest
      else
        match splitSlashes rest with
        | [] => [[byte]]
        | piece :: pieces => (byte :: piece) :: pieces

namespace Path

/-- Whether a path starts at the root. -/
def isAbsolute (path : OsText) : Bool := path.bytes.head? == some separator

/-- The parts of a path as it is written; empty ones do not count. -/
def parts (path : OsText) : List OsText :=
  ((splitSlashes path.bytes).filter fun piece => !piece.isEmpty).map OsText.mk

/-- The path `name` seen from `base`. An absolute one stays itself. -/
def join (base name : OsText) : OsText :=
  if isAbsolute name || base.isEmpty then name
  else if base.bytes.getLast? = some separator then base ++ name
  else base ++ "/" ++ name

/-- The parts with a slash between each two. -/
def ofParts : List OsText → OsText
  | [] => ""
  | [part] => part
  | part :: rest => part ++ "/" ++ ofParts rest

/-- Whether a part leads anywhere, rather than staying in place. -/
def isMove (part : OsText) : Bool := part != "."

/-- The paths of the directories above a path, nearest first. Parts that
stay in place do not count, except for one in front. -/
def ancestors (path : OsText) : List OsText :=
  let meaningful :=
    match parts path with
    | [] => []
    | first :: rest => first :: rest.filter isMove
  let lengths := (List.range meaningful.length).drop 1
  lengths.reverse.map fun n =>
    (if isAbsolute path then "/" else "") ++ ofParts (meaningful.take n)

end Path
end Prerender.Files
