/-
A file system: a tree and a working directory in it. Paths are followed part
by part, so a part that leads upwards does so from the directory that was
really reached; an operation that fails says why and changes nothing that it
did not say it would.
-/
import Prerender.Files.Path
import Prerender.Files.Tree

namespace Prerender.Files

/-- Why an operation on files fails. -/
inductive FileError where
  | notFound
  | alreadyExists
  | notDirectory
  | isDirectory
  | nameTooLong
  /-- A path contains the byte zero. -/
  | zeroInPath
deriving DecidableEq

/-- The text of the error. -/
def FileError.message : FileError → String
  | notFound => "No such file or directory (os error 2)"
  | alreadyExists => "File exists (os error 17)"
  | notDirectory => "Not a directory (os error 20)"
  | isDirectory => "Is a directory (os error 21)"
  | nameTooLong => "File name too long (os error 36)"
  | zeroInPath => "file name contained an unexpected NUL byte"

end Files

open Files

/-- A tree of files and the directory that relative paths start from. -/
structure FileSystem where
  root : Item
  workingDirectory : Place

namespace FileSystem

-- =========================================================== following

/-- The longest name in bytes. -/
def nameLimit : Nat := 255

/-- The longest path in bytes. -/
def pathLimit : Nat := 4095

/-- Requires a directory at a place. -/
def requireDirectory (fs : FileSystem) (place : Place) :
    Except FileError Unit :=
  match fs.root.at? place with
  | none => .error .notFound
  | some (.file _) => .error .notDirectory
  | some (.directory _) => .ok ()

/-- Follows the parts of a path from a place. Each is looked up in a
directory; the last one need not be there. -/
def follow (fs : FileSystem) (place : Place) :
    List OsText → Except FileError Place
  | [] => .ok place
  | part :: rest => do
      fs.requireDirectory place
      if part = "." then fs.follow place rest
      else if part = ".." then fs.follow place.dropLast rest
      else if nameLimit < part.size then .error .nameTooLong
      else fs.follow (place ++ [part]) rest

/-- The place that the parts of a path start from. -/
def start (fs : FileSystem) (path : OsText) : Place :=
  if Path.isAbsolute path then [] else fs.workingDirectory

/-- Refuses what is no path at all. -/
def checkPath (path : OsText) : Except FileError Unit :=
  if path.bytes.contains 0 then .error .zeroInPath
  else if path.isEmpty then .error .notFound
  else if pathLimit < path.size then .error .nameTooLong
  else .ok ()

/-- The parts to follow for an existing path: behind a slash at the end there
must be a directory. -/
def partsToItem (path : OsText) : List OsText :=
  let still : List OsText :=
    if path.bytes.getLast? = some separator then ["."] else []
  Path.parts path ++ still

/-- The item that a path leads to. -/
def item (fs : FileSystem) (path : OsText) : Except FileError Item := do
  checkPath path
  let place ← fs.follow (fs.start path) (partsToItem path)
  match fs.root.at? place with
  | some item => .ok item
  | none => .error .notFound

/-- Whether a path leads to anything; an error if that cannot be told. -/
def exists? (fs : FileSystem) (path : OsText) : Except FileError Bool :=
  match fs.item path with
  | .ok _ => .ok true
  | .error .notFound => .ok false
  | .error e => .error e

/-- Whether a path leads to a directory. -/
def isDirectory (fs : FileSystem) (path : OsText) : Bool :=
  match fs.item path with
  | .ok item => item.isDirectory
  | .error _ => false

/-- The directory that a path leads to. -/
def directory (fs : FileSystem) (path : OsText) :
    Except FileError (List (OsText × Item)) := do
  match ← fs.item path with
  | .directory items => .ok items
  | .file _ => .error .notDirectory

/-- The text of the file that a path leads to. -/
def readText (fs : FileSystem) (path : OsText) : Except FileError String := do
  match ← fs.item path with
  | .file text => .ok text
  | .directory _ => .error .isDirectory

-- ============================================================= changing

/-- The directory that the last part of a path is looked up in. -/
def parentPlace (fs : FileSystem) (path : OsText) : Except FileError Place := do
  let place ← fs.follow (fs.start path) (Path.parts path).dropLast
  fs.requireDirectory place
  return place

/-- The last part of a path, if it names something rather than pointing to a
directory. -/
def lastName? (path : OsText) : Option OsText :=
  match (Path.parts path).getLast? with
  | none => none
  | some name => if name = "." ∨ name = ".." then none else some name

/-- The files with a new directory in one that is there. -/
def makeDirectory (fs : FileSystem) (path : OsText) :
    Except FileError FileSystem := do
  checkPath path
  let parent ← fs.parentPlace path
  match lastName? path with
  | none => .error .alreadyExists
  | some name =>
      let place := parent ++ [name]
      if nameLimit < name.size then .error .nameTooLong
      else if (fs.root.at? place).isSome then .error .alreadyExists
      else .ok { fs with root := Item.put (.directory []) fs.root place }

/-- The files with a text written to a file in a directory that is there, in
the place of any earlier text. -/
def writeText (fs : FileSystem) (path : OsText) (text : String) :
    Except FileError FileSystem := do
  checkPath path
  let parent ← fs.parentPlace path
  match lastName? path with
  | none => .error .isDirectory
  | some name =>
      let place := parent ++ [name]
      if nameLimit < name.size then .error .nameTooLong
      else
        match fs.root.at? place with
        | some (.directory _) => .error .isDirectory
        | _ => .ok { fs with root := Item.put (.file text) fs.root place }

end FileSystem

/-- Something done to files in several steps. What was done before a step
failed stays done. -/
abbrev FileStep (α : Type) := EStateM FileError FileSystem α

namespace FileStep

/-- A single change, which is done or not done. -/
def change (f : FileSystem → Except FileError FileSystem) : FileStep PUnit :=
  fun fs =>
  match f fs with
  | .ok fs => .ok ⟨⟩ fs
  | .error e => .error e fs

/-- Makes a directory in one that is there, unless it is there already. -/
def ensureDirectory (path : OsText) : FileStep PUnit := fun fs =>
  match fs.makeDirectory path with
  | .ok fs => .ok ⟨⟩ fs
  | .error e => if fs.isDirectory path then .ok ⟨⟩ fs else .error e fs

/-- Makes a directory, given the paths of those above it, nearest first. They
are made only when it cannot be made without them. -/
def makeDirectoryBelow : List OsText → OsText → FileStep PUnit
  | [], path => ensureDirectory path
  | parent :: rest, path => fun fs =>
      match fs.makeDirectory path with
      | .error .notFound =>
          (do makeDirectoryBelow rest parent; ensureDirectory path) fs
      | _ => ensureDirectory path fs

/-- Makes a directory and all above it that are missing. -/
def makeDirectories (path : OsText) : FileStep PUnit :=
  if path.isEmpty then return ⟨⟩ else makeDirectoryBelow
    (Path.ancestors path) path

/-- Writes a file into a directory that is there. -/
def writeText (path : OsText) (text : String) : FileStep PUnit :=
  change fun fs => fs.writeText path text

end FileStep

namespace FileSystem

-- ============================================================== listing

/-- The files below the working directory, each with its path from there. -/
def files (fs : FileSystem) : List (OsText × String) :=
  let found := ((fs.root.at? fs.workingDirectory).getD default).filesFrom []
  found.map fun (place, text) => (Path.ofParts place, text)

end FileSystem
end Prerender
