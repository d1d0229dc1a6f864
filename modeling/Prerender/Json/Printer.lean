/-
The two written forms of a JSON value: compact, without any blank, and
indented by two spaces a level. Both write numbers and quoted text alike.
-/
import Prerender.Json.Basic
import Prerender.Json.Quoted
import Prerender.Number.Layout

namespace Prerender

/-- Data numbers: no power of ten for exponents from -5 to 15, a point in
every whole number, and of two equally near decimals the even one. -/
def Double.dataLayout : Double.Layout := ⟨.toEven, some (-5, 15), true⟩

namespace Json

/-- The text of a double; what is no finite number is `null`. -/
def doubleText (d : Double) : String :=
  if d.isFinite then Double.dataLayout.text d else "null"

/-- The texts with a comma between each two. -/
def commaSeparated : List String → String
  | [] => ""
  | [s] => s
  | s :: rest => s ++ "," ++ commaSeparated rest

-- ============================================================ compact

mutual

/-- The text of a value without blanks. -/
def compact : Json → String
  | .null => "null"
  | .bool true => "true"
  | .bool false => "false"
  | .int n => toString n
  | .double d => doubleText d
  | .str s => quoted s
  | .arr items => "[" ++ commaSeparated (compactItems items) ++ "]"
  | .obj members => "\x7b" ++ commaSeparated (compactMembers members) ++ "\x7d"

/-- The texts of the items of an array. -/
def compactItems : List Json → List String
  | [] => []
  | item :: rest => compact item :: compactItems rest

/-- The texts of the members of an object, each with its name. -/
def compactMembers : List (String × Json) → List String
  | [] => []
  | (name, value) :: rest => (quoted name ++ ":" ++ compact value)
      :: compactMembers rest

end

-- =========================================================== indented

/-- A line break and the indentation of a level. -/
def lineBreak (level : Nat) : String :=
  String.ofList ('\n' :: List.replicate (2 * level) ' ')

/-- The bracketed lines of a container on level `level`; an empty one is its
two brackets. -/
def bracketed (level : Nat) (opening closing : String) (entries : List String) :
    String :=
  if entries.isEmpty then opening ++ closing
  else
    opening ++ commaSeparated (entries.map (lineBreak (level + 1) ++ ·))
      ++ lineBreak level
      ++ closing

mutual

/-- The indented text of a value on level `level`. -/
def indented (level : Nat) : Json → String
  | .arr items => bracketed level "[" "]" (indentedItems (level + 1) items)
  | .obj members =>
      bracketed level "\x7b" "\x7d" (indentedMembers (level + 1) members)
  | scalar => compact scalar

/-- The indented texts of the items of an array. -/
def indentedItems (level : Nat) : List Json → List String
  | [] => []
  | item :: rest => indented level item :: indentedItems level rest

/-- The indented texts of the members of an object, each with its name. -/
def indentedMembers (level : Nat) : List (String × Json) → List String
  | [] => []
  | (name, value) :: rest =>
      (quoted name ++ ": " ++ indented level value)
        :: indentedMembers level rest

end

/-- The indented text of a value. -/
def pretty (value : Json) : String := indented 0 value

end Json
end Prerender
