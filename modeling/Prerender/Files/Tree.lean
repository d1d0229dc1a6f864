/-
File trees: directories of named items, each a directory again or a file with
its text. There are no links in a tree. Places in it are lists of names from
the root, and a name may be any bytes.
-/
import Prerender.Text.OsText

namespace Prerender.Files

/-- A file or a directory. The names in a directory come in any order. -/
inductive Item where
  | file (text : String)
  | directory (items : List (OsText × Item))

instance : Inhabited Item := ⟨.directory []⟩

/-- A place in a tree: the names that lead to it from the root. -/
abbrev Place := List OsText

namespace Item

/-- Whether the item is a directory. -/
def isDirectory : Item → Bool
  | .directory _ => true
  | .file _ => false

/-- The item at a place. -/
def at? : Place → Item → Option Item
  | [], item => some item
  | name :: place, .directory items => (items.lookup name).bind (at? place)
  | _ :: _, .file _ => none

/-- The items of a directory with one under a name: in the place of the item
of that name, or behind all others. -/
def setNamed (name : OsText) (item : Item) :
    List (OsText × Item) → List (OsText × Item)
  | [] => [(name, item)]
  | (other, old) :: rest =>
      if other = name then (name, item) :: rest
      else (other, old) :: setNamed name item rest

/-- The tree with `new` at a place; directories on the way that are missing
are made, and a file on the way is left alone. -/
def put (new : Item) : Item → Place → Item
  | _, [] => new
  | .directory items, name :: place =>
      .directory
        (setNamed name (put new ((items.lookup name).getD default) place) items)
  | .file text, _ :: _ => .file text

mutual

/-- The files in an item, each with its place below `place`. -/
def filesFrom (place : Place) : Item → List (Place × String)
  | .file text => [(place, text)]
  | .directory items => filesOf place items

/-- The files in the items of a directory. -/
def filesOf (place : Place) : List (OsText × Item) → List (Place × String)
  | [] => []
  | (name, item) :: rest =>
      filesFrom (place ++ [name]) item ++ filesOf place rest

end

end Item
end Prerender.Files
