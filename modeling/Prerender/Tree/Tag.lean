/-
Elements by tag: the tags that page code makes elements of by name alone, and
which of those hold children.
-/
import Prerender.Tree.Node

namespace Prerender.Element

/-- The tags of elements that hold children. -/
def holderTags : List String :=
  ["html", "head", "body", "title", "script", "style", "main", "section", "div",
    "span", "p", "h1", "h2", "a", "button", "ul", "li"]

/-- The tags of elements that cannot hold children. -/
def leafTags : List String := ["meta", "link", "input", "img", "br"]

/-- The element with a tag known by name. One that holds children always has a
list of them, and one that cannot leaves them out. -/
def ofTag? (tag : String) (slot : Slot) (children : List Node) :
    Option Element :=
  if holderTags.contains tag then some ⟨tag, slot, some children⟩
  else if leafTags.contains tag then some ⟨tag, slot, none⟩
  else none

end Prerender.Element
