/-
Static HTML of a page tree. Text is escaped and markup is not; booleans show
nothing; an element without a list of children, or with a tag that never has
content, closes itself.
-/
import Prerender.Html.Attribute
import Prerender.Tree.Node

namespace Prerender

/-- Numbers in the document: never a power of ten, no point in whole numbers,
and of two equally near decimals the greater one. -/
def Double.markupLayout : Double.Layout := ⟨.up, none, false⟩

namespace Html

/-- The text of a number. Whole numbers below `10 ^ 15` have no sign at zero. -/
def numberText (d : Double) : String :=
  if d.isNaN then "NaN"
  else if !d.isFinite then if d.negative then "-inf" else "inf"
  else if d.isZero then "0"
  else Double.markupLayout.text d

/-- The tags of elements that never have content. -/
def voidTags : List String :=
  ["area", "base", "br", "col", "embed", "hr", "img", "input", "link", "meta",
    "source", "track", "wbr"]

/-- The opening of an element up to its closing bracket. -/
def openingText (tag : String) : Slot → String
  | .options map => "<" ++ tag ++ attributesText map.entries
  | .child _ => "<" ++ tag

mutual

/-- The HTML of a node. -/
def render : Node → String
  | .text s => escape s
  | .markup s => s
  | .number d => numberText d
  | .bool _ => ""
  | .fragment items => renderAll items
  | .element e => renderElement e

/-- The HTML of an element. -/
def renderElement : Element → String
  | ⟨tag, slot, none⟩ => openingText tag slot ++ " />"
  | ⟨tag, slot, some children⟩ =>
      if voidTags.contains tag then openingText tag slot ++ " />"
      else openingText tag slot ++ ">" ++ renderAll children ++ "</"
        ++ tag ++ ">"

/-- The HTML of nodes in a row. -/
def renderAll : List Node → String
  | [] => ""
  | node :: rest => render node ++ renderAll rest

end

end Html
end Prerender
