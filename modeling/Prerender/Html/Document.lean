/-
The document around a page: its opening part up to the end of the head, where
the client script and the page's own script are loaded, and the parts that the
metadata tree and the page tree become.
-/
import Prerender.Html.Renderer

namespace Prerender.Html

/-- The name of the file that holds the payload of a page. -/
def payloadFile : String := "page_data.js"

/-- What the opening part of a document is made from. -/
structure HeadContext where
  pageUrl : String
  headHtml : String
  /-- Whether the page's own script is loaded. -/
  loadsPayload : Bool

/-- The address of the page's own script. -/
def HeadContext.payloadUrl (context : HeadContext) : String :=
  String.ofList (Text.dropEndWhile (· == '/') context.pageUrl.toList) ++ "/"
    ++ payloadFile

/-- The tag that loads a script once the document is read. -/
def scriptTag (url : String) : String :=
  "<script src=\x22" ++ escape url ++ "\x22 defer></script>"

/-- The opening part of a document that loads the client from `clientScript`. -/
def openDocument (clientScript : String) (context : HeadContext) : String :=
  "<!DOCTYPE html><html><head>" ++ context.headHtml ++ scriptTag clientScript
    ++ (if context.loadsPayload then scriptTag context.payloadUrl else "")
      ++ "</head>"

/-- What closes a document after its body. -/
def documentEnd : String := "</html>"

/-- The content of the head for a metadata tree: the children of a `head`
element, and any other tree as it is. -/
def headContent : Node → Node
  | .element ⟨"head", _, children⟩ => .fragment (children.getD [])
  | node => node

/-- The body for a page tree: a `body` element as it is, and any other tree
inside one. -/
def bodyElement : Node → Node
  | .element ⟨"body", slot, children⟩ => .element ⟨"body", slot, children⟩
  | node => .element ⟨"body", .options .empty, some [node]⟩

end Prerender.Html
