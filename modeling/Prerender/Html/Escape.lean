/-
Escaping for HTML: the five characters that markup reads specially are written
as entities, in text and in quoted attribute values alike.
-/
namespace Prerender.Html

/-- The written form of one character. -/
def escapeChar (c : Char) : List Char :=
  match c with
  | '&' => "&amp;".toList
  | '<' => "&lt;".toList
  | '>' => "&gt;".toList
  | '\x22' => "&quot;".toList
  | '\x27' => "&#x27;".toList
  | _ => [c]

/-- The written form of a text. -/
def escape (s : String) : String :=
  String.ofList (s.toList.flatMap escapeChar)

end Prerender.Html
