/-
Case of letters: what is a capital, what is a small letter, and the
small-letter form of a text. ASCII is answered by the core library and
everything else by the runs of `Text/Letters`. One letter depends on its
neighbours: a capital sigma at the end of a word becomes the final form.
-/
import Prerender.Text.Letters

namespace Prerender.Text

-- ==================================================== classes of letters

/-- Whether `c` is a capital. -/
def isCapital (c : Char) : Bool :=
  c.isUpper || (decide (128 ≤ c.toNat) && inRuns capitalRuns c.toNat)

/-- Whether `c` is a small letter. -/
def isSmall (c : Char) : Bool :=
  c.isLower || (decide (128 ≤ c.toNat) && inRuns smallRuns c.toNat)

/-- Whether `c` carries case at all. -/
def isCased (c : Char) : Bool :=
  isCapital c || isSmall c || inRuns titleRuns c.toNat

/-- Whether the rule for a final sigma looks past `c`. -/
def isCaseIgnorable (c : Char) : Bool :=
  if c.toNat < 128 then c == '\x27' || c == '.' || c == ':' || c == '^'
    || c == '\x60'
  else inRuns caseIgnorableRuns c.toNat

-- ================================================== small-letter forms

/-- The small-letter form of one character, regardless of its neighbours. Only
the dotted capital I needs two characters. -/
def lowerChar (c : Char) : List Char :=
  if c.toNat < 128 then [c.toLower]
  else if c.toNat = 0x130 then ['i', '\u0307']
  else
    match lowerRuns.find? fun entry => entry.run.contains c.toNat with
    | some entry => [Char.ofNat (entry.target + (c.toNat - entry.run.first))]
    | none => [c]

/-- Whether the first character that the case rules do not skip carries case. -/
def startsCased (cs : List Char) : Bool :=
  match cs.dropWhile isCaseIgnorable with
  | [] => false
  | c :: _ => isCased c

/-- The small sigma for a capital one that stands after `before` (nearest
character first) and in front of `rest`: the final form when a word ends
here. -/
def lowerSigma (before rest : List Char) : Char :=
  if startsCased before && !startsCased rest then 'ς' else 'σ'

/-- The small-letter form of a text whose earlier characters, nearest first,
are `before`. -/
def lowerAfter (before : List Char) : List Char → List Char
  | [] => []
  | c :: rest =>
      (if c = 'Σ' then [lowerSigma before rest] else lowerChar c)
        ++ lowerAfter (c :: before) rest

/-- The small-letter form of a text. -/
def lowercase (s : String) : String :=
  String.ofList (lowerAfter [] s.toList)

end Prerender.Text
