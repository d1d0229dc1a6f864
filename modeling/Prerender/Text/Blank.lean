/-
White space: which characters are blank, a text without blanks at its ends,
and the lines of a text.
-/
namespace Prerender.Text

/-- Whether `c` is white space (the White_Space property of Unicode: the ASCII
blanks, the next-line control, and the spaces and separators beyond ASCII). -/
def isBlank (c : Char) : Bool :=
  let n := c.toNat
  (9 ≤ n && n ≤ 13) || n == 0x20 || n == 0x85 || n == 0xA0 || n == 0x1680
    || (0x2000 ≤ n && n ≤ 0x200A) || n == 0x2028 || n == 0x2029 || n == 0x202F
        || n == 0x205F
    || n == 0x3000

/-- The characters without the trailing ones that satisfy `p`. -/
def dropEndWhile (p : Char → Bool) (cs : List Char) : List Char :=
  (cs.reverse.dropWhile p).reverse

/-- The characters without those at either end that satisfy `p`. -/
def stripChars (p : Char → Bool) (cs : List Char) : List Char :=
  dropEndWhile p (cs.dropWhile p)

/-- The characters without blanks at either end. -/
def trimChars (cs : List Char) : List Char :=
  stripChars isBlank cs

/-- The text without blanks at either end. -/
def trim (s : String) : String :=
  String.ofList (trimChars s.toList)

/-- The pieces between line feeds. There is always one more piece than there
are line feeds. -/
def splitLines : List Char → List (List Char)
  | [] => [[]]
  | c :: rest =>
      if c = '\n' then [] :: splitLines rest
      else
        match splitLines rest with
        | [] => [[c]]
        | line :: lines => (c :: line) :: lines

/-- The line without a carriage return at its end. -/
def dropReturn (line : List Char) : List Char :=
  if line.getLast? = some '\r' then line.dropLast else line

/-- The lines of a text. A line ends with a line feed, perhaps after a
carriage return, which are not part of it; what comes after the last line feed
is a line as it is, unless there is nothing. -/
def lines (cs : List Char) : List (List Char) :=
  let pieces := splitLines cs
  pieces.dropLast.map dropReturn ++ pieces.getLast?.toList.filter fun line =>
    !line.isEmpty

/-- The pieces with a line feed between each two. -/
def joinLines : List (List Char) → List Char
  | [] => []
  | [line] => line
  | line :: lines => line ++ '\n' :: joinLines lines

/-- There is always a piece, be it an empty one. -/
theorem splitLines_ne_nil (cs : List Char) : splitLines cs ≠ [] := by
  cases cs with
  | nil => simp [splitLines]
  | cons c rest =>
      by_cases hc : c = '\n'
      · simp [splitLines, hc]
      · cases h : splitLines rest <;> simp [splitLines, hc, h]

/-- A further piece comes behind a line feed. -/
theorem joinLines_cons {line : List Char} {lines : List (List Char)}
    (h : lines ≠ []) :
    joinLines (line :: lines) = line ++ '\n' :: joinLines lines := by
  cases lines with
  | nil => exact absurd rfl h
  | cons _ _ => rfl

/-- Splitting loses nothing: joining the pieces gives the text back. -/
theorem joinLines_splitLines (cs : List Char) :
    joinLines (splitLines cs) = cs := by
  induction cs with
  | nil => rfl
  | cons c rest ih =>
      have hne := splitLines_ne_nil rest
      by_cases hc : c = '\n'
      · rw [splitLines, if_pos hc, joinLines_cons hne, ih, hc]
        rfl
      · rw [splitLines, if_neg hc]
        cases h : splitLines rest with
        | nil => exact absurd h hne
        | cons line lines =>
            rw [h] at ih
            cases lines with
            | nil => simpa [joinLines] using ih
            | cons line' lines => simpa [joinLines] using ih

end Prerender.Text
