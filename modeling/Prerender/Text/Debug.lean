/-
Text quoted for a message: between double quotes, with what would not be seen
written by number.
-/
import Prerender.Text.Unseen

namespace Prerender.Text

/-- Whether a character takes no ink or no place of its own. The blank of
ASCII does not count. -/
def isUnseen (c : Char) : Bool :=
  let n := c.toNat
  decide (n < 32) || decide (n = 127) ||
    (decide (128 ≤ n) && unseenRuns.any fun run => decide (run.1 ≤ n) && decide
      (n ≤ run.2))

/-- The written form of one character. -/
def debugChar (c : Char) : List Char :=
  match c with
  | '\x00' => ['\x5c', '0']
  | '\t' => ['\x5c', 't']
  | '\n' => ['\x5c', 'n']
  | '\r' => ['\x5c', 'r']
  | '\x22' => ['\x5c', '\x22']
  | '\x5c' => ['\x5c', '\x5c']
  | _ =>
      if isUnseen c then ['\x5c', 'u', '\x7b'] ++ Nat.toDigits 16 c.toNat
        ++ ['\x7d'] else [c]

/-- The quoted form of a text. -/
def debugQuoted (s : String) : String :=
  String.ofList ('\x22' :: (s.toList.flatMap debugChar ++ ['\x22']))

end Prerender.Text
