/-
Powers of two and of ten as natural numbers.
-/
namespace Prerender

/-- The power `2 ^ n`. -/
abbrev twoTo (n : Nat) : Nat := Nat.pow 2 n

/-- The power `10 ^ n`. -/
abbrev tenTo (n : Nat) : Nat := Nat.pow 10 n

end Prerender
