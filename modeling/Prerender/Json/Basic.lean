/-
JSON values. Whole numbers and doubles are different values, `1` is not `1.0`,
and the members of an object are kept in ascending order of their names.
-/
import Prerender.Number.Double
import Prerender.Sorted

namespace Prerender

/-- A JSON value. `Json.object` builds objects with their members in order. -/
inductive Json where
  | null
  | bool (b : Bool)
  | int (n : Int)
  | double (d : Double)
  | str (s : String)
  | arr (items : List Json)
  | obj (members : List (String × Json))
deriving Inhabited

namespace Json

/-- The object with the given members, in any order; the last one of each name
counts. -/
def object (members : List (String × Json)) : Json :=
  .obj (Sorted.ofList members)

/-- The member of an object named `name`. -/
def get? (name : String) : Json → Option Json
  | .obj members => members.lookup name
  | _ => none

/-- The value as a double, for numbers. -/
def toDouble? : Json → Option Double
  | .int n => some (Double.ofInt n)
  | .double d => some d
  | _ => none

mutual

/-- Equality of values, where doubles are compared as numbers: `0.0` equals
`-0.0`. -/
def sameValue : Json → Json → Bool
  | .null, .null => true
  | .bool a, .bool b => a == b
  | .int a, .int b => a == b
  | .double a, .double b => a.sameValue b
  | .str a, .str b => a == b
  | .arr a, .arr b => sameItems a b
  | .obj a, .obj b => sameMembers a b
  | _, _ => false

/-- Equality of the items of two arrays, one by one. -/
def sameItems : List Json → List Json → Bool
  | [], [] => true
  | a :: as, b :: bs => sameValue a b && sameItems as bs
  | _, _ => false

/-- Equality of the members of two objects, one by one. -/
def sameMembers : List (String × Json) → List (String × Json) → Bool
  | [], [] => true
  | (k, a) :: as, (l, b) :: bs => k == l && sameValue a b && sameMembers as bs
  | _, _ => false

end

instance : BEq Json := ⟨sameValue⟩

end Json
end Prerender
