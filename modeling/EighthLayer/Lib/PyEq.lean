import EighthLayer.Lib.Json

/-!
# EighthLayer.Lib.PyEq

Python's equality of values that JSON is parsed as. Numbers are compared by an equality that is given,
as floats are among them.
-/

namespace Lib

/-- `==` between numbers, where `True` and `False` are numbers too. -/
class NumberEq where
  eq : Json → Json → Bool

mutual

/-- `==` between values that JSON is parsed as. -/
def pyEq [NumberEq] : Json → Json → Bool
  | .null, .null => true
  | .str s, .str t => s = t
  | .arr xs, .arr ys => pyEqElems xs ys
  | .obj ms, .obj ns => ms.length = ns.length && pyEqMembers ms ns
  | .bool a, .bool b => NumberEq.eq (.bool a) (.bool b)
  | .bool a, .num n => NumberEq.eq (.bool a) (.num n)
  | .num m, .bool b => NumberEq.eq (.num m) (.bool b)
  | .num m, .num n => NumberEq.eq (.num m) (.num n)
  | _, _ => false

def pyEqElems [NumberEq] : List Json → List Json → Bool
  | [], [] => true
  | x :: xs, y :: ys => pyEq x y && pyEqElems xs ys
  | _, _ => false

/-- The order of the keys does not matter. -/
def pyEqMembers [NumberEq] : List (String × Json) → List (String × Json) → Bool
  | [], _ => true
  | (k, v) :: ms, ns =>
    (match ns.lookup k with
      | some w => pyEq v w
      | none => false) && pyEqMembers ms ns

end

end Lib
