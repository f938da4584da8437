import SolidScript.Number.Basic

/-!
# Parameter values

A parameter of a script call holds a value: nothing, a truth value, a number, a text or a vector of
values.
-/

namespace SolidScript

/-- The value of a parameter. -/
inductive Value where
  | undef
  | bool (b : Bool)
  | number (x : Number)
  | text (s : String)
  | vector (items : List Value)
  deriving Repr

namespace Value

instance : Inhabited Value := ⟨undef⟩

mutual
/-- Equality of values; numbers are compared as numbers, so a not-a-number differs from itself. -/
def equal : Value → Value → Bool
  | undef, undef => true
  | bool a, bool b => a == b
  | number x, number y => x.equal y
  | text s, text t => s == t
  | vector xs, vector ys => equalAll xs ys
  | _, _ => false

/-- Equality of vectors, item by item. -/
def equalAll : List Value → List Value → Bool
  | [], [] => true
  | x :: xs, y :: ys => equal x y && equalAll xs ys
  | _, _ => false
end

/-- The vector of some numbers. -/
def numbers (xs : List Number) : Value := vector (xs.map number)

/-- A value inside `n` vectors of one item each. -/
def wrap : Nat → Value → Value
  | 0, v => v
  | n + 1, v => vector [wrap n v]

/-- The value of an optional number: nothing stands for no number. -/
def ofNumber? : Option Number → Value
  | none => undef
  | some x => number x

/-- The value of an optional text. -/
def ofText? : Option String → Value
  | none => undef
  | some s => text s

end Value
end SolidScript
