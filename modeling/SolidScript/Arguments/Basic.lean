import SolidScript.Tree.Params

/-!
# Typed arguments

The arguments of a built-in call are made by a constructor and a chain of calls on it.  A call
either sets one of the fields that the type knows, or gives an extra parameter by its name.  The
parameters are the fields that were set, in the order of the type, and then the extra ones, each of
which replaces a parameter of the same name in place.
-/

namespace SolidScript

/-- A type of arguments: the fields it knows, which `σ` sets, with their names in a fixed order. -/
class TypedArguments (α : Type) (σ : outParam Type) where
  /-- Sets one field. -/
  set : α → σ → α
  /-- All fields with their names, those that were not set having no value. -/
  fields : α → List (String × Option Value)

/-- Arguments of a type together with extra parameters. -/
structure Arguments (α : Type) where
  typed : α
  extra : Params := Params.empty

/-- A call on arguments. -/
inductive ArgumentCall (σ : Type) where
  | field (setter : σ)
  | extra (name : String) (value : Value)

namespace Arguments

variable {α σ : Type} [TypedArguments α σ]

/-- The arguments after a call. -/
def call (args : Arguments α) : ArgumentCall σ → Arguments α
  | .field setter => { args with typed := TypedArguments.set args.typed setter }
  | .extra name value => { args with extra := args.extra.set name value }

/-- The arguments after a chain of calls. -/
def callAll (args : Arguments α) (calls : List (ArgumentCall σ)) : Arguments α :=
  calls.foldl call args

/-- The fields that were set. -/
def setFields (fields : List (String × Option Value)) : List (String × Value) :=
  fields.filterMap fun (name, value) => value.map (name, ·)

/-- The parameters that the arguments stand for. -/
def toParams (args : Arguments α) : Params :=
  (Params.ofList (setFields (TypedArguments.fields args.typed))).merge args.extra

end Arguments

/-- The arguments that a constructor and a chain of calls on it make, as parameters. -/
def argumentParams {α σ : Type} [TypedArguments α σ] (typed : α) (calls : List (ArgumentCall σ)) :
    Params :=
  ((⟨typed, Params.empty⟩ : Arguments α).callAll calls).toParams

/-- A vector of three numbers. -/
structure Vector3 where
  x : Number
  y : Number
  z : Number
  deriving DecidableEq, Repr

namespace Vector3

def toValue (v : Vector3) : Value := .numbers [v.x, v.y, v.z]

def zero : Vector3 := ⟨Number.zero false, Number.zero false, Number.zero false⟩

end Vector3

/-- The parameters of the calls that take a vector and nothing else. -/
def vectorParams (v : Vector3) : Params := Params.empty.set "v" v.toValue

/-- The value of a whole number. -/
def Value.ofNat (n : Nat) : Value := .number (Number.ofNat n)

end SolidScript
