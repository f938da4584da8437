import SolidScript.Json.Mismatch
import SolidScript.Tree.Params

/-!
# Saved values and parameters

The JSON form of values and parameters.  Nothing is `null`, and so is a number that is not finite; a
vector is an array and parameters are an object whose fields stand in the order of the parameters.
An object is never a value.
-/

namespace SolidScript

mutual
/-- The JSON form of a value. -/
def Value.toJson : Value → Json
  | .undef => .null
  | .bool b => .bool b
  | .number x => .number (.float x)
  | .text s => .text s
  | .vector items => .array (Value.itemsToJson items)

/-- The JSON forms of the items of a vector. -/
def Value.itemsToJson : List Value → List Json
  | [] => []
  | item :: rest => item.toJson :: Value.itemsToJson rest
end

/-- The JSON form of parameters. -/
def Params.toJson (params : Params) : Json :=
  .object (params.entries.map fun (name, value) => (name, value.toJson))

mutual
/-- The value with the given JSON form, if it is one. -/
def Value.ofJson? : Json → Option Value
  | .null => some .undef
  | .bool b => some (.bool b)
  | .number amount => some (.number amount.toNumber)
  | .text s => some (.text s)
  | .array items => (Value.itemsOfJson? items).map .vector
  | .object _ => none

/-- The values with the given JSON forms, if all of them are values. -/
def Value.itemsOfJson? : List Json → Option (List Value)
  | [] => some []
  | item :: rest =>
    match Value.ofJson? item with
    | none => none
    | some value => (Value.itemsOfJson? rest).map (value :: ·)
end

open Json in
/-- Reads a value; all of its text is read before its form is looked at. -/
def Value.ofDraft (room : Nat) (d : Draft) : ReadResult Value :=
  match Json.ofDraft? room d with
  | none => .error .malformed
  | some json =>
    match Value.ofJson? json with
    | none => .error (.mismatch .noValue)
    | some value => .ok value

open Json in
/-- Sets parameters from the fields of an object, in the order of the text. -/
def Params.addFields (room : Nat) (params : Params) : Fields → ReadResult Params
  | .ended => .ok params
  | .broken => .error .malformed
  | .field none _ _ => .error .malformed
  | .field (some name) d rest =>
    match Value.ofDraft room d with
    | .error e => .error e
    | .ok value => Params.addFields room (params.set name value) rest

namespace Params

/-- What is said of something that is not an object where parameters are wanted. -/
def wanted : String := "a map of parameter names to values"

open Json in
/-- Reads parameters. -/
def ofDraft (room : Nat) : Draft → ReadResult Params
  | .object fields =>
    match room with
    | 0 => .error .malformed
    | inner + 1 => addFields inner empty fields
  | d => d.refuse wanted

open Json in
/-- Sets parameters from fields of a tree, in their order. -/
def addJson (params : Params) : List (String × Json) → Except Mismatch Params
  | [] => .ok params
  | (name, json) :: rest =>
    match Value.ofJson? json with
    | none => .error .noValue
    | some value => addJson (params.set name value) rest

open Json in
/-- The parameters with the given JSON form. -/
def ofJson : Json → Except Mismatch Params
  | .object fields => addJson empty fields
  | json => .error (.wrongType (found json) wanted)

/-- Reads parameters from a text. -/
def read (text : String) : Json.ReadResult Params :=
  Json.readText (ofDraft Json.depthLimit) text

end Params

/-- Reads a value from a text. -/
def Value.read (text : String) : Json.ReadResult Value :=
  Json.readText (Value.ofDraft Json.depthLimit) text

end SolidScript
