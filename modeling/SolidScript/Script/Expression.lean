import SolidScript.Number.Places
import SolidScript.Script.Fault
import SolidScript.Script.Identifier
import SolidScript.Tree.Params

/-!
# Expressions of a script

The text of numbers, values and calls.  A number has at most ten places after the point; a number
that is not finite has no text, and the fault names the call, the parameter and the place of the
number in it.
-/

namespace SolidScript
namespace Script

/-- The text of a number, if it is finite. -/
def numeral? : Number → Option String
  | .finite negative code => some (Number.trimmed 10 negative code)
  | _ => none

/-- What is said of a number that has no text. -/
def unwritable (x : Number) : String := "cannot format non-finite number " ++ x.nonFiniteName

/-- A parameter followed by the indices that lead to a place in its value. -/
def placeText (param : String) (path : List Nat) : String :=
  path.foldl (fun text index => text ++ "[" ++ toString index ++ "]") param

/-- Refuses a name that may not stand in a script. -/
def checkIdentifier (node name : String) : Except Fault Unit :=
  if Identifier.isValid name then .ok () else .error (.invalidIdentifier node name)

/-- Texts one after the other with a comma between them. -/
def commaSeparated (texts : List String) : String := ", ".intercalate texts

mutual
/-- The text of a value that stands at `path` in the parameter `param` of the call `node`. -/
def valueText (node param : String) (path : List Nat) : Value → Except Fault String
  | .undef => .ok "undef"
  | .bool true => .ok "true"
  | .bool false => .ok "false"
  | .number x =>
    match numeral? x with
    | some text => .ok text
    | none => .error (.nonFinite node (placeText param path) x)
  | .text s => .ok (Text.quote s)
  | .vector items => do
    let texts ← itemTexts node param path 0 items
    .ok ("[" ++ commaSeparated texts ++ "]")

/-- The texts of the items of a vector from the given index on. -/
def itemTexts (node param : String) (path : List Nat) (index : Nat) :
    List Value → Except Fault (List String)
  | [] => .ok []
  | item :: rest => do
    let text ← valueText node param (path ++ [index]) item
    let texts ← itemTexts node param path (index + 1) rest
    .ok (text :: texts)
end

/-- The texts of parameters, each checked before its value is written. -/
def argumentTexts (node : String) : List (String × Value) → Except Fault (List String)
  | [] => .ok []
  | (name, value) :: rest => do
    checkIdentifier node name
    let text ← valueText node name [] value
    let texts ← argumentTexts node rest
    .ok ((name ++ " = " ++ text) :: texts)

/-- The text of a call, without what ends or follows it. -/
def callText (name : String) (params : Params) : Except Fault String := do
  checkIdentifier name name
  let texts ← argumentTexts name params.entries
  .ok (name ++ "(" ++ commaSeparated texts ++ ")")

end Script
end SolidScript
