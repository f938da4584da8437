import SolidScript.Json.Tree
import SolidScript.Text.Quoted

/-!
# What can be wrong with JSON

A text is either malformed, or it is JSON of another shape than the one that is wanted.
-/

namespace SolidScript
namespace Json

/-- What was found in place of what was wanted. -/
inductive Found where
  | null
  | bool (b : Bool)
  | number (amount : Amount)
  | text (s : String)
  | sequence
  | map
  /-- The bare name of a variant. -/
  | unitVariant
  deriving DecidableEq, Repr

/-- The name of what was found. -/
def Found.describe : Found → String
  | null => "null"
  | bool b => "boolean `" ++ toString b ++ "`"
  | number (.float x) =>
    "floating point `" ++ ((Amount.float x).write.getD x.nonFiniteName) ++ "`"
  | number amount => "integer `" ++ amount.write.getD "" ++ "`"
  | text s => "string " ++ Text.display s
  | sequence => "sequence"
  | map => "map"
  | unitVariant => "unit variant"

/-- Why JSON is not of the wanted shape. -/
inductive Mismatch where
  | wrongType (found : Found) (wanted : String)
  | wrongValue (found : Found) (wanted : String)
  | wrongLength (length : Nat) (wanted : String)
  | unknownVariant (name : String) (known : List String)
  | missingField (name : String)
  | repeatedField (name : String)
  /-- No kind of parameter value has this form. -/
  | noValue
  deriving DecidableEq, Repr

/-- The names that are known, as a phrase. -/
def knownPhrase (known : List String) : String :=
  let quoted := known.map fun name => "`" ++ name ++ "`"
  match quoted with
  | [one] => "expected " ++ one
  | [one, two] => "expected " ++ one ++ " or " ++ two
  | _ => "expected one of " ++ ", ".intercalate quoted

def Mismatch.message : Mismatch → String
  | wrongType found wanted => "invalid type: " ++ found.describe ++ ", expected " ++ wanted
  | wrongValue found wanted => "invalid value: " ++ found.describe ++ ", expected " ++ wanted
  | wrongLength length wanted => "invalid length " ++ toString length ++ ", expected " ++ wanted
  | unknownVariant name known => "unknown variant `" ++ name ++ "`, " ++ knownPhrase known
  | missingField name => "missing field `" ++ name ++ "`"
  | repeatedField name => "duplicate field `" ++ name ++ "`"
  | noValue => "data did not match any variant of untagged enum Value"

/-- Why a text could not be read. -/
inductive ReadError where
  | malformed
  | mismatch (why : Mismatch)
  deriving DecidableEq, Repr

/-- The result of reading from a draft. -/
abbrev ReadResult (α : Type) := Except ReadError α

/-- What a tree is found to be. -/
def found : Json → Found
  | null => .null
  | bool b => .bool b
  | number amount => .number amount
  | text s => .text s
  | array _ => .sequence
  | object _ => .map

/-- What the head of a draft is found to be, if it means anything. -/
def Draft.found : Draft → ReadResult Found
  | .broken => .error .malformed
  | .null => .ok .null
  | .bool b => .ok (.bool b)
  | .number none => .error .malformed
  | .number (some amount) => .ok (.number amount)
  | .text none => .error .malformed
  | .text (some s) => .ok (.text s)
  | .array _ => .ok .sequence
  | .object _ => .ok .map

/-- Refuses a draft because something else was wanted. -/
def Draft.refuse {α : Type} (d : Draft) (wanted : String) : ReadResult α :=
  match d.found with
  | .error e => .error e
  | .ok f => .error (.mismatch (.wrongType f wanted))

/-- The value of a name among options. -/
def chooseNamed {α : Type} (options : List (String × α)) (name : String) : Except Mismatch α :=
  match options.find? (·.1 == name) with
  | some (_, value) => .ok value
  | none => .error (.unknownVariant name (options.map Prod.fst))

/-- A step that knows only of mismatches, among steps that know of malformed text too. -/
def ReadResult.ofMismatch {α : Type} : Except Mismatch α → ReadResult α
  | .ok a => .ok a
  | .error why => .error (.mismatch why)

/-- A text that holds one value of the wanted shape and nothing else. -/
def readText {α : Type} (decode : Draft → ReadResult α) (text : String) : ReadResult α :=
  let reading := Reading.ofText text
  match decode reading.root with
  | .error e => .error e
  | .ok a => if reading.trailing then .error .malformed else .ok a

/-- Reads a string. -/
def readString : Draft → ReadResult String
  | .text (some s) => .ok s
  | d => d.refuse "a string"

/-- Reads one of some named options: its name, or an object that gives the name a null. -/
def readOption {α : Type} (room : Nat) (options : List (String × α)) : Draft → ReadResult α
  | .text (some s) => .ofMismatch (chooseNamed options s)
  | .object fields =>
    match room, fields with
    | 0, _ => .error .malformed
    | _ + 1, .ended => .error .malformed
    | _ + 1, .broken => .error .malformed
    | _ + 1, .field none _ _ => .error .malformed
    | _ + 1, .field (some s) value rest =>
      match chooseNamed options s with
      | .error why => .error (.mismatch why)
      | .ok chosen =>
        match value, rest with
        | .null, .ended => .ok chosen
        | .null, _ => .error .malformed
        | d, _ => d.refuse "unit"
  | _ => .error .malformed

end Json
end SolidScript
