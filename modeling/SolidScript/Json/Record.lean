import SolidScript.Json.Mismatch

/-!
# Records in JSON

A record is an object whose fields are known by name, or an array that holds them in order.  Fields
that are not there keep what they had; unknown fields of an object are passed over.
-/

namespace SolidScript
namespace Json

/-- Sets the fields of a record from an object.  `seen` are the names met before. -/
def recordOfFields {α : Type} (names : List String) (set : α → String → Draft → ReadResult α)
    (seen : List String) (record : α) : Fields → ReadResult α
  | .ended => .ok record
  | .broken => .error .malformed
  | .field none _ _ => .error .malformed
  | .field (some name) d rest =>
    if !names.contains name then
      if d.isWhole then recordOfFields names set seen record rest else .error .malformed
    else if seen.contains name then .error (.mismatch (.repeatedField name))
    else
      match set record name d with
      | .error e => .error e
      | .ok record' => recordOfFields names set (name :: seen) record' rest

/-- Sets the fields of a record from an array; it may be short but not long. -/
def recordOfItems {α : Type} (names : List String) (set : α → String → Draft → ReadResult α)
    (record : α) : Items → ReadResult α
  | .ended => .ok record
  | .broken => .error .malformed
  | .item d rest =>
    match names with
    | [] => .error .malformed
    | name :: others =>
      match set record name d with
      | .error e => .error e
      | .ok record' => recordOfItems others set record' rest

/-- Reads a record, given how a field is set at the depth inside it. -/
def readRecord {α : Type} (wanted : String) (names : List String)
    (set : Nat → α → String → Draft → ReadResult α) (record : α) (room : Nat) :
    Draft → ReadResult α
  | .object fields =>
    match room with
    | 0 => .error .malformed
    | inner + 1 => recordOfFields names (set inner) [] record fields
  | .array items =>
    match room with
    | 0 => .error .malformed
    | inner + 1 => recordOfItems names (set inner) record items
  | d => d.refuse wanted

/-- Reads a whole number that is not negative. -/
def readNatural (wanted : String) : Draft → ReadResult Nat
  | .number (some (.natural n)) => .ok n
  | .number (some (.negative n)) =>
    .error (.mismatch (.wrongValue (.number (.negative n)) wanted))
  | d => d.refuse wanted

/-- Reads a number, or a null in place of none. -/
def readOptionalNumber (wanted : String) : Draft → ReadResult (Option Number)
  | .null => .ok none
  | .number (some amount) => .ok (some amount.toNumber)
  | d => d.refuse wanted

end Json
end SolidScript
