import SolidScript.Number.Decimal

/-!
# TOML values and tables

A TOML document is a table.  How a table came about decides what may be added to it later
(`Origin`): a value in braces is finished; a table under a header of its own takes no second header
and no dotted names; a table that only stands in the path of a header may still get its own; a table
made by dotted names takes more dotted names.
-/

namespace SolidScript
namespace Toml

/-- How a table came about. -/
inductive Origin where
  | braces | header | path | dotted
  deriving DecidableEq, Repr

/-- A TOML value. -/
inductive Value where
  | text (s : String)
  | integer (n : Int)
  | float (x : Number)
  | boolean (b : Bool)
  /-- A date, a time or both. -/
  | moment
  | array (items : List Value)
  | table (origin : Origin) (fields : List (String × Value))
  /-- Tables under the same doubled header, the last one first. -/
  | tables (last : List (String × Value)) (earlier : List (List (String × Value)))

/-- The fields of a table. -/
abbrev Fields := List (String × Value)

namespace Fields

/-- The value of a name. -/
def get? (fields : Fields) (name : String) : Option Value :=
  (fields.find? (·.1 == name)).map Prod.snd

/-- Replaces the value of a name that is there, or adds the name at the end. -/
def put (fields : Fields) (name : String) (value : Value) : Fields :=
  if fields.any (·.1 == name) then
    fields.map fun entry => if entry.1 == name then (name, value) else entry
  else fields ++ [(name, value)]

/-- Adds a name that must not be there. -/
def add? (fields : Fields) (name : String) (value : Value) : Option Fields :=
  if fields.any (·.1 == name) then none else some (fields ++ [(name, value)])

/-- Sets a dotted name: the path leads through tables made by dotted names, which are made when they
are missing.  It may pass through a table that only stands in the path of a header, or through the
last of some tables, but not end there. -/
def addDotted? (name : String) (value : Value) : List String → Fields → Option Fields
  | [], fields => fields.add? name value
  | key :: rest, fields =>
    match fields.get? key with
    | none => (addDotted? name value rest []).map fun inner => fields.put key (.table .dotted inner)
    | some (.table .dotted inner) =>
      (addDotted? name value rest inner).map fun inner' => fields.put key (.table .dotted inner')
    | some (.table .path inner) =>
      if rest.isEmpty then none
      else (addDotted? name value rest inner).map fun inner' => fields.put key (.table .path inner')
    | some (.tables last earlier) =>
      if rest.isEmpty then none
      else (addDotted? name value rest last).map fun last' => fields.put key (.tables last' earlier)
    | some _ => none

/-- Opens the table of a header and fills it; `doubled` says that the header adds a table to some
tables of that name. -/
def addSection? (doubled : Bool) (fill : Fields → Option Fields) :
    List String → Fields → Option Fields
  | [], _ => none
  | [key], fields =>
    match doubled, fields.get? key with
    | false, none => (fill []).map fun inner => fields.put key (.table .header inner)
    | false, some (.table .path inner) =>
      (fill inner).map fun inner' => fields.put key (.table .header inner')
    | true, none => (fill []).map fun inner => fields.put key (.tables inner [])
    | true, some (.tables last earlier) =>
      (fill []).map fun inner => fields.put key (.tables inner (last :: earlier))
    | _, _ => none
  | key :: rest, fields =>
    match fields.get? key with
    | none =>
      (addSection? doubled fill rest []).map fun inner => fields.put key (.table .path inner)
    | some (.table .braces _) => none
    | some (.table origin inner) =>
      (addSection? doubled fill rest inner).map fun inner' => fields.put key (.table origin inner')
    | some (.tables last earlier) =>
      (addSection? doubled fill rest last).map fun last' => fields.put key (.tables last' earlier)
    | some _ => none

end Fields
end Toml
end SolidScript
