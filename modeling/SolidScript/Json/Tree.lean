import SolidScript.Json.Draft

/-!
# JSON trees

A finished JSON value.  A tree read from a text has every name of an object once, with the value
that came last, and its names are sorted; a tree that is written keeps the order in which it was
made.
-/

namespace SolidScript

/-- A JSON value. -/
inductive Json where
  | null
  | bool (b : Bool)
  | number (amount : Json.Amount)
  | text (s : String)
  | array (items : List Json)
  | object (fields : List (String × Json))

namespace Json

instance : Inhabited Json := ⟨null⟩

/-- Puts a field where it belongs among fields sorted by name.  A field of that name gives way. -/
def insertField (name : String) (value : Json) : List (String × Json) → List (String × Json)
  | [] => [(name, value)]
  | (other, kept) :: rest =>
    if name = other then (name, value) :: rest
    else if name < other then (name, value) :: (other, kept) :: rest
    else (other, kept) :: insertField name value rest

/-- How deep arrays and objects may nest. -/
def depthLimit : Nat := 127

mutual
/-- The tree of a draft, if all of it is JSON with meaning and arrays and objects nest no deeper in
it than `room`. -/
def ofDraft? (room : Nat) : Draft → Option Json
  | .broken => none
  | .null => some .null
  | .bool b => some (.bool b)
  | .number amount => amount.map .number
  | .text s => s.map .text
  | .array items =>
    match room with
    | 0 => none
    | inner + 1 => (ofItems? inner items).map .array
  | .object fields =>
    match room with
    | 0 => none
    | inner + 1 => (ofFields? inner [] fields).map .object

/-- The trees of some items. -/
def ofItems? (room : Nat) : Items → Option (List Json)
  | .ended => some []
  | .broken => none
  | .item value rest =>
    match ofDraft? room value with
    | none => none
    | some json => (ofItems? room rest).map (json :: ·)

/-- The fields so far together with some more. -/
def ofFields? (room : Nat) (sofar : List (String × Json)) : Fields → Option (List (String × Json))
  | .ended => some sofar
  | .broken => none
  | .field name value rest =>
    match name, ofDraft? room value with
    | some s, some json => ofFields? room (insertField s json sofar) rest
    | _, _ => none
end

/-- The tree of a text that holds one JSON value and nothing else. -/
def read? (text : String) : Option Json :=
  let reading := Reading.ofText text
  if reading.trailing then none else ofDraft? depthLimit reading.root

/-- A character inside a string. -/
def escapeChar (c : Char) : List Char :=
  if c = '"' then ['\\', '"']
  else if c = '\\' then ['\\', '\\']
  else if c = '\x08' then ['\\', 'b']
  else if c = '\x0c' then ['\\', 'f']
  else if c = '\n' then ['\\', 'n']
  else if c = '\r' then ['\\', 'r']
  else if c = '\t' then ['\\', 't']
  else if c.toNat < 0x20 then
    ['\\', 'u', '0', '0'] ++ [Nat.digitChar (c.toNat / 16), Nat.digitChar (c.toNat % 16)]
  else [c]

/-- The text of a string. -/
def writeText (s : String) : String :=
  String.ofList ('"' :: (s.toList.flatMap escapeChar ++ ['"']))

mutual
/-- The text of a tree, without any blank.  A number that is not finite is written as `null`. -/
def write : Json → String
  | null => "null"
  | bool true => "true"
  | bool false => "false"
  | number amount => amount.write.getD "null"
  | text s => writeText s
  | array items => "[" ++ ",".intercalate (writeItems items) ++ "]"
  | object fields => "\x7b" ++ ",".intercalate (writeFields fields) ++ "\x7d"

/-- The texts of some items. -/
def writeItems : List Json → List String
  | [] => []
  | item :: rest => write item :: writeItems rest

/-- The texts of some fields. -/
def writeFields : List (String × Json) → List String
  | [] => []
  | (name, value) :: rest => (writeText name ++ ":" ++ write value) :: writeFields rest
end

end Json
end SolidScript
