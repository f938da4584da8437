import SolidScript.Toml.Scalar

/-!
# TOML documents

A document is a list of statements: headers, which open a table, and settings, which add to the
table that was opened last.
-/

namespace SolidScript
namespace Toml

/-- A setting: the path to its table, its own name and its value. -/
structure Setting where
  path : List String
  name : String
  value : Value

/-- Splits names into a path and the last name. -/
def splitLast : List String → Option (List String × String)
  | [] => none
  | [name] => some ([], name)
  | name :: rest => (splitLast rest).map fun (path, last) => (name :: path, last)

/-- A name, an equals sign and a value, with spaces around the sign. -/
def setting (value : Reader Value) (cs : List Char) : Option (Setting × List Char) := do
  let (all, rest) ← dottedName cs
  let (path, name) ← splitLast all
  let rest ← take ['='] rest
  let (v, after) ← value (skipSpaces rest)
  some (⟨path, name, v⟩, after)

/-- Adds settings one after the other. -/
def addSettings (fields : Fields) : List Setting → Option Fields
  | [] => some fields
  | s :: rest =>
    match Fields.addDotted? s.name s.value s.path fields with
    | none => none
    | some fields' => addSettings fields' rest

/-- The items of an array after its opening bracket, and its closing bracket.  `fuel` bounds their
number. -/
def items (value : Reader Value) : Nat → Reader (List Value)
  | 0, _ => none
  | fuel + 1, cs =>
    match skipLines (cs.length + 1) cs with
    | ']' :: rest => some ([], rest)
    | start =>
      match value start with
      | none => none
      | some (v, rest) =>
        match skipLines (rest.length + 1) rest with
        | ',' :: more => (items value fuel more).map fun (vs, after) => (v :: vs, after)
        | ']' :: after => some ([v], after)
        | _ => none

/-- The settings between braces after the first one, each with its comma, and the closing brace.
`fuel` bounds their number. -/
def bracedRest (value : Reader Value) : Nat → Reader (List Setting)
  | 0, _ => none
  | fuel + 1, cs =>
    match skipSpaces cs with
    | '\x7d' :: rest => some ([], rest)
    | ',' :: rest =>
      match setting value rest with
      | none => none
      | some (s, after) => (bracedRest value fuel after).map fun (ss, end') => (s :: ss, end')
    | _ => none

/-- The settings between braces after the opening brace, and the closing brace. -/
def braced (value : Reader Value) (cs : List Char) : Option (List Setting × List Char) :=
  match skipSpaces cs with
  | '\x7d' :: rest => some ([], rest)
  | start =>
    match setting value start with
    | none => none
    | some (s, after) =>
      (bracedRest value (after.length + 1) after).map fun (ss, end') => (s :: ss, end')

/-- A value; arrays and braces nest no deeper in it than `room`. -/
def value : Nat → Reader Value
  | room, '[' :: rest =>
    match room with
    | 0 => none
    | inner + 1 =>
      (items (fun cs => value inner cs) (rest.length + 1) rest).map fun (vs, after) =>
        (.array vs, after)
  | room, '\x7b' :: rest =>
    match room with
    | 0 => none
    | inner + 1 =>
      match braced (fun cs => value inner cs) rest with
      | none => none
      | some (settings, after) =>
        (addSettings [] settings).map fun fields => (.table .braces fields, after)
  | _, cs => scalar cs

/-- A statement. -/
inductive Statement where
  /-- A header; `doubled` when it has two brackets on each side. -/
  | header (doubled : Bool) (path : List String)
  | setting (s : Setting)

/-- A header, which begins with a bracket. -/
def header : Reader Statement
  | '[' :: '[' :: rest => do
    let (path, rest) ← dottedName rest
    let after ← take [']', ']'] rest
    some (.header true path, after)
  | '[' :: rest => do
    let (path, rest) ← dottedName rest
    let after ← take [']'] rest
    some (.header false path, after)
  | _ => none

/-- One statement with the end of its line. -/
def statement (cs : List Char) : Option (Statement × List Char) := do
  let (s, rest) ← match cs with
    | '[' :: _ => header cs
    | _ => (setting (value (nestingLimit - 1)) cs).map fun (s, rest) => (Statement.setting s, rest)
  let after ← endOfLine? rest
  some (s, after)

/-- The statements of a text.  `fuel` bounds their number. -/
def statements : Nat → List Char → Option (List Statement)
  | 0, _ => none
  | fuel + 1, cs =>
    match skipLines (cs.length + 1) cs with
    | [] => some []
    | start =>
      match statement start with
      | none => none
      | some (s, rest) => (statements fuel rest).map (s :: ·)

/-- The settings up to the next header, and the statements from that header on. -/
def takeSettings : List Statement → List Setting × List Statement
  | .setting s :: rest =>
    let (ss, others) := takeSettings rest
    (s :: ss, others)
  | others => ([], others)

/-- Adds the tables of headers one after the other.  `fuel` bounds their number. -/
def addSections : Nat → Fields → List Statement → Option Fields
  | 0, _, _ => none
  | _ + 1, fields, [] => some fields
  | fuel + 1, fields, .header doubled path :: rest =>
    let (ss, others) := takeSettings rest
    match Fields.addSection? doubled (fun inner => addSettings inner ss) path fields with
    | none => none
    | some fields' => addSections fuel fields' others
  | _ + 1, _, .setting _ :: _ => none

/-- The text without a byte order mark at its front. -/
def dropMark : List Char → List Char
  | c :: rest => if c = '\ufeff' then rest else c :: rest
  | [] => []

/-- The table that a text describes, if it is a TOML document. -/
def parse? (text : String) : Option Fields :=
  let cs := dropMark text.toList
  match statements (cs.length + 1) cs with
  | none => none
  | some all =>
    let (ss, others) := takeSettings all
    match addSettings [] ss with
    | none => none
    | some fields => addSections (others.length + 1) fields others

end Toml
end SolidScript
