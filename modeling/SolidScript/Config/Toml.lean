import SolidScript.Config.Basic
import SolidScript.Number.Shortest
import SolidScript.Toml.Document

/-!
# Configurations in TOML

The form of a configuration in a file.  A setting that is not there has its default, and a whole
number may stand for a number of any kind but not the other way round.
-/

namespace SolidScript

open Toml (Fields)

/-- Numbers in TOML have no power of ten, and of two equally near decimals the larger is taken. -/
def tomlFloats : FloatStyle := ⟨fun _ => true, .away⟩

/-- The text of a number in TOML. -/
def Number.toToml : Number → String
  | nan => "nan"
  | infinity false => "inf"
  | infinity true => "-inf"
  | finite negative code => tomlFloats.write negative code

/-- The number that a value gives. -/
def numberOfToml? : Toml.Value → Option Number
  | .integer n => some (Number.ofInt n)
  | .float x => some x
  | _ => none

namespace Resolution

/-- The lines of the values that are set. -/
def toToml (r : Resolution) : String :=
  String.join ([("fa", r.fa), ("fs", r.fs), ("fn", r.fn)].filterMap fun (name, value) =>
    value.map fun x => name ++ " = " ++ x.toToml ++ "\n")

/-- A value by its name, which may be missing. -/
def field? (fields : Fields) (name : String) : Option (Option Number) :=
  match fields.get? name with
  | none => some none
  | some v => (numberOfToml? v).map some

/-- The resolution that a table gives. -/
def ofFields? (fields : Fields) : Option Resolution := do
  let fa ← field? fields "fa"
  let fs ← field? fields "fs"
  let fn ← field? fields "fn"
  some ⟨fa, fs, fn⟩

/-- The resolution that an array gives: its first items are the values in order. -/
def ofItems? : List Toml.Value → Option Resolution
  | [] => some {}
  | [a] => do
    let fa ← numberOfToml? a
    some { fa := some fa }
  | [a, b] => do
    let fa ← numberOfToml? a
    let fs ← numberOfToml? b
    some { fa := some fa, fs := some fs }
  | a :: b :: c :: _ => do
    let fa ← numberOfToml? a
    let fs ← numberOfToml? b
    let fn ← numberOfToml? c
    some ⟨some fa, some fs, some fn⟩

/-- The resolution that a value gives.  A date counts as a table without any of the names. -/
def ofToml? : Toml.Value → Option Resolution
  | .table _ fields => ofFields? fields
  | .array items => ofItems? items
  | .moment => some {}
  | _ => none

end Resolution

/-- Does the value hold nothing? -/
def isEmptyToml : Toml.Value → Bool
  | .array items => items.isEmpty
  | .table _ fields => fields.isEmpty
  | _ => false

/-- The style that a value gives: its name, or a table with nothing but its name. -/
def TransformStyle.ofToml? : Toml.Value → Option TransformStyle
  | .text s => ofName? s
  | .table _ [(name, v)] => if isEmptyToml v then ofName? name else none
  | _ => none

namespace Config

/-- The configuration that a table gives. -/
def ofFields? (fields : Fields) : Option Config := do
  let indent ← match fields.get? "indent" with
    | none => some ({} : Config).indent
    | some (.integer (.ofNat n)) => some n
    | some _ => none
  let style ← match fields.get? "transform_style" with
    | none => some ({} : Config).style
    | some v => TransformStyle.ofToml? v
  let resolution ← match fields.get? "resolution" with
    | none => some ({} : Config).resolution
    | some v => Resolution.ofToml? v
  some ⟨indent, style, resolution⟩

/-- The configuration that a text in TOML describes. -/
def parseToml? (text : String) : Option Config := (Toml.parse? text).bind ofFields?

/-- The text of a configuration in TOML.  There is none for an indentation beyond the whole numbers
of TOML. -/
def toToml? (config : Config) : Option String :=
  if config.indent < Nat.pow 2 63 then
    some ("indent = " ++ toString config.indent ++ "\ntransform_style = \"" ++ config.style.name ++
      "\"\n\n[resolution]\n" ++ config.resolution.toToml)
  else none

end Config
end SolidScript
