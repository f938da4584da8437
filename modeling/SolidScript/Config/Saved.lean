import SolidScript.Config.Basic
import SolidScript.Json.Record

/-!
# Saved configurations

The JSON form of a configuration.  Reading starts from the default configuration, so that a setting
that is not there has its default.
-/

namespace SolidScript

open Json

namespace Resolution

/-- The JSON form: the values that are set. -/
def toJson (r : Resolution) : Json :=
  .object ([("fa", r.fa), ("fs", r.fs), ("fn", r.fn)].filterMap fun (name, value) =>
    value.map fun x => (name, Json.number (.float x)))

/-- The names of the values, in order. -/
def fieldNames : List String := ["fa", "fs", "fn"]

/-- Sets the value with the given name. -/
def setFromDraft (_ : Nat) (r : Resolution) (name : String) (d : Draft) :
    ReadResult Resolution := do
  let x ← readOptionalNumber "f64" d
  if name = "fa" then .ok { r with fa := x }
  else if name = "fs" then .ok { r with fs := x }
  else .ok { r with fn := x }

/-- Reads a resolution. -/
def ofDraft (room : Nat) (d : Draft) : ReadResult Resolution :=
  readRecord "struct Resolution" fieldNames setFromDraft {} room d

end Resolution

/-- The styles by their names. -/
def TransformStyle.options : List (String × TransformStyle) :=
  TransformStyle.all.map fun x => (x.name, x)

namespace Config

/-- The JSON form. -/
def toJson (config : Config) : Json :=
  .object [("indent", .number (.natural config.indent)),
    ("transform_style", .text config.style.name), ("resolution", config.resolution.toJson)]

/-- The names of the settings, in order. -/
def fieldNames : List String := ["indent", "transform_style", "resolution"]

/-- Sets the setting with the given name. -/
def setFromDraft (room : Nat) (config : Config) (name : String) (d : Draft) : ReadResult Config :=
  if name = "indent" then do
    let n ← readNatural "usize" d
    .ok (config.withIndent n)
  else if name = "transform_style" then do
    let style ← readOption room TransformStyle.options d
    .ok (config.withStyle style)
  else do
    let r ← Resolution.ofDraft room d
    .ok (config.withResolution r)

/-- Reads a configuration. -/
def ofDraft (room : Nat) (d : Draft) : ReadResult Config :=
  readRecord "struct RenderConfig" fieldNames setFromDraft {} room d

/-- Reads a configuration from a text. -/
def readJson (text : String) : ReadResult Config := readText (ofDraft depthLimit) text

end Config
end SolidScript
