import SolidScript.Number.Basic

/-!
# Configuration

The settings of a script: how far nested statements are indented, how a transform around a single
statement is written, and the three values that set the resolution of curves.
-/

namespace SolidScript

/-- How a transform around exactly one statement is written. -/
inductive TransformStyle where
  /-- With braces. -/
  | block
  /-- Without braces, the statement standing on the next line. -/
  | statement
  deriving DecidableEq, Repr

namespace TransformStyle

def all : List TransformStyle := [block, statement]

def name : TransformStyle → String
  | block => "block"
  | statement => "statement"

def ofName? (name : String) : Option TransformStyle := all.find? (·.name == name)

/-- The style with the given name, in any case of its letters. -/
def parse (text : String) : Except String TransformStyle :=
  let lower := text.map Char.toLower
  match ofName? lower with
  | some style => .ok style
  | none => .error ("unknown transform style: " ++ lower)

end TransformStyle

/-- The resolution of curves; a value that is not set is left to the reader of the script. -/
structure Resolution where
  fa : Option Number := none
  fs : Option Number := none
  fn : Option Number := none
  deriving DecidableEq, Repr

namespace Resolution

/-- The variables that are set, in the order in which a script assigns them. -/
def assignments (r : Resolution) : List (String × Number) :=
  [("$fa", r.fa), ("$fs", r.fs), ("$fn", r.fn)].filterMap fun (name, value) =>
    value.map (name, ·)

/-- Is no value set? -/
def isEmpty (r : Resolution) : Bool := r.fa.isNone && r.fs.isNone && r.fn.isNone

end Resolution

/-- The settings of a script. -/
structure Config where
  /-- Spaces for each level of nesting. -/
  indent : Nat := 2
  style : TransformStyle := .block
  resolution : Resolution := {}
  deriving DecidableEq, Repr

namespace Config

instance : Inhabited Config := ⟨{}⟩

def withFa (config : Config) (x : Number) : Config :=
  { config with resolution := { config.resolution with fa := some x } }

def withFs (config : Config) (x : Number) : Config :=
  { config with resolution := { config.resolution with fs := some x } }

def withFn (config : Config) (x : Number) : Config :=
  { config with resolution := { config.resolution with fn := some x } }

def withResolution (config : Config) (resolution : Resolution) : Config :=
  { config with resolution := resolution }

def withStyle (config : Config) (style : TransformStyle) : Config :=
  { config with style := style }

def withIndent (config : Config) (indent : Nat) : Config :=
  { config with indent := indent }

end Config
end SolidScript
