import SolidScript.Config.Basic
import SolidScript.Number.Decimal
import SolidScript.Text.Blank

/-!
# Settings from the environment

Each setting has a variable of its own.  A variable counts when its text, without the blanks at its
ends, is a value of that setting; otherwise it changes nothing.
-/

namespace SolidScript

/-- The variables of an environment. -/
abbrev Environment := List (String × String)

namespace Environment

/-- The text of a variable. -/
def get? (env : Environment) (name : String) : Option String :=
  (env.find? (·.1 == name)).map Prod.snd

/-- The text of a variable without the blanks at its ends. -/
def trimmed? (env : Environment) (name : String) : Option String :=
  (env.get? name).map fun text => String.ofList (Text.trim text.toList)

/-- The number that a variable gives. -/
def number? (env : Environment) (name : String) : Option Number :=
  (env.trimmed? name).bind Number.parse?

/-- The whole number below `2 ^ 64` that a variable gives. -/
def natural? (env : Environment) (name : String) : Option Nat :=
  (env.trimmed? name).bind (parseNatural? (Nat.pow 2 64))

/-- The style that a variable gives. -/
def style? (env : Environment) (name : String) : Option TransformStyle :=
  (env.trimmed? name).bind fun text => (TransformStyle.parse text).toOption

/-- The variables that hold settings, in the order in which they are looked at, each with whether it
gives a setting. -/
def settingVariables (env : Environment) : List (String × Bool) := [
  ("SCADFORGE_FA", (env.number? "SCADFORGE_FA").isSome),
  ("SCADFORGE_FS", (env.number? "SCADFORGE_FS").isSome),
  ("SCADFORGE_FN", (env.number? "SCADFORGE_FN").isSome),
  ("SCADFORGE_INDENT", (env.natural? "SCADFORGE_INDENT").isSome),
  ("SCADFORGE_TRANSFORM_STYLE", (env.style? "SCADFORGE_TRANSFORM_STYLE").isSome)]

/-- The variables that are there and give no setting, with their texts. -/
def ignored (env : Environment) : List (String × String) :=
  (env.settingVariables.filter (!·.2)).filterMap fun (name, _) => (env.get? name).map (name, ·)

end Environment

namespace Config

/-- The variables that hold settings. -/
def variableNames : List String :=
  ["SCADFORGE_FA", "SCADFORGE_FS", "SCADFORGE_FN", "SCADFORGE_INDENT", "SCADFORGE_TRANSFORM_STYLE"]

/-- The configuration with the settings that the environment gives. -/
def withEnvironment (config : Config) (env : Environment) : Config :=
  { indent := (env.natural? "SCADFORGE_INDENT").getD config.indent
    style := (env.style? "SCADFORGE_TRANSFORM_STYLE").getD config.style
    resolution :=
      { fa := (env.number? "SCADFORGE_FA").or config.resolution.fa
        fs := (env.number? "SCADFORGE_FS").or config.resolution.fs
        fn := (env.number? "SCADFORGE_FN").or config.resolution.fn } }

end Config
end SolidScript
