import SolidScript.Config.Environment
import SolidScript.Config.Toml
import SolidScript.Files.Failure
import SolidScript.Saved.Import

/-!
# Loading and saving

What the contents of a file make: a configuration or the roots of a tree.
-/

namespace SolidScript

/-- What reading a file gives. -/
abbrev FileContents := Except FileError ByteArray

/-- The text in a file. -/
def textOf (contents : FileContents) : Except FileError String :=
  match contents with
  | .error e => .error e
  | .ok bytes =>
    match String.fromUTF8? bytes with
    | some text => .ok text
    | none => .error .notText

namespace Config

/-- The file in which a configuration is looked for. -/
def defaultFile : String := "scadforge.toml"

/-- The configuration in a file. -/
def ofFile (path : String) (contents : FileContents) : Except Failure Config :=
  match textOf contents with
  | .error e => .error (.configUnread path e)
  | .ok text =>
    match parseToml? text with
    | some config => .ok config
    | none => .error (.configMalformed path)

/-- The configuration in effect: that of a file, or the default when there is no file, with the
settings of the environment. -/
def load (path : String) (contents : Option FileContents) (env : Environment) :
    Except Failure Config :=
  match contents with
  | none => .ok (({} : Config).withEnvironment env)
  | some c => (ofFile path c).map (·.withEnvironment env)

end Config

/-- The roots of the tree in a file. -/
def rootsOfFile (path : String) (contents : FileContents) : Except Failure (List Node) :=
  match textOf contents with
  | .error e => .error (.treeUnread path e)
  | .ok text =>
    match Node.importAll text with
    | .error e => .error (.treeRejected path e)
    | .ok roots => .ok roots

end SolidScript
