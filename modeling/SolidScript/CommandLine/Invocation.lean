import SolidScript.CommandLine.Switch
import SolidScript.Config.Basic

/-!
# Invocations

The commands of the program with what they are given, and how they are read from its arguments.
-/

namespace SolidScript
namespace CommandLine

/-- The settings that a command line gives, each of which replaces that of the configuration. -/
structure Overrides where
  fa : Option Number := none
  fs : Option Number := none
  fn : Option Number := none
  /-- Is a transform around one statement to be written without braces? -/
  statementForm : Bool := false
  deriving DecidableEq, Repr

/-- The configuration with the settings of a command line. -/
def Overrides.apply (overrides : Overrides) (config : Config) : Config :=
  { config with
    style := if overrides.statementForm then .statement else config.style
    resolution :=
      { fa := overrides.fa.or config.resolution.fa
        fs := overrides.fs.or config.resolution.fs
        fn := overrides.fn.or config.resolution.fn } }

/-- What is to be emitted, and where to. -/
structure EmitOptions where
  input : String
  /-- The file that gets the script, or else the standard output does. -/
  output : Option String := none
  /-- The file with the configuration, if it is not the default one. -/
  config : Option String := none
  overrides : Overrides := {}
  deriving DecidableEq, Repr

/-- A command. -/
inductive Request where
  /-- Writes the script of a tree. -/
  | emit (options : EmitOptions)
  /-- Shows the configuration in effect. -/
  | showConfig
  /-- Makes a file with the default configuration. -/
  | initConfig (path : String)
  | version
  deriving DecidableEq, Repr

/-- A command and whether to report on it at length. -/
structure Invocation where
  verbose : Bool
  request : Request
  deriving DecidableEq, Repr

def verboseSwitch : Switch := ⟨"verbose", some 'v', .flag⟩

/-- What may stand in front of the name of a command. -/
def leadingGrammar : Grammar := { switches := [helpSwitch, verboseSwitch] }

def emitGrammar : Grammar where
  switches := [helpSwitch, verboseSwitch, ⟨"output", some 'o', .path⟩, ⟨"config", some 'c', .path⟩,
    ⟨"fa", none, .number⟩, ⟨"fs", none, .number⟩, ⟨"fn", none, .number⟩,
    ⟨"statement-form", none, .flag⟩]
  words := ["INPUT"]

def configGrammar : Grammar where
  switches := [helpSwitch, verboseSwitch, ⟨"init", none, .path⟩]

def versionGrammar : Grammar where
  switches := [helpSwitch, verboseSwitch]

/-- The number given by a switch. -/
def numberOf? (r : Reading) (name : String) : Option Number := (r.get? name).bind Number.parse?

/-- The command to emit. -/
def emitRequest (r : Reading) : Except Refusal Request :=
  match r.get? "INPUT" with
  | none => .error .misused
  | some input =>
    .ok (.emit
      { input
        output := r.get? "output"
        config := r.get? "config"
        overrides :=
          { fa := numberOf? r "fa"
            fs := numberOf? r "fs"
            fn := numberOf? r "fn"
            statementForm := r.has "statement-form" } })

/-- The command about configurations. -/
def configRequest (r : Reading) : Except Refusal Request :=
  match r.get? "init" with
  | some path => .ok (.initConfig path)
  | none => .ok .showConfig

/-- The commands by their names, with what they take and what that makes. -/
def commands : List (String × Grammar × (Reading → Except Refusal Request)) := [
  ("emit", emitGrammar, emitRequest),
  ("config", configGrammar, configRequest),
  ("version", versionGrammar, fun _ => .ok .version)]

/-- The answer to a call for help, which may name one command, also that for help itself. -/
def helpOn : List String → Refusal
  | [] => .helpWanted
  | [name] =>
    if name = "help" || commands.any (·.1 == name) then .helpWanted else .misused
  | _ => .misused

/-- Does the argument look like a switch? -/
def looksLikeSwitch (arg : String) : Bool :=
  match arg.toList with
  | '-' :: _ :: _ => true
  | _ => false

/-- The invocation that the arguments of the program make. -/
def Invocation.parse (args : List String) : Except Refusal Invocation := do
  let leading ← Reading.readAll leadingGrammar (args.takeWhile looksLikeSwitch)
  if leading.closed then .error .misused
  else
    match args.dropWhile looksLikeSwitch with
    | [] => .error .misused
    | "help" :: names => .error (helpOn names)
    | name :: rest =>
      match commands.find? (·.1 == name) with
      | none => .error .misused
      | some (_, grammar, make) => do
        let r ← Reading.readAll grammar rest
        let request ← make r
        .ok ⟨leading.has "verbose" || r.has "verbose", request⟩

end CommandLine
end SolidScript
