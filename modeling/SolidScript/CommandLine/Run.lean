import SolidScript.CommandLine.Invocation
import SolidScript.CommandLine.Workspace
import SolidScript.Recording.Compose
import SolidScript.Report

/-!
# Runs

What the program does in a workspace.  The exit code is 0 for success, 1 for a failure and 2 for
arguments that make no invocation.  A failure to get a configuration is told with its causes on
lines of their own, a failure to emit a script with its causes on one line.
-/

namespace SolidScript
namespace CommandLine

variable {m : Type → Type} [Monad m]

/-- The configuration of the given file, or of the default file if there is one, with the settings
of the environment. -/
def readConfig (ws : Workspace m) (env : Environment) (path : Option String) :
    m (Except Failure Config) := do
  match path with
  | some path => return Config.load path (some (← ws.read path)) env
  | none =>
    if ← ws.has Config.defaultFile then
      return Config.load Config.defaultFile (some (← ws.read Config.defaultFile)) env
    else return Config.load Config.defaultFile none env

/-- The notes about the variables that are ignored. -/
def ignoredNotes (env : Environment) : List Note :=
  env.ignored.map fun (name, text) => .overrideIgnored name text

/-- The configuration in effect.  The environment is looked at only when there is a configuration
to lay it over. -/
def loadConfig (ws : Workspace m) (env : Environment) (path : Option String) :
    m (Except Failure Config) := do
  match ← readConfig ws env path with
  | .error failure => return .error failure
  | .ok config =>
    ws.log (ignoredNotes env)
    return .ok config

/-- Puts a script where it belongs. -/
def deliver (ws : Workspace m) (output : Option String) (script : String) :
    m (Except FileError Unit) :=
  match output with
  | some path => ws.write path script.toUTF8
  | none => ws.print script

/-- Makes sure that there is a file for the script, and empties it. -/
def prepare (ws : Workspace m) (output : Option String) : m (Except Failure Unit) := do
  match output with
  | none => return .ok ()
  | some path =>
    match ← ws.write path ByteArray.empty with
    | .ok () => return .ok ()
    | .error e => return .error (.outputRefused path e)

/-- Renders a document and delivers the script: how many bytes it has. -/
def deliverDocument (ws : Workspace m) (output : Option String) (document : Document) :
    m (Except Failure Nat) := do
  match ← prepare ws output with
  | .error failure => return .error failure
  | .ok () =>
    ws.log [.referencesHoisted document.references.length]
    match document.render with
    | .error fault => return .error (.script fault)
    | .ok script =>
      match ← deliver ws output script with
      | .error e => return .error (.undelivered e)
      | .ok () =>
        ws.log [.scriptWritten script.utf8ByteSize]
        return .ok script.utf8ByteSize

/-- Emits the script of the tree in a file, whose roots are recorded again one after the other. -/
def emitTree (ws : Workspace m) (input : String) (output : Option String) (config : Config) :
    m (Except Failure Report.Summary) := do
  if ← ws.has input then
    let start ← ws.now
    match rootsOfFile input (← ws.read input) with
    | .error failure => return .error failure
    | .ok roots =>
      ws.log [.recordingStarted]
      match Document.ofRecorder config (({} : Recorder).recordAll roots) with
      | .error fault => return .error (.script fault)
      | .ok document =>
        ws.log [.recordingFinished document.roots.length]
        match ← deliverDocument ws output document with
        | .error failure => return .error failure
        | .ok bytes =>
          let stop ← ws.now
          return .ok ⟨document.nodeCount, document.references.length, bytes, stop - start⟩
  else return .error (.inputMissing input)

/-- What is told of an emitted script. -/
def emitReport (color verbose : Bool) (input : String) (output : Option String)
    (summary : Report.Summary) : String :=
  if verbose then Report.emitted color input (output.getD "stdout") summary
  else
    match output with
    | some path => Report.success color ("Emitted " ++ input ++ " -> " ++ path)
    | none => ""

/-- Saves a configuration in a file. -/
def saveConfig (ws : Workspace m) (config : Config) (path : String) : m (Except Failure Unit) := do
  match config.toToml? with
  | none => return .error .configBeyondToml
  | some text =>
    match ← ws.write path text.toUTF8 with
    | .error e => return .error (.configUnwritten path e)
    | .ok () => return .ok ()

/-- Ends a run with a failure that is told in full. -/
def endWith (ws : Workspace m) (failure : Failure) : m Nat := do
  ws.tell (report failure.causes)
  return 1

/-- Saves the default configuration in a file, if there is nothing at the path yet. -/
def initConfig (ws : Workspace m) (color : Bool) (path : String) : m Nat := do
  if ← ws.has path then
    ws.tell (Report.warning color (path ++ " already exists, leaving it"))
    return 0
  else
    match ← saveConfig ws {} path with
    | .error failure => endWith ws failure
    | .ok () =>
      ws.tell (Report.success color ("Wrote " ++ path))
      return 0

/-- Shows the configuration in effect. -/
def showConfig (ws : Workspace m) (env : Environment) (color : Bool) : m Nat := do
  let source := if ← ws.has Config.defaultFile then Config.defaultFile else "defaults"
  match ← loadConfig ws env none with
  | .error failure => endWith ws failure
  | .ok config =>
    let _ ← ws.print (Report.configHeading color source)
    match config.toToml? with
    | none => endWith ws .configUnshown
    | some text =>
      let _ ← ws.print text
      return 0

/-- Emits what the options ask for. -/
def emit (ws : Workspace m) (env : Environment) (color verbose : Bool) (options : EmitOptions) :
    m Nat := do
  match ← loadConfig ws env options.config with
  | .error failure => endWith ws failure
  | .ok config =>
    match ← emitTree ws options.input options.output (options.overrides.apply config) with
    | .error failure =>
      ws.tell (Report.error color failure.line)
      return 1
    | .ok summary =>
      ws.tell (emitReport color verbose options.input options.output summary)
      return 0

/-- Runs an invocation and gives the exit code. -/
def Invocation.run (ws : Workspace m) (env : Environment) (color : Bool) (invocation : Invocation) :
    m Nat :=
  match invocation.request with
  | .emit options => emit ws env color invocation.verbose options
  | .showConfig => showConfig ws env color
  | .initConfig path => initConfig ws color path
  | .version => do
    let _ ← ws.print "Scadforge v0.1.0\n"
    return 0

/-- How the program is used. -/
def usage : String :=
  "Usage: scadforge [-v] emit INPUT [-o FILE] [-c FILE] [--fa N] [--fs N] [--fn N] " ++
    "[--statement-form]\n" ++
  "       scadforge [-v] config [--init FILE]\n" ++
  "       scadforge [-v] version\n"

/-- Runs the program with its arguments and gives the exit code. -/
def run (ws : Workspace m) (env : Environment) (color : Bool) (args : List String) : m Nat :=
  match Invocation.parse args with
  | .ok invocation => invocation.run ws env color
  | .error .helpWanted => do
    let _ ← ws.print usage
    return 0
  | .error .misused => do
    ws.tell usage
    return 2

end CommandLine
end SolidScript
