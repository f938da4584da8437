import SolidScript.CommandLine.Run

/-!
# The program

The workspace of the system, and the start of the program in it.
-/

namespace SolidScript
namespace CommandLine

/-- The number of an error of the system.  Some actions report it with its sign reversed. -/
def errorNumber (code : UInt32) : Nat :=
  if code.toNat < Nat.pow 2 31 then code.toNat else Nat.pow 2 32 - code.toNat

/-- What an error of the system means for a file. -/
def fileError : IO.Error → FileError
  | .noFileOrDirectory .. => .notFound
  | .permissionDenied .. => .denied
  | .inappropriateType _ code details =>
    match errorNumber code with
    | 20 => .notDirectory
    | 21 => .isDirectory
    | _ => .other details
  | .invalidArgument _ code details =>
    match errorNumber code with
    | 22 => .nulInName
    | 36 => .nameTooLong
    | _ => .other details
  | error => .other (toString error)

/-- Runs an action and keeps its error as a value. -/
def attempted {α : Type} (action : IO α) : IO (Except FileError α) :=
  try
    return .ok (← action)
  catch error => return .error (fileError error)

/-- The workspace of the system.  Of the log it shows the warnings, and in a verbose run all. -/
def systemWorkspace (verbose : Bool) : Workspace IO where
  has path := do
    match ← attempted (IO.FS.realPath path) with
    | .ok _ => return true
    | .error _ => return false
  read path := attempted (IO.FS.readBinFile path)
  write path bytes := attempted (IO.FS.writeBinFile path bytes)
  print text := attempted do
    let out ← IO.getStdout
    out.putStr text
    out.flush
  tell text := do (← IO.getStderr).putStr text
  log notes := do
    for note in notes do
      if verbose || note.isWarning then (← IO.getStderr).putStr note.line
  now := return (← IO.monoNanosNow) / 1000

/-- The variables of the system that the program looks at. -/
def systemEnvironment : IO Environment :=
  (Config.variableNames ++ Report.colorVariables).filterMapM fun name => do
    return (← IO.getEnv name).map (name, ·)

end CommandLine
end SolidScript

open SolidScript.CommandLine in
def main (args : List String) : IO UInt32 := do
  let env ← systemEnvironment
  let color := SolidScript.Report.wantsColor env (← (← IO.getStdout).isTty)
  let verbose := (Invocation.parse args).toOption.any (·.verbose)
  let code ← run (systemWorkspace verbose) env color args
  return code.toUInt32
