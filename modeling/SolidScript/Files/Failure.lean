import SolidScript.Json.Mismatch
import SolidScript.Script.Fault

/-!
# Failures around files

What can go wrong when configurations and trees are loaded, saved and emitted.  A failure is told as
a chain of causes, the outermost first.
-/

namespace SolidScript

/-- Why a file could not be read or written. -/
inductive FileError where
  | notFound
  | isDirectory
  | notDirectory
  | denied
  | nameTooLong
  /-- A name with a null character in it. -/
  | nulInName
  /-- The bytes are no UTF-8. -/
  | notText
  /-- Anything else, as the system puts it. -/
  | other (text : String)
  deriving DecidableEq, Repr

/-- How the system puts it. -/
def FileError.message : FileError → String
  | notFound => "No such file or directory (os error 2)"
  | isDirectory => "Is a directory (os error 21)"
  | notDirectory => "Not a directory (os error 20)"
  | denied => "Permission denied (os error 13)"
  | nameTooLong => "File name too long (os error 36)"
  | nulInName => "file name contained an unexpected NUL byte"
  | notText => "stream did not contain valid UTF-8"
  | other text => text

/-- One cause in a chain. -/
inductive Cause where
  | told (text : String)
  | file (error : FileError)
  | malformedJson
  | malformedToml
  /-- A number that TOML has no place for. -/
  | beyondToml
  deriving DecidableEq, Repr

def Cause.message : Cause → String
  | told text => text
  | file error => error.message
  | malformedJson => "malformed JSON"
  | malformedToml => "malformed TOML"
  | beyondToml => "out-of-range value for u64 type"

/-- A failure. -/
inductive Failure where
  | configUnread (path : String) (error : FileError)
  | configMalformed (path : String)
  | configBeyondToml
  | configUnshown
  | configUnwritten (path : String) (error : FileError)
  | treeUnread (path : String) (error : FileError)
  | treeRejected (path : String) (error : Json.ReadError)
  | inputMissing (path : String)
  | outputRefused (path : String) (error : FileError)
  | undelivered (error : FileError)
  | script (fault : Fault)
  deriving DecidableEq, Repr

/-- The causes of a text that is no tree. -/
def Json.ReadError.causes : Json.ReadError → List Cause
  | malformed => [.told "Invalid JSON", .malformedJson]
  | mismatch why => [.told why.message]

namespace Failure

/-- The causes, the outermost first. -/
def causes : Failure → List Cause
  | configUnread path error =>
    [.told ("Failed to read config file: " ++ Text.display path), .file error]
  | configMalformed path =>
    [.told ("Failed to parse config file: " ++ Text.display path), .malformedToml]
  | configBeyondToml => [.told "Failed to serialize config", .beyondToml]
  | configUnshown => [.beyondToml]
  | configUnwritten path error =>
    [.told ("Failed to write config file: " ++ Text.display path), .file error]
  | treeUnread path error => [.told ("Failed to read tree file: " ++ path), .file error]
  | treeRejected path error => .told ("Failed to parse tree file: " ++ path) :: error.causes
  | inputMissing path => [.told ("Input file not found: " ++ path)]
  | outputRefused path error => [.told ("Failed to create " ++ path), .file error]
  | undelivered error => [.told Fault.sink.message, .file error]
  | script fault => [.told fault.message]

/-- The causes on one line. -/
def line (failure : Failure) : String := ": ".intercalate (failure.causes.map Cause.message)

end Failure

/-- The causes after the first, each on a line of its own and numbered if there are several. -/
def numberedCauses (causes : List Cause) : List String :=
  match causes with
  | [cause] => ["    " ++ cause.message]
  | _ => (List.range causes.length).zip causes |>.map fun (n, cause) =>
      "    " ++ toString n ++ ": " ++ cause.message

/-- The causes in full, as a program that ends with them shows them. -/
def report (causes : List Cause) : String :=
  match causes with
  | [] => ""
  | [cause] => "Error: " ++ cause.message ++ "\n"
  | cause :: rest =>
    "Error: " ++ cause.message ++ "\n\nCaused by:\n" ++
      String.join ((numberedCauses rest).map (· ++ "\n"))

end SolidScript
