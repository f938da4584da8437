/-!
# The log

What a run notes about its own work, beside what it tells.  All of its notes are here.  Which of
them are shown, and with what beside them, such as the time, is decided by what shows them.
-/

namespace SolidScript
namespace CommandLine

/-- A note in the log. -/
inductive Note where
  /-- A variable gives no setting, and its text is left aside. -/
  | overrideIgnored (name text : String)
  | recordingStarted
  | recordingFinished (roots : Nat)
  | referencesHoisted (count : Nat)
  | scriptWritten (bytes : Nat)
  deriving DecidableEq, Repr

namespace Note

/-- Is the note a warning?  The others are for those who want to know every step. -/
def isWarning : Note → Bool
  | overrideIgnored _ _ => true
  | _ => false

/-- What a note says, with its figures after it. -/
def message : Note → String
  | overrideIgnored name text =>
    "ignoring unparsable override variable=\"" ++ name ++ "\" value=" ++ text
  | recordingStarted => "recording session started"
  | recordingFinished roots => "recording session finished roots=" ++ toString roots
  | referencesHoisted count => "hoisted external references references=" ++ toString count
  | scriptWritten bytes => "script written bytes=" ++ toString bytes

/-- The line of a note. -/
def line (note : Note) : String :=
  (if note.isWarning then "WARN " else "DEBUG ") ++ note.message ++ "\n"

end Note
end CommandLine
end SolidScript
