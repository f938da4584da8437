import SolidScript.Recording.Program
import SolidScript.Script.Sink

/-!
# From compositions to documents

The ways to make a document or a script from a composition: the composition runs on a new recorder,
which is finished afterwards.
-/

namespace SolidScript

/-- Why there is no document of a composition that may fail. -/
inductive ComposeError where
  | failed (message : String)
  | fault (fault : Fault)
  deriving DecidableEq, Repr

namespace Document

/-- The document of what a recorder holds. -/
def ofRecorder (config : Config) (recorder : Recorder) : Except Fault Document :=
  match recorder.finish with
  | .error fault => .error fault
  | .ok roots => .ok ⟨config, roots⟩

/-- The document of what a recorder holds after a composition that may fail. -/
def ofOutcome (config : Config) (outcome : Outcome) (recorder : Recorder) :
    Except ComposeError Document :=
  match outcome with
  | .failed message => .error (.failed message)
  | _ =>
    match ofRecorder config recorder with
    | .error fault => .error (.fault fault)
    | .ok document => .ok document

/-- The script of what a recorder holds. -/
def renderRecorder (config : Config) (recorder : Recorder) : Except Fault String :=
  match ofRecorder config recorder with
  | .error fault => .error fault
  | .ok document => document.render

/-- Writes the script of what a recorder holds to a sink. -/
def writeRecorder {σ : Type} (config : Config) (recorder : Recorder) (sink : Sink σ) (state : σ) :
    Except Fault Nat × σ :=
  match ofRecorder config recorder with
  | .error fault => (.error fault, state)
  | .ok document => document.writeTo sink state

end Document
end SolidScript
