import SolidScript.Recording.Recorder

/-!
# Composition programs

A composition is a list of commands that run one after the other on a recorder.  A command ends
well, or fails with a message, or unwinds; a list of commands stops at the first that does not end
well.  A nesting command runs its body in a scope of its own and attaches what was recorded there
when the body ends well.  Recorders can also be moved out of their place and back, so that a scope
may be closed on another recorder than the one it was opened on.
-/

namespace SolidScript

/-- How a command or a body ends. -/
inductive Outcome where
  | done
  | failed (message : String)
  | unwinding (text : String)
  deriving DecidableEq, Repr

/-- A command. -/
inductive Command where
  /-- Records a node.  `label` is the name under which the command is traced. -/
  | leaf (label : String) (node : Node)
  /-- Runs the body in a scope.  A void body has no failures to report: one that fails ends there
  and counts as having ended well. -/
  | within (label : String) (frame : Frame) (void : Bool) (body : List Command)
  /-- Runs the body a number of times. -/
  | repeated (times : Nat) (body : List Command)
  /-- Runs the body inside a number of scopes of the same frame. -/
  | nested (depth : Nat) (frame : Frame) (body : List Command)
  | fail (message : String)
  /-- Runs the body and recovers from its failure. -/
  | attempt (body : List Command)
  | unwind (text : String)
  /-- Runs the body and stops an unwinding. -/
  | catching (body : List Command)
  /-- Moves the recorder into a slot and goes on with an empty one. -/
  | stash (slot : String)
  /-- Goes on with the recorder of a slot in place of the present one. -/
  | restore (slot : String)
  /-- Finishes the recorder of a slot. -/
  | finish (slot : String)
  /-- Runs the body on a recorder of its own and records its roots here. -/
  | session (body : List Command)

/-- The name under which a command is traced. -/
def Command.label : Command → String
  | leaf label _ => label
  | within label _ _ _ => label
  | repeated _ _ => "repeat"
  | nested _ _ _ => "nest"
  | fail _ => "fail"
  | attempt _ => "try"
  | unwind _ => "panic"
  | catching _ => "catch"
  | stash _ => "stash"
  | restore _ => "restore"
  | finish _ => "finish"
  | session _ => "session"

/-- What a trace says of a command beyond its name. -/
inductive Note where
  /-- A void body ended, perhaps with a failure. -/
  | ended (failure : Option String)
  /-- Nothing was recovered or stopped. -/
  | fine
  | recovered (message : String)
  | stopped (text : String)
  | finished (result : Except Fault (List Node))

/-- A trace entry: the command's name, the depth of the recorder after it, and how it went. -/
structure TraceEntry where
  label : String
  depth : Nat
  failure : Option String
  note : Option Note

/-- Everything that commands act on. -/
structure Desk where
  recorder : Recorder := {}
  slots : List (String × Recorder) := []
  /-- The entries so far, last one first. -/
  trace : List TraceEntry := []

namespace Desk

/-- The desk with another recorder in place. -/
def withRecorder (desk : Desk) (recorder : Recorder) : Desk := { desk with recorder := recorder }

/-- The recorder in a slot, an empty one if there is none, and the desk without it. -/
def takeSlot (desk : Desk) (slot : String) : Recorder × Desk :=
  let kept := (desk.slots.find? (·.1 == slot)).map Prod.snd
  (kept.getD {}, { desk with slots := desk.slots.filter (·.1 != slot) })

/-- Puts a recorder into a slot. -/
def putSlot (desk : Desk) (slot : String) (recorder : Recorder) : Desk :=
  { desk with slots := (slot, recorder) :: desk.slots.filter (·.1 != slot) }

/-- Adds a trace entry. -/
def log (desk : Desk) (label : String) (failure : Option String) (note : Option Note) : Desk :=
  { desk with trace := ⟨label, desk.recorder.depth, failure, note⟩ :: desk.trace }

end Desk

/-- A run from one desk to the next. -/
abbrev Run := Desk → Outcome × Desk

namespace Run

/-- Runs a body in a scope of the given frame.  The outcome is that of the body. -/
def inScope (frame : Frame) (void : Bool) (body : Run) : Run := fun desk =>
  let base := desk.recorder.depth
  let (outcome, after) := body (desk.withRecorder desk.recorder.openScope)
  let attached :=
    let (children, closed) := after.recorder.closeScope base
    after.withRecorder (closed.record (.composite frame children))
  let abandoned := after.withRecorder (after.recorder.truncate base)
  match outcome with
  | .done => (.done, attached)
  | .failed message => (.failed message, if void then attached else abandoned)
  | .unwinding text => (.unwinding text, abandoned)

/-- Runs a body a number of times, as long as it ends well. -/
def times (body : Run) : Nat → Run
  | 0, desk => (.done, desk)
  | n + 1, desk =>
    match body desk with
    | (.done, after) => times body n after
    | other => other

/-- Runs a body inside a number of scopes of the same frame. -/
def nested (frame : Frame) (body : Run) : Nat → Run
  | 0 => body
  | n + 1 => inScope frame false (nested frame body n)

/-- Runs a body on a recorder of its own.  The roots are recorded here even if the body failed; a
recorder that cannot be finished leaves nothing here and its fault is noted. -/
def session (body : Run) (desk : Desk) : Outcome × Desk × Option Note :=
  let (outcome, after) := body (desk.withRecorder {})
  match outcome with
  | .unwinding text => (.unwinding text, after.withRecorder desk.recorder, none)
  | outcome =>
    match after.recorder.finish with
    | .error fault => (.done, after.withRecorder desk.recorder, some (.finished (.error fault)))
    | .ok roots => (outcome, after.withRecorder (desk.recorder.recordAll roots), none)

/-- Ends a command: it is traced unless it unwinds. -/
def ending (label : String) (note : Option Note) : Outcome × Desk → Outcome × Desk
  | (.done, desk) => (.done, desk.log label none note)
  | (.failed message, desk) => (.failed message, desk.log label (some message) none)
  | (.unwinding text, desk) => (.unwinding text, desk)

end Run

namespace Command

mutual
/-- Runs a command. -/
def run : Command → Run
  | leaf label node => fun desk =>
    Run.ending label none (.done, desk.withRecorder (desk.recorder.record node))
  | within label frame void body => fun desk =>
    match Run.inScope frame void (runAll body) desk with
    | (.failed message, after) =>
      if void then Run.ending label (some (.ended (some message))) (.done, after)
      else Run.ending label none (.failed message, after)
    | result => Run.ending label (if void then some (.ended none) else none) result
  | repeated times body => fun desk =>
    Run.ending "repeat" none (Run.times (runAll body) times desk)
  | nested depth frame body => fun desk =>
    Run.ending "nest" none (Run.nested frame (runAll body) depth desk)
  | fail message => fun desk => Run.ending "fail" none (.failed message, desk)
  | attempt body => fun desk =>
    match runAll body desk with
    | (.failed message, after) => Run.ending "try" (some (.recovered message)) (.done, after)
    | result => Run.ending "try" (some .fine) result
  | unwind text => fun desk => (.unwinding text, desk)
  | catching body => fun desk =>
    match runAll body desk with
    | (.unwinding text, after) => Run.ending "catch" (some (.stopped text)) (.done, after)
    | result => Run.ending "catch" (some .fine) result
  | stash slot => fun desk =>
    Run.ending "stash" none (.done, (desk.putSlot slot desk.recorder).withRecorder {})
  | restore slot => fun desk =>
    let (kept, rest) := desk.takeSlot slot
    Run.ending "restore" none (.done, rest.withRecorder kept)
  | finish slot => fun desk =>
    let (kept, rest) := desk.takeSlot slot
    Run.ending "finish" (some (.finished kept.finish)) (.done, rest)
  | session body => fun desk =>
    let (outcome, after, note) := Run.session (runAll body) desk
    Run.ending "session" note (outcome, after)

/-- Runs commands one after the other, as long as they end well. -/
def runAll : List Command → Run
  | [] => fun desk => (.done, desk)
  | command :: rest => fun desk =>
    match run command desk with
    | (.done, after) => runAll rest after
    | other => other
end

/-- Runs a whole program on an empty recorder. -/
def start (program : List Command) : Outcome × Desk := runAll program {}

end Command
end SolidScript
