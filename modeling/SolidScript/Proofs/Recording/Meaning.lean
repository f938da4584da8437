import Mathlib.Tactic
import SolidScript.Recording.Program

/-!
# What a composition means

The meaning of a composition that stays on one recorder is told without a stack: how it ends, and
the nodes that it gives (`Command.meaningAll`).  Running it on any recorder ends in the same way and
appends these nodes to the innermost open scope; everything else on the recorder stays as it was
(`runAll_eq_meaningAll`).  The invariant that carries the proof is about the whole recorder: at the
end of every body the scopes below the innermost one are the ones it began with.
-/

namespace SolidScript

/-! ## Appending to the innermost open scope -/

namespace Recorder

/-- The recorder with some nodes more in the innermost open scope, or in the roots when none is
open. -/
def append (r : Recorder) (nodes : List Node) : Recorder :=
  match r.scopes with
  | [] => { r with roots := r.roots ++ nodes }
  | top :: rest => { r with scopes := (top ++ nodes) :: rest }

@[simp] theorem append_nil (r : Recorder) : r.append [] = r := by
  obtain ⟨roots, scopes, unbalanced⟩ := r
  cases scopes <;> simp [append]

theorem append_append (r : Recorder) (xs ys : List Node) :
    (r.append xs).append ys = r.append (xs ++ ys) := by
  obtain ⟨roots, scopes, unbalanced⟩ := r
  cases scopes <;> simp [append]

theorem record_eq_append (r : Recorder) (node : Node) : r.record node = r.append [node] := by
  obtain ⟨roots, scopes, unbalanced⟩ := r
  cases scopes <;> rfl

@[simp] theorem depth_append (r : Recorder) (nodes : List Node) :
    (r.append nodes).depth = r.depth := by
  obtain ⟨roots, scopes, unbalanced⟩ := r
  cases scopes <;> rfl

@[simp] theorem depth_openScope (r : Recorder) : r.openScope.depth = r.depth + 1 := rfl

/-- The recorder after some scopes have been opened one after the other. -/
def openScopes (r : Recorder) (count : Nat) : Recorder :=
  { r with scopes := List.replicate count [] ++ r.scopes }

@[simp] theorem depth_openScopes (r : Recorder) (count : Nat) :
    (r.openScopes count).depth = r.depth + count := by
  simp [openScopes, depth, Nat.add_comm]

/-- Closing a scope gives exactly what was appended to it, and the recorder from before it. -/
theorem closeScope_append_openScope (r : Recorder) (nodes : List Node) :
    (r.openScope.append nodes).closeScope r.depth = (nodes, r) := by
  obtain ⟨roots, scopes, unbalanced⟩ := r
  simp [closeScope, truncate, openScope, append, depth]

/-- Dropping a scope leaves the recorder from before it. -/
theorem truncate_append_openScope (r : Recorder) (nodes : List Node) :
    (r.openScope.append nodes).truncate r.depth = r := by
  obtain ⟨roots, scopes, unbalanced⟩ := r
  simp [truncate, openScope, append, depth]

end Recorder

/-! ## Meanings -/

/-- How a composition ends, and the nodes that it gives. -/
abbrev Meaning := Outcome × List Node

namespace Meaning

/-- One composition and then another, which is left out unless the first ends well. -/
def andThen : Meaning → Meaning → Meaning
  | (.done, nodes), (outcome, more) => (outcome, nodes ++ more)
  | first, _ => first

/-- A body in a scope gives one composite, or nothing when it does not end well.  A void body that
stops early ends well. -/
def inScope (frame : Frame) (void : Bool) : Meaning → Meaning
  | (.done, children) => (.done, [.composite frame children])
  | (.failed message, children) =>
    if void then (.done, [.composite frame children]) else (.failed message, [])
  | (.unwinding text, _) => (.unwinding text, [])

/-- A body, a number of times. -/
def times (body : Meaning) : Nat → Meaning
  | 0 => (.done, [])
  | n + 1 => body.andThen (times body n)

/-- A body inside a number of scopes of the same frame. -/
def nested (frame : Frame) (body : Meaning) : Nat → Meaning
  | 0 => body
  | n + 1 => inScope frame false (nested frame body n)

/-- What was given before a failure stays when the failure is recovered. -/
def recovered : Meaning → Meaning
  | (.failed _, nodes) => (.done, nodes)
  | other => other

/-- What was given before an unwinding stays when it is stopped. -/
def stopped : Meaning → Meaning
  | (.unwinding _, nodes) => (.done, nodes)
  | other => other

end Meaning

namespace Command

mutual
/-- Does the command leave the recorder in its place? -/
def keepsRecorder : Command → Bool
  | leaf _ _ => true
  | within _ _ _ body => keepsRecorderAll body
  | repeated _ body => keepsRecorderAll body
  | nested _ _ body => keepsRecorderAll body
  | fail _ => true
  | attempt body => keepsRecorderAll body
  | unwind _ => true
  | catching body => keepsRecorderAll body
  | stash _ => false
  | restore _ => false
  | finish _ => false
  | session _ => false

/-- Do all commands leave the recorder in its place? -/
def keepsRecorderAll : List Command → Bool
  | [] => true
  | command :: rest => keepsRecorder command && keepsRecorderAll rest
end

mutual
/-- The meaning of a command that leaves the recorder in its place. -/
def meaning : Command → Meaning
  | leaf _ node => (.done, [node])
  | within _ frame void body => (meaningAll body).inScope frame void
  | repeated times body => (meaningAll body).times times
  | nested depth frame body => (meaningAll body).nested frame depth
  | fail message => (.failed message, [])
  | attempt body => (meaningAll body).recovered
  | unwind text => (.unwinding text, [])
  | catching body => (meaningAll body).stopped
  | stash _ => (.done, [])
  | restore _ => (.done, [])
  | finish _ => (.done, [])
  | session _ => (.done, [])

/-- The meaning of commands that run one after the other. -/
def meaningAll : List Command → Meaning
  | [] => (.done, [])
  | command :: rest => (meaning command).andThen (meaningAll rest)
end

end Command

/-! ## Equations of runs -/

namespace Run

/-- What follows a run goes on only when the run ended well. -/
def goOn (next : Run) : Outcome × Desk → Outcome × Desk
  | (.done, after) => next after
  | other => other

/-- The end of a nesting call: a void body takes a failure for its end. -/
def endScope (label : String) (void : Bool) : Outcome × Desk → Outcome × Desk
  | (.failed message, after) =>
    if void then ending label (some (.ended (some message))) (.done, after)
    else ending label none (.failed message, after)
  | result => ending label (if void then some (.ended none) else none) result

/-- The end of a body whose failure is recovered. -/
def recovering : Outcome × Desk → Outcome × Desk
  | (.failed message, after) => ending "try" (some (.recovered message)) (.done, after)
  | result => ending "try" (some .fine) result

/-- The end of a body whose unwinding is stopped. -/
def stopping : Outcome × Desk → Outcome × Desk
  | (.unwinding text, after) => ending "catch" (some (.stopped text)) (.done, after)
  | result => ending "catch" (some .fine) result

theorem times_succ (body : Run) (n : Nat) (desk : Desk) :
    times body (n + 1) desk = goOn (times body n) (body desk) := by
  rw [times]
  rfl

end Run

namespace Command

theorem run_within (label : String) (frame : Frame) (void : Bool) (body : List Command)
    (desk : Desk) :
    (within label frame void body).run desk =
      Run.endScope label void (Run.inScope frame void (runAll body) desk) := by
  rw [run]
  rfl

theorem run_attempt (body : List Command) (desk : Desk) :
    (attempt body).run desk = Run.recovering (runAll body desk) := by
  rw [run]
  rfl

theorem run_catching (body : List Command) (desk : Desk) :
    (catching body).run desk = Run.stopping (runAll body desk) := by
  rw [run]
  rfl

theorem runAll_cons (command : Command) (rest : List Command) (desk : Desk) :
    runAll (command :: rest) desk = Run.goOn (runAll rest) (command.run desk) := by
  rw [runAll]
  rfl

end Command

/-! ## Runs that append -/

/-- A run from the desk ended as the meaning says, appended the nodes of the meaning to the recorder
and left the slots alone. -/
structure Appended (desk : Desk) (result : Outcome × Desk) (meaning : Meaning) : Prop where
  outcome : result.1 = meaning.1
  recorder : result.2.recorder = desk.recorder.append meaning.2
  slots : result.2.slots = desk.slots

namespace Appended

variable {desk : Desk} {result : Outcome × Desk} {meaning : Meaning}

/-- Nothing happened but the outcome. -/
theorem nothing (desk : Desk) (outcome : Outcome) :
    Appended desk (outcome, desk) (outcome, []) :=
  ⟨rfl, (desk.recorder.append_nil).symm, rfl⟩

/-- The same desk with another outcome. -/
theorem withOutcome {outcome : Outcome} {after : Desk}
    (h : Appended desk (outcome, after) meaning) (other : Outcome) :
    Appended desk (other, after) (other, meaning.2) :=
  ⟨rfl, h.recorder, h.slots⟩

/-- A trace entry changes neither the outcome nor the recorder. -/
theorem ending (h : Appended desk result meaning) (label : String) (note : Option Note) :
    Appended desk (Run.ending label note result) meaning := by
  obtain ⟨outcome, after⟩ := result
  cases outcome with
  | done => exact ⟨h.outcome, h.recorder, h.slots⟩
  | failed message => exact ⟨h.outcome, h.recorder, h.slots⟩
  | unwinding text => exact h

/-- The second run starts from the recorder that the first one left. -/
theorem andThen {next : Run} {more : Meaning} (h : Appended desk result meaning)
    (hnext : ∀ after, Appended after (next after) more) :
    Appended desk (Run.goOn next result) (meaning.andThen more) := by
  obtain ⟨outcome, after⟩ := result
  obtain ⟨outcome', nodes⟩ := meaning
  obtain ⟨houtcome, hrecorder, hslots⟩ := h
  cases houtcome
  cases outcome with
  | done =>
      obtain ⟨houtcome', hrecorder', hslots'⟩ := hnext after
      refine ⟨houtcome', ?_, hslots'.trans hslots⟩
      change (next after).2.recorder = desk.recorder.append (nodes ++ more.2)
      change after.recorder = desk.recorder.append nodes at hrecorder
      rw [hrecorder', hrecorder, Recorder.append_append]
  | failed message => exact ⟨rfl, hrecorder, hslots⟩
  | unwinding text => exact ⟨rfl, hrecorder, hslots⟩

/-- A failure that is recovered leaves what was appended before it. -/
theorem recovering (h : Appended desk result meaning) :
    Appended desk (Run.recovering result) meaning.recovered := by
  obtain ⟨outcome, after⟩ := result
  obtain ⟨outcome', nodes⟩ := meaning
  cases h.outcome
  cases outcome with
  | done => exact h.ending "try" (some .fine)
  | failed message => exact (h.withOutcome .done).ending "try" (some (.recovered message))
  | unwinding text => exact h.ending "try" (some .fine)

/-- An unwinding that is stopped leaves what was appended before it. -/
theorem stopping (h : Appended desk result meaning) :
    Appended desk (Run.stopping result) meaning.stopped := by
  obtain ⟨outcome, after⟩ := result
  obtain ⟨outcome', nodes⟩ := meaning
  cases h.outcome
  cases outcome with
  | done => exact h.ending "catch" (some .fine)
  | failed message => exact h.ending "catch" (some .fine)
  | unwinding text => exact (h.withOutcome .done).ending "catch" (some (.stopped text))

/-- A scope that has attached or dropped its nodes only changes how a void body ends. -/
theorem endScope {frame : Frame} {void : Bool}
    (h : Appended desk result (meaning.1, (meaning.inScope frame void).2)) (label : String) :
    Appended desk (Run.endScope label void result) (meaning.inScope frame void) := by
  obtain ⟨outcome, after⟩ := result
  obtain ⟨outcome', children⟩ := meaning
  cases h.outcome
  cases outcome with
  | done => exact h.ending label _
  | failed message =>
      cases void with
      | false => exact h.ending label none
      | true => exact (h.withOutcome .done).ending label (some (.ended (some message)))
  | unwinding text => exact h

end Appended

/-- On every desk the run does what the meaning says. -/
def Appends (run : Run) (meaning : Meaning) : Prop := ∀ desk, Appended desk (run desk) meaning

namespace Appends

variable {body : Run} {meaning : Meaning}

theorem times (h : Appends body meaning) (n : Nat) :
    Appends (Run.times body n) (meaning.times n) := by
  induction n with
  | zero => exact fun desk => .nothing desk .done
  | succ n ih =>
      intro desk
      rw [Run.times_succ]
      exact (h desk).andThen ih

/-- What the body appended to its own scope is all that there is to attach or to drop.  A void scope
still hands on a failure, which its command takes for its end. -/
theorem inScope (h : Appends body meaning) (frame : Frame) (void : Bool) (desk : Desk) :
    Appended desk (Run.inScope frame void body desk)
      (meaning.1, (meaning.inScope frame void).2) := by
  have hbody := h (desk.withRecorder desk.recorder.openScope)
  unfold Run.inScope
  generalize body (desk.withRecorder desk.recorder.openScope) = result at hbody ⊢
  obtain ⟨outcome, after⟩ := result
  obtain ⟨outcome', children⟩ := meaning
  obtain ⟨houtcome, hrecorder, hslots⟩ := hbody
  cases houtcome
  change after.recorder = desk.recorder.openScope.append children at hrecorder
  -- at the end of the body only its own scope is open above the scopes from before
  simp only [hrecorder, Recorder.closeScope_append_openScope, Recorder.truncate_append_openScope,
    Recorder.record_eq_append]
  have hdropped : desk.recorder = desk.recorder.append [] := (desk.recorder.append_nil).symm
  cases outcome with
  | done => exact ⟨rfl, rfl, hslots⟩
  | failed message =>
      cases void with
      | false => exact ⟨rfl, hdropped, hslots⟩
      | true => exact ⟨rfl, rfl, hslots⟩
  | unwinding text => exact ⟨rfl, hdropped, hslots⟩

theorem nested (h : Appends body meaning) (frame : Frame) (n : Nat) :
    Appends (Run.nested frame body n) (meaning.nested frame n) := by
  induction n with
  | zero => exact h
  | succ n ih =>
      intro desk
      have hscope := ih.inScope frame false desk
      -- a scope that is not void ends as its body does
      have houtcome : ∀ inner : Meaning, (inner.inScope frame false).1 = inner.1 := by
        rintro ⟨outcome, nodes⟩
        cases outcome <;> rfl
      rw [← houtcome] at hscope
      exact hscope

end Appends

namespace Command

mutual
/-- Running a command does what the command means. -/
theorem run_appends (command : Command) (h : command.keepsRecorder = true) :
    Appends command.run command.meaning := by
  intro desk
  cases command with
  | leaf label node =>
      have hrecord : Appended desk (.done, desk.withRecorder (desk.recorder.record node))
          (.done, [node]) := ⟨rfl, Recorder.record_eq_append _ _, rfl⟩
      exact hrecord.ending label none
  | within label frame void body =>
      rw [run_within]
      exact ((runAll_appends body h).inScope frame void desk).endScope label
  | repeated times body =>
      have htimes := (runAll_appends body h).times times desk
      rw [run, meaning]
      exact htimes.ending _ _
  | nested depth frame body =>
      have hnested := (runAll_appends body h).nested frame depth desk
      rw [run, meaning]
      exact hnested.ending _ _
  | fail message => exact (Appended.nothing desk (.failed message)).ending "fail" none
  | attempt body =>
      rw [run_attempt]
      exact (runAll_appends body h desk).recovering
  | unwind text => exact Appended.nothing desk (.unwinding text)
  | catching body =>
      rw [run_catching]
      exact (runAll_appends body h desk).stopping
  -- the other commands change what recorder is in place
  | stash slot => cases h
  | restore slot => cases h
  | finish slot => cases h
  | session body => cases h

theorem runAll_appends (program : List Command) (h : keepsRecorderAll program = true) :
    Appends (runAll program) (meaningAll program) := by
  intro desk
  cases program with
  | nil => exact .nothing desk .done
  | cons command rest =>
      rw [keepsRecorderAll, Bool.and_eq_true] at h
      rw [runAll_cons, meaningAll]
      exact (run_appends command h.1 desk).andThen (runAll_appends rest h.2)
end

/-! ## Depths -/

/-- `Reaches program desk level point` says that the run of the program from the desk comes by the
desk `point` inside `level` nesting calls. -/
inductive Reaches : List Command → Desk → Nat → Desk → Prop
  | start (program : List Command) (desk : Desk) : Reaches program desk 0 desk
  | ending (program : List Command) (desk : Desk) : Reaches program desk 0 (runAll program desk).2
  | later {command : Command} {rest : List Command} {desk after point : Desk} {level : Nat}
      (hrun : command.run desk = (.done, after)) (h : Reaches rest after level point) :
      Reaches (command :: rest) desk level point
  | within {label : String} {frame : Frame} {void : Bool} {body rest : List Command}
      {desk point : Desk} {level : Nat}
      (h : Reaches body (desk.withRecorder desk.recorder.openScope) level point) :
      Reaches (.within label frame void body :: rest) desk (level + 1) point
  | repeated {times count : Nat} {body rest : List Command} {desk after point : Desk}
      {level : Nat} (hcount : count < times)
      (hrun : Run.times (runAll body) count desk = (.done, after))
      (h : Reaches body after level point) :
      Reaches (.repeated times body :: rest) desk level point
  | nesting {depth count : Nat} {frame : Frame} {body rest : List Command} {desk : Desk}
      (hcount : count ≤ depth) :
      Reaches (.nested depth frame body :: rest) desk count
        (desk.withRecorder (desk.recorder.openScopes count))
  | nested {depth : Nat} {frame : Frame} {body rest : List Command} {desk point : Desk}
      {level : Nat}
      (h : Reaches body (desk.withRecorder (desk.recorder.openScopes depth)) level point) :
      Reaches (.nested depth frame body :: rest) desk (level + depth) point
  | unnesting {depth count : Nat} {frame : Frame} {body rest : List Command} {desk : Desk}
      (hcount : count ≤ depth) :
      Reaches (.nested depth frame body :: rest) desk count
        (Run.nested frame (runAll body) (depth - count)
          (desk.withRecorder (desk.recorder.openScopes count))).2
  | attempt {body rest : List Command} {desk point : Desk} {level : Nat}
      (h : Reaches body desk level point) : Reaches (.attempt body :: rest) desk level point
  | catching {body rest : List Command} {desk point : Desk} {level : Nat}
      (h : Reaches body desk level point) : Reaches (.catching body :: rest) desk level point

theorem depth_of_appended {desk : Desk} {result : Outcome × Desk} {meaning : Meaning}
    (h : Appended desk result meaning) : result.2.recorder.depth = desk.recorder.depth := by
  rw [h.recorder, Recorder.depth_append]

/-- At every point of a run each nesting call around it accounts for one open scope. -/
theorem depth_of_reaches {program : List Command} {desk point : Desk} {level : Nat}
    (hreaches : Reaches program desk level point) (h : keepsRecorderAll program = true) :
    point.recorder.depth = desk.recorder.depth + level := by
  -- what has ended before the point has left the depth as it was, so only calls around it count
  induction hreaches with
  | start program desk => rfl
  | ending program desk => exact depth_of_appended (runAll_appends program h desk)
  | @later command rest desk after point level hrun _ ih =>
      rw [keepsRecorderAll, Bool.and_eq_true] at h
      have hfirst := depth_of_appended (run_appends command h.1 desk)
      rw [hrun] at hfirst
      rw [ih h.2, hfirst]
  | @within label frame void body rest desk point level _ ih =>
      rw [keepsRecorderAll, keepsRecorder, Bool.and_eq_true] at h
      have hopen := desk.recorder.depth_openScope
      rw [ih h.1]
      change desk.recorder.openScope.depth + level = _
      omega
  | @repeated times count body rest desk after point level _ hrun _ ih =>
      rw [keepsRecorderAll, keepsRecorder, Bool.and_eq_true] at h
      have hbefore := depth_of_appended ((runAll_appends body h.1).times count desk)
      rw [hrun] at hbefore
      rw [ih h.1, hbefore]
  | nesting hcount => exact Recorder.depth_openScopes _ _
  | @nested depth frame body rest desk point level _ ih =>
      rw [keepsRecorderAll, keepsRecorder, Bool.and_eq_true] at h
      have hopen := desk.recorder.depth_openScopes depth
      rw [ih h.1]
      change (desk.recorder.openScopes depth).depth + level = _
      omega
  | @unnesting depth count frame body rest desk _ =>
      rw [keepsRecorderAll, keepsRecorder, Bool.and_eq_true] at h
      have hinner := (runAll_appends body h.1).nested frame (depth - count)
        (desk.withRecorder (desk.recorder.openScopes count))
      exact (depth_of_appended hinner).trans (desk.recorder.depth_openScopes count)
  | attempt _ ih =>
      rw [keepsRecorderAll, keepsRecorder, Bool.and_eq_true] at h
      exact ih h.1
  | catching _ ih =>
      rw [keepsRecorderAll, keepsRecorder, Bool.and_eq_true] at h
      exact ih h.1

/-- A composition that stays on one recorder ends as it means, appends the nodes that it means to
the innermost open scope and changes nothing else, and at every point of the run the depth is the
depth at its start and one for each nesting call around the point. -/
theorem runAll_eq_meaningAll (program : List Command) (desk : Desk)
    (h : keepsRecorderAll program = true) :
    (runAll program desk).1 = (meaningAll program).1 ∧
      (runAll program desk).2.recorder = desk.recorder.append (meaningAll program).2 ∧
      (runAll program desk).2.slots = desk.slots ∧
      ∀ level point, Reaches program desk level point →
        point.recorder.depth = desk.recorder.depth + level := by
  have hrun := runAll_appends program h desk
  exact ⟨hrun.outcome, hrun.recorder, hrun.slots, fun level point hreaches =>
    depth_of_reaches hreaches h⟩

/-- A failure is recovered inside a body, an unwinding is stopped there after two scopes, and a void
body stops early. -/
def recovery : List Command := [
  .leaf "comment" (.comment "first"),
  .within "union" (.combinator .union) false [
    .attempt [
      .leaf "comment" (.comment "before the failure"),
      .within "hull" (.combinator .hull) false [.leaf "comment" (.comment "lost"), .fail "no"]],
    .catching [.nested 2 (.combinator .hull) [.leaf "comment" (.comment "lost"), .unwind "stop"]]],
  .within "minkowski" (.combinator .minkowski) true [
    .leaf "comment" (.comment "partial"), .fail "early"]]

/-- A desk whose recorder has a scope open and has lost another. -/
def interrupted : Desk := { recorder := { scopes := [[.comment "open"]], unbalanced := 1 } }

theorem runAll_recovery :
    keepsRecorderAll recovery = true ∧ (runAll recovery interrupted).1 = .done ∧
      (runAll recovery interrupted).2.recorder =
        { scopes := [[.comment "open", .comment "first",
            .composite (.combinator .union) [.comment "before the failure"],
            .composite (.combinator .minkowski) [.comment "partial"]]], unbalanced := 1 } ∧
      (runAll recovery interrupted).2.slots = [] ∧
      ∃ point, Reaches recovery interrupted 3 point ∧ point.recorder.depth = 4 := by
  obtain ⟨houtcome, hrecorder, hslots, hdepth⟩ := runAll_eq_meaningAll recovery interrupted rfl
  -- inside the two scopes of the unwinding, which are inside the union
  have hinside : ∃ point, Reaches recovery interrupted 3 point :=
    ⟨_, .later rfl (.within (.later rfl (.catching (.nested (.start _ _)))))⟩
  obtain ⟨point, hpoint⟩ := hinside
  exact ⟨rfl, houtcome, hrecorder, hslots, point, hpoint, hdepth 3 point hpoint⟩

end Command
end SolidScript
