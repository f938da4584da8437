import Mathlib.Tactic
import SolidScript.Proofs.Recording.Meaning

/-!
# Histories of recorders

A run moves recorders between their place, the slots and the sessions around it, and a scope may be
closed on another recorder than the one it was opened on.  What a run does is therefore told in
steps (`Command.stepsAll`), and a recorder is told by its history: the deeds that were done to it
while it was in place, in whatever scope of the program that was.  A history moves with its
recorder.

`tracks_stepsAll` joins the two: when every recorder on a desk is the outcome of its history, so is
every recorder on the desk that a run leaves, with the histories that the steps of the run give.
`live_after_induction` carries what holds of the empty history and is kept by every deed over to the
histories of all recorders.
-/

namespace SolidScript

/-- What can be done to the recorder in place. -/
inductive Deed where
  | recorded (node : Node)
  | opened
  /-- A nesting call that had opened its scope at this depth ended well and closed it here. -/
  | closed (base : Nat)
  /-- A nesting call that had opened its scope at this depth did not end well and dropped it
  here. -/
  | abandoned (base : Nat)

def Deed.apply : Deed → Recorder → Recorder
  | recorded node, r => r.record node
  | opened, r => r.openScope
  | closed base, r => (r.closeScope base).2
  | abandoned base, r => r.truncate base

/-- What was done to a recorder since it was new, the last deed first. -/
abbrev History := List Deed

/-- The recorder with a history. -/
def History.recorder : History → Recorder
  | [] => {}
  | deed :: earlier => deed.apply (recorder earlier)

/-- A step of a run. -/
inductive Step where
  | deed (deed : Deed)
  | stash (slot : String)
  | restore (slot : String)
  | finish (slot : String)
  /-- A session sets the recorder aside and goes on with an empty one. -/
  | setAside
  /-- A session is over: its recorder is used up and the one that was set aside is back. -/
  | resume

/-- Does a nesting call end here without having ended well? -/
def Step.abandons : Step → Bool
  | deed (.abandoned _) => true
  | _ => false

/-- The histories of all recorders: of the one in place, of those in slots, and of those that
sessions have set aside, the innermost session first. -/
structure Chronicle where
  place : History := []
  slots : List (String × History) := []
  aside : List History := []

namespace Chronicle

/-- The history of the recorder in a slot, or of a new one if there is none. -/
def inSlot (c : Chronicle) (slot : String) : History :=
  ((c.slots.find? (·.1 == slot)).map Prod.snd).getD []

/-- The histories after one more step.  A recorder that is overwritten or finished is gone. -/
def step (c : Chronicle) : Step → Chronicle
  | .deed deed => { c with place := deed :: c.place }
  | .stash slot =>
    { c with place := [], slots := (slot, c.place) :: c.slots.filter (·.1 != slot) }
  | .restore slot =>
    { c with place := c.inSlot slot, slots := c.slots.filter (·.1 != slot) }
  | .finish slot => { c with slots := c.slots.filter (·.1 != slot) }
  | .setAside => { c with place := [], aside := c.place :: c.aside }
  | .resume =>
    match c.aside with
    | [] => c
    | outer :: rest => { c with place := outer, aside := rest }

/-- The histories after some steps. -/
def after (c : Chronicle) (steps : List Step) : Chronicle := steps.foldl step c

/-- The histories of the recorders that exist. -/
def live (c : Chronicle) : List History := c.place :: (c.slots.map Prod.snd ++ c.aside)

/-- The recorders on the desk are those with the given histories. -/
structure Fits (c : Chronicle) (desk : Desk) : Prop where
  recorder : c.place.recorder = desk.recorder
  slots : c.slots.map (Prod.map id History.recorder) = desk.slots

@[simp] theorem after_nil (c : Chronicle) : c.after [] = c := rfl

theorem after_append (c : Chronicle) (xs ys : List Step) :
    c.after (xs ++ ys) = (c.after xs).after ys :=
  List.foldl_append

theorem step_resume {c : Chronicle} {outer : History} {rest : List History}
    (h : c.aside = outer :: rest) : c.step .resume = { c with place := outer, aside := rest } := by
  rw [step, h]

end Chronicle

/-! ## The steps of a run -/

namespace Run

/-- Is what was recorded in a scope attached when its body ends like this? -/
def attaches (void : Bool) : Outcome → Bool
  | .done => true
  | .failed _ => void
  | .unwinding _ => false

/-- The steps of what follows a run, which goes on only when the run ended well. -/
def goOnSteps (next : Desk → List Step) : Outcome × Desk → List Step
  | (.done, after) => next after
  | _ => []

/-- The last steps of a nesting call that opened its scope at depth `base`. -/
def closingSteps (frame : Frame) (void : Bool) (base : Nat) : Outcome × Desk → List Step
  | (outcome, after) =>
    if attaches void outcome then
      [.deed (.closed base),
        .deed (.recorded (.composite frame (after.recorder.closeScope base).1))]
    else [.deed (.abandoned base)]

/-- The steps of a body in a scope. -/
def inScopeSteps (frame : Frame) (void : Bool) (body : Run) (steps : Desk → List Step)
    (desk : Desk) : List Step :=
  let inside := desk.withRecorder desk.recorder.openScope
  .deed .opened :: (steps inside ++ closingSteps frame void desk.recorder.depth (body inside))

/-- The steps of a body that runs a number of times. -/
def timesSteps (body : Run) (steps : Desk → List Step) : Nat → Desk → List Step
  | 0, _ => []
  | n + 1, desk => steps desk ++ goOnSteps (timesSteps body steps n) (body desk)

/-- The steps of a body inside a number of scopes. -/
def nestedSteps (frame : Frame) (body : Run) (steps : Desk → List Step) : Nat → Desk → List Step
  | 0 => steps
  | n + 1 => inScopeSteps frame false (nested frame body n) (nestedSteps frame body steps n)

/-- What a session records on the recorder around it when its body has ended. -/
def sessionRoots : Outcome × Desk → List Node
  | (.unwinding _, _) => []
  | (_, after) =>
    match after.recorder.finish with
    | .error _ => []
    | .ok roots => roots

/-- The steps of a body on a recorder of its own. -/
def sessionSteps (body : Run) (steps : Desk → List Step) (desk : Desk) : List Step :=
  let inside := desk.withRecorder {}
  .setAside :: (steps inside ++
    .resume :: (sessionRoots (body inside)).map fun node => .deed (.recorded node))

end Run

namespace Command

mutual
/-- The steps of a command that runs on the given desk. -/
def steps : Command → Desk → List Step
  | leaf _ node => fun _ => [.deed (.recorded node)]
  | within _ frame void body => Run.inScopeSteps frame void (runAll body) (stepsAll body)
  | repeated times body => Run.timesSteps (runAll body) (stepsAll body) times
  | nested depth frame body => Run.nestedSteps frame (runAll body) (stepsAll body) depth
  | fail _ => fun _ => []
  | attempt body => stepsAll body
  | unwind _ => fun _ => []
  | catching body => stepsAll body
  | stash slot => fun _ => [.stash slot]
  | restore slot => fun _ => [.restore slot]
  | finish slot => fun _ => [.finish slot]
  | session body => Run.sessionSteps (runAll body) (stepsAll body)

/-- The steps of commands that run one after the other. -/
def stepsAll : List Command → Desk → List Step
  | [] => fun _ => []
  | command :: rest => fun desk =>
    steps command desk ++ Run.goOnSteps (stepsAll rest) (command.run desk)
end

end Command

/-! ## Steps lead where the run leads -/

namespace Chronicle

/-- The steps lead to the recorders on a desk, and sessions have set aside what they had before. -/
structure Follows (c : Chronicle) (steps : List Step) (desk : Desk) : Prop where
  fits : (c.after steps).Fits desk
  aside : (c.after steps).aside = c.aside

namespace Follows

variable {c : Chronicle} {desk after : Desk} {steps more : List Step}

theorem nil (h : c.Fits desk) : c.Follows [] desk := ⟨h, rfl⟩

theorem append (h : c.Follows steps desk) (hmore : (c.after steps).Follows more after) :
    c.Follows (steps ++ more) after := by
  obtain ⟨hfits, haside⟩ := hmore
  rw [← after_append] at hfits haside
  exact ⟨hfits, haside.trans h.aside⟩

/-- A deed is done to the recorder in place. -/
theorem deed (h : c.Fits desk) (d : Deed) :
    c.Follows [.deed d] (desk.withRecorder (d.apply desk.recorder)) := by
  refine ⟨⟨?_, h.slots⟩, rfl⟩
  change d.apply c.place.recorder = d.apply desk.recorder
  rw [h.recorder]

/-- Nodes are recorded one after the other. -/
theorem recordedAll (h : c.Fits desk) (nodes : List Node) :
    c.Follows (nodes.map fun node => .deed (.recorded node))
      (desk.withRecorder (desk.recorder.recordAll nodes)) := by
  induction nodes generalizing c desk with
  | nil => exact nil h
  | cons node rest ih =>
      have hfirst := deed h (.recorded node)
      exact hfirst.append (ih hfirst.fits)

/-- When a session is over, the recorder that it set aside is back as it was. -/
theorem resumed (h : c.Fits desk) (hinner : (c.step .setAside).Follows steps after) :
    c.Follows (.setAside :: (steps ++ [.resume])) (after.withRecorder desk.recorder) := by
  obtain ⟨⟨-, hslots⟩, haside⟩ := hinner
  have hafter : c.after (.setAside :: (steps ++ [.resume])) =
      { (c.step .setAside).after steps with place := c.place, aside := c.aside } := by
    rw [← step_resume haside, ← List.cons_append, after_append]
    rfl
  refine ⟨⟨?_, ?_⟩, ?_⟩
  · rw [hafter]
    exact h.recorder
  · rw [hafter]
    exact hslots
  · rw [hafter]

/-- A trace entry moves no recorder. -/
theorem ending (h : c.Follows steps desk) (outcome : Outcome) (label : String)
    (note : Option Note) : c.Follows steps (Run.ending label note (outcome, desk)).2 := by
  obtain ⟨⟨hrecorder, hslots⟩, haside⟩ := h
  cases outcome with
  | done => exact ⟨⟨hrecorder, hslots⟩, haside⟩
  | failed message => exact ⟨⟨hrecorder, hslots⟩, haside⟩
  | unwinding text => exact ⟨⟨hrecorder, hslots⟩, haside⟩

/-! How a command takes the end of its body moves no recorder either. -/

variable {result : Outcome × Desk}

theorem recovering (h : c.Follows steps result.2) : c.Follows steps (Run.recovering result).2 := by
  obtain ⟨outcome, after⟩ := result
  cases outcome with
  | done => exact h.ending .done "try" _
  | failed message => exact h.ending .done "try" _
  | unwinding text => exact h

theorem stopping (h : c.Follows steps result.2) : c.Follows steps (Run.stopping result).2 := by
  obtain ⟨outcome, after⟩ := result
  cases outcome with
  | done => exact h.ending .done "catch" _
  | failed message => exact h.ending (.failed message) "catch" none
  | unwinding text => exact h.ending .done "catch" _

theorem endScope (h : c.Follows steps result.2) (label : String) (void : Bool) :
    c.Follows steps (Run.endScope label void result).2 := by
  obtain ⟨outcome, after⟩ := result
  cases outcome with
  | done => exact h.ending .done label _
  | failed message =>
      cases void with
      | false => exact h.ending (.failed message) label none
      | true => exact h.ending .done label _
  | unwinding text => exact h

end Follows

/-- On every desk the steps lead where the run leads. -/
def Tracks (steps : Desk → List Step) (run : Run) : Prop :=
  ∀ c desk, Fits c desk → c.Follows (steps desk) (run desk).2

variable {body : Run} {bodySteps : Desk → List Step}

/-- After a step that fits, what follows goes on only when it does so in the run. -/
theorem follows_goOn {c : Chronicle} {steps : List Step} {result : Outcome × Desk} {next : Run}
    {nextSteps : Desk → List Step} (h : c.Follows steps result.2)
    (hnext : Tracks nextSteps next) :
    c.Follows (steps ++ Run.goOnSteps nextSteps result) (Run.goOn next result).2 := by
  obtain ⟨outcome, after⟩ := result
  cases outcome with
  | done => exact h.append (hnext _ after h.fits)
  | failed message => exact h.append (.nil h.fits)
  | unwinding text => exact h.append (.nil h.fits)

theorem tracks_times (h : Tracks bodySteps body) (n : Nat) :
    Tracks (Run.timesSteps body bodySteps n) (Run.times body n) := by
  induction n with
  | zero => exact fun _ _ hfits => .nil hfits
  | succ n ih =>
      intro c desk hfits
      rw [Run.times_succ]
      exact follows_goOn (h c desk hfits) ih

/-- A scope is closed, or dropped, on whatever recorder is in place when its body has ended. -/
theorem tracks_inScope (h : Tracks bodySteps body) (frame : Frame) (void : Bool) :
    Tracks (Run.inScopeSteps frame void body bodySteps) (Run.inScope frame void body) := by
  intro c desk hfits
  have hopened := Follows.deed hfits .opened
  have hbody := hopened.append (h _ _ hopened.fits)
  change c.Follows (_ :: bodySteps (desk.withRecorder desk.recorder.openScope))
    (body (desk.withRecorder desk.recorder.openScope)).2 at hbody
  unfold Run.inScope Run.inScopeSteps
  dsimp only
  generalize bodySteps (desk.withRecorder desk.recorder.openScope) = inner at hbody ⊢
  generalize body (desk.withRecorder desk.recorder.openScope) = result at hbody ⊢
  obtain ⟨outcome, after⟩ := result
  rw [← List.cons_append]
  have hclosed := Follows.deed hbody.fits (.closed desk.recorder.depth)
  have hattached := hbody.append (hclosed.append (Follows.deed hclosed.fits
    (.recorded (.composite frame (after.recorder.closeScope desk.recorder.depth).1))))
  have hdropped := hbody.append (Follows.deed hbody.fits (.abandoned desk.recorder.depth))
  -- a body that fails has its node attached all the same when nothing is made of its result
  cases outcome with
  | done => exact hattached
  | failed message =>
      cases void with
      | false => exact hdropped
      | true => exact hattached
  | unwinding text => exact hdropped

theorem tracks_nested (h : Tracks bodySteps body) (frame : Frame) (n : Nat) :
    Tracks (Run.nestedSteps frame body bodySteps n) (Run.nested frame body n) := by
  induction n with
  | zero => exact h
  | succ n ih => exact tracks_inScope ih frame false

/-- A session ends on the recorder that it set aside, with its own roots recorded there. -/
theorem tracks_session (h : Tracks bodySteps body) :
    Tracks (Run.sessionSteps body bodySteps) fun desk =>
      ((Run.session body desk).1, (Run.session body desk).2.1) := by
  intro c desk hfits
  have hinside : (c.step .setAside).Fits (desk.withRecorder {}) := ⟨rfl, hfits.slots⟩
  have hinner := h _ _ hinside
  unfold Run.session Run.sessionSteps
  dsimp only
  generalize bodySteps (desk.withRecorder {}) = inner at hinner ⊢
  generalize body (desk.withRecorder {}) = result at hinner ⊢
  obtain ⟨outcome, after⟩ := result
  have hresumed := Follows.resumed hfits hinner
  -- the roots of the session are recorded where it was called
  have hrecorded : ∀ nodes : List Node,
      c.Follows (.setAside :: (inner ++ .resume :: nodes.map fun node => .deed (.recorded node)))
        (after.withRecorder (desk.recorder.recordAll nodes)) := by
    intro nodes
    have hall := hresumed.append (Follows.recordedAll hresumed.fits nodes)
    rwa [List.cons_append, List.append_assoc] at hall
  cases outcome with
  | unwinding text => exact hrecorded []
  | done | failed message =>
      dsimp only [Run.sessionRoots]
      cases after.recorder.finish with
      | error fault => exact hrecorded []
      | ok roots => exact hrecorded roots

/-- What is in a slot is what has the history in it. -/
theorem takeSlot_of_fits {c : Chronicle} {desk : Desk} (h : c.Fits desk) (slot : String) :
    desk.takeSlot slot =
      ((c.inSlot slot).recorder,
        { desk with
          slots := (c.slots.filter (·.1 != slot)).map (Prod.map id History.recorder) }) := by
  rw [Desk.takeSlot, ← h.slots, List.find?_map, List.filter_map]
  refine Prod.ext ?_ rfl
  change ((Option.map _ (c.slots.find? (·.1 == slot))).map Prod.snd).getD ({} : Recorder) = _
  rw [inSlot]
  cases c.slots.find? (·.1 == slot) <;> rfl

theorem inSlot_eq_nil_or_mem (c : Chronicle) (slot : String) :
    c.inSlot slot = [] ∨ c.inSlot slot ∈ c.slots.map Prod.snd := by
  rw [inSlot]
  cases hfind : c.slots.find? (·.1 == slot) with
  | none => exact .inl rfl
  | some entry => exact .inr (List.mem_map_of_mem (List.mem_of_find?_eq_some hfind))

end Chronicle

namespace Command

open Chronicle

mutual
theorem tracks_steps (command : Command) : Tracks (steps command) command.run := by
  intro c desk hfits
  cases command with
  | leaf label node =>
      rw [steps, run]
      exact (Follows.deed hfits (.recorded node)).ending .done label none
  | within label frame void body =>
      rw [steps, run_within]
      exact (tracks_inScope (tracks_stepsAll body) frame void c desk hfits).endScope label void
  | repeated times body =>
      rw [steps, run]
      exact (tracks_times (tracks_stepsAll body) times c desk hfits).ending _ _ _
  | nested depth frame body =>
      rw [steps, run]
      exact (tracks_nested (tracks_stepsAll body) frame depth c desk hfits).ending _ _ _
  | fail message => exact (Follows.nil hfits).ending (.failed message) "fail" none
  | attempt body =>
      rw [steps, run_attempt]
      exact (tracks_stepsAll body c desk hfits).recovering
  | unwind text => exact Follows.nil hfits
  | catching body =>
      rw [steps, run_catching]
      exact (tracks_stepsAll body c desk hfits).stopping
  | stash slot =>
      -- the recorder in place goes into the slot, whatever the slot held before
      obtain ⟨hrecorder, hslots⟩ := hfits
      rw [steps, run]
      refine Follows.ending ⟨⟨rfl, ?_⟩, rfl⟩ .done "stash" none
      change (slot, c.place.recorder) ::
        (c.slots.filter (·.1 != slot)).map (Prod.map id History.recorder) = _
      rw [hrecorder, Desk.withRecorder, Desk.putSlot, ← hslots, List.filter_map]
      rfl
  | restore slot =>
      rw [steps, run]
      beta_reduce
      rw [takeSlot_of_fits hfits]
      exact Follows.ending ⟨⟨rfl, rfl⟩, rfl⟩ .done "restore" none
  | finish slot =>
      -- what the slot held is finished on its own, and the recorder in place stays
      rw [steps, run]
      beta_reduce
      rw [takeSlot_of_fits hfits]
      have hgone : c.Follows [.finish slot]
          { desk with
            slots := (c.slots.filter (·.1 != slot)).map (Prod.map id History.recorder) } :=
        ⟨⟨hfits.recorder, rfl⟩, rfl⟩
      exact hgone.ending .done "finish" _
  | session body =>
      rw [steps, run]
      exact (tracks_session (tracks_stepsAll body) c desk hfits).ending _ "session" _

theorem tracks_stepsAll (program : List Command) : Tracks (stepsAll program) (runAll program) := by
  intro c desk hfits
  cases program with
  | nil => exact .nil hfits
  | cons command rest =>
      rw [runAll_cons, stepsAll]
      exact follows_goOn (tracks_steps command c desk hfits) (tracks_stepsAll rest)
end

/-- A program run from the start leaves the recorders that the histories tell. -/
theorem fits_start (program : List Command) :
    (Chronicle.after {} (stepsAll program {})).Fits (start program).2 :=
  (tracks_stepsAll program {} {} ⟨rfl, rfl⟩).fits

end Command

/-! ## Where deeds come from -/

namespace Chronicle

/-- A step makes no histories but an empty one and the one in place with the deed of the step. -/
theorem mem_live_step {c : Chronicle} {s : Step} {history : History}
    (h : history ∈ (c.step s).live) :
    history ∈ c.live ∨ history = [] ∨ ∃ d, s = .deed d ∧ history = d :: c.place := by
  -- recorders are moved between the place, the slots and those set aside, their histories with them
  have hkept : ∀ slot, history ∈ (c.slots.filter (·.1 != slot)).map Prod.snd →
      history ∈ c.live := by
    intro slot hmem
    obtain ⟨entry, hentry, rfl⟩ := List.mem_map.mp hmem
    have hslot := List.mem_map_of_mem (f := Prod.snd) (List.mem_of_mem_filter hentry)
    exact List.mem_cons_of_mem _ (List.mem_append_left _ hslot)
  have haside : history ∈ c.aside → history ∈ c.live := fun hmem =>
    List.mem_cons_of_mem _ (List.mem_append_right _ hmem)
  have hplace : history = c.place → history ∈ c.live := fun heq => heq ▸ List.mem_cons_self
  cases s with
  | deed d =>
      rcases List.mem_cons.mp h with hnew | hold
      · exact .inr (.inr ⟨d, rfl, hnew⟩)
      · exact .inl (List.mem_cons_of_mem _ hold)
  | stash slot =>
      rcases List.mem_cons.mp h with hnew | hold
      · exact .inr (.inl hnew)
      · rcases List.mem_cons.mp hold with hmoved | hrest
        · exact .inl (hplace hmoved)
        · exact .inl ((List.mem_append.mp hrest).elim (hkept slot) haside)
  | restore slot =>
      rcases List.mem_cons.mp h with hnew | hold
      · change history = c.inSlot slot at hnew
        rcases c.inSlot_eq_nil_or_mem slot with hnil | hslot
        · exact .inr (.inl (hnew.trans hnil))
        · rw [hnew]
          exact .inl (List.mem_cons_of_mem _ (List.mem_append_left _ hslot))
      · exact .inl ((List.mem_append.mp hold).elim (hkept slot) haside)
  | finish slot =>
      rcases List.mem_cons.mp h with hsame | hold
      · exact .inl (hplace hsame)
      · exact .inl ((List.mem_append.mp hold).elim (hkept slot) haside)
  | setAside =>
      rcases List.mem_cons.mp h with hnew | hold
      · exact .inr (.inl hnew)
      · rcases List.mem_append.mp hold with hslot | hrest
        · exact .inl (List.mem_cons_of_mem _ (List.mem_append_left _ hslot))
        · exact .inl ((List.mem_cons.mp hrest).elim hplace haside)
  | resume =>
      refine .inl ?_
      rw [step] at h
      split at h
      · exact h
      · rename_i outer rest hout
        rcases List.mem_cons.mp h with hback | hold
        · exact haside (by rw [hout, hback]; exact List.mem_cons_self)
        · rcases List.mem_append.mp hold with hslot | hrest
          · exact List.mem_cons_of_mem _ (List.mem_append_left _ hslot)
          · exact haside (by rw [hout]; exact List.mem_cons_of_mem _ hrest)

/-- What holds of an empty history, and goes on to hold with every deed of a run, holds of every
history in the run. -/
theorem live_after_induction {P : History → Prop} (hnil : P []) {steps : List Step}
    (hdeed : ∀ d, .deed d ∈ steps → ∀ history, P history → P (d :: history)) {c : Chronicle}
    (hc : ∀ history ∈ c.live, P history) : ∀ history ∈ (c.after steps).live, P history := by
  induction steps generalizing c with
  | nil => exact hc
  | cons s rest ih =>
      refine ih (fun d hd => hdeed d (List.mem_cons_of_mem _ hd)) (c := c.step s) ?_
      intro history hmem
      rcases mem_live_step hmem with hold | rfl | ⟨d, rfl, rfl⟩
      · exact hc history hold
      · exact hnil
      · exact hdeed d List.mem_cons_self c.place (hc c.place List.mem_cons_self)

end Chronicle
end SolidScript
