import Mathlib.Tactic
import SolidScript.Proofs.Recording.History

/-!
# The balance of a recorder

What a recorder that is finished says of its scopes, told from its history alone.

Where every nesting call ends well, the scopes that are open on a recorder and those it has counted
are the scopes opened on it less the scopes closed on it, a closing on a recorder without an open
scope aside (`start_outstanding_eq_openings_sub_closings`).  Scopes may be opened on one recorder
and closed on another; the invariant is about each recorder by itself.

In any run at all, a closing is counted only where it finds scopes above its own, and such a closing
is never forgotten (`start_finish_fails_iff_surplus`).  A closing that finds fewer scopes than its
own is not counted: `strayClosing` finishes well.
-/

namespace SolidScript

/-! ## What deeds do to the counts -/

namespace Recorder

/-- How many scopes a recorder reports when it is finished. -/
def outstanding (r : Recorder) : Nat := r.depth + r.unbalanced

@[simp] theorem depth_record (r : Recorder) (node : Node) : (r.record node).depth = r.depth := by
  rw [record_eq_append, depth_append]

@[simp] theorem unbalanced_record (r : Recorder) (node : Node) :
    (r.record node).unbalanced = r.unbalanced := by
  rw [record]
  split <;> rfl

@[simp] theorem unbalanced_openScope (r : Recorder) : r.openScope.unbalanced = r.unbalanced := rfl

@[simp] theorem depth_truncate (r : Recorder) (count : Nat) :
    (r.truncate count).depth = min r.depth count := by
  rw [truncate, depth, List.length_drop, ← depth]
  omega

@[simp] theorem unbalanced_truncate (r : Recorder) (count : Nat) :
    (r.truncate count).unbalanced = r.unbalanced := rfl

/-- Closing takes away the scopes above its own, and then the one on top if there is any. -/
theorem scopes_closeScope (r : Recorder) (base : Nat) :
    (r.closeScope base).2.scopes = (r.scopes.drop (r.depth - (base + 1))).tail := by
  unfold closeScope
  dsimp only
  split
  · rename_i hnone
    rw [hnone]
    exact (congrArg List.tail hnone).symm
  · rename_i hsome
    exact (congrArg List.tail hsome).symm

theorem depth_closeScope (r : Recorder) (base : Nat) :
    (r.closeScope base).2.depth = min r.depth (base + 1) - 1 := by
  rw [depth, scopes_closeScope, List.length_tail, List.length_drop, ← depth]
  omega

/-- Only the scopes above its own are counted. -/
theorem unbalanced_closeScope (r : Recorder) (base : Nat) :
    (r.closeScope base).2.unbalanced = r.unbalanced + (r.depth - (base + 1)) := by
  unfold closeScope
  dsimp only
  split <;> rfl

/-- A closing settles one scope, if any is open. -/
theorem outstanding_closeScope (r : Recorder) (base : Nat) :
    (r.closeScope base).2.outstanding =
      if r.depth = 0 then r.outstanding else r.outstanding - 1 := by
  have hdepth := r.depth_closeScope base
  have hunbalanced := r.unbalanced_closeScope base
  unfold outstanding
  split <;> omega

theorem finish_eq (r : Recorder) :
    r.finish = if r.outstanding = 0 then .ok r.roots
      else .error (.unbalancedScope r.outstanding) := rfl

theorem finish_eq_error_iff (r : Recorder) :
    (∃ count, r.finish = .error (.unbalancedScope count)) ↔ 0 < r.outstanding := by
  rw [finish_eq]
  split
  · rename_i hzero
    constructor
    · rintro ⟨count, hcount⟩
      cases hcount
    · omega
  · exact ⟨fun _ => by omega, fun _ => ⟨_, rfl⟩⟩

end Recorder

/-! ## Openings and closings -/

namespace History

/-- How many scopes were opened on the recorder. -/
def openings : History → Nat
  | [] => 0
  | .opened :: earlier => openings earlier + 1
  | _ :: earlier => openings earlier

/-- How many scopes were closed on the recorder while it had a scope open. -/
def closings : History → Nat
  | [] => 0
  | .closed _ :: earlier =>
    if (recorder earlier).depth = 0 then closings earlier else closings earlier + 1
  | _ :: earlier => closings earlier

/-- What is outstanding and what was closed make up what was opened. -/
def Balanced (history : History) : Prop :=
  (recorder history).outstanding + closings history = openings history

theorem balanced_nil : Balanced [] := rfl

/-- Every deed but the dropping of a scope keeps the balance. -/
theorem Balanced.cons {history : History} (h : Balanced history) {d : Deed}
    (hd : (Step.deed d).abandons = false) : Balanced (d :: history) := by
  unfold Balanced at h ⊢
  cases d with
  | recorded node =>
      change ((recorder history).record node).outstanding + closings history = openings history
      rw [← h, Recorder.outstanding, Recorder.outstanding, Recorder.depth_record,
        Recorder.unbalanced_record]
  | opened =>
      change (recorder history).openScope.outstanding + closings history = openings history + 1
      rw [← h, Recorder.outstanding, Recorder.outstanding, Recorder.depth_openScope,
        Recorder.unbalanced_openScope]
      omega
  | closed base =>
      -- on an empty recorder nothing is open that could be closed
      have hclosed := (recorder history).outstanding_closeScope base
      have hdepth : (recorder history).depth ≤ (recorder history).outstanding :=
        Nat.le_add_right _ _
      change ((recorder history).closeScope base).2.outstanding +
        (if (recorder history).depth = 0 then closings history else closings history + 1) =
          openings history
      rw [hclosed, ← h]
      split <;> omega
  | abandoned base => cases hd

/-- A scope was closed on the recorder while there were scopes above it. -/
def ClosedWithSurplus (history : History) : Prop :=
  ∃ base earlier, .closed base :: earlier <:+ history ∧ base + 1 < (recorder earlier).depth

/-- A scope was closed on the recorder while the number of open scopes was not the one from right
after its opening. -/
def Mismatched (history : History) : Prop :=
  ∃ base earlier, .closed base :: earlier <:+ history ∧ (recorder earlier).depth ≠ base + 1

theorem not_closedWithSurplus_nil : ¬ ClosedWithSurplus [] := by
  rintro ⟨base, earlier, hsuffix, -⟩
  exact List.cons_ne_nil _ _ (List.suffix_nil.mp hsuffix)

/-- A surplus is found by the last deed or was found before it. -/
theorem closedWithSurplus_cons (d : Deed) (history : History) :
    ClosedWithSurplus (d :: history) ↔
      (∃ base, d = .closed base ∧ base + 1 < (recorder history).depth) ∨
        ClosedWithSurplus history := by
  constructor
  · rintro ⟨base, earlier, hsuffix, hdepth⟩
    rcases List.suffix_cons_iff.mp hsuffix with hsame | hbefore
    · cases hsame
      exact .inl ⟨base, rfl, hdepth⟩
    · exact .inr ⟨base, earlier, hbefore, hdepth⟩
  · rintro (⟨base, rfl, hdepth⟩ | ⟨base, earlier, hsuffix, hdepth⟩)
    · exact ⟨base, history, List.suffix_rfl, hdepth⟩
    · exact ⟨base, earlier, hsuffix.trans (List.suffix_cons d history), hdepth⟩

/-- A recorder has counted scopes exactly when a closing has found some above its own: no deed ever
takes the count down. -/
theorem unbalanced_pos_iff (history : History) :
    0 < (recorder history).unbalanced ↔ ClosedWithSurplus history := by
  induction history with
  | nil => exact ⟨fun h => absurd h (Nat.lt_irrefl 0), fun h => absurd h not_closedWithSurplus_nil⟩
  | cons d earlier ih =>
      rw [closedWithSurplus_cons, ← ih]
      cases d with
      | recorded node =>
          change 0 < ((recorder earlier).record node).unbalanced ↔ _
          simp
      | opened =>
          change 0 < (recorder earlier).unbalanced ↔ _
          simp
      | closed base =>
          change 0 < ((recorder earlier).closeScope base).2.unbalanced ↔ _
          have hcount := (recorder earlier).unbalanced_closeScope base
          simp only [Deed.closed.injEq, exists_eq_left']
          omega
      | abandoned base =>
          change 0 < (recorder earlier).unbalanced ↔ _
          simp

end History

namespace Command

/-! ## Runs in which every nesting call ends well -/

/-- Where every nesting call ends well, each recorder has outstanding, at every step, the scopes
opened on it less the scopes closed on it while it had one open; and that difference is what a
finish reports. -/
theorem start_outstanding_eq_openings_sub_closings (program : List Command)
    (hsucceed : ∀ step ∈ stepsAll program {}, step.abandons = false) :
    (Chronicle.after {} (stepsAll program {})).Fits (start program).2 ∧
      ∀ past ahead, stepsAll program {} = past ++ ahead →
        ∀ history ∈ (Chronicle.after {} past).live,
          history.recorder.depth + history.recorder.unbalanced + history.closings =
              history.openings ∧
            ((∃ roots, history.recorder.finish = .ok roots) ↔
              history.openings = history.closings) ∧
            (history.openings ≠ history.closings →
              history.recorder.finish =
                .error (.unbalancedScope (history.openings - history.closings))) := by
  refine ⟨fits_start program, fun past ahead hsplit history hlive => ?_⟩
  have hbalanced : history.Balanced := by
    refine Chronicle.live_after_induction (c := {}) (P := History.Balanced)
      History.balanced_nil ?_ ?_ history hlive
    · intro d hd earlier hearlier
      refine hearlier.cons (hsucceed _ ?_)
      rw [hsplit]
      exact List.mem_append_left _ hd
    · intro fresh hfresh
      rw [List.mem_singleton.mp hfresh]
      exact History.balanced_nil
  unfold History.Balanced at hbalanced
  refine ⟨hbalanced, ?_, ?_⟩
  · rw [Recorder.finish_eq]
    split
    · exact ⟨fun _ => by omega, fun _ => ⟨_, rfl⟩⟩
    · constructor
      · rintro ⟨roots, hroots⟩
        cases hroots
      · omega
  · intro hne
    have hdifference : history.recorder.outstanding = history.openings - history.closings := by
      omega
    rw [Recorder.finish_eq, if_neg (by omega), hdifference]

/-- Two scopes are opened on a recorder that is then moved away, and a third one, opened on another
recorder, is closed on it. -/
def borrowedScopes : List Command := [
  .within "union" (.combinator .union) false [
    .within "hull" (.combinator .hull) false [.stash "a"]],
  .within "minkowski" (.combinator .minkowski) false [.restore "a"]]

theorem start_borrowedScopes_outstanding :
    (∀ step ∈ stepsAll borrowedScopes {}, step.abandons = false) ∧
      (Chronicle.after {} (stepsAll borrowedScopes {})).place.openings = 2 ∧
      (Chronicle.after {} (stepsAll borrowedScopes {})).place.closings = 1 ∧
      (start borrowedScopes).2.recorder.finish = .error (.unbalancedScope 1) := by
  have hsucceed : ∀ step ∈ stepsAll borrowedScopes {}, step.abandons = false := by decide +kernel
  obtain ⟨hfits, hbalance⟩ := start_outstanding_eq_openings_sub_closings borrowedScopes hsucceed
  obtain ⟨-, -, hfinish⟩ := hbalance _ [] (List.append_nil _).symm _ List.mem_cons_self
  rw [hfits.recorder] at hfinish
  exact ⟨hsucceed, rfl, rfl, hfinish (by decide +kernel)⟩

/-! ## All runs -/

/-- A finish fails exactly when scopes are still open or a closing has found scopes above its own,
however long ago that was. -/
theorem start_finish_fails_iff_surplus (program : List Command) :
    (Chronicle.after {} (stepsAll program {})).Fits (start program).2 ∧
      ∀ past ahead, stepsAll program {} = past ++ ahead →
        ∀ history ∈ (Chronicle.after {} past).live,
          (∃ count, history.recorder.finish = .error (.unbalancedScope count)) ↔
            0 < history.recorder.depth ∨ history.ClosedWithSurplus := by
  refine ⟨fits_start program, fun past ahead _ history _ => ?_⟩
  rw [Recorder.finish_eq_error_iff, ← History.unbalanced_pos_iff, Recorder.outstanding]
  omega

/-- The closing of the third scope finds two scopes where one should be, and the finish fails though
none of them is left open. -/
theorem start_borrowedScopes_finish_fails :
    (Chronicle.after {} (stepsAll borrowedScopes {})).place.ClosedWithSurplus ∧
      (start borrowedScopes).2.recorder.depth = 0 ∧
      ∃ count, (start borrowedScopes).2.recorder.finish = .error (.unbalancedScope count) := by
  obtain ⟨hfits, hfails⟩ := start_finish_fails_iff_surplus borrowedScopes
  have hplace := hfails _ [] (List.append_nil _).symm _ List.mem_cons_self
  have hsurplus : (Chronicle.after {} (stepsAll borrowedScopes {})).place.ClosedWithSurplus :=
    ⟨0, [.opened, .opened], List.suffix_cons _ _, by decide⟩
  rw [hfits.recorder] at hplace
  exact ⟨hsurplus, rfl, hplace.mpr (.inr hsurplus)⟩

/-- A recorder is moved away inside a scope, which is then closed on the empty one in its place. -/
def strayClosing : List Command := [.within "union" (.combinator .union) false [.stash "a"]]

/-- A scope is closed on a recorder that has no scope open, and that recorder finishes well. -/
theorem start_strayClosing_finishes :
    (Chronicle.after {} (stepsAll strayClosing {})).Fits (start strayClosing).2 ∧
      (Chronicle.after {} (stepsAll strayClosing {})).place.Mismatched ∧
      (start strayClosing).2.recorder.finish = .ok [.composite (.combinator .union) []] :=
  ⟨⟨rfl, rfl⟩, ⟨0, [], List.suffix_cons _ _, by decide⟩, rfl⟩

end Command
end SolidScript
