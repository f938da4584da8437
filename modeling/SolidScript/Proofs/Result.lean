/-!
# Results that may fail

How the result of several steps comes from the results of each: a sequence succeeds only when every
step does, and it fails with the fault of the first step that does not (`Reports`).
-/

namespace SolidScript

theorem exists_of_bind_eq_ok {ε α β : Type} {x : Except ε α} {f : α → Except ε β} {b : β}
    (h : x >>= f = .ok b) : ∃ a, x = .ok a ∧ f a = .ok b := by
  cases x with
  | error e => cases h
  | ok a => exact ⟨a, rfl, h⟩

theorem map_eq_ok {ε α β : Type} {f : α → β} {x : Except ε α} {b : β} (h : x.map f = .ok b) :
    ∃ a, x = .ok a ∧ f a = b := by
  cases x with
  | error e => cases h
  | ok a => exact ⟨a, rfl, Except.ok.inj h⟩

/-- A sequence gives something when the first step does and the second does with it. -/
theorem toOption_bind {ε α β : Type} (x : Except ε α) (f : α → Except ε β) :
    (x >>= f).toOption = x.toOption.bind fun a => (f a).toOption := by
  cases x <;> rfl

theorem toOption_map {ε α β : Type} (f : α → β) (x : Except ε α) :
    (x.map f).toOption = x.toOption.map f := by
  cases x <;> rfl

theorem toOption_eq_some_iff {ε α : Type} {x : Except ε α} {a : α} :
    x.toOption = some a ↔ x = .ok a := by
  cases x with
  | error e => constructor <;> (intro h; cases h)
  | ok b => constructor <;> (intro h; cases h; rfl)

/-! ## Steps for the items of a list -/

section

variable {ε α β : Type} {f : β → α → Except ε β} {items more : List α} {item : α} {b c : β}

theorem exists_of_foldlM_cons (h : (item :: items).foldlM f b = .ok c) :
    ∃ between, f b item = .ok between ∧ items.foldlM f between = .ok c := by
  rw [List.foldlM_cons] at h
  exact exists_of_bind_eq_ok h

theorem exists_of_foldlM_append (h : (items ++ more).foldlM f b = .ok c) :
    ∃ between, items.foldlM f b = .ok between ∧ more.foldlM f between = .ok c := by
  rw [List.foldlM_append] at h
  exact exists_of_bind_eq_ok h

theorem of_foldlM_singleton (h : [item].foldlM f b = .ok c) : f b item = .ok c := by
  obtain ⟨between, hstep, hlast⟩ := exists_of_foldlM_cons h
  cases hlast
  exact hstep

end

/-! ## Faults -/

/-- The result is a success when no fault is listed, and otherwise the failure with the first
one. -/
def Reports {ε α : Type} (result : Except ε α) (faults : List ε) : Prop :=
  match faults with
  | [] => ∃ a, result = .ok a
  | fault :: _ => result = .error fault

namespace Reports

variable {ε α β : Type}

theorem ok (a : α) : Reports (.ok a : Except ε α) [] := ⟨a, rfl⟩

theorem error (fault : ε) : Reports (.error fault : Except ε α) [fault] := rfl

/-- Only the first fault matters. -/
theorem of_head? {result : Except ε α} {faults others : List ε}
    (h : Reports result faults) (hhead : faults.head? = others.head?) :
    Reports result others := by
  cases faults with
  | nil =>
      cases others with
      | nil => exact h
      | cons other more => cases hhead
  | cons fault rest =>
      cases others with
      | nil => cases hhead
      | cons other more =>
          cases hhead
          exact h

/-- The second step is taken only when the first one has no fault. -/
theorem bind {x : Except ε α} {f : α → Except ε β} {first second : List ε}
    (hx : Reports x first) (hf : ∀ a, Reports (f a) second) :
    Reports (x >>= f) (first ++ second) := by
  cases first with
  | nil =>
      obtain ⟨a, rfl⟩ := hx
      exact hf a
  | cons fault rest =>
      change x = .error fault at hx
      rw [hx]
      rfl

/-- A step that is only rearranged reports what the step reports. -/
theorem map {x : Except ε α} {faults : List ε} (hx : Reports x faults) (f : α → β) :
    Reports (x >>= fun a => .ok (f a)) faults := by
  have hbind := hx.bind fun a => ok (f a)
  rwa [List.append_nil] at hbind

theorem error_iff {result : Except ε α} {faults : List ε} (h : Reports result faults)
    (fault : ε) : result = .error fault ↔ faults.head? = some fault := by
  cases faults with
  | nil =>
      obtain ⟨a, rfl⟩ := h
      constructor <;> exact fun h => by cases h
  | cons first rest =>
      change result = .error first at h
      rw [h, List.head?_cons, Except.error.injEq, Option.some.injEq]

theorem ok_iff {result : Except ε α} {faults : List ε} (h : Reports result faults) :
    (∃ a, result = .ok a) ↔ faults = [] := by
  cases faults with
  | nil => exact ⟨fun _ => rfl, fun _ => h⟩
  | cons first rest =>
      change result = .error first at h
      rw [h]
      constructor
      · rintro ⟨a, ha⟩
        cases ha
      · exact fun h => by cases h

end Reports

end SolidScript
