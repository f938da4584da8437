import Mathlib.Tactic
import SolidScript.CommandLine.Invocation
import SolidScript.Proofs.Result

/-!
# Reading arguments

What one argument does to what has been read before it: one lemma for each function of the reader
says all that can have happened when it succeeds.  From these follows that nothing that was read is
lost again, and that only `--` makes words of all further arguments (`foldlM_extends`).
-/

namespace SolidScript
namespace CommandLine
namespace Reading

variable {grammar : Grammar} {r next : Reading} {switch : Switch} {value : String}

/-! ## Values -/

theorem give_eq_ok {name : String} (h : r.give name value = .ok next) :
    r.get? name = none ∧
      next = { r with given := r.given ++ [(name, value)], awaiting := none } := by
  unfold give at h
  split at h
  · cases h
  · rename_i hnone
    cases h
    exact ⟨by simpa [has] using hnone, rfl⟩

theorem get?_give {name : String} (h : r.give name value = .ok next) (other : String) :
    next.get? other = if other = name then some value else r.get? other := by
  obtain ⟨hnone, rfl⟩ := give_eq_ok h
  unfold get? at hnone ⊢
  rw [List.find?_append]
  rw [Option.map_eq_none_iff] at hnone
  by_cases hother : other = name
  · rw [if_pos hother, hother, hnone]
    simp
  · have hne : (name == other) = false := beq_eq_false_iff_ne.mpr (Ne.symm hother)
    rw [if_neg hother]
    simp [hne]

theorem get?_of_give_self {name : String} (h : r.give name value = .ok next) :
    next.get? name = some value := by
  rw [get?_give h, if_pos rfl]

theorem giveValue_eq_ok (h : r.giveValue switch value = .ok next) :
    r.give switch.long value = .ok next := by
  unfold giveValue at h
  split at h
  · exact h
  · cases h

theorem takesValue_of_giveValue (h : r.giveValue switch value = .ok next) :
    switch.kind.takesValue = true := by
  unfold giveValue at h
  cases hkind : switch.kind with
  | help => simp [hkind, SwitchKind.accepts] at h
  | flag => simp [hkind, SwitchKind.accepts] at h
  | path => rfl
  | number => rfl

theorem giveBare_eq_ok (h : r.giveBare switch = .ok next) :
    switch.kind ≠ .help ∧ r.give switch.long "" = .ok next := by
  unfold giveBare at h
  split at h
  · cases h
  · rename_i hkind
    exact ⟨hkind, h⟩

theorem kind_of_giveBare (hbare : r.giveBare switch = .ok next)
    (hvalue : switch.kind.takesValue = false) : switch.kind = .flag := by
  have hhelp := (giveBare_eq_ok hbare).1
  cases hkind : switch.kind with
  | help => exact absurd hkind hhelp
  | flag => rfl
  | path =>
      rw [hkind] at hvalue
      cases hvalue
  | number =>
      rw [hkind] at hvalue
      cases hvalue

theorem giveWord_eq_ok (h : r.giveWord grammar value = .ok next) :
    ∃ name ∈ grammar.words, r.give name value = .ok next := by
  unfold giveWord at h
  split at h
  · rename_i name hname
    split at h
    · cases h
    · exact ⟨name, List.mem_of_find?_eq_some hname, h⟩
  · cases h

/-! ## Arguments -/

/-- What an argument with a long name does. -/
theorem readLong_cases {cs : List Char} (h : r.readLong grammar cs = .ok next) :
    ∃ switch ∈ grammar.switches, switch.long.toList = cs.takeWhile (· != '=') ∧
      ((cs.dropWhile (· != '=') = [] ∧ switch.kind.takesValue = true ∧
          next = { r with awaiting := some switch }) ∨
        (cs.dropWhile (· != '=') = [] ∧ switch.kind.takesValue = false ∧
          r.giveBare switch = .ok next) ∨
        ∃ c value, cs.dropWhile (· != '=') = c :: value ∧
          r.giveValue switch (String.ofList value) = .ok next) := by
  unfold readLong at h
  dsimp only at h
  split at h
  · cases h
  · rename_i switch hfind hdrop
    have hlong : switch.long = String.ofList (cs.takeWhile (· != '=')) := by
      simpa using List.find?_some hfind
    refine ⟨switch, List.mem_of_find?_eq_some hfind, by rw [hlong, String.toList_ofList], ?_⟩
    split at h
    · rename_i hkind
      cases h
      exact .inl ⟨hdrop, hkind, rfl⟩
    · rename_i hkind
      exact .inr (.inl ⟨hdrop, Bool.eq_false_iff.mpr hkind, h⟩)
  · rename_i switch c value hfind hdrop
    have hlong : switch.long = String.ofList (cs.takeWhile (· != '=')) := by
      simpa using List.find?_some hfind
    exact ⟨switch, List.mem_of_find?_eq_some hfind, by rw [hlong, String.toList_ofList],
      .inr (.inr ⟨c, value, hdrop, h⟩)⟩

/-- What a short name does, with what stands behind it. -/
theorem readShort_cases {c : Char} {rest : List Char}
    (h : r.readShort grammar (c :: rest) = .ok next) :
    ∃ switch ∈ grammar.switches, switch.short = some c ∧
      ((switch.kind.takesValue = true ∧ rest = [] ∧ next = { r with awaiting := some switch }) ∨
        (switch.kind.takesValue = true ∧ rest ≠ [] ∧
          r.giveValue switch (String.ofList (attached rest)) = .ok next) ∨
        (switch.kind.takesValue = false ∧ ∃ between, r.giveBare switch = .ok between ∧
          between.readShort grammar rest = .ok next)) := by
  rw [readShort] at h
  split at h
  · cases h
  · rename_i switch hfind
    have hshort : switch.short = some c := by simpa using List.find?_some hfind
    refine ⟨switch, List.mem_of_find?_eq_some hfind, hshort, ?_⟩
    split at h
    · rename_i hkind
      split at h
      · rename_i hrest
        cases h
        exact .inl ⟨hkind, List.isEmpty_iff.mp hrest, rfl⟩
      · rename_i hrest
        exact .inr (.inl ⟨hkind, fun hnil => hrest (List.isEmpty_iff.mpr hnil), h⟩)
    · rename_i hkind
      split at h
      · cases h
      · rename_i between hbare
        exact .inr (.inr ⟨Bool.eq_false_iff.mpr hkind, between, hbare, h⟩)

/-- What an argument does to a reading that is still open for switches. -/
theorem read_cases {arg : String} (hclosed : r.closed = false)
    (h : read grammar r arg = .ok next) :
    (∃ switch, r.awaiting = some switch ∧ looksLikeSwitch arg = false ∧
        r.giveValue switch arg = .ok next) ∨
      r.awaiting = none ∧
        (arg = "--" ∧ next = { r with closed := true } ∨
          (∃ cs, cs ≠ [] ∧ arg.toList = '-' :: '-' :: cs ∧ r.readLong grammar cs = .ok next) ∨
          (∃ c cs, c ≠ '-' ∧ arg.toList = '-' :: c :: cs ∧
            r.readShort grammar (c :: cs) = .ok next) ∨
          looksLikeSwitch arg = false ∧ r.giveWord grammar arg = .ok next) := by
  have hlooks : (∀ c cs, arg.toList = '-' :: c :: cs → False) → looksLikeSwitch arg = false := by
    intro hno
    unfold looksLikeSwitch
    split
    · rename_i c cs harg
      exact (hno c cs harg).elim
    · rfl
  unfold read at h
  rw [hclosed, if_neg Bool.false_ne_true] at h
  split at h
  · cases h
  · rename_i switch hawaiting hno
    exact .inl ⟨switch, hawaiting, hlooks hno, h⟩
  · rename_i hawaiting harg
    cases h
    exact .inr ⟨hawaiting, .inl ⟨String.toList_inj.mp harg, rfl⟩⟩
  · rename_i cs hne hawaiting harg
    exact .inr ⟨hawaiting, .inr (.inl ⟨cs, hne, harg, h⟩)⟩
  · rename_i c cs _ hdash hawaiting harg
    exact .inr ⟨hawaiting, .inr (.inr (.inl ⟨c, cs, hdash, harg, h⟩))⟩
  · rename_i hawaiting _ _ hno
    exact .inr ⟨hawaiting, .inr (.inr (.inr ⟨hlooks hno, h⟩))⟩

theorem read_of_closed {arg : String} (hclosed : r.closed = true)
    (h : read grammar r arg = .ok next) : r.giveWord grammar arg = .ok next := by
  unfold read at h
  rwa [hclosed, if_pos rfl] at h

theorem foldlM_of_readAll {args : List String} (h : readAll grammar args = .ok r) :
    args.foldlM (read grammar) {} = .ok r := by
  unfold readAll at h
  obtain ⟨last, hlast, h⟩ := exists_of_bind_eq_ok h
  split at h
  · cases h
  · cases h
    exact hlast

/-! ## What is read stays -/

/-- Nothing that was read is lost, and it is still open whether words follow. -/
structure Extends (r next : Reading) : Prop where
  kept : ∀ {name value : String}, r.get? name = some value → next.get? name = some value
  closed : next.closed = r.closed

theorem Extends.refl (r : Reading) : r.Extends r := ⟨id, rfl⟩

theorem Extends.trans {last : Reading} (h : r.Extends next) (h' : next.Extends last) :
    r.Extends last :=
  ⟨fun hget => h'.kept (h.kept hget), h'.closed.trans h.closed⟩

theorem give_extends {name : String} (h : r.give name value = .ok next) : r.Extends next := by
  refine ⟨fun {other found} hget => ?_, by rw [(give_eq_ok h).2]⟩
  rw [get?_give h, if_neg, hget]
  rintro rfl
  rw [(give_eq_ok h).1] at hget
  cases hget

theorem readLong_extends {cs : List Char} (h : r.readLong grammar cs = .ok next) :
    r.Extends next := by
  obtain ⟨switch, -, -, ⟨-, -, rfl⟩ | ⟨-, -, hbare⟩ | ⟨c, value, -, hvalue⟩⟩ := readLong_cases h
  · exact ⟨id, rfl⟩
  · exact give_extends (giveBare_eq_ok hbare).2
  · exact give_extends (giveValue_eq_ok hvalue)

theorem readShort_extends {cs : List Char} (h : r.readShort grammar cs = .ok next) :
    r.Extends next := by
  induction cs generalizing r with
  | nil =>
      cases h
      exact .refl _
  | cons c rest ih =>
      obtain ⟨switch, -, -, ⟨-, -, rfl⟩ | ⟨-, -, hvalue⟩ | ⟨-, between, hbare, hrest⟩⟩ :=
        readShort_cases h
      · exact ⟨id, rfl⟩
      · exact give_extends (giveValue_eq_ok hvalue)
      · exact (give_extends (giveBare_eq_ok hbare).2).trans (ih hrest)

/-- Only `--` changes what further arguments are. -/
theorem read_extends {arg : String} (h : read grammar r arg = .ok next) :
    (∀ {name value : String}, r.get? name = some value → next.get? name = some value) ∧
      (arg ≠ "--" → next.closed = r.closed) := by
  have hextends (hnext : r.Extends next) :
      (∀ {name value : String}, r.get? name = some value → next.get? name = some value) ∧
        (arg ≠ "--" → next.closed = r.closed) := ⟨hnext.kept, fun _ => hnext.closed⟩
  cases hclosed : r.closed with
  | true =>
      obtain ⟨name, -, hgive⟩ := giveWord_eq_ok (read_of_closed hclosed h)
      rw [← hclosed]
      exact hextends (give_extends hgive)
  | false =>
      rw [← hclosed]
      obtain ⟨switch, -, -, hvalue⟩ | ⟨-, ⟨rfl, rfl⟩ | ⟨cs, -, -, hlong⟩ | ⟨c, cs, -, -, hshort⟩ |
        ⟨-, hword⟩⟩ := read_cases hclosed h
      · exact hextends (give_extends (giveValue_eq_ok hvalue))
      · exact ⟨id, fun hne => absurd rfl hne⟩
      · exact hextends (readLong_extends hlong)
      · exact hextends (readShort_extends hshort)
      · obtain ⟨name, -, hgive⟩ := giveWord_eq_ok hword
        exact hextends (give_extends hgive)

theorem foldlM_extends {args : List String} (h : args.foldlM (read grammar) r = .ok next) :
    (∀ {name value : String}, r.get? name = some value → next.get? name = some value) ∧
      ("--" ∉ args → next.closed = r.closed) := by
  induction args generalizing r with
  | nil =>
      cases h
      exact ⟨id, fun _ => rfl⟩
  | cons arg rest ih =>
      obtain ⟨between, hread, hrest⟩ := exists_of_foldlM_cons h
      obtain ⟨hkept, hopen⟩ := read_extends hread
      obtain ⟨hkept', hopen'⟩ := ih hrest
      refine ⟨fun hget => hkept' (hkept hget), fun hdashes => ?_⟩
      rw [List.mem_cons, not_or] at hdashes
      exact (hopen' hdashes.2).trans (hopen (Ne.symm hdashes.1))

end Reading
end CommandLine
end SolidScript
