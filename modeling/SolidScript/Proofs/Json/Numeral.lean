import Mathlib.Tactic
import SolidScript.Json.Token
import SolidScript.Proofs.Number.Shortest

/-!
# The form of written numbers

A number is read by going from place to place (`NumberPlace.next?`).  A numeral is a text whose
characters lead, behind an optional minus sign, to a place where a number may end.  Every text of a
number is a numeral (`Amount.isNumeral_write`): no zero stands in front of another digit, there are
digits on both sides of a point, and there are digits behind the sign of a power of ten.
-/

namespace SolidScript
namespace Json

/-! ## Places -/

namespace NumberPlace

/-- The characters lead from one place to another. -/
inductive Leads : NumberPlace → List Char → NumberPlace → Prop where
  | stay (p : NumberPlace) : Leads p [] p
  | step {p q r : NumberPlace} {c : Char} {cs : List Char} (hc : p.next? c = some q)
      (hcs : Leads q cs r) : Leads p (c :: cs) r

namespace Leads

variable {p q r : NumberPlace} {cs ds : List Char}

theorem single {c : Char} (h : p.next? c = some q) : Leads p [c] q := .step h (.stay q)

theorem trans (h : Leads p cs q) (h' : Leads q ds r) : Leads p (cs ++ ds) r := by
  induction h with
  | stay p => exact h'
  | step hc _ ih => exact .step hc (ih h')

end Leads

/-- Does any run of digits end where it began? -/
def TakesDigits (p : NumberPlace) : Prop := ∀ c, isDecimalDigit c = true → p.next? c = some p

theorem takesDigits_whole : TakesDigits whole := fun c hc => by simp [next?, hc]

theorem takesDigits_part : TakesDigits part := fun c hc => by simp [next?, hc]

theorem takesDigits_power : TakesDigits power := fun c hc => by simp [next?, hc]

theorem TakesDigits.leads {p : NumberPlace} (h : p.TakesDigits) {ds : List Char}
    (hds : ∀ c ∈ ds, isDecimalDigit c = true) : p.Leads ds p := by
  induction ds with
  | nil => exact .stay p
  | cons d ds ih =>
      rw [List.forall_mem_cons] at hds
      exact .step (h d hds.1) (ih hds.2)

/-- A run of digits, one at least, leads to the place that its first digit leads to. -/
theorem TakesDigits.leads_of_head {p q : NumberPlace} (h : q.TakesDigits)
    (hhead : ∀ c, isDecimalDigit c = true → p.next? c = some q) {ds : List Char} (hne : ds ≠ [])
    (hds : ∀ c ∈ ds, isDecimalDigit c = true) : p.Leads ds q := by
  cases ds with
  | nil => exact absurd rfl hne
  | cons d ds =>
      rw [List.forall_mem_cons] at hds
      exact .step (hhead d hds.1) (h.leads hds.2)

theorem leads_point {ds : List Char} (hne : ds ≠ [])
    (hds : ∀ c ∈ ds, isDecimalDigit c = true) : Leads point ds part :=
  takesDigits_part.leads_of_head (fun c hc => by simp [next?, hc]) hne hds

theorem leads_powerSign {ds : List Char} (hne : ds ≠ [])
    (hds : ∀ c ∈ ds, isDecimalDigit c = true) : Leads powerSign ds power :=
  takesDigits_power.leads_of_head (fun c hc => by simp [next?, hc]) hne hds

theorem next?_sign_of_ne_zero {c : Char} (hc : isDecimalDigit c = true) (hzero : c ≠ '0') :
    next? sign c = some whole := by
  simp [next?, hc, hzero]

/-- Digits that do not begin with a zero. -/
theorem leads_sign {ds : List Char} (hne : ds ≠ []) (hds : ∀ c ∈ ds, isDecimalDigit c = true)
    (hhead : ds.head? ≠ some '0') : Leads sign ds whole := by
  cases ds with
  | nil => exact absurd rfl hne
  | cons d ds =>
      rw [List.forall_mem_cons] at hds
      have hzero : d ≠ '0' := fun h => hhead (by rw [h]; rfl)
      exact .step (next?_sign_of_ne_zero hds.1 hzero) (takesDigits_whole.leads hds.2)

end NumberPlace

/-- Does the text lead, from behind a sign, to a place where a number may end? -/
def IsUnsigned (cs : List Char) : Prop :=
  ∃ q, NumberPlace.sign.Leads cs q ∧ q.endsBefore none = true

/-- Is the text a numeral? -/
inductive IsNumeral : List Char → Prop where
  | plain {cs : List Char} (h : IsUnsigned cs) : IsNumeral cs
  | minus {cs : List Char} (h : IsUnsigned cs) : IsNumeral ('-' :: cs)

/-! ## Digits -/

theorem isDecimalDigit_of_isDigit {c : Char} (h : c.isDigit = true) : isDecimalDigit c = true := by
  have hrange : '0' ≤ c ∧ c ≤ '9' := by
    simpa [Char.isDigit, Char.le_def] using h
  simp [isDecimalDigit, digitValue?, hrange]

theorem isDecimalDigit_of_mem_toDigits {n : Nat} {c : Char} (h : c ∈ Nat.toDigits 10 n) :
    isDecimalDigit c = true :=
  isDecimalDigit_of_isDigit (Nat.isDigit_of_mem_toDigits (by decide) (by decide) h)

theorem isDecimalDigit_of_mem_zeros {n : Nat} {c : Char} (h : c ∈ List.replicate n '0') :
    isDecimalDigit c = true := by
  rw [List.eq_of_mem_replicate h]
  rfl

/-- A number other than zero does not begin with a zero. -/
theorem head?_toDigits_ne_zero {n : Nat} (h : n ≠ 0) : (Nat.toDigits 10 n).head? ≠ some '0' := by
  induction n using Nat.strongRecOn with
  | ind n ih =>
      by_cases hn : n < 10
      · rw [Nat.toDigits_of_lt_base hn]
        interval_cases n <;> first | exact absurd rfl h | decide
      · -- the first digit is that of the number without its last digit
        have hquotient : n / 10 ≠ 0 := by omega
        rw [Nat.toDigits_of_base_le (by decide) (by omega),
          List.head?_append_of_ne_nil _ Nat.toDigits_ne_nil]
        exact ih (n / 10) (by omega) hquotient

/-- The first digits of a number other than zero. -/
theorem leads_take_toDigits {n k : Nat} (hn : n ≠ 0) (hk : k ≠ 0) :
    NumberPlace.sign.Leads ((Nat.toDigits 10 n).take k) .whole := by
  refine NumberPlace.leads_sign ?_
    (fun c hc => isDecimalDigit_of_mem_toDigits (List.mem_of_mem_take hc)) ?_
  · rw [Ne, List.take_eq_nil_iff, not_or]
    exact ⟨hk, Nat.toDigits_ne_nil⟩
  · rw [List.head?_take, if_neg hk]
    exact head?_toDigits_ne_zero hn

theorem leads_toDigits {n : Nat} (h : n ≠ 0) :
    NumberPlace.sign.Leads (Nat.toDigits 10 n) .whole := by
  have htake := leads_take_toDigits h
    (k := (Nat.toDigits 10 n).length) (List.length_pos_iff.mpr Nat.toDigits_ne_nil).ne'
  rwa [List.take_length] at htake

theorem isUnsigned_toDigits (n : Nat) : IsUnsigned (Nat.toDigits 10 n) := by
  by_cases h : n = 0
  · subst h
    exact ⟨.zero, .single rfl, rfl⟩
  · exact ⟨.whole, leads_toDigits h, rfl⟩

/-! ## Written numbers -/

/-- Digits and a point with more digits behind it. -/
theorem isUnsigned_point {q : NumberPlace} {cs ds : List Char} (hcs : NumberPlace.sign.Leads cs q)
    (hpoint : q.next? '.' = some .point) (hne : ds ≠ [])
    (hds : ∀ c ∈ ds, isDecimalDigit c = true) : IsUnsigned (cs ++ '.' :: ds) :=
  ⟨.part, hcs.trans (.step hpoint (NumberPlace.leads_point hne hds)), rfl⟩

theorem isUnsigned_positional {s : Scientific} (hs : s.digits ≠ 0 ∨ s = ⟨0, 0⟩) :
    IsUnsigned (FloatStyle.positional s).toList := by
  have hdigits : ∀ c ∈ Nat.toDigits 10 s.digits, isDecimalDigit c = true :=
    fun c hc => isDecimalDigit_of_mem_toDigits hc
  unfold FloatStyle.positional
  dsimp only
  split
  · -- whole numbers
    rename_i e he
    rcases hs with hne | rfl
    · have hwhole : NumberPlace.sign.Leads (Nat.toDigits 10 s.digits ++ List.replicate e '0')
          .whole :=
        (leads_toDigits hne).trans
          (NumberPlace.takesDigits_whole.leads fun _ => isDecimalDigit_of_mem_zeros)
      have hzero : ∀ c ∈ ['0'], isDecimalDigit c = true := fun c hc => by
        rw [List.mem_singleton.mp hc]
        rfl
      simpa [FloatStyle.zeros] using isUnsigned_point hwhole rfl (List.cons_ne_nil '0' []) hzero
    · cases he
      exact ⟨.part, .step rfl (.step rfl (.single rfl)), rfl⟩
  · rename_i e he
    split
    · -- the point stands between two digits
      rename_i hplaces
      have hne : s.digits ≠ 0 := by
        intro hzero
        rw [hzero] at hplaces
        simp at hplaces
      have hplace : (Nat.toDigits 10 s.digits).length - (e + 1) ≠ 0 := by omega
      have hpart : (Nat.toDigits 10 s.digits).drop
          ((Nat.toDigits 10 s.digits).length - (e + 1)) ≠ [] := by
        rw [Ne, List.drop_eq_nil_iff]
        omega
      simpa using isUnsigned_point (leads_take_toDigits hne hplace) rfl hpart fun c hc =>
        hdigits c (List.mem_of_mem_drop hc)
    · -- the point stands before all digits
      have hzero : NumberPlace.Leads .sign ['0'] .zero := .single rfl
      have hpart : ∀ c ∈ List.replicate (e + 1 - (Nat.toDigits 10 s.digits).length) '0' ++
          Nat.toDigits 10 s.digits, isDecimalDigit c = true := fun c hc =>
        (List.mem_append.mp hc).elim isDecimalDigit_of_mem_zeros (hdigits c)
      simpa [FloatStyle.zeros] using
        isUnsigned_point hzero rfl (by simp [Nat.toDigits_ne_nil]) hpart

theorem isUnsigned_power {q : NumberPlace} {cs ds : List Char}
    (hcs : NumberPlace.sign.Leads cs q) (hmark : q.next? 'e' = some .mark) {c : Char}
    (hc : NumberPlace.mark.next? c = some .powerSign) (hne : ds ≠ [])
    (hds : ∀ d ∈ ds, isDecimalDigit d = true) : IsUnsigned (cs ++ 'e' :: c :: ds) :=
  ⟨.power, hcs.trans (.step hmark (.step hc (NumberPlace.leads_powerSign hne hds))), rfl⟩

theorem isUnsigned_scientific (s : Scientific) (exponent : Int) :
    IsUnsigned (FloatStyle.scientific s exponent).toList := by
  have hpower : ∀ {q : NumberPlace} {cs : List Char}, NumberPlace.sign.Leads cs q →
      q.next? 'e' = some .mark → IsUnsigned (cs ++ 'e' ::
        ((if exponent < 0 then "-" else "+").toList ++ Nat.toDigits 10 exponent.natAbs)) := by
    intro q cs hcs hmark
    have hpowerDigits : ∀ d ∈ Nat.toDigits 10 exponent.natAbs, isDecimalDigit d = true :=
      fun d hd => isDecimalDigit_of_mem_toDigits hd
    split
    · exact isUnsigned_power hcs hmark (c := '-') rfl Nat.toDigits_ne_nil hpowerDigits
    · exact isUnsigned_power hcs hmark (c := '+') rfl Nat.toDigits_ne_nil hpowerDigits
  -- the one digit in front may be a zero
  obtain ⟨q, hfirst, hpoint, hmark⟩ : ∃ q : NumberPlace,
      NumberPlace.sign.Leads ((Nat.toDigits 10 s.digits).take 1) q ∧
        q.next? '.' = some .point ∧ q.next? 'e' = some .mark := by
    by_cases hzero : s.digits = 0
    · rw [hzero]
      exact ⟨.zero, .single rfl, rfl, rfl⟩
    · exact ⟨.whole, leads_take_toDigits hzero (by decide), rfl, rfl⟩
  unfold FloatStyle.scientific
  dsimp only
  split
  · simpa using hpower hfirst hmark
  · rename_i htail
    have htailDigits : ∀ d ∈ (Nat.toDigits 10 s.digits).drop 1, isDecimalDigit d = true :=
      fun d hd => isDecimalDigit_of_mem_toDigits (List.mem_of_mem_drop hd)
    have hpart : NumberPlace.Leads .point ((Nat.toDigits 10 s.digits).drop 1) .part :=
      NumberPlace.leads_point (by simpa using htail) htailDigits
    simpa using hpower (hfirst.trans (.step hpoint hpart)) rfl

theorem isNumeral_sign {cs : List Char} (h : IsUnsigned cs) (negative : Bool) :
    IsNumeral ((if negative then "-" else "").toList ++ cs) := by
  cases negative with
  | false => exact .plain h
  | true => exact .minus h

theorem isNumeral_write (style : FloatStyle) (negative : Bool) (code : Fin magnitudeCount) :
    IsNumeral (style.write negative code).toList := by
  unfold FloatStyle.write
  dsimp only
  rw [String.toList_append]
  refine isNumeral_sign ?_ negative
  split
  · exact isUnsigned_positional (Number.digits_shortest_ne_zero_or_eq style.tie code)
  · exact isUnsigned_scientific _ _

/-- The text of a number is a numeral. -/
theorem Amount.isNumeral_write {amount : Amount} {text : String} (h : amount.write = some text) :
    IsNumeral text.toList := by
  cases amount with
  | natural n =>
      cases h
      exact .plain (by simpa using isUnsigned_toDigits n)
  | negative n =>
      cases h
      rw [String.toList_append]
      exact .minus (by simpa using isUnsigned_toDigits n)
  | float x =>
      cases x with
      | finite negative code =>
          cases h
          exact Json.isNumeral_write floatStyle negative code
      | nan => cases h
      | infinity negative => cases h

end Json
end SolidScript
