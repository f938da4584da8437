import Mathlib.Tactic
import SolidScript.Proofs.Number.Scientific

/-!
# Shortest digits

A decimal that reads back as a number need not have the value of the number, but it stays on the
same side of every other magnitude.  So the shortest digits of a number are below every magnitude
that the number is below (`value_shortest_lt`), and they are read as the number with either sign
(`ofScientific_shortest`).
-/

namespace SolidScript

/-- Trailing zeros may be counted among the digits or in the exponent. -/
theorem natCast_mul_ten_pow_mul_zpow (digits count : Nat) (exponent : Int) :
    ((digits * 10 ^ count : Nat) : ℚ) * 10 ^ exponent = digits * 10 ^ (exponent + count) := by
  rw [zpow_add₀ (by norm_num), zpow_natCast]
  push_cast
  ring

namespace Number

theorem value_dropTrailingZeros (fuel digits : Nat) (exponent : Int) :
    (dropTrailingZeros fuel digits exponent).value = (Scientific.mk digits exponent).value := by
  induction fuel generalizing digits exponent with
  | zero => rfl
  | succ fuel ih =>
      rw [dropTrailingZeros]
      split
      · rename_i hzero
        have hdigits : digits = digits / 10 * 10 ^ 1 := by omega
        rw [ih, Scientific.value, Scientific.value]
        dsimp only
        conv_rhs => rw [hdigits, natCast_mul_ten_pow_mul_zpow]
        norm_num
      · rfl

/-- All digits of a magnitude denote the magnitude. -/
theorem value_exactDigits (code : Fin magnitudeCount) :
    (exactDigits code).value = magnitude code := by
  have hplaces : ∀ places : Nat, unitsPerOne = Nat.pow 2 places →
      (exactDigits code).digits = units code * Nat.pow 5 places →
      (exactDigits code).exponent = -(places : Int) →
      (exactDigits code).value = magnitude code := by
    intro places hunits hdigits hexponent
    have hten : (10 : ℚ) ^ places = 5 ^ places * 2 ^ places := by rw [← mul_pow]; norm_num
    rw [Scientific.value, hdigits, hexponent, magnitude, hunits, zpow_neg, zpow_natCast, hten,
      Nat.pow_eq, Nat.pow_eq]
    push_cast
    field_simp
  exact hplaces 1074 rfl rfl rfl

theorem magnitude_le_div_iff {code num den : Nat} (hden : 0 < den) :
    magnitude code ≤ num / den ↔ units code * den ≤ num * unitsPerOne := by
  have hunits : (0 : ℚ) < unitsPerOne := by exact_mod_cast unitsPerOne_pos
  rw [magnitude, div_le_div_iff₀ hunits (by exact_mod_cast hden)]
  exact_mod_cast Iff.rfl

theorem nearestCode_of_ofRatio {negative : Bool} {num den : Nat} {code : Fin magnitudeCount}
    (h : ofRatio negative num den = finite negative code) : nearestCode num den = code := by
  unfold ofRatio ofCode at h
  split at h
  · exact congrArg Fin.val (Number.finite.inj h).2
  · cases h

/-- What reads back as a number below a magnitude is below that magnitude. -/
theorem value_lt_of_readsBack {code : Fin magnitudeCount} {bound : Nat} {s : Scientific}
    (hcode : code.val < bound) (h : readsBack code s.digits s.exponent = true) :
    s.value < magnitude bound := by
  obtain ⟨num, den, hden, hvalue⟩ := exists_value_eq s
  rw [readsBack, beq_iff_eq, ofScientific_eq_ofRatio false hden hvalue] at h
  rw [hvalue]
  by_contra hge
  have hle := le_nearestCode hden ((magnitude_le_div_iff hden).mp (not_lt.mp hge))
  rw [nearestCode_of_ofRatio h] at hle
  omega

theorem readsBack_of_onGrid? {tie : TieRule} {code : Fin magnitudeCount} {exponent : Int}
    {digits : Nat} (h : onGrid? tie code exponent = some digits) :
    readsBack code digits exponent = true := by
  simp only [onGrid?] at h
  split at h
  · rename_i hboth
    rw [Bool.and_eq_true] at hboth
    cases h
    split
    · exact hboth.2
    · exact hboth.1
  · split at h
    · rename_i hlow
      cases h
      exact hlow
    · split at h
      · rename_i hhigh
        cases h
        exact hhigh
      · cases h

theorem readsBack_of_firstGrid? {tie : TieRule} {code : Fin magnitudeCount} {count : Nat}
    {exponent : Int} {s : Scientific} (h : firstGrid? tie code count exponent = some s) :
    readsBack code s.digits s.exponent = true := by
  induction count generalizing exponent with
  | zero => cases h
  | succ count ih =>
      rw [firstGrid?] at h
      split at h
      · rename_i digits hdigits
        cases h
        exact readsBack_of_onGrid? hdigits
      · exact ih h

theorem value_shortest_lt (tie : TieRule) {code : Fin magnitudeCount} {bound : Nat}
    (hcode : code.val < bound) : (shortest tie code).value < magnitude bound := by
  have hless := magnitude_strictMono hcode
  rw [shortest]
  split
  · rename_i hzero
    rw [hzero, magnitude_zero] at hless
    rwa [Scientific.value, Nat.cast_zero, zero_mul]
  · split
    · rename_i s hs
      rw [value_dropTrailingZeros]
      exact value_lt_of_readsBack hcode (readsBack_of_firstGrid? hs)
    · rwa [value_exactDigits]

/-! ## Reading back -/

theorem ofCode_fin (negative : Bool) (code : Fin magnitudeCount) :
    ofCode negative code = finite negative code := by
  rw [ofCode, dif_pos code.isLt]

/-- What reads back without a sign does so with one. -/
theorem ofScientific_of_readsBack {code : Fin magnitudeCount} {s : Scientific}
    (h : readsBack code s.digits s.exponent = true) (negative : Bool) :
    ofScientific negative s.digits s.exponent = finite negative code := by
  obtain ⟨num, den, hden, hvalue⟩ := exists_value_eq s
  rw [readsBack, beq_iff_eq, ofScientific_eq_ofRatio false hden hvalue] at h
  rw [ofScientific_eq_ofRatio negative hden hvalue, ofRatio, nearestCode_of_ofRatio h, ofCode_fin]

/-- The shortest digits of a number are read as the number. -/
theorem ofScientific_shortest (tie : TieRule) (negative : Bool) (code : Fin magnitudeCount) :
    ofScientific negative (shortest tie code).digits (shortest tie code).exponent =
      finite negative code := by
  rw [shortest]
  split
  · rename_i hzero
    change zero negative = finite negative code
    rw [zero, ← hzero, ofCode_fin]
  · split
    · rename_i s hs
      rw [ofScientific_congr (value_dropTrailingZeros 20 s.digits s.exponent) negative]
      exact ofScientific_of_readsBack (readsBack_of_firstGrid? hs) negative
    · rw [ofScientific_eq_ofRatio negative unitsPerOne_pos (value_exactDigits code), ofRatio,
        nearestCode_units, ofCode_fin]

/-- Only zero has no digit other than zero, and it has no power of ten. -/
theorem digits_shortest_ne_zero_or_eq (tie : TieRule) (code : Fin magnitudeCount) :
    (shortest tie code).digits ≠ 0 ∨ shortest tie code = ⟨0, 0⟩ := by
  by_cases hcode : code.val = 0
  · exact Or.inr (by rw [shortest, if_pos hcode])
  · -- no digits would be read as zero, which is not the number
    refine Or.inl fun hdigits => hcode ?_
    have hread := ofScientific_shortest tie false code
    rw [hdigits, ofScientific_zero, zero, ofCode, dif_pos code.pos] at hread
    exact (congrArg Fin.val (Number.finite.inj hread).2).symm

end Number
end SolidScript
