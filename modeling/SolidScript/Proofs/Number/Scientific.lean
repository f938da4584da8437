import Mathlib.Tactic
import SolidScript.Number.Shortest
import SolidScript.Proofs.Number.Nearest

/-!
# Decimals that are read

A decimal is read by its value alone: where an exponent is answered without computing its power, the
rounding would give the same (`ofScientific_eq_ofRatio`).  So reading a decimal is rounding any
quotient with its value, and it does not matter how the value is divided between the digits and the
exponent (`ofScientific_congr`).
-/

namespace SolidScript

/-- The rational that a decimal denotes. -/
def Scientific.value (s : Scientific) : ℚ := s.digits * 10 ^ s.exponent

namespace Number

/-! ## Quotients of the same value -/

theorem nearestCode_congr {num den num' den' : Nat} (hden : 0 < den) (hden' : 0 < den')
    (h : (num : ℚ) / den = num' / den') : nearestCode num den = nearestCode num' den' := by
  rw [div_eq_div_iff (by exact_mod_cast hden.ne') (by exact_mod_cast hden'.ne')] at h
  have hcross : num * den' = num' * den := by exact_mod_cast h
  exact le_antisymm (nearestCode_mono hden hden' hcross.le) (nearestCode_mono hden' hden hcross.ge)

/-- What is less than half of the least magnitude is rounded to zero. -/
theorem nearestCode_eq_zero {num den : Nat} (h : 2 * (num * unitsPerOne) < den) :
    nearestCode num den = 0 := by
  have hquot : num * unitsPerOne / den = 0 := Nat.div_eq_of_lt (by omega)
  have hshift : binaryShift (num * unitsPerOne) den = 0 := by
    rw [binaryShift, hquot, Nat.log2_zero]
  rw [nearestCode_eq, hshift, binaryDigits, hshift, pow_zero, Nat.mul_one, nearest, hquot,
    Nat.mod_eq_of_lt (by omega), if_pos h, Nat.zero_mul]

/-- A quotient that is not below a bound is beyond all magnitudes when the bound is. -/
theorem magnitudeCount_le_nearestCode {num den bound : Nat} (hden : 0 < den)
    (hbound : units magnitudeCount ≤ bound * unitsPerOne) (h : bound * den ≤ num) :
    magnitudeCount ≤ nearestCode num den := by
  refine le_nearestCode hden ?_
  calc units magnitudeCount * den ≤ bound * unitsPerOne * den := Nat.mul_le_mul_right den hbound
    _ = bound * den * unitsPerOne := Nat.mul_right_comm _ _ _
    _ ≤ num * unitsPerOne := Nat.mul_le_mul_right unitsPerOne h

/-! ## Exponents that are answered on their own -/

/-- A power of ten that is too large for all magnitudes. -/
theorem units_magnitudeCount_le {e : Nat} (h : 400 < e) :
    units magnitudeCount ≤ 10 ^ e * unitsPerOne := by
  obtain ⟨least, hleast, hunits⟩ :
      ∃ least ≤ 400, units magnitudeCount ≤ Nat.pow 10 least * unitsPerOne :=
    ⟨400, le_rfl, by decide +kernel⟩
  refine hunits.trans (Nat.mul_le_mul_right unitsPerOne ?_)
  exact Nat.pow_le_pow_right (by decide) (by omega)

/-- So few digits behind so many places are less than half of the least magnitude. -/
theorem two_mul_units_lt {digits e : Nat} (h : digits.log2 + 400 < e) :
    2 * (digits * unitsPerOne) < 10 ^ (e + 1) := by
  obtain ⟨places, hplaces, hunit⟩ : ∃ places ≤ 1074, unitsPerOne = Nat.pow 2 places :=
    ⟨1074, le_rfl, rfl⟩
  have hdigits : digits < 2 ^ (e - 400) :=
    Nat.lt_log2_self.trans_le (Nat.pow_le_pow_right two_pos (by omega))
  rw [hunit, Nat.pow_eq]
  calc 2 * (digits * 2 ^ places) < 2 * (2 ^ (e - 400) * 2 ^ places) := by gcongr
    _ = 2 ^ (e - 400 + (1 + places)) := by ring
    _ ≤ 2 ^ (3 * (e + 1)) := Nat.pow_le_pow_right two_pos (by omega)
    _ = 8 ^ (e + 1) := by rw [pow_mul]; norm_num
    _ ≤ 10 ^ (e + 1) := Nat.pow_le_pow_left (by decide) _

theorem ofScientific_zero (negative : Bool) (exponent : Int) :
    ofScientific negative 0 exponent = zero negative := by
  cases exponent <;> simp [ofScientific, ofScientificWith]

/-- A decimal is read as the number nearest to its value, whatever quotient has that value. -/
theorem ofScientific_eq_ofRatio (negative : Bool) {s : Scientific} {num den : Nat} (hden : 0 < den)
    (h : s.value = num / den) :
    ofScientific negative s.digits s.exponent = ofRatio negative num den := by
  obtain ⟨digits, exponent⟩ := s
  rw [Scientific.value] at h
  dsimp only at h ⊢
  have hpow : ∀ n, Nat.pow 10 n = 10 ^ n := fun _ => rfl
  by_cases hzero : digits = 0
  · have hnum : num = 0 := by
      rw [hzero, Nat.cast_zero, zero_mul, eq_comm, div_eq_zero_iff] at h
      exact_mod_cast h.resolve_right (by exact_mod_cast hden.ne')
    have hcode : nearestCode num den = 0 := nearestCode_eq_zero (by simpa [hnum] using hden)
    rw [ofRatio, hcode, hzero, ofScientific_zero, zero]
  · cases exponent with
    | ofNat e =>
        rw [Int.ofNat_eq_natCast, zpow_natCast] at h
        simp only [ofScientific, ofScientificWith, hpow, if_neg hzero]
        split
        · -- the quotient is beyond all magnitudes
          rename_i hlarge
          have hnum : 10 ^ e * den ≤ num := by
            rw [eq_div_iff (by exact_mod_cast hden.ne')] at h
            have hnat : digits * 10 ^ e * den = num := by exact_mod_cast h
            rw [← hnat]
            exact Nat.mul_le_mul_right den (Nat.le_mul_of_pos_left _ (Nat.pos_of_ne_zero hzero))
          have hcode := magnitudeCount_le_nearestCode hden (units_magnitudeCount_le hlarge) hnum
          rw [ofRatio, ofCode, dif_neg (not_lt.mpr hcode)]
        · rw [ofRatio, ofRatio, nearestCode_congr Nat.one_pos hden]
          rw [← h]
          push_cast
          exact div_one _
    | negSucc e =>
        rw [zpow_negSucc, ← div_eq_mul_inv] at h
        have hcode : nearestCode digits (10 ^ (e + 1)) = nearestCode num den :=
          nearestCode_congr (by positivity) hden (by exact_mod_cast h)
        simp only [ofScientific, ofScientificWith, hpow, hzero, false_or]
        split
        · rename_i hsmall
          rw [ofRatio, ← hcode, nearestCode_eq_zero (two_mul_units_lt hsmall), zero]
        · rw [ofRatio, ofRatio, hcode]

theorem exists_value_eq (s : Scientific) : ∃ num den : Nat, 0 < den ∧ s.value = num / den := by
  obtain ⟨digits, exponent⟩ := s
  cases exponent with
  | ofNat e =>
      refine ⟨digits * 10 ^ e, 1, Nat.one_pos, ?_⟩
      rw [Scientific.value, Int.ofNat_eq_natCast, zpow_natCast]
      push_cast
      exact (div_one _).symm
  | negSucc e =>
      refine ⟨digits, 10 ^ (e + 1), by positivity, ?_⟩
      rw [Scientific.value, zpow_negSucc, ← div_eq_mul_inv]
      push_cast
      rfl

/-- Decimals of the same value are read as the same number. -/
theorem ofScientific_congr {s t : Scientific} (h : s.value = t.value) (negative : Bool) :
    ofScientific negative s.digits s.exponent = ofScientific negative t.digits t.exponent := by
  obtain ⟨num, den, hden, hvalue⟩ := exists_value_eq t
  rw [ofScientific_eq_ofRatio negative hden hvalue,
    ofScientific_eq_ofRatio negative hden (h.trans hvalue)]

end Number
end SolidScript
