import Mathlib.Tactic
import SolidScript.Proofs.Number.Rounding

/-!
# The nearest magnitude

`nearestCode` rounds a quotient to the nearest magnitude.  Every magnitude is nearest to itself
(`nearestCode_units`) and a larger quotient has no lesser magnitude (`nearestCode_mono`), so a
quotient is compared with the magnitudes around it by exact arithmetic alone.  Where magnitudes have
all their binary digits, rounding adds at most one part in `2 ^ 53` (`units_nearestCode_le`).
-/

namespace SolidScript

/-- A larger rational has no lesser nearest integer. -/
theorem IsNearest.mono {q r : ℚ} {j k : ℤ} (hj : IsNearest q j) (hk : IsNearest r k)
    (h : q ≤ r) : j ≤ k := by
  by_contra hlt
  have hnext : (k : ℚ) + 1 ≤ j := by exact_mod_cast not_le.mp hlt
  have hq := (abs_le.mp hj.abs_sub_le).1
  have hr := (abs_le.mp hk.abs_sub_le).2
  -- both rationals are the one half way between the two integers
  have hsame : q = r := by linarith
  exact hlt (le_of_eq (hj.unique (hsame ▸ hk)))

theorem nearest_mono {num den num' den' : Nat} (hden : 0 < den) (hden' : 0 < den')
    (h : num * den' ≤ num' * den) : nearest num den ≤ nearest num' den' := by
  have hquot : (num : ℚ) / den ≤ num' / den' := by
    rw [div_le_div_iff₀ (by exact_mod_cast hden) (by exact_mod_cast hden')]
    exact_mod_cast h
  exact_mod_cast (isNearest_nearest num hden).mono (isNearest_nearest num' hden') hquot

/-- A quotient without a remainder is its own nearest integer. -/
theorem nearest_mul_self (n : Nat) {den : Nat} (hden : 0 < den) : nearest (n * den) den = n := by
  rw [nearest, Nat.mul_div_cancel n hden, Nat.mul_mod_left]
  simp [hden]

/-- The nearest integer is at most a half above the quotient. -/
theorem two_mul_nearest_mul_le (num : Nat) {den : Nat} (hden : 0 < den) :
    2 * (nearest num den * den) ≤ 2 * num + den := by
  have hpos : (0 : ℚ) < den := by exact_mod_cast hden
  have hle := (abs_le.mp (isNearest_nearest num hden).abs_sub_le).1
  rw [Int.cast_natCast] at hle
  have hcast : (nearest num den : ℚ) * den ≤ num + den / 2 := by
    have hsub : (nearest num den : ℚ) ≤ num / den + 1 / 2 := by linarith
    calc (nearest num den : ℚ) * den ≤ (num / den + 1 / 2) * den :=
          mul_le_mul_of_nonneg_right hsub hpos.le
      _ = num + den / 2 := by field_simp
  have hdouble : 2 * ((nearest num den : ℚ) * den) ≤ 2 * num + den := by linarith
  exact_mod_cast hdouble

namespace Number

/-- The power of two that is left out when a quotient of units is rounded. -/
def binaryShift (amount den : Nat) : Nat := (amount / den).log2 - 52

/-- The binary digits of a quotient of units. -/
def binaryDigits (amount den : Nat) : Nat := nearest amount (den * 2 ^ binaryShift amount den)

theorem nearestCode_eq (num den : Nat) :
    nearestCode num den = binaryShift (num * unitsPerOne) den * 2 ^ 52 +
      binaryDigits (num * unitsPerOne) den := rfl

section Digits

variable {amount den : Nat}

theorem lt_den_mul_two_pow (amount : Nat) (hden : 0 < den) :
    amount < den * 2 ^ binaryShift amount den * 2 ^ 53 := by
  have hquot : amount / den < 2 ^ (binaryShift amount den + 53) := by
    refine lt_of_lt_of_le Nat.lt_log2_self (Nat.pow_le_pow_right two_pos ?_)
    unfold binaryShift
    omega
  rw [pow_add, Nat.div_lt_iff_lt_mul hden] at hquot
  linarith

/-- Where a power is left out the quotient has all its binary digits. -/
theorem den_mul_two_pow_le (hshift : binaryShift amount den ≠ 0) :
    den * 2 ^ binaryShift amount den * 2 ^ 52 ≤ amount := by
  have hlog : (amount / den).log2 = binaryShift amount den + 52 := by
    unfold binaryShift at hshift ⊢
    omega
  have hne : amount / den ≠ 0 := by
    intro hzero
    rw [hzero, Nat.log2_zero] at hlog
    omega
  have hle := Nat.log2_self_le hne
  rw [hlog, pow_add] at hle
  calc den * 2 ^ binaryShift amount den * 2 ^ 52
      = 2 ^ binaryShift amount den * 2 ^ 52 * den := by ring
    _ ≤ amount / den * den := Nat.mul_le_mul_right den hle
    _ ≤ amount := Nat.div_mul_le_self amount den

theorem den_mul_two_pow_pos (amount : Nat) (hden : 0 < den) :
    0 < den * 2 ^ binaryShift amount den := Nat.mul_pos hden (Nat.two_pow_pos _)

theorem binaryDigits_le (amount : Nat) (hden : 0 < den) : binaryDigits amount den ≤ 2 ^ 53 := by
  have hlt := lt_den_mul_two_pow amount hden
  have hle : nearest amount (den * 2 ^ binaryShift amount den) ≤ nearest (2 ^ 53 * 1) 1 :=
    nearest_mono (den_mul_two_pow_pos amount hden) Nat.one_pos (by linarith)
  rwa [nearest_mul_self _ Nat.one_pos] at hle

theorem le_binaryDigits (hden : 0 < den) (hshift : binaryShift amount den ≠ 0) :
    2 ^ 52 ≤ binaryDigits amount den := by
  have hlow := den_mul_two_pow_le hshift
  have hle : nearest (2 ^ 52 * 1) 1 ≤ nearest amount (den * 2 ^ binaryShift amount den) :=
    nearest_mono Nat.one_pos (den_mul_two_pow_pos amount hden) (by linarith)
  rwa [nearest_mul_self _ Nat.one_pos] at hle

end Digits

/-- A code is made of binary digits and the power of two that they are to be multiplied with. -/
theorem units_add {shift digits : Nat} (hlow : shift = 0 ∨ 2 ^ 52 ≤ digits)
    (hhigh : digits ≤ 2 ^ 53) : units (shift * 2 ^ 52 + digits) = digits * 2 ^ shift := by
  have hpower : 0 < 2 ^ 52 := Nat.two_pow_pos 52
  have hpow : ∀ n, Nat.pow 2 n = 2 ^ n := fun _ => rfl
  rw [units]
  simp only [hpow]
  rcases Nat.lt_or_ge digits (2 ^ 52) with hsmall | hlarge
  · have hzero : shift = 0 := hlow.resolve_right (not_le.mpr hsmall)
    subst hzero
    rw [Nat.zero_mul, Nat.zero_add, if_pos hsmall, pow_zero, Nat.mul_one]
  · rw [if_neg (by omega)]
    rcases hhigh.lt_or_eq with hlt | rfl
    · -- the digits stand between two powers of two
      obtain ⟨low, rfl⟩ := Nat.exists_eq_add_of_le hlarge
      have hlow : low < 2 ^ 52 := by omega
      have hcode : shift * 2 ^ 52 + (2 ^ 52 + low) = low + 2 ^ 52 * (shift + 1) := by ring
      rw [hcode, Nat.add_mul_mod_self_left, Nat.mod_eq_of_lt hlow,
        Nat.add_mul_div_left _ _ hpower, Nat.div_eq_of_lt hlow]
      congr 2
      omega
    · -- the digits are carried into the next power of two
      have hcode : shift * 2 ^ 52 + 2 ^ 53 = 0 + 2 ^ 52 * (shift + 2) := by ring
      rw [hcode, Nat.add_mul_mod_self_left, Nat.add_mul_div_left _ _ hpower]
      simp only [Nat.zero_mod, Nat.zero_div, Nat.zero_add, Nat.add_zero]
      rw [show shift + 2 - 1 = shift + 1 from rfl, pow_succ]
      ring

theorem units_nearestCode (num : Nat) {den : Nat} (hden : 0 < den) :
    units (nearestCode num den) = binaryDigits (num * unitsPerOne) den *
      2 ^ binaryShift (num * unitsPerOne) den := by
  rw [nearestCode_eq]
  refine units_add ?_ (binaryDigits_le _ hden)
  by_cases hshift : binaryShift (num * unitsPerOne) den = 0
  · exact Or.inl hshift
  · exact Or.inr (le_binaryDigits hden hshift)

/-! ## Order -/

theorem nearestCode_mono {num den num' den' : Nat} (hden : 0 < den) (hden' : 0 < den')
    (h : num * den' ≤ num' * den) : nearestCode num den ≤ nearestCode num' den' := by
  rw [nearestCode_eq, nearestCode_eq]
  have hamount : num * unitsPerOne * den' ≤ num' * unitsPerOne * den := by
    calc num * unitsPerOne * den' = num * den' * unitsPerOne := by ring
      _ ≤ num' * den * unitsPerOne := Nat.mul_le_mul_right _ h
      _ = num' * unitsPerOne * den := by ring
  generalize num * unitsPerOne = amount at hamount ⊢
  generalize num' * unitsPerOne = amount' at hamount ⊢
  have hshift : binaryShift amount den ≤ binaryShift amount' den' := by
    have hquot : amount / den ≤ amount' / den' := by
      rw [Nat.le_div_iff_mul_le hden']
      refine Nat.le_of_mul_le_mul_right ?_ hden
      calc amount / den * den' * den = amount / den * den * den' := by ring
        _ ≤ amount * den' := Nat.mul_le_mul_right den' (Nat.div_mul_le_self amount den)
        _ ≤ amount' * den := hamount
    unfold binaryShift
    rw [Nat.log2_eq_log_two, Nat.log2_eq_log_two]
    exact Nat.sub_le_sub_right (Nat.log_mono_right hquot) 52
  rcases hshift.lt_or_eq with hlt | heq
  · -- more is left out of the larger quotient, and still it has all its digits
    have hsmall := binaryDigits_le amount hden
    have hlarge := le_binaryDigits hden' (Nat.ne_of_gt (Nat.zero_lt_of_lt hlt))
    omega
  · -- the same power of two is left out of both, so the digits decide
    have hdigits : binaryDigits amount den ≤ binaryDigits amount' den' := by
      unfold binaryDigits
      rw [heq]
      refine nearest_mono (Nat.mul_pos hden (Nat.two_pow_pos _))
        (Nat.mul_pos hden' (Nat.two_pow_pos _)) ?_
      calc amount * (den' * 2 ^ binaryShift amount' den')
          = amount * den' * 2 ^ binaryShift amount' den' := by ring
        _ ≤ amount' * den * 2 ^ binaryShift amount' den' := Nat.mul_le_mul_right _ hamount
        _ = amount' * (den * 2 ^ binaryShift amount' den') := by ring
    omega

/-- A code is less than `2 ^ 52`, or it has binary digits and a power of two of its own. -/
theorem exists_digits (code : Nat) : ∃ shift digits, code = shift * 2 ^ 52 + digits ∧
    digits < 2 ^ 53 ∧ (shift = 0 ∨ 2 ^ 52 ≤ digits) := by
  rcases Nat.lt_or_ge code (2 ^ 53) with hsmall | hlarge
  · exact ⟨0, code, by omega, hsmall, Or.inl rfl⟩
  · refine ⟨code / 2 ^ 52 - 1, 2 ^ 52 + code % 2 ^ 52, ?_, ?_, Or.inr ?_⟩ <;> omega

/-- Every magnitude is nearest to itself. -/
theorem nearestCode_units (code : Nat) : nearestCode (units code) unitsPerOne = code := by
  obtain ⟨shift, digits, rfl, hhigh, hlow⟩ := exists_digits code
  rw [units_add hlow hhigh.le]
  have hshift : binaryShift (digits * 2 ^ shift * unitsPerOne) unitsPerOne = shift := by
    rw [binaryShift, Nat.mul_div_cancel _ unitsPerOne_pos]
    rcases hlow with rfl | hlow
    · -- nothing is left out of so few digits
      have hlog : digits.log2 ≤ 52 := by
        by_cases hzero : digits = 0
        · rw [hzero, Nat.log2_zero]
          exact Nat.zero_le 52
        · exact Nat.le_of_lt_succ ((Nat.log2_lt hzero).mpr hhigh)
      rw [pow_zero, Nat.mul_one]
      omega
    · -- with all binary digits there, it is just the power of two that is left out
      have hpower : 0 < 2 ^ shift := Nat.two_pow_pos shift
      have hne : digits * 2 ^ shift ≠ 0 := Nat.mul_ne_zero (by omega) hpower.ne'
      have hlog : (digits * 2 ^ shift).log2 = 52 + shift := by
        rw [Nat.log2_eq_iff hne, pow_add, show 52 + shift + 1 = 53 + shift by omega, pow_add]
        exact ⟨Nat.mul_le_mul_right _ hlow, Nat.mul_lt_mul_of_pos_right hhigh hpower⟩
      rw [hlog]
      omega
  have hdigits : digits * 2 ^ shift * unitsPerOne = digits * (unitsPerOne * 2 ^ shift) := by ring
  rw [nearestCode_eq, binaryDigits, hshift, hdigits,
    nearest_mul_self _ (Nat.mul_pos unitsPerOne_pos (Nat.two_pow_pos shift))]

/-- A quotient that is not above a magnitude has none above it. -/
theorem nearestCode_le {num den code : Nat} (hden : 0 < den)
    (h : num * unitsPerOne ≤ units code * den) : nearestCode num den ≤ code := by
  have hle := nearestCode_mono hden unitsPerOne_pos h
  rwa [nearestCode_units] at hle

theorem le_nearestCode {num den code : Nat} (hden : 0 < den)
    (h : units code * den ≤ num * unitsPerOne) : code ≤ nearestCode num den := by
  have hle := nearestCode_mono unitsPerOne_pos hden h
  rwa [nearestCode_units] at hle

theorem units_strictMono : StrictMono units := by
  intro code code' hlt
  by_contra hnot
  have hle : code' ≤ code := by
    have hmono := nearestCode_mono unitsPerOne_pos unitsPerOne_pos
      (Nat.mul_le_mul_right unitsPerOne (not_lt.mp hnot))
    rwa [nearestCode_units, nearestCode_units] at hmono
  exact absurd hlt (not_lt.mpr hle)

theorem magnitude_strictMono : StrictMono magnitude := by
  intro code code' hlt
  have hpos : (0 : ℚ) < unitsPerOne := by exact_mod_cast unitsPerOne_pos
  have hunits : (units code : ℚ) < units code' := by exact_mod_cast units_strictMono hlt
  exact div_lt_div_of_pos_right hunits hpos

theorem magnitude_zero : magnitude 0 = 0 := by
  have hzero : units 0 = 0 := by decide
  rw [magnitude, hzero, Nat.cast_zero, zero_div]

/-! ## Rounding -/

/-- A quotient that is large enough to keep all its binary digits grows by at most one part in
`2 ^ 53` when it is rounded. -/
theorem units_nearestCode_le {num den : Nat} (hden : 0 < den)
    (hnormal : den * 2 ^ 52 ≤ num * unitsPerOne) :
    units (nearestCode num den) * den * 2 ^ 53 ≤ num * unitsPerOne * (2 ^ 53 + 1) := by
  rw [units_nearestCode num hden]
  generalize num * unitsPerOne = amount at hnormal ⊢
  have hlow : den * 2 ^ binaryShift amount den * 2 ^ 52 ≤ amount := by
    by_cases hshift : binaryShift amount den = 0
    · rwa [hshift, pow_zero, Nat.mul_one]
    · exact den_mul_two_pow_le hshift
  have hround := two_mul_nearest_mul_le amount (den_mul_two_pow_pos amount hden)
  change 2 * (binaryDigits amount den * _) ≤ _ at hround
  have hproduct : binaryDigits amount den * 2 ^ binaryShift amount den * den * 2 ^ 53 =
      2 ^ 52 * (2 * (binaryDigits amount den * (den * 2 ^ binaryShift amount den))) := by ring
  rw [hproduct]
  linarith [Nat.mul_le_mul_left (2 ^ 52) hround]

/-! ## Finite results -/

theorem isFinite_ofRatio {negative : Bool} {num den : Nat}
    (h : nearestCode num den < magnitudeCount) : (ofRatio negative num den).isFinite = true := by
  rw [ofRatio, ofCode, dif_pos h]
  rfl

/-- The code of the greatest magnitude but two. -/
def nearlyGreatest : Nat := magnitudeCount - 3

/-- Rounding twice does not lead from there beyond the greatest magnitude. -/
theorem units_nearlyGreatest_mul_le :
    units nearlyGreatest * (2 ^ 53 + 1) ^ 2 ≤ units (magnitudeCount - 1) * (2 ^ 53) ^ 2 := by
  decide +kernel

theorem nearestCode_zero : nearestCode 0 1 = 0 := by decide +kernel

theorem units_nearestCode_natural_le (n : Nat) :
    units (nearestCode n 1) * 2 ^ 53 ≤ n * unitsPerOne * (2 ^ 53 + 1) := by
  have hlarge : 2 ^ 52 ≤ unitsPerOne := by decide +kernel
  rcases Nat.eq_zero_or_pos n with rfl | hpos
  · have hzero : units 0 = 0 := by decide
    rw [nearestCode_zero, hzero, Nat.zero_mul]
    exact Nat.zero_le _
  · have hnormal : 1 * 2 ^ 52 ≤ n * unitsPerOne := Nat.mul_le_mul hpos hlarge
    have hle := units_nearestCode_le Nat.one_pos hnormal
    rwa [Nat.mul_one] at hle

/-- The product of two rounded factors is finite, if the exact product is far enough below the
greatest magnitude. -/
theorem isFinite_mulMagnitude {m n : Nat}
    (h : m * n * unitsPerOne ≤ units nearlyGreatest) :
    (mulMagnitude (nearestCode m 1) (nearestCode n 1)).isFinite = true := by
  have hbound := units_nearlyGreatest_mul_le
  have hfirst := units_nearestCode_natural_le m
  have hsecond := units_nearestCode_natural_le n
  have hpos : 0 < (2 ^ 53) ^ 2 := by positivity
  -- both roundings together cost less than the two magnitudes that are left
  have hproduct : units (nearestCode m 1) * units (nearestCode n 1) ≤
      units (magnitudeCount - 1) * unitsPerOne := by
    generalize units (nearestCode m 1) = a at hfirst ⊢
    generalize units (nearestCode n 1) = b at hsecond ⊢
    generalize (2 ^ 53 : Nat) = p at hbound hfirst hsecond hpos
    refine Nat.le_of_mul_le_mul_right ?_ hpos
    calc a * b * p ^ 2 = a * p * (b * p) := by ring
      _ ≤ m * unitsPerOne * (p + 1) * (n * unitsPerOne * (p + 1)) :=
          Nat.mul_le_mul hfirst hsecond
      _ = m * n * unitsPerOne * (p + 1) ^ 2 * unitsPerOne := by ring
      _ ≤ units nearlyGreatest * (p + 1) ^ 2 * unitsPerOne :=
          Nat.mul_le_mul_right _ (Nat.mul_le_mul_right _ h)
      _ ≤ units (magnitudeCount - 1) * p ^ 2 * unitsPerOne := Nat.mul_le_mul_right _ hbound
      _ = units (magnitudeCount - 1) * unitsPerOne * p ^ 2 := by ring
  have hgreatest : magnitudeCount - 1 < magnitudeCount := by decide
  refine isFinite_ofRatio (lt_of_le_of_lt (nearestCode_le ?_ ?_) hgreatest)
  · exact Nat.mul_pos unitsPerOne_pos unitsPerOne_pos
  · calc units (nearestCode m 1) * units (nearestCode n 1) * unitsPerOne
        ≤ units (magnitudeCount - 1) * unitsPerOne * unitsPerOne :=
          Nat.mul_le_mul_right unitsPerOne hproduct
      _ = units (magnitudeCount - 1) * (unitsPerOne * unitsPerOne) := Nat.mul_assoc _ _ _

/-- A magnitude divided by one that is at least one does not grow. -/
theorem isFinite_divMagnitude {a b : Nat} (ha : a < magnitudeCount) (hb : unitsPerOne ≤ units b) :
    (divMagnitude a b).isFinite = true := by
  refine isFinite_ofRatio (lt_of_le_of_lt (nearestCode_le ?_ ?_) ha)
  · exact lt_of_lt_of_le unitsPerOne_pos hb
  · exact Nat.mul_le_mul_left (units a) hb

theorem unitsPerOne_le_units_nearestCode {n : Nat} (hn : n ≠ 0) :
    unitsPerOne ≤ units (nearestCode n 1) := by
  have hone : units (nearestCode 1 1) = unitsPerOne := by decide +kernel
  rw [← hone]
  exact units_strictMono.monotone (nearestCode_mono Nat.one_pos Nat.one_pos (by omega))

theorem isFinite_ofNat {n : Nat} (h : n < 2 ^ 64) : (ofNat n).isFinite = true := by
  have hbound : nearestCode (2 ^ 64) 1 < magnitudeCount := by decide +kernel
  have hmono : nearestCode n 1 ≤ nearestCode (2 ^ 64) 1 :=
    nearestCode_mono Nat.one_pos Nat.one_pos (by omega)
  exact isFinite_ofRatio (lt_of_le_of_lt hmono hbound)

end Number
end SolidScript
