import Mathlib.Data.Rat.Floor
import Mathlib.Tactic
import SolidScript.Number.Places

/-!
# Rounding to decimal places

The exact value of a binary number as a rational, and the integer nearest to a rational with a half
going to the even neighbour.  `IsNearest` tells what a nearest integer is without saying how it is
found; there is exactly one (`IsNearest.unique`, `isNearest_roundEven`).  The scaled magnitude
from which a number is written is the nearest integer to its exact value times the power of ten
(`roundEven_magnitude_mul`).
-/

namespace SolidScript

/-- `k` is a nearest integer to `q`, and it is even when another one is as near. -/
def IsNearest (q : ℚ) (k : ℤ) : Prop := |q - k| < 1 / 2 ∨ (|q - k| = 1 / 2 ∧ 2 ∣ k)

theorem IsNearest.abs_sub_le {q : ℚ} {k : ℤ} (h : IsNearest q k) : |q - k| ≤ 1 / 2 := by
  rcases h with hlt | ⟨heq, -⟩
  · exact hlt.le
  · exact heq.le

/-- Two integers at most a half away from the same rational are neighbours, and both are exactly a
half away if they differ; only one of them is even then. -/
theorem IsNearest.unique {q : ℚ} {j k : ℤ} (hj : IsNearest q j) (hk : IsNearest q k) : j = k := by
  have hjle := abs_le.mp hj.abs_sub_le
  have hkle := abs_le.mp hk.abs_sub_le
  have hupper : j ≤ k + 1 := by
    have hcast : (j : ℚ) ≤ k + 1 := by linarith [hjle.1, hkle.2]
    exact_mod_cast hcast
  have hlower : k ≤ j + 1 := by
    have hcast : (k : ℚ) ≤ j + 1 := by linarith [hjle.2, hkle.1]
    exact_mod_cast hcast
  by_contra hne
  -- they differ by one, so each is exactly a half away and both would be even
  rcases hj with hjlt | ⟨-, hjeven⟩
  · have hjlt := abs_lt.mp hjlt
    rcases (by omega : j = k + 1 ∨ k = j + 1) with h | h
    · have hcast : (j : ℚ) = k + 1 := by exact_mod_cast h
      linarith [hjlt.1, hkle.2]
    · have hcast : (k : ℚ) = j + 1 := by exact_mod_cast h
      linarith [hjlt.2, hkle.1]
  · rcases hk with hklt | ⟨-, hkeven⟩
    · have hklt := abs_lt.mp hklt
      rcases (by omega : j = k + 1 ∨ k = j + 1) with h | h
      · have hcast : (j : ℚ) = k + 1 := by exact_mod_cast h
        linarith [hklt.2, hjle.1]
      · have hcast : (k : ℚ) = j + 1 := by exact_mod_cast h
        linarith [hklt.1, hjle.2]
    · omega

theorem IsNearest.neg {q : ℚ} {k : ℤ} (h : IsNearest q k) : IsNearest (-q) (-k) := by
  have habs : |(-q) - ((-k : ℤ) : ℚ)| = |q - k| := by
    push_cast
    rw [← abs_neg, show -(-q - -(k : ℚ)) = q - k by ring]
  rcases h with hlt | ⟨heq, heven⟩
  · exact Or.inl (habs ▸ hlt)
  · exact Or.inr ⟨habs ▸ heq, (dvd_neg).mpr heven⟩

/-- The integer nearest to a rational; a half goes to the even neighbour. -/
def roundEven (q : ℚ) : ℤ :=
  let low := ⌊q⌋
  if q - low < 1 / 2 then low
  else if q - low = 1 / 2 ∧ 2 ∣ low then low
  else low + 1

theorem isNearest_roundEven (q : ℚ) : IsNearest q (roundEven q) := by
  have hlow : 0 ≤ q - ⌊q⌋ := sub_nonneg.mpr (Int.floor_le q)
  have hhigh : q - ⌊q⌋ < 1 := by linarith [Int.lt_floor_add_one q]
  unfold roundEven
  dsimp only
  split_ifs with hbelow hhalf
  · exact Or.inl (by rwa [abs_of_nonneg hlow])
  · exact Or.inr ⟨by rw [abs_of_nonneg hlow, hhalf.1], hhalf.2⟩
  · have habs : |q - ((⌊q⌋ + 1 : ℤ) : ℚ)| = 1 - (q - ⌊q⌋) := by
      push_cast
      rw [abs_of_nonpos (by linarith)]
      ring
    -- the upper neighbour is nearer, or a tie goes to it because the lower one is odd
    rcases (not_lt.mp hbelow).lt_or_eq with habove | heq
    · exact Or.inl (by rw [habs]; linarith)
    · refine Or.inr ⟨by rw [habs]; linarith, ?_⟩
      have hodd : ¬ 2 ∣ ⌊q⌋ := fun heven => hhalf ⟨heq.symm, heven⟩
      omega

theorem roundEven_eq {q : ℚ} {k : ℤ} (h : IsNearest q k) : roundEven q = k :=
  (isNearest_roundEven q).unique h

theorem roundEven_neg (q : ℚ) : roundEven (-q) = -roundEven q :=
  roundEven_eq (isNearest_roundEven q).neg

/-- Rounding a quotient of natural numbers by its remainder gives the nearest integer. -/
theorem isNearest_nearest (num : Nat) {den : Nat} (hden : 0 < den) :
    IsNearest (num / den) (nearest num den) := by
  have hpos : (0 : ℚ) < den := by exact_mod_cast hden
  have hsplit : (num : ℚ) / den = (num / den : Nat) + (num % den : Nat) / den := by
    rw [div_eq_iff hpos.ne', add_mul, div_mul_cancel₀ _ hpos.ne']
    exact_mod_cast (Nat.div_add_mod' num den).symm
  have hrest : (0 : ℚ) ≤ (num % den : Nat) / den := by positivity
  unfold nearest
  dsimp only
  generalize num / den = low at hsplit ⊢
  split_ifs with hbelow hhalf
  · left
    rw [hsplit, Int.cast_natCast, add_sub_cancel_left, abs_of_nonneg hrest, div_lt_iff₀ hpos]
    have hcast : (2 : ℚ) * (num % den : Nat) < den := by exact_mod_cast hbelow
    linarith
  · have hcast : (2 : ℚ) * (num % den : Nat) = den := by exact_mod_cast hhalf
    have hdiv : ((num % den : Nat) : ℚ) / den = 1 / 2 := by
      rw [div_eq_iff hpos.ne']
      linarith
    right
    rw [hsplit, hdiv]
    -- adding the parity of the lower neighbour makes it even
    rcases Nat.mod_two_eq_zero_or_one low with heven | hodd
    · rw [heven, add_zero, Int.cast_natCast, add_sub_cancel_left]
      exact ⟨abs_of_pos one_half_pos, by omega⟩
    · rw [hodd]
      refine ⟨?_, by omega⟩
      push_cast
      rw [add_sub_add_left_eq_sub]
      norm_num
  · left
    have hlt : ((num % den : Nat) : ℚ) < den := by exact_mod_cast Nat.mod_lt num hden
    have habove : (den : ℚ) < 2 * (num % den : Nat) := by
      have hnat : den < 2 * (num % den) := by omega
      exact_mod_cast hnat
    have hle : ((num % den : Nat) : ℚ) / den ≤ 1 := (div_le_one hpos).mpr hlt.le
    have hhigh : (1 : ℚ) / 2 < (num % den : Nat) / den := by
      rw [lt_div_iff₀ hpos]
      linarith
    rw [hsplit, abs_lt]
    push_cast
    constructor <;> linarith

theorem roundEven_natCast_div (num : Nat) {den : Nat} (hden : 0 < den) :
    roundEven (num / den) = nearest num den :=
  roundEven_eq (isNearest_nearest num hden)

namespace Number

/-- The exact value of a finite magnitude. -/
def magnitude (code : Nat) : ℚ := units code / unitsPerOne

/-- The exact value of a finite number.  What is not finite has no value, and counts as zero. -/
def exactValue : Number → ℚ
  | finite true code => -magnitude code
  | finite false code => magnitude code
  | _ => 0

/-- The exact value rounded to a number of decimal places. -/
def rounded (places : Nat) (x : Number) : ℚ := roundEven (x.exactValue * 10 ^ places) / 10 ^ places

theorem unitsPerOne_pos : 0 < unitsPerOne := by
  have hpower : ∀ n, 0 < Nat.pow 2 n := fun n => Nat.pow_pos (by decide)
  unfold unitsPerOne
  exact hpower 1074

theorem roundEven_magnitude_mul (places code : Nat) :
    roundEven (magnitude code * 10 ^ places) = scaled places code := by
  rw [scaled, Nat.pow_eq, ← roundEven_natCast_div _ unitsPerOne_pos, magnitude]
  push_cast
  rw [div_mul_eq_mul_div]

theorem rounded_finite (places : Nat) (negative : Bool) (code : Fin magnitudeCount) :
    rounded places (finite negative code) =
      (if negative then -(scaled places code : ℚ) else scaled places code) / 10 ^ places := by
  cases negative with
  | false =>
      change (roundEven (magnitude code * 10 ^ places) : ℚ) / 10 ^ places = _
      rw [roundEven_magnitude_mul, Int.cast_natCast, if_neg Bool.false_ne_true]
  | true =>
      change (roundEven (-magnitude code * 10 ^ places) : ℚ) / 10 ^ places = _
      rw [neg_mul, roundEven_neg, roundEven_magnitude_mul, Int.cast_neg, Int.cast_natCast,
        if_pos rfl]

end Number
end SolidScript
