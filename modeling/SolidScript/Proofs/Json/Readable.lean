import Mathlib.Tactic
import SolidScript.Json.Amount
import SolidScript.Proofs.Number.Shortest

/-!
# Numerals that are read

A numeral is read from its leading digits with one multiplication or division, which can make it
larger by a little.  It is refused only when the result is too large; a numeral whose value does not
pass the greatest magnitude but two is read (`amount_isSome`), and whatever is read is finite
(`isFinite_of_amount`).
-/

namespace SolidScript

/-! ## Digits -/

/-- Are all characters decimal digits? -/
def AllDigits (cs : List Char) : Prop := ∀ c ∈ cs, isDecimalDigit c = true

theorem exists_digitValue? {c : Char} (h : isDecimalDigit c = true) :
    ∃ d < 10, digitValue? c = some d := by
  obtain ⟨d, hd⟩ := Option.isSome_iff_exists.mp h
  refine ⟨d, ?_, hd⟩
  unfold digitValue? at hd
  split at hd
  · rename_i hrange
    cases hd
    have hhigh : c.toNat ≤ '9'.toNat := hrange.2
    have hnine : '9'.toNat = 57 := rfl
    have hzero : '0'.toNat = 48 := rfl
    omega
  · cases hd

/-- One more digit behind a number. -/
def pushDigit (n : Nat) (c : Char) : Nat :=
  match digitValue? c with
  | some d => 10 * n + d
  | none => n

theorem digitsValue_eq_foldl (cs : List Char) : digitsValue cs = cs.foldl pushDigit 0 := rfl

theorem foldl_pushDigit {cs : List Char} (hcs : AllDigits cs) (n : Nat) :
    cs.foldl pushDigit n = n * 10 ^ cs.length + digitsValue cs := by
  induction cs generalizing n with
  | nil => simp [digitsValue]
  | cons c rest ih =>
      obtain ⟨d, -, hd⟩ := exists_digitValue? (hcs c List.mem_cons_self)
      have hrest : AllDigits rest := fun c hc => hcs c (List.mem_cons_of_mem _ hc)
      rw [digitsValue_eq_foldl, List.foldl_cons, List.foldl_cons, ih hrest, ih hrest, pushDigit,
        pushDigit, hd, List.length_cons, pow_succ]
      ring

theorem digitsValue_append (cs : List Char) {ds : List Char} (hds : AllDigits ds) :
    digitsValue (cs ++ ds) = digitsValue cs * 10 ^ ds.length + digitsValue ds := by
  rw [digitsValue_eq_foldl, List.foldl_append, foldl_pushDigit hds]
  rfl

theorem digitsValue_lt {cs : List Char} (hcs : AllDigits cs) :
    digitsValue cs < 10 ^ cs.length := by
  induction cs with
  | nil => simp [digitsValue]
  | cons c rest ih =>
      obtain ⟨d, hlt, hd⟩ := exists_digitValue? (hcs c List.mem_cons_self)
      have hrest : AllDigits rest := fun c hc => hcs c (List.mem_cons_of_mem _ hc)
      have hvalue : digitsValue (c :: rest) = d * 10 ^ rest.length + digitsValue rest := by
        rw [digitsValue_eq_foldl, List.foldl_cons, foldl_pushDigit hrest, pushDigit, hd]
        dsimp only
        rw [Nat.mul_zero, Nat.zero_add]
      have hmore := ih hrest
      rw [hvalue, List.length_cons, pow_succ]
      have hdigit : d * 10 ^ rest.length ≤ 9 * 10 ^ rest.length := Nat.mul_le_mul_right _ (by omega)
      omega

namespace Json
namespace Numeral

open Number

/-- Digits that are taken become part of the significand. -/
theorem takeDigits_spec {cs : List Char} (hcs : AllDigits cs) {significand : Nat}
    (hbound : significand < significandBound) :
    (takeDigits significand cs).1 < significandBound ∧
      (takeDigits significand cs).2.length ≤ cs.length ∧
      (takeDigits significand cs).1 * 10 ^ (takeDigits significand cs).2.length ≤
        significand * 10 ^ cs.length + digitsValue cs := by
  induction cs generalizing significand with
  | nil => exact ⟨hbound, le_rfl, le_rfl⟩
  | cons c rest ih =>
      obtain ⟨d, -, hd⟩ := exists_digitValue? (hcs c List.mem_cons_self)
      have hrest : AllDigits rest := fun c hc => hcs c (List.mem_cons_of_mem _ hc)
      rw [takeDigits]
      split
      · rename_i hnext
        obtain ⟨hlt, hlength, hvalue⟩ := ih hrest hnext
        refine ⟨hlt, hlength.trans (Nat.le_succ _), hvalue.trans (le_of_eq ?_)⟩
        rw [digitsValue_eq_foldl (c :: rest), List.foldl_cons, foldl_pushDigit hrest, pushDigit, hd,
          List.length_cons, pow_succ, Option.getD_some]
        ring
      · exact ⟨hbound, le_rfl, Nat.le_add_right _ _⟩

/-- No digit is left over where all of them fit. -/
theorem takeDigits_of_lt {cs : List Char} (hcs : AllDigits cs) {significand : Nat}
    (hbound : significand * 10 ^ cs.length + digitsValue cs < significandBound) :
    takeDigits significand cs = (significand * 10 ^ cs.length + digitsValue cs, []) := by
  induction cs generalizing significand with
  | nil => simp [takeDigits, digitsValue]
  | cons c rest ih =>
      obtain ⟨d, -, hd⟩ := exists_digitValue? (hcs c List.mem_cons_self)
      have hrest : AllDigits rest := fun c hc => hcs c (List.mem_cons_of_mem _ hc)
      have hvalue : significand * 10 ^ (c :: rest).length + digitsValue (c :: rest) =
          (10 * significand + d) * 10 ^ rest.length + digitsValue rest := by
        rw [digitsValue_eq_foldl (c :: rest), List.foldl_cons, foldl_pushDigit hrest, pushDigit, hd,
          List.length_cons, pow_succ]
        ring
      rw [hvalue] at hbound ⊢
      have hnext : 10 * significand + d < significandBound := by
        refine lt_of_le_of_lt ?_ hbound
        have hpower : 0 < 10 ^ rest.length := by positivity
        exact (Nat.le_mul_of_pos_right _ hpower).trans (Nat.le_add_right _ _)
      rw [takeDigits, hd, Option.getD_some, if_pos hnext]
      exact ih hrest hbound

theorem takeDigits_zero {cs : List Char} (hcs : AllDigits cs) (hlength : cs.length ≤ 19) :
    takeDigits 0 cs = (digitsValue cs, []) := by
  have hpower : 10 ^ cs.length ≤ 10 ^ 19 := Nat.pow_le_pow_right (by decide) hlength
  have hbound : (10 : Nat) ^ 19 < significandBound := by decide
  have hlt := digitsValue_lt hcs
  have hvalue : 0 * 10 ^ cs.length + digitsValue cs < significandBound := by omega
  have htake := takeDigits_of_lt hcs hvalue
  rwa [Nat.zero_mul, Nat.zero_add] at htake

/-! ## Scaling -/

theorem ofNat_eq {n : Nat} (h : n < significandBound) :
    ∃ hcode : nearestCode n 1 < magnitudeCount,
      Number.ofNat n = .finite false ⟨nearestCode n 1, hcode⟩ := by
  have hfinite := isFinite_ofNat h
  unfold Number.ofNat ofRatio ofCode at hfinite ⊢
  split
  · rename_i hcode
    exact ⟨hcode, rfl⟩
  · rename_i hcode
    rw [dif_neg hcode] at hfinite
    cases hfinite

theorem isFinite_divMagnitude_natural {code n : Nat} (hcode : code < magnitudeCount)
    (hn : n ≠ 0) : (divMagnitude code (nearestCode n 1)).isFinite = true :=
  isFinite_divMagnitude hcode (unitsPerOne_le_units_nearestCode hn)

theorem isFinite_divideOften (count : Nat) {x : Number} (hx : x.isFinite = true) :
    (divideOften count x).isFinite = true := by
  have hpower : Nat.pow 10 308 ≠ 0 := by decide +kernel
  induction count generalizing x with
  | zero => exact hx
  | succ count ih =>
      cases x with
      | finite negative code =>
          unfold divideOften
          exact ih (isFinite_divMagnitude_natural code.isLt hpower)
      | nan => cases hx
      | infinity negative => cases hx

/-- Dividing gives something always. -/
theorem scale_negSucc {significand : Nat} (hbound : significand < significandBound) (e : Nat) :
    ∃ x, scale significand (.negSucc e) = some x ∧ x.isFinite = true := by
  obtain ⟨hcode, hofNat⟩ := ofNat_eq hbound
  generalize (⟨nearestCode significand 1, hcode⟩ : Fin magnitudeCount) = code at hofNat
  have hpower : ∀ n, Nat.pow 10 n ≠ 0 := fun n => (Nat.pow_pos (by decide)).ne'
  have hstart : (Number.finite false code).isFinite = true := rfl
  have hfinite := isFinite_divideOften ((e + 1 - 1) / 308) hstart
  rw [scale, hofNat]
  unfold scaleNumber
  dsimp only
  split
  · exact ⟨_, rfl, rfl⟩
  · cases hresult : divideOften ((e + 1 - 1) / 308) (.finite false code) with
    | finite negative reduced =>
        exact ⟨_, rfl, isFinite_divMagnitude_natural reduced.isLt (hpower _)⟩
    | nan => rw [hresult] at hfinite; cases hfinite
    | infinity negative => rw [hresult] at hfinite; cases hfinite

theorem units_nearlyGreatest_lt : units nearlyGreatest < Nat.pow 10 309 * unitsPerOne := by
  decide +kernel

/-- A power of ten that is not too large has an exponent that is looked up. -/
theorem exponent_le {significand e : Nat} (hne : significand ≠ 0)
    (h : significand * Nat.pow 10 e * unitsPerOne ≤ units nearlyGreatest) : e ≤ 308 := by
  by_contra hgt
  have hmono : ∀ m n, m ≤ n → Nat.pow 10 m ≤ Nat.pow 10 n :=
    fun _ _ => Nat.pow_le_pow_right (by decide)
  have hpower : Nat.pow 10 309 ≤ significand * Nat.pow 10 e :=
    (hmono 309 e (by omega)).trans (Nat.le_mul_of_pos_left _ (Nat.pos_of_ne_zero hne))
  have hle := Nat.mul_le_mul_right unitsPerOne hpower
  exact absurd (hle.trans h) (not_le.mpr units_nearlyGreatest_lt)

theorem scaleNumber_ofNat {code e : Nat} (hcode : code < magnitudeCount) (he : e ≤ 308)
    (h : (mulMagnitude code (nearestCode (Nat.pow 10 e) 1)).isFinite = true) :
    (scaleNumber (.finite false ⟨code, hcode⟩) (.ofNat e)).isSome = true := by
  unfold scaleNumber
  dsimp only
  rw [if_pos he]
  generalize mulMagnitude code (nearestCode (Nat.pow 10 e) 1) = product at h ⊢
  cases product with
  | finite negative result => rfl
  | nan => cases h
  | infinity negative => cases h

/-- Only zero may have a larger power of ten. -/
theorem scaleNumber_zero {code e : Nat} (hcode : code < magnitudeCount) (he : ¬ e ≤ 308)
    (h : code = 0) : (scaleNumber (.finite false ⟨code, hcode⟩) (.ofNat e)).isSome = true := by
  unfold scaleNumber
  dsimp only
  rw [if_neg he, if_pos h]
  rfl

theorem scale_ofNat {significand : Nat} (hbound : significand < significandBound) {e : Nat}
    (h : significand * Nat.pow 10 e * unitsPerOne ≤ units nearlyGreatest) :
    (scale significand (.ofNat e)).isSome = true := by
  obtain ⟨hcode, hofNat⟩ := ofNat_eq hbound
  have hfinite := isFinite_mulMagnitude h
  rw [scale, hofNat]
  by_cases he : e ≤ 308
  · exact scaleNumber_ofNat hcode he hfinite
  · have hzero : significand = 0 := by
      by_contra hne
      exact he (exponent_le hne h)
    refine scaleNumber_zero hcode he ?_
    rw [hzero]
    exact nearestCode_zero

/-- What is scaled to is finite. -/
theorem isFinite_of_scale {significand : Nat} (hbound : significand < significandBound)
    {exponent : Int} {x : Number} (h : scale significand exponent = some x) :
    x.isFinite = true := by
  cases exponent with
  | negSucc e =>
      obtain ⟨y, hy, hfinite⟩ := scale_negSucc hbound e
      rw [hy] at h
      cases h
      exact hfinite
  | ofNat e =>
      obtain ⟨hcode, hofNat⟩ := ofNat_eq hbound
      rw [scale, hofNat] at h
      unfold scaleNumber at h
      dsimp only at h
      -- every product is taken only when it is finite
      split at h
      · split at h
        · cases h
          rfl
        · cases h
      · split at h
        · cases h
          rfl
        · cases h

/-- A significand with a power of ten that does not pass the greatest magnitude but two. -/
theorem scale_isSome {significand : Nat} (hbound : significand < significandBound) {exponent : Int}
    (h : (significand : ℚ) * 10 ^ exponent ≤ magnitude nearlyGreatest) :
    (scale significand exponent).isSome = true := by
  cases exponent with
  | negSucc e =>
      obtain ⟨x, hx, -⟩ := scale_negSucc hbound e
      rw [hx]
      rfl
  | ofNat e =>
      have hunits : (0 : ℚ) < unitsPerOne := by exact_mod_cast unitsPerOne_pos
      refine scale_ofNat hbound ?_
      rw [Int.ofNat_eq_natCast, zpow_natCast, magnitude, le_div_iff₀ hunits] at h
      rw [Nat.pow_eq]
      exact_mod_cast h

/-! ## Values -/

/-- The exponent that a written power of ten stands for. -/
def powerValue : Option (Bool × List Char) → Int
  | none => 0
  | some (true, digits) => -digitsValue digits
  | some (false, digits) => digitsValue digits

/-- The magnitude that a numeral denotes, before any rounding. -/
def value (numeral : Numeral) : ℚ :=
  digitsValue (numeral.whole ++ numeral.part.getD []) *
    10 ^ (powerValue numeral.power - (numeral.part.getD []).length)

/-- A numeral in digits whose digits before the point all fit into the significand.  Only a power
that makes it smaller may be out of range. -/
structure IsModerate (numeral : Numeral) : Prop where
  whole : AllDigits numeral.whole
  part : AllDigits (numeral.part.getD [])
  length : numeral.whole.length ≤ 19
  power : ∀ digits, numeral.power = some (false, digits) → digitsValue digits < powerBound

/-- An exponent that is kept within its bounds is the exponent itself or divides. -/
theorem scale_clampPower_isSome {significand : Nat} (hbound : significand < significandBound)
    {exponent : Int} (hexponent : exponent < powerBound)
    (h : (significand : ℚ) * 10 ^ exponent ≤ magnitude nearlyGreatest) :
    (scale significand (clampPower exponent)).isSome = true := by
  have hpowerBound : (powerBound : Int) = 2 ^ 31 := by decide
  have hlow : Int.pow 2 31 = 2 ^ 31 := by decide
  unfold clampPower
  rw [hlow]
  split
  · obtain ⟨x, hx, -⟩ := scale_negSucc hbound (2 ^ 31 - 1)
    have hnegSucc : (-2 ^ 31 : Int) = .negSucc (2 ^ 31 - 1) := by decide
    rw [hnegSucc, hx]
    rfl
  · rw [if_neg (by omega)]
    exact scale_isSome hbound h

theorem assemble_isSome {negative : Bool} {significand : Nat} {exponent : Int}
    {power : Option (Bool × List Char)} (hbound : significand < significandBound)
    (hexponent : exponent ≤ 0)
    (hpower : ∀ digits, power = some (false, digits) → digitsValue digits < powerBound)
    (h : (significand : ℚ) * 10 ^ (exponent + powerValue power) ≤ magnitude nearlyGreatest) :
    (assemble negative significand exponent power).isSome = true := by
  match power with
  | none =>
      rw [powerValue, add_zero] at h
      rw [assemble, Option.isSome_map]
      exact scale_isSome hbound h
  | some (false, digits) =>
      have hdigits := hpower digits rfl
      rw [assemble, if_pos hdigits, if_neg Bool.false_ne_true, Option.isSome_map]
      exact scale_clampPower_isSome hbound (by omega) h
  | some (true, digits) =>
      rw [assemble]
      split
      · rw [if_pos rfl, Option.isSome_map]
        exact scale_clampPower_isSome hbound (by omega) h
      · rw [if_neg (by simp)]
        rfl

theorem isFinite_signed (negative : Bool) {x : Number} (hx : x.isFinite = true) :
    (signed negative x).isFinite = true := by
  cases negative <;> cases x <;> first | rfl | cases hx

theorem isFinite_assemble {negative : Bool} {significand : Nat} {exponent : Int}
    {power : Option (Bool × List Char)} (hbound : significand < significandBound) {amount : Amount}
    (h : assemble negative significand exponent power = some amount) :
    amount.toNumber.isFinite = true := by
  have hscale : ∀ {total : Int},
      ((scale significand total).map fun x => Amount.float (signed negative x)) = some amount →
        amount.toNumber.isFinite = true := by
    intro total htotal
    obtain ⟨x, hx, rfl⟩ := Option.map_eq_some_iff.mp htotal
    exact isFinite_signed negative (isFinite_of_scale hbound hx)
  unfold assemble at h
  split at h
  · exact hscale h
  · dsimp only at h
    split at h
    · exact hscale h
    · split at h
      · cases h
      · cases h
        rfl

theorem isFinite_wholeAmount {significand : Nat} (hbound : significand < significandBound)
    (negative : Bool) : (wholeAmount negative significand).toNumber.isFinite = true := by
  have hofNat : (Number.ofNat significand).isFinite = true := isFinite_ofNat hbound
  unfold wholeAmount
  split
  · split
    · exact isFinite_signed true hofNat
    · obtain ⟨hcode, -⟩ := ofNat_eq hbound
      exact isFinite_ofRatio hcode
  · exact hofNat

/-- A moderate numeral whose value does not pass the greatest magnitude but two is read. -/
theorem amount_isSome {numeral : Numeral} (hmoderate : numeral.IsModerate)
    (h : numeral.value ≤ magnitude nearlyGreatest) : numeral.amount.isSome = true := by
  obtain ⟨negative, whole, part, power⟩ := numeral
  have hwhole := hmoderate.whole
  have htake := takeDigits_zero hwhole hmoderate.length
  have hbound : digitsValue whole < significandBound := by
    have hlt := (takeDigits_spec hwhole (by decide : 0 < significandBound)).1
    rwa [htake] at hlt
  unfold amount
  dsimp only
  rw [htake]
  cases part with
  | none =>
      rw [value] at h
      simp only [Option.getD_none, List.append_nil, List.length_nil, Nat.cast_zero, sub_zero] at h
      cases power with
      | none => rfl
      | some power =>
          refine assemble_isSome hbound le_rfl hmoderate.power ?_
          simpa using h
  | some digits =>
      have hdigits : AllDigits digits := hmoderate.part
      obtain ⟨hlt, hlength, hvalue⟩ := takeDigits_spec hdigits hbound
      refine assemble_isSome hlt (by simp only [List.length_nil]; omega) hmoderate.power ?_
      rw [← digitsValue_append whole hdigits] at hvalue
      -- the digits that are left over count in the exponent
      have hexponent : ((([] : List Char).length : Int) -
          (digits.length - (takeDigits (digitsValue whole) digits).2.length) + powerValue power) =
            powerValue power - digits.length +
              (takeDigits (digitsValue whole) digits).2.length := by
        simp only [List.length_nil]
        omega
      rw [hexponent, ← natCast_mul_ten_pow_mul_zpow]
      refine le_trans (mul_le_mul_of_nonneg_right ?_ (by positivity)) h
      exact_mod_cast hvalue

/-- Whatever is read of digits is finite. -/
theorem isFinite_of_amount {numeral : Numeral} (hwhole : AllDigits numeral.whole)
    (hpart : AllDigits (numeral.part.getD [])) {amount : Amount}
    (h : numeral.amount = some amount) : amount.toNumber.isFinite = true := by
  obtain ⟨negative, whole, part, power⟩ := numeral
  have hbound := (takeDigits_spec hwhole (by decide : 0 < significandBound)).1
  unfold Numeral.amount at h
  dsimp only at h hbound
  cases part with
  | some digits => exact isFinite_assemble (takeDigits_spec hpart hbound).1 h
  | none =>
      dsimp only at h
      split at h
      · cases h
        exact isFinite_wholeAmount hbound negative
      · exact isFinite_assemble hbound h

end Numeral
end Json
end SolidScript
