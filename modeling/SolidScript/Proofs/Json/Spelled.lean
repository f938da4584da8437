import Mathlib.Tactic
import SolidScript.Proofs.Json.Numeral
import SolidScript.Proofs.Json.Readable
import SolidScript.Proofs.Number.Numeral

/-!
# Spelled numerals

A numeral is found again in the characters that spell it (`ofChars_spell`).  The text of a finite
number spells a numeral with the value of its shortest digits (`value_positional`,
`value_scientific`), so that it is read again (`isSome_amount_write`).  That value is known to be
moderate for all magnitudes but the three greatest, which are looked at one by one.
-/

namespace SolidScript
namespace Json
namespace Numeral

open Number

/-! ## Finding a numeral again -/

/-- The characters of a sign. -/
def signChars (negative : Bool) : List Char := if negative then ['-'] else []

/-- The characters of the digits behind a point. -/
def partChars : Option (List Char) → List Char
  | some digits => '.' :: digits
  | none => []

/-- The characters of a power of ten. -/
def powerChars : Option (Bool × List Char) → List Char
  | some (down, digits) => 'e' :: (if down then '-' else '+') :: digits
  | none => []

/-- The characters of a numeral. -/
def spell (numeral : Numeral) : List Char :=
  signChars numeral.negative ++
    (numeral.whole ++ (partChars numeral.part ++ powerChars numeral.power))

theorem takeSign_signChars (negative : Bool) {cs : List Char} (hne : cs ≠ [])
    (hcs : ∀ c ∈ cs.head?, isDecimalDigit c = true) :
    takeSign (signChars negative ++ cs) = (negative, cs) := by
  cases negative with
  | true => rfl
  | false =>
      -- a digit in front is no sign
      obtain ⟨c, rest, rfl⟩ := List.exists_cons_of_ne_nil hne
      have hc := hcs c rfl
      change takeSign (c :: rest) = (false, c :: rest)
      unfold takeSign
      split
      · rename_i heq
        cases heq
        cases hc
      · rename_i heq
        cases heq
        cases hc
      · rfl

theorem spanDigits_append {ds rest : List Char} (hds : AllDigits ds)
    (hrest : ∀ c ∈ rest.head?, isDecimalDigit c = false) :
    spanDigits (ds ++ rest) = (ds, rest) := by
  obtain ⟨htake, hdrop⟩ := takeWhile_append_of_head rest hds hrest
  rw [spanDigits, htake, hdrop]

theorem takeSign_power (down : Bool) (digits : List Char) :
    takeSign ((if down then '-' else '+') :: digits) = (down, digits) := by
  cases down <;> rfl

theorem isDecimalDigit_head_powerChars (power : Option (Bool × List Char)) :
    ∀ c ∈ (powerChars power).head?, isDecimalDigit c = false := by
  intro c hc
  cases power with
  | none => cases hc
  | some power => cases hc; rfl

theorem isDecimalDigit_head_partChars (part : Option (List Char))
    (power : Option (Bool × List Char)) :
    ∀ c ∈ (partChars part ++ powerChars power).head?, isDecimalDigit c = false := by
  intro c hc
  cases part with
  | none => exact isDecimalDigit_head_powerChars power c hc
  | some digits => cases hc; rfl

/-- A numeral that begins with a digit and has nothing but digits is found again. -/
theorem ofChars_spell {numeral : Numeral} (hne : numeral.whole ≠ [])
    (hwhole : AllDigits numeral.whole) (hpart : AllDigits (numeral.part.getD [])) :
    ofChars numeral.spell = numeral := by
  obtain ⟨negative, whole, part, power⟩ := numeral
  obtain ⟨first, others, rfl⟩ := List.exists_cons_of_ne_nil hne
  have hsign : takeSign (signChars negative ++
      (first :: others ++ (partChars part ++ powerChars power))) =
        (negative, first :: others ++ (partChars part ++ powerChars power)) := by
    refine takeSign_signChars negative (by simp) fun c hc => ?_
    cases hc
    exact hwhole first List.mem_cons_self
  have hspan := spanDigits_append hwhole (isDecimalDigit_head_partChars part power)
  unfold ofChars spell
  dsimp only at hspan ⊢
  rw [hsign]
  dsimp only
  rw [hspan]
  cases part with
  | some digits =>
      have hdigits : AllDigits digits := hpart
      have hmore := spanDigits_append hdigits (isDecimalDigit_head_powerChars power)
      simp only [partChars, List.cons_append, hmore]
      cases power with
      | none => rfl
      | some power =>
          obtain ⟨down, exponent⟩ := power
          exact congrArg (fun power => Numeral.mk negative (first :: others) (some digits)
            (some power)) (takeSign_power down exponent)
  | none =>
      dsimp only [partChars, List.nil_append]
      cases power with
      | none => rfl
      | some power =>
          obtain ⟨down, exponent⟩ := power
          exact congrArg (fun power => Numeral.mk negative (first :: others) none (some power))
            (takeSign_power down exponent)

/-! ## Digits of numbers -/

theorem allDigits_toDigits (n : Nat) : AllDigits (Nat.toDigits 10 n) :=
  fun _ hc => isDecimalDigit_of_mem_toDigits hc

theorem allDigits_zeros (n : Nat) : AllDigits (List.replicate n '0') :=
  fun _ hc => isDecimalDigit_of_mem_zeros hc

theorem foldl_pushDigit_eq_ofDigitChars {cs : List Char} (hcs : AllDigits cs) (n : Nat) :
    cs.foldl pushDigit n = Nat.ofDigitChars 10 cs n := by
  induction cs generalizing n with
  | nil => rfl
  | cons c rest ih =>
      have hc := hcs c List.mem_cons_self
      have hrest : AllDigits rest := fun c hc => hcs c (List.mem_cons_of_mem _ hc)
      have hpush : pushDigit n c = 10 * n + (c.toNat - '0'.toNat) := by
        unfold isDecimalDigit digitValue? at hc
        unfold pushDigit digitValue?
        split at hc
        · rename_i hrange
          rw [if_pos hrange]
        · cases hc
      rw [List.foldl_cons, hpush, ih hrest, Nat.ofDigitChars_cons]

theorem digitsValue_toDigits (n : Nat) : digitsValue (Nat.toDigits 10 n) = n := by
  rw [digitsValue_eq_foldl, foldl_pushDigit_eq_ofDigitChars (allDigits_toDigits n),
    Nat.ofDigitChars_ten_toDigits]

theorem digitsValue_zeros (n : Nat) : digitsValue (List.replicate n '0') = 0 := by
  rw [digitsValue_eq_foldl, foldl_pushDigit_eq_ofDigitChars (allDigits_zeros n),
    Nat.ofDigitChars_replicate_zero, Nat.mul_zero]

/-! ## The numerals that are written -/

/-- The numeral of a decimal without a power of ten. -/
def positional (negative : Bool) (s : Scientific) : Numeral :=
  let ds := Nat.toDigits 10 s.digits
  match s.exponent with
  | .ofNat e => ⟨negative, ds ++ List.replicate e '0', some ['0'], none⟩
  | .negSucc e =>
    if e + 1 < ds.length then
      ⟨negative, ds.take (ds.length - (e + 1)), some (ds.drop (ds.length - (e + 1))), none⟩
    else ⟨negative, ['0'], some (List.replicate (e + 1 - ds.length) '0' ++ ds), none⟩

/-- The numeral of a decimal with a power of ten. -/
def scientific (negative : Bool) (s : Scientific) (exponent : Int) : Numeral :=
  let ds := Nat.toDigits 10 s.digits
  ⟨negative, ds.take 1, if (ds.drop 1).isEmpty then none else some (ds.drop 1),
    some (decide (exponent < 0), Nat.toDigits 10 exponent.natAbs)⟩

theorem spell_positional (negative : Bool) (s : Scientific) :
    (positional negative s).spell = signChars negative ++ (FloatStyle.positional s).toList := by
  obtain ⟨digits, exponent⟩ := s
  unfold positional FloatStyle.positional
  cases exponent with
  | ofNat e => simp [spell, partChars, powerChars, FloatStyle.zeros]
  | negSucc e =>
      dsimp only
      split
      · simp [spell, partChars, powerChars]
      · simp [spell, partChars, powerChars, FloatStyle.zeros]

theorem spell_scientific (negative : Bool) (s : Scientific) (exponent : Int) :
    (scientific negative s exponent).spell =
      signChars negative ++ (FloatStyle.scientific s exponent).toList := by
  unfold scientific FloatStyle.scientific
  dsimp only
  have hsign : (if exponent < 0 then "-" else "+").toList =
      [if decide (exponent < 0) = true then '-' else '+'] := by
    by_cases h : exponent < 0 <;> simp [h]
  cases htail : ((Nat.toDigits 10 s.digits).drop 1).isEmpty <;>
    simp [spell, partChars, powerChars, hsign]

/-- The point moves the digits as far as the exponent says. -/
theorem value_positional (negative : Bool) (s : Scientific) :
    (positional negative s).value = s.value := by
  obtain ⟨digits, exponent⟩ := s
  have hdigits := allDigits_toDigits digits
  have hzero : digitsValue ['0'] = 0 := digitsValue_zeros 1
  unfold positional
  cases exponent with
  | ofNat e =>
      -- all zeros behind the digits are counted in the value, and the last one in the exponent
      have hlast : AllDigits ['0'] := allDigits_zeros 1
      have hwhole : digitsValue (Nat.toDigits 10 digits ++ List.replicate e '0' ++ ['0']) =
          digits * 10 ^ (e + 1) := by
        rw [digitsValue_append _ hlast, hzero,
          digitsValue_append _ (allDigits_zeros e), digitsValue_toDigits, digitsValue_zeros,
          List.length_replicate, List.length_singleton]
        ring
      rw [value, Scientific.value, powerValue]
      dsimp only
      rw [Option.getD_some, hwhole, natCast_mul_ten_pow_mul_zpow]
      congr 2
      simp only [List.length_singleton, Int.ofNat_eq_natCast]
      omega
  | negSucc e =>
      dsimp only
      split
      · -- the point stands between two digits
        rename_i hplaces
        rw [value, Scientific.value, powerValue]
        dsimp only
        rw [Option.getD_some, List.take_append_drop, digitsValue_toDigits, List.length_drop]
        congr 2
        omega
      · -- zeros in front of the digits change nothing
        rename_i hplaces
        have hpart : AllDigits (List.replicate (e + 1 - (Nat.toDigits 10 digits).length) '0' ++
            Nat.toDigits 10 digits) := fun c hc =>
          (List.mem_append.mp hc).elim (allDigits_zeros _ c) (hdigits c)
        have hwhole : digitsValue (['0'] ++
            (List.replicate (e + 1 - (Nat.toDigits 10 digits).length) '0' ++
              Nat.toDigits 10 digits)) = digits := by
          rw [digitsValue_append _ hpart, hzero, digitsValue_append _ hdigits, digitsValue_zeros,
            digitsValue_toDigits, Nat.zero_mul, Nat.zero_mul, Nat.zero_add, Nat.zero_add]
        rw [value, Scientific.value, powerValue]
        dsimp only
        rw [Option.getD_some, hwhole, List.length_append, List.length_replicate]
        congr 2
        omega

/-- The first digit stands as far before the point as the written power says. -/
theorem value_scientific (negative : Bool) (s : Scientific) :
    (scientific negative s (s.exponent + (Nat.toDigits 10 s.digits).length - 1)).value =
      s.value := by
  have hlength : 0 < (Nat.toDigits 10 s.digits).length :=
    List.length_pos_iff.mpr Nat.toDigits_ne_nil
  generalize hexponent : s.exponent + (Nat.toDigits 10 s.digits).length - 1 = exponent
  have hpart : (if ((Nat.toDigits 10 s.digits).drop 1).isEmpty then none
      else some ((Nat.toDigits 10 s.digits).drop 1)).getD [] =
        (Nat.toDigits 10 s.digits).drop 1 := by
    split
    · rename_i hempty
      rw [Option.getD_none, List.isEmpty_iff.mp hempty]
    · rfl
  have hpower : powerValue (some (decide (exponent < 0), Nat.toDigits 10 exponent.natAbs)) =
      exponent := by
    by_cases hnegative : exponent < 0
    · rw [decide_eq_true hnegative, powerValue, digitsValue_toDigits]
      omega
    · rw [decide_eq_false hnegative, powerValue, digitsValue_toDigits]
      omega
  rw [value, scientific, Scientific.value]
  dsimp only
  rw [hpart, hpower, List.take_append_drop, digitsValue_toDigits, List.length_drop]
  congr 2
  omega

/-! ## Texts that are read -/

theorem isModerate_positional (negative : Bool) {s : Scientific}
    (h : s.exponent + (Nat.toDigits 10 s.digits).length - 1 ≤ 15) :
    (positional negative s).IsModerate ∧ (positional negative s).whole ≠ [] := by
  obtain ⟨digits, exponent⟩ := s
  have hdigits := allDigits_toDigits digits
  have hlength : 0 < (Nat.toDigits 10 digits).length :=
    List.length_pos_iff.mpr Nat.toDigits_ne_nil
  unfold positional
  dsimp only at h ⊢
  cases exponent with
  | ofNat e =>
      rw [Int.ofNat_eq_natCast] at h
      refine ⟨⟨fun c hc => ?_, allDigits_zeros 1, ?_, fun _ h => by cases h⟩, ?_⟩
      · exact (List.mem_append.mp hc).elim (hdigits c) (allDigits_zeros e c)
      · rw [List.length_append, List.length_replicate]
        omega
      · exact List.append_ne_nil_of_left_ne_nil Nat.toDigits_ne_nil _
  | negSucc e =>
      dsimp only
      split
      · rename_i hplaces
        refine ⟨⟨fun c hc => hdigits c (List.mem_of_mem_take hc),
          fun c hc => hdigits c (List.mem_of_mem_drop hc), ?_, fun _ h => by cases h⟩, ?_⟩
        · rw [List.length_take]
          omega
        · rw [Ne, List.take_eq_nil_iff, not_or]
          exact ⟨by omega, Nat.toDigits_ne_nil⟩
      · refine ⟨⟨allDigits_zeros 1, fun c hc => ?_, ?_, fun _ h => by cases h⟩,
          List.cons_ne_nil _ _⟩
        · exact (List.mem_append.mp hc).elim (allDigits_zeros _ c) (hdigits c)
        · exact Nat.le_add_left 1 18

theorem isModerate_scientific (negative : Bool) (s : Scientific) {exponent : Int}
    (h : exponent < powerBound) :
    (scientific negative s exponent).IsModerate ∧ (scientific negative s exponent).whole ≠ [] := by
  have hdigits := allDigits_toDigits s.digits
  refine ⟨⟨fun c hc => hdigits c (List.mem_of_mem_take hc), fun c hc => ?_, ?_, ?_⟩, ?_⟩
  · unfold scientific at hc
    dsimp only at hc
    split at hc
    · cases hc
    · exact hdigits c (List.mem_of_mem_drop hc)
  · exact (List.length_take_le 1 _).trans (by decide)
  · intro digits hpower
    obtain ⟨hsign, rfl⟩ := Prod.mk.inj (Option.some.inj hpower)
    have hnonneg : ¬ exponent < 0 := of_decide_eq_false hsign
    rw [digitsValue_toDigits]
    omega
  · rw [scientific, Ne, List.take_eq_nil_iff, not_or]
    exact ⟨Nat.one_ne_zero, Nat.toDigits_ne_nil⟩

theorem ten_pow_le {n : Nat} (h : n ≠ 0) : 10 ^ ((Nat.toDigits 10 n).length - 1) ≤ n := by
  by_contra hlt
  have hlength : 0 < (Nat.toDigits 10 n).length := List.length_pos_iff.mpr Nat.toDigits_ne_nil
  rcases Nat.eq_zero_or_pos ((Nat.toDigits 10 n).length - 1) with hzero | hpos
  · rw [hzero, pow_zero] at hlt
    omega
  · have hle := (Nat.length_toDigits_le_iff (by decide) hpos).mpr (not_le.mp hlt)
    omega

theorem magnitude_lt_zpow {code k : Nat} (h : units code < Nat.pow 10 k * unitsPerOne) :
    magnitude code < (10 : ℚ) ^ (k : Int) := by
  have hunits : (0 : ℚ) < unitsPerOne := by exact_mod_cast unitsPerOne_pos
  rw [Nat.pow_eq] at h
  rw [magnitude, div_lt_iff₀ hunits, zpow_natCast]
  exact_mod_cast h

/-- A decimal below the greatest magnitude but two has no large power of ten. -/
theorem exponent_le_of_value_lt {s : Scientific} (hne : s.digits ≠ 0)
    (h : s.value < magnitude nearlyGreatest) :
    s.exponent + (Nat.toDigits 10 s.digits).length - 1 ≤ 308 := by
  by_contra hgt
  have hlength : 0 < (Nat.toDigits 10 s.digits).length :=
    List.length_pos_iff.mpr Nat.toDigits_ne_nil
  have hbound := magnitude_lt_zpow units_nearlyGreatest_lt
  have hsplit : s.exponent + (Nat.toDigits 10 s.digits).length - 1 =
      s.exponent + ((Nat.toDigits 10 s.digits).length - 1 : Nat) := by omega
  have hvalue : (10 : ℚ) ^ (s.exponent + (Nat.toDigits 10 s.digits).length - 1) ≤ s.value := by
    rw [hsplit, zpow_add₀ (by norm_num), zpow_natCast, Scientific.value, mul_comm]
    exact mul_le_mul_of_nonneg_right (by exact_mod_cast ten_pow_le hne) (by positivity)
  have hpower : (10 : ℚ) ^ ((309 : Nat) : Int) ≤
      10 ^ (s.exponent + (Nat.toDigits 10 s.digits).length - 1) :=
    zpow_le_zpow_right₀ (by norm_num) (by omega)
  exact absurd (hvalue.trans_lt h) (not_lt.mpr (hbound.le.trans hpower))

/-- The text of a number below the greatest magnitude but two is read. -/
theorem isSome_amount_write_of_lt (negative : Bool) {code : Fin magnitudeCount}
    (h : code.val < nearlyGreatest) :
    (ofChars (floatStyle.write negative code).toList).amount.isSome = true := by
  have hvalue := value_shortest_lt floatStyle.tie h
  have hzero := digits_shortest_ne_zero_or_eq floatStyle.tie code
  have hread : ∀ {numeral : Numeral}, numeral.IsModerate ∧ numeral.whole ≠ [] →
      numeral.value = (shortest floatStyle.tie code).value →
        (ofChars numeral.spell).amount.isSome = true := by
    intro numeral hmoderate hsame
    rw [ofChars_spell hmoderate.2 hmoderate.1.whole hmoderate.1.part]
    exact amount_isSome hmoderate.1 (hsame ▸ hvalue.le)
  have hsign : (if negative then "-" else "").toList = signChars negative := by
    cases negative <;> rfl
  unfold FloatStyle.write
  dsimp only
  generalize shortest floatStyle.tie code = s at hvalue hzero hread ⊢
  rw [String.toList_append, hsign]
  split
  · rename_i hplain
    rw [← spell_positional]
    refine hread (isModerate_positional negative ?_) (value_positional negative s)
    unfold floatStyle at hplain
    simp only [Bool.and_eq_true, decide_eq_true_eq] at hplain
    exact hplain.2
  · rw [← spell_scientific]
    refine hread (isModerate_scientific negative s ?_) (value_scientific negative s)
    have hpowerBound : (powerBound : Int) = 2 ^ 31 := by decide
    rcases hzero with hne | rfl
    · have hle := exponent_le_of_value_lt hne hvalue
      omega
    · rw [hpowerBound]
      decide

/-- The three greatest magnitudes, one by one. -/
theorem isSome_amount_write_greatest : ∀ (negative : Bool) (i : Fin 3),
    ∃ h : nearlyGreatest + i < magnitudeCount,
      (ofChars (floatStyle.write negative ⟨nearlyGreatest + i, h⟩).toList).amount.isSome =
        true := by
  decide +kernel

/-- The text of every finite number is read. -/
theorem isSome_amount_write (negative : Bool) (code : Fin magnitudeCount) :
    (ofChars (floatStyle.write negative code).toList).amount.isSome = true := by
  by_cases h : code.val < nearlyGreatest
  · exact isSome_amount_write_of_lt negative h
  · have hcount : magnitudeCount = nearlyGreatest + 3 := by decide
    obtain ⟨i, hi⟩ := Nat.exists_eq_add_of_le (not_lt.mp h)
    have hlt : i < 3 := by omega
    obtain ⟨hcode, hread⟩ := isSome_amount_write_greatest negative ⟨i, hlt⟩
    have hsame : code = ⟨nearlyGreatest + i, hcode⟩ := Fin.ext hi
    rw [hsame]
    exact hread

/-! ## Numbers that are read -/

theorem allDigits_spanDigits (cs : List Char) : AllDigits (spanDigits cs).1 :=
  fun _ hc => List.mem_takeWhile_imp hc

theorem allDigits_ofChars (cs : List Char) :
    AllDigits (ofChars cs).whole ∧ AllDigits ((ofChars cs).part.getD []) := by
  unfold ofChars
  dsimp only
  refine ⟨allDigits_spanDigits _, ?_⟩
  split
  · exact allDigits_spanDigits _
  · exact fun _ hc => absurd hc List.not_mem_nil

/-- What is read of characters is finite, whatever they are. -/
theorem isFinite_of_amount_ofChars {cs : List Char} {amount : Amount}
    (h : (ofChars cs).amount = some amount) : amount.toNumber.isFinite = true :=
  isFinite_of_amount (allDigits_ofChars cs).1 (allDigits_ofChars cs).2 h

end Numeral
end Json
end SolidScript
