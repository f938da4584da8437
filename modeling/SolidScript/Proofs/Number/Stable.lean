import SolidScript.Proofs.Json.Spelled
import SolidScript.Proofs.Number.Canonical
import SolidScript.Proofs.Number.Scientific

/-!
# Numbers that are written and read again

The text of a number denotes a decimal near it, and a reader takes the binary number nearest to that
decimal.  Two roundings follow each other then, and the second could undo the first only by moving
the number further from the decimal than it was; but the number itself is one of those that the
reader chooses from.  So what is read is as near to the decimal as the number was, it is rounded to
the same decimal, and it has the same text (`Script.numeral?_stable`).  This does not depend on how
dense the binary numbers are.

`IsNearestCode` says what a nearest binary number is; `nearestCode` is one by
`isNearestCode_nearestCode`.
-/

namespace SolidScript

/-- No integer is nearer than a nearest one, and where another one is as near it is even. -/
theorem IsNearest.abs_sub_le_abs_sub {q : ℚ} {k : ℤ} (h : IsNearest q k) (j : ℤ) :
    |q - k| ≤ |q - j| ∧ (j ≠ k → |q - k| = |q - j| → 2 ∣ k) := by
  by_cases hjk : j = k
  · rw [hjk]
    exact ⟨le_rfl, fun hne => absurd rfl hne⟩
  · -- two integers are at least one apart, so the other one is at least a half away
    have hapart : (1 : ℚ) ≤ |(j : ℚ) - k| := by
      have hint : (1 : ℤ) ≤ |j - k| := Int.one_le_abs (sub_ne_zero.mpr hjk)
      exact_mod_cast hint
    have htriangle : |(j : ℚ) - k| ≤ |q - j| + |q - k| := by
      calc |(j : ℚ) - k| = |(q - k) - (q - j)| := by congr 1; ring
        _ ≤ |q - k| + |q - j| := abs_sub _ _
        _ = |q - j| + |q - k| := add_comm _ _
    have hclose := h.abs_sub_le
    refine ⟨by linarith, fun _ hsame => ?_⟩
    rcases h with hlt | ⟨-, heven⟩
    · linarith
    · exact heven

namespace Number

/-! ## The nearest binary number -/

/-- No magnitude is nearer than the one with this code, and where another one is as near the code
is even.  Codes beyond the last finite one count too. -/
structure IsNearestCode (q : ℚ) (code : Nat) : Prop where
  nearest : ∀ other, |q - magnitude code| ≤ |q - magnitude other|
  even : ∀ other, other ≠ code → |q - magnitude code| = |q - magnitude other| → 2 ∣ code

/-- What is nearest to a rational is not beyond a magnitude that the rational does not exceed. -/
theorem IsNearestCode.le {q : ℚ} {code bound : Nat} (h : IsNearestCode q code)
    (hq : q ≤ magnitude bound) : code ≤ bound := by
  by_contra hlt
  have hbeyond := magnitude_strictMono (not_le.mp hlt)
  have hnearest := h.nearest bound
  rw [abs_sub_comm, abs_of_pos (by linarith), abs_sub_comm, abs_of_nonneg (by linarith)] at hnearest
  linarith

section Units

variable {amount den : Nat}

/-- The binary digits are nearest to the quotient that is left when a power of two is taken out. -/
theorem isNearest_binaryDigits (amount : Nat) (hden : 0 < den) :
    IsNearest ((amount : ℚ) / den / 2 ^ binaryShift amount den) (binaryDigits amount den) := by
  have h := isNearest_nearest amount (den_mul_two_pow_pos amount hden)
  push_cast at h
  rwa [← div_div] at h

/-- Distances from a quotient are measured in the last binary digit. -/
theorem abs_sub_mul_two_pow (q j : ℚ) (shift : Nat) :
    |q - j * 2 ^ shift| = |q / 2 ^ shift - j| * 2 ^ shift := by
  have hpower : (0 : ℚ) < 2 ^ shift := by positivity
  rw [abs_sub_mul hpower, div_mul_cancel₀ _ hpower.ne']

/-- No multiple of the power of two that is taken out is nearer than the rounded digits, and they
are even when another one is as near. -/
theorem abs_sub_multiple_le (amount : Nat) (hden : 0 < den) (j : Nat) :
    |(amount : ℚ) / den - binaryDigits amount den * 2 ^ binaryShift amount den| ≤
        |(amount : ℚ) / den - j * 2 ^ binaryShift amount den| ∧
      (j ≠ binaryDigits amount den →
        |(amount : ℚ) / den - binaryDigits amount den * 2 ^ binaryShift amount den| =
          |(amount : ℚ) / den - j * 2 ^ binaryShift amount den| → 2 ∣ binaryDigits amount den) := by
  have hpower : (0 : ℚ) < 2 ^ binaryShift amount den := by positivity
  obtain ⟨hle, heven⟩ := (isNearest_binaryDigits amount hden).abs_sub_le_abs_sub j
  rw [abs_sub_mul_two_pow, abs_sub_mul_two_pow]
  refine ⟨mul_le_mul_of_nonneg_right (by exact_mod_cast hle) hpower.le, fun hne hsame => ?_⟩
  have hdvd := heven (by exact_mod_cast hne)
    (by exact_mod_cast mul_right_cancel₀ hpower.ne' hsame)
  exact_mod_cast hdvd

/-- What is less than the least multiple with all binary digits is farther than the rounded
digits. -/
theorem abs_sub_lt_of_lt (hden : 0 < den) (hshift : binaryShift amount den ≠ 0) {small : Nat}
    (hsmall : small < 2 ^ 52 * 2 ^ binaryShift amount den) :
    |(amount : ℚ) / den - binaryDigits amount den * 2 ^ binaryShift amount den| <
      |(amount : ℚ) / den - small| := by
  have hleast := (abs_sub_multiple_le amount hden (2 ^ 52)).1
  have hlow : (2 : ℚ) ^ 52 * 2 ^ binaryShift amount den ≤ amount / den := by
    have hdenPos : (0 : ℚ) < den := by exact_mod_cast hden
    rw [le_div_iff₀ hdenPos]
    have hnat : 2 ^ 52 * 2 ^ binaryShift amount den * den ≤ amount := by
      have hle := den_mul_two_pow_le hshift
      linarith
    exact_mod_cast hnat
  have hcast : (small : ℚ) < 2 ^ 52 * 2 ^ binaryShift amount den := by exact_mod_cast hsmall
  rw [Nat.cast_pow, Nat.cast_ofNat, abs_of_nonneg (sub_nonneg.mpr hlow)] at hleast
  rw [abs_of_pos (sub_pos.mpr (hcast.trans_le hlow))]
  linarith

/-- A quotient that is as near to the units of another code as to those of the rounded digits. -/
theorem abs_sub_units_le (hden : 0 < den) (other : Nat) :
    |(amount : ℚ) / den - binaryDigits amount den * 2 ^ binaryShift amount den| ≤
        |(amount : ℚ) / den - units other| ∧
      ((units other : ℚ) ≠ binaryDigits amount den * 2 ^ binaryShift amount den →
        |(amount : ℚ) / den - binaryDigits amount den * 2 ^ binaryShift amount den| =
          |(amount : ℚ) / den - units other| → 2 ∣ binaryDigits amount den) := by
  obtain ⟨shift, digits, rfl, hhigh, hcode⟩ := exists_digits other
  rw [units_add hcode hhigh.le]
  by_cases hshift : binaryShift amount den ≤ shift
  · -- a multiple of the same power of two
    have hmultiple : ((digits * 2 ^ shift : Nat) : ℚ) =
        ((digits * 2 ^ (shift - binaryShift amount den) : Nat) : ℚ) *
          2 ^ binaryShift amount den := by
      have hnat : digits * 2 ^ shift =
          digits * 2 ^ (shift - binaryShift amount den) * 2 ^ binaryShift amount den := by
        rw [Nat.mul_assoc, ← pow_add, Nat.sub_add_cancel hshift]
      exact_mod_cast hnat
    obtain ⟨hle, heven⟩ := abs_sub_multiple_le amount hden
      (digits * 2 ^ (shift - binaryShift amount den))
    rw [hmultiple]
    exact ⟨hle, fun hne => heven fun hsame => hne (by rw [hsame])⟩
  · -- the digits are too few to reach the least multiple
    have hless : digits * 2 ^ shift < 2 ^ 52 * 2 ^ binaryShift amount den := by
      calc digits * 2 ^ shift < 2 ^ 53 * 2 ^ shift :=
            Nat.mul_lt_mul_of_pos_right hhigh (Nat.two_pow_pos shift)
        _ = 2 ^ 52 * 2 ^ (shift + 1) := by ring
        _ ≤ 2 ^ 52 * 2 ^ binaryShift amount den :=
            Nat.mul_le_mul_left _ (Nat.pow_le_pow_right two_pos (by omega))
    have hfar := abs_sub_lt_of_lt hden (by omega) hless
    exact ⟨hfar.le, fun _ hsame => absurd hsame hfar.ne⟩

end Units

/-- Rounding a quotient gives a nearest magnitude. -/
theorem isNearestCode_nearestCode (num : Nat) {den : Nat} (hden : 0 < den) :
    IsNearestCode (num / den) (nearestCode num den) := by
  have hpos : (0 : ℚ) < unitsPerOne := by exact_mod_cast unitsPerOne_pos
  have hunits := units_nearestCode num hden
  -- distances are compared in units
  have hscale : ∀ code, |(num : ℚ) / den - magnitude code| * unitsPerOne =
      |((num * unitsPerOne : Nat) : ℚ) / den - units code| := by
    intro code
    rw [abs_sub_mul hpos, magnitude, div_mul_cancel₀ _ hpos.ne', Nat.cast_mul, div_mul_eq_mul_div]
  have hcode : ((units (nearestCode num den) : Nat) : ℚ) =
      binaryDigits (num * unitsPerOne) den * 2 ^ binaryShift (num * unitsPerOne) den := by
    rw [hunits]
    push_cast
    rfl
  constructor
  · intro other
    refine le_of_mul_le_mul_right ?_ hpos
    rw [hscale, hscale, hcode]
    exact (abs_sub_units_le hden other).1
  · intro other hne hsame
    have hsame := congrArg (· * (unitsPerOne : ℚ)) hsame
    simp only [hscale] at hsame
    rw [hcode] at hsame
    have hother : (units other : ℚ) ≠
        binaryDigits (num * unitsPerOne) den * 2 ^ binaryShift (num * unitsPerOne) den := by
      rw [← hcode]
      exact_mod_cast fun h => hne (units_strictMono.injective h)
    have heven := (abs_sub_units_le hden other).2 hother hsame
    rw [nearestCode_eq]
    exact dvd_add (Dvd.dvd.mul_left (by decide) _) heven

/-- A nearest number to a rational, which is an infinity where the nearest magnitude is beyond the
last finite one.  Zero has a number of each sign. -/
def IsNearestTo (x : Number) (q : ℚ) : Prop :=
  ∃ (negative : Bool) (code : Nat), x = ofCode negative code ∧ IsNearestCode |q| code ∧
    if negative then q ≤ 0 else 0 ≤ q

theorem isNearestTo_ofRatio (negative : Bool) (num : Nat) {den : Nat} (hden : 0 < den) :
    (ofRatio negative num den).IsNearestTo ((if negative then -(num : ℚ) else num) / den) := by
  have hquot : (0 : ℚ) ≤ num / den := by positivity
  refine ⟨negative, nearestCode num den, rfl, ?_, ?_⟩
  · have habs : |(if negative then -(num : ℚ) else num) / den| = num / den := by
      cases negative
      · exact abs_of_nonneg hquot
      · rw [if_pos rfl, neg_div, abs_neg, abs_of_nonneg hquot]
    rw [habs]
    exact isNearestCode_nearestCode num hden
  · cases negative
    · exact hquot
    · rw [if_pos rfl, if_pos rfl, neg_div]
      exact neg_nonpos.mpr hquot

/-- A decimal is read as a nearest number. -/
theorem isNearestTo_ofScientific (negative : Bool) (digits places : Nat) :
    (ofScientific negative digits (-(places : ℤ))).IsNearestTo
      ((if negative then -(digits : ℚ) else digits) / 10 ^ places) := by
  have hpower : 0 < 10 ^ places := by positivity
  have hvalue : (⟨digits, -(places : ℤ)⟩ : Scientific).value =
      (digits : ℚ) / (10 ^ places : Nat) := by
    rw [Scientific.value, zpow_neg, zpow_natCast, ← div_eq_mul_inv]
    push_cast
    rfl
  have hnearest := isNearestTo_ofRatio negative digits hpower
  rw [← ofScientific_eq_ofRatio negative hpower hvalue] at hnearest
  exact_mod_cast hnearest

end Number

/-! ## Reading a canonical numeral -/

theorem allDigits_of_isDigit {cs : List Char} (h : ∀ c ∈ cs, c.isDigit = true) :
    AllDigits cs := fun c hc => Json.isDecimalDigit_of_isDigit (h c hc)

theorem digitsValue_eq_ofDigitChars {cs : List Char} (h : ∀ c ∈ cs, c.isDigit = true) :
    digitsValue cs = Nat.ofDigitChars 10 cs 0 := by
  rw [digitsValue_eq_foldl,
    Json.Numeral.foldl_pushDigit_eq_ofDigitChars (allDigits_of_isDigit h)]

namespace Decimal

/-- A text whose body begins with a digit is no word. -/
theorem parse?_of_digits {text : String} {negative : Bool} {body : List Char} {digits places : Nat}
    (hsign : takeSign text.toList = (negative, body))
    (hhead : ∀ c ∈ body.head?, c.isDigit = true)
    (hdigits : parseDigits? body = some (digits, places, [])) :
    parse? text = some (finite negative digits (-(places : ℤ))) := by
  have hword : ∀ (letter : Char) (letters : List Char), letter.isAlpha = true →
      body.map Char.toLower ≠ letter :: letters := by
    intro letter letters halpha heq
    obtain ⟨c, rest, rfl, hc, -⟩ := List.map_eq_cons_iff.mp heq
    obtain ⟨d, hd, rfl⟩ := exists_digitChar (hhead c rfl)
    rw [← hc] at halpha
    interval_cases d <;> exact absurd halpha (by decide)
  have hnan : body.map Char.toLower ≠ "nan".toList := hword 'n' ['a', 'n'] rfl
  have hinf : body.map Char.toLower ≠ "inf".toList := hword 'i' ['n', 'f'] rfl
  have hinfinity : body.map Char.toLower ≠ "infinity".toList :=
    hword 'i' ['n', 'f', 'i', 'n', 'i', 't', 'y'] rfl
  unfold parse?
  rw [hsign]
  dsimp only
  rw [if_neg hnan, if_neg (not_or.mpr ⟨hinf, hinfinity⟩), hdigits]
  change some (finite negative digits (0 - (places : ℤ))) = _
  rw [zero_sub]

end Decimal

/-- Both readers find the same digits and places in a whole part and what stands behind it. -/
theorem parseDigits?_parts {places : Nat} {whole part : List Char} (hwhole : IsWhole whole)
    (hpart : IsPart places part) :
    ∃ digits used, Decimal.parseDigits? (whole ++ part) = some (digits, used, []) ∧
      takeUnsigned? (whole ++ part) = some ((digits : ℚ) / 10 ^ used, []) := by
  have hends : EndsNumeral [] := endsNumeral_nil
  have hnone : ∀ c ∈ ([] : List Char).head?, isDecimalDigit c = false := nofun
  have hfalse : whole.isEmpty = false := by simpa using hwhole.ne_nil
  rcases hpart with rfl | ⟨ds, rfl, hds⟩
  · refine ⟨Nat.ofDigitChars 10 whole 0, 0, ?_, ?_⟩
    · have hspan := Json.Numeral.spanDigits_append (allDigits_of_isDigit hwhole.isDigit) hnone
      unfold Decimal.parseDigits?
      rw [hspan]
      simp [hfalse, digitsValue_eq_ofDigitChars hwhole.isDigit]
    · rw [takeUnsigned?_whole hwhole.ne_nil hwhole.isDigit hends, pow_zero, div_one]
  · have hne : ds ≠ [] := by
      obtain ⟨init, c, rfl, -⟩ := hds
      simp
    refine ⟨Nat.ofDigitChars 10 (whole ++ ds) 0, ds.length, ?_, ?_⟩
    · have hpoint : ∀ c ∈ ('.' :: ds).head?, isDecimalDigit c = false := by
        rintro c ⟨⟩
        decide
      have hspan := Json.Numeral.spanDigits_append (allDigits_of_isDigit hwhole.isDigit) hpoint
      have hspan' := Json.Numeral.spanDigits_append (allDigits_of_isDigit hds.isDigit) hnone
      have hall : ∀ c ∈ whole ++ ds, c.isDigit = true :=
        List.forall_mem_append.mpr ⟨hwhole.isDigit, hds.isDigit⟩
      rw [List.append_nil] at hspan'
      unfold Decimal.parseDigits?
      rw [hspan]
      simp [hspan', hfalse, digitsValue_eq_ofDigitChars hall]
    · have hread := takeUnsigned?_point hwhole.ne_nil hwhole.isDigit hne hds.isDigit hends
      rwa [List.append_nil] at hread

/-- A canonical numeral is read as a nearest number to its value. -/
theorem exists_parse?_of_isCanonical {places : Nat} {text : String}
    {value : ℚ} (h : IsCanonical places text.toList)
    (hvalue : takeNumeral? text.toList = some (value, [])) :
    ∃ w, Number.parse? text = some w ∧ w.IsNearestTo value := by
  obtain ⟨-, sign, whole, part, htext, hsign, hwhole, hpart⟩ := h
  obtain ⟨digits, used, hdigits, hread⟩ := parseDigits?_parts hwhole hpart
  have hne : whole ++ part ≠ [] := by simp [hwhole.ne_nil]
  have hhead : ∀ c ∈ (whole ++ part).head?, c.isDigit = true := by
    intro c hc
    rw [List.head?_append_of_ne_nil _ hwhole.ne_nil] at hc
    exact hwhole.isDigit c (List.mem_of_mem_head? hc)
  obtain ⟨negative, hnegative⟩ : ∃ negative, sign = Json.Numeral.signChars negative := by
    rcases hsign with rfl | rfl
    · exact ⟨false, rfl⟩
    · exact ⟨true, rfl⟩
  rw [htext, hnegative, List.append_assoc] at hvalue
  have hparse : Decimal.parse? text = some (.finite negative digits (-(used : ℤ))) := by
    refine Decimal.parse?_of_digits ?_ hhead hdigits
    rw [htext, hnegative, List.append_assoc]
    exact Json.Numeral.takeSign_signChars negative hne fun c hc =>
      Json.isDecimalDigit_of_isDigit (hhead c hc)
  have hvalueEq : value = (if negative then -(digits : ℚ) else digits) / 10 ^ used := by
    cases negative with
    | false =>
        have hplain := Number.takeNumeral?_of_isDigit hne hhead []
        rw [List.append_nil, hread] at hplain
        exact congrArg Prod.fst (Option.some.inj (hvalue.symm.trans hplain))
    | true =>
        have hminus : takeNumeral? ('-' :: (whole ++ part)) =
            some (-(digits : ℚ) / 10 ^ used, []) := by simp [takeNumeral?, hread, neg_div]
        exact congrArg Prod.fst (Option.some.inj (hvalue.symm.trans hminus))
  refine ⟨_, ?_, hvalueEq ▸ Number.isNearestTo_ofScientific negative digits used⟩
  rw [Number.parse?, hparse]
  rfl

namespace Number

/-! ## Writing what was read -/

/-- The greatest magnitude is a whole number, and rounding to decimal places does not exceed it. -/
theorem scaled_le_greatest (places : Nat) (code : Fin magnitudeCount) :
    (scaled places code : ℚ) / 10 ^ places ≤ magnitude (magnitudeCount - 1) := by
  have hpower : (0 : ℚ) < 10 ^ places := by positivity
  have hpos : (0 : ℚ) < unitsPerOne := by exact_mod_cast unitsPerOne_pos
  obtain ⟨greatest, hgreatest⟩ : unitsPerOne ∣ units (magnitudeCount - 1) := by decide +kernel
  have hunits : units code ≤ greatest * unitsPerOne := by
    rw [Nat.mul_comm, ← hgreatest]
    exact units_strictMono.monotone (Nat.le_sub_one_of_lt code.isLt)
  have hscaled : scaled places code ≤ greatest * 10 ^ places := by
    have hle : nearest (units code * 10 ^ places) unitsPerOne ≤
        nearest (greatest * 10 ^ places * 1) 1 := by
      refine nearest_mono unitsPerOne_pos Nat.one_pos ?_
      calc units code * 10 ^ places * 1 = units code * 10 ^ places := Nat.mul_one _
        _ ≤ greatest * unitsPerOne * 10 ^ places := Nat.mul_le_mul_right _ hunits
        _ = greatest * 10 ^ places * 1 * unitsPerOne := by ring
    rwa [nearest_mul_self _ Nat.one_pos] at hle
  have hmagnitude : magnitude (magnitudeCount - 1) = greatest := by
    rw [magnitude, hgreatest, Nat.cast_mul, mul_div_cancel_left₀ _ hpos.ne']
  rw [hmagnitude, div_le_iff₀ hpower]
  exact_mod_cast hscaled

/-- What is as near to a decimal as a magnitude that is rounded to it is rounded to it too. -/
theorem scaled_of_isNearestCode {places : Nat} {code code' : Nat}
    (h : IsNearestCode ((scaled places code : ℚ) / 10 ^ places) code') :
    scaled places code' = scaled places code := by
  have hpower : (0 : ℚ) < 10 ^ places := by positivity
  have hcode : IsNearest (magnitude code * 10 ^ places) (scaled places code) := by
    rw [← roundEven_magnitude_mul]
    exact isNearest_roundEven _
  -- both distances, in multiples of the last place
  have hscale : ∀ other, |(scaled places code : ℚ) / 10 ^ places - magnitude other| * 10 ^ places =
      |magnitude other * 10 ^ places - scaled places code| := by
    intro other
    rw [abs_sub_mul hpower, div_mul_cancel₀ _ hpower.ne', abs_sub_comm]
  have hnearer := mul_le_mul_of_nonneg_right (h.nearest code) hpower.le
  rw [hscale, hscale] at hnearer
  have hnearest : IsNearest (magnitude code' * 10 ^ places) (scaled places code) := by
    rcases hcode with hlt | ⟨heq, heven⟩
    · exact Or.inl (lt_of_le_of_lt hnearer hlt)
    · -- at a half the decimal was even, so a half is good enough again
      rcases hnearer.lt_or_eq with hlt | hsame
      · exact Or.inl (lt_of_lt_of_eq hlt heq)
      · exact Or.inr ⟨hsame.trans heq, heven⟩
  have hround := roundEven_eq hnearest
  rw [roundEven_magnitude_mul] at hround
  exact_mod_cast hround

/-- The signed value of a magnitude. -/
theorem exactValue_finite (negative : Bool) (code : Fin magnitudeCount) :
    (finite negative code).exactValue = if negative then -magnitude code else magnitude code := by
  cases negative <;> rfl

/-- What is nearest to the decimal of a number is finite and is rounded to the same decimal; its
sign is that of the number unless the decimal is zero, and then it is zero itself. -/
theorem exists_of_isNearestTo_rounded {places : Nat} {negative : Bool}
    {code : Fin magnitudeCount} {w : Number}
    (h : w.IsNearestTo ((finite negative code).rounded places)) :
    ∃ (negative' : Bool) (code' : Fin magnitudeCount), w = finite negative' code' ∧
      scaled places code' = scaled places code ∧
      |(scaled places code : ℚ) / 10 ^ places - magnitude code'| ≤
        |(scaled places code : ℚ) / 10 ^ places - magnitude code| ∧
      (negative' = negative ∨ scaled places code = 0 ∧ code'.val = 0) := by
  obtain ⟨negative', code', rfl, hnearest, hsign⟩ := h
  have hquot : (0 : ℚ) ≤ (scaled places code : ℚ) / 10 ^ places := by positivity
  rw [rounded_finite] at hnearest hsign
  have habs : |(if negative then -(scaled places code : ℚ) else scaled places code) / 10 ^ places| =
      (scaled places code : ℚ) / 10 ^ places := by
    cases negative
    · exact abs_of_nonneg hquot
    · rw [if_pos rfl, neg_div, abs_neg, abs_of_nonneg hquot]
  rw [habs] at hnearest
  have hlt : code' < magnitudeCount := by
    have hle := hnearest.le (scaled_le_greatest places code)
    have hcount : 0 < magnitudeCount := code.pos
    omega
  refine ⟨negative', ⟨code', hlt⟩, dif_pos hlt, scaled_of_isNearestCode hnearest,
    hnearest.nearest code, ?_⟩
  by_cases hsame : negative' = negative
  · exact Or.inl hsame
  · -- with the other sign the decimal is zero
    have hzero : (scaled places code : ℚ) / 10 ^ places = 0 := by
      cases negative with
      | false =>
          cases negative' with
          | false => exact absurd rfl hsame
          | true => exact le_antisymm hsign hquot
      | true =>
          cases negative' with
          | false =>
              rw [if_pos rfl, neg_div] at hsign
              exact le_antisymm (neg_nonneg.mp hsign) hquot
          | true => exact absurd rfl hsame
    have hnone : scaled places code = 0 := by
      rw [div_eq_zero_iff, or_iff_left (by positivity)] at hzero
      exact_mod_cast hzero
    refine Or.inr ⟨hnone, Nat.le_zero.mp (hnearest.le ?_)⟩
    rw [hzero, magnitude_zero]

end Number

/-- The text of a finite number is read as a nearest number to the decimal that it denotes, with a
tie going to the even one.  Every such number is finite, at most `10 ^ -10` away from the number
that was written, and has the same text. -/
theorem Script.numeral?_stable (negative : Bool) (code : Fin magnitudeCount) :
    ∃ (text : String) (value : ℚ), Script.numeral? (.finite negative code) = some text ∧
      takeNumeral? text.toList = some (value, []) ∧
      (∃ w, Number.parse? text = some w ∧ w.IsNearestTo value) ∧
      ∀ w : Number, w.IsNearestTo value → w.isFinite = true ∧
        |w.exactValue - (Number.finite negative code).exactValue| ≤ 1 / 10 ^ 10 ∧
        Script.numeral? w = some text := by
  have hread := Number.takeNumeral?_toList_trimmed (by decide : 0 < 10) negative code
  have hcanonical := Number.isCanonical_trimmed (by decide : 0 < 10) negative code
  refine ⟨_, _, rfl, hread, exists_parse?_of_isCanonical hcanonical hread,
    fun w hw => ?_⟩
  obtain ⟨negative', code', rfl, hscaled, hnearer, hsign⟩ :=
    Number.exists_of_isNearestTo_rounded hw
  have hvalue : (Number.finite negative' code').exactValue = if negative then
      -Number.magnitude code' else Number.magnitude code' := by
    rw [Number.exactValue_finite]
    rcases hsign with rfl | ⟨-, hzero⟩
    · rfl
    · rw [hzero, Number.magnitude_zero]
      simp
  have hrounded : (Number.finite negative' code').rounded 10 =
      (Number.finite negative code).rounded 10 := by
    rw [Number.rounded_finite, Number.rounded_finite, hscaled]
    rcases hsign with rfl | ⟨hzero, -⟩
    · rfl
    · rw [hzero]
      simp
  refine ⟨rfl, ?_, congrArg some ((Number.trimmed_eq_iff (by decide) _ _ _ _).mpr hrounded)⟩
  -- neither number is further from the decimal than a half of the last place
  have hclose := Number.abs_rounded_sub_le 10 (.finite false code)
  rw [Number.rounded_finite, if_neg Bool.false_ne_true] at hclose
  change |(Number.scaled 10 code : ℚ) / 10 ^ 10 - Number.magnitude code| ≤ 1 / 2 / 10 ^ 10 at hclose
  have hdistance : |Number.magnitude code' - Number.magnitude code| ≤ 1 / 10 ^ 10 := by
    generalize (Number.scaled 10 code : ℚ) / 10 ^ 10 = q at hnearer hclose
    calc |Number.magnitude code' - Number.magnitude code|
        ≤ |Number.magnitude code' - q| + |q - Number.magnitude code| := abs_sub_le _ _ _
      _ = |q - Number.magnitude code'| + |q - Number.magnitude code| := by
        rw [abs_sub_comm (Number.magnitude code') q]
      _ ≤ 1 / 2 / 10 ^ 10 + 1 / 2 / 10 ^ 10 := add_le_add (hnearer.trans hclose) hclose
      _ = 1 / 10 ^ 10 := by norm_num
  rw [hvalue, Number.exactValue_finite]
  cases negative with
  | false => exact hdistance
  | true =>
      rw [if_pos rfl, if_pos rfl, neg_sub_neg, abs_sub_comm]
      exact hdistance

end SolidScript
