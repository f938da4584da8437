import Mathlib.Data.List.TakeWhile
import Mathlib.Tactic
import SolidScript.Proofs.Number.Rounding
import SolidScript.Script.Expression

/-!
# Reading numerals

A numeral is an optional minus sign, digits, and optionally a point followed by digits.
`takeNumeral?` reads the numeral at the front of a text exactly, as a rational.  What
`Number.trimmed` writes for a number reads as the number rounded to its decimal places
(`takeNumeral?_numeral`).
-/

namespace SolidScript

/-- Reads the digits at the front, and the digits after a point that follows them. -/
def takeUnsigned? (cs : List Char) : Option (ℚ × List Char) :=
  let whole := cs.takeWhile Char.isDigit
  if whole = [] then none
  else
    match cs.dropWhile Char.isDigit with
    | '.' :: tail =>
      let part := tail.takeWhile Char.isDigit
      if part = [] then none
      else some ((Nat.ofDigitChars 10 (whole ++ part) 0 : ℚ) / 10 ^ part.length,
        tail.dropWhile Char.isDigit)
    | rest => some ((Nat.ofDigitChars 10 whole 0 : ℚ), rest)

/-- Reads the numeral at the front. -/
def takeNumeral? : List Char → Option (ℚ × List Char)
  | '-' :: cs => (takeUnsigned? cs).map fun (value, rest) => (-value, rest)
  | cs => takeUnsigned? cs

/-- Can the text not continue a numeral that stands before it? -/
def EndsNumeral (rest : List Char) : Prop := ∀ c ∈ rest.head?, c.isDigit = false ∧ c ≠ '.'

theorem endsNumeral_nil : EndsNumeral [] := nofun

/-- A run of characters of one class ends where a character of another class follows. -/
theorem takeWhile_append_of_head {p : Char → Bool} {run : List Char} (rest : List Char)
    (hrun : ∀ c ∈ run, p c = true) (hrest : ∀ c ∈ rest.head?, p c = false) :
    (run ++ rest).takeWhile p = run ∧ (run ++ rest).dropWhile p = rest := by
  rw [List.takeWhile_append_of_pos hrun, List.dropWhile_append_of_pos hrun]
  cases rest with
  | nil => simp
  | cons c rest => simp [hrest c rfl]

theorem takeUnsigned?_whole {whole rest : List Char} (hne : whole ≠ [])
    (hwhole : ∀ c ∈ whole, c.isDigit = true) (hrest : EndsNumeral rest) :
    takeUnsigned? (whole ++ rest) = some ((Nat.ofDigitChars 10 whole 0 : ℚ), rest) := by
  obtain ⟨htake, hdrop⟩ :=
    takeWhile_append_of_head rest hwhole fun c hc => (hrest c hc).1
  unfold takeUnsigned?
  rw [htake, hdrop, if_neg hne]
  split
  · exact absurd rfl (hrest '.' rfl).2
  · rfl

theorem takeUnsigned?_point {whole part rest : List Char} (hne : whole ≠ [])
    (hwhole : ∀ c ∈ whole, c.isDigit = true) (hpart : part ≠ [])
    (hdigits : ∀ c ∈ part, c.isDigit = true) (hrest : EndsNumeral rest) :
    takeUnsigned? (whole ++ '.' :: (part ++ rest)) =
      some ((Nat.ofDigitChars 10 (whole ++ part) 0 : ℚ) / 10 ^ part.length, rest) := by
  obtain ⟨htake, hdrop⟩ := takeWhile_append_of_head ('.' :: (part ++ rest)) hwhole (by simp)
  obtain ⟨htake', hdrop'⟩ :=
    takeWhile_append_of_head rest hdigits fun c hc => (hrest c hc).1
  unfold takeUnsigned?
  rw [htake, hdrop, if_neg hne]
  simp only [htake', hdrop', if_neg hpart]

namespace Number

/-- Trailing zeros are all that is trimmed. -/
theorem exists_append_replicate_trimZeros (ds : List Char) :
    ∃ count, trimZeros ds ++ List.replicate count '0' = ds := by
  refine ⟨(ds.reverse.takeWhile (· == '0')).length, ?_⟩
  have hzeros : ds.reverse.takeWhile (· == '0') =
      List.replicate (ds.reverse.takeWhile (· == '0')).length '0' := by
    rw [List.eq_replicate_iff]
    refine ⟨rfl, fun c hc => ?_⟩
    simpa using List.mem_takeWhile_imp hc
  rw [trimZeros, ← List.reverse_replicate, ← hzeros, ← List.reverse_append,
    List.takeWhile_append_dropWhile, List.reverse_reverse]

theorem ofDigitChars_padded (width n : Nat) : Nat.ofDigitChars 10 (padded width n) 0 = n := by
  rw [padded, Nat.ofDigitChars_append, Nat.ofDigitChars_replicate_zero, Nat.mul_zero,
    Nat.ofDigitChars_ten_toDigits]

theorem length_padded {width n : Nat} (hwidth : 0 < width) (hn : n < 10 ^ width) :
    (padded width n).length = width := by
  have hle := (Nat.length_toDigits_le_iff (by decide) hwidth).mpr hn
  rw [padded, List.length_append, List.length_replicate]
  omega

theorem isDigit_of_mem_padded {width n : Nat} {c : Char} (hc : c ∈ padded width n) :
    c.isDigit = true := by
  rcases List.mem_append.mp hc with hzero | hdigit
  · rw [List.eq_of_mem_replicate hzero]
    rfl
  · exact Nat.isDigit_of_mem_toDigits (by decide) (by decide) hdigit

/-- The digits after the point that are kept, and how many zeros were dropped after them. -/
theorem exists_trimZeros_padded {places r : Nat} (hplaces : 0 < places) (hr : r < 10 ^ places) :
    ∃ count, (trimZeros (padded places r)).length + count = places ∧
      Nat.ofDigitChars 10 (trimZeros (padded places r)) 0 * 10 ^ count = r ∧
      ∀ c ∈ trimZeros (padded places r), c.isDigit = true := by
  obtain ⟨count, hcount⟩ := exists_append_replicate_trimZeros (padded places r)
  refine ⟨count, ?_, ?_, fun c hc => ?_⟩
  · have hlength := congrArg List.length hcount
    rwa [List.length_append, List.length_replicate, length_padded hplaces hr] at hlength
  · have hvalue := congrArg (Nat.ofDigitChars 10 · 0) hcount
    simp only [Nat.ofDigitChars_append, Nat.ofDigitChars_replicate_zero,
      ofDigitChars_padded] at hvalue
    rw [Nat.mul_comm, hvalue]
  · exact isDigit_of_mem_padded (hcount ▸ List.mem_append_left _ hc)

theorem takeUnsigned?_trimmedDigits {places : Nat} (hplaces : 0 < places) (k : Nat)
    {rest : List Char} (hrest : EndsNumeral rest) :
    takeUnsigned? (trimmedDigits places k ++ rest) = some ((k : ℚ) / 10 ^ places, rest) := by
  have hten : (10 : ℚ) ^ places ≠ 0 := by positivity
  have hmod : k % 10 ^ places < 10 ^ places := Nat.mod_lt k (by positivity)
  obtain ⟨count, hlength, hvalue, hdigits⟩ := exists_trimZeros_padded hplaces hmod
  have hwhole : ∀ c ∈ Nat.toDigits 10 (k / 10 ^ places), c.isDigit = true :=
    fun c hc => Nat.isDigit_of_mem_toDigits (by decide) (by decide) hc
  simp only [trimmedDigits, Nat.pow_eq]
  generalize trimZeros (padded places (k % 10 ^ places)) = part at hlength hvalue hdigits ⊢
  by_cases hpart : part = []
  · -- Without digits after the point the number is whole.
    have hrem : k % 10 ^ places = 0 := by
      rw [← hvalue, hpart, Nat.ofDigitChars_nil, Nat.zero_mul]
    rw [if_pos (by rw [hpart]; rfl), List.append_nil,
      takeUnsigned?_whole Nat.toDigits_ne_nil hwhole hrest, Nat.ofDigitChars_ten_toDigits,
      Nat.cast_div (Nat.dvd_of_mod_eq_zero hrem) (by exact_mod_cast hten)]
    push_cast
    rfl
  · -- The dropped zeros stand for a power of ten that cancels in the quotient.
    have hsplit : k = (10 ^ part.length * (k / 10 ^ places) +
        Nat.ofDigitChars 10 part 0) * 10 ^ count := by
      rw [Nat.add_mul, hvalue, Nat.mul_right_comm, ← Nat.pow_add, hlength, Nat.div_add_mod]
    rw [if_neg (by simpa using hpart), List.append_assoc, List.cons_append,
      takeUnsigned?_point Nat.toDigits_ne_nil hwhole hpart hdigits hrest,
      Nat.ofDigitChars_append, Nat.ofDigitChars_ten_toDigits,
      Nat.ofDigitChars_eq_ofDigitChars_zero]
    generalize 10 ^ part.length * (k / 10 ^ places) + Nat.ofDigitChars 10 part 0 = value at hsplit ⊢
    have hpow : (10 : ℚ) ^ places = 10 ^ part.length * 10 ^ count := by rw [← hlength, pow_add]
    have hcast : (k : ℚ) = value * 10 ^ count := by exact_mod_cast hsplit
    rw [hcast, hpow, mul_div_mul_right _ _ (by positivity)]

theorem takeNumeral?_of_isDigit {cs : List Char} (hne : cs ≠ [])
    (hcs : ∀ c ∈ cs.head?, c.isDigit = true) (rest : List Char) :
    takeNumeral? (cs ++ rest) = takeUnsigned? (cs ++ rest) := by
  cases cs with
  | nil => exact absurd rfl hne
  | cons c cs =>
      have hc := hcs c rfl
      unfold takeNumeral?
      split
      · rename_i heq
        simp only [List.cons_append, List.cons.injEq] at heq
        rw [heq.1] at hc
        exact absurd hc (by decide)
      · rfl

theorem trimmedDigits_ne_nil (places k : Nat) : trimmedDigits places k ≠ [] := by
  simp [trimmedDigits, Nat.toDigits_ne_nil]

theorem isDigit_head_trimmedDigits (places k : Nat) :
    ∀ c ∈ (trimmedDigits places k).head?, c.isDigit = true := by
  intro c hc
  unfold trimmedDigits at hc
  rw [List.head?_append_of_ne_nil _ Nat.toDigits_ne_nil] at hc
  exact Nat.isDigit_of_mem_toDigits (by decide) (by decide) (List.mem_of_mem_head? hc)

/-- The text of a finite number reads as the number rounded to the places of the text. -/
theorem takeNumeral?_trimmed {places : Nat} (hplaces : 0 < places) (negative : Bool)
    (code : Fin magnitudeCount) {rest : List Char} (hrest : EndsNumeral rest) :
    takeNumeral? ((trimmed places negative code).toList ++ rest) =
      some (rounded places (finite negative code), rest) := by
  have hunsigned := takeUnsigned?_trimmedDigits hplaces (scaled places code) hrest
  have hplain := takeNumeral?_of_isDigit (trimmedDigits_ne_nil places (scaled places code))
    (isDigit_head_trimmedDigits places (scaled places code)) rest
  rw [rounded_finite]
  unfold trimmed
  dsimp only
  generalize scaled places code = k at hunsigned hplain ⊢
  cases negative with
  | false => simpa [hplain] using hunsigned
  | true =>
      -- what rounds to zero is written without a sign, and minus zero is zero
      by_cases hk : k = 0
      · subst hk
        simpa [hplain] using hunsigned
      · simp [hk, takeNumeral?, hunsigned, neg_div]

theorem exists_cons_trimmed (places : Nat) (negative : Bool) (code : Nat) :
    ∃ c cs, (trimmed places negative code).toList = c :: cs ∧ (c == '-' || c.isDigit) = true := by
  unfold trimmed
  dsimp only
  generalize scaled places code = k
  cases hdigits : trimmedDigits places k with
  | nil => exact absurd hdigits (trimmedDigits_ne_nil places k)
  | cons c cs =>
      have hc : c.isDigit = true :=
        isDigit_head_trimmedDigits places k c (by rw [hdigits]; rfl)
      by_cases hsign : (negative && k != 0) = true
      · exact ⟨'-', c :: cs, by simp [hsign], rfl⟩
      · exact ⟨c, cs, by simp [hsign], by simp [hc]⟩

end Number

theorem exists_cons_numeral {x : Number} {text : String} (h : Script.numeral? x = some text) :
    ∃ c cs, text.toList = c :: cs ∧ (c == '-' || c.isDigit) = true := by
  cases x with
  | finite negative code =>
      cases h
      exact Number.exists_cons_trimmed 10 negative code
  | nan => cases h
  | infinity negative => cases h

/-- A number that has a text reads from it as the number rounded to ten places. -/
theorem takeNumeral?_numeral {x : Number} {text : String} (h : Script.numeral? x = some text)
    {rest : List Char} (hrest : EndsNumeral rest) :
    takeNumeral? (text.toList ++ rest) = some (x.rounded 10, rest) := by
  cases x with
  | finite negative code =>
      cases h
      exact Number.takeNumeral?_trimmed (by decide) negative code hrest
  | nan => cases h
  | infinity negative => cases h

end SolidScript
