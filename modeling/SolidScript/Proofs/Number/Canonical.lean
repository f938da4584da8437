import SolidScript.Proofs.Json.Numeral
import SolidScript.Proofs.Number.Numeral

/-!
# Canonical numerals

A canonical numeral has no sign without need, no zero in front of its whole part and none at the end
of its fraction (`IsCanonical`).  Such a numeral is determined by its value, so the text of a finite
number is *the* canonical numeral of the number rounded to ten places, and two numbers have the same
text exactly when they are rounded to the same multiple of `10 ^ -10`.

Runs of digits are compared with the digits of the numbers that they denote.  Of the same length
they are the same when they denote the same number (`eq_of_ofDigitChars_eq`), and without a zero in
front the length needs no mention (`IsWhole.toDigits_eq`).
-/

namespace SolidScript

/-! ## Runs of digits -/

theorem exists_digitChar {c : Char} (hc : c.isDigit = true) : ∃ d < 10, c = Nat.digitChar d := by
  have hrange : '0'.toNat ≤ c.toNat ∧ c.toNat ≤ '9'.toNat := by
    simpa [Char.isDigit, Char.le_def, UInt32.le_iff_toNat_le] using hc
  have hchars : ∀ n : Fin 10, Char.ofNat ('0'.toNat + n) = Nat.digitChar n := by decide
  obtain ⟨d, hd⟩ := Nat.exists_eq_add_of_le hrange.1
  have hlt : d < 10 := by
    have hnine : '9'.toNat = '0'.toNat + 9 := rfl
    omega
  refine ⟨d, hlt, ?_⟩
  rw [← hchars ⟨d, hlt⟩, ← hd, Char.ofNat_toNat]

theorem ofDigitChars_digitChar {d : Nat} (hd : d < 10) :
    Nat.ofDigitChars 10 [Nat.digitChar d] 0 = d := by
  rw [Nat.ofDigitChars_cons_digitChar_of_lt_ten hd, Nat.ofDigitChars_nil, Nat.mul_zero,
    Nat.zero_add]

/-- The value of digits with another one in front. -/
theorem ofDigitChars_cons_digitChar {d : Nat} (hd : d < 10) (cs : List Char) :
    Nat.ofDigitChars 10 (Nat.digitChar d :: cs) 0 =
      10 ^ cs.length * d + Nat.ofDigitChars 10 cs 0 := by
  rw [Nat.ofDigitChars_cons_digitChar_of_lt_ten hd, Nat.ofDigitChars_eq_ofDigitChars_zero,
    Nat.mul_zero, Nat.zero_add]

theorem ofDigitChars_lt {cs : List Char} (hcs : ∀ c ∈ cs, c.isDigit = true) :
    Nat.ofDigitChars 10 cs 0 < 10 ^ cs.length := by
  induction cs with
  | nil => exact Nat.one_pos
  | cons c rest ih =>
      obtain ⟨hc, hrest⟩ := List.forall_mem_cons.mp hcs
      obtain ⟨d, hd, rfl⟩ := exists_digitChar hc
      have hlt := ih hrest
      have hmul : 10 ^ rest.length * d ≤ 10 ^ rest.length * 9 := Nat.mul_le_mul_left _ (by omega)
      rw [ofDigitChars_cons_digitChar hd, List.length_cons, pow_succ]
      omega

/-- Runs of the same length are told apart by their values. -/
theorem eq_of_ofDigitChars_eq {cs ds : List Char} (hlength : cs.length = ds.length)
    (hcs : ∀ c ∈ cs, c.isDigit = true) (hds : ∀ c ∈ ds, c.isDigit = true)
    (h : Nat.ofDigitChars 10 cs 0 = Nat.ofDigitChars 10 ds 0) : cs = ds := by
  induction cs generalizing ds with
  | nil => exact (List.length_eq_zero_iff.mp hlength.symm).symm
  | cons c rest ih =>
      cases ds with
      | nil => cases hlength
      | cons c' rest' =>
          obtain ⟨hc, hrest⟩ := List.forall_mem_cons.mp hcs
          obtain ⟨hc', hrest'⟩ := List.forall_mem_cons.mp hds
          obtain ⟨d, hd, rfl⟩ := exists_digitChar hc
          obtain ⟨d', hd', rfl⟩ := exists_digitChar hc'
          have hsame : rest.length = rest'.length := Nat.succ.inj hlength
          have hlt := ofDigitChars_lt hrest
          have hlt' := ofDigitChars_lt hrest'
          rw [ofDigitChars_cons_digitChar hd, ofDigitChars_cons_digitChar hd', hsame] at h
          rw [hsame] at hlt
          -- the first digits are the quotients and the others the remainders
          have hdiv := congrArg (· / 10 ^ rest'.length) h
          have hmod := congrArg (· % 10 ^ rest'.length) h
          simp only [Nat.mul_add_div (Nat.pow_pos (by decide : 0 < 10)), Nat.div_eq_of_lt hlt,
            Nat.div_eq_of_lt hlt', Nat.add_zero] at hdiv
          simp only [Nat.mul_add_mod, Nat.mod_eq_of_lt hlt, Nat.mod_eq_of_lt hlt'] at hmod
          rw [hdiv, ih hsame hrest hrest' hmod]

/-! ## Canonical numerals -/

/-- A digit that is not zero. -/
def IsNonzeroDigit (c : Char) : Prop := c.isDigit = true ∧ c ≠ '0'

/-- A zero alone, or digits of which the first is not zero. -/
def IsWhole (cs : List Char) : Prop :=
  cs = ['0'] ∨ ∃ c rest, cs = c :: rest ∧ IsNonzeroDigit c ∧ ∀ d ∈ rest, d.isDigit = true

/-- At most `places` digits of which the last is not zero. -/
def IsFraction (places : Nat) (cs : List Char) : Prop :=
  ∃ ds c, cs = ds ++ [c] ∧ ds.length < places ∧ (∀ d ∈ ds, d.isDigit = true) ∧ IsNonzeroDigit c

/-- What may stand behind a whole part: nothing, or a point and a fraction. -/
def IsPart (places : Nat) (part : List Char) : Prop :=
  part = [] ∨ ∃ ds, part = '.' :: ds ∧ IsFraction places ds

/-- An optional minus sign, a whole part and optionally a point with a fraction of at most `places`
digits; zero has no sign. -/
def IsCanonical (places : Nat) (cs : List Char) : Prop :=
  cs ≠ ['-', '0'] ∧ ∃ sign whole part, cs = sign ++ whole ++ part ∧ (sign = [] ∨ sign = ['-']) ∧
    IsWhole whole ∧ IsPart places part

theorem IsWhole.isDigit {cs : List Char} (h : IsWhole cs) : ∀ c ∈ cs, c.isDigit = true := by
  rcases h with rfl | ⟨c, rest, rfl, hc, hrest⟩
  · exact List.forall_mem_singleton.mpr rfl
  · exact List.forall_mem_cons.mpr ⟨hc.1, hrest⟩

theorem IsWhole.ne_nil {cs : List Char} (h : IsWhole cs) : cs ≠ [] := by
  rcases h with rfl | ⟨c, rest, rfl, -⟩
  · exact List.cons_ne_nil _ _
  · exact List.cons_ne_nil _ _

theorem IsFraction.isDigit {places : Nat} {cs : List Char} (h : IsFraction places cs) :
    ∀ c ∈ cs, c.isDigit = true := by
  obtain ⟨ds, c, rfl, -, hds, hc⟩ := h
  exact List.forall_mem_append.mpr ⟨hds, List.forall_mem_singleton.mpr hc.1⟩

theorem IsFraction.length_le {places : Nat} {cs : List Char} (h : IsFraction places cs) :
    cs.length ≤ places := by
  obtain ⟨ds, c, rfl, hlength, -⟩ := h
  rw [List.length_append]
  exact hlength

theorem toDigits_eq_of_nonzero {c : Char} (hc : IsNonzeroDigit c) {rest : List Char}
    (hrest : ∀ d ∈ rest, d.isDigit = true) :
    Nat.toDigits 10 (Nat.ofDigitChars 10 (c :: rest) 0) = c :: rest := by
  induction rest using List.reverseRecOn with
  | nil =>
      obtain ⟨d, hd, rfl⟩ := exists_digitChar hc.1
      rw [ofDigitChars_digitChar hd, Nat.toDigits_of_lt_base hd]
  | append_singleton init last ih =>
      obtain ⟨hinit, hlast⟩ := List.forall_mem_append.mp hrest
      have hdigits := ih hinit
      obtain ⟨d, hd, rfl⟩ := exists_digitChar (hlast last List.mem_cons_self)
      -- what stands before the last digit is not zero, for zero has other digits
      have hpos : 0 < Nat.ofDigitChars 10 (c :: init) 0 := by
        rw [Nat.pos_iff_ne_zero]
        intro hzero
        rw [hzero, Nat.toDigits_zero] at hdigits
        exact hc.2 (List.cons.inj hdigits).1.symm
      have hvalue : Nat.ofDigitChars 10 (c :: (init ++ [Nat.digitChar d])) 0 =
          10 * Nat.ofDigitChars 10 (c :: init) 0 + d := by
        rw [← List.cons_append, Nat.ofDigitChars_append,
          Nat.ofDigitChars_cons_digitChar_of_lt_ten hd, Nat.ofDigitChars_nil]
      rw [hvalue, ← Nat.toDigits_append_toDigits (by decide) hpos hd, hdigits,
        Nat.toDigits_of_lt_base hd, List.cons_append]

/-- A whole part is made of the digits of its value. -/
theorem IsWhole.toDigits_eq {cs : List Char} (h : IsWhole cs) :
    Nat.toDigits 10 (Nat.ofDigitChars 10 cs 0) = cs := by
  rcases h with rfl | ⟨c, rest, rfl, hc, hrest⟩
  · rfl
  · exact toDigits_eq_of_nonzero hc hrest

theorem isDigit_toDigits {n : Nat} : ∀ c ∈ Nat.toDigits 10 n, c.isDigit = true :=
  fun _ hc => Nat.isDigit_of_mem_toDigits (by decide) (by decide) hc

/-- Digits that do not begin with a zero. -/
theorem isWhole_of_head {cs : List Char} (hne : cs ≠ []) (hcs : ∀ c ∈ cs, c.isDigit = true)
    (hhead : cs.head? ≠ some '0') : IsWhole cs := by
  obtain ⟨c, rest, rfl⟩ := List.exists_cons_of_ne_nil hne
  obtain ⟨hc, hrest⟩ := List.forall_mem_cons.mp hcs
  exact Or.inr ⟨c, rest, rfl, ⟨hc, fun h => hhead (congrArg some h)⟩, hrest⟩

theorem isWhole_toDigits (n : Nat) : IsWhole (Nat.toDigits 10 n) := by
  by_cases hzero : n = 0
  · rw [hzero, Nat.toDigits_zero]
    exact Or.inl rfl
  · exact isWhole_of_head Nat.toDigits_ne_nil isDigit_toDigits (Json.head?_toDigits_ne_zero hzero)

namespace Number

theorem trimZeros_append_zeros {ds : List Char} (hlast : ∀ c ∈ ds.getLast?, c ≠ '0')
    (count : Nat) : trimZeros (ds ++ List.replicate count '0') = ds := by
  have hhead : ds.reverse.dropWhile (· == '0') = ds.reverse := by
    cases hreverse : ds.reverse with
    | nil => rfl
    | cons c rest =>
        have hc : c ≠ '0' := hlast c (by rw [← List.head?_reverse, hreverse]; rfl)
        rw [List.dropWhile_cons_of_neg (by simpa using hc)]
  rw [trimZeros, List.reverse_append, List.reverse_replicate,
    List.dropWhile_append_of_pos (by simp), hhead, List.reverse_reverse]

/-- What is left without the zeros at the end does not end with a zero. -/
theorem getLast?_trimZeros (ds : List Char) : ∀ c ∈ (trimZeros ds).getLast?, c ≠ '0' := by
  intro c hc
  rw [trimZeros, List.getLast?_reverse] at hc
  have hfirst := List.head?_dropWhile_not (· == '0') ds.reverse
  rw [Option.mem_def.mp hc] at hfirst
  simpa using hfirst

theorem isFraction_trimZeros {places r : Nat} (hplaces : 0 < places) (hr : r < 10 ^ places)
    (hne : trimZeros (padded places r) ≠ []) :
    IsFraction places (trimZeros (padded places r)) := by
  obtain ⟨count, hlength, -, hdigits⟩ := exists_trimZeros_padded hplaces hr
  have hlast := getLast?_trimZeros (padded places r)
  generalize trimZeros (padded places r) = ds at hne hlength hdigits hlast
  induction ds using List.reverseRecOn with
  | nil => exact absurd rfl hne
  | append_singleton init last =>
      obtain ⟨hinit, hend⟩ := List.forall_mem_append.mp hdigits
      refine ⟨init, last, rfl, ?_, hinit, hend last List.mem_cons_self, ?_⟩
      · rw [List.length_append, List.length_singleton] at hlength
        omega
      · exact hlast last (by rw [List.getLast?_concat]; rfl)

/-- The zeros behind a fraction make it the digits of a number of so many places. -/
theorem padded_eq {places : Nat} (hplaces : 0 < places) {ds : List Char}
    (hds : ∀ c ∈ ds, c.isDigit = true) (hlength : ds.length ≤ places) :
    padded places (Nat.ofDigitChars 10 ds 0 * 10 ^ (places - ds.length)) =
        ds ++ List.replicate (places - ds.length) '0' ∧
      Nat.ofDigitChars 10 ds 0 * 10 ^ (places - ds.length) < 10 ^ places := by
  have hlt : Nat.ofDigitChars 10 ds 0 * 10 ^ (places - ds.length) < 10 ^ places := by
    calc Nat.ofDigitChars 10 ds 0 * 10 ^ (places - ds.length)
        < 10 ^ ds.length * 10 ^ (places - ds.length) :=
          Nat.mul_lt_mul_of_pos_right (ofDigitChars_lt hds) (Nat.pow_pos (by decide))
      _ = 10 ^ places := by rw [← pow_add, Nat.add_sub_cancel' hlength]
  refine ⟨eq_of_ofDigitChars_eq ?_ (fun c hc => isDigit_of_mem_padded hc) ?_ ?_, hlt⟩
  · rw [length_padded hplaces hlt, List.length_append, List.length_replicate]
    omega
  · refine List.forall_mem_append.mpr ⟨hds, fun c hc => ?_⟩
    rw [List.eq_of_mem_replicate hc]
    rfl
  · rw [ofDigitChars_padded, Nat.ofDigitChars_append, Nat.ofDigitChars_replicate_zero,
      Nat.mul_comm]

theorem trimmedDigits_zero {places : Nat} (hplaces : 0 < places) :
    trimmedDigits places 0 = ['0'] := by
  have hdigits : ∀ c ∈ ([] : List Char), c.isDigit = true := nofun
  have hzeros := (padded_eq hplaces hdigits (Nat.zero_le places)).1
  rw [Nat.ofDigitChars_nil, Nat.zero_mul] at hzeros
  have hnone : trimZeros (padded places 0) = [] := by
    rw [hzeros]
    exact trimZeros_append_zeros (by simp) _
  rw [trimmedDigits, Nat.zero_div, Nat.zero_mod, hnone]
  rfl

/-- The digits of another number than zero are read as another number. -/
theorem trimmedDigits_ne_zero {places : Nat} (hplaces : 0 < places) {k : Nat} (hk : k ≠ 0) :
    trimmedDigits places k ≠ ['0'] := by
  intro hzero
  have hread := takeUnsigned?_trimmedDigits hplaces k endsNumeral_nil
  rw [hzero] at hread
  have hvalue : ((0 : Nat) : ℚ) = k / 10 ^ places := congrArg Prod.fst (Option.some.inj hread)
  rw [Nat.cast_zero, eq_comm, div_eq_zero_iff] at hvalue
  rcases hvalue with hnone | hpower
  · exact hk (by exact_mod_cast hnone)
  · exact absurd hpower (by positivity)

/-- Trimmed digits are a whole part and what may stand behind one. -/
theorem exists_parts_trimmedDigits {places : Nat} (hplaces : 0 < places) (k : Nat) :
    ∃ whole part, trimmedDigits places k = whole ++ part ∧ IsWhole whole ∧ IsPart places part := by
  have hmod : k % 10 ^ places < 10 ^ places := Nat.mod_lt k (Nat.pow_pos (by decide))
  refine ⟨_, _, rfl, isWhole_toDigits _, ?_⟩
  rw [Nat.pow_eq]
  by_cases hne : trimZeros (padded places (k % 10 ^ places)) = []
  · exact Or.inl (by rw [hne]; rfl)
  · exact Or.inr ⟨_, if_neg (by simpa using hne), isFraction_trimZeros hplaces hmod hne⟩

/-- A whole part and what stands behind it are the trimmed digits of a number. -/
theorem exists_trimmedDigits_eq {places : Nat} (hplaces : 0 < places) {whole part : List Char}
    (hwhole : IsWhole whole) (hpart : IsPart places part) :
    ∃ k, trimmedDigits places k = whole ++ part := by
  -- a fraction that is not there has no digits
  obtain ⟨ds, hds, hlength, hlast, hchars⟩ : ∃ ds : List Char, (∀ c ∈ ds, c.isDigit = true) ∧
      ds.length ≤ places ∧ (∀ c ∈ ds.getLast?, c ≠ '0') ∧
      part = if ds.isEmpty then [] else '.' :: ds := by
    rcases hpart with rfl | ⟨ds, rfl, hds⟩
    · exact ⟨[], by simp, Nat.zero_le places, by simp, rfl⟩
    · refine ⟨ds, hds.isDigit, hds.length_le, ?_, ?_⟩
      · obtain ⟨init, c, rfl, -, -, hc⟩ := hds
        simpa using hc.2
      · obtain ⟨init, c, rfl, -⟩ := hds
        simp
  obtain ⟨hpadded, hlt⟩ := padded_eq hplaces hds hlength
  have hten : 0 < 10 ^ places := Nat.pow_pos (by decide)
  refine ⟨10 ^ places * Nat.ofDigitChars 10 whole 0 +
    Nat.ofDigitChars 10 ds 0 * 10 ^ (places - ds.length), ?_⟩
  rw [trimmedDigits, Nat.pow_eq, Nat.mul_add_div hten, Nat.div_eq_of_lt hlt, Nat.add_zero,
    Nat.mul_add_mod, Nat.mod_eq_of_lt hlt, hpadded, hwhole.toDigits_eq,
    trimZeros_append_zeros hlast, hchars]

/-- A canonical numeral is a sign before the trimmed digits of a number. -/
theorem isCanonical_iff {places : Nat} (hplaces : 0 < places) (cs : List Char) :
    IsCanonical places cs ↔ ∃ (negative : Bool) (k : Nat), (negative = true → k ≠ 0) ∧
      cs = (if negative then ['-'] else []) ++ trimmedDigits places k := by
  constructor
  · -- the digits in front of and behind the point are those of one number of last places
    rintro ⟨hzero, sign, whole, part, rfl, hsign, hwhole, hpart⟩
    obtain ⟨k, hk⟩ := exists_trimmedDigits_eq hplaces hwhole hpart
    rcases hsign with rfl | rfl
    · refine ⟨false, k, fun h => ?_, ?_⟩
      · cases h
      · rw [hk]
        rfl
    · refine ⟨true, k, fun _ hnone => hzero ?_, ?_⟩
      · rw [List.append_assoc, ← hk, hnone, trimmedDigits_zero hplaces]
        rfl
      · rw [hk]
        rfl
  · rintro ⟨negative, k, hk, rfl⟩
    obtain ⟨whole, part, hparts, hwhole, hpart⟩ := exists_parts_trimmedDigits hplaces k
    refine ⟨fun hzero => ?_, if negative then ['-'] else [], whole, part, ?_, ?_, hwhole, hpart⟩
    · cases negative with
      | false =>
          have hdigit := isDigit_head_trimmedDigits places k '-'
          rw [show trimmedDigits places k = ['-', '0'] from hzero] at hdigit
          exact absurd (hdigit rfl) (by decide)
      | true => exact trimmedDigits_ne_zero hplaces (hk rfl) (List.cons.inj hzero).2
    · rw [hparts, List.append_assoc]
    · cases negative
      · exact Or.inl rfl
      · exact Or.inr rfl

/-! ## The text of a number -/

/-- Distances grow with what they are multiplied by. -/
theorem abs_sub_mul {c : ℚ} (hc : 0 < c) (a b : ℚ) : |a - b| * c = |a * c - b * c| := by
  rw [← sub_mul, abs_mul, abs_of_pos hc]

theorem takeNumeral?_signed {places : Nat} (hplaces : 0 < places) (negative : Bool) (k : Nat) :
    takeNumeral? ((if negative then ['-'] else []) ++ trimmedDigits places k) =
      some ((if negative then -(k : ℚ) else k) / 10 ^ places, []) := by
  have hread := takeUnsigned?_trimmedDigits hplaces k endsNumeral_nil
  rw [List.append_nil] at hread
  cases negative with
  | false =>
      have hplain := takeNumeral?_of_isDigit (trimmedDigits_ne_nil places k)
        (isDigit_head_trimmedDigits places k) []
      rw [List.append_nil, hread] at hplain
      exact hplain
  | true =>
      simp [takeNumeral?, hread, neg_div]

/-- A value has one canonical numeral. -/
theorem isCanonical_unique {places : Nat} (hplaces : 0 < places) {cs ds : List Char} {q : ℚ}
    (hcs : IsCanonical places cs) (hds : IsCanonical places ds)
    (hcsRead : takeNumeral? cs = some (q, [])) (hdsRead : takeNumeral? ds = some (q, [])) :
    cs = ds := by
  obtain ⟨negative, k, hk, rfl⟩ := (isCanonical_iff hplaces cs).mp hcs
  obtain ⟨negative', k', hk', rfl⟩ := (isCanonical_iff hplaces ds).mp hds
  rw [takeNumeral?_signed hplaces] at hcsRead hdsRead
  have hvalue : (if negative then -(k : ℚ) else k) / 10 ^ places =
      (if negative' then -(k' : ℚ) else k') / 10 ^ places :=
    congrArg Prod.fst (Option.some.inj (hcsRead.trans hdsRead.symm))
  rw [div_left_inj' (by positivity)] at hvalue
  have hint : (if negative then -(k : ℤ) else k) = if negative' then -(k' : ℤ) else k' := by
    have hcast : (((if negative then -(k : ℤ) else k) : ℤ) : ℚ) =
        ((if negative' then -(k' : ℤ) else k') : ℤ) := by
      push_cast
      exact hvalue
    exact_mod_cast hcast
  -- a sign tells the values apart, unless there is nothing behind it
  cases negative <;> cases negative' <;> simp at hint hk hk' ⊢
  · rw [hint]
  · omega
  · omega
  · rw [hint]

/-- The text of a finite number is a canonical numeral. -/
theorem isCanonical_trimmed {places : Nat} (hplaces : 0 < places) (negative : Bool) (code : Nat) :
    IsCanonical places (trimmed places negative code).toList := by
  rw [isCanonical_iff hplaces]
  refine ⟨negative && scaled places code != 0, scaled places code, ?_, ?_⟩
  · intro h
    simpa using (Bool.and_eq_true_iff.mp h).2
  · unfold trimmed
    dsimp only
    rw [String.toList_append, String.toList_ofList]
    split <;> rfl

/-- The text of a finite number is read as the number rounded to the places of the text. -/
theorem takeNumeral?_toList_trimmed {places : Nat} (hplaces : 0 < places) (negative : Bool)
    (code : Fin magnitudeCount) :
    takeNumeral? (trimmed places negative code).toList =
      some ((finite negative code).rounded places, []) := by
  have hread := takeNumeral?_trimmed hplaces negative code endsNumeral_nil
  rwa [List.append_nil] at hread

/-- Rounding moves a number by at most a half of the last place. -/
theorem abs_rounded_sub_le (places : Nat) (x : Number) :
    |x.rounded places - x.exactValue| ≤ 1 / 2 / 10 ^ places := by
  have hpower : (0 : ℚ) < 10 ^ places := by positivity
  have hclose := (isNearest_roundEven (x.exactValue * 10 ^ places)).abs_sub_le
  rwa [abs_sub_comm, le_div_iff₀ hpower, abs_sub_mul hpower, rounded,
    div_mul_cancel₀ _ hpower.ne']

theorem rounded_eq_iff (places : Nat) (x y : Number) :
    x.rounded places = y.rounded places ↔
      ∃ k, IsNearest (x.exactValue * 10 ^ places) k ∧
        IsNearest (y.exactValue * 10 ^ places) k := by
  rw [rounded, rounded, div_left_inj' (by positivity), Int.cast_inj]
  constructor
  · exact fun h => ⟨_, isNearest_roundEven _, h ▸ isNearest_roundEven _⟩
  · rintro ⟨k, hx, hy⟩
    rw [roundEven_eq hx, roundEven_eq hy]

/-- Two finite numbers have the same text when they are rounded to the same number. -/
theorem trimmed_eq_iff {places : Nat} (hplaces : 0 < places) (negative negative' : Bool)
    (code code' : Fin magnitudeCount) :
    trimmed places negative code = trimmed places negative' code' ↔
      (finite negative code).rounded places = (finite negative' code').rounded places := by
  have hread := takeNumeral?_toList_trimmed hplaces negative code
  have hread' := takeNumeral?_toList_trimmed hplaces negative' code'
  constructor
  · intro htext
    rw [htext, hread'] at hread
    exact (congrArg Prod.fst (Option.some.inj hread)).symm
  · intro hsame
    rw [hsame] at hread
    have htext := isCanonical_unique hplaces (isCanonical_trimmed hplaces negative code)
      (isCanonical_trimmed hplaces negative' code') hread hread'
    exact String.toList_inj.mp htext

end Number

/-- The text of a finite number is the one canonical numeral, of at most ten decimal places, that
denotes the exact value rounded to the nearest multiple of `10 ^ -10`, a half going to the even
multiple; so it is at most a half of `10 ^ -10` away from the number.  Two finite numbers have the
same text exactly when they are rounded to the same multiple, and what is not finite has none. -/
theorem Script.numeral?_canonical :
    (∀ (negative : Bool) (code : Fin magnitudeCount), ∃ (text : String) (k : ℤ),
      Script.numeral? (.finite negative code) = some text ∧
        IsNearest ((Number.finite negative code).exactValue * 10 ^ 10) k ∧
        IsCanonical 10 text.toList ∧
        takeNumeral? text.toList = some ((k : ℚ) / 10 ^ 10, []) ∧
        (∀ cs, IsCanonical 10 cs → takeNumeral? cs = some ((k : ℚ) / 10 ^ 10, []) →
          cs = text.toList) ∧
        |(k : ℚ) / 10 ^ 10 - (Number.finite negative code).exactValue| ≤ 1 / 2 / 10 ^ 10) ∧
    (∀ (negative negative' : Bool) (code code' : Fin magnitudeCount),
      Script.numeral? (.finite negative code) = Script.numeral? (.finite negative' code') ↔
        ∃ k, IsNearest ((Number.finite negative code).exactValue * 10 ^ 10) k ∧
          IsNearest ((Number.finite negative' code').exactValue * 10 ^ 10) k) ∧
    Script.numeral? .nan = none ∧ ∀ negative, Script.numeral? (.infinity negative) = none := by
  refine ⟨fun negative code => ?_, fun negative negative' code code' => ?_, rfl, fun _ => rfl⟩
  · have hcanonical := Number.isCanonical_trimmed (by decide : 0 < 10) negative code
    have hread := Number.takeNumeral?_toList_trimmed (by decide : 0 < 10) negative code
    refine ⟨_, _, rfl, isNearest_roundEven _, hcanonical, hread, fun cs hcs hvalue => ?_,
      Number.abs_rounded_sub_le 10 (.finite negative code)⟩
    exact Number.isCanonical_unique (by decide) hcs hcanonical hvalue hread
  · rw [← Number.rounded_eq_iff, ← Number.trimmed_eq_iff (by decide)]
    exact Option.some_inj

end SolidScript
