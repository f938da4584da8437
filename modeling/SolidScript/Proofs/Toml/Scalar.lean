import Mathlib.Tactic
import SolidScript.Proofs.Number.Canonical
import SolidScript.Proofs.Json.Spelled
import SolidScript.Toml.Scalar

/-!
# Numbers at the end of a line

A number that stands at the end of its line is read to the end of the line and no further: a whole
number (`scalar_toDigits`), and a number with a point, which is rounded once (`scalar_point`).  The
readers of other values are tried first, so each of them is shown to refuse what begins like a
number (`textValue_eq_none`, `moment_eq_none`).
-/

namespace SolidScript

theorem IsWhole.allDigits {ds : List Char} (h : IsWhole ds) : AllDigits ds :=
  fun c hc => Json.isDecimalDigit_of_isDigit (h.isDigit c hc)

namespace Toml

open Json.Numeral (signChars takeSign_signChars)

/-! ## Digits -/

/-- The text does not continue digits that stand before it. -/
def EndsDigits (rest : List Char) : Prop := ∀ c ∈ rest.head?, isDecimalDigit c = false ∧ c ≠ '_'

theorem endsDigits_newline (rest : List Char) : EndsDigits ('\n' :: rest) := by
  rintro c ⟨⟩
  decide

theorem endsDigits_point (rest : List Char) : EndsDigits ('.' :: rest) := by
  rintro c ⟨⟩
  decide

theorem ne_underscore_of_isDecimalDigit {c : Char} (h : isDecimalDigit c = true) : c ≠ '_' := by
  rintro rfl
  cases h

theorem moreDigits_end {fuel : Nat} {rest : List Char} (hrest : EndsDigits rest) :
    moreDigits isDecimalDigit fuel rest = ([], rest) := by
  cases fuel with
  | zero => rfl
  | succ fuel =>
      cases rest with
      | nil => rfl
      | cons c rest =>
          obtain ⟨hdigit, hscore⟩ := hrest c rfl
          unfold moreDigits
          split
          · rename_i heq
            exact absurd (List.cons.inj heq).1 hscore
          · rename_i heq
            cases heq
            rw [hdigit]
            rfl
          · rename_i heq
            cases heq

theorem moreDigits_append {ds rest : List Char} (hds : AllDigits ds) (hrest : EndsDigits rest)
    {fuel : Nat} (hfuel : ds.length ≤ fuel) :
    moreDigits isDecimalDigit fuel (ds ++ rest) = (ds, rest) := by
  induction ds generalizing fuel with
  | nil => exact moreDigits_end hrest
  | cons c ds ih =>
      obtain ⟨fuel, rfl⟩ := Nat.exists_eq_succ_of_ne_zero (Nat.ne_zero_of_lt hfuel)
      obtain ⟨hc, hds⟩ := List.forall_mem_cons.mp hds
      have hmore := ih hds (Nat.le_of_succ_le_succ hfuel)
      rw [List.cons_append]
      unfold moreDigits
      split
      · rename_i heq
        exact absurd (List.cons.inj heq).1 (ne_underscore_of_isDecimalDigit hc)
      · rename_i heq
        cases heq
        rw [if_pos hc, hmore]
      · rename_i heq
        cases heq

theorem digitRun_append {ds rest : List Char} (hne : ds ≠ []) (hds : AllDigits ds)
    (hrest : EndsDigits rest) : digitRun isDecimalDigit (ds ++ rest) = some (ds, rest) := by
  cases ds with
  | nil => exact absurd rfl hne
  | cons c ds =>
      obtain ⟨hc, hds⟩ := List.forall_mem_cons.mp hds
      have hmore : moreDigits isDecimalDigit (ds ++ rest).length (ds ++ rest) = (ds, rest) :=
        moreDigits_append hds hrest (by rw [List.length_append]; omega)
      rw [List.cons_append, digitRun, if_pos hc, hmore]

theorem wholeDigits_append {ds rest : List Char} (hds : IsWhole ds) (hrest : EndsDigits rest) :
    wholeDigits (ds ++ rest) = some (ds, rest) := by
  have hall := hds.allDigits
  rcases hds with rfl | ⟨c, ds, rfl, hc, -⟩
  · rfl
  · unfold wholeDigits
    split
    · rename_i heq
      exact absurd (List.cons.inj heq).1 hc.2
    · exact digitRun_append (List.cons_ne_nil c ds) hall hrest

/-! ## Readers that refuse numbers -/

/-- The text begins with a character of the given kind. -/
def Begins (kind : Char → Bool) (cs : List Char) : Prop := ∃ c rest, cs = c :: rest ∧ kind c = true

/-- A text that begins with one kind of character is no text that begins with another. -/
theorem Begins.ne_cons {kind : Char → Bool} {cs : List Char} (h : Begins kind cs) {d : Char}
    (hd : kind d = false) (rest : List Char) : cs ≠ d :: rest := by
  rintro rfl
  obtain ⟨c, others, heq, hc⟩ := h
  cases heq
  rw [hd] at hc
  cases hc

theorem Begins.imp {kind other : Char → Bool} {cs : List Char} (h : Begins kind cs)
    (himp : ∀ c, kind c = true → other c = true) : Begins other cs := by
  obtain ⟨c, rest, heq, hc⟩ := h
  exact ⟨c, rest, heq, himp c hc⟩

theorem Begins.append {kind : Char → Bool} {cs : List Char} (h : Begins kind cs)
    (rest : List Char) : Begins kind (cs ++ rest) := by
  obtain ⟨c, others, rfl, hc⟩ := h
  exact ⟨c, others ++ rest, rfl, hc⟩

theorem begins_of_forall {kind : Char → Bool} {cs : List Char} (hne : cs ≠ [])
    (h : ∀ c ∈ cs, kind c = true) : Begins kind cs := by
  obtain ⟨c, rest, rfl⟩ := List.exists_cons_of_ne_nil hne
  exact ⟨c, rest, rfl, h c List.mem_cons_self⟩

theorem begins_whole {ds : List Char} (hds : IsWhole ds) (rest : List Char) :
    Begins isDecimalDigit (ds ++ rest) :=
  (begins_of_forall hds.ne_nil hds.allDigits).append rest

/-- What a number begins with, if it is no word. -/
def isNumberStart (c : Char) : Bool := isDecimalDigit c || c == '-'

theorem textValue_eq_none {cs : List Char} (h : Begins isNumberStart cs) : textValue cs = none := by
  have hstring : string cs = none := by
    unfold string lineString
    split
    · exact absurd rfl (h.ne_cons (by decide) _)
    · exact absurd rfl (h.ne_cons (by decide) _)
    · split
      · exact absurd rfl (h.ne_cons (by decide) _)
      · exact absurd rfl (h.ne_cons (by decide) _)
      · rfl
  rw [textValue, hstring]
  rfl

theorem boolean_eq_none {cs : List Char} (h : Begins isNumberStart cs) : boolean cs = none := by
  unfold boolean
  split
  · exact absurd rfl (h.ne_cons (by decide) _)
  · exact absurd rfl (h.ne_cons (by decide) _)
  · rfl

/-- A number of fixed width is found only among the digits at the front. -/
theorem exists_of_fixedNumber {count low high n : Nat} {ds rest after : List Char} {c : Char}
    (hc : isDecimalDigit c = false)
    (h : fixedNumber count low high (ds ++ c :: rest) = some (n, after)) :
    count ≤ ds.length ∧ after = ds.drop count ++ c :: rest := by
  unfold fixedNumber at h
  dsimp only at h
  split at h
  · rename_i hfixed
    cases h
    have hle : count ≤ ds.length := by
      by_contra hlt
      -- otherwise the character behind the digits would be one of them
      have hmem : c ∈ (ds ++ c :: rest).take count := by
        rw [List.mem_take_iff_getElem]
        refine ⟨ds.length, ?_, ?_⟩
        · rw [List.length_append, List.length_cons]
          omega
        · rw [List.getElem_append_right le_rfl]
          simp
      rw [List.all_eq_true.mp hfixed.2.1 c hmem] at hc
      cases hc
    exact ⟨hle, by rw [List.drop_append_of_le_length hle]⟩
  · cases h

/-- A sign is found behind digits only where it stands behind them. -/
theorem take_drop_eq_none {ds rest : List Char} {c mark : Char} {count : Nat}
    (hds : AllDigits ds) (hmark : isDecimalDigit mark = false) (hc : c ≠ mark) :
    take [mark] (ds.drop count ++ c :: rest) = none := by
  cases hdrop : ds.drop count with
  | nil => exact if_neg hc
  | cons d more =>
      have hd : isDecimalDigit d = true := hds d (List.mem_of_mem_drop (hdrop ▸ List.mem_cons_self))
      refine if_neg ?_
      rintro rfl
      rw [hd] at hmark
      cases hmark

/-- Digits are no date and no time, unless one of their marks follows them. -/
theorem moment_eq_none {ds rest : List Char} {c : Char} (hds : AllDigits ds)
    (hc : isDecimalDigit c = false) (hdash : c = '-' → ds = []) (hcolon : c ≠ ':') :
    moment (ds ++ c :: rest) = none := by
  have hdate : date? (ds ++ c :: rest) = none := by
    unfold date?
    cases hyear : fixedNumber 4 0 9999 (ds ++ c :: rest) with
    | none => rfl
    | some found =>
        -- a date has a dash behind its year
        obtain ⟨year, after⟩ := found
        obtain ⟨hle, rfl⟩ := exists_of_fixedNumber hc hyear
        have hmark : c ≠ '-' := by
          intro h
          rw [hdash h] at hle
          cases hle
        change (take ['-'] (ds.drop 4 ++ c :: rest) >>= _) = none
        rw [take_drop_eq_none hds rfl hmark]
        rfl
  have htime : time? (ds ++ c :: rest) = none := by
    unfold time?
    cases hhour : fixedNumber 2 0 23 (ds ++ c :: rest) with
    | none => rfl
    | some found =>
        obtain ⟨hour, after⟩ := found
        obtain ⟨-, rfl⟩ := exists_of_fixedNumber hc hhour
        change (take [':'] (ds.drop 2 ++ c :: rest) >>= _) = none
        rw [take_drop_eq_none hds rfl hcolon]
        rfl
  rw [moment, hdate, htime]
  rfl

/-! ## Numbers -/

/-- A whole part behind an optional minus sign, with anything behind it. -/
theorem takeSign_whole (negative : Bool) {ds : List Char} (hds : IsWhole ds) (rest : List Char) :
    takeSign (signChars negative ++ (ds ++ rest)) = (negative, ds ++ rest) := by
  refine takeSign_signChars negative (by simp [hds.ne_nil]) fun c hc => ?_
  rw [List.head?_append_of_ne_nil _ hds.ne_nil] at hc
  exact hds.allDigits c (List.mem_of_mem_head? hc)

theorem begins_signed (negative : Bool) {ds : List Char} (hds : IsWhole ds) (rest : List Char) :
    Begins isNumberStart (signChars negative ++ (ds ++ rest)) := by
  cases negative with
  | true => exact ⟨'-', ds ++ rest, rfl, by decide⟩
  | false => exact (begins_whole hds rest).imp fun c hc => by rw [isNumberStart, hc, Bool.true_or]

theorem finiteFloat_whole (negative : Bool) {ds : List Char} (hds : IsWhole ds)
    (rest : List Char) : finiteFloat (signChars negative ++ (ds ++ '\n' :: rest)) = none := by
  unfold finiteFloat
  rw [takeSign_whole negative hds]
  dsimp only
  rw [wholeDigits_append hds (endsDigits_newline rest)]
  rfl

/-- A number with a point is rounded once. -/
theorem finiteFloat_point (negative : Bool) {ds part : List Char} (hds : IsWhole ds)
    (hne : part ≠ []) (hpart : AllDigits part) (rest : List Char) :
    finiteFloat (signChars negative ++ (ds ++ '.' :: (part ++ '\n' :: rest))) =
      (nearestFloat negative ds part 0).map (·, '\n' :: rest) := by
  unfold finiteFloat
  rw [takeSign_whole negative hds]
  dsimp only
  rw [wholeDigits_append hds (endsDigits_point _)]
  split
  · rename_i heq
    cases heq
  · rename_i heq
    cases heq
    rw [digitRun_append hne hpart (endsDigits_newline rest)]
    rfl
  · rename_i hpoint heq
    cases heq
    exact absurd rfl (hpoint _)

theorem specialFloat_whole {ds : List Char} (hds : IsWhole ds) (rest : List Char) :
    specialFloat (ds ++ rest) = none := by
  have hsign : takeSign (ds ++ rest) = (false, ds ++ rest) := takeSign_whole false hds rest
  have hbegins := begins_whole hds rest
  unfold specialFloat
  rw [hsign]
  dsimp only
  split
  · rename_i heq
    exact absurd heq (hbegins.ne_cons (by decide) _)
  · rename_i heq
    exact absurd heq (hbegins.ne_cons (by decide) _)
  · rfl

theorem integer_whole {ds : List Char} (hds : IsWhole ds) (rest : List Char) :
    integer (ds ++ '\n' :: rest) =
      (boundedInteger (digitsValue ds)).map (·, '\n' :: rest) := by
  have hsign : takeSign (ds ++ '\n' :: rest) = (false, ds ++ '\n' :: rest) :=
    takeSign_whole false hds _
  -- no letter of another base stands behind a zero
  have hbase : ∀ (mark : Char) (more : List Char), isDecimalDigit mark = false → mark ≠ '\n' →
      ds ++ '\n' :: rest ≠ '0' :: mark :: more := by
    intro mark more hmark hend heq
    rcases hds with rfl | ⟨c, others, rfl, hc, -⟩
    · exact hend (List.cons.inj (List.cons.inj heq).2).1.symm
    · exact hc.2 (List.cons.inj heq).1
  unfold integer
  split
  · rename_i heq
    exact absurd heq (hbase 'x' _ rfl (by decide))
  · rename_i heq
    exact absurd heq (hbase 'o' _ rfl (by decide))
  · rename_i heq
    exact absurd heq (hbase 'b' _ rfl (by decide))
  · rw [hsign]
    dsimp only
    rw [wholeDigits_append hds (endsDigits_newline rest)]
    rfl

/-! ## Values -/

theorem scalar_of_number {cs : List Char} (hstart : Begins isNumberStart cs)
    (hmoment : moment cs = none) :
    scalar cs = orElse finiteFloat (orElse specialFloat integer) cs := by
  unfold scalar orElse
  rw [textValue_eq_none hstart, boolean_eq_none hstart, hmoment]

/-- The digits of a whole number of 64 bits, at the end of a line. -/
theorem scalar_toDigits {n : Nat} (hn : n < 2 ^ 63) (rest : List Char) :
    scalar (Nat.toDigits 10 n ++ '\n' :: rest) = some (.integer n, '\n' :: rest) := by
  have hds : IsWhole (Nat.toDigits 10 n) := isWhole_toDigits n
  have hmoment : moment (Nat.toDigits 10 n ++ '\n' :: rest) = none :=
    moment_eq_none hds.allDigits rfl (fun h => absurd h (by decide)) (by decide)
  have hstart : Begins isNumberStart (Nat.toDigits 10 n ++ '\n' :: rest) :=
    begins_signed false hds _
  have hfloat : finiteFloat (Nat.toDigits 10 n ++ '\n' :: rest) = none :=
    finiteFloat_whole false hds rest
  have hbound : boundedInteger (n : Int) = some (.integer n) := by
    have hpower : Int.pow 2 63 = 2 ^ 63 := rfl
    rw [boundedInteger, hpower, if_pos ⟨by omega, by omega⟩]
  rw [scalar_of_number hstart hmoment, orElse, hfloat, orElse,
    specialFloat_whole hds, integer_whole hds, Json.Numeral.digitsValue_toDigits, hbound]
  rfl

/-- A number with a point, at the end of a line. -/
theorem scalar_point (negative : Bool) {ds part : List Char} (hds : IsWhole ds) (hne : part ≠ [])
    (hpart : AllDigits part) {x : Number} (hx : x ≠ .infinity false)
    (hread : Number.ofScientific negative (digitsValue (ds ++ part)) (-(part.length : Int)) = x)
    (rest : List Char) :
    scalar (signChars negative ++ (ds ++ '.' :: (part ++ '\n' :: rest))) =
      some (.float x, '\n' :: rest) := by
  have hmoment : moment (signChars negative ++ (ds ++ '.' :: (part ++ '\n' :: rest))) = none := by
    cases negative with
    | true =>
        have hnone : AllDigits [] := nofun
        exact moment_eq_none hnone rfl (fun _ => rfl) (by decide)
    | false => exact moment_eq_none hds.allDigits rfl (fun h => absurd h (by decide)) (by decide)
  have hnearest : nearestFloat negative ds part 0 = some (.float x) := by
    unfold nearestFloat
    rw [Int.zero_sub, hread]
    split
    · exact absurd rfl hx
    · rfl
  rw [scalar_of_number (begins_signed negative hds _) hmoment, orElse,
    finiteFloat_point negative hds hne hpart, hnearest]
  rfl

end Toml
end SolidScript
