import Mathlib.Tactic
import SolidScript.Json.Mismatch
import SolidScript.Proofs.Json.Numeral

/-!
# Reading a written tree

A tree is written without blanks, so its text is cut into the tokens it was put together from
(`spells_write`), and the machine that builds drafts goes over these tokens without breaking off
(`advance_written`).  What a reader gets to see of the text of a tree is therefore the tree itself
with two changes: a number is what is read from its text, and a number without a text is nothing
(`ofText_write`).
-/

namespace SolidScript
namespace Json

/-! ## What a tree is written as -/

/-- The token of a number. -/
def Amount.token (amount : Amount) : Token :=
  match amount.write with
  | none => .null
  | some s => .number (Numeral.ofChars s.toList).amount

mutual
/-- The tokens of a tree. -/
def written : Json → List Token
  | null => [.null]
  | bool b => [.bool b]
  | number amount => [amount.token]
  | text s => [.text (some s)]
  | array items => .openArray :: ([.comma].intercalate (writtenItems items) ++ [.closeArray])
  | object fields => .openObject :: ([.comma].intercalate (writtenFields fields) ++ [.closeObject])

/-- The tokens of each item. -/
def writtenItems : List Json → List (List Token)
  | [] => []
  | item :: rest => written item :: writtenItems rest

/-- The tokens of each field. -/
def writtenFields : List (String × Json) → List (List Token)
  | [] => []
  | (name, value) :: rest => (.text (some name) :: .colon :: written value) :: writtenFields rest
end

/-- What is seen of a number that was written. -/
def Amount.draft (amount : Amount) : Draft :=
  match amount.write with
  | none => .null
  | some s => .number (Numeral.ofChars s.toList).amount

mutual
/-- What is seen of a tree that was written. -/
def draft : Json → Draft
  | null => .null
  | bool b => .bool b
  | number amount => amount.draft
  | text s => .text (some s)
  | array items => .array (draftItems items)
  | object fields => .object (draftFields fields)

def draftItems : List Json → Items
  | [] => .ended
  | item :: rest => .item (draft item) (draftItems rest)

def draftFields : List (String × Json) → Fields
  | [] => .ended
  | (name, value) :: rest => .field (some name) (draft value) (draftFields rest)
end

/-! ## Cutting characters into tokens -/

/-- The tokens of a text, given those that were found before it, last one first. -/
def cut (found : List Token) (cs : List Char) : List Token :=
  (cs.foldl Scan.advance ⟨some .between, found⟩).finish

/-- A mark that may stand behind a value or a name. -/
def IsMark (c : Char) : Prop := c = ',' ∨ c = ':' ∨ c = ']' ∨ c = '\x7d'

instance : DecidablePred IsMark := fun c =>
  inferInstanceAs (Decidable (c = ',' ∨ c = ':' ∨ c = ']' ∨ c = '\x7d'))

/-- Does what follows, if anything does, begin with such a mark? -/
def AtMark (rest : List Char) : Prop := ∀ c ∈ rest.head?, IsMark c

theorem atMark_cons {c : Char} (h : IsMark c) (rest : List Char) : AtMark (c :: rest) := by
  intro d hd
  cases hd
  exact h

/-- The characters are cut into the tokens before every mark and before the end. -/
def Spells (cs : List Char) (ts : List Token) : Prop :=
  ∀ found rest, AtMark rest → cut found (cs ++ rest) = cut (ts.reverse ++ found) rest

theorem cut_mark {c : Char} {t : Token} (h : start c = some ([t], .between)) (found : List Token)
    (rest : List Char) : cut found (c :: rest) = cut (t :: found) rest := by
  simp [cut, Scan.advance, step, h, Scan.add]

theorem spells_nil : Spells [] [] := fun _ _ _ => rfl

theorem Spells.append {cs ds : List Char} {ts us : List Token} {c : Char} {t : Token}
    (hcs : Spells cs ts) (hmark : IsMark c) (hc : start c = some ([t], .between))
    (hds : Spells ds us) : Spells (cs ++ c :: ds) (ts ++ t :: us) := by
  intro found rest hrest
  rw [List.append_assoc, List.cons_append, hcs found _ (atMark_cons hmark _),
    cut_mark hc, hds _ rest hrest]
  simp

/-- Parts that are spelled are spelled with commas between them. -/
theorem spells_intercalate {parts : List (List Char)} {lists : List (List Token)}
    (h : List.Forall₂ Spells parts lists) :
    Spells ([','].intercalate parts) ([.comma].intercalate lists) := by
  induction h with
  | nil => exact spells_nil
  | @cons cs ts parts lists hcs hrest ih =>
      cases hrest with
      | nil => simpa using hcs
      | cons hnext hmore =>
          rw [List.intercalate_cons_cons, List.intercalate_cons_cons, List.append_assoc,
            List.append_assoc]
          exact hcs.append (by decide) rfl ih

theorem Spells.enclose {cs : List Char} {ts : List Token} {left right : Char} {t u : Token}
    (hleft : start left = some ([t], .between)) (hcs : Spells cs ts) (hmark : IsMark right)
    (hright : start right = some ([u], .between)) :
    Spells (left :: (cs ++ [right])) (t :: (ts ++ [u])) := by
  intro found rest hrest
  rw [List.cons_append, cut_mark hleft]
  exact (hcs.append hmark hright spells_nil) (t :: found) rest hrest |>.trans (by simp)

/-! ## Strings -/

theorem hexValue?_digitChar : ∀ d < 16, hexValue? (Nat.digitChar d) = some d := by decide

/-- A string in the course of being read, all of whose escapes so far are characters. -/
def inText (seen : List Char) (found : List Token) : Scan :=
  ⟨some (.text ⟨seen, none, true⟩), found⟩

/-- A control character is read back from its code. -/
theorem foldl_code {c : Char} (hc : c.toNat < 0x20) (seen : List Char) (found : List Token) :
    ['\\', 'u', '0', '0', Nat.digitChar (c.toNat / 16), Nat.digitChar (c.toNat % 16)].foldl
      Scan.advance (inText seen found) = inText (c :: seen) found := by
  have hhigh := hexValue?_digitChar (c.toNat / 16) (by omega)
  have hlow := hexValue?_digitChar (c.toNat % 16) (by omega)
  have hcode : 16 * (c.toNat / 16) + c.toNat % 16 = c.toNat := Nat.div_add_mod c.toNat 16
  have hplain : ¬ 0xd800 ≤ c.toNat ∧ ¬ 0xdc00 ≤ c.toNat := by omega
  have hunit : (⟨seen, none, true⟩ : TextRead).pushUnit c.toNat = ⟨c :: seen, none, true⟩ := by
    simp [TextRead.pushUnit, TextRead.push, hplain]
  -- the two zeros in front leave the value at nothing
  have hzeros : ['\\', 'u', '0', '0'].foldl Scan.advance (inText seen found) =
      ⟨some (.code ⟨seen, none, true⟩ 2 0), found⟩ := rfl
  change List.foldl Scan.advance (['\\', 'u', '0', '0'].foldl Scan.advance (inText seen found))
    [Nat.digitChar (c.toNat / 16), Nat.digitChar (c.toNat % 16)] = _
  rw [hzeros]
  simp [Scan.advance, step, hhigh, hlow, hcode, hunit, Scan.add, inText]

/-- A character is read back from the way it is written in a string. -/
theorem foldl_escapeChar (c : Char) (seen : List Char) (found : List Token) :
    (escapeChar c).foldl Scan.advance (inText seen found) = inText (c :: seen) found := by
  unfold escapeChar
  -- one escape for each case of the writer, and the characters that are written as they are
  split_ifs with hquote hslash hback hform hfeed hreturn htab hcontrol
  · subst hquote; rfl
  · subst hslash; rfl
  · subst hback; rfl
  · subst hform; rfl
  · subst hfeed; rfl
  · subst hreturn; rfl
  · subst htab; rfl
  · exact foldl_code hcontrol seen found
  · simp [inText, Scan.advance, step, hquote, hslash, hcontrol, Scan.add, TextRead.push]

theorem foldl_escapeChars (cs seen : List Char) (found : List Token) :
    (cs.flatMap escapeChar).foldl Scan.advance (inText seen found) =
      inText (cs.reverse ++ seen) found := by
  induction cs generalizing seen with
  | nil => rfl
  | cons c cs ih =>
      rw [List.flatMap_cons, List.foldl_append, foldl_escapeChar, ih]
      simp

theorem spells_writeText (s : String) : Spells (writeText s).toList [.text (some s)] := by
  intro found rest _
  rw [writeText, String.toList_ofList, cut]
  have hstart : Scan.advance ⟨some .between, found⟩ '"' = inText [] found := rfl
  have hend : Scan.advance (inText s.toList.reverse found) '"' =
      ⟨some .between, .text (some s) :: found⟩ := by
    simp [inText, Scan.advance, step, TextRead.finish, Scan.add]
  simp only [List.cons_append, List.foldl_cons, List.foldl_append, List.foldl_nil, hstart,
    foldl_escapeChars, List.append_nil, hend]
  rfl

/-! ## Numbers -/

theorem NumberPlace.Leads.foldl_advance {p q : NumberPlace} {cs : List Char} (h : p.Leads cs q)
    (seen : List Char) (found : List Token) :
    cs.foldl Scan.advance ⟨some (.number p seen), found⟩ =
      ⟨some (.number q (cs.reverse ++ seen)), found⟩ := by
  induction h generalizing seen with
  | stay p => rfl
  | @step p q r c cs hc _ ih =>
      have hadvance : Scan.advance ⟨some (.number p seen), found⟩ c =
          ⟨some (.number q (c :: seen)), found⟩ := by
        simp [Scan.advance, Json.step, hc, Scan.add]
      rw [List.foldl_cons, hadvance, ih]
      simp

theorem start_of_next?_sign {c : Char} {q : NumberPlace} (h : NumberPlace.sign.next? c = some q) :
    start c = some ([], .number q [c]) := by
  by_cases hzero : c = '0'
  · subst hzero
    cases h
    rfl
  · simp only [NumberPlace.next?, if_neg hzero] at h
    split at h
    · rename_i hdigit
      cases h
      -- a digit is none of the characters that are looked for before it
      have hne : ∀ d, isDecimalDigit d = false → c ≠ d := by
        rintro d hd rfl
        rw [hd] at hdigit
        cases hdigit
      simp [start, hne ' ' rfl, hne '\n' rfl, hne '\t' rfl, hne '\r' rfl, hne '[' rfl, hne ']' rfl,
        hne '\x7b' rfl, hne '\x7d' rfl, hne ',' rfl, hne ':' rfl, hne '"' rfl, hne '-' rfl, hzero,
        hdigit]
    · cases h

/-- A numeral is read to a place where a number may end. -/
theorem IsNumeral.foldl_advance {cs : List Char} (h : IsNumeral cs) (found : List Token) :
    ∃ q : NumberPlace, q.endsBefore none = true ∧
      cs.foldl Scan.advance ⟨some .between, found⟩ = ⟨some (.number q cs.reverse), found⟩ := by
  cases h with
  | plain h =>
      obtain ⟨q, hleads, hend⟩ := h
      cases hleads with
      | stay => cases hend
      | @step _ p _ c cs hc hcs =>
          have hfirst : Scan.advance ⟨some .between, found⟩ c = ⟨some (.number p [c]), found⟩ := by
            simp [Scan.advance, step, start_of_next?_sign hc, Scan.add]
          refine ⟨q, hend, ?_⟩
          rw [List.foldl_cons, hfirst, hcs.foldl_advance, List.reverse_cons]
  | minus h =>
      obtain ⟨q, hleads, hend⟩ := h
      refine ⟨q, hend, ?_⟩
      exact (hleads.foldl_advance ['-'] found).trans (by rw [List.reverse_cons])

theorem finish_number {q : NumberPlace} (h : q.endsBefore none = true) (seen : List Char)
    (found : List Token) {rest : List Char} (hrest : AtMark rest) :
    (rest.foldl Scan.advance ⟨some (.number q seen), found⟩).finish =
      cut (numberToken seen :: found) rest := by
  cases rest with
  | nil => simp [cut, Scan.finish, Scan.close, Scan.add, h]
  | cons c rest =>
      -- a mark ends the number and is read as if the number had not been there
      have hsame : Scan.advance ⟨some (.number q seen), found⟩ c =
          Scan.advance ⟨some .between, numberToken seen :: found⟩ c := by
        rcases hrest c rfl with rfl | rfl | rfl | rfl <;> cases q <;> first | rfl | cases h
      rw [List.foldl_cons, hsame]
      rfl

theorem IsNumeral.spells {cs : List Char} (h : IsNumeral cs) :
    Spells cs [.number (Numeral.ofChars cs).amount] := by
  intro found rest hrest
  obtain ⟨q, hend, hfold⟩ := h.foldl_advance found
  rw [cut, List.foldl_append, hfold, finish_number hend _ _ hrest, numberToken,
    List.reverse_reverse]
  rfl

theorem spells_null : Spells "null".toList [.null] := fun _ _ _ => rfl

theorem spells_bool (b : Bool) : Spells (write (.bool b)).toList [.bool b] := by
  cases b <;> exact fun _ _ _ => rfl

theorem spells_amount (amount : Amount) :
    Spells (amount.write.getD "null").toList [amount.token] := by
  unfold Amount.token
  cases h : amount.write with
  | none => exact spells_null
  | some text => exact (amount.isNumeral_write h).spells

/-! ## Trees -/

mutual
/-- The text of a tree is cut into the tokens of the tree. -/
theorem spells_write (json : Json) : Spells json.write.toList json.written := by
  cases json with
  | null => exact spells_null
  | bool b => exact spells_bool b
  | number amount => exact spells_amount amount
  | text s => exact spells_writeText s
  | array items =>
      have hitems := spells_intercalate (spells_writeItems items)
      simpa [write, written, String.toList_intercalate] using
        Spells.enclose rfl hitems (by decide : IsMark ']') rfl
  | object fields =>
      have hfields := spells_intercalate (spells_writeFields fields)
      simpa [write, written, String.toList_intercalate] using
        Spells.enclose rfl hfields (by decide : IsMark '\x7d') rfl

theorem spells_writeItems (items : List Json) :
    List.Forall₂ Spells ((writeItems items).map String.toList) (writtenItems items) := by
  cases items with
  | nil => exact .nil
  | cons item rest => exact .cons (spells_write item) (spells_writeItems rest)

theorem spells_writeFields (fields : List (String × Json)) :
    List.Forall₂ Spells ((writeFields fields).map String.toList) (writtenFields fields) := by
  cases fields with
  | nil => exact .nil
  | cons field rest =>
      obtain ⟨name, value⟩ := field
      refine .cons ?_ (spells_writeFields rest)
      have hfield :=
        (spells_writeText name).append (by decide : IsMark ':') rfl (spells_write value)
      simpa using hfield
end

theorem tokens_write (json : Json) : tokens json.write = json.written := by
  have hspells := spells_write json [] [] (fun _ h => by cases h)
  rw [List.append_nil, List.append_nil] at hspells
  change cut [] json.write.toList = json.written
  rw [hspells]
  simp [cut, Scan.finish, Scan.close, Scan.add]

/-! ## Building drafts -/

theorem stepValue_token (amount : Amount) (orEnd : Bool) (stack : List Container) :
    stepValue orEnd stack amount.token = .running (.after amount.draft) stack := by
  unfold Amount.token Amount.draft
  cases amount.write <;> rfl

theorem intercalate_cons_eq_flatMap {α : Type} (sep first : List α) (rest : List (List α)) :
    sep.intercalate (first :: rest) = first ++ rest.flatMap (sep ++ ·) := by
  induction rest generalizing first with
  | nil => simp
  | cons next more ih => rw [List.intercalate_cons_cons, ih, List.flatMap_cons, List.append_assoc,
      List.append_assoc]

mutual
/-- The tokens of a tree make its draft, whatever is around it.  The first item of an array is read
here and the others by `advance_moreItems`, which starts behind an item that is complete. -/
theorem advance_written (json : Json) (orEnd : Bool) (stack : List Container) :
    json.written.foldl Progress.advance (.running (.value orEnd) stack) =
      .running (.after json.draft) stack := by
  cases json with
  | null => rfl
  | bool b => rfl
  | number amount => exact stepValue_token amount orEnd stack
  | text s => rfl
  | array items =>
      cases items with
      | nil => rfl
      | cons item rest =>
          -- the bracket opens an array in which the first item is read
          have hitem := advance_written item true (.items [] :: stack)
          rw [written, writtenItems, intercalate_cons_eq_flatMap, List.append_assoc,
            List.foldl_cons, List.foldl_append]
          change List.foldl Progress.advance (item.written.foldl Progress.advance
            (.running (.value true) (.items [] :: stack))) _ = _
          rw [hitem, advance_moreItems rest]
          rfl
  | object fields =>
      cases fields with
      | nil => rfl
      | cons field rest =>
          obtain ⟨name, value⟩ := field
          have hvalue := advance_written value false (.fields [] (some name) :: stack)
          rw [written, writtenFields, intercalate_cons_eq_flatMap, List.append_assoc,
            List.foldl_cons, List.foldl_append]
          change List.foldl Progress.advance (value.written.foldl Progress.advance
            (.running (.value false) (.fields [] (some name) :: stack))) _ = _
          rw [hvalue, advance_moreFields rest]
          rfl

/-- Behind an item, the tokens of some more items make the array of them all. -/
theorem advance_moreItems (items : List Json) (d : Draft) (seen : List Draft)
    (stack : List Container) :
    List.foldl Progress.advance (.running (.after d) (.items seen :: stack))
        ((writtenItems items).flatMap ([.comma] ++ ·) ++ [.closeArray]) =
      .running (.after (.array (Items.before (draftItems items) (d :: seen)))) stack := by
  cases items with
  | nil => rfl
  | cons item rest =>
      have hitem := advance_written item false (.items (d :: seen) :: stack)
      rw [writtenItems, List.flatMap_cons, List.append_assoc, List.append_assoc,
        List.singleton_append, List.foldl_cons, List.foldl_append]
      change List.foldl Progress.advance (item.written.foldl Progress.advance
        (.running (.value false) (.items (d :: seen) :: stack))) _ = _
      rw [hitem]
      exact advance_moreItems rest item.draft (d :: seen) stack

theorem advance_moreFields (fields : List (String × Json)) (d : Draft)
    (seen : List (Option String × Draft)) (last : Option String) (stack : List Container) :
    List.foldl Progress.advance (.running (.after d) (.fields seen last :: stack))
        ((writtenFields fields).flatMap ([.comma] ++ ·) ++ [.closeObject]) =
      .running (.after (.object (Fields.before (draftFields fields) ((last, d) :: seen))))
        stack := by
  cases fields with
  | nil => rfl
  | cons field rest =>
      obtain ⟨name, value⟩ := field
      have hvalue := advance_written value false (.fields ((last, d) :: seen) (some name) :: stack)
      rw [writtenFields, List.flatMap_cons, List.append_assoc, List.append_assoc,
        List.singleton_append, List.foldl_cons, List.foldl_append]
      change List.foldl Progress.advance (value.written.foldl Progress.advance
        (.running (.value false) (.fields ((last, d) :: seen) (some name) :: stack))) _ = _
      rw [hvalue]
      exact advance_moreFields rest value.draft ((last, d) :: seen) (some name) stack
end

/-- What a reader sees of the text of a tree. -/
theorem ofText_write (json : Json) : Reading.ofText json.write = ⟨json.draft, false⟩ := by
  rw [Reading.ofText, tokens_write, Reading.ofTokens, advance_written]
  rfl

theorem readText_write {α : Type} (decode : Draft → ReadResult α) (json : Json) :
    readText decode json.write = decode json.draft := by
  rw [readText, ofText_write]
  cases decode json.draft <;> rfl

end Json
end SolidScript
