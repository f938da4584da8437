import Mathlib.Tactic.SplitIfs
import SolidScript.Text.Quoted

/-!
# Reading string literals

`unquote?` starts at an opening quote, undoes the escapes and stops at the first quote that is not
escaped; any other escape and a raw line end are refused.  It reads back every literal that
`quoteChars` writes and leaves what follows it (`unquote?_quoteChars`).

What it takes is told by a grammar (`IsBody`, `unquote?_eq_some_iff`).  A quoted text therefore ends
by itself: what stands behind it never changes what is read (`quote_isSelfDelimiting`).
-/

namespace SolidScript
namespace Text

/-- The character that an escape stands for. -/
def unescape? (c : Char) : Option Char :=
  if c = '"' then some '"'
  else if c = '\\' then some '\\'
  else if c = 'n' then some '\n'
  else if c = 'r' then some '\r'
  else if c = 't' then some '\t'
  else none

/-- Reads up to the quote that ends a literal. -/
def takeLiteral? : List Char → Option (List Char × List Char)
  | [] => none
  | ['\\'] => none
  | '\\' :: c :: rest => do
    let meant ← unescape? c
    let (text, after) ← takeLiteral? rest
    some (meant :: text, after)
  | c :: rest =>
    if c = '"' then some ([], rest)
    else if c = '\n' ∨ c = '\r' then none
    else do
      let (text, after) ← takeLiteral? rest
      some (c :: text, after)

/-- Reads the literal at the front. -/
def unquote? : List Char → Option (List Char × List Char)
  | '"' :: rest => takeLiteral? rest
  | _ => none

theorem takeLiteral?_end (rest : List Char) : takeLiteral? ('"' :: rest) = some ([], rest) := rfl

theorem takeLiteral?_escape {c meant : Char} (h : unescape? c = some meant) (rest : List Char) :
    takeLiteral? ('\\' :: c :: rest) =
      (takeLiteral? rest).map fun (text, after) => (meant :: text, after) := by
  rw [takeLiteral?, h]
  cases takeLiteral? rest <;> rfl

theorem takeLiteral?_plain {c : Char} (hquote : c ≠ '"') (hslash : c ≠ '\\')
    (hfeed : c ≠ '\n') (hreturn : c ≠ '\r') (rest : List Char) :
    takeLiteral? (c :: rest) =
      (takeLiteral? rest).map fun (text, after) => (c :: text, after) := by
  rw [takeLiteral?, if_neg hquote, if_neg (by simp [hfeed, hreturn])]
  · cases takeLiteral? rest <;> rfl
  · exact fun h => absurd h hslash
  · exact fun _ _ h => absurd h hslash

/-- A character of a text is read back from the way it is written in a literal. -/
theorem takeLiteral?_quoteChar (c : Char) (rest : List Char) :
    takeLiteral? (quoteChar c ++ rest) =
      (takeLiteral? rest).map fun (text, after) => (c :: text, after) := by
  unfold quoteChar
  -- one escape for each case of the writer, and the characters that are written as they are
  split_ifs with hquote hslash hfeed hreturn htab
  · subst hquote
    exact takeLiteral?_escape rfl rest
  · subst hslash
    exact takeLiteral?_escape rfl rest
  · subst hfeed
    exact takeLiteral?_escape rfl rest
  · subst hreturn
    exact takeLiteral?_escape rfl rest
  · subst htab
    exact takeLiteral?_escape rfl rest
  · exact takeLiteral?_plain hquote hslash hfeed hreturn rest

theorem takeLiteral?_flatMap_quoteChar (cs rest : List Char) :
    takeLiteral? (cs.flatMap quoteChar ++ '"' :: rest) = some (cs, rest) := by
  induction cs with
  | nil => exact takeLiteral?_end rest
  | cons c cs ih =>
      rw [List.flatMap_cons, List.append_assoc, takeLiteral?_quoteChar, ih]
      rfl

theorem unquote?_quoteChars (cs rest : List Char) :
    unquote? (quoteChars cs ++ rest) = some (cs, rest) := by
  change takeLiteral? ((cs.flatMap quoteChar ++ ['"']) ++ rest) = some (cs, rest)
  rw [List.append_assoc]
  exact takeLiteral?_flatMap_quoteChar cs rest

theorem length_le_of_takeLiteral? {cs text rest : List Char}
    (h : takeLiteral? cs = some (text, rest)) : rest.length ≤ cs.length := by
  fun_induction takeLiteral? cs generalizing text rest with
  | case1 => cases h
  | case2 => cases h
  | case3 c tail ih =>
      simp only [Option.bind_eq_bind, Option.bind_eq_some_iff] at h
      obtain ⟨meant, -, ⟨inner, after⟩, hinner, heq⟩ := h
      cases heq
      have hle := ih hinner
      simp only [List.length_cons]
      omega
  | case4 tail =>
      cases h
      exact Nat.le_succ _
  | case5 => cases h
  | case6 c tail _ _ _ _ ih =>
      simp only [Option.bind_eq_bind, Option.bind_eq_some_iff] at h
      obtain ⟨⟨inner, after⟩, hinner, heq⟩ := h
      cases heq
      exact Nat.le_succ_of_le (ih hinner)

/-! ## Literals end by themselves -/

/-- The characters between the quotes of a literal, with the text that they stand for. -/
inductive IsBody : List Char → List Char → Prop where
  | nil : IsBody [] []
  | escape {c meant : Char} {body text : List Char} (hc : unescape? c = some meant)
      (hbody : IsBody body text) : IsBody ('\\' :: c :: body) (meant :: text)
  | plain {c : Char} {body text : List Char} (hc : c ∉ ['"', '\\', '\n', '\r'])
      (hbody : IsBody body text) : IsBody (c :: body) (c :: text)

theorem IsBody.takeLiteral?_eq {body text : List Char} (h : IsBody body text) (rest : List Char) :
    takeLiteral? (body ++ '"' :: rest) = some (text, rest) := by
  induction h with
  | nil => exact takeLiteral?_end rest
  | escape hc _ ih =>
      rw [List.cons_append, List.cons_append, takeLiteral?_escape hc, ih]
      rfl
  | plain hc _ ih =>
      simp only [List.mem_cons, List.not_mem_nil, or_false, not_or] at hc
      obtain ⟨hquote, hslash, hfeed, hreturn⟩ := hc
      rw [List.cons_append, takeLiteral?_plain hquote hslash hfeed hreturn, ih]
      rfl

theorem exists_isBody_of_takeLiteral? {cs text rest : List Char}
    (h : takeLiteral? cs = some (text, rest)) :
    ∃ body, IsBody body text ∧ cs = body ++ '"' :: rest := by
  fun_induction takeLiteral? cs generalizing text rest with
  | case1 => cases h
  | case2 => cases h
  | case3 c tail ih =>
      simp only [Option.bind_eq_bind, Option.bind_eq_some_iff] at h
      obtain ⟨meant, hmeant, ⟨inner, after⟩, hinner, heq⟩ := h
      cases heq
      obtain ⟨body, hbody, rfl⟩ := ih hinner
      exact ⟨_, .escape hmeant hbody, rfl⟩
  | case4 tail =>
      cases h
      exact ⟨[], .nil, rfl⟩
  | case5 => cases h
  | case6 c tail _ hescape hquote hend ih =>
      simp only [Option.bind_eq_bind, Option.bind_eq_some_iff] at h
      obtain ⟨⟨inner, after⟩, hinner, heq⟩ := h
      cases heq
      obtain ⟨body, hbody, rfl⟩ := ih hinner
      -- a backslash would be the start of an escape, since the ending quote is still to come
      have hslash : c ≠ '\\' := by
        intro hc
        obtain ⟨next, more, hmore⟩ :=
          List.exists_cons_of_ne_nil (by simp : body ++ '"' :: after ≠ [])
        exact hescape next more hc hmore
      refine ⟨c :: body, .plain ?_ hbody, rfl⟩
      rw [not_or] at hend
      simp [hquote, hslash, hend]

/-- What is read from an opening quote is a body, up to the first quote that is no part of an
escape, and nothing but a body is read. -/
theorem unquote?_eq_some_iff (cs text rest : List Char) :
    unquote? cs = some (text, rest) ↔
      ∃ body, IsBody body text ∧ cs = '"' :: (body ++ '"' :: rest) := by
  constructor
  · intro h
    unfold unquote? at h
    split at h
    · obtain ⟨body, hbody, rfl⟩ := exists_isBody_of_takeLiteral? h
      exact ⟨body, hbody, rfl⟩
    · cases h
  · rintro ⟨body, hbody, rfl⟩
    exact hbody.takeLiteral?_eq rest

theorem unquote?_quote_append (text rest : String) :
    unquote? (quote text ++ rest).toList = some (text.toList, rest.toList) := by
  rw [String.toList_append, quote, String.toList_ofList]
  exact unquote?_quoteChars text.toList rest.toList

/-- The reader of literals takes exactly the literals of the grammar, and it finds a quoted text and
what follows it whatever that is.  So two quoted texts with something behind them are only equal
when both parts are, and no quoted text is the beginning of another one. -/
theorem quote_isSelfDelimiting :
    (∀ cs text rest : List Char, unquote? cs = some (text, rest) ↔
      ∃ body, IsBody body text ∧ cs = '"' :: (body ++ '"' :: rest)) ∧
    (∀ text rest : String, unquote? (quote text ++ rest).toList = some (text.toList, rest.toList)) ∧
    (∀ text other rest more : String,
      quote text ++ rest = quote other ++ more ↔ text = other ∧ rest = more) ∧
    (∀ text other : String, quote text = quote other ↔ text = other) ∧
    (∀ text other : String, (quote text).toList <+: (quote other).toList ↔ text = other) := by
  have hsplit : ∀ text other rest more : String,
      quote text ++ rest = quote other ++ more ↔ text = other ∧ rest = more := by
    intro text other rest more
    constructor
    · intro h
      have hread := unquote?_quote_append text rest
      rw [h, unquote?_quote_append, Option.some.injEq, Prod.mk.injEq] at hread
      exact ⟨(String.toList_inj.mp hread.1).symm, (String.toList_inj.mp hread.2).symm⟩
    · rintro ⟨rfl, rfl⟩
      rfl
  refine ⟨unquote?_eq_some_iff, unquote?_quote_append, hsplit, ?_, ?_⟩
  · intro text other
    have h := hsplit text other "" ""
    rwa [String.append_empty, String.append_empty, and_iff_left rfl] at h
  · intro text other
    constructor
    · rintro ⟨rest, hrest⟩
      have hsame : quote text ++ String.ofList rest = quote other ++ "" := by
        apply String.toList_inj.mp
        rw [String.toList_append, String.toList_ofList, hrest, String.append_empty]
      exact ((hsplit _ _ _ _).mp hsame).1
    · rintro rfl
      exact List.prefix_rfl

end Text
end SolidScript
