import SolidScript.Proofs.Script.Emitted
import SolidScript.Proofs.Script.Recorded
import SolidScript.Proofs.Script.Spelling

/-!
# Tokens of values and calls

The text of a value and the text of a call are cut into the tokens of their trees
(`spells_valueText`, `spells_callText`).
-/

namespace SolidScript
namespace Reading

/-! ## Lists of texts -/

theorem spells_comma : Spells Anywhere [',', ' '] [.atom .comma] :=
  (spells_mark rfl fun _ => rfl).append_anywhere (spells_space rfl)

theorem spells_equals : Spells Anywhere [' ', '=', ' '] [.atom .equals] :=
  (spells_space (c := ' ') rfl).append_anywhere
    ((spells_mark rfl fun _ => rfl).append_anywhere (spells_space rfl))

theorem tokensAll_append (xs ys : List Tree) :
    Tree.tokensAll (xs ++ ys) = Tree.tokensAll xs ++ Tree.tokensAll ys := by
  induction xs with
  | nil => rfl
  | cons x xs ih => rw [List.cons_append, Tree.tokensAll, ih, Tree.tokensAll, List.append_assoc]

/-- What is spelled between two brackets. -/
theorem Spells.bracketed {b : Bracket} {left right : Char} {cs : List Char} {ts : List Token}
    (hcs : Spells BeforeSeparator cs ts) (hleft : Spells Anywhere [left] [.opening b])
    (hright : Spells Anywhere [right] [.closing b])
    (hsep : Identifier.isTail right = false ∧ right ≠ '.') :
    Spells Anywhere (left :: (cs ++ [right])) (.opening b :: (ts ++ [.closing b])) :=
  hleft.append_anywhere (hcs.append_separated hright hsep)

/-- The text spells the tokens unless it is continued. -/
def SpellsText (text : String) (ts : List Token) : Prop := Spells BeforeSeparator text.toList ts

/-- Texts with commas between them spell their tokens with commas between them. -/
theorem spells_commaSeparated {texts : List String} {parts : List (List Token)}
    (h : List.Forall₂ SpellsText texts parts) :
    SpellsText (Script.commaSeparated texts) (List.intercalate [.atom .comma] parts) := by
  induction h with
  | nil => exact spells_nil BeforeSeparator
  | @cons text ts texts parts htext hrest ih =>
      cases hrest with
      | nil => simpa [Script.commaSeparated] using htext
      | @cons next us texts parts hnext hmore =>
          have hafter := htext.append_separated (spells_comma.append_anywhere ih) (by decide)
          rw [Script.commaSeparated, String.intercalate_cons_of_ne_nil (List.cons_ne_nil _ _),
            List.intercalate_cons_cons, SpellsText, String.toList_append, String.toList_append,
            List.append_assoc, List.append_assoc]
          exact hafter

/-! ## Values and calls -/

theorem tokensAll_valueTrees (items : List SolidScript.Value) :
    Tree.tokensAll (valueTrees items) =
      List.intercalate [.atom .comma] (items.map fun item => (valueTree item).tokens) := by
  cases items with
  | nil => rfl
  | cons item rest =>
      rw [valueTrees, Tree.tokensAll, List.map_cons]
      induction rest generalizing item with
      | nil => simp [moreValueTrees, Tree.tokensAll]
      | cons next rest ih =>
          rw [List.map_cons, List.intercalate_cons_cons, ← ih next, moreValueTrees]
          simp [Tree.tokensAll, Tree.tokens]

/-- The tokens of one argument. -/
def argumentTokens (entry : String × SolidScript.Value) : List Token :=
  .atom (.word entry.1) :: .atom .equals :: (valueTree entry.2).tokens

theorem tokensAll_argumentTrees (entries : List (String × SolidScript.Value)) :
    Tree.tokensAll (argumentTrees entries) =
      List.intercalate [.atom .comma] (entries.map argumentTokens) := by
  unfold argumentTrees
  cases entries with
  | nil => rfl
  | cons entry rest =>
      rw [moreArgumentTrees, List.drop_one, List.tail_cons, List.map_cons]
      induction rest generalizing entry with
      | nil => simp [moreArgumentTrees, argumentTokens, Tree.tokensAll, Tree.tokens]
      | cons next rest ih =>
          rw [List.map_cons, List.intercalate_cons_cons, ← ih next, moreArgumentTrees]
          simp [argumentTokens, Tree.tokensAll, Tree.tokens]

mutual
/-- The text of a value is cut into the tokens of its tree. -/
theorem spells_valueText {node param : String} {path : List Nat} {value : SolidScript.Value}
    {text : String} (h : Script.valueText node param path value = .ok text) :
    SpellsText text (valueTree value).tokens := by
  cases value with
  | undef =>
      cases h
      exact spells_word rfl
  | bool b =>
      cases b with
      | false =>
          cases h
          exact spells_word rfl
      | true =>
          cases h
          exact spells_word rfl
  | number x => exact spells_numeral (Script.valueText_number_eq_ok h)
  | text s =>
      cases h
      exact (spells_quote s).weaken fun _ _ => trivial
  | vector items =>
      obtain ⟨texts, htexts, rfl⟩ := Script.valueText_vector_eq_ok h
      have hinner := spells_commaSeparated (spells_itemTexts htexts)
      rw [← tokensAll_valueTrees] at hinner
      have hwhole := hinner.bracketed (b := .square) (spells_mark (c := '[') rfl fun _ => rfl)
        (spells_mark (c := ']') rfl fun _ => rfl) (by decide)
      have htext : ("[" ++ Script.commaSeparated texts ++ "]").toList =
          '[' :: ((Script.commaSeparated texts).toList ++ [']']) := by simp
      rw [SpellsText, htext]
      exact hwhole.weaken fun _ _ => trivial

theorem spells_itemTexts {node param : String} {path : List Nat} {index : Nat}
    {items : List SolidScript.Value} {texts : List String}
    (h : Script.itemTexts node param path index items = .ok texts) :
    List.Forall₂ SpellsText texts (items.map fun item => (valueTree item).tokens) := by
  cases items with
  | nil =>
      cases h
      exact .nil
  | cons item rest =>
      obtain ⟨text, others, htext, hothers, rfl⟩ := Script.itemTexts_cons_eq_ok h
      exact .cons (spells_valueText htext) (spells_itemTexts hothers)
end

theorem spells_argumentTexts {node : String} {entries : List (String × SolidScript.Value)}
    {texts : List String} (h : Script.argumentTexts node entries = .ok texts) :
    List.Forall₂ SpellsText texts (entries.map argumentTokens) := by
  induction entries generalizing texts with
  | nil =>
      cases h
      exact .nil
  | cons entry rest ih =>
      obtain ⟨name, value⟩ := entry
      obtain ⟨hname, text, others, htext, hothers, rfl⟩ := Script.argumentTexts_cons_eq_ok h
      have hkey := (spells_word (Identifier.wellFormed_of_isValid hname)).append_separated
        spells_equals (by decide)
      refine .cons ?_ (ih hothers)
      rw [SpellsText, String.toList_append, String.toList_append]
      exact hkey.append_anywhere (spells_valueText htext)

/-- The text of a call is cut into the tokens of its trees. -/
theorem spells_callText {name : String} {params : Params} {text : String}
    (h : Script.callText name params = .ok text) :
    Spells Anywhere text.toList (Tree.tokensAll (callTrees name params)) := by
  obtain ⟨hname, texts, htexts, rfl⟩ := Script.callText_eq_ok h
  have hlist := spells_commaSeparated (spells_argumentTexts htexts)
  rw [← tokensAll_argumentTrees] at hlist
  have harguments := hlist.bracketed (b := .round)
    (spells_mark (c := '(') rfl fun _ => rfl) (spells_mark (c := ')') rfl fun _ => rfl) (by decide)
  -- the name ends at the bracket
  have hcall := (spells_word (Identifier.wellFormed_of_isValid hname)).append_separated harguments
    (by decide)
  have htext : (name ++ "(" ++ Script.commaSeparated texts ++ ")").toList =
      name.toList ++ '(' :: ((Script.commaSeparated texts).toList ++ [')']) := by simp
  rw [htext]
  simpa [callTrees, Tree.tokensAll, Tree.tokens] using hcall

end Reading
end SolidScript
