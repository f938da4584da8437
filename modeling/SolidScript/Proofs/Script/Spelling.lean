import SolidScript.Proofs.Script.Token

/-!
# How tokens are spelled

`Spells follows cs ts` says that the characters `cs` are cut into the tokens `ts` whatever follows
them, as long as what follows satisfies `follows`.  A word or a numeral must not be continued
(`BeforeSeparator`) and a comment must end with its line (`BeforeLineEnd`); everything else stands
`Anywhere`.  Spellings are put together with `Spells.append`.
-/

namespace SolidScript
namespace Reading

theorem tokens_nil : tokens [] = some [] := by rw [tokens]

theorem tokens_space {c : Char} (h : isSpace c = true) (cs : List Char) :
    tokens (c :: cs) = tokens cs := by
  rw [tokens, if_pos h]

theorem tokens_take {c : Char} {cs rest : List Char} {token : Token} (hspace : isSpace c = false)
    (htake : takeToken? c cs = some (token, rest)) :
    tokens (c :: cs) = (tokens rest).map (token :: ·) := by
  rw [tokens, if_neg (by simp [hspace])]
  split
  · rename_i hnone
    rw [htake] at hnone
    cases hnone
  · rename_i token' rest' hsome
    rw [htake] at hsome
    cases hsome
    rfl

/-- No condition on what follows. -/
def Anywhere (_ : List Char) : Prop := True

/-- What follows continues neither a word nor a numeral. -/
def BeforeSeparator (rest : List Char) : Prop :=
  ∀ c ∈ rest.head?, Identifier.isTail c = false ∧ c ≠ '.'

/-- A line ends here. -/
def BeforeLineEnd (rest : List Char) : Prop := rest.head? = some '\n'

theorem BeforeSeparator.endsNumeral {rest : List Char} (h : BeforeSeparator rest) :
    EndsNumeral rest := by
  intro c hc
  obtain ⟨htail, hpoint⟩ := h c hc
  refine ⟨?_, hpoint⟩
  simp only [Identifier.isTail, Char.isAlphanum, Bool.or_eq_false_iff] at htail
  exact htail.1.2

/-- The characters are cut into the tokens before everything that may follow. -/
def Spells (follows : List Char → Prop) (cs : List Char) (ts : List Token) : Prop :=
  ∀ rest, follows rest → tokens (cs ++ rest) = (tokens rest).map (ts ++ ·)

theorem Spells.weaken {strong weak : List Char → Prop} {cs : List Char} {ts : List Token}
    (h : Spells weak cs ts) (himp : ∀ rest, strong rest → weak rest) : Spells strong cs ts :=
  fun rest hrest => h rest (himp rest hrest)

theorem Spells.append {first last : List Char → Prop} {cs ds : List Char} {ts us : List Token}
    (hcs : Spells first cs ts) (hds : Spells last ds us)
    (hfirst : ∀ rest, last rest → first (ds ++ rest)) : Spells last (cs ++ ds) (ts ++ us) := by
  intro rest hrest
  rw [List.append_assoc, hcs (ds ++ rest) (hfirst rest hrest), hds rest hrest, Option.map_map]
  congr 1
  funext more
  exact (List.append_assoc ts us more).symm

/-- What stands anywhere may be followed by anything. -/
theorem Spells.append_anywhere {last : List Char → Prop} {cs ds : List Char} {ts us : List Token}
    (hcs : Spells Anywhere cs ts) (hds : Spells last ds us) : Spells last (cs ++ ds) (ts ++ us) :=
  hcs.append hds fun _ _ => trivial

/-- A word or a numeral may be followed by what starts with another kind of character. -/
theorem Spells.append_separated {last : List Char → Prop} {cs ds : List Char} {c : Char}
    {ts us : List Token} (hcs : Spells BeforeSeparator cs ts) (hds : Spells last (c :: ds) us)
    (hc : Identifier.isTail c = false ∧ c ≠ '.') :
    Spells last (cs ++ c :: ds) (ts ++ us) :=
  hcs.append hds fun rest _ c' hc' => by
    cases hc'
    exact hc

theorem spells_nil (follows : List Char → Prop) : Spells follows [] [] := by
  intro rest _
  cases htokens : tokens rest with
  | none => simp [htokens]
  | some ts => simp [htokens]

theorem spells_spaces {cs : List Char} (h : ∀ c ∈ cs, isSpace c = true) :
    Spells Anywhere cs [] := by
  induction cs with
  | nil => exact spells_nil Anywhere
  | cons c cs ih =>
      intro rest hrest
      rw [List.cons_append, tokens_space (h c List.mem_cons_self)]
      exact ih (fun d hd => h d (List.mem_cons_of_mem c hd)) rest hrest

theorem spells_space {c : Char} (h : isSpace c = true) : Spells Anywhere [c] [] := by
  apply spells_spaces
  intro d hd
  rw [List.mem_singleton.mp hd]
  exact h

private theorem spells_of_takeToken? {follows : List Char → Prop} {c : Char} {cs : List Char}
    {token : Token} (hspace : isSpace c = false)
    (htake : ∀ rest, follows rest → takeToken? c (cs ++ rest) = some (token, rest)) :
    Spells follows (c :: cs) [token] := by
  intro rest hrest
  rw [List.cons_append, tokens_take hspace (htake rest hrest)]
  rfl

theorem spells_mark {c : Char} {token : Token} (hspace : isSpace c = false)
    (h : ∀ rest, takeToken? c rest = some (token, rest)) : Spells Anywhere [c] [token] :=
  spells_of_takeToken? hspace fun rest _ => h rest

theorem isTail_of_wellFormed {c : Char} {cs : List Char}
    (h : Identifier.wellFormed (c :: cs) = true) :
    (c == '$' || Identifier.isHead c) = true ∧ ∀ d ∈ cs, Identifier.isTail d = true := by
  have htail : ∀ d, Identifier.isHead d = true → Identifier.isTail d = true := by
    intro d hd
    simp only [Identifier.isHead, Bool.or_eq_true] at hd
    simp only [Identifier.isTail, Char.isAlphanum, Bool.or_eq_true]
    tauto
  by_cases hdollar : c = '$'
  · subst hdollar
    refine ⟨rfl, ?_⟩
    cases cs with
    | nil => cases h
    | cons d ds =>
        simp only [Identifier.wellFormed, Identifier.bare, Bool.and_eq_true, List.all_eq_true] at h
        intro e he
        rcases List.mem_cons.mp he with rfl | hmem
        · exact htail e h.1
        · exact h.2 e hmem
  · have hbare : Identifier.bare (c :: cs) = c :: cs := by
      unfold Identifier.bare
      split
      · rename_i heq
        exact absurd (List.cons.inj heq).1 hdollar
      · rfl
    rw [Identifier.wellFormed, hbare] at h
    simp only [Bool.and_eq_true, List.all_eq_true] at h
    exact ⟨by simp [h.1], h.2⟩

private theorem isSpace_eq_false_of_isHead {c : Char}
    (h : (c == '$' || Identifier.isHead c) = true) : isSpace c = false := by
  by_contra hspace
  simp only [isSpace, Bool.not_eq_false, Bool.or_eq_true, beq_iff_eq] at hspace
  rcases hspace with ((rfl | rfl) | rfl) | rfl <;> exact absurd h (by decide)

theorem spells_word {name : String} (h : Identifier.wellFormed name.toList = true) :
    Spells BeforeSeparator name.toList [.atom (.word name)] := by
  cases hname : name.toList with
  | nil =>
      rw [hname] at h
      cases h
  | cons c cs =>
      rw [hname] at h
      obtain ⟨hhead, htail⟩ := isTail_of_wellFormed h
      refine spells_of_takeToken? (isSpace_eq_false_of_isHead hhead) fun rest hrest => ?_
      -- a word is read as far as it goes, so what follows must not continue it
      obtain ⟨htake, hdrop⟩ := takeWhile_append_of_head rest htail fun d hd => (hrest d hd).1
      unfold takeToken? takeWord?
      rw [if_pos hhead, htake, hdrop]
      dsimp only
      rw [if_pos h, ← hname, String.ofList_toList]

private theorem isSpace_or_isHead_eq_false_of_numeral {c : Char}
    (h : (c == '-' || c.isDigit) = true) :
    isSpace c = false ∧ (c == '$' || Identifier.isHead c) = false := by
  rw [Bool.or_eq_true, beq_iff_eq] at h
  rcases h with rfl | hdigit
  · decide
  · constructor
    · by_contra hspace
      simp only [isSpace, Bool.not_eq_false, Bool.or_eq_true, beq_iff_eq] at hspace
      rcases hspace with ((rfl | rfl) | rfl) | rfl <;> exact absurd hdigit (by decide)
    · by_contra hhead
      simp only [Identifier.isHead, Bool.not_eq_false, Bool.or_eq_true, beq_iff_eq] at hhead
      rcases hhead with rfl | halpha | rfl
      · exact absurd hdigit (by decide)
      · simp only [Char.isAlpha, Char.isUpper, Char.isLower, Char.isDigit, Bool.or_eq_true,
          Bool.and_eq_true, decide_eq_true_eq] at halpha hdigit
        grind
      · exact absurd hdigit (by decide)

/-- The text of a number is one token, the number rounded to ten places. -/
theorem spells_numeral {x : Number} {text : String} (h : Script.numeral? x = some text) :
    Spells BeforeSeparator text.toList [.atom (.number (x.rounded 10))] := by
  obtain ⟨c, cs, htext, hc⟩ := exists_cons_numeral h
  obtain ⟨hspace, hhead⟩ := isSpace_or_isHead_eq_false_of_numeral hc
  rw [htext]
  refine spells_of_takeToken? hspace fun rest hrest => ?_
  have hread := takeNumeral?_numeral h hrest.endsNumeral
  rw [htext, List.cons_append] at hread
  unfold takeToken?
  rw [if_neg (by simp [hhead]), if_pos hc, hread]
  rfl

theorem spells_quote (text : String) :
    Spells Anywhere (Text.quote text).toList [.atom (.text text)] := by
  rw [Text.quote, String.toList_ofList]
  refine spells_of_takeToken? rfl fun rest _ => ?_
  have hread := Text.takeLiteral?_flatMap_quoteChar text.toList rest
  rw [List.append_assoc]
  change (Text.takeLiteral? (text.toList.flatMap Text.quoteChar ++ '"' :: rest)).map _ = _
  rw [hread]
  simp

theorem spells_path {path : String} (h : '>' ∉ path.toList) :
    Spells Anywhere ('<' :: (path.toList ++ ['>'])) [.atom (.path path)] := by
  refine spells_of_takeToken? rfl fun rest _ => ?_
  have hpath : ∀ c ∈ path.toList, (c != '>') = true := by
    intro c hc
    rw [bne_iff_ne]
    exact fun heq => h (heq ▸ hc)
  -- the first closing angle bracket is the one after the path
  obtain ⟨htake, hdrop⟩ := takeWhile_append_of_head ('>' :: rest) hpath (by simp)
  rw [List.append_assoc]
  change takePath? (path.toList ++ '>' :: rest) = _
  rw [takePath?, htake, hdrop]
  simp

theorem spells_comment (line : List Char) (h : '\n' ∉ line) :
    Spells BeforeLineEnd ('/' :: '/' :: line)
      [.atom (.comment (String.ofList (commentContent line)))] := by
  refine spells_of_takeToken? rfl fun rest hrest => ?_
  have hline : ∀ c ∈ line, (c != '\n') = true := by
    intro c hc
    rw [bne_iff_ne]
    exact fun heq => h (heq ▸ hc)
  have hend : ∀ c ∈ rest.head?, (c != '\n') = false := by
    intro c hc
    rw [hrest] at hc
    cases hc
    rfl
  obtain ⟨htake, hdrop⟩ := takeWhile_append_of_head rest hline hend
  change takeComment? ('/' :: (line ++ rest)) = _
  rw [takeComment?, htake, hdrop]

end Reading
end SolidScript
