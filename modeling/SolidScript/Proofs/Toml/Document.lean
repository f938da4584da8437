import Mathlib.Tactic
import SolidScript.Proofs.Number.Numeral
import SolidScript.Proofs.Toml.Scalar
import SolidScript.Toml.Document

/-!
# Documents of plain lines

A document of lines that each set a bare name, with one header among them, is read as the table that
the lines spell (`parse?_eq`).  `Denotes` says which texts may stand behind the equals sign, and
`Lists` that a text is read as a list of statements; `Lists` is built up line by line from the end
of the text.
-/

namespace SolidScript
namespace Toml

/-! ## Lines -/

/-- A name that needs no quotes. -/
def IsBareName (name : List Char) : Prop := name ≠ [] ∧ ∀ c ∈ name, isBare c = true

instance : DecidablePred IsBareName := fun _ =>
  decidable_of_iff _ (and_congr_right' List.all_eq_true)

/-- The text is read as the value where it stands at the end of a line. -/
structure Denotes (text : List Char) (v : Value) : Prop where
  /-- The text does not begin with a blank, nor with an array or a table. -/
  start : ∃ kind, Begins kind text ∧ [' ', '\t', '[', '\x7b'].any kind = false
  reads : ∀ rest, scalar (text ++ '\n' :: rest) = some (v, '\n' :: rest)

/-- A line that sets a name. -/
def settingLine (name text : List Char) : List Char :=
  name ++ ' ' :: '=' :: ' ' :: (text ++ ['\n'])

/-- The header of a table. -/
def headerLine (name : List Char) : List Char := '[' :: (name ++ [']', '\n'])

/-- What a line begins with, unless it is passed over. -/
def isLineStart (c : Char) : Bool := isBare c || c == '['

theorem IsBareName.begins {name : List Char} (h : IsBareName name) (rest : List Char) :
    Begins isBare (name ++ rest) :=
  (begins_of_forall h.1 h.2).append rest

theorem begins_headerLine (name rest : List Char) : Begins isLineStart (headerLine name ++ rest) :=
  ⟨'[', name ++ [']', '\n'] ++ rest, rfl, rfl⟩

theorem Begins.skipSpaces_eq {kind : Char → Bool} {cs : List Char} (h : Begins kind cs)
    (hspace : kind ' ' = false) (htab : kind '\t' = false) : skipSpaces cs = cs := by
  obtain ⟨c, rest, rfl, hc⟩ := h
  have hblank : ¬ (c == ' ' || c == '\t') = true := by
    rintro hblank
    rcases Bool.or_eq_true_iff.mp hblank with heq | heq
    · rw [beq_iff_eq.mp heq, hspace] at hc
      cases hc
    · rw [beq_iff_eq.mp heq, htab] at hc
      cases hc
  exact List.dropWhile_cons_of_neg hblank

theorem Begins.skipLines_eq {cs : List Char} (h : Begins isLineStart cs) (fuel : Nat) :
    skipLines fuel cs = cs := by
  cases fuel with
  | zero => rfl
  | succ fuel =>
      have hcomment : skipComment cs = cs := by
        unfold skipComment
        split
        · exact absurd rfl (h.ne_cons (by decide) _)
        · rfl
      have hnewline : newline? cs = none := by
        unfold newline?
        split
        · exact absurd rfl (h.ne_cons (by decide) _)
        · exact absurd rfl (h.ne_cons (by decide) _)
        · rfl
      rw [skipLines, h.skipSpaces_eq (by decide) (by decide), hcomment, hnewline]

/-! ## Statements -/

theorem simpleName_bare {name : List Char} (hname : IsBareName name) {rest : List Char}
    (hrest : ∀ c ∈ rest.head?, isBare c = false) :
    simpleName (name ++ rest) = some (String.ofList name, rest) := by
  obtain ⟨htake, hdrop⟩ := takeWhile_append_of_head rest hname.2 hrest
  have hstart := hname.begins rest
  unfold simpleName
  split
  · rename_i hquote
    exact absurd hquote (hstart.ne_cons (by decide) _)
  · rename_i hquote
    exact absurd hquote (hstart.ne_cons (by decide) _)
  · rw [htake, hdrop]
    simp [hname.1]

/-- One bare name in front of an equals sign or a closing bracket. -/
theorem dottedName_bare {name : List Char} (hname : IsBareName name) {rest after : List Char}
    (hrest : ∀ c ∈ rest.head?, isBare c = false) (hafter : skipSpaces rest = after)
    (hpoint : after.head? ≠ some '.') :
    dottedName (name ++ rest) = some ([String.ofList name], after) := by
  change names (78 + 1) (name ++ rest) = _
  rw [names, (hname.begins rest).skipSpaces_eq (by decide) (by decide),
    simpleName_bare hname hrest]
  dsimp only
  rw [hafter]
  split
  · exact absurd rfl hpoint
  · rfl

/-- A value that begins with no bracket and no brace is a scalar. -/
theorem value_eq_scalar (room : Nat) {kind : Char → Bool} {cs : List Char} (h : Begins kind cs)
    (hbracket : kind '[' = false) (hbrace : kind '\x7b' = false) : value room cs = scalar cs := by
  unfold value
  split
  · exact absurd rfl (h.ne_cons hbracket _)
  · exact absurd rfl (h.ne_cons hbrace _)
  · rfl

/-- What does not begin with a bracket is a setting. -/
theorem statement_of_setting {cs after : List Char} {found : Setting} (h : Begins isBare cs)
    (hsetting : setting (value (nestingLimit - 1)) cs = some (found, '\n' :: after)) :
    statement cs = some (.setting found, after) := by
  unfold statement
  split
  · exact absurd rfl (h.ne_cons (by decide) _)
  · rw [hsetting]
    rfl

theorem statement_settingLine {name text : List Char} {v : Value} (hname : IsBareName name)
    (htext : Denotes text v) (rest : List Char) :
    statement (settingLine name text ++ rest) =
      some (.setting ⟨[], String.ofList name, v⟩, rest) := by
  obtain ⟨kind, hbegins, hkind⟩ := htext.start
  simp only [List.any_cons, Bool.or_eq_false_iff] at hkind
  obtain ⟨hspace, htab, hbracket, hbrace, -⟩ := hkind
  have hbehind : Begins kind (text ++ '\n' :: rest) := hbegins.append _
  have hread : value (nestingLimit - 1) (skipSpaces (' ' :: (text ++ '\n' :: rest))) =
      some (v, '\n' :: rest) := by
    change value (nestingLimit - 1) (skipSpaces (text ++ '\n' :: rest)) = _
    rw [hbehind.skipSpaces_eq hspace htab, value_eq_scalar _ hbehind hbracket hbrace]
    exact htext.reads rest
  have hline : settingLine name text ++ rest =
      name ++ ' ' :: '=' :: ' ' :: (text ++ '\n' :: rest) := by
    simp [settingLine]
  have hbefore : dottedName (name ++ ' ' :: '=' :: ' ' :: (text ++ '\n' :: rest)) =
      some ([String.ofList name], '=' :: ' ' :: (text ++ '\n' :: rest)) :=
    dottedName_bare hname (by rintro d ⟨⟩; decide) rfl (by simp)
  have hsetting : setting (value (nestingLimit - 1))
      (name ++ ' ' :: '=' :: ' ' :: (text ++ '\n' :: rest)) =
        some (⟨[], String.ofList name, v⟩, '\n' :: rest) := by
    unfold setting
    rw [hbefore]
    change (value (nestingLimit - 1) (skipSpaces (' ' :: (text ++ '\n' :: rest))) >>= _) = _
    rw [hread]
    rfl
  rw [hline]
  exact statement_of_setting (hname.begins _) hsetting

theorem statement_headerLine {name : List Char} (hname : IsBareName name) (rest : List Char) :
    statement (headerLine name ++ rest) = some (.header false [String.ofList name], rest) := by
  have hline : headerLine name ++ rest = '[' :: (name ++ ']' :: '\n' :: rest) := by
    simp [headerLine]
  have hpath : dottedName (name ++ ']' :: '\n' :: rest) =
      some ([String.ofList name], ']' :: '\n' :: rest) :=
    dottedName_bare hname (by rintro d ⟨⟩; decide) rfl (by simp)
  have hheader : header ('[' :: (name ++ ']' :: '\n' :: rest)) =
      some (.header false [String.ofList name], '\n' :: rest) := by
    unfold header
    split
    · rename_i heq
      -- a second bracket would be part of the name
      exact absurd (List.cons.inj heq).2 ((hname.begins _).ne_cons (by decide) _)
    · rename_i heq
      cases heq
      rw [hpath]
      rfl
    · rename_i hbracket
      exact absurd rfl (hbracket _)
  rw [hline]
  change (header ('[' :: (name ++ ']' :: '\n' :: rest)) >>= _) = _
  rw [hheader]
  rfl

/-! ## Lists of statements -/

/-- The text is read as the statements, whatever bound on their number its length allows. -/
def Lists (cs : List Char) (all : List Statement) : Prop :=
  ∀ fuel, cs.length < fuel → statements fuel cs = some all

theorem lists_nil : Lists [] [] := by
  intro fuel hfuel
  obtain ⟨fuel, rfl⟩ := Nat.exists_eq_succ_of_ne_zero (Nat.ne_zero_of_lt hfuel)
  rfl

/-- A statement in front of what is read as statements. -/
theorem Lists.cons {cs rest : List Char} {s : Statement} {all : List Statement}
    (hstart : Begins isLineStart cs) (hread : statement cs = some (s, rest))
    (hless : rest.length < cs.length) (h : Lists rest all) : Lists cs (s :: all) := by
  intro fuel hfuel
  obtain ⟨fuel, rfl⟩ := Nat.exists_eq_succ_of_ne_zero (Nat.ne_zero_of_lt hfuel)
  have hskip := hstart.skipLines_eq (cs.length + 1)
  have hrest := h fuel (by omega)
  obtain ⟨c, others, rfl, -⟩ := hstart
  rw [statements, hskip]
  dsimp only
  rw [hread]
  dsimp only
  rw [hrest]
  rfl

/-- An empty line is passed over. -/
theorem Lists.newline {rest : List Char} {all : List Statement} (hstart : Begins isLineStart rest)
    (h : Lists rest all) : Lists ('\n' :: rest) all := by
  intro fuel hfuel
  obtain ⟨fuel, rfl⟩ := Nat.exists_eq_succ_of_ne_zero (Nat.ne_zero_of_lt hfuel)
  have hskip : skipLines (('\n' :: rest).length + 1) ('\n' :: rest) = rest :=
    hstart.skipLines_eq _
  have hrest := h (fuel + 1) (by rw [List.length_cons] at hfuel; omega)
  rw [statements, hstart.skipLines_eq] at hrest
  rw [statements, hskip]
  exact hrest

theorem Lists.settingLine {name text rest : List Char} {v : Value} {all : List Statement}
    (hname : IsBareName name) (htext : Denotes text v) (h : Lists rest all) :
    Lists (settingLine name text ++ rest) (.setting ⟨[], String.ofList name, v⟩ :: all) := by
  refine Lists.cons ?_ (statement_settingLine hname htext rest) ?_ h
  · rw [Toml.settingLine, List.append_assoc]
    exact (hname.begins _).imp fun c hc => by rw [isLineStart, hc, Bool.true_or]
  · simp only [Toml.settingLine, List.length_append, List.length_cons]
    omega

theorem Lists.headerLine {name rest : List Char} {all : List Statement}
    (hname : IsBareName name) (h : Lists rest all) :
    Lists (headerLine name ++ rest) (.header false [String.ofList name] :: all) := by
  refine Lists.cons (begins_headerLine name rest) (statement_headerLine hname rest) ?_ h
  simp only [Toml.headerLine, List.length_append, List.length_cons]
  omega

/-! ## Tables -/

/-- Settings of names in the table that was opened last. -/
def settingsOf (fields : Fields) : List Setting := fields.map fun entry => ⟨[], entry.1, entry.2⟩

theorem Fields.any_name_eq_false {fields : Fields} {name : String}
    (h : name ∉ fields.map Prod.fst) : fields.any (·.1 == name) = false := by
  rw [List.any_eq_false]
  intro entry hentry heq
  exact h (List.mem_map.mpr ⟨entry, hentry, beq_iff_eq.mp heq⟩)

theorem Fields.get?_of_notMem {fields : Fields} {name : String}
    (h : name ∉ fields.map Prod.fst) : fields.get? name = none := by
  rw [Fields.get?, List.find?_eq_none.mpr]
  · rfl
  · exact List.any_eq_false.mp (Fields.any_name_eq_false h)

theorem Fields.put_of_notMem {fields : Fields} {name : String}
    (h : name ∉ fields.map Prod.fst) (v : Value) : fields.put name v = fields ++ [(name, v)] := by
  rw [Fields.put, Fields.any_name_eq_false h]
  rfl

/-- Names that are not there yet are added one after the other. -/
theorem addSettings_settingsOf {fields entries : Fields}
    (h : ((fields ++ entries).map Prod.fst).Nodup) :
    addSettings fields (settingsOf entries) = some (fields ++ entries) := by
  induction entries generalizing fields with
  | nil =>
      rw [List.append_nil]
      rfl
  | cons entry entries ih =>
      have hmoved : fields ++ entry :: entries = fields ++ [entry] ++ entries := by simp
      have hnew : entry.1 ∉ fields.map Prod.fst := by
        rw [List.map_append, List.map_cons, List.nodup_middle] at h
        exact fun hmem => (List.nodup_cons.mp h).1 (List.mem_append_left _ hmem)
      have hadd : Fields.addDotted? entry.1 entry.2 [] fields = some (fields ++ [entry]) := by
        rw [Fields.addDotted?, Fields.add?, Fields.any_name_eq_false hnew]
        rfl
      rw [hmoved] at h ⊢
      rw [settingsOf, List.map_cons, addSettings]
      dsimp only
      rw [hadd]
      exact ih h

/-- Settings are taken up to the first statement that is none. -/
theorem takeSettings_append (settings : List Setting) {others : List Statement}
    (h : takeSettings others = ([], others)) :
    takeSettings (settings.map .setting ++ others) = (settings, others) := by
  induction settings with
  | nil => exact h
  | cons s settings ih =>
      rw [List.map_cons, List.cons_append, takeSettings, ih]

/-- A table that is not there yet is opened behind what is there. -/
theorem addSection?_of_notMem {top inner : Fields} {name : String}
    (hname : name ∉ top.map Prod.fst) (hinner : (inner.map Prod.fst).Nodup) :
    Fields.addSection? false (fun fields => addSettings fields (settingsOf inner)) [name] top =
      some (top ++ [(name, .table .header inner)]) := by
  have hadd : addSettings [] (settingsOf inner) = some inner := addSettings_settingsOf hinner
  rw [Fields.addSection?, hadd, Option.map_some, Fields.put_of_notMem hname]
  exact Fields.get?_of_notMem hname

theorem dropMark_of_head?_ne {cs : List Char} (h : cs.head? ≠ some '\ufeff') :
    dropMark cs = cs := by
  unfold dropMark
  split
  · rw [if_neg fun hc => h (congrArg some hc)]
  · rfl

/-- A document of settings with a header among them is a table with one table in it, if no name is
set twice. -/
theorem parse?_eq {text : String} {top inner : Fields} {name : String}
    (hmark : text.toList.head? ≠ some '\ufeff')
    (hlists : Lists text.toList ((settingsOf top).map .setting ++
      .header false [name] :: (settingsOf inner).map .setting))
    (htop : (top.map Prod.fst).Nodup) (hname : name ∉ top.map Prod.fst)
    (hinner : (inner.map Prod.fst).Nodup) :
    parse? text = some (top ++ [(name, .table .header inner)]) := by
  have hstatements := hlists (text.toList.length + 1) (Nat.lt_succ_self _)
  have htakeTop : takeSettings ((settingsOf top).map .setting ++
      .header false [name] :: (settingsOf inner).map .setting) =
        (settingsOf top, .header false [name] :: (settingsOf inner).map .setting) :=
    takeSettings_append (settingsOf top) rfl
  have htakeInner : takeSettings ((settingsOf inner).map .setting) = (settingsOf inner, []) := by
    have hnone : takeSettings [] = ([], []) := rfl
    have happend := takeSettings_append (settingsOf inner) hnone
    rwa [List.append_nil] at happend
  have haddTop : addSettings [] (settingsOf top) = some top := addSettings_settingsOf htop
  unfold parse?
  rw [dropMark_of_head?_ne hmark]
  dsimp only
  rw [hstatements]
  dsimp only
  rw [htakeTop]
  dsimp only
  rw [haddTop]
  dsimp only
  rw [List.length_cons, addSections, htakeInner]
  dsimp only
  rw [addSection?_of_notMem hname hinner]
  rfl

end Toml
end SolidScript
