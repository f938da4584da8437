import SolidScript.Proofs.Script.Indentation
import SolidScript.Proofs.Script.Top

/-!
# Sections of a script

A script is made of three texts: the lines of its references, the lines of its assignments, and the
texts of its roots one after the other, each as if it stood alone.  Those that are not empty are
joined with one line feed, which is an empty line since each of them ends a line (`Sectioned`).  No
line inside a section is blank, be it of a reference, an assignment or a node, so the blank lines of
a script are the places where two sections meet (`emit_sectioned`).
-/

namespace SolidScript
namespace Script

/-! ## Groups with something between them -/

theorem intercalate_ne_nil {α : Type} {sep : α} {groups : List (List α)} (hnil : groups ≠ [])
    (hne : ∀ group ∈ groups, group ≠ []) : [sep].intercalate groups ≠ [] := by
  cases groups with
  | nil => exact absurd rfl hnil
  | cons first rest =>
      have hfirst := hne first List.mem_cons_self
      cases rest with
      | nil => rwa [List.intercalate_singleton]
      | cons next more =>
          rw [List.intercalate_cons_cons, List.append_assoc]
          exact List.append_ne_nil_of_left_ne_nil hfirst _

/-- What comes first in groups put together with something between them is in one of them. -/
theorem exists_mem_of_mem_head?_intercalate {α : Type} {sep x : α} {groups : List (List α)}
    (hne : ∀ group ∈ groups, group ≠ []) (h : x ∈ ([sep].intercalate groups).head?) :
    ∃ group ∈ groups, x ∈ group := by
  cases groups with
  | nil => cases h
  | cons first rest =>
      refine ⟨first, List.mem_cons_self, ?_⟩
      have hfirst := hne first List.mem_cons_self
      apply List.mem_of_mem_head?
      cases rest with
      | nil => rwa [List.intercalate_singleton] at h
      | cons next more =>
          rwa [List.intercalate_cons_cons, List.append_assoc,
            List.head?_append_of_ne_nil _ hfirst] at h

/-- What comes last in groups put together with something between them is in one of them. -/
theorem exists_mem_of_mem_getLast?_intercalate {α : Type} {sep x : α} {groups : List (List α)}
    (hne : ∀ group ∈ groups, group ≠ []) (h : x ∈ ([sep].intercalate groups).getLast?) :
    ∃ group ∈ groups, x ∈ group := by
  induction groups with
  | nil => cases h
  | cons first rest ih =>
      rw [List.forall_mem_cons] at hne
      cases rest with
      | nil =>
          rw [List.intercalate_singleton] at h
          exact ⟨first, List.mem_cons_self, List.mem_of_mem_getLast? h⟩
      | cons next more =>
          have hrest : [sep].intercalate (next :: more) ≠ [] :=
            intercalate_ne_nil (List.cons_ne_nil next more) hne.2
          rw [List.intercalate_cons_cons, List.getLast?_append_of_ne_nil _ hrest] at h
          obtain ⟨group, hgroup, hx⟩ := ih hne.2 h
          exact ⟨group, List.mem_cons_of_mem _ hgroup, hx⟩

/-! ## Texts made of sections -/

/-- The lines of a text that a line feed ends. -/
def endedLines (text : String) : List (List Char) := (text.toList.splitOn '\n').dropLast

/-- A line with nothing but blanks in it, or with nothing at all. -/
def IsBlankLine (line : List Char) : Prop := ∀ c ∈ line, Text.isBlank c = true

instance (line : List Char) : Decidable (IsBlankLine line) :=
  inferInstanceAs (Decidable (∀ c ∈ line, Text.isBlank c = true))

/-- A text that ends all its lines, none of them blank. -/
structure IsSection (text : String) : Prop where
  ended : text.toList.splitOn '\n' = endedLines text ++ [[]]
  not_blank : ∀ line ∈ endedLines text, ¬ IsBlankLine line

/-- The text is made of those of the sections that are not empty. -/
structure Sectioned (sections : List String) (text : String) : Prop where
  /-- One line feed stands between two sections. -/
  joined : text = "\n".intercalate (sections.filter (· ≠ ""))
  eq_empty_iff : text = "" ↔ ∀ part ∈ sections, part = ""
  /-- Nothing stands behind the last line feed of the text. -/
  ended : text.toList.splitOn '\n' = endedLines text ++ [[]]
  /-- One empty line stands between the lines of two sections, and no other line is added. -/
  lines : endedLines text = [[]].intercalate ((sections.filter (· ≠ "")).map endedLines)
  not_blank : ∀ part ∈ sections, ∀ line ∈ endedLines part, ¬ IsBlankLine line
  starts : ∀ line ∈ (endedLines text).head?, ¬ IsBlankLine line
  ends : ∀ line ∈ (endedLines text).getLast?, ¬ IsBlankLine line

theorem endedLines_of_splitOn {text : String} {lines : List (List Char)}
    (h : text.toList.splitOn '\n' = lines ++ [[]]) : endedLines text = lines := by
  rw [endedLines, h, List.dropLast_concat]

/-- A text without lines is empty. -/
theorem IsSection.endedLines_ne_nil {text : String} (h : IsSection text) (hne : text ≠ "") :
    endedLines text ≠ [] := by
  intro hnil
  apply hne
  have hjoin : ['\n'].intercalate (text.toList.splitOn '\n') = text.toList :=
    List.intercalate_splitOn '\n'
  rw [h.ended, hnil] at hjoin
  exact String.toList_eq_nil_iff.mp hjoin.symm

/-- Behind a text that ends its lines, a line feed is an empty line. -/
theorem splitOn_intercalate_sections {sections : List String} (hne : sections ≠ [])
    (h : ∀ part ∈ sections, IsSection part) :
    ("\n".intercalate sections).toList.splitOn '\n' =
      [[]].intercalate (sections.map endedLines) ++ [[]] := by
  induction sections with
  | nil => exact absurd rfl hne
  | cons part rest ih =>
      rw [List.forall_mem_cons] at h
      cases rest with
      | nil =>
          rw [String.intercalate_singleton, List.map_singleton, List.intercalate_singleton]
          exact h.1.ended
      | cons next more =>
          have hsplit := List.splitOnP_append_cons (p := (· == '\n')) part.toList
            ("\n".intercalate (next :: more)).toList (beq_self_eq_true '\n')
          rw [String.intercalate_cons_cons, String.toList_append, String.toList_append,
            List.append_assoc, List.map_cons, List.map_cons, List.intercalate_cons_cons]
          refine hsplit.trans ?_
          rw [← List.splitOn, ← List.splitOn, h.1.ended, ih (List.cons_ne_nil next more) h.2,
            List.map_cons]
          simp only [List.append_assoc]

/-- Sections joined by a line feed make a text of sections. -/
theorem sectioned_intercalate {sections : List String} (h : ∀ part ∈ sections, IsSection part) :
    Sectioned sections ("\n".intercalate (sections.filter (· ≠ ""))) := by
  have hkept : ∀ part ∈ sections.filter (· ≠ ""), IsSection part := fun part hpart =>
    h part (List.mem_of_mem_filter hpart)
  have hgroups : ∀ group ∈ (sections.filter (· ≠ "")).map endedLines, group ≠ [] := by
    refine List.forall_mem_map.mpr fun part hpart => ?_
    exact (hkept part hpart).endedLines_ne_nil (by simpa using (List.mem_filter.mp hpart).2)
  have hsplit : ("\n".intercalate (sections.filter (· ≠ ""))).toList.splitOn '\n' =
      [[]].intercalate ((sections.filter (· ≠ "")).map endedLines) ++ [[]] := by
    by_cases hnil : sections.filter (· ≠ "") = []
    · rw [hnil]
      rfl
    · exact splitOn_intercalate_sections hnil hkept
  have hlines := endedLines_of_splitOn hsplit
  have hmem : ∀ line, (∃ group ∈ (sections.filter (· ≠ "")).map endedLines, line ∈ group) →
      ¬ IsBlankLine line := by
    rintro line ⟨group, hgroup, hline⟩
    obtain ⟨part, hpart, rfl⟩ := List.mem_map.mp hgroup
    exact (hkept part hpart).not_blank line hline
  refine ⟨rfl, ?_, hsplit.trans (by rw [hlines]), hlines,
    fun part hpart => (h part hpart).not_blank, fun line hline => ?_, fun line hline => ?_⟩
  · have hnil : sections.filter (· ≠ "") = [] ↔ ∀ part ∈ sections, part = "" := by
      simp [List.filter_eq_nil_iff]
    rw [← hnil]
    constructor
    · -- an empty text has no lines, and a section that is kept has some
      intro hempty
      by_contra hsome
      rw [hempty] at hlines
      exact intercalate_ne_nil (mt List.map_eq_nil_iff.mp hsome) hgroups hlines.symm
    · intro hempty
      rw [hempty, String.intercalate_nil]
  · rw [hlines] at hline
    exact hmem line (exists_mem_of_mem_head?_intercalate hgroups hline)
  · rw [hlines] at hline
    exact hmem line (exists_mem_of_mem_getLast?_intercalate hgroups hline)

/-! ## Lines of a section -/

theorem IsPlain.not_isBlankLine {line : Line} (h : IsPlain line.text) (indent : Nat) :
    ¬ IsBlankLine (line.chars indent) := by
  obtain ⟨c, cs, htext, hc⟩ := h.flush
  have hmem : c ∈ line.chars indent := by
    rw [Line.chars, htext]
    exact List.mem_append_right _ List.mem_cons_self
  intro hblank
  rw [hblank c hmem] at hc
  cases hc

theorem isSection_renderLines (indent : Nat) {lines : List Line}
    (h : ∀ line ∈ lines, IsPlain line.text) : IsSection (renderLines indent lines) := by
  have hsplit := splitOn_renderLines indent h
  have hlines := endedLines_of_splitOn hsplit
  refine ⟨hsplit.trans (by rw [hlines]), ?_⟩
  rw [hlines, List.forall_mem_map]
  exact fun line hline => (h line hline).not_isBlankLine indent

theorem renderLines_eq_empty_iff (indent : Nat) (lines : List Line) :
    renderLines indent lines = "" ↔ lines = [] := by
  cases lines with
  | nil => exact iff_of_true rfl rfl
  | cons line rest =>
      refine iff_of_false (fun h => ?_) (List.cons_ne_nil line rest)
      have hchars := congrArg String.toList h
      simp [renderLines, Line.render] at hchars

/-- Joining the lines of sections joins their texts. -/
theorem joinSections_eq_intercalate (indent : Nat) (sections : List (List Line)) :
    joinSections indent sections =
      "\n".intercalate ((sections.map (renderLines indent)).filter (· ≠ "")) := by
  have hkeep : ((fun text : String => decide (text ≠ "")) ∘ renderLines indent) =
      fun lines => !lines.isEmpty := by
    funext lines
    rw [Function.comp_apply, Bool.eq_iff_iff, decide_eq_true_eq, ne_eq,
      renderLines_eq_empty_iff]
    simp
  rw [joinSections, List.filter_map, hkeep]

/-- The lines of all references as one text. -/
def referencesText (references : List Reference) : String :=
  String.join (references.map fun ref => referenceText ref ++ "\n")

theorem isPlain_referenceLines {references : List Reference} {lines : List Line}
    (h : referenceLines references = .ok lines) : ∀ line ∈ lines, IsPlain line.text := by
  obtain ⟨rfl, hlines⟩ := referenceLines_eq_map h
  refine List.forall_mem_map.mpr fun ref href => ⟨hlines ref href, ?_⟩
  cases hkind : ref.kind with
  | useFile => exact ⟨'u', _, by rw [referenceText, hkind]; simp; rfl, by decide⟩
  | includeFile => exact ⟨'i', _, by rw [referenceText, hkind]; simp; rfl, by decide⟩

theorem renderLines_referenceLines (indent : Nat) {references : List Reference} {lines : List Line}
    (h : referenceLines references = .ok lines) :
    renderLines indent lines = referencesText references := by
  obtain ⟨rfl, -⟩ := referenceLines_eq_map h
  rw [renderLines, referencesText, List.map_map]
  congr 2
  funext ref
  simp [Line.render]

/-- The line of an assignment, if its value has a text. -/
def settingText? (setting : String × Number) : Option String :=
  (numeral? setting.2).map fun text => setting.1 ++ " = " ++ text ++ ";\n"

theorem isPlain_setting {name tail : String} (hname : name ∈ Reading.settingNames)
    (htail : Unbroken tail) : IsPlain (name ++ tail) := by
  have hdollar : ∀ name ∈ Reading.settingNames, name.toList.head? = some '$' := by
    decide
  have hunbroken := unbroken_of_wellFormed (Reading.wellFormed_of_mem_settingNames hname)
  obtain ⟨cs, hcs⟩ := List.head?_eq_some_iff.mp (hdollar name hname)
  refine ⟨unbroken_append.mpr ⟨hunbroken, htail⟩, '$', cs ++ tail.toList, ?_, by decide⟩
  rw [String.toList_append, hcs, List.cons_append]

/-- The lines of assignments can be found again, and they are the lines of each of them. -/
theorem exists_of_assignmentLines (indent : Nat) {settings : List (String × Number)}
    (hnames : ∀ setting ∈ settings, setting.1 ∈ Reading.settingNames) {lines : List Line}
    (h : assignmentLines settings = .ok lines) :
    (∀ line ∈ lines, IsPlain line.text) ∧
      ∃ texts, settings.mapM settingText? = some texts ∧
        renderLines indent lines = String.join texts := by
  induction settings generalizing lines with
  | nil =>
      cases h
      exact ⟨nofun, [], rfl, rfl⟩
  | cons setting rest ih =>
      obtain ⟨name, x⟩ := setting
      rw [List.forall_mem_cons] at hnames
      obtain ⟨numeral, others, hnumeral, hothers, rfl⟩ := assignmentLines_cons_eq_ok h
      obtain ⟨hplain, texts, htexts, hrender⟩ := ih hnames.2 hothers
      have hline : IsPlain (name ++ (" = " ++ numeral ++ ";")) := by
        refine isPlain_setting hnames.1 ?_
        simp only [unbroken_append]
        exact ⟨⟨by decide, unbroken_numeral hnumeral⟩, by decide⟩
      refine ⟨List.forall_mem_cons.mpr ⟨?_, hplain⟩,
        (name ++ " = " ++ numeral ++ ";\n") :: texts, ?_, ?_⟩
      · simpa only [String.append_assoc] using hline
      · simp [settingText?, hnumeral, htexts]
      · rw [String.join_cons, ← hrender]
        simp [renderLines, Line.render, String.append_assoc]

/-! ## Sections without lines -/

theorem assignmentLines_eq_nil_iff {settings : List (String × Number)} {lines : List Line}
    (h : assignmentLines settings = .ok lines) : lines = [] ↔ settings = [] := by
  cases settings with
  | nil =>
      cases h
      exact iff_of_true rfl rfl
  | cons setting rest =>
      obtain ⟨text, others, -, -, rfl⟩ := assignmentLines_cons_eq_ok h
      exact iff_of_false (List.cons_ne_nil _ _) (List.cons_ne_nil _ _)

theorem assignments_eq_nil_iff (resolution : Resolution) :
    resolution.assignments = [] ↔ resolution.isEmpty = true := by
  obtain ⟨fa, fs, fn⟩ := resolution
  cases fa <;> cases fs <;> cases fn <;> simp [Resolution.assignments, Resolution.isEmpty]

/-- A node has lines unless it is a reference; an empty comment has one too. -/
theorem isEmpty_lineDepths (style : TransformStyle) (depth : Nat) (node : Node) :
    (lineDepths style depth node).isEmpty = !hasLines node := by
  cases node with
  | primitive shape params => rfl
  | call name params => rfl
  | composite frame children =>
      rw [lineDepths]
      split_ifs <;> rfl
  | reference ref => rfl
  | comment text =>
      rw [lineDepths, List.isEmpty_map, commentContents]
      cases Text.lines text.toList <;> rfl

theorem isEmpty_nodesLineDepths (style : TransformStyle) (depth : Nat) (nodes : List Node) :
    (nodesLineDepths style depth nodes).isEmpty = !nodes.any hasLines := by
  induction nodes with
  | nil => rfl
  | cons node rest ih =>
      rw [nodesLineDepths, List.any_cons, Bool.not_or, ← ih, ← isEmpty_lineDepths style depth node]
      cases lineDepths style depth node <;> rfl

theorem nodesLines_eq_nil_iff {style : TransformStyle} {depth : Nat} {nodes : List Node}
    {lines : List Line} (h : nodesLines style depth nodes = .ok lines) :
    lines = [] ↔ nodes.any hasLines = false := by
  have hlength := List.Forall₂.length_eq (laidOut_nodesLines h)
  have hdepths := isEmpty_nodesLineDepths style depth nodes
  rw [← List.length_eq_zero_iff, ← hlength, List.length_eq_zero_iff, ← List.isEmpty_iff, hdepths,
    Bool.not_eq_true']

/-! ## Whole scripts -/

/-- Without references and assignments, a script is the texts of its roots. -/
theorem emit_roots (config : Config) (roots : List Node) :
    emit { config with resolution := {} } [] roots =
      (roots.mapM (nodeText config 0)).map String.join := by
  rw [← nodesLines_map_renderLines]
  change (nodesLines config.style 0 roots >>= fun third =>
    .ok (joinSections config.indent [[], [], third])) = _
  cases nodesLines config.style 0 roots with
  | error fault => rfl
  | ok third =>
      cases third with
      | nil => rfl
      | cons line rest => exact congrArg Except.ok String.intercalate_singleton

/-- A text with an empty line behind it, unless it is empty itself. -/
def sectionBreak (text : String) : String := if text = "" then "" else text ++ "\n"

/-- The script written from its top.  Before each section it is known whether the section has lines,
and only then the text so far is broken off. -/
def emitInOrder (config : Config) (references : List Reference) (roots : List Node) :
    Except Fault String := do
  let first ← referenceLines references
  let written := renderLines config.indent first
  let written ←
    if config.resolution.isEmpty then .ok written
    else do
      let second ← assignmentLines config.resolution.assignments
      .ok (sectionBreak written ++ renderLines config.indent second)
  let written := if roots.any hasLines then sectionBreak written else written
  let third ← nodesLines config.style 0 roots
  .ok (written ++ renderLines config.indent third)

/-- A section that is not empty stands behind a break. -/
def addSection (written part : String) : String :=
  if part = "" then written else sectionBreak written ++ part

/-- Joining three sections is adding them one after the other. -/
theorem intercalate_sections (first second third : String) :
    "\n".intercalate ([first, second, third].filter (· ≠ "")) =
      addSection (addSection first second) third := by
  by_cases hfirst : first = "" <;> by_cases hsecond : second = "" <;>
    by_cases hthird : third = "" <;>
      simp [hfirst, hsecond, hthird, addSection, sectionBreak, String.append_assoc]

/-- It makes no difference whether the sections are joined when all of them are finished, or written
one after the other, each after a look at what it is made from. -/
theorem emit_eq_emitInOrder (config : Config) (references : List Reference) (roots : List Node) :
    emit config references roots = emitInOrder config references roots := by
  unfold emit emitInOrder
  cases referenceLines references with
  | error fault => rfl
  | ok first =>
      have hsettings := assignments_eq_nil_iff config.resolution
      cases hsecond : assignmentLines config.resolution.assignments with
      | error fault =>
          -- there is a setting, or nothing could be wrong with one
          have hsome : config.resolution.isEmpty = false := by
            rw [Bool.eq_false_iff, Ne, ← hsettings]
            intro hnil
            rw [hnil] at hsecond
            cases hsecond
          rw [hsome]
          rfl
      | ok second =>
          have hassignments : ∀ written, addSection written (renderLines config.indent second) =
              if config.resolution.isEmpty then written
              else sectionBreak written ++ renderLines config.indent second := by
            intro written
            simp only [addSection, renderLines_eq_empty_iff, assignmentLines_eq_nil_iff hsecond,
              hsettings]
          cases hthird : nodesLines config.style 0 roots with
          | error fault => cases config.resolution.isEmpty <;> rfl
          | ok third =>
              have hroots : ∀ written, addSection written (renderLines config.indent third) =
                  (if roots.any hasLines then sectionBreak written else written) ++
                    renderLines config.indent third := by
                intro written
                have hnone := (renderLines_eq_empty_iff config.indent third).trans
                  (nodesLines_eq_nil_iff hthird)
                rw [addSection]
                cases hany : roots.any hasLines with
                | false => simp [hnone.mpr hany]
                | true => simp [hnone, hany]
              change Except.ok (joinSections config.indent [first, second, third]) = _
              rw [joinSections_eq_intercalate, List.map_cons, List.map_cons, List.map_cons,
                List.map_nil, intercalate_sections, hassignments, hroots]
              cases config.resolution.isEmpty <;> rfl

/-- A script is made of three sections: the lines of its references in their order, the assignments
of the resolution that is set, and the texts of its roots one after the other, each as at depth
zero.  Which sections there are is known beforehand: a section is empty exactly when there is no
reference, no value is set, or no root is anything but a reference.  Without references and
assignments, the script of roots behind other roots is their script behind the script of those. -/
theorem emit_sectioned (config : Config) :
    (∀ references roots script, emit config references roots = .ok script →
      ∃ settings statements,
        config.resolution.assignments.mapM settingText? = some settings ∧
        roots.mapM (nodeText config 0) = .ok statements ∧
        Sectioned [referencesText references, String.join settings, String.join statements]
          script ∧
        (referencesText references = "" ↔ references = []) ∧
        (String.join settings = "" ↔ config.resolution.isEmpty = true) ∧
        (String.join statements = "" ↔ roots.any hasLines = false)) ∧
    ∀ xs ys, emit { config with resolution := {} } [] (xs ++ ys) = (do
      let first ← emit { config with resolution := {} } [] xs
      let last ← emit { config with resolution := {} } [] ys
      .ok (first ++ last)) := by
  constructor
  · intro references roots script h
    unfold emit at h
    obtain ⟨first, hfirst, h⟩ := exists_of_bind_eq_ok h
    obtain ⟨second, hsecond, h⟩ := exists_of_bind_eq_ok h
    obtain ⟨third, hthird, hok⟩ := exists_of_bind_eq_ok h
    cases hok
    have hnames : ∀ setting ∈ config.resolution.assignments, setting.1 ∈ Reading.settingNames :=
      fun _ => Reading.mem_settingNames_of_mem_assignments
    obtain ⟨hplain, settings, hsettings, hassignments⟩ :=
      exists_of_assignmentLines config.indent hnames hsecond
    have hreferences := renderLines_referenceLines config.indent hfirst
    have hnodes := nodesLines_map_renderLines config 0 roots
    rw [hthird] at hnodes
    obtain ⟨statements, hstatements, hroots⟩ := map_eq_ok hnodes.symm
    have hsections : ∀ part ∈ [first, second, third].map (renderLines config.indent),
        IsSection part := by
      simp only [List.forall_mem_map, List.forall_mem_cons]
      exact ⟨isSection_renderLines _ (isPlain_referenceLines hfirst),
        isSection_renderLines _ hplain,
        isSection_renderLines _ (laidOut_nodesLines hthird).isPlain, nofun⟩
    have hsectioned := sectioned_intercalate hsections
    rw [← joinSections_eq_intercalate] at hsectioned
    simp only [List.map_cons, List.map_nil, hreferences, hassignments, ← hroots] at hsectioned
    refine ⟨settings, statements, hsettings, hstatements, hsectioned, ?_, ?_, ?_⟩
    · rw [← hreferences, renderLines_eq_empty_iff, (referenceLines_eq_map hfirst).1,
        List.map_eq_nil_iff]
    · rw [← hassignments, renderLines_eq_empty_iff, assignmentLines_eq_nil_iff hsecond,
        assignments_eq_nil_iff]
    · rw [hroots, renderLines_eq_empty_iff, nodesLines_eq_nil_iff hthird]
  · intro xs ys
    simp only [emit_roots]
    rw [List.mapM_append]
    cases xs.mapM (nodeText config 0) with
    | error fault => rfl
    | ok first =>
        cases ys.mapM (nodeText config 0) with
        | error fault => rfl
        | ok last => exact congrArg Except.ok String.join_append

/-- Three sections, with a reference among the roots and an empty comment. -/
theorem emit_sectioned_lid :
    let gears : Reference := ⟨.useFile, "gears.scad"⟩
    let text := "use <gears.scad>\n\n$fn = 32;\n\n//\ncube();\n"
    emit { resolution := { fn := some (Number.ofNat 32) } } [gears]
        [.comment "", .reference gears, .primitive .cube .empty] = .ok text ∧
      Sectioned ["use <gears.scad>\n", "$fn = 32;\n", "//\ncube();\n"] text := by
  intro gears text
  have htext : emit { resolution := { fn := some (Number.ofNat 32) } } [gears]
      [.comment "", .reference gears, .primitive .cube .empty] = .ok text := by decide +kernel
  obtain ⟨settings, statements, hsettings, hstatements, hsectioned, -⟩ :=
    (emit_sectioned _).1 _ _ _ htext
  obtain rfl : settings = ["$fn = 32;\n"] :=
    Option.some.inj (hsettings.symm.trans (by decide +kernel))
  obtain rfl : statements = ["//\n", "", "cube();\n"] :=
    Except.ok.inj (hstatements.symm.trans (by decide +kernel))
  have hreferences : referencesText [gears] = "use <gears.scad>\n" := by decide +kernel
  have hsettings : String.join ["$fn = 32;\n"] = "$fn = 32;\n" := by decide +kernel
  have hstatements : String.join ["//\n", "", "cube();\n"] = "//\ncube();\n" := by decide +kernel
  rw [hreferences, hsettings, hstatements] at hsectioned
  exact ⟨htext, hsectioned⟩

end Script
end SolidScript
