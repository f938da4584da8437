import SolidScript.Proofs.Script.RoundTrip

/-!
# The top of a script

The lines of references stand at the top of a script, one for each reference of the document, and
nothing else can be taken for one of them (`topReferenceLines_render`).  What follows the section of
references is an empty line.  Where there is no such section, the script starts with an assignment,
a call or a comment: the first word of such a line is not followed by a space, as the keyword of a
reference is (`OpensOther`).
-/

namespace SolidScript
namespace Script

/-- Does the line refer to another file? -/
def isReferenceLine (line : List Char) : Bool :=
  ReferenceKind.all.any fun kind => (kind.keyword ++ " <").toList.isPrefixOf line

/-- The lines of references at the top of a script: those before the first other line. -/
def topReferenceLines (script : String) : List (List Char) :=
  (script.toList.splitOn '\n').takeWhile isReferenceLine

/-- The text of the line of a reference. -/
def referenceText (ref : Reference) : String := ref.kind.keyword ++ " <" ++ ref.path ++ ">"

/-- The characters start with a word, perhaps an empty one, that is not followed by a space. -/
def OpensOther (cs : List Char) : Prop := (cs.dropWhile Identifier.isTail).head? ≠ some ' '

/-! ## What a line starts with -/

theorem isReferenceLine_referenceText (ref : Reference) :
    isReferenceLine (referenceText ref).toList = true := by
  have hkind : ref.kind ∈ ReferenceKind.all := by
    cases ref.kind <;> decide
  refine List.any_eq_true.mpr ⟨ref.kind, hkind, ?_⟩
  rw [List.isPrefixOf_iff_prefix, referenceText]
  exact ⟨(ref.path ++ ">").toList, by simp⟩

/-- The keyword of a reference is a word with a space behind it. -/
theorem isReferenceLine_eq_false {line script : List Char} (hstart : line <+: script)
    (h : OpensOther script) : isReferenceLine line = false := by
  rw [isReferenceLine, List.any_eq_false]
  intro kind _ hkeyword
  obtain ⟨more, rfl⟩ := (List.isPrefixOf_iff_prefix.mp hkeyword).trans hstart
  have hword : ∀ c ∈ kind.keyword.toList, Identifier.isTail c = true := by
    cases kind <;> exact List.all_eq_true.mp (by decide)
  apply h
  rw [String.toList_append, List.append_assoc, List.dropWhile_append_of_pos hword]
  rfl

theorem opensOther_cons {c : Char} (htail : Identifier.isTail c = false) (hspace : c ≠ ' ')
    (cs : List Char) : OpensOther (c :: cs) := by
  rw [OpensOther, List.dropWhile_cons_of_neg (by simp [htail])]
  simpa using hspace

/-- A name in front of a bracket is a word, unless it starts with a dollar sign. -/
theorem opensOther_name {name : List Char} (h : Identifier.wellFormed name = true)
    (rest : List Char) : OpensOther (name ++ '(' :: rest) := by
  cases name with
  | nil => cases h
  | cons c cs =>
      obtain ⟨hhead, htail⟩ := Reading.isTail_of_wellFormed h
      by_cases hc : Identifier.isTail c = true
      · have hword : ∀ d ∈ c :: cs, Identifier.isTail d = true :=
          List.forall_mem_cons.mpr ⟨hc, htail⟩
        rw [OpensOther, List.dropWhile_append_of_pos hword]
        exact opensOther_cons (by decide) (by decide) rest
      · apply opensOther_cons (Bool.eq_false_iff.mpr hc)
        rintro rfl
        revert hhead
        decide

/-! ## Sections -/

/-- The first of the lines, if there is one, is not indented and no line of a reference. -/
def StartOther (lines : List Line) : Prop :=
  ∀ line ∈ lines.head?, line.depth = 0 ∧ ∀ rest, OpensOther (line.text.toList ++ rest)

theorem startOther_nil : StartOther [] := fun _ => nofun

theorem startOther_call {name : String} {params : Params} {call : String}
    (h : callText name params = .ok call) (tail : String) (lines : List Line) :
    StartOther (⟨0, call ++ tail⟩ :: lines) := by
  obtain ⟨hname, texts, -, rfl⟩ := callText_eq_ok h
  intro line hline
  cases hline
  refine ⟨rfl, fun rest => ?_⟩
  have htext : (name ++ "(" ++ commaSeparated texts ++ ")" ++ tail).toList ++ rest =
      name.toList ++ '(' :: ((commaSeparated texts).toList ++ ')' :: (tail.toList ++ rest)) := by
    simp
  rw [htext]
  exact opensOther_name (Identifier.wellFormed_of_isValid hname) _

theorem startOther_commentLines (text : String) : StartOther (commentLines 0 text) := by
  have hcomment (cs : List Char) : (commentLine 0 cs).depth = 0 ∧
      ∀ rest, OpensOther ((commentLine 0 cs).text.toList ++ rest) := by
    refine ⟨rfl, fun rest => ?_⟩
    unfold commentLine
    dsimp only
    split
    · exact opensOther_cons (by decide) (by decide) _
    · rw [String.toList_append]
      exact opensOther_cons (by decide) (by decide) _
  intro line hline
  unfold commentLines at hline
  split at hline
  · cases hline
    exact hcomment []
  · rw [List.head?_map] at hline
    obtain ⟨cs, -, rfl⟩ := Option.map_eq_some_iff.mp hline
    exact hcomment cs

theorem startOther_nodeLines {style : TransformStyle} {node : Node} {lines : List Line}
    (h : nodeLines style 0 node = .ok lines) : StartOther lines := by
  cases node with
  | primitive shape params =>
      obtain ⟨call, hcall, rfl⟩ := nodeLines_primitive_eq_ok h
      exact startOther_call hcall ";" []
  | call name params =>
      obtain ⟨call, hcall, rfl⟩ := nodeLines_call_eq_ok h
      exact startOther_call hcall ";" []
  | composite frame children =>
      obtain ⟨call, inner, hcall, -, rfl⟩ := nodeLines_composite_eq_ok h
      -- with braces or without, the call comes first
      unfold compositeLines
      split_ifs
      · have hlines := startOther_call hcall "" inner
        rwa [String.append_empty] at hlines
      · exact startOther_call hcall " \x7b" _
      · exact startOther_call hcall " \x7b\x7d" []
  | reference ref =>
      cases h
      exact startOther_nil
  | comment text =>
      cases h
      exact startOther_commentLines text

theorem startOther_nodesLines {style : TransformStyle} {nodes : List Node} {lines : List Line}
    (h : nodesLines style 0 nodes = .ok lines) : StartOther lines := by
  induction nodes generalizing lines with
  | nil =>
      cases h
      exact startOther_nil
  | cons node rest ih =>
      obtain ⟨first, others, hfirst, hothers, rfl⟩ := nodesLines_cons_eq_ok h
      -- a reference has no lines here, so the first line may be that of a later node
      cases first with
      | nil => exact ih hothers
      | cons line more =>
          have hline := startOther_nodeLines hfirst line rfl
          exact fun found hfound => Option.some.inj hfound ▸ hline

theorem startOther_assignmentLines {resolution : Resolution} {lines : List Line}
    (h : assignmentLines resolution.assignments = .ok lines) : StartOther lines := by
  have hdollar : ∀ name ∈ Reading.settingNames, name.toList.head? = some '$' := by
    decide
  cases hsettings : resolution.assignments with
  | nil =>
      rw [hsettings] at h
      cases h
      exact startOther_nil
  | cons setting rest =>
      obtain ⟨name, value⟩ := setting
      have hname : (name, value) ∈ resolution.assignments := hsettings ▸ List.mem_cons_self
      obtain ⟨cs, hcs⟩ :=
        List.head?_eq_some_iff.mp (hdollar name (Reading.mem_settingNames_of_mem_assignments hname))
      rw [hsettings] at h
      obtain ⟨text, others, -, -, rfl⟩ := assignmentLines_cons_eq_ok h
      intro line hline
      cases hline
      refine ⟨rfl, fun more => ?_⟩
      dsimp only
      rw [String.append_assoc, String.append_assoc, String.toList_append, hcs]
      exact opensOther_cons (by decide) (by decide) _

/-! ## Whole scripts -/

/-- The first section that has lines is followed by the end of the script or an empty line. -/
theorem exists_joinSections (indent : Nat) {lines : List Line} (hlines : lines ≠ [])
    (sections : List (List Line)) :
    ∃ rest, (joinSections indent (lines :: sections)).toList =
        (renderLines indent lines).toList ++ rest ∧ (rest = [] ∨ ∃ cs, rest = '\n' :: cs) := by
  have hkeep : (!lines.isEmpty) = true := by simpa using hlines
  have hfilter := List.filter_cons_of_pos (p := (!List.isEmpty ·)) (l := sections) hkeep
  unfold joinSections
  rw [hfilter, List.map_cons]
  by_cases hnil : (sections.filter (!·.isEmpty)).map (renderLines indent) = []
  · refine ⟨[], ?_, .inl rfl⟩
    rw [hnil, List.append_nil]
    rfl
  · rw [String.intercalate_cons_of_ne_nil hnil, String.append_assoc, String.toList_append,
      String.toList_append]
    exact ⟨_, rfl, .inr ⟨_, rfl⟩⟩

theorem opensOther_joinSections (indent : Nat) {sections : List (List Line)}
    (h : ∀ lines ∈ sections, StartOther lines) :
    OpensOther (joinSections indent sections).toList := by
  induction sections with
  | nil => exact fun h => nomatch h
  | cons lines sections ih =>
      rw [List.forall_mem_cons] at h
      cases lines with
      | nil => exact ih h.2
      | cons line more =>
          obtain ⟨rest, hrest, -⟩ :=
            exists_joinSections indent (List.cons_ne_nil line more) sections
          obtain ⟨hdepth, hopens⟩ := h.1 line rfl
          have htext : (renderLines indent (line :: more)).toList =
              line.text.toList ++ '\n' :: (renderLines indent more).toList := by
            simp [renderLines, Line.render, hdepth]
          rw [hrest, htext, List.append_assoc]
          exact hopens _

theorem topReferenceLines_eq_nil {script : String} (h : OpensOther script.toList) :
    topReferenceLines script = [] := by
  have hfirst : ∃ first rest, script.toList.splitOn '\n' = first :: rest ∧
      first <+: script.toList := by
    by_cases hnewline : '\n' ∈ script.toList
    · obtain ⟨first, rest, hsplit, hfirst⟩ := List.eq_append_cons_of_mem hnewline
      refine ⟨first, rest.splitOn '\n', ?_, hsplit ▸ List.prefix_append _ _⟩
      rw [hsplit]
      exact List.splitOnP_append_cons_of_forall_mem
        (fun c hc => beq_false_of_ne (ne_of_mem_of_not_mem hc hfirst)) '\n' rfl rest
    · refine ⟨script.toList, [], ?_, List.prefix_rfl⟩
      exact List.splitOnP_eq_singleton
        fun c hc => beq_false_of_ne (ne_of_mem_of_not_mem hc hnewline)
  obtain ⟨first, rest, hsplit, hstart⟩ := hfirst
  rw [topReferenceLines, hsplit, List.takeWhile_cons_of_neg]
  rw [isReferenceLine_eq_false hstart h]
  exact Bool.false_ne_true

/-- The lines of references are what they are written as, and none of them is broken. -/
theorem referenceLines_eq_map {references : List Reference} {lines : List Line}
    (h : referenceLines references = .ok lines) :
    lines = references.map (⟨0, referenceText ·⟩) ∧
      ∀ ref ∈ references, '\n' ∉ (referenceText ref).toList := by
  induction references generalizing lines with
  | nil =>
      cases h
      exact ⟨rfl, nofun⟩
  | cons ref rest ih =>
      obtain ⟨hwritable, others, hothers, rfl⟩ := referenceLines_cons_eq_ok h
      obtain ⟨rfl, hrest⟩ := ih hothers
      refine ⟨rfl, List.forall_mem_cons.mpr ⟨?_, hrest⟩⟩
      have hpath : '\n' ∉ ref.path.toList := notMem_of_isWritablePath hwritable (by decide)
      have hkeyword : '\n' ∉ ref.kind.keyword.toList := by
        cases ref.kind <;> decide
      simp [referenceText, hpath, hkeyword]

theorem takeWhile_splitOn_references {references : List Reference} {rest : List Char}
    (hlines : ∀ ref ∈ references, '\n' ∉ (referenceText ref).toList)
    (hrest : rest = [] ∨ ∃ cs, rest = '\n' :: cs) (indent : Nat) :
    (((renderLines indent (references.map (⟨0, referenceText ·⟩))).toList ++ rest).splitOn
        '\n').takeWhile isReferenceLine =
      references.map fun ref => (referenceText ref).toList := by
  induction references with
  | nil =>
      -- an empty line ends the section, be it the last one or not
      rcases hrest with rfl | ⟨cs, rfl⟩
      · rfl
      · rfl
  | cons ref more ih =>
      rw [List.forall_mem_cons] at hlines
      have htext : (renderLines indent ((ref :: more).map (⟨0, referenceText ·⟩))).toList ++ rest =
          (referenceText ref).toList ++ '\n' ::
            ((renderLines indent (more.map (⟨0, referenceText ·⟩))).toList ++ rest) := by
        simp [renderLines, Line.render]
      have hline : ∀ c ∈ (referenceText ref).toList, (c == '\n') = false := fun c hc =>
        beq_false_of_ne (ne_of_mem_of_not_mem hc hlines.1)
      rw [htext, List.splitOn, List.splitOnP_append_cons_of_forall_mem hline '\n' rfl,
        List.takeWhile_cons_of_pos (isReferenceLine_referenceText ref), List.map_cons]
      exact congrArg _ (ih hlines.2)

/-- At the top of a script stand the lines of the collected references, and no other line there
looks like one of them. -/
theorem topReferenceLines_render {document : Document} {script : String}
    (h : document.render = .ok script) :
    topReferenceLines script =
      document.references.map fun ref => (referenceText ref).toList := by
  obtain ⟨first, second, third, hfirst, hsecond, hthird, rfl⟩ := emit_eq_ok h
  obtain ⟨rfl, hlines⟩ := referenceLines_eq_map hfirst
  by_cases hnone : document.references = []
  · rw [hnone]
    apply topReferenceLines_eq_nil
    apply opensOther_joinSections
    intro lines hmem
    simp only [List.mem_cons, List.not_mem_nil, or_false] at hmem
    rcases hmem with rfl | rfl | rfl
    · exact startOther_nil
    · exact startOther_assignmentLines hsecond
    · exact startOther_nodesLines hthird
  · have hsome : document.references.map (⟨0, referenceText ·⟩ : Reference → Line) ≠ [] :=
      fun heq => hnone (List.map_eq_nil_iff.mp heq)
    obtain ⟨rest, hjoin, hrest⟩ :=
      exists_joinSections document.config.indent hsome [second, third]
    rw [topReferenceLines, hjoin]
    exact takeWhile_splitOn_references hlines hrest document.config.indent

end Script
end SolidScript
