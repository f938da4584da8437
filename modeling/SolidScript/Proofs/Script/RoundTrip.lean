import SolidScript.Proofs.Script.Expression

/-!
# Scripts are read back

The lines of a node are cut into the tokens of its trees, whatever the depth, the indentation and
the style (`spells_nodeLines`).  The sections of a script follow one another without running
together, so the reader accepts every script and finds in it what was recorded
(`script_read_eq_recorded`).
-/

namespace SolidScript
namespace Reading

/-! ## Lines -/

theorem renderLines_append (indent : Nat) (xs ys : List Script.Line) :
    Script.renderLines indent (xs ++ ys) =
      Script.renderLines indent xs ++ Script.renderLines indent ys := by
  rw [Script.renderLines, List.map_append, String.join_append]
  rfl

theorem Spells.append_lines {indent : Nat} {xs ys : List Script.Line} {ts us : List Token}
    (hxs : Spells Anywhere (Script.renderLines indent xs).toList ts)
    (hys : Spells Anywhere (Script.renderLines indent ys).toList us) :
    Spells Anywhere (Script.renderLines indent (xs ++ ys)).toList (ts ++ us) := by
  rw [renderLines_append, String.toList_append]
  exact hxs.append_anywhere hys

/-- The spaces before a line and the line feed after it are no tokens. -/
theorem spells_line (indent depth : Nat) {text : String} {ts : List Token}
    (h : Spells BeforeLineEnd text.toList ts) :
    Spells Anywhere (Script.renderLines indent [⟨depth, text⟩]).toList ts := by
  have hspaces : Spells Anywhere (List.replicate (depth * indent) ' ') [] := by
    apply spells_spaces
    intro c hc
    rw [List.eq_of_mem_replicate hc]
    rfl
  have hend : Spells Anywhere (text.toList ++ ['\n']) (ts ++ []) :=
    h.append (spells_space rfl) fun _ _ => rfl
  have htext : (Script.renderLines indent [⟨depth, text⟩]).toList =
      List.replicate (depth * indent) ' ' ++ (text.toList ++ ['\n']) := by
    simp [Script.renderLines, Script.Line.render]
  rw [htext, ← List.append_nil ts]
  exact hspaces.append_anywhere hend

/-- A line and the lines after it. -/
theorem Spells.cons_line {indent depth : Nat} {text : String} {rest : List Script.Line}
    {ts us : List Token} (hline : Spells BeforeLineEnd text.toList ts)
    (hrest : Spells Anywhere (Script.renderLines indent rest).toList us) :
    Spells Anywhere (Script.renderLines indent (⟨depth, text⟩ :: rest)).toList (ts ++ us) :=
  (spells_line indent depth hline).append_lines hrest

/-! ## Comments -/

theorem newline_notMem_of_mem_linesFrom {line seen cs : List Char} (hseen : '\n' ∉ seen)
    (h : line ∈ Text.linesFrom seen cs) : '\n' ∉ line := by
  induction cs generalizing seen with
  | nil =>
      rw [Text.linesFrom] at h
      split at h
      · cases h
      · rw [List.mem_singleton.mp h, List.mem_reverse]
        exact hseen
  | cons c cs ih =>
      rw [Text.linesFrom] at h
      split at h
      · rcases List.mem_cons.mp h with rfl | hrest
        · -- the line is what was seen, perhaps without a carriage return at its end
          intro hmem
          unfold Text.dropReturn at hmem
          split at hmem
          · rename_i rest heq
            rw [List.reverse_reverse] at heq
            apply hseen
            rw [heq]
            exact List.mem_cons_of_mem _ (List.mem_reverse.mp hmem)
          · exact hseen (List.mem_reverse.mp hmem)
        · exact ih List.not_mem_nil hrest
      · rename_i hc
        refine ih ?_ h
        intro hmem
        rcases List.mem_cons.mp hmem with heq | hmem
        · exact hc heq.symm
        · exact hseen hmem

theorem mem_of_mem_trimEnd {c : Char} {cs : List Char} (h : c ∈ Text.trimEnd cs) : c ∈ cs := by
  have hmem := (List.dropWhile_sublist Text.isBlank).subset (List.mem_reverse.mp h)
  exact List.mem_reverse.mp hmem

/-- The line of a comment is one token, whose text has lost the blanks at its end. -/
theorem spells_commentLine (indent depth : Nat) {line : List Char} (h : '\n' ∉ line) :
    Spells Anywhere (Script.renderLines indent [Script.commentLine depth line]).toList
      [.atom (.comment (String.ofList (Text.trimEnd line)))] := by
  apply spells_line
  have hkept : '\n' ∉ Text.trimEnd line := fun hmem => h (mem_of_mem_trimEnd hmem)
  -- nothing is left of a blank line, and its comment has no space after the slashes
  cases htrim : Text.trimEnd line with
  | nil => exact spells_comment [] List.not_mem_nil
  | cons c cs =>
      rw [htrim] at hkept
      have hspell := spells_comment (' ' :: c :: cs) (by simpa using hkept)
      simpa [commentContent] using hspell

theorem spells_lineComments (indent depth : Nat) {lines : List (List Char)}
    (h : ∀ line ∈ lines, '\n' ∉ line) :
    Spells Anywhere (Script.renderLines indent (lines.map (Script.commentLine depth))).toList
      (lines.map fun line => .atom (.comment (String.ofList (Text.trimEnd line)))) := by
  induction lines with
  | nil => exact spells_nil Anywhere
  | cons line rest ih =>
      have hline := spells_commentLine indent depth (h line List.mem_cons_self)
      exact hline.append_lines (ih fun other hother => h other (List.mem_cons_of_mem line hother))

/-- The lines of a comment are cut into its contents. -/
theorem spells_commentLines (indent depth : Nat) (text : String) :
    Spells Anywhere (Script.renderLines indent (Script.commentLines depth text)).toList
      ((commentContents text).map fun content => .atom (.comment content)) := by
  have hnewline : ∀ line ∈ Text.lines text.toList, '\n' ∉ line := fun line hline =>
    newline_notMem_of_mem_linesFrom List.not_mem_nil hline
  unfold Script.commentLines commentContents
  cases hlines : Text.lines text.toList with
  | nil => exact spells_commentLine indent depth List.not_mem_nil
  | cons line rest =>
      rw [hlines] at hnewline
      rw [List.map_map]
      exact spells_lineComments indent depth hnewline

/-! ## Nodes -/

theorem tokensAll_leaves (atoms : List Atom) :
    Tree.tokensAll (atoms.map .leaf) = atoms.map .atom := by
  induction atoms with
  | nil => rfl
  | cons a rest ih =>
      rw [List.map_cons, Tree.tokensAll, ih]
      rfl

/-- Nodes without lines have no trees. -/
theorem nodesTrees_eq_nil {style : TransformStyle} {nodes : List Node}
    (h : nodes.any Script.hasLines = false) : nodesTrees style nodes = [] := by
  induction nodes with
  | nil => rfl
  | cons node rest ih =>
      rw [List.any_cons, Bool.or_eq_false_iff] at h
      rw [nodesTrees, ih h.2, List.append_nil]
      cases node with
      | reference ref => rfl
      | primitive shape params => cases h.1
      | call name params => cases h.1
      | composite frame children => cases h.1
      | comment text => cases h.1

/-- A call and the semicolon that ends it. -/
theorem spells_callLine (indent depth : Nat) {name : String} {params : Params} {call : String}
    (h : Script.callText name params = .ok call) :
    Spells Anywhere (Script.renderLines indent [⟨depth, call ++ ";"⟩]).toList
      (Tree.tokensAll (callTrees name params ++ [.leaf .semicolon])) := by
  apply spells_line
  rw [String.toList_append, tokensAll_append]
  exact (spells_callText h).append_anywhere
    ((spells_mark (c := ';') rfl fun _ => rfl).weaken fun _ _ => trivial)

/-- A composite whose children are spelled by the lines inside it. -/
theorem spells_compositeLines {indent depth : Nat} {style : TransformStyle} {frame : Frame}
    {children : List Node} {call : String} {inner : List Script.Line}
    (hcall : Script.callText frame.name frame.params = .ok call)
    (hinner : Spells Anywhere (Script.renderLines indent inner).toList
      (Tree.tokensAll (nodesTrees style children))) :
    Spells Anywhere
      (Script.renderLines indent
        (Script.compositeLines style depth frame children call inner)).toList
      (Tree.tokensAll (nodeTrees style (.composite frame children))) := by
  have hhead := spells_callText hcall
  have hopen : Spells Anywhere [' ', '\x7b'] [.opening .curly] :=
    (spells_space (c := ' ') rfl).append_anywhere (spells_mark rfl fun _ => rfl)
  have hclose : Spells Anywhere ['\x7d'] [.closing .curly] := spells_mark rfl fun _ => rfl
  rw [nodeTrees, tokensAll_append]
  unfold Script.compositeLines
  by_cases hbraceless : Script.isBraceless style frame children = true
  · -- the lines inside follow the head at once
    rw [if_pos hbraceless, if_pos hbraceless]
    exact (hhead.weaken fun _ _ => trivial).cons_line hinner
  · rw [if_neg hbraceless, if_neg hbraceless]
    split
    · -- the head, the lines inside and the closing brace, one after the other
      have hfirst : Spells BeforeLineEnd (call ++ " \x7b").toList
          (Tree.tokensAll (callTrees frame.name frame.params) ++ [.opening .curly]) := by
        rw [String.toList_append]
        exact hhead.append_anywhere (hopen.weaken fun _ _ => trivial)
      have hlast : Spells BeforeLineEnd "\x7d".toList [.closing .curly] :=
        hclose.weaken fun _ _ => trivial
      have hlines := (spells_line indent depth hfirst).append_lines
        (hinner.append_lines (spells_line indent depth hlast))
      simpa [Tree.tokensAll, Tree.tokens] using hlines
    · -- both braces stand on the line of the head
      rename_i hempty
      have hwhole : Spells BeforeLineEnd (call ++ " \x7b\x7d").toList
          (Tree.tokensAll (callTrees frame.name frame.params) ++
            [.opening .curly, .closing .curly]) := by
        rw [String.toList_append]
        exact hhead.append_anywhere
          ((hopen.append_anywhere hclose).weaken fun _ _ => trivial)
      rw [nodesTrees_eq_nil (Bool.eq_false_iff.mpr hempty)]
      exact spells_line indent depth hwhole

mutual
/-- The lines of a node are cut into the tokens of its trees. -/
theorem spells_nodeLines (indent : Nat) {style : TransformStyle} {depth : Nat} {node : Node}
    {lines : List Script.Line} (h : Script.nodeLines style depth node = .ok lines) :
    Spells Anywhere (Script.renderLines indent lines).toList
      (Tree.tokensAll (nodeTrees style node)) := by
  cases node with
  | primitive shape params =>
      obtain ⟨call, hcall, rfl⟩ := Script.nodeLines_primitive_eq_ok h
      exact spells_callLine indent depth hcall
  | call name params =>
      obtain ⟨call, hcall, rfl⟩ := Script.nodeLines_call_eq_ok h
      exact spells_callLine indent depth hcall
  | composite frame children =>
      obtain ⟨call, inner, hcall, hinner, rfl⟩ := Script.nodeLines_composite_eq_ok h
      exact spells_compositeLines hcall (spells_nodesLines indent hinner)
  | reference ref =>
      cases h
      exact spells_nil Anywhere
  | comment text =>
      cases h
      have hcomments := tokensAll_leaves ((commentContents text).map .comment)
      rw [List.map_map, List.map_map] at hcomments
      rw [nodeTrees]
      exact hcomments ▸ spells_commentLines indent depth text

theorem spells_nodesLines (indent : Nat) {style : TransformStyle} {depth : Nat}
    {nodes : List Node} {lines : List Script.Line}
    (h : Script.nodesLines style depth nodes = .ok lines) :
    Spells Anywhere (Script.renderLines indent lines).toList
      (Tree.tokensAll (nodesTrees style nodes)) := by
  cases nodes with
  | nil =>
      cases h
      exact spells_nil Anywhere
  | cons node rest =>
      obtain ⟨first, others, hfirst, hothers, rfl⟩ := Script.nodesLines_cons_eq_ok h
      rw [nodesTrees, tokensAll_append]
      exact (spells_nodeLines indent hfirst).append_lines (spells_nodesLines indent hothers)
end

/-! ## Sections -/

def referenceTokens (ref : Reference) : List Token :=
  [.atom (.word ref.kind.keyword), .atom (.path ref.path)]

def settingTokens (setting : String × Number) : List Token :=
  [.atom (.word setting.1), .atom .equals, .atom (.number (setting.2.rounded 10)),
    .atom .semicolon]

theorem wellFormed_keyword (kind : ReferenceKind) :
    Identifier.wellFormed kind.keyword.toList = true := by
  cases kind <;> decide

theorem spells_referenceLines (indent : Nat) {references : List Reference}
    {lines : List Script.Line} (h : Script.referenceLines references = .ok lines) :
    Spells Anywhere (Script.renderLines indent lines).toList
      (references.flatMap referenceTokens) := by
  induction references generalizing lines with
  | nil =>
      cases h
      exact spells_nil Anywhere
  | cons ref rest ih =>
      obtain ⟨hwritable, others, hothers, rfl⟩ := Script.referenceLines_cons_eq_ok h
      have hpath : '>' ∉ ref.path.toList := Script.notMem_of_isWritablePath hwritable (by decide)
      have hafter := (spells_space (c := ' ') rfl).append_anywhere (spells_path hpath)
      have hline := (spells_word (wellFormed_keyword ref.kind)).append_separated hafter
        (by decide)
      have htext : (ref.kind.keyword ++ " <" ++ ref.path ++ ">").toList =
          ref.kind.keyword.toList ++ ' ' :: ([] ++ '<' :: (ref.path.toList ++ ['>'])) := by
        simp
      have hspell : Spells BeforeLineEnd (ref.kind.keyword ++ " <" ++ ref.path ++ ">").toList
          (referenceTokens ref) := by
        rw [htext]
        exact hline.weaken fun _ _ => trivial
      exact hspell.cons_line (ih hothers)

theorem spells_assignmentLines (indent : Nat) {settings : List (String × Number)}
    {lines : List Script.Line}
    (hnames : ∀ setting ∈ settings, Identifier.wellFormed setting.1.toList = true)
    (h : Script.assignmentLines settings = .ok lines) :
    Spells Anywhere (Script.renderLines indent lines).toList
      (settings.flatMap settingTokens) := by
  induction settings generalizing lines with
  | nil =>
      cases h
      exact spells_nil Anywhere
  | cons setting rest ih =>
      obtain ⟨name, value⟩ := setting
      obtain ⟨text, others, htext, hothers, rfl⟩ := Script.assignmentLines_cons_eq_ok h
      have hnumber := (spells_numeral htext).append_separated
        (spells_mark (c := ';') rfl fun _ => rfl) (by decide)
      have hname := spells_word (hnames _ List.mem_cons_self)
      have hline := hname.append_separated (spells_equals.append_anywhere hnumber) (by decide)
      have htext : (name ++ " = " ++ text ++ ";").toList =
          name.toList ++ ' ' :: (['=', ' '] ++ (text.toList ++ [';'])) := by
        simp
      have hspell : Spells BeforeLineEnd (name ++ " = " ++ text ++ ";").toList
          (settingTokens (name, value)) := by
        rw [htext]
        exact hline.weaken fun _ _ => trivial
      exact hspell.cons_line
        (ih (fun other hother => hnames other (List.mem_cons_of_mem _ hother)) hothers)

theorem Spells.eq_nil {ts : List Token} (h : Spells Anywhere [] ts) : ts = [] := by
  have hnil := h [] trivial
  rw [List.append_nil, tokens_nil] at hnil
  simpa using hnil

/-- The empty line between two sections changes nothing about their tokens. -/
theorem spells_joinSections (indent : Nat) {sections : List (List Script.Line)}
    {parts : List (List Token)}
    (h : List.Forall₂ (fun lines ts =>
      Spells Anywhere (Script.renderLines indent lines).toList ts) sections parts) :
    Spells Anywhere (Script.joinSections indent sections).toList parts.flatten := by
  induction h with
  | nil => exact spells_nil Anywhere
  | @cons lines ts sections parts hlines _ ih =>
      rw [List.flatten_cons]
      cases lines with
      | nil =>
          -- an empty section is left out, and it has no tokens either
          rw [hlines.eq_nil]
          exact ih
      | cons line more =>
          unfold Script.joinSections at ih ⊢
          rw [List.filter_cons_of_pos rfl, List.map_cons]
          by_cases hnil : (sections.filter (!·.isEmpty)).map (Script.renderLines indent) = []
          · rw [hnil] at ih ⊢
            rw [ih.eq_nil, List.append_nil]
            exact hlines
          · rw [String.intercalate_cons_of_ne_nil hnil, String.toList_append,
              String.toList_append]
            have hline : Spells Anywhere "\n".toList [] := spells_space rfl
            have hfirst := hlines.append_anywhere hline
            rw [List.append_nil] at hfirst
            exact hfirst.append_anywhere ih

/-! ## The whole script -/

theorem takeReferences_append (references : List Reference) {more : List Token}
    (h : takeReferences more = ([], more)) :
    takeReferences (references.flatMap referenceTokens ++ more) = (references, more) := by
  induction references with
  | nil => exact h
  | cons ref rest ih =>
      obtain ⟨kind, path⟩ := ref
      rw [List.flatMap_cons, List.append_assoc]
      change takeReferences (.atom (.word kind.keyword) :: .atom (.path path) ::
        (rest.flatMap referenceTokens ++ more)) = _
      have hkind : ReferenceKind.ofKeyword? kind.keyword = some kind := by
        cases kind <;> decide
      rw [takeReferences, hkind, ih]

theorem takeSettings_append (settings : List (String × Number)) {more : List Token}
    (hnames : ∀ setting ∈ settings, setting.1 ∈ settingNames)
    (h : takeSettings more = ([], more)) :
    takeSettings (settings.flatMap settingTokens ++ more) =
      (settings.map fun (name, x) => (name, x.rounded 10), more) := by
  induction settings with
  | nil => exact h
  | cons setting rest ih =>
      obtain ⟨name, x⟩ := setting
      rw [List.flatMap_cons, List.append_assoc]
      change takeSettings (.atom (.word name) :: .atom .equals :: .atom (.number (x.rounded 10)) ::
        .atom .semicolon :: (rest.flatMap settingTokens ++ more)) = _
      rw [takeSettings, if_pos (hnames _ List.mem_cons_self),
        ih fun other hother => hnames other (List.mem_cons_of_mem _ hother)]
      rfl

/-- Items start with a comment or with a call, so they are no references and no assignments. -/
theorem takeReferences_nodesTrees (style : TransformStyle) (nodes : List Node) :
    takeReferences (Tree.tokensAll (nodesTrees style nodes)) =
        ([], Tree.tokensAll (nodesTrees style nodes)) ∧
      takeSettings (Tree.tokensAll (nodesTrees style nodes)) =
        ([], Tree.tokensAll (nodesTrees style nodes)) := by
  induction nodes with
  | nil => exact ⟨rfl, rfl⟩
  | cons node rest ih =>
      cases node with
      | primitive shape params => exact ⟨rfl, rfl⟩
      | call name params => exact ⟨rfl, rfl⟩
      | composite frame children => exact ⟨rfl, rfl⟩
      | reference ref => exact ih
      | comment text =>
          rw [nodesTrees, nodeTrees]
          -- a comment always has a line, but the reader would go on to the next node anyway
          cases hcontents : commentContents text with
          | nil => exact ih
          | cons content more => exact ⟨rfl, rfl⟩

theorem takeReferences_settingTokens (settings : List (String × Number)) {more : List Token}
    (h : takeReferences more = ([], more)) :
    takeReferences (settings.flatMap settingTokens ++ more) =
      ([], settings.flatMap settingTokens ++ more) := by
  cases settings with
  | nil => exact h
  | cons setting rest => rfl

theorem mem_settingNames_of_mem_assignments {resolution : Resolution}
    {setting : String × Number} (h : setting ∈ resolution.assignments) :
    setting.1 ∈ settingNames := by
  obtain ⟨⟨name, value⟩, hmem, hvalue⟩ := List.mem_filterMap.mp h
  obtain ⟨x, -, rfl⟩ := Option.map_eq_some_iff.mp hvalue
  have hnames := List.mem_map_of_mem (f := Prod.fst) hmem
  exact hnames

theorem wellFormed_of_mem_settingNames {name : String} (h : name ∈ settingNames) :
    Identifier.wellFormed name.toList = true := by
  revert name
  decide

/-- The tokens of a script: its references, its assignments and the trees of its roots. -/
theorem tokens_render {document : Document} {script : String}
    (h : document.render = .ok script) :
    tokens script.toList = some (document.references.flatMap referenceTokens ++
      (document.config.resolution.assignments.flatMap settingTokens ++
        Tree.tokensAll (nodesTrees document.config.style document.roots))) := by
  obtain ⟨first, second, third, hfirst, hsecond, hthird, rfl⟩ := Script.emit_eq_ok h
  have hnames : ∀ setting ∈ document.config.resolution.assignments,
      Identifier.wellFormed setting.1.toList = true := fun setting hsetting =>
    wellFormed_of_mem_settingNames (mem_settingNames_of_mem_assignments hsetting)
  have hsections := spells_joinSections document.config.indent
    (.cons (spells_referenceLines document.config.indent hfirst)
      (.cons (spells_assignmentLines document.config.indent hnames hsecond)
        (.cons (spells_nodesLines document.config.indent hthird) .nil)))
  have hwhole := hsections [] trivial
  rw [List.append_nil, tokens_nil] at hwhole
  simpa using hwhole

/-- Every script is accepted by the reader, which finds in it what was recorded: the collected
references, the resolution that is set, and the normal form of the roots. -/
theorem script_read_eq_recorded (document : Document) (script : String)
    (h : document.render = .ok script) : read? script = some document.recorded := by
  obtain ⟨hitems, hitems'⟩ := takeReferences_nodesTrees document.config.style document.roots
  have hreferences := takeReferences_append document.references
    (takeReferences_settingTokens document.config.resolution.assignments hitems)
  have hsettings := takeSettings_append document.config.resolution.assignments
    (fun _ hsetting => mem_settingNames_of_mem_assignments hsetting) hitems'
  simp only [read?, tokens_render h, hreferences, hsettings, group?_tokensAll, readItems?_trees,
    Option.bind_eq_bind, Option.bind_some]
  rfl

/-- A tree in the style without braces: a comment of two lines, a call in a call, and a body that
holds nothing but a reference. -/
def hinge : Document where
  config := { style := .statement, resolution := { fn := some (Number.ofNat 32) } }
  roots := [
    .comment "left\n right ",
    .composite (.transform .translate
        (Params.ofList [("v", .vector [.number (Number.ofRatio true 1 2), .vector [], .undef])])) [
      .composite (.moduleCall "hinge" (Params.ofList [("label", .text "a\"\n>;")])) [
        .reference ⟨.useFile, "hinges.scad"⟩]]]

def hingeScript : String :=
  "use <hinges.scad>\n\n$fn = 32;\n\n// left\n//  right\ntranslate(v = [-0.5, [], undef])\n" ++
    "  hinge(label = \"a\\\"\\n>;\") \x7b\x7d\n"

theorem hingeScript_read_eq_recorded :
    hinge.render = .ok hingeScript ∧ read? hingeScript = some hinge.recorded :=
  have hrender : hinge.render = .ok hingeScript := by decide +kernel
  ⟨hrender, script_read_eq_recorded hinge hingeScript hrender⟩

end Reading
end SolidScript
