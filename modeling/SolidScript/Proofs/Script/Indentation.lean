import Mathlib.Data.List.Forall2
import Mathlib.Tactic
import SolidScript.Proofs.Number.Canonical
import SolidScript.Proofs.Script.Comment

/-!
# Indentation

The lines of a node do not depend on how deeply it is nested but for their depths, which all grow by
as much (`nodeLines_add`).  No line is broken by a line feed in it and none begins with a space of
its own, so the lines can be read off the text, and the spaces in front of each are its depth times
the indent (`nodeText_indented`).  What the line of a call takes from the tree is a name that must
be an identifier, a number, or a text in quotes; the line of a comment holds one line of its text.
-/

namespace SolidScript
namespace Script

/-! ## Texts of one line -/

/-- The text has no line feed. -/
def Unbroken (text : String) : Prop := '\n' ∉ text.toList

instance (text : String) : Decidable (Unbroken text) := inferInstanceAs (Decidable (¬ _))

@[simp]
theorem unbroken_append {first last : String} :
    Unbroken (first ++ last) ↔ Unbroken first ∧ Unbroken last := by
  simp [Unbroken]

theorem unbroken_quote (text : String) : Unbroken (Text.quote text) := by
  have hchar (c : Char) : '\n' ∉ Text.quoteChar c := by
    unfold Text.quoteChar
    split_ifs with _ _ hnewline <;> simp [Ne.symm, *]
  simp [Unbroken, Text.quote, Text.quoteChars, hchar]

theorem unbroken_numeral {x : Number} {text : String} (h : numeral? x = some text) :
    Unbroken text := by
  cases x with
  | finite negative code =>
      cases h
      obtain ⟨-, sign, whole, part, htext, hsign, hwhole, hpart⟩ :=
        Number.isCanonical_trimmed (Nat.succ_pos 9) negative code
      have hdigit {cs : List Char} (hcs : ∀ c ∈ cs, c.isDigit = true) : '\n' ∉ cs :=
        fun hmem => absurd (hcs _ hmem) (by decide)
      have hsign : '\n' ∉ sign := by
        rcases hsign with rfl | rfl <;> decide
      have hpart : '\n' ∉ part := by
        rcases hpart with rfl | ⟨ds, rfl, hds⟩
        · exact List.not_mem_nil
        · simpa using hdigit hds.isDigit
      rw [Unbroken, htext]
      simp [hsign, hdigit hwhole.isDigit, hpart]
  | _ => cases h

theorem unbroken_of_wellFormed {name : String} (h : Identifier.wellFormed name.toList = true) :
    Unbroken name := by
  intro hmem
  cases hchars : name.toList with
  | nil =>
      rw [hchars] at h
      cases h
  | cons c cs =>
      rw [hchars] at h hmem
      obtain ⟨hhead, htail⟩ := Reading.isTail_of_wellFormed h
      rcases List.mem_cons.mp hmem with rfl | hrest
      · exact absurd hhead (by decide)
      · exact absurd (htail _ hrest) (by decide)

theorem unbroken_commaSeparated {texts : List String} (h : ∀ text ∈ texts, Unbroken text) :
    Unbroken (commaSeparated texts) := by
  induction texts with
  | nil => exact List.not_mem_nil
  | cons text rest ih =>
      rw [List.forall_mem_cons] at h
      rw [commaSeparated]
      cases rest with
      | nil => exact h.1
      | cons next more =>
          rw [String.intercalate_cons_of_ne_nil (List.cons_ne_nil _ _)]
          exact unbroken_append.mpr ⟨unbroken_append.mpr ⟨h.1, by decide⟩, ih h.2⟩

mutual
theorem unbroken_valueText {node param : String} {path : List Nat} {value : Value} {text : String}
    (h : valueText node param path value = .ok text) : Unbroken text := by
  cases value with
  | undef =>
      cases h
      decide
  | bool b => cases b <;> (cases h; decide)
  | number x => exact unbroken_numeral (valueText_number_eq_ok h)
  | text s =>
      cases h
      exact unbroken_quote s
  | vector items =>
      obtain ⟨texts, htexts, rfl⟩ := valueText_vector_eq_ok h
      have hinner := unbroken_commaSeparated (unbroken_itemTexts htexts)
      exact unbroken_append.mpr ⟨unbroken_append.mpr ⟨by decide, hinner⟩, by decide⟩

theorem unbroken_itemTexts {node param : String} {path : List Nat} {index : Nat}
    {items : List Value} {texts : List String}
    (h : itemTexts node param path index items = .ok texts) : ∀ text ∈ texts, Unbroken text := by
  cases items with
  | nil =>
      cases h
      exact nofun
  | cons item rest =>
      obtain ⟨text, others, htext, hothers, rfl⟩ := itemTexts_cons_eq_ok h
      exact List.forall_mem_cons.mpr ⟨unbroken_valueText htext, unbroken_itemTexts hothers⟩
end

theorem unbroken_argumentTexts {node : String} {entries : List (String × Value)}
    {texts : List String} (h : argumentTexts node entries = .ok texts) :
    ∀ text ∈ texts, Unbroken text := by
  induction entries generalizing texts with
  | nil =>
      cases h
      exact nofun
  | cons entry rest ih =>
      obtain ⟨name, value⟩ := entry
      obtain ⟨hname, text, others, htext, hothers, rfl⟩ := argumentTexts_cons_eq_ok h
      have hkey := unbroken_of_wellFormed (Identifier.wellFormed_of_isValid hname)
      refine List.forall_mem_cons.mpr ⟨?_, ih hothers⟩
      exact unbroken_append.mpr
        ⟨unbroken_append.mpr ⟨hkey, by decide⟩, unbroken_valueText htext⟩

/-! ## Lines -/

/-- The text of a line that can be found again in a script: it is not broken, and it begins with
something other than the spaces in front of it, or any blank. -/
structure IsPlain (text : String) : Prop where
  unbroken : Unbroken text
  flush : ∃ c cs, text.toList = c :: cs ∧ Text.isBlank c = false

theorem isBlank_eq_false_of_isHead {c : Char} (h : (c == '$' || Identifier.isHead c) = true) :
    Text.isBlank c = false := by
  rw [Bool.or_eq_true, Identifier.isHead, Bool.or_eq_true, beq_iff_eq, beq_iff_eq] at h
  rcases h with rfl | halpha | rfl
  · decide
  · -- letters lie between the blanks of ASCII and those beyond it
    have hrange : 65 ≤ c.toNat ∧ c.toNat ≤ 122 := by
      simp only [Char.isAlpha, Char.isUpper, Char.isLower, Bool.or_eq_true, Bool.and_eq_true,
        decide_eq_true_eq, UInt32.le_iff_toNat_le] at halpha
      change 65 ≤ c.val.toNat ∧ c.val.toNat ≤ 122
      rcases halpha with ⟨hfirst, hlast⟩ | ⟨hfirst, hlast⟩
      · exact ⟨hfirst, hlast.trans (by decide)⟩
      · exact ⟨le_trans (by decide) hfirst, hlast⟩
    simp only [Text.isBlank, Text.blankRanges, List.any_cons, List.any_nil, Bool.or_false,
      Bool.or_eq_false_iff, Bool.and_eq_false_iff, decide_eq_false_iff_not]
    omega
  · decide

/-- A call is on one line, with what ends it. -/
theorem isPlain_call {name : String} {params : Params} {call : String}
    (h : callText name params = .ok call) {tail : String} (htail : Unbroken tail) :
    IsPlain (call ++ tail) := by
  obtain ⟨hname, texts, htexts, rfl⟩ := callText_eq_ok h
  have hwellFormed := Identifier.wellFormed_of_isValid hname
  have harguments := unbroken_commaSeparated (unbroken_argumentTexts htexts)
  constructor
  · simp only [unbroken_append]
    exact ⟨⟨⟨⟨unbroken_of_wellFormed hwellFormed, by decide⟩, harguments⟩, by decide⟩, htail⟩
  · cases hchars : name.toList with
    | nil =>
        rw [hchars] at hwellFormed
        cases hwellFormed
    | cons c cs =>
        rw [hchars] at hwellFormed
        have hhead := (Reading.isTail_of_wellFormed hwellFormed).1
        exact ⟨c, _, by simp [hchars]; rfl, isBlank_eq_false_of_isHead hhead⟩

theorem isPlain_commentLine (depth : Nat) {line : List Char} (h : '\n' ∉ line) :
    IsPlain (commentLine depth line).text := by
  have hkept : Unbroken (String.ofList (Text.trimEnd line)) := by
    rw [Unbroken, String.toList_ofList]
    exact fun hmem => h (Reading.mem_of_mem_trimEnd hmem)
  unfold commentLine
  dsimp only
  split
  · exact ⟨by decide, '/', ['/'], rfl, by decide⟩
  · refine ⟨unbroken_append.mpr ⟨by decide, hkept⟩, '/', '/' :: ' ' :: Text.trimEnd line, ?_, ?_⟩
    · simp
    · decide

/-! ## The lines of a node -/

/-- Lines that can be found again, at the given depths. -/
def LaidOut (depths : List Nat) (lines : List Line) : Prop :=
  List.Forall₂ (fun depth line => line.depth = depth ∧ IsPlain line.text) depths lines

theorem LaidOut.isPlain {depths : List Nat} {lines : List Line} (h : LaidOut depths lines) :
    ∀ line ∈ lines, IsPlain line.text := by
  induction h with
  | nil => exact nofun
  | cons hline _ ih => exact List.forall_mem_cons.mpr ⟨hline.2, ih⟩

theorem LaidOut.append {first last : List Nat} {xs ys : List Line} (hxs : LaidOut first xs)
    (hys : LaidOut last ys) : LaidOut (first ++ last) (xs ++ ys) :=
  List.rel_append hxs hys

mutual
/-- The depth of nesting of each line of a node. -/
def lineDepths (style : TransformStyle) (depth : Nat) : Node → List Nat
  | .primitive _ _ => [depth]
  | .call _ _ => [depth]
  | .composite frame children =>
    let inner := nodesLineDepths style (depth + 1) children
    if isBraceless style frame children then depth :: inner
    else if children.any hasLines then depth :: (inner ++ [depth])
    else [depth]
  | .reference _ => []
  | .comment text => (commentContents text).map fun _ => depth

/-- The depths of nesting of the lines of some nodes. -/
def nodesLineDepths (style : TransformStyle) (depth : Nat) : List Node → List Nat
  | [] => []
  | node :: rest => lineDepths style depth node ++ nodesLineDepths style depth rest
end

theorem laidOut_commentLines (depth : Nat) (text : String) :
    LaidOut ((commentContents text).map fun _ => depth) (commentLines depth text) := by
  have hlines (lines : List (List Char)) (h : ∀ line ∈ lines, '\n' ∉ line) :
      LaidOut (lines.map fun _ => depth) (lines.map (commentLine depth)) := by
    rw [LaidOut, List.forall₂_map_left_iff, List.forall₂_map_right_iff, List.forall₂_same]
    exact fun line hline => ⟨rfl, isPlain_commentLine depth (h line hline)⟩
  unfold commentLines commentContents
  cases hcases : Text.lines text.toList with
  | nil => exact hlines [[]] (by simp)
  | cons line rest =>
      have hunbroken : ∀ other ∈ line :: rest, '\n' ∉ other := fun other hother =>
        Reading.newline_notMem_of_mem_linesFrom List.not_mem_nil (hcases ▸ hother)
      simp only [List.map_map]
      exact hlines (line :: rest) hunbroken

mutual
/-- The lines of a node are found again at their depths of nesting. -/
theorem laidOut_nodeLines {style : TransformStyle} {depth : Nat} {node : Node} {lines : List Line}
    (h : nodeLines style depth node = .ok lines) : LaidOut (lineDepths style depth node) lines := by
  cases node with
  | primitive shape params =>
      obtain ⟨call, hcall, rfl⟩ := nodeLines_primitive_eq_ok h
      rw [lineDepths]
      exact .cons ⟨rfl, isPlain_call hcall (by decide)⟩ .nil
  | call name params =>
      obtain ⟨call, hcall, rfl⟩ := nodeLines_call_eq_ok h
      rw [lineDepths]
      exact .cons ⟨rfl, isPlain_call hcall (by decide)⟩ .nil
  | composite frame children =>
      obtain ⟨call, inner, hcall, hinner, rfl⟩ := nodeLines_composite_eq_ok h
      have hnodes := laidOut_nodesLines hinner
      rw [lineDepths, compositeLines]
      split_ifs
      · have hempty : Unbroken "" := by decide
        have hline := isPlain_call hcall hempty
        rw [String.append_empty] at hline
        exact .cons ⟨rfl, hline⟩ hnodes
      · have hclose : IsPlain "\x7d" := ⟨by decide, '\x7d', [], rfl, by decide⟩
        exact .cons ⟨rfl, isPlain_call hcall (by decide)⟩
          (hnodes.append (.cons ⟨rfl, hclose⟩ .nil))
      · exact .cons ⟨rfl, isPlain_call hcall (by decide)⟩ .nil
  | reference ref =>
      cases h
      rw [lineDepths]
      exact .nil
  | comment text =>
      cases h
      rw [lineDepths]
      exact laidOut_commentLines depth text

theorem laidOut_nodesLines {style : TransformStyle} {depth : Nat} {nodes : List Node}
    {lines : List Line} (h : nodesLines style depth nodes = .ok lines) :
    LaidOut (nodesLineDepths style depth nodes) lines := by
  cases nodes with
  | nil =>
      cases h
      exact .nil
  | cons node rest =>
      obtain ⟨first, others, hfirst, hothers, rfl⟩ := nodesLines_cons_eq_ok h
      rw [nodesLineDepths]
      exact (laidOut_nodeLines hfirst).append (laidOut_nodesLines hothers)
end

/-- The same line, nested deeper. -/
def Line.deepen (more : Nat) (line : Line) : Line := { line with depth := more + line.depth }

theorem compositeLines_add (style : TransformStyle) (more depth : Nat) (frame : Frame)
    (children : List Node) (call : String) (inner : List Line) :
    compositeLines style (more + depth) frame children call (inner.map (Line.deepen more)) =
      (compositeLines style depth frame children call inner).map (Line.deepen more) := by
  unfold compositeLines
  split_ifs <;> simp [Line.deepen]

theorem commentLines_add (more depth : Nat) (text : String) :
    commentLines (more + depth) text = (commentLines depth text).map (Line.deepen more) := by
  have hline (line : List Char) :
      commentLine (more + depth) line = (commentLine depth line).deepen more := rfl
  unfold commentLines
  cases Text.lines text.toList with
  | nil => rw [List.map_singleton, hline]
  | cons line rest => simp [hline]

mutual
/-- Nested deeper, a node has the same lines deeper by as much, or the same fault. -/
theorem nodeLines_add (style : TransformStyle) (more depth : Nat) (node : Node) :
    nodeLines style (more + depth) node =
      (nodeLines style depth node).map (List.map (Line.deepen more)) := by
  cases node with
  | primitive shape params =>
      rw [nodeLines, nodeLines]
      cases callText shape.name params <;> rfl
  | call name params =>
      rw [nodeLines, nodeLines]
      cases callText name params <;> rfl
  | composite frame children =>
      rw [nodeLines, nodeLines, Nat.add_assoc, nodesLines_add style more (depth + 1) children]
      cases callText frame.name frame.params with
      | error fault => rfl
      | ok call =>
          cases nodesLines style (depth + 1) children with
          | error fault => rfl
          | ok inner =>
              exact congrArg Except.ok
                (compositeLines_add style more depth frame children call inner)
  | reference ref => rfl
  | comment text => exact congrArg Except.ok (commentLines_add more depth text)

theorem nodesLines_add (style : TransformStyle) (more depth : Nat) (nodes : List Node) :
    nodesLines style (more + depth) nodes =
      (nodesLines style depth nodes).map (List.map (Line.deepen more)) := by
  cases nodes with
  | nil => rfl
  | cons node rest =>
      rw [nodesLines, nodesLines, nodeLines_add style more depth node,
        nodesLines_add style more depth rest]
      cases nodeLines style depth node with
      | error fault => rfl
      | ok first =>
          cases nodesLines style depth rest with
          | error fault => rfl
          | ok others => exact congrArg Except.ok List.map_append.symm
end

/-! ## The text of a node -/

/-- The text of a node at a depth of nesting. -/
def nodeText (config : Config) (depth : Nat) (node : Node) : Except Fault String :=
  (nodeLines config.style depth node).map (renderLines config.indent)

/-- The text of some nodes is that of each, one after the other. -/
theorem nodesLines_map_renderLines (config : Config) (depth : Nat) (nodes : List Node) :
    (nodesLines config.style depth nodes).map (renderLines config.indent) =
      (nodes.mapM (nodeText config depth)).map String.join := by
  induction nodes with
  | nil => rfl
  | cons node rest ih =>
      rw [nodesLines, List.mapM_cons, nodeText]
      cases nodeLines config.style depth node with
      | error fault => rfl
      | ok first =>
          have hjoin (texts : Except Fault (List String)) (text : String) :
              (texts >>= fun more => .ok (text :: more)).map String.join =
                (texts.map String.join).map (text ++ ·) := by
            cases texts with
            | error fault => rfl
            | ok more => exact congrArg Except.ok String.join_cons
          refine Eq.trans ?_ (hjoin _ _).symm
          rw [← ih]
          cases nodesLines config.style depth rest with
          | error fault => rfl
          | ok others =>
              exact congrArg Except.ok (Reading.renderLines_append config.indent first others)

/-- The text with spaces put in front of every line that a line feed ends. -/
def indentLines (spaces : Nat) (text : String) : String :=
  let lines := text.toList.splitOn '\n'
  String.ofList
    (lines.dropLast.flatMap (fun line => List.replicate spaces ' ' ++ line ++ ['\n']) ++
      lines.getLastD [])

/-- How many spaces are in front of a line. -/
def leadingSpaces (line : List Char) : Nat := (line.takeWhile (· == ' ')).length

/-- Lines that have no line feed of their own are found again in the text. -/
theorem splitOn_renderLines (indent : Nat) {lines : List Line}
    (h : ∀ line ∈ lines, IsPlain line.text) :
    (renderLines indent lines).toList.splitOn '\n' = lines.map (Line.chars indent) ++ [[]] := by
  rw [toList_renderLines]
  induction lines with
  | nil => rfl
  | cons line rest ih =>
      rw [List.forall_mem_cons] at h
      have hline : ∀ c ∈ line.chars indent, (c == '\n') = false := by
        intro c hc
        rcases List.mem_append.mp hc with hspace | htext
        · rw [List.eq_of_mem_replicate hspace]
          rfl
        · exact beq_false_of_ne (ne_of_mem_of_not_mem htext h.1.unbroken)
      rw [List.flatMap_cons, List.append_assoc, List.splitOn, List.singleton_append,
        List.splitOnP_append_cons_of_forall_mem hline '\n' rfl, List.map_cons, List.cons_append]
      exact congrArg _ (ih h.2)

theorem indentLines_renderLines (indent more : Nat) {lines : List Line}
    (h : ∀ line ∈ lines, IsPlain line.text) :
    indentLines (more * indent) (renderLines indent lines) =
      renderLines indent (lines.map (Line.deepen more)) := by
  have hline (line : Line) : (line.deepen more).chars indent =
      List.replicate (more * indent) ' ' ++ line.chars indent := by
    rw [Line.chars, Line.chars, Line.deepen, Nat.add_mul, List.replicate_add, List.append_assoc]
  rw [← String.toList_inj, indentLines, String.toList_ofList, splitOn_renderLines indent h,
    List.dropLast_concat, List.getLastD_concat, List.append_nil, toList_renderLines,
    List.flatMap_map, List.flatMap_map]
  simp only [hline]

/-- What is behind the spaces in front of a line is no space. -/
theorem IsPlain.leadingSpaces_chars {line : Line} (h : IsPlain line.text) (indent : Nat) :
    leadingSpaces (line.chars indent) = line.depth * indent ∧
      leadingSpaces (line.chars indent) < (line.chars indent).length := by
  obtain ⟨c, cs, htext, hblank⟩ := h.flush
  have hc : c ≠ ' ' := by
    rintro rfl
    exact absurd hblank (by decide)
  have hspaces : leadingSpaces (line.chars indent) = line.depth * indent := by
    rw [leadingSpaces, Line.chars, htext,
      List.takeWhile_append_of_pos fun d hd => beq_iff_eq.mpr (List.eq_of_mem_replicate hd),
      List.takeWhile_cons_of_neg (by simpa using hc), List.append_nil, List.length_replicate]
  refine ⟨hspaces, ?_⟩
  rw [hspaces]
  simp [Line.chars, htext]

theorem LaidOut.map_leadingSpaces {depths : List Nat} {lines : List Line}
    (h : LaidOut depths lines) (indent : Nat) :
    (lines.map (Line.chars indent)).map leadingSpaces = depths.map (· * indent) := by
  induction h with
  | nil => rfl
  | cons hline _ ih =>
      rw [List.map_cons, List.map_cons, List.map_cons, ih, (hline.2.leadingSpaces_chars indent).1,
        hline.1]

/-- Nested deeper, a node has the same text with spaces in front of every line, or the same fault.
Every line of the text is ended by a line feed and has something other than spaces, and the spaces
in front of it are its depth of nesting times the indent. -/
theorem nodeText_indented (config : Config) (depth : Nat) (node : Node) :
    nodeText config depth node =
        (nodeText config 0 node).map (indentLines (depth * config.indent)) ∧
      ∀ text, nodeText config depth node = .ok text →
        ∃ lines, text.toList.splitOn '\n' = lines ++ [[]] ∧
          (∀ line ∈ lines, leadingSpaces line < line.length) ∧
          lines.map leadingSpaces =
            (lineDepths config.style depth node).map (· * config.indent) := by
  constructor
  · have hadd := nodeLines_add config.style depth 0 node
    rw [Nat.add_zero] at hadd
    rw [nodeText, nodeText, hadd]
    cases hlines : nodeLines config.style 0 node with
    | error fault => rfl
    | ok lines =>
        have hplain := (laidOut_nodeLines hlines).isPlain
        have hindent := indentLines_renderLines config.indent depth hplain
        exact congrArg Except.ok hindent.symm
  · intro text htext
    obtain ⟨lines, hlines, rfl⟩ := map_eq_ok htext
    have hlaid := laidOut_nodeLines hlines
    refine ⟨lines.map (Line.chars config.indent),
      splitOn_renderLines config.indent hlaid.isPlain, ?_, hlaid.map_leadingSpaces _⟩
    rw [List.forall_mem_map]
    exact fun line hline => ((hlaid.isPlain line hline).leadingSpaces_chars _).2

/-- A body with a comment of two lines and a transform that does without braces. -/
def shelf : Node :=
  .composite (.moduleCall "shelf" (Params.ofList [("label", .text "top\n  shelf")])) [
    .comment "left\nright",
    .composite (.transform .mirror Params.empty) [.primitive .cube Params.empty]]

def shelfText : String :=
  "   shelf(label = \"top\\n  shelf\") \x7b\n      // left\n      // right\n      mirror()\n" ++
    "         cube();\n   \x7d\n"

theorem shelf_indented :
    nodeText { indent := 3, style := .statement } 1 shelf = .ok shelfText ∧
      ∃ lines, shelfText.toList.splitOn '\n' = lines ++ [[]] ∧
        (∀ line ∈ lines, leadingSpaces line < line.length) ∧
        lines.map leadingSpaces = [3, 6, 6, 6, 9, 3] := by
  have htext : nodeText { indent := 3, style := .statement } 1 shelf = .ok shelfText := by
    decide +kernel
  have hindented := nodeText_indented { indent := 3, style := .statement } 1 shelf
  exact ⟨htext, hindented.2 shelfText htext⟩

end Script
end SolidScript
