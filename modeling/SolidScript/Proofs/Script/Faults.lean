import Mathlib
import SolidScript.Proofs.Result
import SolidScript.Proofs.Tree.Preorder
import SolidScript.Script.Document

/-!
# Faults of a document

The faults of a document are listed from what the document holds, without writing anything: first
those of its references, then those of its resolution, then those of its nodes from the top.
Writing the script succeeds when the list is empty and otherwise fails with its first entry
(`render_reports_first_fault`), whatever the indentation and the style.
-/

namespace SolidScript

/-! ## Identifiers -/

namespace Identifier

/-- An ASCII letter or an underscore. -/
def IsStart (c : Char) : Prop :=
  ('a' ≤ c ∧ c ≤ 'z') ∨ ('A' ≤ c ∧ c ≤ 'Z') ∨ c = '_'

/-- An ASCII letter, a digit or an underscore. -/
def IsPart (c : Char) : Prop := IsStart c ∨ ('0' ≤ c ∧ c ≤ '9')

/-- At most one dollar sign, one start and any number of parts. -/
def IsSpelled (cs : List Char) : Prop :=
  ∃ sign first rest, (sign = [] ∨ sign = ['$']) ∧ cs = sign ++ first :: rest ∧ IsStart first ∧
    ∀ c ∈ rest, IsPart c

theorem isHead_iff (c : Char) : isHead c = true ↔ IsStart c := by
  simp only [isHead, IsStart, Char.isAlpha, Char.isUpper, Char.isLower, Char.le_def, ge_iff_le,
    Bool.or_eq_true, Bool.and_eq_true, decide_eq_true_eq, beq_iff_eq]
  tauto

theorem isTail_iff (c : Char) : isTail c = true ↔ IsPart c := by
  have hhead := isHead_iff c
  rw [isHead, Bool.or_eq_true] at hhead
  rw [IsPart, ← hhead, isTail, Char.isAlphanum, Bool.or_eq_true, Bool.or_eq_true]
  simp only [Char.isDigit, Char.le_def, ge_iff_le, Bool.and_eq_true, decide_eq_true_eq]
  tauto

theorem wellFormed_iff (cs : List Char) : wellFormed cs = true ↔ IsSpelled cs := by
  have hbare : wellFormed cs = true ↔
      ∃ first rest, bare cs = first :: rest ∧ IsStart first ∧ ∀ c ∈ rest, IsPart c := by
    unfold wellFormed
    cases bare cs with
    | nil => simp
    | cons first rest => simp [isHead_iff, isTail_iff]
  rw [hbare]
  constructor
  · rintro ⟨first, rest, heq, hfirst, hrest⟩
    unfold bare at heq
    split at heq
    · exact ⟨['$'], first, rest, .inr rfl, by rw [heq]; rfl, hfirst, hrest⟩
    · exact ⟨[], first, rest, .inl rfl, heq, hfirst, hrest⟩
  · rintro ⟨sign, first, rest, rfl | rfl, rfl, hfirst, hrest⟩
    · -- a start is no dollar sign, so nothing is taken off in front
      refine ⟨first, rest, ?_, hfirst, hrest⟩
      have hdollar : first ≠ '$' := by
        rintro rfl
        exact absurd ((isHead_iff '$').mpr hfirst) (by decide)
      rw [List.nil_append, bare]
      exact fun _ h => hdollar (List.cons.inj h).1
    · exact ⟨first, rest, rfl, hfirst, hrest⟩

/-- The names that may stand in a script: well spelled, and no reserved word. -/
def IsAllowed (name : String) : Prop := IsSpelled name.toList ∧ name ∉ reserved

theorem isValid_iff (name : String) : isValid name = true ↔ IsAllowed name := by
  rw [isValid, Bool.and_eq_true, wellFormed_iff, IsAllowed]
  simp

instance (name : String) : Decidable (IsAllowed name) := decidable_of_iff _ (isValid_iff name)

end Identifier

/-! ## The list of faults -/

namespace Value

mutual
/-- The numbers in a value with the indices that lead to them, in their order. -/
def numbersAt : Value → List (List Nat × Number)
  | number x => [([], x)]
  | vector items => numbersFrom 0 items
  | undef => []
  | bool _ => []
  | text _ => []

/-- The numbers in the items of a vector from the given index on. -/
def numbersFrom (index : Nat) : List Value → List (List Nat × Number)
  | [] => []
  | item :: rest =>
    (numbersAt item).map (fun (path, x) => (index :: path, x)) ++ numbersFrom (index + 1) rest
end

end Value

namespace Script

/-- The indices that lead to a place, each in square brackets. -/
def indexText (path : List Nat) : String :=
  String.join (path.map fun index => "[" ++ toString index ++ "]")

/-- The fault of a name in the call `node`. -/
def nameFaults (node name : String) : List Fault :=
  if Identifier.IsAllowed name then [] else [.invalidIdentifier node name]

/-- The fault of a value: its first number that is not finite. -/
def valueFaults (node param : String) (value : Value) : List Fault :=
  match value.numbersAt.find? fun (_, x) => !x.isFinite with
  | some (path, x) => [.nonFinite node (param ++ indexText path) x]
  | none => []

/-- The faults of parameters: for each one those of its name, then those of its value. -/
def paramFaults (node : String) (params : Params) : List Fault :=
  params.entries.flatMap fun (name, value) => nameFaults node name ++ valueFaults node name value

/-- The fault of a reference. -/
def pathFaults (ref : Reference) : List Fault :=
  if ref.path = "" ∨ '>' ∈ ref.path.toList ∨ '\n' ∈ ref.path.toList ∨ '\r' ∈ ref.path.toList then
    [.invalidPath ref.kind.keyword ref.path]
  else []

/-- The fault of a variable of the resolution. -/
def settingFaults (name : String) : Option Number → List Fault
  | some x => if x.isFinite then [] else [.nonFinite "resolution" name x]
  | none => []

end Script

/-- The faults of the resolution, in the order of its variables. -/
def Resolution.faults (r : Resolution) : List Fault :=
  Script.settingFaults "$fa" r.fa ++ Script.settingFaults "$fs" r.fs ++
    Script.settingFaults "$fn" r.fn

/-- The faults of a node, apart from those of the nodes inside it.  Only a module call has a name of
its own choice. -/
def Node.faults : Node → List Fault
  | primitive shape params => Script.paramFaults shape.name params
  | call name params => Script.nameFaults name name ++ Script.paramFaults name params
  | composite (.transform op params) _ => Script.paramFaults op.name params
  | composite (.combinator _) _ => []
  | composite (.extrusion op params) _ => Script.paramFaults op.scriptName params
  | composite (.moduleCall name params) _ =>
    Script.nameFaults name name ++ Script.paramFaults name params
  | reference _ => []
  | comment _ => []

/-- The faults of a script, in the order of the document. -/
def Script.faults (resolution : Resolution) (roots : List Node) : List Fault :=
  (Reference.firstOfEachPath (Reference.occurrences roots)).flatMap Script.pathFaults ++
    resolution.faults ++ (Node.preorderAll roots).flatMap Node.faults

/-! ## Values -/

namespace Script

theorem foldl_indices (param : String) (path : List Nat) :
    path.foldl (fun text index => text ++ "[" ++ toString index ++ "]") param =
      param ++ indexText path := by
  induction path generalizing param with
  | nil => rw [List.foldl_nil, indexText, List.map_nil, String.join_nil, String.append_empty]
  | cons index rest ih =>
      rw [List.foldl_cons, ih, indexText, indexText, List.map_cons, String.join_cons]
      simp only [String.append_assoc]

theorem placeText_eq (param : String) (path : List Nat) :
    placeText param path = param ++ indexText path :=
  foldl_indices param path

/-- The faults of all numbers in a value that stands at `path`, the finite ones left out. -/
def numberFaults (node param : String) (path : List Nat) (numbers : List (List Nat × Number)) :
    List Fault :=
  (numbers.filter fun (_, x) => !x.isFinite).map fun (more, x) =>
    .nonFinite node (param ++ indexText (path ++ more)) x

theorem numberFaults_singleton (node param : String) (path : List Nat) (x : Number) :
    numberFaults node param path [([], x)] =
      if x.isFinite then [] else [.nonFinite node (placeText param path) x] := by
  cases hfinite : x.isFinite <;> simp [numberFaults, placeText_eq, hfinite]

theorem numberFaults_append (node param : String) (path : List Nat)
    (xs ys : List (List Nat × Number)) :
    numberFaults node param path (xs ++ ys) =
      numberFaults node param path xs ++ numberFaults node param path ys := by
  rw [numberFaults, List.filter_append, List.map_append]
  rfl

/-- The numbers of an item, seen from the vector around it. -/
theorem numberFaults_map_cons (node param : String) (path : List Nat) (index : Nat)
    (numbers : List (List Nat × Number)) :
    numberFaults node param path (numbers.map fun (more, x) => (index :: more, x)) =
      numberFaults node param (path ++ [index]) numbers := by
  unfold numberFaults
  rw [List.filter_map, List.map_map]
  congr 1
  funext entry
  simp

mutual
theorem valueText_reports (node param : String) (path : List Nat) (value : Value) :
    Reports (valueText node param path value)
      (numberFaults node param path value.numbersAt) := by
  cases value with
  | undef => exact .ok _
  | bool b => cases b <;> exact .ok _
  | text s => exact .ok _
  | number x =>
      rw [valueText, Value.numbersAt, numberFaults_singleton]
      cases x with
      | finite negative code => exact .ok _
      | nan => exact .error _
      | infinity negative => exact .error _
  | vector items => exact (itemTexts_reports node param path 0 items).map _

theorem itemTexts_reports (node param : String) (path : List Nat) (index : Nat)
    (items : List Value) :
    Reports (itemTexts node param path index items)
      (numberFaults node param path (Value.numbersFrom index items)) := by
  cases items with
  | nil => exact .ok _
  | cons item rest =>
      -- the index that is pushed on the path is the one in front of the numbers of the item
      rw [itemTexts, Value.numbersFrom, numberFaults_append, numberFaults_map_cons]
      refine (valueText_reports node param (path ++ [index]) item).bind fun text => ?_
      exact (itemTexts_reports node param path (index + 1) rest).map _
end

/-- The text of a whole value reports its first number that is not finite. -/
theorem valueText_reports_valueFaults (node param : String) (value : Value) :
    Reports (valueText node param [] value) (valueFaults node param value) := by
  refine (valueText_reports node param [] value).of_head? ?_
  rw [numberFaults, List.head?_map, List.head?_filter, valueFaults]
  cases value.numbersAt.find? fun (_, x) => !x.isFinite <;> rfl

/-! ## Calls and nodes -/

theorem checkIdentifier_reports (node name : String) :
    Reports (checkIdentifier node name) (nameFaults node name) := by
  unfold checkIdentifier nameFaults
  by_cases hvalid : Identifier.isValid name = true
  · rw [if_pos hvalid, if_pos ((Identifier.isValid_iff name).mp hvalid)]
    exact .ok _
  · rw [if_neg hvalid, if_neg fun h => hvalid ((Identifier.isValid_iff name).mpr h)]
    exact .error _

theorem argumentTexts_reports (node : String) (entries : List (String × Value)) :
    Reports (argumentTexts node entries) (entries.flatMap fun (name, value) =>
      nameFaults node name ++ valueFaults node name value) := by
  induction entries with
  | nil => exact .ok _
  | cons entry rest ih =>
      obtain ⟨name, value⟩ := entry
      rw [argumentTexts, List.flatMap_cons, List.append_assoc]
      refine (checkIdentifier_reports node name).bind fun _ => ?_
      refine (valueText_reports_valueFaults node name value).bind fun _ => ?_
      exact ih.map _

/-- A call reports the fault of its name, then those of its parameters. -/
theorem callText_reports (name : String) (params : Params) :
    Reports (callText name params) (nameFaults name name ++ paramFaults name params) := by
  refine (checkIdentifier_reports name name).bind fun _ => ?_
  exact (argumentTexts_reports name params.entries).map _

/-- A call whose name may stand in a script reports the faults of its parameters alone. -/
theorem callText_reports_params {name : String} (hname : Identifier.isValid name = true)
    (params : Params) : Reports (callText name params) (paramFaults name params) := by
  have hcall := callText_reports name params
  have hnone : nameFaults name name = [] := if_pos ((Identifier.isValid_iff name).mp hname)
  rwa [hnone, List.nil_append] at hcall

theorem isValid_shape (shape : Shape) : Identifier.isValid shape.name = true := by
  cases shape <;> decide

theorem isValid_transformOp (op : TransformOp) : Identifier.isValid op.name = true := by
  cases op <;> decide

theorem isValid_combinatorOp (op : CombinatorOp) : Identifier.isValid op.name = true := by
  cases op <;> decide

theorem isValid_extrusionOp (op : ExtrusionOp) : Identifier.isValid op.scriptName = true := by
  cases op <;> decide

/-- The call of a composite reports the faults of the composite itself. -/
theorem frame_callText_reports (frame : Frame) (children : List Node) :
    Reports (callText frame.name frame.params) (Node.faults (.composite frame children)) := by
  cases frame with
  | transform op params => exact callText_reports_params (isValid_transformOp op) params
  | combinator op => exact callText_reports_params (isValid_combinatorOp op) Params.empty
  | extrusion op params => exact callText_reports_params (isValid_extrusionOp op) params
  | moduleCall name params => exact callText_reports name params

mutual
/-- The lines of a node report the faults of the nodes in it from the top, at every depth and in
both styles. -/
theorem nodeLines_reports (style : TransformStyle) (depth : Nat) (node : Node) :
    Reports (nodeLines style depth node) (node.preorder.flatMap Node.faults) := by
  cases node with
  | primitive shape params =>
      rw [Node.preorder, List.flatMap_singleton]
      exact (callText_reports_params (isValid_shape shape) params).map _
  | call name params =>
      rw [Node.preorder, List.flatMap_singleton]
      exact (callText_reports name params).map _
  | composite frame children =>
      rw [Node.preorder, List.flatMap_cons]
      refine (frame_callText_reports frame children).bind fun call => ?_
      -- the children are written whether or not the composite shows their lines
      exact (nodesLines_reports style (depth + 1) children).map _
  | reference ref => exact .ok _
  | comment text => exact .ok _

theorem nodesLines_reports (style : TransformStyle) (depth : Nat) (nodes : List Node) :
    Reports (nodesLines style depth nodes) ((Node.preorderAll nodes).flatMap Node.faults) := by
  cases nodes with
  | nil => exact .ok _
  | cons node rest =>
      rw [Node.preorderAll, List.flatMap_append]
      refine (nodeLines_reports style depth node).bind fun first => ?_
      exact (nodesLines_reports style depth rest).map _
end

/-! ## Documents -/

theorem isWritablePath_eq_false_iff (path : String) :
    isWritablePath path = false ↔
      path = "" ∨ '>' ∈ path.toList ∨ '\n' ∈ path.toList ∨ '\r' ∈ path.toList := by
  rw [isWritablePath, Bool.and_eq_false_iff, bne_eq_false_iff_eq, List.all_eq_false]
  constructor
  · rintro (hempty | ⟨c, hc, hbad⟩)
    · exact .inl hempty
    · right
      by_contra hnone
      rw [not_or, not_or] at hnone
      obtain ⟨hangle, hfeed, hreturn⟩ := hnone
      apply hbad
      simp only [Bool.and_eq_true, bne_iff_ne]
      exact ⟨⟨fun h => hangle (h ▸ hc), fun h => hfeed (h ▸ hc)⟩, fun h => hreturn (h ▸ hc)⟩
  · rintro (hempty | hangle | hfeed | hreturn)
    · exact .inl hempty
    · exact .inr ⟨'>', hangle, by decide⟩
    · exact .inr ⟨'\n', hfeed, by decide⟩
    · exact .inr ⟨'\r', hreturn, by decide⟩

theorem referenceLines_reports (references : List Reference) :
    Reports (referenceLines references) (references.flatMap pathFaults) := by
  induction references with
  | nil => exact .ok _
  | cons ref rest ih =>
      rw [referenceLines, List.flatMap_cons, pathFaults]
      cases hpath : isWritablePath ref.path with
      | true =>
          have hgood := mt (isWritablePath_eq_false_iff ref.path).mpr (by simp [hpath])
          rw [if_pos rfl, if_neg hgood]
          exact ih.map _
      | false =>
          rw [if_pos ((isWritablePath_eq_false_iff ref.path).mp hpath)]
          rfl

theorem assignmentLines_reports (settings : List (String × Number)) :
    Reports (assignmentLines settings)
      (settings.flatMap fun (name, x) => settingFaults name (some x)) := by
  induction settings with
  | nil => exact .ok _
  | cons setting rest ih =>
      obtain ⟨name, x⟩ := setting
      rw [assignmentLines, List.flatMap_cons]
      cases x with
      | finite negative code => exact ih.map _
      | nan => rfl
      | infinity negative => rfl

theorem assignments_faults (resolution : Resolution) :
    (resolution.assignments.flatMap fun (name, x) => settingFaults name (some x)) =
      resolution.faults := by
  obtain ⟨fa, fs, fn⟩ := resolution
  cases fa <;> cases fs <;> cases fn <;>
    simp [Resolution.assignments, Resolution.faults, settingFaults]

end Script

/-- A rendering reports the faults of the document in their order. -/
theorem Document.render_reports (document : Document) :
    Reports document.render (Script.faults document.config.resolution document.roots) := by
  unfold Document.render Script.emit Script.faults Document.references
  rw [Reference.collect_eq_firstOfEachPath, ← Script.assignments_faults, List.append_assoc]
  refine (Script.referenceLines_reports _).bind fun first => ?_
  refine (Script.assignmentLines_reports _).bind fun second => ?_
  exact (Script.nodesLines_reports _ 0 document.roots).map _

/-- Writing a script succeeds exactly when the document has no fault, and otherwise fails with the
first fault of the document.  The faults depend on the resolution and the roots alone. -/
theorem Script.render_reports_first_fault (document : Document) :
    (∀ fault, document.render = .error fault ↔
      (Script.faults document.config.resolution document.roots).head? = some fault) ∧
      ((∃ script, document.render = .ok script) ↔
        Script.faults document.config.resolution document.roots = []) :=
  ⟨document.render_reports.error_iff, document.render_reports.ok_iff⟩

end SolidScript
