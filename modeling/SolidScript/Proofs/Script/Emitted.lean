import SolidScript.Proofs.Result
import SolidScript.Script.Document

/-!
# What an emitted text is made of

Emitting ends with the first fault.  So all that was checked on the way to an emitted text is in
order, and each part of the text is what a part of the tree is emitted as.  Here this is said once
for each function that emits; what is known of emitted texts follows by the recursion of the tree.
-/

namespace SolidScript

theorem Identifier.wellFormed_of_isValid {name : String} (h : isValid name = true) :
    wellFormed name.toList = true := (Bool.and_eq_true_iff.mp h).1

namespace Script

theorem checkIdentifier_eq_ok {node name : String} {u : Unit}
    (h : checkIdentifier node name = .ok u) : Identifier.isValid name = true := by
  unfold checkIdentifier at h
  split at h
  · assumption
  · cases h

/-! ## Expressions -/

section

variable {node param name text : String} {path : List Nat} {index : Nat} {texts : List String}

theorem valueText_number_eq_ok {x : Number}
    (h : valueText node param path (.number x) = .ok text) : numeral? x = some text := by
  rw [valueText] at h
  split at h
  · cases h
    assumption
  · cases h

theorem valueText_vector_eq_ok {items : List Value}
    (h : valueText node param path (.vector items) = .ok text) :
    ∃ texts, itemTexts node param path 0 items = .ok texts ∧
      text = "[" ++ commaSeparated texts ++ "]" := by
  rw [valueText] at h
  obtain ⟨texts, htexts, hok⟩ := exists_of_bind_eq_ok h
  exact ⟨texts, htexts, (Except.ok.inj hok).symm⟩

theorem itemTexts_cons_eq_ok {item : Value} {rest : List Value}
    (h : itemTexts node param path index (item :: rest) = .ok texts) :
    ∃ text others, valueText node param (path ++ [index]) item = .ok text ∧
      itemTexts node param path (index + 1) rest = .ok others ∧ texts = text :: others := by
  rw [itemTexts] at h
  obtain ⟨text, htext, h⟩ := exists_of_bind_eq_ok h
  obtain ⟨others, hothers, hok⟩ := exists_of_bind_eq_ok h
  exact ⟨text, others, htext, hothers, (Except.ok.inj hok).symm⟩

theorem argumentTexts_cons_eq_ok {value : Value} {rest : List (String × Value)}
    (h : argumentTexts node ((name, value) :: rest) = .ok texts) :
    Identifier.isValid name = true ∧ ∃ text others, valueText node name [] value = .ok text ∧
      argumentTexts node rest = .ok others ∧ texts = (name ++ " = " ++ text) :: others := by
  rw [argumentTexts] at h
  obtain ⟨_, hname, h⟩ := exists_of_bind_eq_ok h
  obtain ⟨text, htext, h⟩ := exists_of_bind_eq_ok h
  obtain ⟨others, hothers, hok⟩ := exists_of_bind_eq_ok h
  exact ⟨checkIdentifier_eq_ok hname, text, others, htext, hothers, (Except.ok.inj hok).symm⟩

theorem callText_eq_ok {params : Params} (h : callText name params = .ok text) :
    Identifier.isValid name = true ∧ ∃ texts, argumentTexts name params.entries = .ok texts ∧
      text = name ++ "(" ++ commaSeparated texts ++ ")" := by
  unfold callText at h
  obtain ⟨_, hname, h⟩ := exists_of_bind_eq_ok h
  obtain ⟨texts, htexts, hok⟩ := exists_of_bind_eq_ok h
  exact ⟨checkIdentifier_eq_ok hname, texts, htexts, (Except.ok.inj hok).symm⟩

end

/-! ## Lines -/

section

variable {style : TransformStyle} {depth : Nat} {params : Params} {lines : List Line}

theorem nodeLines_primitive_eq_ok {shape : Shape}
    (h : nodeLines style depth (.primitive shape params) = .ok lines) :
    ∃ call, callText shape.name params = .ok call ∧ lines = [⟨depth, call ++ ";"⟩] := by
  rw [nodeLines] at h
  obtain ⟨call, hcall, hok⟩ := exists_of_bind_eq_ok h
  exact ⟨call, hcall, (Except.ok.inj hok).symm⟩

theorem nodeLines_call_eq_ok {name : String}
    (h : nodeLines style depth (.call name params) = .ok lines) :
    ∃ call, callText name params = .ok call ∧ lines = [⟨depth, call ++ ";"⟩] := by
  rw [nodeLines] at h
  obtain ⟨call, hcall, hok⟩ := exists_of_bind_eq_ok h
  exact ⟨call, hcall, (Except.ok.inj hok).symm⟩

theorem nodeLines_composite_eq_ok {frame : Frame} {children : List Node}
    (h : nodeLines style depth (.composite frame children) = .ok lines) :
    ∃ call inner, callText frame.name frame.params = .ok call ∧
      nodesLines style (depth + 1) children = .ok inner ∧
      lines = compositeLines style depth frame children call inner := by
  rw [nodeLines] at h
  obtain ⟨call, hcall, h⟩ := exists_of_bind_eq_ok h
  obtain ⟨inner, hinner, hok⟩ := exists_of_bind_eq_ok h
  exact ⟨call, inner, hcall, hinner, (Except.ok.inj hok).symm⟩

theorem nodesLines_cons_eq_ok {node : Node} {rest : List Node}
    (h : nodesLines style depth (node :: rest) = .ok lines) :
    ∃ first others, nodeLines style depth node = .ok first ∧
      nodesLines style depth rest = .ok others ∧ lines = first ++ others := by
  rw [nodesLines] at h
  obtain ⟨first, hfirst, h⟩ := exists_of_bind_eq_ok h
  obtain ⟨others, hothers, hok⟩ := exists_of_bind_eq_ok h
  exact ⟨first, others, hfirst, hothers, (Except.ok.inj hok).symm⟩

/-- What would end a path early does not stand in a path that can be written. -/
theorem notMem_of_isWritablePath {path : String} (h : isWritablePath path = true) {c : Char}
    (hc : c ∈ ['>', '\n', '\r']) : c ∉ path.toList := by
  intro hmem
  have hallowed := List.all_eq_true.mp (Bool.and_eq_true_iff.mp h).2 c hmem
  simp only [List.mem_cons, List.not_mem_nil, or_false] at hc
  rcases hc with rfl | rfl | rfl <;> cases hallowed

theorem referenceLines_cons_eq_ok {ref : Reference} {rest : List Reference}
    (h : referenceLines (ref :: rest) = .ok lines) :
    isWritablePath ref.path = true ∧ ∃ others, referenceLines rest = .ok others ∧
      lines = ⟨0, ref.kind.keyword ++ " <" ++ ref.path ++ ">"⟩ :: others := by
  rw [referenceLines] at h
  split at h
  · rename_i hwritable
    obtain ⟨others, hothers, hok⟩ := exists_of_bind_eq_ok h
    exact ⟨hwritable, others, hothers, (Except.ok.inj hok).symm⟩
  · cases h

theorem assignmentLines_cons_eq_ok {name : String} {value : Number}
    {rest : List (String × Number)} (h : assignmentLines ((name, value) :: rest) = .ok lines) :
    ∃ text others, numeral? value = some text ∧ assignmentLines rest = .ok others ∧
      lines = ⟨0, name ++ " = " ++ text ++ ";"⟩ :: others := by
  rw [assignmentLines] at h
  split at h
  · rename_i text htext
    obtain ⟨others, hothers, hok⟩ := exists_of_bind_eq_ok h
    exact ⟨text, others, htext, hothers, (Except.ok.inj hok).symm⟩
  · cases h

end

/-- A script has the lines of its references, of its assignments and of its roots. -/
theorem emit_eq_ok {config : Config} {references : List Reference} {roots : List Node}
    {script : String} (h : emit config references roots = .ok script) :
    ∃ first second third, referenceLines references = .ok first ∧
      assignmentLines config.resolution.assignments = .ok second ∧
      nodesLines config.style 0 roots = .ok third ∧
      script = joinSections config.indent [first, second, third] := by
  unfold emit at h
  obtain ⟨first, hfirst, h⟩ := exists_of_bind_eq_ok h
  obtain ⟨second, hsecond, h⟩ := exists_of_bind_eq_ok h
  obtain ⟨third, hthird, hok⟩ := exists_of_bind_eq_ok h
  exact ⟨first, second, third, hfirst, hsecond, hthird, (Except.ok.inj hok).symm⟩

end Script
end SolidScript
