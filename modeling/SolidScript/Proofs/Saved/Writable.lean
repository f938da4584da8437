import SolidScript.Proofs.Saved.NonFinite

/-!
# Scripts of imported trees

No number stands between an imported tree and its script.  Every number that is imported is finite,
however it is written and however deep it stands, and a value with finite numbers has a text.  What
can still be wrong with the script of an imported tree is the spelling of a name or the path of a
reference (`Node.isFinite_of_importAll`).
-/

namespace SolidScript

/-! ## Faults without numbers -/

/-- The fault of a path. -/
def Fault.IsOfPath (fault : Fault) : Prop := ∃ keyword path, fault = .invalidPath keyword path

theorem Fault.isOfPath_of_mem_pathFaults {ref : Reference} {fault : Fault}
    (h : fault ∈ Script.pathFaults ref) : fault.IsOfPath := by
  unfold Script.pathFaults at h
  split at h
  · exact ⟨_, _, List.mem_singleton.mp h⟩
  · cases h

/-- Settings that are finite have no fault. -/
theorem Resolution.faults_eq_nil {resolution : Resolution}
    (h : ∀ setting ∈ resolution.assignments, setting.2.isFinite = true) :
    resolution.faults = [] := by
  rw [← Script.assignments_faults, List.flatMap_eq_nil_iff]
  exact fun setting hsetting => if_pos (h setting hsetting)

/-- Parameters with finite numbers have faults of their names only. -/
theorem Fault.isOfName_of_mem_paramFaults {node : String} {params : Params} {fault : Fault}
    (hfinite : ∀ x ∈ params.allNumbers, x.isFinite = true)
    (h : fault ∈ Script.paramFaults node params) : fault.IsOfName := by
  obtain ⟨⟨name, value⟩, hentry, hfault⟩ := List.mem_flatMap.mp h
  have hnone : Script.valueFaults node name value = [] :=
    (Script.valueFaults_eq_nil_iff node name value).mpr fun x hx =>
      hfinite x (List.mem_flatMap.mpr ⟨(name, value), hentry, hx⟩)
  rcases List.mem_append.mp hfault with hname | hvalue
  · exact Fault.isOfName_of_mem_nameFaults hname
  · rw [hnone] at hvalue
    cases hvalue

/-- A node with finite numbers has faults of its names only. -/
theorem Fault.isOfName_of_mem_faults {node : Node} {fault : Fault}
    (hfinite : ∀ x ∈ node.allNumbers, x.isFinite = true) (h : fault ∈ node.faults) :
    fault.IsOfName := by
  have hcall : ∀ name params, (∀ x ∈ params.allNumbers, x.isFinite = true) →
      fault ∈ Script.nameFaults name name ++ Script.paramFaults name params → fault.IsOfName := by
    intro name params hparams hmem
    rcases List.mem_append.mp hmem with hname | hparam
    · exact Fault.isOfName_of_mem_nameFaults hname
    · exact Fault.isOfName_of_mem_paramFaults hparams hparam
  cases node with
  | primitive shape params => exact Fault.isOfName_of_mem_paramFaults hfinite h
  | call name params => exact hcall name params hfinite h
  | composite frame children =>
      have hframe := (List.forall_mem_append.mp hfinite).1
      cases frame with
      | transform op params => exact Fault.isOfName_of_mem_paramFaults hframe h
      | combinator op => cases h
      | extrusion op params => exact Fault.isOfName_of_mem_paramFaults hframe h
      | moduleCall name params => exact hcall name params hframe h
  | reference ref => cases h
  | comment text => cases h

mutual
/-- Every node of a tree has numbers of the tree. -/
theorem Node.allNumbers_subset_of_mem_preorder {node other : Node} (h : other ∈ node.preorder) :
    other.allNumbers ⊆ node.allNumbers := by
  cases node with
  | primitive shape params => rw [List.mem_singleton.mp h]; exact List.Subset.refl _
  | call name params => rw [List.mem_singleton.mp h]; exact List.Subset.refl _
  | composite frame children =>
      rcases List.mem_cons.mp h with rfl | hinner
      · exact List.Subset.refl _
      · exact List.subset_append_of_subset_right _
          (Node.allNumbers_subset_of_mem_preorderAll hinner)
  | reference ref => rw [List.mem_singleton.mp h]; exact List.Subset.refl _
  | comment text => rw [List.mem_singleton.mp h]; exact List.Subset.refl _

theorem Node.allNumbers_subset_of_mem_preorderAll {nodes : List Node} {other : Node}
    (h : other ∈ Node.preorderAll nodes) : other.allNumbers ⊆ Node.allNumbersOf nodes := by
  cases nodes with
  | nil => cases h
  | cons node rest =>
      rcases List.mem_append.mp h with hfirst | hrest
      · exact List.subset_append_of_subset_left _ (Node.allNumbers_subset_of_mem_preorder hfirst)
      · exact List.subset_append_of_subset_right _
          (Node.allNumbers_subset_of_mem_preorderAll hrest)
end

/-- Where all numbers are finite, only names and paths are at fault. -/
theorem Script.isOfName_or_isOfPath_of_mem_faults {resolution : Resolution} {roots : List Node}
    (hresolution : ∀ setting ∈ resolution.assignments, setting.2.isFinite = true)
    (hroots : ∀ x ∈ Node.allNumbersOf roots, x.isFinite = true) {fault : Fault}
    (h : fault ∈ Script.faults resolution roots) : fault.IsOfName ∨ fault.IsOfPath := by
  rw [Script.faults, Resolution.faults_eq_nil hresolution, List.append_nil] at h
  rcases List.mem_append.mp h with hpath | hnode
  · obtain ⟨ref, -, href⟩ := List.mem_flatMap.mp hpath
    exact Or.inr (Fault.isOfPath_of_mem_pathFaults href)
  · obtain ⟨node, hmem, hfault⟩ := List.mem_flatMap.mp hnode
    have hfinite : ∀ x ∈ node.allNumbers, x.isFinite = true := fun x hx =>
      hroots x (Node.allNumbers_subset_of_mem_preorderAll hmem hx)
    exact Or.inl (Fault.isOfName_of_mem_faults hfinite hfault)

/-! ## Imported trees -/

/-- Every number of an imported tree is finite, so that in a script with finite settings only the
names and the paths of the tree can be at fault. -/
theorem Node.isFinite_of_importAll {text : String} {roots : List Node}
    (h : Node.importAll text = .ok roots) :
    (∀ x ∈ Node.allNumbersOf roots, x.isFinite = true) ∧
      ∀ config : Config,
        (∀ setting ∈ config.resolution.assignments, setting.2.isFinite = true) →
          ∀ fault, Document.render ⟨config, roots⟩ = .error fault →
            fault.IsOfName ∨ fault.IsOfPath := by
  have hfinite := (Node.bounded_of_importAll h).2
  refine ⟨hfinite, fun config hresolution fault hfault => ?_⟩
  have hhead := ((Document.render_reports ⟨config, roots⟩).error_iff fault).mp hfault
  exact Script.isOfName_or_isOfPath_of_mem_faults hresolution hfinite (List.mem_of_mem_head? hhead)

/-- A loop in place of a call, with the greatest number there is and the least. -/
def extremesText : String :=
  "[\x7b\"module_call\": \x7b\"name\": \"for\", " ++
    "\"params\": \x7b\"v\": [[1.7976931348623157e308], -5e-324]\x7d\x7d\x7d]"

theorem Node.isFinite_of_importAll_extremesText :
    ∃ roots, Node.importAll extremesText = .ok roots ∧
      Node.allNumbersOf roots = [.ofCode false (magnitudeCount - 1), .ofCode true 1] ∧
      (∀ x ∈ Node.allNumbersOf roots, x.isFinite = true) ∧
      Document.render ⟨{ resolution := { fn := some (.ofNat 48) } }, roots⟩ =
        .error (.invalidIdentifier "for" "for") ∧
      ((Fault.invalidIdentifier "for" "for").IsOfName ∨
        (Fault.invalidIdentifier "for" "for").IsOfPath) := by
  have hrender : (Node.importAll extremesText).toOption.map (fun roots =>
      (Node.allNumbersOf roots,
        Document.render ⟨{ resolution := { fn := some (.ofNat 48) } }, roots⟩)) =
      some ([.ofCode false (magnitudeCount - 1), .ofCode true 1],
        .error (.invalidIdentifier "for" "for")) := by decide +kernel
  obtain ⟨roots, hroots, hboth⟩ := Option.map_eq_some_iff.mp hrender
  obtain ⟨hnumbers, hfault⟩ := Prod.mk.inj hboth
  have hok := toOption_eq_some_iff.mp hroots
  obtain ⟨hfinite, hfaults⟩ := Node.isFinite_of_importAll hok
  exact ⟨roots, hok, hnumbers, hfinite, hfault, hfaults _ (by decide +kernel) _ hfault⟩

/-- A number that is too large is refused. -/
example : (Node.importAll ("\x7b\"primitive\": \x7b\"shape\": \"cube\", " ++
    "\"params\": \x7b\"size\": 1e309\x7d\x7d\x7d")).toOption.isNone = true := by decide +kernel

end SolidScript
