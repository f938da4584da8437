import SolidScript.Proofs.Saved.Reloaded
import SolidScript.Proofs.Script.Faults

/-!
# Numbers that are lost in a saved text

A number that is not finite has no text.  A script with one is refused, but a saved text has `null`
in its place, and what is imported from there is nothing at all.  So the faults of a tree that was
saved and imported are those of its names alone (`Node.mem_faults_reload_iff`), and a tree that was
refused for its numbers becomes writable (`Document.render_reload_iff`).
-/

namespace SolidScript

open Json

/-! ## Numbers of values -/

mutual
theorem Value.map_snd_numbersAt (v : Value) : v.numbersAt.map Prod.snd = v.allNumbers := by
  cases v with
  | undef => rfl
  | bool b => rfl
  | number x => rfl
  | text s => rfl
  | vector items => exact Value.map_snd_numbersFrom 0 items

theorem Value.map_snd_numbersFrom (index : Nat) (items : List Value) :
    (Value.numbersFrom index items).map Prod.snd = Value.allNumbersOf items := by
  cases items with
  | nil => rfl
  | cons item rest =>
      rw [Value.numbersFrom, Value.allNumbersOf, List.map_append, List.map_map,
        Value.map_snd_numbersFrom (index + 1) rest, ← item.map_snd_numbersAt]
      rfl
end

/-- A value has a fault exactly when one of its numbers is not finite. -/
theorem Script.valueFaults_eq_nil_iff (node param : String) (v : Value) :
    Script.valueFaults node param v = [] ↔ ∀ x ∈ v.allNumbers, x.isFinite = true := by
  rw [← v.map_snd_numbersAt, List.forall_mem_map]
  unfold Script.valueFaults
  split
  · -- a number that is not finite has been found, and there is a fault of it
    rename_i path x hfind
    have hbad : (!x.isFinite) = true := by simpa using List.find?_some hfind
    have hmem := List.mem_of_find?_eq_some hfind
    constructor
    · intro h
      cases h
    · intro h
      rw [h (path, x) hmem] at hbad
      cases hbad
  · rename_i hfind
    have hfinite : ∀ entry ∈ v.numbersAt, entry.2.isFinite = true := by
      simpa using List.find?_eq_none.mp hfind
    exact ⟨fun _ => hfinite, fun _ => rfl⟩

/-- Only numbers make faults of a value. -/
theorem Script.exists_nonFinite_of_mem_valueFaults {node param : String} {v : Value} {fault : Fault}
    (h : fault ∈ Script.valueFaults node param v) :
    ∃ place x, fault = .nonFinite node place x := by
  unfold Script.valueFaults at h
  split at h
  · exact ⟨_, _, List.mem_singleton.mp h⟩
  · cases h

theorem Script.exists_invalidIdentifier_of_mem_nameFaults {node name : String} {fault : Fault}
    (h : fault ∈ Script.nameFaults node name) : fault = .invalidIdentifier node name := by
  unfold Script.nameFaults at h
  split at h
  · cases h
  · exact List.mem_singleton.mp h

section FiniteNumbers

variable {f : Number → Value}

mutual
/-- Values with finite numbers in place of numbers make values with finite numbers. -/
theorem Value.isFinite_mapNumbers (hf : ∀ x, ∀ y ∈ (f x).allNumbers, y.isFinite = true)
    (v : Value) : ∀ y ∈ (v.mapNumbers f).allNumbers, y.isFinite = true := by
  cases v with
  | undef => exact fun _ hy => absurd hy List.not_mem_nil
  | bool b => exact fun _ hy => absurd hy List.not_mem_nil
  | number x => exact hf x
  | text s => exact fun _ hy => absurd hy List.not_mem_nil
  | vector items => exact Value.isFinite_mapNumbersOf hf items

theorem Value.isFinite_mapNumbersOf (hf : ∀ x, ∀ y ∈ (f x).allNumbers, y.isFinite = true)
    (items : List Value) :
    ∀ y ∈ Value.allNumbersOf (Value.mapNumbersOf f items), y.isFinite = true := by
  cases items with
  | nil => exact fun _ hy => absurd hy List.not_mem_nil
  | cons item rest =>
      exact List.forall_mem_append.mpr
        ⟨item.isFinite_mapNumbers hf, Value.isFinite_mapNumbersOf hf rest⟩
end

end FiniteNumbers

/-- What is read from the text of a number is finite, if it is a number. -/
theorem Number.isFinite_reread (x : Number) : ∀ y ∈ x.reread.allNumbers, y.isFinite = true := by
  cases x with
  | nan => exact fun _ hy => absurd hy List.not_mem_nil
  | infinity negative => exact fun _ hy => absurd hy List.not_mem_nil
  | finite negative code =>
      obtain ⟨z, hz, hreread⟩ := Number.exists_reread_eq (x := .finite negative code) rfl
      rw [hreread]
      exact List.forall_mem_singleton.mpr hz

/-! ## Faults of what comes back -/

/-- The node that comes back when a node is saved and imported. -/
def Node.reload (node : Node) : Node := (node.mapNumbers Number.reread).sorted

/-- The fault of a name. -/
def Fault.IsOfName (fault : Fault) : Prop := ∃ node name, fault = .invalidIdentifier node name

theorem Fault.isOfName_of_mem_nameFaults {node name : String} {fault : Fault}
    (h : fault ∈ Script.nameFaults node name) : fault.IsOfName :=
  ⟨node, name, Script.exists_invalidIdentifier_of_mem_nameFaults h⟩

theorem Fault.not_isOfName_of_mem_valueFaults {node param : String} {v : Value} {fault : Fault}
    (h : fault ∈ Script.valueFaults node param v) : ¬ fault.IsOfName := by
  obtain ⟨place, x, rfl⟩ := Script.exists_nonFinite_of_mem_valueFaults h
  rintro ⟨node, name, hname⟩
  cases hname

/-- Names stay as they are, and no number is left that makes a fault. -/
theorem Script.mem_paramFaults_reload_iff (node : String) (params : Params) (fault : Fault) :
    fault ∈ Script.paramFaults node (params.mapNumbers Number.reread).sorted ↔
      fault ∈ Script.paramFaults node params ∧ fault.IsOfName := by
  have hperm := List.perm_insertionSort byName (params.mapNumbers Number.reread).entries
  have hmem : fault ∈ Script.paramFaults node (params.mapNumbers Number.reread).sorted ↔
      ∃ entry ∈ params.entries, fault ∈ Script.nameFaults node entry.1 ∨
        fault ∈ Script.valueFaults node entry.1 (entry.2.mapNumbers Number.reread) := by
    change fault ∈ (List.insertionSort byName (params.mapNumbers Number.reread).entries).flatMap _ ↔
      _
    rw [(hperm.flatMap_right _).mem_iff, Params.mapNumbers, List.mem_flatMap]
    simp
  have hnone : ∀ name, ∀ v : Value,
      Script.valueFaults node name (v.mapNumbers Number.reread) = [] := by
    intro name v
    rw [Script.valueFaults_eq_nil_iff]
    exact v.isFinite_mapNumbers Number.isFinite_reread
  rw [hmem]
  constructor
  · rintro ⟨entry, hentry, hfault | hfault⟩
    · refine ⟨List.mem_flatMap.mpr ⟨entry, hentry, ?_⟩, Fault.isOfName_of_mem_nameFaults hfault⟩
      exact List.mem_append_left _ hfault
    · rw [hnone] at hfault
      cases hfault
  · rintro ⟨hfault, hname⟩
    obtain ⟨entry, hentry, hfault⟩ := List.mem_flatMap.mp hfault
    refine ⟨entry, hentry, Or.inl ?_⟩
    rcases List.mem_append.mp hfault with hfault | hfault
    · exact hfault
    · exact absurd hname (Fault.not_isOfName_of_mem_valueFaults hfault)

/-- The faults of a node that comes back are those of the names in it. -/
theorem Node.mem_faults_reload_iff (node : Node) (fault : Fault) :
    fault ∈ node.reload.faults ↔ fault ∈ node.faults ∧ fault.IsOfName := by
  have hcall : ∀ name params,
      fault ∈ Script.nameFaults name name ++
          Script.paramFaults name (params.mapNumbers Number.reread).sorted ↔
        fault ∈ Script.nameFaults name name ++ Script.paramFaults name params ∧
          fault.IsOfName := by
    intro name params
    rw [List.mem_append, List.mem_append, Script.mem_paramFaults_reload_iff, or_and_right,
      and_iff_left_of_imp Fault.isOfName_of_mem_nameFaults]
  cases node with
  | primitive shape params => exact Script.mem_paramFaults_reload_iff shape.name params fault
  | call name params => exact hcall name params
  | composite frame children =>
      cases frame with
      | transform op params => exact Script.mem_paramFaults_reload_iff op.name params fault
      | combinator op => exact iff_of_false List.not_mem_nil fun h => List.not_mem_nil h.1
      | extrusion op params => exact Script.mem_paramFaults_reload_iff op.scriptName params fault
      | moduleCall name params => exact hcall name params
  | reference ref => exact iff_of_false List.not_mem_nil fun h => List.not_mem_nil h.1
  | comment text => exact iff_of_false List.not_mem_nil fun h => List.not_mem_nil h.1

/-! ## Trees and documents -/

theorem Node.reference?_reload (node : Node) : node.reload.reference? = node.reference? := by
  cases node <;> rfl

mutual
/-- What comes back has the same nodes in the same order. -/
theorem Node.preorder_reload (node : Node) :
    node.reload.preorder = node.preorder.map Node.reload := by
  cases node with
  | primitive shape params => rfl
  | call name params => rfl
  | composite frame children =>
      have hchildren := Node.preorderAll_reload children
      rw [Node.reload, Node.mapNumbers, Node.sorted, Node.preorder, Node.preorder, List.map_cons,
        hchildren]
      rfl
  | reference ref => rfl
  | comment text => rfl

theorem Node.preorderAll_reload (nodes : List Node) :
    Node.preorderAll (Node.sortedAll (Node.mapNumbersOf Number.reread nodes)) =
      (Node.preorderAll nodes).map Node.reload := by
  cases nodes with
  | nil => rfl
  | cons node rest =>
      have hnode := node.preorder_reload
      have hrest := Node.preorderAll_reload rest
      rw [Node.reload] at hnode
      rw [Node.mapNumbersOf, Node.sortedAll, Node.preorderAll, Node.preorderAll, List.map_append,
        hnode, hrest]
end

/-- References come back as they were. -/
theorem Reference.occurrences_reload (roots : List Node) :
    Reference.occurrences (Node.sortedAll (Node.mapNumbersOf Number.reread roots)) =
      Reference.occurrences roots := by
  rw [Reference.occurrences, Node.preorderAll_reload, List.filterMap_map]
  exact List.filterMap_congr fun node _ => node.reference?_reload

/-- What is wrong with the path of a reference is no fault of a number. -/
theorem Script.not_nonFinite_mem_pathFaults {ref : Reference} {node param : String} {x : Number} :
    Fault.nonFinite node param x ∉ Script.pathFaults ref := by
  unfold Script.pathFaults
  split
  · exact fun h => by cases List.mem_singleton.mp h
  · exact List.not_mem_nil

/-- Where a number is reported that is no setting, neither references nor settings have a fault. -/
theorem Script.faults_eq_of_nonFinite {resolution : Resolution} {roots : List Node}
    {node param : String} {x : Number} (hresolution : resolution.faults = [])
    (h : (Script.faults resolution roots).head? = some (.nonFinite node param x)) :
    (Reference.firstOfEachPath (Reference.occurrences roots)).flatMap Script.pathFaults = [] ∧
      Script.faults resolution roots = (Node.preorderAll roots).flatMap Node.faults := by
  have hpaths :
      (Reference.firstOfEachPath (Reference.occurrences roots)).flatMap Script.pathFaults = [] := by
    rw [Script.faults, List.append_assoc] at h
    cases hlist :
        (Reference.firstOfEachPath (Reference.occurrences roots)).flatMap Script.pathFaults with
    | nil => rfl
    | cons first rest =>
        rw [hlist, List.cons_append, List.head?_cons, Option.some.injEq] at h
        have hmem : first ∈ (Reference.firstOfEachPath
            (Reference.occurrences roots)).flatMap Script.pathFaults := by
          rw [hlist]
          exact List.mem_cons_self
        obtain ⟨ref, -, href⟩ := List.mem_flatMap.mp hmem
        rw [h] at href
        exact absurd href Script.not_nonFinite_mem_pathFaults
  exact ⟨hpaths, by rw [Script.faults, hpaths, hresolution]; rfl⟩

/-- A document that is refused for a number in it can be saved and imported unless it is too deep,
and then no number stands in the way of its script any more: the script is written exactly when all
names in the document may stand in one. -/
theorem Document.render_reload_iff {config : Config} {roots : List Node} {node param : String}
    {x : Number} (hresolution : config.resolution.faults = [])
    (h : Document.render ⟨config, roots⟩ = .error (.nonFinite node param x)) :
    ((∃ again, Node.importAll (Node.saveAll roots) = .ok again) ↔
        Node.levelsOf roots + 1 ≤ depthLimit) ∧
      ∀ again, Node.importAll (Node.saveAll roots) = .ok again →
        ((∃ script, Document.render ⟨config, again⟩ = .ok script) ↔
          ∀ fault ∈ Script.faults config.resolution roots, ¬ fault.IsOfName) ∧
        ∀ fault, Document.render ⟨config, again⟩ = .error fault →
          fault.IsOfName ∧ fault ∈ Script.faults config.resolution roots := by
  have hhead := ((Document.render_reports ⟨config, roots⟩).error_iff _).mp h
  obtain ⟨hpaths, hfaults⟩ := Script.faults_eq_of_nonFinite hresolution hhead
  have himport := Node.importAll_saveAll roots
  refine ⟨?_, fun again hagain => ?_⟩
  · rw [himport]
    split
    · rename_i hdepth
      exact ⟨fun _ => hdepth, fun _ => ⟨_, rfl⟩⟩
    · rename_i hdepth
      exact ⟨fun ⟨_, h⟩ => (by cases h), fun h => absurd h hdepth⟩
  · have hroots : again = Node.sortedAll (Node.mapNumbersOf Number.reread roots) := by
      rw [himport] at hagain
      split at hagain
      · exact (Except.ok.inj hagain).symm
      · cases hagain
    -- only the nodes have faults, and of these only the names
    have hagainFaults : ∀ fault, fault ∈ Script.faults config.resolution again ↔
        fault ∈ Script.faults config.resolution roots ∧ fault.IsOfName := by
      intro fault
      rw [hfaults, hroots, Script.faults, Reference.occurrences_reload, hpaths, hresolution,
        Node.preorderAll_reload]
      simp only [List.nil_append, List.mem_flatMap, List.mem_map]
      constructor
      · rintro ⟨_, ⟨node, hnode, rfl⟩, hfault⟩
        obtain ⟨hfault, hname⟩ := (node.mem_faults_reload_iff fault).mp hfault
        exact ⟨⟨node, hnode, hfault⟩, hname⟩
      · rintro ⟨⟨node, hnode, hfault⟩, hname⟩
        exact ⟨_, ⟨node, hnode, rfl⟩, (node.mem_faults_reload_iff fault).mpr ⟨hfault, hname⟩⟩
    have hreports := Document.render_reports ⟨config, again⟩
    constructor
    · rw [hreports.ok_iff, List.eq_nil_iff_forall_not_mem]
      exact forall_congr' fun fault => by rw [hagainFaults, not_and]
    · intro fault hfault
      have hmem := List.mem_of_mem_head? ((hreports.error_iff fault).mp hfault)
      exact ((hagainFaults fault).mp hmem).symm

/-- A polygon with a corner infinitely far away. -/
def farPolygon : List Node :=
  [.primitive .polygon (Params.ofList
    [("points", .vector [.numbers [.zero false, .infinity true], .numbers [.zero false]])])]

theorem Document.render_reload_farPolygon :
    ∃ again script, Node.importAll (Node.saveAll farPolygon) = .ok again ∧
      Document.render ⟨{}, farPolygon⟩ =
        .error (.nonFinite "polygon" "points[0][1]" (.infinity true)) ∧
      Document.render ⟨{}, again⟩ = .ok script := by
  have hresolution : (Resolution.faults {}) = [] := by decide
  have hrender : (Document.render ⟨{}, farPolygon⟩) =
      .error (.nonFinite "polygon" "points[0][1]" (.infinity true)) := by decide +kernel
  have hdepth : Node.levelsOf farPolygon + 1 ≤ depthLimit := by decide +kernel
  have hfaults : Script.faults {} farPolygon =
      [.nonFinite "polygon" "points[0][1]" (.infinity true)] := by decide +kernel
  obtain ⟨himport, hagain⟩ := Document.render_reload_iff hresolution hrender
  obtain ⟨again, hok⟩ := himport.mpr hdepth
  obtain ⟨script, hscript⟩ := (hagain again hok).1.mpr (by
    intro fault hfault
    rw [hfaults] at hfault
    rintro ⟨node, name, rfl⟩
    cases List.mem_singleton.mp hfault)
  exact ⟨again, script, hok, hrender, hscript⟩

/-- A cube whose size is no number. -/
def unsizedCube : List Node := [.primitive .cube (Params.ofList [("size", .number .nan)])]

/-- The cube is refused, but its saved text has a `null` that comes back as nothing. -/
theorem Document.render_reload_unsizedCube :
    Document.render ⟨{}, unsizedCube⟩ = .error (.nonFinite "cube" "size" .nan) ∧
      ∃ again, Node.importAll (Node.saveAll unsizedCube) = .ok again ∧
        Document.render ⟨{}, again⟩ = .ok "cube(size = undef);\n" := by
  refine ⟨by decide +kernel, ?_⟩
  have hagain : (Node.importAll (Node.saveAll unsizedCube)).toOption.bind (fun again =>
      (Document.render ⟨{}, again⟩).toOption) = some "cube(size = undef);\n" := by decide +kernel
  obtain ⟨again, hok, hscript⟩ := Option.bind_eq_some_iff.mp hagain
  exact ⟨again, toOption_eq_some_iff.mp hok, toOption_eq_some_iff.mp hscript⟩

end SolidScript
