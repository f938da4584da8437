import SolidScript.Proofs.Json.Finite
import SolidScript.Proofs.Saved.Agreement

/-!
# What imported trees are like

Three things hold of whatever is imported.  Every number in it is finite, since no JSON text has
another; it has no more levels than a reader goes down, since each of its levels comes from one of
the text (`Node.bounded_of_importAll`); and the parameters of every node are in the order of their
names (`Node.inNameOrder_of_importAll`).

The first two are shown together for each part of a node (`Bounded`), from what is known of the tree
that the part is made of.
-/

namespace SolidScript

open Json

/-! ## Bounds -/

/-- So many levels are no more than `room`, and all of these numbers are finite. -/
def Bounded (room levels : Nat) (numbers : List Number) : Prop :=
  levels ≤ room ∧ ∀ x ∈ numbers, x.isFinite = true

theorem bounded_zero (room : Nat) : Bounded room 0 [] :=
  ⟨Nat.zero_le room, fun _ h => absurd h List.not_mem_nil⟩

theorem Bounded.mono {room more levels : Nat} {numbers : List Number}
    (h : Bounded room levels numbers) (hle : room ≤ more) : Bounded more levels numbers :=
  ⟨h.1.trans hle, h.2⟩

theorem Bounded.succ {room levels : Nat} {numbers : List Number}
    (h : Bounded room levels numbers) : Bounded (room + 1) (levels + 1) numbers :=
  ⟨Nat.succ_le_succ h.1, h.2⟩

theorem Bounded.max {room k l : Nat} {xs ys : List Number} (hk : Bounded room k xs)
    (hl : Bounded room l ys) : Bounded room (max k l) (xs ++ ys) :=
  ⟨max_le hk.1 hl.1, List.forall_mem_append.mpr ⟨hk.2, hl.2⟩⟩

/-! ## Values and parameters -/

mutual
theorem Value.bounded_of_ofJson? {room : Nat} {json : Json} {value : Value}
    (hjson : json.Within room) (h : Value.ofJson? json = some value) :
    Bounded room value.levels value.allNumbers := by
  cases json with
  | null => cases h; exact bounded_zero room
  | bool b => cases h; exact bounded_zero room
  | text s => cases h; exact bounded_zero room
  | number amount =>
      cases h
      exact ⟨Nat.zero_le room, List.forall_mem_singleton.mpr hjson⟩
  | array items =>
      obtain ⟨values, hvalues, rfl⟩ := Option.map_eq_some_iff.mp h
      obtain ⟨inner, rfl, hitems⟩ := exists_withinItems hjson
      exact (Value.bounded_of_itemsOfJson? hitems hvalues).succ
  | object fields => cases h

theorem Value.bounded_of_itemsOfJson? {room : Nat} {items : List Json} {values : List Value}
    (hitems : WithinItems room items) (h : Value.itemsOfJson? items = some values) :
    Bounded room (Value.levelsOf values) (Value.allNumbersOf values) := by
  cases items with
  | nil => cases h; exact bounded_zero room
  | cons item rest =>
      rw [Value.itemsOfJson?] at h
      split at h
      · cases h
      · rename_i value hvalue
        obtain ⟨others, hothers, rfl⟩ := Option.map_eq_some_iff.mp h
        exact (Value.bounded_of_ofJson? hitems.1 hvalue).max
          (Value.bounded_of_itemsOfJson? hitems.2 hothers)
end

/-- The values of some entries are bounded one by one. -/
def EntriesBounded (room : Nat) (entries : List (String × Value)) : Prop :=
  ∀ entry ∈ entries, Bounded room entry.2.levels entry.2.allNumbers

theorem EntriesBounded.set {room : Nat} {entries : List (String × Value)}
    (h : EntriesBounded room entries) (name : String) {value : Value}
    (hvalue : Bounded room value.levels value.allNumbers) :
    EntriesBounded room (setEntry name value entries) := by
  induction entries with
  | nil => exact List.forall_mem_singleton.mpr hvalue
  | cons entry rest ih =>
      obtain ⟨hentry, hrest⟩ := List.forall_mem_cons.mp h
      rw [setEntry]
      split
      · exact List.forall_mem_cons.mpr ⟨hvalue, hrest⟩
      · exact List.forall_mem_cons.mpr ⟨hentry, ih hrest⟩

theorem EntriesBounded.levelsOf {room : Nat} {entries : List (String × Value)}
    (h : EntriesBounded room entries) :
    Bounded room (Value.levelsOf (entries.map Prod.snd)) (entryNumbers entries) := by
  induction entries with
  | nil => exact bounded_zero room
  | cons entry rest ih =>
      obtain ⟨hentry, hrest⟩ := List.forall_mem_cons.mp h
      exact hentry.max (ih hrest)

namespace Params

theorem entriesBounded_of_addJson {room : Nat} {params q : Params} {fields : List (String × Json)}
    (hparams : EntriesBounded room params.entries) (hfields : WithinFields room fields)
    (h : addJson params fields = .ok q) : EntriesBounded room q.entries := by
  induction fields generalizing params with
  | nil => cases h; exact hparams
  | cons field rest ih =>
      obtain ⟨name, json⟩ := field
      rw [addJson] at h
      split at h
      · cases h
      · rename_i value hvalue
        exact ih (hparams.set name (Value.bounded_of_ofJson? hfields.1 hvalue)) hfields.2 h

theorem bounded_of_ofJson {room : Nat} {json : Json} {params : Params}
    (hjson : json.Within room) (h : ofJson json = .ok params) :
    Bounded room params.levels params.allNumbers := by
  cases json with
  | object fields =>
      obtain ⟨inner, rfl, hfields⟩ := exists_withinFields hjson
      have hnone : EntriesBounded inner empty.entries := fun _ h => absurd h List.not_mem_nil
      exact (entriesBounded_of_addJson hnone hfields h).levelsOf.succ
  | null => cases h
  | bool b => cases h
  | number amount => cases h
  | text s => cases h
  | array items => cases h

end Params

namespace Saved

/-! ## Parts of a node -/

/-- The parameters and the nodes inside a node are bounded, the latter with the array around
them. -/
structure Slots.Bounded (room : Nat) (slots : Slots) : Prop where
  params : ∀ params, slots.params = some params →
    SolidScript.Bounded room params.levels params.allNumbers
  children : ∀ nodes, slots.children = some (some nodes) →
    SolidScript.Bounded room (Node.levelsOf nodes + 1) (Node.allNumbersOf nodes)

theorem Slots.bounded_empty (room : Nat) : Slots.Bounded room {} where
  params _ h := by cases h
  children _ h := by cases h

/-- The same of a part that has been read. -/
def Filling.Bounded (room : Nat) : Filling → Prop
  | params p => SolidScript.Bounded room p.levels p.allNumbers
  | children (some nodes) =>
    SolidScript.Bounded room (Node.levelsOf nodes + 1) (Node.allNumbersOf nodes)
  | _ => True

theorem Slots.Bounded.put {room : Nat} {slots : Slots} (h : slots.Bounded room) {a : Filling}
    (ha : a.Bounded room) : (a.put slots).Bounded room := by
  cases a with
  | params p => exact ⟨fun q hq => Option.some.inj hq ▸ ha, h.children⟩
  | children nodes =>
      refine ⟨h.params, fun all hall => ?_⟩
      cases hall
      exact ha
  | shape x => exact ⟨h.params, h.children⟩
  | transformOp x => exact ⟨h.params, h.children⟩
  | combinatorOp x => exact ⟨h.params, h.children⟩
  | extrusionOp x => exact ⟨h.params, h.children⟩
  | referenceKind x => exact ⟨h.params, h.children⟩
  | text s => exact ⟨h.params, h.children⟩

/-- A needed part that is there. -/
theorem need_eq_ok {α : Type} {part : Part} {x : Option α} {a : α} (h : need part x = .ok a) :
    x = some a := by
  cases x with
  | none => cases h
  | some b => exact congrArg some (Except.ok.inj h)

theorem compositeOf_eq_ok {frame : Frame} {children : Option (Option (List Node))} {node : Node}
    (h : compositeOf frame children = .ok node) :
    ∃ nodes, children = some (some nodes) ∧ node = .composite frame nodes := by
  rcases children with _ | _ | nodes
  · cases h
  · cases h
  · exact ⟨nodes, rfl, (Except.ok.inj h).symm⟩

/-- A node is two levels around its parts. -/
theorem Slots.Bounded.build {room : Nat} {slots : Slots} (h : slots.Bounded room) {kind : Kind}
    {node : Node} (hnode : slots.build kind = .ok node) :
    SolidScript.Bounded (room + 2) node.levels node.allNumbers := by
  -- a call of a module need not have nodes in it; all other composites are made alike
  have hcomposite : ∀ frame : Frame,
      SolidScript.Bounded room frame.levels frame.params.allNumbers →
        compositeOf frame slots.children = .ok node →
          SolidScript.Bounded (room + 2) node.levels node.allNumbers := by
    intro frame hframe hok
    obtain ⟨nodes, hnodes, rfl⟩ := compositeOf_eq_ok hok
    exact (hframe.max (h.children nodes hnodes)).succ.succ
  cases kind with
  | primitive =>
      obtain ⟨shape, -, hnode⟩ := exists_of_bind_eq_ok hnode
      obtain ⟨params, hparams, hnode⟩ := exists_of_bind_eq_ok hnode
      cases hnode
      exact (h.params params (need_eq_ok hparams)).succ.succ
  | transform =>
      obtain ⟨op, -, hnode⟩ := exists_of_bind_eq_ok hnode
      obtain ⟨params, hparams, hnode⟩ := exists_of_bind_eq_ok hnode
      exact hcomposite (.transform op params) (h.params params (need_eq_ok hparams)) hnode
  | combinator =>
      obtain ⟨op, -, hnode⟩ := exists_of_bind_eq_ok hnode
      exact hcomposite (.combinator op) (bounded_zero room) hnode
  | extrusion =>
      obtain ⟨op, -, hnode⟩ := exists_of_bind_eq_ok hnode
      obtain ⟨params, hparams, hnode⟩ := exists_of_bind_eq_ok hnode
      exact hcomposite (.extrusion op params) (h.params params (need_eq_ok hparams)) hnode
  | moduleCall =>
      obtain ⟨name, -, hnode⟩ := exists_of_bind_eq_ok hnode
      obtain ⟨params, hparams, hnode⟩ := exists_of_bind_eq_ok hnode
      have hcall := h.params params (need_eq_ok hparams)
      split at hnode
      · rename_i nodes hnodes
        cases hnode
        exact (hcall.max (h.children nodes hnodes)).succ.succ
      · cases hnode
        exact hcall.succ.succ
  | reference =>
      obtain ⟨kind, -, hnode⟩ := exists_of_bind_eq_ok hnode
      obtain ⟨path, -, hnode⟩ := exists_of_bind_eq_ok hnode
      cases hnode
      exact (bounded_zero room).succ.succ
  | comment => cases hnode

/-- Whatever the nodes inside are, what a field fills in is bounded as its tree is. -/
theorem bounded_of_fieldOfJson {room : Nat} {kind : Kind} {name : String} {json : Json}
    {a : Filling} (hjson : json.Within room)
    (hchildren : ∀ nodes, childrenOfJson kind json = .ok (some nodes) →
      SolidScript.Bounded room (Node.levelsOf nodes + 1) (Node.allNumbersOf nodes))
    (h : fieldOfJson kind (name, json) = .ok (some a)) : a.Bounded room := by
  have hpart : ∀ part, fillingOfJson kind json part = .ok a → a.Bounded room := by
    intro part hfilling
    cases part with
    | shape => obtain ⟨x, -, rfl⟩ := map_eq_ok hfilling; trivial
    | transformOp => obtain ⟨x, -, rfl⟩ := map_eq_ok hfilling; trivial
    | combinatorOp => obtain ⟨x, -, rfl⟩ := map_eq_ok hfilling; trivial
    | extrusionOp => obtain ⟨x, -, rfl⟩ := map_eq_ok hfilling; trivial
    | referenceKind => obtain ⟨x, -, rfl⟩ := map_eq_ok hfilling; trivial
    | name => obtain ⟨s, -, rfl⟩ := map_eq_ok hfilling; trivial
    | path => obtain ⟨s, -, rfl⟩ := map_eq_ok hfilling; trivial
    | params =>
        obtain ⟨params, hparams, rfl⟩ := map_eq_ok hfilling
        exact Params.bounded_of_ofJson hjson hparams
    | children =>
        obtain ⟨nodes, hnodes, rfl⟩ := map_eq_ok hfilling
        cases nodes with
        | none => trivial
        | some nodes => exact hchildren nodes hnodes
  rw [fieldOfJson] at h
  split at h
  · cases h
  · rename_i part _
    obtain ⟨b, hb, hsame⟩ := map_eq_ok h
    cases hsame
    exact hpart part hb

/-! ## Nodes -/

theorem exists_reference_of_referenceOfItems {items : List Json} {node : Node}
    (h : referenceOfItems items = .ok node) : ∃ ref, node = .reference ref := by
  rcases items with _ | ⟨kind, _ | ⟨path, rest⟩⟩
  · cases h
  · obtain ⟨kind, -, h⟩ := exists_of_bind_eq_ok h
    cases h
  · obtain ⟨kind, -, h⟩ := exists_of_bind_eq_ok h
    obtain ⟨path, -, h⟩ := exists_of_bind_eq_ok h
    split at h
    · cases h
      exact ⟨⟨kind, path⟩, rfl⟩
    · cases h

mutual
theorem bounded_of_nodeOfJson {room : Nat} {json : Json} {node : Node} (hjson : json.Within room)
    (h : nodeOfJson json = .ok node) : Bounded room node.levels node.allNumbers := by
  cases json with
  | object fields =>
      obtain ⟨inner, rfl, hfields⟩ := exists_withinFields hjson
      rw [nodeOfJson] at h
      exact bounded_of_nodeOfFields hfields h
  | text s =>
      obtain ⟨kind, -, h⟩ := exists_of_bind_eq_ok h
      cases h
  | null => cases h
  | bool b => cases h
  | number amount => cases h
  | array items => cases h

theorem bounded_of_nodeOfFields {room : Nat} {fields : List (String × Json)} {node : Node}
    (hfields : WithinFields room fields) (h : nodeOfFields fields = .ok node) :
    Bounded (room + 1) node.levels node.allNumbers := by
  rcases fields with _ | ⟨⟨s, content⟩, _ | ⟨next, rest⟩⟩
  · cases h
  · rw [nodeOfFields] at h
    split at h
    · cases h
    · exact bounded_of_nodeOfContent hfields.1 h
  · cases h

theorem bounded_of_nodeOfContent {room : Nat} {kind : Kind} {json : Json} {node : Node}
    (hjson : json.Within room) (h : nodeOfContent kind json = .ok node) :
    Bounded (room + 1) node.levels node.allNumbers := by
  cases json with
  | object fields =>
      rw [nodeOfContent] at h
      split at h
      · cases h
      · obtain ⟨inner, rfl, hfields⟩ := exists_withinFields hjson
        exact bounded_of_nodeOfRecord (Slots.bounded_empty inner) hfields h
  | text s =>
      cases kind with
      | comment => cases h; exact (bounded_zero room).succ
      | primitive => cases h
      | transform => cases h
      | combinator => cases h
      | extrusion => cases h
      | moduleCall => cases h
      | reference => cases h
  | array items =>
      cases kind with
      | reference =>
          obtain ⟨inner, rfl, -⟩ := exists_withinItems hjson
          obtain ⟨ref, rfl⟩ := exists_reference_of_referenceOfItems h
          exact (bounded_zero inner).succ.succ
      | comment => cases h
      | primitive => cases h
      | transform => cases h
      | combinator => cases h
      | extrusion => cases h
      | moduleCall => cases h
  | null => cases kind <;> cases h
  | bool b => cases kind <;> cases h
  | number amount => cases kind <;> cases h

theorem bounded_of_nodeOfRecord {room : Nat} {kind : Kind} {slots : Slots}
    {fields : List (String × Json)} {node : Node} (hslots : slots.Bounded room)
    (hfields : WithinFields room fields) (h : nodeOfRecord kind slots fields = .ok node) :
    Bounded (room + 2) node.levels node.allNumbers := by
  cases fields with
  | nil =>
      rw [nodeOfRecord] at h
      exact hslots.build h
  | cons field rest =>
      obtain ⟨name, json⟩ := field
      rw [nodeOfRecord_cons] at h
      obtain ⟨a, ha, h⟩ := exists_of_bind_eq_ok h
      cases a with
      | none => exact bounded_of_nodeOfRecord hslots hfields.2 h
      | some a =>
          have hfilling := bounded_of_fieldOfJson hfields.1
            (fun nodes hnodes => bounded_of_childrenOfJson hfields.1 hnodes) ha
          exact bounded_of_nodeOfRecord (hslots.put hfilling) hfields.2 h

theorem bounded_of_childrenOfJson {room : Nat} {kind : Kind} {json : Json} {nodes : List Node}
    (hjson : json.Within room) (h : childrenOfJson kind json = .ok (some nodes)) :
    Bounded room (Node.levelsOf nodes + 1) (Node.allNumbersOf nodes) := by
  cases json with
  | array items =>
      rw [childrenOfJson] at h
      obtain ⟨all, hall, hsame⟩ := map_eq_ok h
      cases hsame
      obtain ⟨inner, rfl, hitems⟩ := exists_withinItems hjson
      exact (bounded_of_nodesOfJson hitems hall).succ
  | null => cases kind <;> cases h
  | bool b => cases h
  | number amount => cases h
  | text s => cases h
  | object fields => cases h

theorem bounded_of_nodesOfJson {room : Nat} {items : List Json} {nodes : List Node}
    (hitems : WithinItems room items) (h : nodesOfJson items = .ok nodes) :
    Bounded room (Node.levelsOf nodes) (Node.allNumbersOf nodes) := by
  cases items with
  | nil => cases h; exact bounded_zero room
  | cons json rest =>
      rw [nodesOfJson] at h
      split at h
      · cases h
      · rename_i node hnode
        split at h
        · cases h
        · rename_i more hmore
          cases h
          exact (bounded_of_nodeOfJson hitems.1 hnode).max (bounded_of_nodesOfJson hitems.2 hmore)
end

/-- The roots are bounded as the tree is; an array around them is a level of the tree alone. -/
theorem bounded_of_rootsOfJson {room : Nat} {json : Json} {roots : List Node}
    (hjson : json.Within room) (h : rootsOfJson json = .ok roots) :
    Bounded room (Node.levelsOf roots) (Node.allNumbersOf roots) := by
  have hsingle : (nodeOfJson json).map ([·]) = .ok roots →
      Bounded room (Node.levelsOf roots) (Node.allNumbersOf roots) := by
    intro hroots
    obtain ⟨node, hnode, rfl⟩ := map_eq_ok hroots
    exact (bounded_of_nodeOfJson hjson hnode).max (bounded_zero room)
  cases json with
  | array items =>
      obtain ⟨inner, rfl, hitems⟩ := exists_withinItems hjson
      exact (bounded_of_nodesOfJson hitems h).mono (Nat.le_succ inner)
  | object fields => exact hsingle h
  | null => exact hsingle h
  | bool b => exact hsingle h
  | number amount => exact hsingle h
  | text s => exact hsingle h

end Saved

/-! ## Imported trees -/

/-- No imported number is infinite or no number, and no imported tree has more levels than a reader
goes down. -/
theorem Node.bounded_of_importAll {text : String} {roots : List Node}
    (h : Node.importAll text = .ok roots) :
    Bounded depthLimit (Node.levelsOf roots) (Node.allNumbersOf roots) := by
  unfold Node.importAll at h
  split at h
  · cases h
  · rename_i json hjson
    exact Saved.bounded_of_rootsOfJson (within_of_read? hjson) (ofMismatch_eq_ok h)

/-- Where the roots stand in an array, that is a level as well. -/
theorem Node.bounded_of_importAll_array {text : String} {items : List Json} {roots : List Node}
    (htop : read? text = some (.array items)) (h : Node.importAll text = .ok roots) :
    Bounded depthLimit (Node.levelsOf roots + 1) (Node.allNumbersOf roots) := by
  obtain ⟨inner, hroom, hitems⟩ := exists_withinItems (within_of_read? htop)
  have hroots : Saved.nodesOfJson items = .ok roots := by
    rw [Node.importAll, htop] at h
    exact ofMismatch_eq_ok h
  rw [hroom]
  exact (Saved.bounded_of_nodesOfJson hitems hroots).succ

/-! ## The order of parameters -/

mutual
theorem Node.allParams_sorted (node : Node) :
    node.sorted.allParams = node.allParams.map Params.sorted := by
  cases node with
  | primitive shape params => rfl
  | call name params => rfl
  | composite frame children =>
      have hframe : frame.sorted.params = frame.params.sorted := by cases frame <;> rfl
      rw [Node.sorted, Node.allParams, Node.allParams, List.map_cons, hframe,
        Node.allParamsAll_sortedAll children]
  | reference ref => rfl
  | comment text => rfl

theorem Node.allParamsAll_sortedAll (nodes : List Node) :
    Node.allParamsAll (Node.sortedAll nodes) = (Node.allParamsAll nodes).map Params.sorted := by
  cases nodes with
  | nil => rfl
  | cons node rest =>
      rw [Node.sortedAll, Node.allParamsAll, Node.allParamsAll, List.map_append,
        node.allParams_sorted, Node.allParamsAll_sortedAll rest]
end

theorem Params.inNameOrder_sorted (params : Params) : params.sorted.InNameOrder := by
  rw [← Params.sorted_eq_self_iff]
  exact Params.ext (List.Pairwise.insertionSort_eq (List.pairwise_insertionSort byName _))

theorem Node.inNameOrder_of_importAll {text : String} {roots : List Node}
    (h : Node.importAll text = .ok roots) :
    ∀ params ∈ Node.allParamsAll roots, params.InNameOrder := by
  have hsorted := Node.toOption_importAll text
  rw [toOption_eq_some_iff.mpr h] at hsorted
  obtain ⟨inOrder, -, rfl⟩ := Option.map_eq_some_iff.mp hsorted.symm
  rw [Node.allParamsAll_sortedAll]
  exact List.forall_mem_map.mpr fun params _ => params.inNameOrder_sorted

end SolidScript
