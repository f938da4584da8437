import SolidScript.Proofs.Json.Spelled
import SolidScript.Proofs.Saved.Imported

/-!
# Loading what was saved

Trees that are saved can be imported again as long as they are not too deep, and what comes back are
the same trees with every number replaced by what is read from its text and the parameters sorted by
name (`Node.importAll_saveAll`).  Of trees that were imported themselves the depth and the order are
known, so nothing but numbers can change (`Node.importAll_saveAll_of_importAll`).

Numbers do change: a number is read from its text with up to two roundings, and there are numbers
whose own text leads to a neighbour.
-/

namespace SolidScript

namespace Json

/-! ## Drafts with meaning -/

mutual
/-- Is the draft JSON to its end, with a meaning for every number and every string in it? -/
def Draft.isMeaningful : Draft → Bool
  | .broken => false
  | .number amount => amount.isSome
  | .text s => s.isSome
  | .array items => items.isMeaningful
  | .object fields => fields.isMeaningful
  | _ => true

def Items.isMeaningful : Items → Bool
  | .ended => true
  | .broken => false
  | .item value rest => value.isMeaningful && rest.isMeaningful

def Fields.isMeaningful : Fields → Bool
  | .ended => true
  | .broken => false
  | .field name value rest => name.isSome && (value.isMeaningful && rest.isMeaningful)
end

mutual
/-- A draft is read as a tree where it has a meaning and is not too deep. -/
theorem isSome_ofDraft? (room : Nat) (d : Draft) :
    (ofDraft? room d).isSome = true ↔ d.isMeaningful = true ∧ d.nesting ≤ room := by
  cases d with
  | broken => simp [ofDraft?, Draft.isMeaningful]
  | null => simp [ofDraft?, Draft.isMeaningful, Draft.nesting]
  | bool b => simp [ofDraft?, Draft.isMeaningful, Draft.nesting]
  | number amount => simp [ofDraft?, Draft.isMeaningful, Draft.nesting]
  | text s => simp [ofDraft?, Draft.isMeaningful, Draft.nesting]
  | array items =>
      cases room with
      | zero => simp [ofDraft?, Draft.nesting]
      | succ inner =>
          rw [ofDraft?, Option.isSome_map, isSome_ofItems? inner items, Draft.isMeaningful,
            Draft.nesting, Nat.succ_le_succ_iff]
  | object fields =>
      cases room with
      | zero => simp [ofDraft?, Draft.nesting]
      | succ inner =>
          rw [ofDraft?, Option.isSome_map, isSome_ofFields? inner [] fields, Draft.isMeaningful,
            Draft.nesting, Nat.succ_le_succ_iff]

theorem isSome_ofItems? (room : Nat) (items : Items) :
    (ofItems? room items).isSome = true ↔ items.isMeaningful = true ∧ items.nesting ≤ room := by
  cases items with
  | ended => simp [ofItems?, Items.isMeaningful, Items.nesting]
  | broken => simp [ofItems?, Items.isMeaningful]
  | item value rest =>
      have hvalue := isSome_ofDraft? room value
      have hrest := isSome_ofItems? room rest
      rw [Items.isMeaningful, Items.nesting, Bool.and_eq_true, max_le_iff, and_and_and_comm,
        ← hvalue, ← hrest, ofItems?]
      cases ofDraft? room value <;> simp

/-- What was read before does not matter. -/
theorem isSome_ofFields? (room : Nat) (sofar : List (String × Json)) (fields : Fields) :
    (ofFields? room sofar fields).isSome = true ↔
      fields.isMeaningful = true ∧ fields.nesting ≤ room := by
  cases fields with
  | ended => simp [ofFields?, Fields.isMeaningful, Fields.nesting]
  | broken => simp [ofFields?, Fields.isMeaningful]
  | field name value rest =>
      have hvalue := isSome_ofDraft? room value
      rw [Fields.isMeaningful, Fields.nesting, Bool.and_eq_true, Bool.and_eq_true, max_le_iff,
        and_assoc, and_and_and_comm, ← hvalue]
      cases name with
      | none => simp [ofFields?]
      | some s =>
          cases hjson : ofDraft? room value with
          | none => simp [ofFields?, hjson]
          | some json =>
              have hrest := isSome_ofFields? room (insertField s json sofar) rest
              simpa [ofFields?, hjson] using hrest
end

@[simp] theorem isMeaningful_null : null.draft.isMeaningful = true := rfl

@[simp] theorem isMeaningful_text (s : String) : (text s).draft.isMeaningful = true := rfl

/-- A written tree is read where all its numbers have a meaning and it is not too deep. -/
theorem isSome_read?_write (json : Json) :
    (read? json.write).isSome = true ↔
      json.draft.isMeaningful = true ∧ json.draft.nesting ≤ depthLimit := by
  rw [read?, ofText_write]
  exact isSome_ofDraft? depthLimit json.draft

end Json

open Json

/-! ## Saved trees have a meaning -/

/-- The text of every number that has one can be read. -/
theorem Number.isRereadable_eq_true (x : Number) : x.isRereadable = true := by
  cases x with
  | nan => rfl
  | infinity negative => rfl
  | finite negative code =>
      have hread := Numeral.isSome_amount_write negative code
      rw [isRereadable, Amount.write, Option.all_some, readNumber?, Option.isSome_map]
      exact hread

theorem Number.isMeaningful_draft (x : Number) :
    (Amount.float x).draft.isMeaningful = true := by
  rcases x.draft_eq with ⟨hdraft, -, -⟩ | ⟨amount, hdraft, -, -⟩ | ⟨-, hx⟩
  · rw [hdraft]
    rfl
  · rw [hdraft]
    rfl
  · rw [x.isRereadable_eq_true] at hx
    cases hx

mutual
theorem Value.isMeaningful_toJson (v : Value) : v.toJson.draft.isMeaningful = true := by
  cases v with
  | undef => rfl
  | bool b => rfl
  | number x => exact x.isMeaningful_draft
  | text s => rfl
  | vector items => exact Value.isMeaningful_itemsToJson items

theorem Value.isMeaningful_itemsToJson (items : List Value) :
    (draftItems (Value.itemsToJson items)).isMeaningful = true := by
  cases items with
  | nil => rfl
  | cons item rest =>
      rw [Value.itemsToJson, draftItems, Items.isMeaningful, item.isMeaningful_toJson,
        Value.isMeaningful_itemsToJson rest]
      rfl
end

theorem Params.isMeaningful_toJson (params : Params) :
    params.toJson.draft.isMeaningful = true := by
  have hentries : ∀ entries : List (String × Value), (entryFields entries).isMeaningful = true := by
    intro entries
    induction entries with
    | nil => rfl
    | cons entry rest ih =>
        change (true && (entry.2.toJson.draft.isMeaningful && (entryFields rest).isMeaningful)) = _
        rw [entry.2.isMeaningful_toJson, ih]
        rfl
  exact hentries params.entries

namespace Saved

/-- A node has a meaning where its parts do. -/
@[simp] theorem isMeaningful_nodeJson (kind : Kind) (fields : List (String × Json)) :
    (nodeJson kind fields).draft.isMeaningful = (draftFields fields).isMeaningful := by
  change (true && ((draftFields fields).isMeaningful && true)) = _
  rw [Bool.true_and, Bool.and_true]

@[simp] theorem isMeaningful_draftFields_nil : (draftFields []).isMeaningful = true := rfl

@[simp] theorem isMeaningful_partField (part : Part) (json : Json)
    (rest : List (String × Json)) :
    (draftFields (partField part json :: rest)).isMeaningful =
      (json.draft.isMeaningful && (draftFields rest).isMeaningful) := rfl

/-- The parts of a node in an object are named where the nodes among them are. -/
@[simp] theorem nodeNamed_nodeJson (kind : Kind) (fields : List (String × Json)) :
    nodeNamed (nodeJson kind fields).draft = partsNamed kind (draftFields fields) := by
  change soleNamed (.field (some kind.name) (.object (draftFields fields)) .ended) = _
  rw [soleNamed, chooseNamed_kind]
  rfl

@[simp] theorem partsNamed_nil (kind : Kind) : partsNamed kind (draftFields []) = true := rfl

@[simp] theorem partsNamed_partField (kind : Kind) (part : Part) (json : Json)
    (rest : List (String × Json)) :
    partsNamed kind (draftFields (partField part json :: rest)) =
      ((kind.parts.find? (·.key == part.key) != some .children || childrenNamed json.draft) &&
        partsNamed kind (draftFields rest)) := rfl

end Saved

mutual
theorem Node.isMeaningful_toJson (node : Node) : node.toJson.draft.isMeaningful = true := by
  cases node with
  | primitive shape params => simp [Node.toJson, params.isMeaningful_toJson]
  | call name params => simp [Node.toJson, params.isMeaningful_toJson]
  | composite frame children =>
      have hchildren : (Json.array (Node.listToJson children)).draft.isMeaningful = true :=
        Node.isMeaningful_listToJson children
      cases frame <;>
        simp [Node.toJson, Saved.compositeJson, hchildren, Params.isMeaningful_toJson]
  | reference ref => rfl
  | comment text => rfl

theorem Node.isMeaningful_listToJson (nodes : List Node) :
    (draftItems (Node.listToJson nodes)).isMeaningful = true := by
  cases nodes with
  | nil => rfl
  | cons node rest =>
      rw [Node.listToJson, draftItems, Items.isMeaningful, node.isMeaningful_toJson,
        Node.isMeaningful_listToJson rest]
      rfl
end

mutual
theorem Node.nodeNamed_toJson (node : Node) : Saved.nodeNamed node.toJson.draft = true := by
  cases node with
  | primitive shape params => rfl
  | call name params => rfl
  | composite frame children =>
      have hchildren : Saved.childrenNamed (Json.array (Node.listToJson children)).draft = true :=
        Node.itemsNamed_listToJson children
      cases frame <;> simp [Node.toJson, Saved.compositeJson, hchildren, Saved.Kind.parts,
        Saved.Part.key]
  | reference ref => rfl
  | comment text => rfl

theorem Node.itemsNamed_listToJson (nodes : List Node) :
    Saved.itemsNamed (draftItems (Node.listToJson nodes)) = true := by
  cases nodes with
  | nil => rfl
  | cons node rest =>
      rw [Node.listToJson, draftItems, Saved.itemsNamed, node.nodeNamed_toJson,
        Node.itemsNamed_listToJson rest]
      rfl
end

/-! ## Importing saved trees -/

theorem Node.isSome_read?_saveAll (roots : List Node) :
    (read? (Node.saveAll roots)).isSome = true ↔ Node.levelsOf roots + 1 ≤ depthLimit := by
  have hmeaning : (Json.array (Node.listToJson roots)).draft.isMeaningful = true :=
    Node.isMeaningful_listToJson roots
  have hnesting : (Json.array (Node.listToJson roots)).draft.nesting = Node.levelsOf roots + 1 :=
    congrArg (· + 1) (Node.nesting_listToJson roots)
  rw [Node.saveAll, isSome_read?_write, hmeaning, hnesting]
  exact and_iff_right rfl

/-- Saved roots are imported unless they are too deep, with every number read from its own text and
the parameters in the order of their names. -/
theorem Node.importAll_saveAll (roots : List Node) :
    Node.importAll (Node.saveAll roots) =
      if Node.levelsOf roots + 1 ≤ depthLimit then
        .ok (Node.sortedAll (Node.mapNumbersOf Number.reread roots))
      else .error .malformed := by
  have hsome := Node.isSome_read?_saveAll roots
  by_cases hdepth : Node.levelsOf roots + 1 ≤ depthLimit
  · rw [if_pos hdepth]
    -- the direct reader gives the nodes in the order of the text, and names are no hindrance
    have hnesting : (Reading.ofText (Node.saveAll roots)).root.nesting =
        Node.levelsOf roots + 1 := by
      rw [Node.saveAll, ofText_write]
      exact congrArg (· + 1) (Node.nesting_listToJson roots)
    have hread : Node.readAll (Node.saveAll roots) =
        .ok (Node.mapNumbersOf Number.reread roots) := by
      rw [Node.readAll_saveAll, hnesting]
      exact if_pos ⟨hdepth, fun x _ => x.isRereadable_eq_true⟩
    have hnamed : Node.partsNamed (Node.saveAll roots) = true := by
      rw [Node.partsNamed, Node.saveAll, ofText_write]
      exact Node.itemsNamed_listToJson roots
    have hjson := hsome.mpr hdepth
    rw [read?_eq_readInOrder?, Option.isSome_map] at hjson
    obtain ⟨json, hjson⟩ := Option.isSome_iff_exists.mp hjson
    have hinOrder := Node.importInOrder_of_readAll hjson hread
    rw [hnamed] at hinOrder
    exact Node.importAll_of_importInOrder hinOrder
  · rw [if_neg hdepth]
    have hnone : read? (Node.saveAll roots) = none := by
      rw [← Option.not_isSome_iff_eq_none]
      exact mt hsome.mp hdepth
    rw [Node.importAll, hnone]

/-! ## Trees with other numbers -/

section MapNumbers

variable {f : Number → Value}

mutual
/-- Values that are no vectors leave the levels as they are in place of numbers. -/
theorem Value.levels_mapNumbers (hf : ∀ x, (f x).levels = 0) (v : Value) :
    (v.mapNumbers f).levels = v.levels := by
  cases v with
  | undef => rfl
  | bool b => rfl
  | number x => exact hf x
  | text s => rfl
  | vector items => exact congrArg (· + 1) (Value.levelsOf_mapNumbersOf hf items)

theorem Value.levelsOf_mapNumbersOf (hf : ∀ x, (f x).levels = 0) (items : List Value) :
    Value.levelsOf (Value.mapNumbersOf f items) = Value.levelsOf items := by
  cases items with
  | nil => rfl
  | cons item rest =>
      exact congrArg₂ max (item.levels_mapNumbers hf) (Value.levelsOf_mapNumbersOf hf rest)
end

theorem Params.levels_mapNumbers (hf : ∀ x, (f x).levels = 0) (params : Params) :
    (params.mapNumbers f).levels = params.levels := by
  have hentries : ∀ entries : List (String × Value),
      Value.levelsOf ((entries.map (Prod.map id (Value.mapNumbers f))).map Prod.snd) =
        Value.levelsOf (entries.map Prod.snd) := by
    intro entries
    induction entries with
    | nil => rfl
    | cons entry rest ih => exact congrArg₂ max (entry.2.levels_mapNumbers hf) ih
  exact congrArg (· + 1) (hentries params.entries)

theorem Frame.levels_mapNumbers (hf : ∀ x, (f x).levels = 0) (frame : Frame) :
    (frame.mapNumbers f).levels = frame.levels := by
  cases frame with
  | transform op params => exact params.levels_mapNumbers hf
  | combinator op => rfl
  | extrusion op params => exact params.levels_mapNumbers hf
  | moduleCall name params => exact params.levels_mapNumbers hf

mutual
theorem Node.levels_mapNumbers (hf : ∀ x, (f x).levels = 0) (node : Node) :
    (node.mapNumbers f).levels = node.levels := by
  cases node with
  | primitive shape params => exact congrArg (· + 2) (params.levels_mapNumbers hf)
  | call name params => exact congrArg (· + 2) (params.levels_mapNumbers hf)
  | composite frame children =>
      rw [Node.mapNumbers, Node.levels, Node.levels, frame.levels_mapNumbers hf,
        Node.levelsOf_mapNumbersOf hf children]
  | reference ref => rfl
  | comment text => rfl

theorem Node.levelsOf_mapNumbersOf (hf : ∀ x, (f x).levels = 0) (nodes : List Node) :
    Node.levelsOf (Node.mapNumbersOf f nodes) = Node.levelsOf nodes := by
  cases nodes with
  | nil => rfl
  | cons node rest =>
      exact congrArg₂ max (node.levels_mapNumbers hf) (Node.levelsOf_mapNumbersOf hf rest)
end

theorem Params.names_mapNumbers (params : Params) :
    (params.mapNumbers f).entries.map Prod.fst = params.entries.map Prod.fst := by
  rw [Params.mapNumbers, List.map_map]
  rfl

mutual
theorem Node.allParams_mapNumbers (node : Node) :
    (node.mapNumbers f).allParams = node.allParams.map (Params.mapNumbers f) := by
  cases node with
  | primitive shape params => rfl
  | call name params => rfl
  | composite frame children =>
      have hframe : (frame.mapNumbers f).params = frame.params.mapNumbers f := by
        cases frame <;> rfl
      rw [Node.mapNumbers, Node.allParams, Node.allParams, List.map_cons, hframe,
        Node.allParamsAll_mapNumbersOf children]
  | reference ref => rfl
  | comment text => rfl

theorem Node.allParamsAll_mapNumbersOf (nodes : List Node) :
    Node.allParamsAll (Node.mapNumbersOf f nodes) =
      (Node.allParamsAll nodes).map (Params.mapNumbers f) := by
  cases nodes with
  | nil => rfl
  | cons node rest =>
      rw [Node.mapNumbersOf, Node.allParamsAll, Node.allParamsAll, List.map_append,
        node.allParams_mapNumbers, Node.allParamsAll_mapNumbersOf rest]
end

/-! A tree with other numbers is the same tree only where each number stands for itself. -/

mutual
theorem Value.mapNumbers_eq_self_iff (v : Value) :
    v.mapNumbers f = v ↔ ∀ x ∈ v.allNumbers, f x = .number x := by
  cases v with
  | undef => simp [Value.mapNumbers, Value.allNumbers]
  | bool b => simp [Value.mapNumbers, Value.allNumbers]
  | number x => simp [Value.mapNumbers, Value.allNumbers]
  | text s => simp [Value.mapNumbers, Value.allNumbers]
  | vector items =>
      rw [Value.mapNumbers, Value.allNumbers, Value.vector.injEq]
      exact Value.mapNumbersOf_eq_self_iff items

theorem Value.mapNumbersOf_eq_self_iff (items : List Value) :
    Value.mapNumbersOf f items = items ↔ ∀ x ∈ Value.allNumbersOf items, f x = .number x := by
  cases items with
  | nil => simp [Value.mapNumbersOf, Value.allNumbersOf]
  | cons item rest =>
      rw [Value.mapNumbersOf, Value.allNumbersOf, List.cons.injEq, List.forall_mem_append,
        item.mapNumbers_eq_self_iff, Value.mapNumbersOf_eq_self_iff rest]
end

theorem Params.mapNumbers_eq_self_iff (params : Params) :
    params.mapNumbers f = params ↔ ∀ x ∈ params.allNumbers, f x = .number x := by
  have hentries : ∀ entries : List (String × Value),
      entries.map (Prod.map id (Value.mapNumbers f)) = entries ↔
        ∀ x ∈ entryNumbers entries, f x = .number x := by
    intro entries
    induction entries with
    | nil => simp [entryNumbers]
    | cons entry rest ih =>
        obtain ⟨name, value⟩ := entry
        have hnumbers : entryNumbers ((name, value) :: rest) =
            value.allNumbers ++ entryNumbers rest := rfl
        rw [List.map_cons, List.cons.injEq, ih, hnumbers, List.forall_mem_append,
          ← value.mapNumbers_eq_self_iff]
        simp
  rw [Params.ext_iff]
  exact hentries params.entries

theorem Frame.mapNumbers_eq_self_iff (frame : Frame) :
    frame.mapNumbers f = frame ↔ ∀ x ∈ frame.params.allNumbers, f x = .number x := by
  cases frame with
  | transform op p => simpa [Frame.mapNumbers, Frame.params] using p.mapNumbers_eq_self_iff
  | combinator op => exact ⟨fun _ _ hx => absurd hx List.not_mem_nil, fun _ => rfl⟩
  | extrusion op p => simpa [Frame.mapNumbers, Frame.params] using p.mapNumbers_eq_self_iff
  | moduleCall name p => simpa [Frame.mapNumbers, Frame.params] using p.mapNumbers_eq_self_iff

mutual
theorem Node.mapNumbers_eq_self_iff (node : Node) :
    node.mapNumbers f = node ↔ ∀ x ∈ node.allNumbers, f x = .number x := by
  cases node with
  | primitive shape params =>
      simpa [Node.mapNumbers, Node.allNumbers] using params.mapNumbers_eq_self_iff
  | call name params =>
      simpa [Node.mapNumbers, Node.allNumbers] using params.mapNumbers_eq_self_iff
  | composite frame children =>
      rw [Node.mapNumbers, Node.allNumbers, Node.composite.injEq, List.forall_mem_append,
        frame.mapNumbers_eq_self_iff, Node.mapNumbersOf_eq_self_iff children]
  | reference ref => simp [Node.mapNumbers, Node.allNumbers]
  | comment text => simp [Node.mapNumbers, Node.allNumbers]

theorem Node.mapNumbersOf_eq_self_iff (nodes : List Node) :
    Node.mapNumbersOf f nodes = nodes ↔ ∀ x ∈ Node.allNumbersOf nodes, f x = .number x := by
  cases nodes with
  | nil => simp [Node.mapNumbersOf, Node.allNumbersOf]
  | cons node rest =>
      rw [Node.mapNumbersOf, Node.allNumbersOf, List.cons.injEq, List.forall_mem_append,
        node.mapNumbers_eq_self_iff, Node.mapNumbersOf_eq_self_iff rest]
end

end MapNumbers

/-! ## Saving and importing again and again -/

theorem Number.levels_reread (x : Number) : x.reread.levels = 0 := by
  rcases x.draft_eq with ⟨-, -, hreread⟩ | ⟨amount, -, -, hreread⟩ | ⟨-, hx⟩
  · rw [hreread]
    rfl
  · rw [hreread]
    rfl
  · rw [x.isRereadable_eq_true] at hx
    cases hx

/-- The text of a finite number is read as a finite number. -/
theorem Number.exists_reread_eq {x : Number} (hx : x.isFinite = true) :
    ∃ y : Number, y.isFinite = true ∧ x.reread = .number y := by
  cases x with
  | nan => cases hx
  | infinity negative => cases hx
  | finite negative code =>
      have hsome := Numeral.isSome_amount_write negative code
      obtain ⟨amount, hamount⟩ := Option.isSome_iff_exists.mp hsome
      refine ⟨amount.toNumber, Numeral.isFinite_of_amount_ofChars hamount, ?_⟩
      rw [reread, Amount.write, Option.bind_some, readNumber?, hamount]
      rfl

/-- The roots can be imported from an array, with their parameters in the order they have. -/
structure Node.Settled (roots : List Node) : Prop where
  levels : Node.levelsOf roots + 1 ≤ depthLimit
  order : ∀ params ∈ Node.allParamsAll roots, params.InNameOrder

theorem Node.settled_of_importAll {text : String} {items : List Json} {roots : List Node}
    (htop : read? text = some (.array items)) (h : Node.importAll text = .ok roots) :
    Node.Settled roots :=
  ⟨(Node.bounded_of_importAll_array htop h).1, Node.inNameOrder_of_importAll h⟩

theorem Node.Settled.mapNumbersOf {roots : List Node} (h : Node.Settled roots)
    {f : Number → Value} (hf : ∀ x, (f x).levels = 0) :
    Node.Settled (Node.mapNumbersOf f roots) where
  levels := by
    rw [Node.levelsOf_mapNumbersOf hf]
    exact h.levels
  order := by
    rw [Node.allParamsAll_mapNumbersOf]
    refine List.forall_mem_map.mpr fun params hparams => ?_
    rw [Params.InNameOrder, params.names_mapNumbers]
    exact h.order params hparams

/-- Settled roots come back with all their numbers read from their texts. -/
theorem Node.Settled.importAll_saveAll {roots : List Node} (h : Node.Settled roots) :
    Node.importAll (Node.saveAll roots) = .ok (Node.mapNumbersOf Number.reread roots) := by
  have hmapped := h.mapNumbersOf Number.levels_reread
  rw [Node.importAll_saveAll, if_pos h.levels,
    (Node.sortedAll_eq_self_iff _).mpr hmapped.order]

/-- The roots after saving and importing them so many times. -/
def Node.reloaded : Nat → List Node → Json.ReadResult (List Node)
  | 0, roots => .ok roots
  | n + 1, roots => Node.importAll (Node.saveAll roots) >>= Node.reloaded n

theorem Node.Settled.reloaded {roots : List Node} (h : Node.Settled roots) (n : Nat) :
    Node.reloaded n roots = .ok ((Node.mapNumbersOf Number.reread)^[n] roots) := by
  induction n generalizing roots with
  | zero => rfl
  | succ n ih =>
      rw [Node.reloaded, h.importAll_saveAll, Function.iterate_succ_apply]
      exact ih (h.mapNumbersOf Number.levels_reread)

/-- Roots that were imported from an array are imported again from their own text, and nothing but
numbers changes in them: each is replaced by the finite number that is read from its text.  They
come back the same exactly where every number is read from its text as itself, and then they stay
the same however often they are saved and imported. -/
theorem Node.importAll_saveAll_of_importAll {text : String} {items : List Json}
    {roots : List Node} (htop : read? text = some (.array items))
    (h : Node.importAll text = .ok roots) :
    Node.importAll (Node.saveAll roots) = .ok (Node.mapNumbersOf Number.reread roots) ∧
      (∀ x ∈ Node.allNumbersOf roots, ∃ y : Number, y.isFinite = true ∧ x.reread = .number y) ∧
      (Node.importAll (Node.saveAll roots) = .ok roots ↔
        ∀ x ∈ Node.allNumbersOf roots, x.reread = .number x) ∧
      (∀ n, Node.reloaded n roots = .ok ((Node.mapNumbersOf Number.reread)^[n] roots)) ∧
      ((∀ x ∈ Node.allNumbersOf roots, x.reread = .number x) →
        ∀ n, Node.reloaded n roots = .ok roots) := by
  have hsettled := Node.settled_of_importAll htop h
  have hfinite := (Node.bounded_of_importAll_array htop h).2
  have hsame := Node.mapNumbersOf_eq_self_iff (f := Number.reread) roots
  refine ⟨hsettled.importAll_saveAll, fun x hx => Number.exists_reread_eq (hfinite x hx), ?_,
    hsettled.reloaded, fun hreread n => ?_⟩
  · rw [hsettled.importAll_saveAll, Except.ok.injEq]
    exact hsame
  · have hfixed : Node.mapNumbersOf Number.reread roots = roots := hsame.mpr hreread
    rw [hsettled.reloaded n, Function.iterate_fixed hfixed n]

/-- The items of an array. -/
def Json.items? : Json → Option (List Json)
  | .array items => some items
  | _ => none

theorem Json.exists_items {text : String} (h : ((read? text).bind items?).isSome = true) :
    ∃ items, read? text = some (.array items) := by
  obtain ⟨items, hitems⟩ := Option.isSome_iff_exists.mp h
  obtain ⟨json, hjson, hitems⟩ := Option.bind_eq_some_iff.mp hitems
  cases json with
  | array found => exact ⟨found, hjson⟩
  | null => cases hitems
  | bool b => cases hitems
  | number amount => cases hitems
  | text s => cases hitems
  | object fields => cases hitems

/-- An array of one cube whose numbers are halves. -/
def halvesText : String :=
  "[\x7b\"primitive\": \x7b\"shape\": \"cube\", \"params\": \x7b\"size\": [2.5, -4]\x7d\x7d\x7d]"

theorem Node.importAll_saveAll_halvesText :
    ∃ items roots, read? halvesText = some (.array items) ∧
      Node.importAll halvesText = .ok roots ∧
      Node.importAll (Node.saveAll roots) = .ok roots ∧
      ∀ n, Node.reloaded n roots = .ok roots := by
  have htop : ((read? halvesText).bind items?).isSome = true := by decide +kernel
  have hnumbers : (Node.importAll halvesText).toOption.map Node.allNumbersOf =
      some [.ofRatio false 5 2, .ofRatio true 4 1] := by decide +kernel
  have hreread : ∀ x ∈ [Number.ofRatio false 5 2, .ofRatio true 4 1],
      (Json.Amount.float x).write.bind Json.readNumber? = some x := by decide +kernel
  obtain ⟨roots, hroots, hall⟩ := Option.map_eq_some_iff.mp hnumbers
  have hok := toOption_eq_some_iff.mp hroots
  have hsame : ∀ x ∈ Node.allNumbersOf roots, x.reread = .number x := by
    intro x hx
    rw [hall] at hx
    rw [Number.reread, hreread x hx]
    rfl
  obtain ⟨items, hitems⟩ := Json.exists_items htop
  obtain ⟨-, -, hagain, -, hcycles⟩ := Node.importAll_saveAll_of_importAll hitems hok
  exact ⟨items, roots, hitems, hok, hagain.mpr hsame, hcycles hsame⟩

/-- An array of one cube with a number whose text is read as a neighbour of it. -/
def driftingText : String :=
  "[\x7b\"primitive\": \x7b\"shape\": \"cube\", " ++
    "\"params\": \x7b\"a\": 966861.1299341218\x7d\x7d\x7d]"

/-- The number of the cube that was imported is read from its own text one step higher. -/
theorem Node.importAll_saveAll_driftingText :
    ∃ items roots again, read? driftingText = some (.array items) ∧
      Node.importAll driftingText = .ok roots ∧
      Node.importAll (Node.saveAll roots) = .ok again ∧
      Node.equalAll again roots = false ∧ again ≠ roots := by
  have htop : ((read? driftingText).bind items?).isSome = true := by decide +kernel
  have hdiffers : (Node.importAll driftingText >>= fun roots =>
      (Node.importAll (Node.saveAll roots)).map fun again =>
        (Node.equalAll again roots, Node.allNumbersOf again == Node.allNumbersOf roots)) =
      .ok (false, false) := by decide +kernel
  obtain ⟨roots, hroots, hmapped⟩ := exists_of_bind_eq_ok hdiffers
  obtain ⟨again, hagain, hequal⟩ := map_eq_ok hmapped
  obtain ⟨hequal, hnumbers⟩ := Prod.mk.inj hequal
  have hne : again ≠ roots := by
    rintro rfl
    rw [beq_self_eq_true] at hnumbers
    cases hnumbers
  obtain ⟨items, hitems⟩ := Json.exists_items htop
  exact ⟨items, roots, again, hitems, hroots, hagain, hequal, hne⟩

end SolidScript
