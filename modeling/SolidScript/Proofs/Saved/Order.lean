import Mathlib.Tactic
import SolidScript.Proofs.Json.Order
import SolidScript.Proofs.Result
import SolidScript.Proofs.Tree.Parameters
import SolidScript.Saved.Import

/-!
# The order of imported parameters

The importer reads a text as a tree whose objects are sorted.  Had the tree the order of the text
(`Node.importInOrder`), each call would have its parameters in that order, a name standing where it
first appears.  What is imported is that with the parameters of every node sorted by name
(`Node.toOption_importAll`), which is the same exactly where the names come sorted already
(`Node.importAll_keeps_order_iff`).

The parts of a node are set by name, so their order does not matter (`nodeOfRecord_insertField`);
only parameters keep the order of their fields.
-/

namespace SolidScript

/-! ## Sorted nodes -/

/-- The parameters in the order of their names. -/
def Params.sorted (params : Params) : Params where
  entries := params.entries.insertionSort Json.byName
  distinct :=
    ((List.perm_insertionSort Json.byName params.entries).map Prod.fst).nodup_iff.mpr
      params.distinct

/-- The frame with its parameters sorted. -/
def Frame.sorted : Frame → Frame
  | transform op params => transform op params.sorted
  | combinator op => combinator op
  | extrusion op params => extrusion op params.sorted
  | moduleCall name params => moduleCall name params.sorted

mutual
/-- The node with the parameters sorted in it and in all nodes inside. -/
def Node.sorted : Node → Node
  | .primitive shape params => .primitive shape params.sorted
  | .call name params => .call name params.sorted
  | .composite frame children => .composite frame.sorted (Node.sortedAll children)
  | .reference ref => .reference ref
  | .comment text => .comment text

def Node.sortedAll : List Node → List Node
  | [] => []
  | node :: rest => node.sorted :: Node.sortedAll rest
end

/-- Imports the roots of a tree from a text whose objects keep their order. -/
def Node.importInOrder (text : String) : Json.ReadResult (List Node) :=
  match Json.readInOrder? text with
  | none => .error .malformed
  | some json => .ofMismatch (Saved.rootsOfJson json)

/-! ## Values and parameters -/

mutual
/-- No object is part of a value, so sorting changes nothing in it. -/
theorem Value.ofJson?_sorted (json : Json) : Value.ofJson? json.sorted = Value.ofJson? json := by
  cases json with
  | array items =>
      rw [Json.sorted, Value.ofJson?, Value.itemsOfJson?_sortedItems items, Value.ofJson?]
  | null => rfl
  | bool b => rfl
  | number amount => rfl
  | text s => rfl
  | object fields => rfl

theorem Value.itemsOfJson?_sortedItems (items : List Json) :
    Value.itemsOfJson? (Json.sortedItems items) = Value.itemsOfJson? items := by
  cases items with
  | nil => rfl
  | cons item rest =>
      rw [Json.sortedItems, Value.itemsOfJson?, Value.ofJson?_sorted item,
        Value.itemsOfJson?_sortedItems rest, Value.itemsOfJson?]
end

namespace Params

/-- The entry that a field makes. -/
def entryOf (field : String × Json) : String × Value :=
  (field.1, (Value.ofJson? field.2).getD .undef)

/-- Fields of new names become entries in their order. -/
theorem addJson_eq_ok_iff (params : Params) {q : Params} {fields : List (String × Json)}
    (h : (params.entries.map Prod.fst ++ fields.map Prod.fst).Nodup) :
    addJson params fields = .ok q ↔
      (∀ field ∈ fields, (Value.ofJson? field.2).isSome) ∧
        q.entries = params.entries ++ fields.map entryOf := by
  induction fields generalizing params with
  | nil =>
      have hsame : addJson params [] = .ok q ↔ params = q :=
        ⟨fun hq => Except.ok.inj hq, fun hq => hq ▸ rfl⟩
      rw [hsame]
      simp only [List.not_mem_nil, false_imp_iff, implies_true, true_and, List.map_nil,
        List.append_nil]
      exact ⟨fun hq => hq ▸ rfl, fun hq => Params.ext hq.symm⟩
  | cons field rest ih =>
      obtain ⟨name, json⟩ := field
      cases hvalue : Value.ofJson? json with
      | none => simp [addJson, hvalue]
      | some value =>
          rw [List.map_cons] at h
          -- no entry has the name yet, so the new one goes to the end
          have hnew : name ∉ params.entries.map Prod.fst := fun hmem =>
            List.disjoint_of_nodup_append h hmem List.mem_cons_self
          have hset : (params.set name value).entries = params.entries ++ [(name, value)] :=
            setEntry_of_notMem hnew value
          have hnames : ((params.set name value).entries.map Prod.fst ++
              rest.map Prod.fst).Nodup := by
            rw [hset, List.map_append, List.append_assoc]
            exact h
          simp only [addJson, hvalue]
          rw [ih (params.set name value) hnames, hset]
          simp [entryOf, hvalue]

/-- The fields of an object, sorted, make sorted parameters. -/
theorem map_entryOf_sortedFields {fields : List (String × Json)}
    (h : (fields.map Prod.fst).Nodup) :
    (Json.sortedFields fields).map entryOf = (fields.map entryOf).insertionSort Json.byName := by
  have hentry : ∀ field : String × Json,
      entryOf (Prod.map id Json.sorted field) = entryOf field := by
    rintro ⟨name, json⟩
    simp [entryOf, Value.ofJson?_sorted]
  rw [Json.sortedFields_eq_insertionSort h,
    List.map_insertionSort Json.byName Json.byName entryOf _ fun _ _ _ _ => Iff.rfl,
    List.map_map]
  congr 1
  exact List.map_congr_left fun field _ => hentry field

theorem ofJson_sorted {json : Json} (h : json.Distinct) :
    (ofJson json.sorted).toOption = (ofJson json).toOption.map sorted := by
  cases json with
  | object fields =>
      have hsorted : ((Json.sortedFields fields).map Prod.fst).Nodup :=
        (Json.names_sortedFields_perm h.1).nodup_iff.mpr h.1
      have hvalues : (∀ field ∈ Json.sortedFields fields, (Value.ofJson? field.2).isSome) ↔
          ∀ field ∈ fields, (Value.ofJson? field.2).isSome := by
        rw [Json.sortedFields_eq_insertionSort h.1]
        simp only [List.mem_insertionSort, List.forall_mem_map, Prod.map_snd,
          Value.ofJson?_sorted]
      ext q
      rw [Option.map_eq_some_iff]
      simp only [toOption_eq_some_iff]
      change addJson empty (Json.sortedFields fields) = .ok q ↔
        ∃ p, addJson empty fields = .ok p ∧ p.sorted = q
      rw [addJson_eq_ok_iff empty hsorted, hvalues, map_entryOf_sortedFields h.1]
      simp only [addJson_eq_ok_iff empty h.1]
      constructor
      · rintro ⟨hall, hentries⟩
        refine ⟨⟨fields.map entryOf, ?_⟩, ⟨hall, rfl⟩, Params.ext hentries.symm⟩
        rw [List.map_map]
        exact h.1
      · rintro ⟨p, ⟨hall, hentries⟩, rfl⟩
        exact ⟨hall, congrArg (List.insertionSort Json.byName) hentries⟩
  | array items => rfl
  | null => rfl
  | bool b => rfl
  | number amount => rfl
  | text s => rfl

end Params

namespace Saved

/-! ## Parts of a node -/

/-- A part that has been read. -/
inductive Filling where
  | shape (x : Shape)
  | transformOp (x : TransformOp)
  | combinatorOp (x : CombinatorOp)
  | extrusionOp (x : ExtrusionOp)
  | referenceKind (x : ReferenceKind)
  /-- A name or a path. -/
  | text (s : String)
  | params (params : Params)
  | children (nodes : Option (List Node))

/-- The part of those that share a place which stands for all of them. -/
def Part.place : Part → Part
  | .path => .name
  | part => part

namespace Filling

/-- The place that is filled. -/
def place : Filling → Part
  | shape _ => .shape
  | transformOp _ => .transformOp
  | combinatorOp _ => .combinatorOp
  | extrusionOp _ => .extrusionOp
  | referenceKind _ => .referenceKind
  | text _ => .name
  | params _ => .params
  | children _ => .children

/-- Fills the place. -/
def put : Filling → Slots → Slots
  | shape x, slots => { slots with shape := some x }
  | transformOp x, slots => { slots with transformOp := some x }
  | combinatorOp x, slots => { slots with combinatorOp := some x }
  | extrusionOp x, slots => { slots with extrusionOp := some x }
  | referenceKind x, slots => { slots with referenceKind := some x }
  | text s, slots => { slots with text := some s }
  | params p, slots => { slots with params := some p }
  | children nodes, slots => slots.withChildren nodes

theorem put_comm {a b : Filling} (h : a.place ≠ b.place) (slots : Slots) :
    a.put (b.put slots) = b.put (a.put slots) := by
  cases a <;> cases b <;> first | rfl | exact absurd rfl h

/-- The part with the parameters in it sorted. -/
def sorted : Filling → Filling
  | params p => params p.sorted
  | children nodes => children (nodes.map Node.sortedAll)
  | other => other

end Filling

/-- The parts read so far with the parameters in them sorted. -/
def Slots.sorted (slots : Slots) : Slots :=
  { slots with
    params := slots.params.map Params.sorted
    children := slots.children.map (Option.map Node.sortedAll) }

theorem Filling.put_sorted (a : Filling) (slots : Slots) :
    a.sorted.put slots.sorted = (a.put slots).sorted := by
  cases a <;> rfl

/-- The node that sorted parts make is the sorted node. -/
theorem Slots.build_sorted (slots : Slots) (kind : Kind) :
    slots.sorted.build kind = (slots.build kind).map Node.sorted := by
  obtain ⟨shape, transformOp, combinatorOp, extrusionOp, referenceKind, text, params, children⟩ :=
    slots
  -- nodes that are missing, or null, stay so
  have hcomposite : ∀ frame : Frame,
      compositeOf frame.sorted (children.map (Option.map Node.sortedAll)) =
        (compositeOf frame children).map Node.sorted := by
    intro frame
    rcases children with _ | _ | nodes <;> rfl
  cases kind with
  | primitive => cases shape <;> cases params <;> rfl
  | transform =>
      cases transformOp with
      | none => rfl
      | some op =>
          cases params with
          | none => rfl
          | some params => exact hcomposite (.transform op params)
  | combinator =>
      cases combinatorOp with
      | none => rfl
      | some op => exact hcomposite (.combinator op)
  | extrusion =>
      cases extrusionOp with
      | none => rfl
      | some op =>
          cases params with
          | none => rfl
          | some params => exact hcomposite (.extrusion op params)
  | moduleCall =>
      cases text with
      | none => rfl
      | some name =>
          cases params with
          | none => rfl
          | some params => rcases children with _ | _ | nodes <;> rfl
  | reference => cases referenceKind <;> cases text <;> rfl
  | comment => rfl

/-- What a part with the given JSON form fills in. -/
def fillingOfJson (kind : Kind) (json : Json) : Part → Except Json.Mismatch Filling
  | .shape => (optionOfJson shapeOptions json).map .shape
  | .transformOp => (optionOfJson transformOptions json).map .transformOp
  | .combinatorOp => (optionOfJson combinatorOptions json).map .combinatorOp
  | .extrusionOp => (optionOfJson extrusionOptions json).map .extrusionOp
  | .referenceKind => (optionOfJson referenceOptions json).map .referenceKind
  | .name => (stringOfJson json).map .text
  | .path => (stringOfJson json).map .text
  | .params => (Params.ofJson json).map .params
  | .children => (childrenOfJson kind json).map .children

/-- What a field fills in; an unknown one fills in nothing. -/
def fieldOfJson (kind : Kind) (field : String × Json) : Except Json.Mismatch (Option Filling) :=
  match kind.parts.find? (·.key == field.1) with
  | none => .ok none
  | some part => (fillingOfJson kind field.2 part).map some

/-- Fills in what a field has given. -/
def putField : Option Filling → Slots → Slots
  | none, slots => slots
  | some a, slots => a.put slots

/-- Reading a part and putting it in its place. -/
theorem bind_put {ε α : Type} (x : Except ε α) (f : α → Filling) (slots : Slots) :
    (x >>= fun y => .ok ((f y).put slots)) = (x.map f).map (·.put slots) := by
  cases x <;> rfl

/-- Setting a part is filling in what was read of it. -/
theorem setPart_eq (kind : Kind) (slots : Slots) (json : Json) (part : Part) :
    (if part = .children then (childrenOfJson kind json).map slots.withChildren
      else partOfJson slots json part) = (fillingOfJson kind json part).map (·.put slots) := by
  cases part with
  | shape => exact bind_put (optionOfJson shapeOptions json) .shape slots
  | transformOp => exact bind_put (optionOfJson transformOptions json) .transformOp slots
  | combinatorOp => exact bind_put (optionOfJson combinatorOptions json) .combinatorOp slots
  | extrusionOp => exact bind_put (optionOfJson extrusionOptions json) .extrusionOp slots
  | referenceKind => exact bind_put (optionOfJson referenceOptions json) .referenceKind slots
  | name => exact bind_put (stringOfJson json) .text slots
  | path => exact bind_put (stringOfJson json) .text slots
  | params => exact bind_put (Params.ofJson json) .params slots
  | children =>
      rw [if_pos rfl, fillingOfJson]
      cases childrenOfJson kind json <;> rfl

theorem nodeOfRecord_cons (kind : Kind) (slots : Slots) (field : String × Json)
    (rest : List (String × Json)) :
    nodeOfRecord kind slots (field :: rest) =
      fieldOfJson kind field >>= fun a => nodeOfRecord kind (putField a slots) rest := by
  obtain ⟨s, json⟩ := field
  rw [nodeOfRecord, fieldOfJson]
  cases kind.parts.find? (·.key == s) with
  | none => rfl
  | some part =>
      dsimp only
      rw [setPart_eq]
      cases fillingOfJson kind json part <;> rfl

/-- A part that was read is put in its place. -/
theorem place_of_fillingOfJson {kind : Kind} {json : Json} {part : Part} {a : Filling}
    (h : fillingOfJson kind json part = .ok a) : a.place = part.place := by
  have hmap : ∀ {β : Type} {x : Except Json.Mismatch β} {f : β → Filling},
      x.map f = .ok a → ∃ b, a = f b := by
    intro β x f hx
    cases x with
    | error e => cases hx
    | ok b => exact ⟨b, (Except.ok.inj hx).symm⟩
  cases part <;> (obtain ⟨b, rfl⟩ := hmap h; rfl)

/-- The parts of one kind have places of their own. -/
theorem place_injective (kind : Kind) :
    ∀ p ∈ kind.parts, ∀ q ∈ kind.parts, p.place = q.place → p = q := by
  cases kind <;> decide

/-- Fields of different names fill different places. -/
theorem putField_comm {kind : Kind} {x y : String × Json} {a b : Option Filling}
    (hne : x.1 ≠ y.1) (ha : fieldOfJson kind x = .ok a) (hb : fieldOfJson kind y = .ok b)
    (slots : Slots) : putField a (putField b slots) = putField b (putField a slots) := by
  have hfield : ∀ {z : String × Json} {c : Filling}, fieldOfJson kind z = .ok (some c) →
      ∃ part ∈ kind.parts, part.key = z.1 ∧ c.place = part.place := by
    intro z c hc
    rw [fieldOfJson] at hc
    split at hc
    · cases hc
    · rename_i part hpart
      refine ⟨part, List.mem_of_find?_eq_some hpart, by simpa using List.find?_some hpart, ?_⟩
      cases hfilling : fillingOfJson kind z.2 part with
      | error e => rw [hfilling] at hc; cases hc
      | ok d =>
          rw [hfilling] at hc
          cases hc
          exact place_of_fillingOfJson hfilling
  -- a field that fills in nothing may stand anywhere
  cases a with
  | none => rfl
  | some a =>
      cases b with
      | none => rfl
      | some b =>
          obtain ⟨p, hp, hpkey, hpplace⟩ := hfield ha
          obtain ⟨q, hq, hqkey, hqplace⟩ := hfield hb
          refine Filling.put_comm (fun hplace => hne ?_) slots
          rw [hpplace, hqplace] at hplace
          rw [← hpkey, ← hqkey, place_injective kind p hp q hq hplace]

/-- Two fields of different names may change places. -/
theorem nodeOfRecord_swap (kind : Kind) (slots : Slots) {x y : String × Json} (hne : x.1 ≠ y.1)
    (rest : List (String × Json)) :
    (nodeOfRecord kind slots (x :: y :: rest)).toOption =
      (nodeOfRecord kind slots (y :: x :: rest)).toOption := by
  simp only [nodeOfRecord_cons]
  cases ha : fieldOfJson kind x with
  | error e => cases fieldOfJson kind y <;> rfl
  | ok a =>
      cases hb : fieldOfJson kind y with
      | error e => rfl
      | ok b =>
          change (nodeOfRecord kind (putField b (putField a slots)) rest).toOption =
            (nodeOfRecord kind (putField a (putField b slots)) rest).toOption
          rw [putField_comm hne ha hb]

/-- A field may stand anywhere among fields of other names. -/
theorem nodeOfRecord_insertField (kind : Kind) (slots : Slots) {name : String}
    {fields : List (String × Json)} (h : name ∉ fields.map Prod.fst) (json : Json) :
    (nodeOfRecord kind slots (Json.insertField name json fields)).toOption =
      (nodeOfRecord kind slots ((name, json) :: fields)).toOption := by
  induction fields generalizing slots with
  | nil => rfl
  | cons field rest ih =>
      rw [List.map_cons, List.mem_cons, not_or] at h
      obtain ⟨other, kept⟩ := field
      rw [Json.insertField, if_neg h.1]
      split
      · rfl
      · rw [nodeOfRecord_swap kind slots h.1, nodeOfRecord_cons,
          nodeOfRecord_cons kind slots (other, kept), toOption_bind, toOption_bind]
        congr 1
        funext a
        exact ih (putField a slots) h.2

/-! ## Sorted trees make sorted nodes -/

theorem stringOfJson_sorted (json : Json) :
    (stringOfJson json.sorted).toOption = (stringOfJson json).toOption := by
  cases json <;> rfl

/-- Sorting keeps the number of fields, so it makes and takes no single field. -/
theorem length_sortedFields {fields : List (String × Json)}
    (h : (fields.map Prod.fst).Nodup) : (Json.sortedFields fields).length = fields.length := by
  have hlength := (Json.names_sortedFields_perm h).length_eq
  rwa [List.length_map, List.length_map] at hlength

theorem optionOfJson_of_length {α : Type} (options : List (String × α))
    {fields : List (String × Json)} (h : fields.length ≠ 1) :
    (optionOfJson options (.object fields)).toOption = none := by
  rcases fields with _ | ⟨field, _ | ⟨next, rest⟩⟩
  · rfl
  · exact absurd rfl h
  · rfl

theorem optionOfJson_sorted {α : Type} (options : List (String × α)) {json : Json}
    (h : json.Distinct) :
    (optionOfJson options json.sorted).toOption = (optionOfJson options json).toOption := by
  cases json with
  | object fields =>
      by_cases hlength : fields.length = 1
      · -- one field cannot change its place
        obtain ⟨⟨s, value⟩, rfl⟩ := List.length_eq_one_iff.mp hlength
        cases hchosen : Json.chooseNamed options s with
        | error why =>
            change (Json.chooseNamed options s >>= _).toOption =
              (Json.chooseNamed options s >>= _).toOption
            rw [hchosen]
            rfl
        | ok chosen =>
            change (Json.chooseNamed options s >>= _).toOption =
              (Json.chooseNamed options s >>= _).toOption
            rw [hchosen]
            cases value <;> rfl
      · rw [optionOfJson_of_length options hlength]
        refine optionOfJson_of_length options ?_
        rwa [length_sortedFields h.1]
  | array items => rfl
  | null => rfl
  | bool b => rfl
  | number amount => rfl
  | text s => rfl

theorem nodeOfFields_of_length {fields : List (String × Json)} (h : fields.length ≠ 1) :
    (nodeOfFields fields).toOption = none := by
  rcases fields with _ | ⟨⟨s, content⟩, _ | ⟨next, rest⟩⟩
  · rw [nodeOfFields]
    · rfl
    · exact fun _ _ h => by cases h
  · exact absurd rfl h
  · rw [nodeOfFields]
    · rfl
    · exact fun _ _ h => by cases h

theorem referenceOfItems_sorted {items : List Json} (h : Json.DistinctItems items) :
    (referenceOfItems (Json.sortedItems items)).toOption =
      (referenceOfItems items).toOption.map Node.sorted := by
  rcases items with _ | ⟨kind, _ | ⟨path, rest⟩⟩
  · rfl
  · have hkind := optionOfJson_sorted referenceOptions h.1
    change (optionOfJson referenceOptions kind.sorted >>= _).toOption =
      (optionOfJson referenceOptions kind >>= _).toOption.map _
    rw [toOption_bind, toOption_bind, hkind]
    cases (optionOfJson referenceOptions kind).toOption <;> rfl
  · have hkind := optionOfJson_sorted referenceOptions h.1
    have hpath := stringOfJson_sorted path
    change (optionOfJson referenceOptions kind.sorted >>= fun kind =>
        stringOfJson path.sorted >>= fun path => _).toOption =
      (optionOfJson referenceOptions kind >>= fun kind =>
        stringOfJson path >>= fun path => _).toOption.map _
    simp only [toOption_bind, hkind, hpath]
    cases (optionOfJson referenceOptions kind).toOption with
    | none => rfl
    | some kind =>
        cases (stringOfJson path).toOption with
        | none => rfl
        | some path => cases rest <;> rfl

/-- Whatever the sorted children are, a field with a sorted tree fills in what is sorted. -/
theorem fieldOfJson_sorted (kind : Kind) (name : String) {json : Json} (h : json.Distinct)
    (hchildren : (childrenOfJson kind json.sorted).toOption =
      (childrenOfJson kind json).toOption.map (Option.map Node.sortedAll)) :
    (fieldOfJson kind (name, json.sorted)).toOption =
      (fieldOfJson kind (name, json)).toOption.map (Option.map Filling.sorted) := by
  -- options and strings are the same in the sorted tree, and sorting changes no such part
  have hsame : ∀ {α : Type} {x y : Except Json.Mismatch α} (f : α → Filling),
      x.toOption = y.toOption → (∀ a, (f a).sorted = f a) →
        (x.map f).toOption = (y.map f).toOption.map Filling.sorted := by
    intro α x y f hxy hf
    rw [toOption_map, toOption_map, hxy, Option.map_map]
    cases y.toOption with
    | none => rfl
    | some a => exact congrArg some (hf a).symm
  have hpart : ∀ part, (fillingOfJson kind json.sorted part).toOption =
      (fillingOfJson kind json part).toOption.map Filling.sorted := by
    intro part
    cases part with
    | shape => exact hsame _ (optionOfJson_sorted shapeOptions h) fun _ => rfl
    | transformOp => exact hsame _ (optionOfJson_sorted transformOptions h) fun _ => rfl
    | combinatorOp => exact hsame _ (optionOfJson_sorted combinatorOptions h) fun _ => rfl
    | extrusionOp => exact hsame _ (optionOfJson_sorted extrusionOptions h) fun _ => rfl
    | referenceKind => exact hsame _ (optionOfJson_sorted referenceOptions h) fun _ => rfl
    | name => exact hsame _ (stringOfJson_sorted json) fun _ => rfl
    | path => exact hsame _ (stringOfJson_sorted json) fun _ => rfl
    | params =>
        rw [fillingOfJson, fillingOfJson, toOption_map, toOption_map, Params.ofJson_sorted h,
          Option.map_map, Option.map_map]
        rfl
    | children =>
        rw [fillingOfJson, fillingOfJson, toOption_map, toOption_map, hchildren,
          Option.map_map, Option.map_map]
        rfl
  rw [fieldOfJson, fieldOfJson]
  cases kind.parts.find? (·.key == name) with
  | none => rfl
  | some part =>
      dsimp only
      rw [toOption_map, toOption_map, hpart, Option.map_map, Option.map_map]
      rfl

mutual
theorem nodeOfJson_sorted (json : Json) (h : json.Distinct) :
    (nodeOfJson json.sorted).toOption = (nodeOfJson json).toOption.map Node.sorted := by
  cases json with
  | object fields =>
      rw [Json.sorted, nodeOfJson, nodeOfJson]
      exact nodeOfFields_sorted fields h.1 h.2
  | text s =>
      rw [Json.sorted, nodeOfJson]
      cases Json.chooseNamed Kind.options s <;> rfl
  | array items => rfl
  | null => rfl
  | bool b => rfl
  | number amount => rfl

theorem nodeOfFields_sorted (fields : List (String × Json)) (hnames : (fields.map Prod.fst).Nodup)
    (h : Json.DistinctFields fields) :
    (nodeOfFields (Json.sortedFields fields)).toOption =
      (nodeOfFields fields).toOption.map Node.sorted := by
  have hlength := length_sortedFields hnames
  rcases fields with _ | ⟨⟨s, content⟩, _ | ⟨next, rest⟩⟩
  · rfl
  · change (nodeOfFields [(s, content.sorted)]).toOption = _
    rw [nodeOfFields, nodeOfFields]
    cases Json.chooseNamed Kind.options s with
    | error why => rfl
    | ok kind => exact nodeOfContent_sorted kind content h.1
  · have hmany : ((s, content) :: next :: rest).length ≠ 1 := by simp
    rw [nodeOfFields_of_length hmany, nodeOfFields_of_length (hlength ▸ hmany)]
    rfl

theorem nodeOfContent_sorted (kind : Kind) (json : Json) (h : json.Distinct) :
    (nodeOfContent kind json.sorted).toOption =
      (nodeOfContent kind json).toOption.map Node.sorted := by
  cases json with
  | object fields =>
      rw [Json.sorted, nodeOfContent, nodeOfContent]
      split
      · rfl
      · exact nodeOfRecord_sorted kind {} fields h.1 h.2
  | array items =>
      rw [Json.sorted]
      cases kind with
      | reference => exact referenceOfItems_sorted h
      | comment => rfl
      | primitive => rfl
      | transform => rfl
      | combinator => rfl
      | extrusion => rfl
      | moduleCall => rfl
  | null => cases kind <;> rfl
  | bool b => cases kind <;> rfl
  | number amount => cases kind <;> rfl
  | text s => cases kind <;> rfl

/-- Sorting moves the first field behind some others, which changes nothing. -/
theorem nodeOfRecord_sorted (kind : Kind) (slots : Slots) (fields : List (String × Json))
    (hnames : (fields.map Prod.fst).Nodup) (h : Json.DistinctFields fields) :
    (nodeOfRecord kind slots.sorted (Json.sortedFields fields)).toOption =
      (nodeOfRecord kind slots fields).toOption.map Node.sorted := by
  cases fields with
  | nil =>
      rw [Json.sortedFields, nodeOfRecord, nodeOfRecord, Slots.build_sorted, toOption_map]
  | cons field rest =>
      obtain ⟨name, json⟩ := field
      rw [List.map_cons, List.nodup_cons] at hnames
      have hnew : name ∉ (Json.sortedFields rest).map Prod.fst := by
        rw [(Json.names_sortedFields_perm hnames.2).mem_iff]
        exact hnames.1
      have hfield := fieldOfJson_sorted kind name h.1 (childrenOfJson_sorted kind json h.1)
      rw [Json.sortedFields, nodeOfRecord_insertField kind _ hnew, nodeOfRecord_cons,
        nodeOfRecord_cons, toOption_bind, toOption_bind, hfield]
      cases (fieldOfJson kind (name, json)).toOption with
      | none => rfl
      | some a =>
          have hput : putField (a.map Filling.sorted) slots.sorted = (putField a slots).sorted := by
            cases a with
            | none => rfl
            | some a => exact a.put_sorted slots
          rw [Option.map_some, Option.bind_some, Option.bind_some, hput]
          exact nodeOfRecord_sorted kind (putField a slots) rest hnames.2 h.2

theorem childrenOfJson_sorted (kind : Kind) (json : Json) (h : json.Distinct) :
    (childrenOfJson kind json.sorted).toOption =
      (childrenOfJson kind json).toOption.map (Option.map Node.sortedAll) := by
  cases json with
  | array items =>
      rw [Json.sorted, childrenOfJson, childrenOfJson, toOption_map, toOption_map,
        nodesOfJson_sorted items h, Option.map_map, Option.map_map]
      rfl
  | null => cases kind <;> rfl
  | object fields => rfl
  | bool b => rfl
  | number amount => rfl
  | text s => rfl

theorem nodesOfJson_sorted (items : List Json) (h : Json.DistinctItems items) :
    (nodesOfJson (Json.sortedItems items)).toOption =
      (nodesOfJson items).toOption.map Node.sortedAll := by
  cases items with
  | nil => rfl
  | cons json rest =>
      have hcons : ∀ (x : Json) (xs : List Json), nodesOfJson (x :: xs) =
          nodeOfJson x >>= fun node => nodesOfJson xs >>= fun nodes => .ok (node :: nodes) := by
        intro x xs
        rw [nodesOfJson]
        cases nodeOfJson x with
        | error why => rfl
        | ok node => cases nodesOfJson xs <;> rfl
      rw [Json.sortedItems, hcons, hcons]
      simp only [toOption_bind, nodeOfJson_sorted json h.1, nodesOfJson_sorted rest h.2]
      cases (nodeOfJson json).toOption with
      | none => rfl
      | some node => cases (nodesOfJson rest).toOption <;> rfl
end

theorem rootsOfJson_sorted {json : Json} (h : json.Distinct) :
    (rootsOfJson json.sorted).toOption = (rootsOfJson json).toOption.map Node.sortedAll := by
  have hsingle : ((nodeOfJson json.sorted).map ([·])).toOption =
      ((nodeOfJson json).map ([·])).toOption.map Node.sortedAll := by
    rw [toOption_map, toOption_map, nodeOfJson_sorted json h, Option.map_map, Option.map_map]
    rfl
  cases json with
  | array items => exact nodesOfJson_sorted items h
  | object fields => exact hsingle
  | null => exact hsingle
  | bool b => exact hsingle
  | number amount => exact hsingle
  | text s => exact hsingle

end Saved

/-! ## Imported trees -/

theorem toOption_ofMismatch {α : Type} (x : Except Json.Mismatch α) :
    (Json.ReadResult.ofMismatch x).toOption = x.toOption := by
  cases x <;> rfl

/-- What is imported is what the text says in its order, with the parameters sorted. -/
theorem Node.toOption_importAll (text : String) :
    (Node.importAll text).toOption =
      (Node.importInOrder text).toOption.map Node.sortedAll := by
  unfold Node.importAll Node.importInOrder
  rw [Json.read?_eq_readInOrder?]
  cases hread : Json.readInOrder? text with
  | none => rfl
  | some json =>
      dsimp only [Option.map_some]
      rw [toOption_ofMismatch, toOption_ofMismatch,
        Saved.rootsOfJson_sorted (Json.distinct_of_readInOrder? hread)]

/-! ## Where the order is kept -/

mutual
/-- The parameters of a node and of the nodes inside it. -/
def Node.allParams : Node → List Params
  | .primitive _ params => [params]
  | .call _ params => [params]
  | .composite frame children => frame.params :: Node.allParamsAll children
  | .reference _ => []
  | .comment _ => []

def Node.allParamsAll : List Node → List Params
  | [] => []
  | node :: rest => node.allParams ++ Node.allParamsAll rest
end

/-- The names come in increasing order. -/
def Params.InNameOrder (params : Params) : Prop :=
  (params.entries.map Prod.fst).Pairwise (· < ·)

theorem Params.sorted_eq_self_iff (params : Params) :
    params.sorted = params ↔ params.InNameOrder := by
  rw [Params.ext_iff]
  constructor
  · intro hsame
    have hle : params.entries.Pairwise Json.byName := by
      rw [← hsame]
      exact List.pairwise_insertionSort Json.byName params.entries
    have hne : params.entries.Pairwise fun a b => a.1 ≠ b.1 := List.pairwise_map.mp params.distinct
    exact List.pairwise_map.mpr ((hle.and hne).imp fun h => lt_of_le_of_ne h.1 h.2)
  · intro horder
    exact List.Pairwise.insertionSort_eq ((List.pairwise_map.mp horder).imp le_of_lt)

theorem Frame.sorted_eq_self_iff (frame : Frame) :
    frame.sorted = frame ↔ frame.params.InNameOrder := by
  cases frame with
  | transform op p => simpa [sorted, params] using p.sorted_eq_self_iff
  | combinator op => exact ⟨fun _ => List.Pairwise.nil, fun _ => rfl⟩
  | extrusion op p => simpa [sorted, params] using p.sorted_eq_self_iff
  | moduleCall name p => simpa [sorted, params] using p.sorted_eq_self_iff

mutual
theorem Node.sorted_eq_self_iff (node : Node) :
    node.sorted = node ↔ ∀ params ∈ node.allParams, params.InNameOrder := by
  cases node with
  | primitive shape params => simpa [sorted, allParams] using params.sorted_eq_self_iff
  | call name params => simpa [sorted, allParams] using params.sorted_eq_self_iff
  | composite frame children =>
      rw [sorted, allParams, Node.composite.injEq, frame.sorted_eq_self_iff,
        Node.sortedAll_eq_self_iff children, List.forall_mem_cons]
  | reference ref => simp [sorted, allParams]
  | comment text => simp [sorted, allParams]

theorem Node.sortedAll_eq_self_iff (nodes : List Node) :
    Node.sortedAll nodes = nodes ↔ ∀ params ∈ Node.allParamsAll nodes, params.InNameOrder := by
  cases nodes with
  | nil => simp [sortedAll, allParamsAll]
  | cons node rest =>
      rw [sortedAll, allParamsAll, List.cons.injEq, node.sorted_eq_self_iff,
        Node.sortedAll_eq_self_iff rest, List.forall_mem_append]
end

/-- A text that is accepted gives what it says in its order with the parameters of every node sorted
by name; this is what it says in its order exactly where the names already come sorted. -/
theorem Node.importAll_keeps_order_iff {text : String} {roots : List Node}
    (h : Node.importAll text = .ok roots) :
    ∃ inOrder, Node.importInOrder text = .ok inOrder ∧ roots = Node.sortedAll inOrder ∧
      (roots = inOrder ↔ ∀ params ∈ Node.allParamsAll inOrder, params.InNameOrder) := by
  have hsorted := Node.toOption_importAll text
  rw [toOption_eq_some_iff.mpr h] at hsorted
  obtain ⟨inOrder, hinOrder, rfl⟩ := Option.map_eq_some_iff.mp hsorted.symm
  exact ⟨inOrder, toOption_eq_some_iff.mp hinOrder, rfl, Node.sortedAll_eq_self_iff inOrder⟩

/-- The names of the parameters of every call in some trees. -/
def Node.parameterNames (roots : List Node) : List (List String) :=
  (Node.allParamsAll roots).map fun params => params.entries.map Prod.fst

/-- A rotated cube with all names in order. -/
def orderedCube : String :=
  "[\x7b\"transform\": \x7b\"op\": \"rotate\", \"params\": \x7b\"a\": true, \"v\": null\x7d, " ++
    "\"children\": [\x7b\"primitive\": \x7b\"shape\": \"cube\", " ++
    "\"params\": \x7b\"center\": true, \"size\": [null]\x7d\x7d\x7d]\x7d\x7d]"

theorem Node.importAll_orderedCube_keeps_order :
    ∃ roots, Node.importAll orderedCube = .ok roots ∧
      Node.importInOrder orderedCube = .ok roots ∧
      Node.parameterNames roots = [["a", "v"], ["center", "size"]] := by
  have hnames : (Node.importAll orderedCube).toOption.map Node.parameterNames =
      some [["a", "v"], ["center", "size"]] := by decide +kernel
  have hnamesInOrder : (Node.importInOrder orderedCube).toOption.map Node.parameterNames =
      some [["a", "v"], ["center", "size"]] := by decide +kernel
  obtain ⟨roots, hroots, hrootNames⟩ := Option.map_eq_some_iff.mp hnames
  have hok := toOption_eq_some_iff.mp hroots
  obtain ⟨inOrder, hinOrder, -, horder⟩ := Node.importAll_keeps_order_iff hok
  rw [hinOrder] at hnamesInOrder
  have hsorted : ∀ names ∈ Node.parameterNames inOrder, names.Pairwise (· < ·) := by
    rw [Option.some.inj hnamesInOrder]
    decide
  have hkept : roots = inOrder := horder.mpr fun params hparams =>
    hsorted _ (List.mem_map_of_mem hparams)
  exact ⟨roots, hok, hkept ▸ hinOrder, hrootNames⟩

/-- A cube whose second parameter is the first in the order of names. -/
def unsortedCube : String :=
  "\x7b\"primitive\": \x7b\"shape\": \"cube\", " ++
    "\"params\": \x7b\"b\": true, \"a\": false, \"b\": null\x7d\x7d\x7d"

theorem Node.importAll_unsortedCube_sorts :
    (Node.importAll unsortedCube).toOption.map Node.parameterNames = some [["a", "b"]] ∧
      (Node.importInOrder unsortedCube).toOption.map Node.parameterNames = some [["b", "a"]] := by
  decide +kernel

end SolidScript
