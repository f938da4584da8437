import SolidScript.Proofs.Saved.Reread

/-!
# Where both readers agree

A text of nodes can be read directly, token after token, and it can be imported by way of a tree
whose objects are sorted.  What the direct reader accepts the importer accepts too, and it gives the
same nodes with the parameters of each in the order of their names, with one exception: the direct
reader takes the parts of every node from an array as well, and the importer does so for references
alone.  `rootsNamed` tells where all other nodes give their parts by name, and so it decides whether
the importer accepts what was read (`Node.importAll_of_read`).

Both readers are compared on the tree in the order of the text (`rootsOfJson_of_readNodes`).  The
one reader fills in the parts of a node as they come and the other does so from the finished tree,
in which an unknown field may have taken the place of an earlier one; `Gathered` says what holds
between them after each field.
-/

namespace SolidScript

namespace Json

/-! ## Results and fields -/

theorem ofMismatch_eq_ok {α : Type} {x : Except Mismatch α} {a : α}
    (h : ReadResult.ofMismatch x = .ok a) : x = .ok a := by
  cases x with
  | error why => cases h
  | ok b => cases h; rfl

theorem readText_eq_ok {α : Type} {decode : Draft → ReadResult α} {text : String} {a : α}
    (h : readText decode text = .ok a) :
    decode (Reading.ofText text).root = .ok a ∧ (Reading.ofText text).trailing = false := by
  unfold readText at h
  dsimp only at h
  split at h
  · cases h
  · rename_i b hb
    split at h
    · cases h
    · rename_i htrailing
      cases h
      exact ⟨hb, by simpa using htrailing⟩

theorem readInOrder?_eq {text : String} (h : (Reading.ofText text).trailing = false) :
    readInOrder? text = inOrder? depthLimit (Reading.ofText text).root := by
  rw [readInOrder?, h]
  rfl

theorem setField_of_notMem {name : String} {fields : List (String × Json)}
    (h : name ∉ fields.map Prod.fst) (json : Json) :
    setField name json fields = fields ++ [(name, json)] := by
  induction fields with
  | nil => rfl
  | cons field rest ih =>
      obtain ⟨other, kept⟩ := field
      rw [List.map_cons, List.mem_cons, not_or] at h
      rw [setField, if_neg (Ne.symm h.1), ih h.2, List.cons_append]

theorem mem_names_setField {name other : String} {json : Json} {fields : List (String × Json)}
    (h : other ∈ (setField name json fields).map Prod.fst) :
    other = name ∨ other ∈ fields.map Prod.fst := by
  rw [names_setField] at h
  split at h
  · exact Or.inr h
  · exact (List.mem_append.mp h).symm.imp_left List.mem_singleton.mp

end Json

open Json

namespace Saved

/-! ## Parts by name -/

/-- What is said of a node whose parts stand in an array. -/
def listedParts : Mismatch := .wrongType .sequence "struct variant"

mutual
/-- Does a node, and each node inside it, give its parts by name? -/
def nodeNamed : Draft → Bool
  | .object fields => soleNamed fields
  | _ => true

/-- The same of the one field of a node. -/
def soleNamed : Fields → Bool
  | .field (some s) content _ =>
    match chooseNamed Kind.options s with
    | .ok kind => contentNamed kind content
    | .error _ => true
  | _ => true

/-- The same of what a node consists of.  A reference may have its parts in an array. -/
def contentNamed (kind : Kind) : Draft → Bool
  | .array _ => kind == .reference
  | .object fields => partsNamed kind fields
  | _ => true

/-- The same of the nodes among parts that are given by name. -/
def partsNamed (kind : Kind) : Fields → Bool
  | .field (some s) d rest =>
    (kind.parts.find? (·.key == s) != some .children || childrenNamed d) && partsNamed kind rest
  | _ => true

/-- The same of the nodes inside a node. -/
def childrenNamed : Draft → Bool
  | .array items => itemsNamed items
  | _ => true

/-- The same of all nodes in an array. -/
def itemsNamed : Items → Bool
  | .item d rest => nodeNamed d && itemsNamed rest
  | _ => true
end

/-- Do the nodes of a text give their parts by name? -/
def rootsNamed : Draft → Bool
  | .array items => itemsNamed items
  | d => nodeNamed d

/-- The result where parts are given by name; elsewhere a list of parts is refused. -/
def ifNamed {α : Type} (named : Bool) (a : α) : Except Mismatch α :=
  if named then .ok a else .error listedParts

section IfNamed

variable {α β : Type} {named more : Bool} {a : α} {b : β}

@[simp] theorem ifNamed_true : ifNamed true a = .ok a := rfl

@[simp] theorem ifNamed_false : ifNamed false a = .error listedParts := rfl

theorem ifNamed_bind {f : α → Except Mismatch β} (h : f a = ifNamed more b) :
    (ifNamed named a >>= f) = ifNamed (named && more) b := by
  cases named with
  | true => exact h
  | false => rfl

theorem ifNamed_map (f : α → β) : (ifNamed named a).map f = ifNamed named (f a) := by
  cases named <;> rfl

end IfNamed

/-! ## Parts without nodes -/

theorem optionOfJson_of_readOption {α : Type} {options : List (String × α)} {room : Nat}
    {d : Draft} {json : Json} {chosen : α} (h : readOption room options d = .ok chosen)
    (hjson : inOrder? room d = some json) : optionOfJson options json = .ok chosen := by
  unfold readOption at h
  split at h
  · cases hjson
    exact ofMismatch_eq_ok h
  · split at h <;> try cases h
    rename_i inner s value rest
    cases hchosen : chooseNamed options s with
    | error why => rw [hchosen] at h; cases h
    | ok other =>
        rw [hchosen] at h
        dsimp only at h
        -- the name has a null and stands alone
        split at h
        · cases h
          cases hjson
          change (chooseNamed options s >>= _) = _
          rw [hchosen]
          rfl
        · cases h
        · exact absurd h (value.refuse_ne_ok "unit" chosen)
  · cases h

theorem stringOfJson_of_readString {room : Nat} {d : Draft} {json : Json} {s : String}
    (h : readString d = .ok s) (hjson : inOrder? room d = some json) :
    stringOfJson json = .ok s := by
  unfold readString at h
  split at h
  · cases h
    cases hjson
    rfl
  · exact absurd h (d.refuse_ne_ok _ _)

end Saved

/-! ## Parameters -/

/-- A value is read from the tree in the order of the text as well. -/
theorem Value.ofJson?_of_ofDraft {room : Nat} {d : Draft} {json : Json} {value : Value}
    (h : Value.ofDraft room d = .ok value) (hjson : inOrder? room d = some json) :
    Value.ofJson? json = some value := by
  rw [Value.ofDraft, ofDraft?_eq_inOrder?, hjson] at h
  dsimp only [Option.map_some] at h
  rw [Value.ofJson?_sorted] at h
  cases hvalue : Value.ofJson? json with
  | none => rw [hvalue] at h; cases h
  | some other => rw [hvalue] at h; cases h; rfl

namespace Params

/-- Setting a field of a tree sets the entry that it makes. -/
theorem map_entryOf_setField {name : String} {json : Json} {value : Value}
    (h : Value.ofJson? json = some value) (fields : List (String × Json)) :
    (setField name json fields).map entryOf = setEntry name value (fields.map entryOf) := by
  have hentry : entryOf (name, json) = (name, value) := by rw [entryOf, h]; rfl
  induction fields with
  | nil => exact congrArg (fun entry => [entry]) hentry
  | cons field rest ih =>
      obtain ⟨other, kept⟩ := field
      have hname : (entryOf (other, kept)).1 = other := rfl
      rw [setField, List.map_cons, setEntry, hname]
      split
      · rw [List.map_cons, hentry]
      · rw [List.map_cons, ih]

theorem forall_isSome_setField {name : String} {json : Json}
    (h : (Value.ofJson? json).isSome) {fields : List (String × Json)}
    (hfields : ∀ field ∈ fields, (Value.ofJson? field.2).isSome) :
    ∀ field ∈ setField name json fields, (Value.ofJson? field.2).isSome := by
  induction fields with
  | nil => exact List.forall_mem_singleton.mpr h
  | cons field rest ih =>
      obtain ⟨other, kept⟩ := field
      rw [List.forall_mem_cons] at hfields
      rw [setField]
      split
      · exact List.forall_mem_cons.mpr ⟨h, hfields.2⟩
      · exact List.forall_mem_cons.mpr ⟨hfields.1, ih hfields.2⟩

/-- After each field the entries are those that the fields so far make. -/
theorem entries_of_addFields {room : Nat} {params q : Params} {fields : Fields}
    {sofar list : List (String × Json)} (h : addFields room params fields = .ok q)
    (hlist : inOrderFields? room sofar fields = some list)
    (hsofar : ∀ field ∈ sofar, (Value.ofJson? field.2).isSome)
    (hentries : params.entries = sofar.map entryOf) :
    (∀ field ∈ list, (Value.ofJson? field.2).isSome) ∧ q.entries = list.map entryOf := by
  match fields with
  | .ended =>
      cases h
      cases hlist
      exact ⟨hsofar, hentries⟩
  | .broken => cases h
  | .field none d rest => cases h
  | .field (some name) d rest =>
      obtain ⟨json, hjson, hlist⟩ := inOrderFields?_field hlist
      rw [addFields] at h
      cases hvalue : Value.ofDraft room d with
      | error e => rw [hvalue] at h; cases h
      | ok value =>
          rw [hvalue] at h
          have hread := Value.ofJson?_of_ofDraft hvalue hjson
          refine entries_of_addFields h hlist
            (forall_isSome_setField (by rw [hread]; rfl) hsofar) ?_
          rw [map_entryOf_setField hread, ← hentries]
          rfl

theorem ofJson_of_ofDraft {room : Nat} {d : Draft} {json : Json} {params : Params}
    (h : ofDraft room d = .ok params) (hjson : inOrder? room d = some json) :
    ofJson json = .ok params := by
  unfold ofDraft at h
  split at h
  · rename_i fields
    obtain ⟨inner, list, rfl, hlist, rfl⟩ := inOrder?_object hjson
    have hnames : (list.map Prod.fst).Nodup := (distinct_of_inOrder? hjson).1
    have hall := entries_of_addFields h hlist (fun _ hmem => absurd hmem List.not_mem_nil) rfl
    exact (addJson_eq_ok_iff empty hnames).mpr hall
  · exact absurd h (d.refuse_ne_ok _ _)

end Params

namespace Saved

/-! ## Filling in fields -/

/-- Fills in the parts that fields give, one after the other. -/
def fillRecord (kind : Kind) (slots : Slots) : List (String × Json) → Except Mismatch Slots
  | [] => .ok slots
  | field :: rest => fieldOfJson kind field >>= fun a => fillRecord kind (putField a slots) rest

theorem nodeOfRecord_eq_fillRecord (kind : Kind) (slots : Slots) (fields : List (String × Json)) :
    nodeOfRecord kind slots fields = fillRecord kind slots fields >>= fun s => s.build kind := by
  induction fields generalizing slots with
  | nil => rw [nodeOfRecord]; rfl
  | cons field rest ih =>
      rw [nodeOfRecord_cons, fillRecord]
      cases fieldOfJson kind field with
      | error why => rfl
      | ok a => exact ih (putField a slots)

theorem fillRecord_append (kind : Kind) (slots : Slots) (xs ys : List (String × Json)) :
    fillRecord kind slots (xs ++ ys) =
      fillRecord kind slots xs >>= fun s => fillRecord kind s ys := by
  induction xs generalizing slots with
  | nil => rfl
  | cons x xs ih =>
      rw [List.cons_append, fillRecord, fillRecord]
      cases fieldOfJson kind x with
      | error why => rfl
      | ok a => exact ih (putField a slots)

/-- An unknown field fills in nothing, whether or not it takes the place of another. -/
theorem fillRecord_setField_unknown {kind : Kind} {name : String}
    (h : kind.parts.find? (·.key == name) = none) (json : Json) (slots : Slots)
    (fields : List (String × Json)) :
    fillRecord kind slots (setField name json fields) = fillRecord kind slots fields := by
  have hunknown : ∀ (slots : Slots) (value : Json) (rest : List (String × Json)),
      fillRecord kind slots ((name, value) :: rest) = fillRecord kind slots rest := by
    intro slots value rest
    rw [fillRecord, fieldOfJson, h]
    rfl
  induction fields generalizing slots with
  | nil => exact hunknown slots json []
  | cons field rest ih =>
      obtain ⟨other, kept⟩ := field
      rw [setField]
      split
      · rename_i hsame
        rw [hsame, hunknown, hunknown]
      · rw [fillRecord, fillRecord]
        congr 1
        funext a
        exact ih (putField a slots)

/-- What holds of the fields so far, the parts seen among them and what these fill in.  `named` says
whether all nodes in them give their parts by name. -/
structure Gathered (kind : Kind) (seen : List Part) (sofar : List (String × Json)) (named : Bool)
    (slots : Slots) : Prop where
  fills : fillRecord kind {} sofar = ifNamed named slots
  known : ∀ name ∈ sofar.map Prod.fst, ∀ part,
    kind.parts.find? (·.key == name) = some part → part ∈ seen

namespace Gathered

variable {kind : Kind} {seen : List Part} {sofar : List (String × Json)} {named : Bool}
  {slots : Slots} {name : String}

theorem nothing (kind : Kind) : Gathered kind [] [] true {} where
  fills := rfl
  known := fun _ h => absurd h List.not_mem_nil

theorem unknown (h : Gathered kind seen sofar named slots)
    (hname : kind.parts.find? (·.key == name) = none) (json : Json) :
    Gathered kind seen (setField name json sofar) named slots where
  fills := by rw [fillRecord_setField_unknown hname, h.fills]
  known := by
    intro other hother part hpart
    rcases mem_names_setField hother with rfl | hmem
    · rw [hname] at hpart
      cases hpart
    · exact h.known other hmem part hpart

/-- A part that has not been seen stands behind all fields so far. -/
theorem part (h : Gathered kind seen sofar named slots) {part : Part}
    (hname : kind.parts.find? (·.key == name) = some part) (hseen : part ∉ seen) {json : Json}
    {more : Bool} {a : Filling} (ha : fillingOfJson kind json part = ifNamed more a) :
    Gathered kind (part :: seen) (setField name json sofar) (named && more) (a.put slots) where
  fills := by
    have hnew : name ∉ sofar.map Prod.fst := fun hmem => hseen (h.known name hmem part hname)
    have hfield : fillRecord kind slots [(name, json)] = ifNamed more (a.put slots) := by
      rw [fillRecord, fieldOfJson, hname]
      dsimp only
      rw [ha]
      cases more <;> rfl
    rw [setField_of_notMem hnew, fillRecord_append, h.fills]
    exact ifNamed_bind hfield
  known := by
    intro other hother found hfound
    rcases mem_names_setField hother with rfl | hmem
    · rw [hname] at hfound
      cases hfound
      exact List.mem_cons_self
    · exact List.mem_cons_of_mem part (h.known other hmem found hfound)

theorem build (h : Gathered kind seen sofar named slots) {node : Node}
    (hnode : slots.build kind = .ok node) : nodeOfRecord kind {} sofar = ifNamed named node := by
  have hbuild : slots.build kind = ifNamed true node := hnode
  rw [nodeOfRecord_eq_fillRecord, h.fills]
  exact (ifNamed_bind (f := fun s : Slots => s.build kind) hbuild).trans
    (congrArg (ifNamed · node) (Bool.and_true named))

end Gathered

/-! ## Nodes -/

/-- Whatever the nodes inside are, a part is read from the tree as it is from the text. -/
theorem fillingOfJson_of_fillingOfDraft {room : Nat} {kind : Kind} {d : Draft} {json : Json}
    {part : Part} {a : Filling} (h : fillingOfDraft room kind d part = .ok a)
    (hjson : inOrder? room d = some json)
    (hchildren : ∀ nodes, readChildren room kind d = .ok nodes →
      childrenOfJson kind json = ifNamed (childrenNamed d) nodes) :
    fillingOfJson kind json part = ifNamed (part != .children || childrenNamed d) a := by
  cases part <;> obtain ⟨x, hx, rfl⟩ := map_eq_ok h
  case children =>
    rw [fillingOfJson, hchildren x hx]
    exact ifNamed_map Filling.children
  case params => rw [fillingOfJson, Params.ofJson_of_ofDraft hx hjson]; rfl
  case name => rw [fillingOfJson, stringOfJson_of_readString hx hjson]; rfl
  case path => rw [fillingOfJson, stringOfJson_of_readString hx hjson]; rfl
  all_goals rw [fillingOfJson, optionOfJson_of_readOption hx hjson]; rfl

theorem readParts_item (room : Nat) (kind : Kind) (part : Part) (left : List Part) (slots : Slots)
    (d : Draft) (rest : Items) :
    readParts room kind (part :: left) slots (.item d rest) =
      fillingOfDraft room kind d part >>= fun a => readParts room kind left (a.put slots) rest := by
  rw [readParts, readPart_eq]
  cases fillingOfDraft room kind d part <;> rfl

/-- A reference has no nodes in it, so its parts may stand in an array for both readers. -/
theorem referenceOfItems_of_readParts {room : Nat} {items : Items} {list : List Json} {node : Node}
    (h : readParts room .reference Kind.reference.parts {} items = .ok node)
    (hlist : inOrderItems? room items = some list) : referenceOfItems list = .ok node := by
  match items with
  | .ended => cases h
  | .broken => cases h
  | .item d .ended =>
      rw [Kind.parts, readParts_item] at h
      obtain ⟨a, -, h⟩ := exists_of_bind_eq_ok h
      cases h
  | .item d .broken =>
      rw [Kind.parts, readParts_item] at h
      obtain ⟨a, -, h⟩ := exists_of_bind_eq_ok h
      cases h
  | .item d (.item e rest) =>
      obtain ⟨kind, others, rfl, hkindJson, hothers⟩ := inOrderItems?_item hlist
      obtain ⟨path, more, rfl, hpathJson, hmore⟩ := inOrderItems?_item hothers
      rw [Kind.parts, readParts_item] at h
      obtain ⟨a, ha, h⟩ := exists_of_bind_eq_ok h
      rw [readParts_item] at h
      obtain ⟨b, hb, h⟩ := exists_of_bind_eq_ok h
      obtain ⟨x, hx, rfl⟩ := map_eq_ok ha
      obtain ⟨s, hs, rfl⟩ := map_eq_ok hb
      -- nothing may stand behind the path
      cases rest with
      | ended =>
          cases hmore
          cases h
          change (optionOfJson referenceOptions kind >>= fun kind =>
            stringOfJson path >>= fun path => Except.ok (Node.reference ⟨kind, path⟩)) = _
          rw [optionOfJson_of_readOption hx hkindJson, stringOfJson_of_readString hs hpathJson]
          rfl
      | broken => cases h
      | item next after => cases h

mutual
/-- A node that the direct reader accepts is imported from its tree in the order of the text, unless
some node in it gives its parts in an array. -/
theorem nodeOfJson_of_readNode {room : Nat} {d : Draft} {json : Json} {node : Node}
    (h : readNode room d = .ok node) (hjson : inOrder? room d = some json) :
    nodeOfJson json = ifNamed (nodeNamed d) node := by
  cases d with
  | object fields =>
      obtain ⟨inner, list, rfl, hlist, rfl⟩ := inOrder?_object hjson
      rw [nodeOfJson, nodeNamed]
      exact nodeOfFields_of_readNodeFields h hlist
  | text s =>
      cases s with
      | none => cases h
      | some s =>
          rw [readNode] at h
          split at h <;> cases h
  | broken => cases h
  | null => cases h
  | bool b => cases h
  | number amount => cases h
  | array items => cases h

theorem nodeOfFields_of_readNodeFields {room : Nat} {fields : Fields}
    {list : List (String × Json)} {node : Node} (h : readNodeFields room fields = .ok node)
    (hlist : inOrderFields? room [] fields = some list) :
    nodeOfFields list = ifNamed (soleNamed fields) node := by
  match fields with
  | .ended => cases h
  | .broken => cases h
  | .field none content rest => cases h
  | .field (some s) content rest =>
      obtain ⟨json, hjson, hlist⟩ := inOrderFields?_field hlist
      rw [readNodeFields] at h
      rw [soleNamed]
      cases hkind : chooseNamed Kind.options s with
      | error why => rw [hkind] at h; cases h
      | ok kind =>
          rw [hkind] at h
          dsimp only at h ⊢
          cases hcontent : readContent room kind content with
          | error e => rw [hcontent] at h; cases h
          | ok other =>
              rw [hcontent] at h
              -- nothing may stand behind the one field
              cases rest with
              | ended =>
                  cases h
                  cases hlist
                  change nodeOfFields [(s, json)] = _
                  rw [nodeOfFields, hkind]
                  exact nodeOfContent_of_readContent hcontent hjson
              | broken => cases h
              | field name d after => cases h

theorem nodeOfContent_of_readContent {room : Nat} {kind : Kind} {d : Draft} {json : Json}
    {node : Node} (h : readContent room kind d = .ok node) (hjson : inOrder? room d = some json) :
    nodeOfContent kind json = ifNamed (contentNamed kind d) node := by
  cases d with
  | object fields =>
      simp only [readContent] at h
      split at h
      · cases h
      · rename_i hkind
        obtain ⟨inner, list, rfl, hlist, rfl⟩ := inOrder?_object hjson
        rw [nodeOfContent, if_neg hkind, contentNamed]
        exact nodeOfRecord_of_readRecord (Gathered.nothing kind) h hlist
  | array items =>
      simp only [readContent] at h
      split at h
      · cases h
      · rename_i hkind
        obtain ⟨inner, list, rfl, hlist, rfl⟩ := inOrder?_array hjson
        cases kind with
        | reference => exact referenceOfItems_of_readParts h hlist
        | comment => exact absurd rfl hkind
        | primitive => rfl
        | transform => rfl
        | combinator => rfl
        | extrusion => rfl
        | moduleCall => rfl
  | text s =>
      cases s with
      | none => cases h
      | some s =>
          rw [readContent] at h
          split at h
          · rename_i hkind
            cases h
            cases hjson
            subst hkind
            rfl
          · cases h
  | broken => cases h
  | null => cases h
  | bool b => cases h
  | number amount => cases amount <;> cases h

/-- Each field is gathered as it comes. -/
theorem nodeOfRecord_of_readRecord {room : Nat} {kind : Kind} {seen : List Part} {slots : Slots}
    {fields : Fields} {sofar list : List (String × Json)} {named : Bool} {node : Node}
    (hgathered : Gathered kind seen sofar named slots)
    (h : readRecord room kind seen slots fields = .ok node)
    (hlist : inOrderFields? room sofar fields = some list) :
    nodeOfRecord kind {} list = ifNamed (named && partsNamed kind fields) node := by
  match fields with
  | .ended =>
      cases hlist
      rw [partsNamed, Bool.and_true]
      · exact hgathered.build (ofMismatch_eq_ok h)
      · exact fun _ _ _ h => by cases h
  | .broken => cases h
  | .field none d rest => cases h
  | .field (some s) d rest =>
      obtain ⟨json, hjson, hlist⟩ := inOrderFields?_field hlist
      rw [readRecord] at h
      rw [partsNamed]
      cases hpart : kind.parts.find? (·.key == s) with
      | none =>
          -- an unknown field is passed over if its value can be read at all
          rw [hpart] at h
          dsimp only at h
          split at h
          · exact nodeOfRecord_of_readRecord (hgathered.unknown hpart json) h hlist
          · cases h
      | some part =>
          rw [hpart] at h
          dsimp only at h
          split at h
          · cases h
          · rename_i hseen
            rw [readPart_eq] at h
            cases ha : fillingOfDraft room kind d part with
            | error e => rw [ha] at h; cases h
            | ok a =>
                rw [ha] at h
                have hfilling := fillingOfJson_of_fillingOfDraft ha hjson fun nodes hnodes =>
                  childrenOfJson_of_readChildren hnodes hjson
                have hmore := hgathered.part hpart (by simpa using hseen) hfilling
                have hrest := nodeOfRecord_of_readRecord hmore h hlist
                rw [hrest, Bool.and_assoc]
                rfl

theorem childrenOfJson_of_readChildren {room : Nat} {kind : Kind} {d : Draft} {json : Json}
    {nodes : Option (List Node)} (h : readChildren room kind d = .ok nodes)
    (hjson : inOrder? room d = some json) :
    childrenOfJson kind json = ifNamed (childrenNamed d) nodes := by
  cases d with
  | array items =>
      obtain ⟨inner, list, rfl, hlist, rfl⟩ := inOrder?_array hjson
      obtain ⟨all, hall, rfl⟩ := map_eq_ok h
      rw [childrenOfJson, nodesOfJson_of_readItems hall hlist, childrenNamed]
      exact ifNamed_map some
  | null =>
      rw [readChildren] at h
      split at h
      · rename_i hkind
        cases h
        cases hjson
        rw [childrenOfJson, if_pos hkind]
        rfl
      · cases h
  | broken => cases h
  | bool b => cases h
  | number amount => cases amount <;> cases h
  | text s => cases s <;> cases h
  | object fields => cases h

theorem nodesOfJson_of_readItems {room : Nat} {items : Items} {list : List Json}
    {nodes : List Node} (h : readItems room items = .ok nodes)
    (hlist : inOrderItems? room items = some list) :
    nodesOfJson list = ifNamed (itemsNamed items) nodes := by
  cases items with
  | ended => cases h; cases hlist; rfl
  | broken => cases h
  | item d rest =>
      obtain ⟨json, others, rfl, hjson, hothers⟩ := inOrderItems?_item hlist
      rw [readItems] at h
      cases hnode : readNode room d with
      | error e => rw [hnode] at h; cases h
      | ok node =>
          rw [hnode] at h
          dsimp only at h
          cases hmore : readItems room rest with
          | error e => rw [hmore] at h; cases h
          | ok more =>
              rw [hmore] at h
              cases h
              rw [nodesOfJson, nodeOfJson_of_readNode hnode hjson,
                nodesOfJson_of_readItems hmore hothers, itemsNamed]
              cases nodeNamed d <;> cases itemsNamed rest <;> rfl
end

/-- An array of nodes is imported as it is read. -/
theorem rootsOfJson_of_readNodes {room : Nat} {d : Draft} {json : Json} {roots : List Node}
    (h : readNodes room d = .ok roots) (hjson : inOrder? room d = some json) :
    rootsOfJson json = ifNamed (rootsNamed d) roots := by
  unfold readNodes at h
  split at h
  · rename_i items
    obtain ⟨inner, list, rfl, hlist, rfl⟩ := inOrder?_array hjson
    exact nodesOfJson_of_readItems h hlist
  · exact absurd h (d.refuse_ne_ok _ _)

/-- A single node is imported as the only root. -/
theorem rootsOfJson_of_readNode {room : Nat} {d : Draft} {json : Json} {node : Node}
    (h : readNode room d = .ok node) (hjson : inOrder? room d = some json) :
    rootsOfJson json = ifNamed (rootsNamed d) [node] := by
  have hnode := nodeOfJson_of_readNode h hjson
  cases d with
  | object fields =>
      obtain ⟨inner, list, rfl, hlist, rfl⟩ := inOrder?_object hjson
      rw [rootsOfJson, hnode]
      · exact ifNamed_map ([·])
      · exact fun _ h => by cases h
  | text s =>
      obtain ⟨s, -, rfl⟩ := Option.map_eq_some_iff.mp hjson
      rw [rootsOfJson, hnode]
      · exact ifNamed_map ([·])
      · exact fun _ h => by cases h
  | broken => cases h
  | null => cases h
  | bool b => cases h
  | number amount => cases h
  | array items => cases h

end Saved
/-! ## Texts -/

/-- Do all nodes of a text give their parts by name, a reference apart? -/
def Node.partsNamed (text : String) : Bool := Saved.rootsNamed (Reading.ofText text).root

theorem Node.importInOrder_of_readAll {text : String} {json : Json} {roots : List Node}
    (hjson : readInOrder? text = some json) (h : Node.readAll text = .ok roots) :
    Node.importInOrder text = .ofMismatch (Saved.ifNamed (Node.partsNamed text) roots) := by
  obtain ⟨hroots, htrailing⟩ := readText_eq_ok h
  have htree := hjson
  rw [readInOrder?_eq htrailing] at htree
  rw [Node.importInOrder, hjson]
  exact congrArg ReadResult.ofMismatch (Saved.rootsOfJson_of_readNodes hroots htree)

theorem Node.importInOrder_of_read {text : String} {json : Json} {node : Node}
    (hjson : readInOrder? text = some json) (h : Node.read text = .ok node) :
    Node.importInOrder text = .ofMismatch (Saved.ifNamed (Node.partsNamed text) [node]) := by
  obtain ⟨hnode, htrailing⟩ := readText_eq_ok h
  have htree := hjson
  rw [readInOrder?_eq htrailing] at htree
  rw [Node.importInOrder, hjson]
  exact congrArg ReadResult.ofMismatch (Saved.rootsOfJson_of_readNode hnode htree)

/-- What is imported in the order of the text is imported sorted. -/
theorem Node.importAll_of_importInOrder {text : String} {roots : List Node}
    (h : Node.importInOrder text = .ok roots) :
    Node.importAll text = .ok (Node.sortedAll roots) := by
  have hsorted := Node.toOption_importAll text
  rw [h] at hsorted
  exact toOption_eq_some_iff.mp hsorted

/-- A text that is JSON can be refused for its form only. -/
theorem Node.importAll_refuses {text : String} {json : Json} {why : Mismatch}
    (hjson : readInOrder? text = some json)
    (h : Node.importInOrder text = .error (.mismatch why)) :
    ∃ why, Node.importAll text = .error (.mismatch why) := by
  have hsorted := Node.toOption_importAll text
  rw [h] at hsorted
  have hread : read? text = some json.sorted := by rw [read?_eq_readInOrder?, hjson]; rfl
  have himport : Node.importAll text = .ofMismatch (Saved.rootsOfJson json.sorted) := by
    rw [Node.importAll, hread]
  rw [himport] at hsorted ⊢
  cases hroots : Saved.rootsOfJson json.sorted with
  | error why => exact ⟨why, rfl⟩
  | ok roots => rw [hroots] at hsorted; cases hsorted

/-- Let a text be JSON.  The roots that are read from it directly are imported with all parameters
sorted by name, and so is a single node, as the only root, provided that all nodes but references
give their parts by name.  Otherwise the importer refuses the form of the text. -/
theorem Node.importAll_of_read {text : String} (hread : (read? text).isSome = true) :
    (∀ roots, Node.readAll text = .ok roots →
      (Node.partsNamed text = true → Node.importAll text = .ok (Node.sortedAll roots)) ∧
        (Node.partsNamed text = false → ∃ why, Node.importAll text = .error (.mismatch why))) ∧
    ∀ node, Node.read text = .ok node →
      (Node.partsNamed text = true → Node.importAll text = .ok [node.sorted]) ∧
        (Node.partsNamed text = false → ∃ why, Node.importAll text = .error (.mismatch why)) := by
  rw [read?_eq_readInOrder?, Option.isSome_map] at hread
  obtain ⟨json, hjson⟩ := Option.isSome_iff_exists.mp hread
  have hcases : ∀ roots,
      Node.importInOrder text = .ofMismatch (Saved.ifNamed (Node.partsNamed text) roots) →
        (Node.partsNamed text = true → Node.importAll text = .ok (Node.sortedAll roots)) ∧
          (Node.partsNamed text = false →
            ∃ why, Node.importAll text = .error (.mismatch why)) := by
    intro roots h
    refine ⟨fun hnamed => ?_, fun hnamed => ?_⟩
    · rw [hnamed] at h
      exact Node.importAll_of_importInOrder h
    · rw [hnamed] at h
      exact Node.importAll_refuses hjson h
  constructor
  · intro roots hroots
    exact hcases roots (Node.importInOrder_of_readAll hjson hroots)
  · intro node hnode
    exact hcases [node] (Node.importInOrder_of_read hjson hnode)

/-- A cube whose parameters are not in the order of their names. -/
def lidText : String :=
  "\x7b\"primitive\": \x7b\"params\": \x7b\"size\": [1.5, 2], \"center\": true\x7d, " ++
    "\"shape\": \"cube\"\x7d\x7d"

theorem Node.importAll_lidText_of_read :
    (∃ roots, Node.readAll ("[" ++ lidText ++ "]") = .ok roots ∧
      Node.parameterNames roots = [["size", "center"]] ∧
      Node.importAll ("[" ++ lidText ++ "]") = .ok (Node.sortedAll roots)) ∧
    ∃ node, Node.read lidText = .ok node ∧ Node.importAll lidText = .ok [node.sorted] := by
  constructor
  · have hjson : (read? ("[" ++ lidText ++ "]")).isSome = true := by decide +kernel
    have hread : (Node.readAll ("[" ++ lidText ++ "]")).toOption.map Node.parameterNames =
        some [["size", "center"]] := by decide +kernel
    have hnamed : Node.partsNamed ("[" ++ lidText ++ "]") = true := by decide +kernel
    obtain ⟨roots, hroots, hnames⟩ := Option.map_eq_some_iff.mp hread
    have hok := toOption_eq_some_iff.mp hroots
    exact ⟨roots, hok, hnames, ((Node.importAll_of_read hjson).1 roots hok).1 hnamed⟩
  · have hjson : (read? lidText).isSome = true := by decide +kernel
    have hread : (Node.read lidText).toOption.isSome = true := by decide +kernel
    have hnamed : Node.partsNamed lidText = true := by decide +kernel
    obtain ⟨node, hnode⟩ := Option.isSome_iff_exists.mp hread
    have hok := toOption_eq_some_iff.mp hnode
    exact ⟨node, hok, ((Node.importAll_of_read hjson).2 node hok).1 hnamed⟩

/-- A cube whose parts stand in an array. -/
def listedCube : String := "[\x7b\"primitive\": [\"cube\", \x7b\x7d]\x7d]"

theorem Node.importAll_listedCube_refuses :
    (read? listedCube).isSome = true ∧ (Node.readAll listedCube).toOption.isSome = true ∧
      (Node.importAll listedCube).map (fun _ => ()) = .error (.mismatch Saved.listedParts) := by
  decide +kernel

end SolidScript
