import Mathlib.Tactic
import SolidScript.Proofs.Json.Written
import SolidScript.Proofs.Saved.Order
import SolidScript.Saved.Read

/-!
# Reading a saved node

A node is saved as a text, and the direct reader goes through that text.  It gives the node back
with every number replaced by what is read from its text (`Number.reread`), or refuses the text as
malformed; it does the latter exactly where arrays and objects nest too deep in the text or the text
of a number is read as too large (`Node.read_save`).  How deep they nest is counted from the node by
`Node.levels`.

Each part of a node is read at the depth that is left for it.  What the reader asks of a part is a
condition on its nesting and on the numbers in it (`Fits`); where the condition fails the text is
malformed, whatever part it is (`Decodes`), so the conditions of the parts add up to that of the
node.
-/

namespace SolidScript

/-! ## Numbers in a tree -/

namespace Json

/-- The number that is read from a text. -/
def readNumber? (text : String) : Option Number :=
  (Numeral.ofChars text.toList).amount.map Amount.toNumber

end Json

namespace Number

/-- Can the text of the number be read, if there is one? -/
def isRereadable (x : Number) : Bool :=
  (Json.Amount.float x).write.all fun text => (Json.readNumber? text).isSome

/-- What is read from the text of a number; a number without a text is written as nothing. -/
def reread (x : Number) : Value :=
  Value.ofNumber? ((Json.Amount.float x).write.bind Json.readNumber?)

end Number

mutual
/-- The numbers of a value in their order. -/
def Value.allNumbers : Value → List Number
  | .number x => [x]
  | .vector items => Value.allNumbersOf items
  | _ => []

def Value.allNumbersOf : List Value → List Number
  | [] => []
  | item :: rest => item.allNumbers ++ Value.allNumbersOf rest
end

mutual
/-- The value with a value in place of each number. -/
def Value.mapNumbers (f : Number → Value) : Value → Value
  | .undef => .undef
  | .bool b => .bool b
  | .number x => f x
  | .text s => .text s
  | .vector items => .vector (Value.mapNumbersOf f items)

def Value.mapNumbersOf (f : Number → Value) : List Value → List Value
  | [] => []
  | item :: rest => item.mapNumbers f :: Value.mapNumbersOf f rest
end

/-- The numbers of the values of some entries. -/
def entryNumbers (entries : List (String × Value)) : List Number :=
  entries.flatMap fun entry => entry.2.allNumbers

def Params.allNumbers (params : Params) : List Number := entryNumbers params.entries

/-- The parameters with a value in place of each number. -/
def Params.mapNumbers (f : Number → Value) (params : Params) : Params where
  entries := params.entries.map (Prod.map id (Value.mapNumbers f))
  distinct := by
    rw [List.map_map]
    exact params.distinct

def Frame.mapNumbers (f : Number → Value) : Frame → Frame
  | transform op params => transform op (params.mapNumbers f)
  | combinator op => combinator op
  | extrusion op params => extrusion op (params.mapNumbers f)
  | moduleCall name params => moduleCall name (params.mapNumbers f)

mutual
/-- The numbers of a node and of the nodes inside it. -/
def Node.allNumbers : Node → List Number
  | .primitive _ params => params.allNumbers
  | .call _ params => params.allNumbers
  | .composite frame children => frame.params.allNumbers ++ Node.allNumbersOf children
  | .reference _ => []
  | .comment _ => []

def Node.allNumbersOf : List Node → List Number
  | [] => []
  | node :: rest => node.allNumbers ++ Node.allNumbersOf rest
end

mutual
/-- The node with a value in place of each number; nothing else is changed. -/
def Node.mapNumbers (f : Number → Value) : Node → Node
  | .primitive shape params => .primitive shape (params.mapNumbers f)
  | .call name params => .call name (params.mapNumbers f)
  | .composite frame children => .composite (frame.mapNumbers f) (Node.mapNumbersOf f children)
  | .reference ref => .reference ref
  | .comment text => .comment text

def Node.mapNumbersOf (f : Number → Value) : List Node → List Node
  | [] => []
  | node :: rest => node.mapNumbers f :: Node.mapNumbersOf f rest
end

namespace Json

/-! ## Nesting -/

mutual
/-- How deep arrays and objects nest in a draft. -/
def Draft.nesting : Draft → Nat
  | .array items => items.nesting + 1
  | .object fields => fields.nesting + 1
  | _ => 0

def Items.nesting : Items → Nat
  | .item value rest => max value.nesting rest.nesting
  | _ => 0

def Fields.nesting : Fields → Nat
  | .field _ value rest => max value.nesting rest.nesting
  | _ => 0
end

@[simp] theorem nesting_null : null.draft.nesting = 0 := rfl

@[simp] theorem nesting_text (s : String) : (text s).draft.nesting = 0 := rfl

/-- Does a part with this nesting and these numbers fit where `room` levels are left? -/
def Fits (room nesting : Nat) (numbers : List Number) : Prop :=
  nesting ≤ room ∧ ∀ x ∈ numbers, x.isRereadable = true

instance (room nesting : Nat) (numbers : List Number) : Decidable (Fits room nesting numbers) :=
  inferInstanceAs (Decidable (nesting ≤ room ∧ ∀ x ∈ numbers, x.isRereadable = true))

theorem fits_flat (room : Nat) : Fits room 0 [] ↔ True := by simp [Fits]

theorem not_fits_succ (nesting : Nat) (numbers : List Number) :
    ¬ Fits 0 (nesting + 1) numbers := fun h => Nat.not_succ_le_zero _ h.1

theorem fits_succ (room nesting : Nat) (numbers : List Number) :
    Fits (room + 1) (nesting + 1) numbers ↔ Fits room nesting numbers := by
  rw [Fits, Fits, Nat.succ_le_succ_iff]

theorem fits_max (room k l : Nat) (xs ys : List Number) :
    Fits room (max k l) (xs ++ ys) ↔ Fits room k xs ∧ Fits room l ys := by
  rw [Fits, Fits, Fits, max_le_iff, List.forall_mem_append, and_and_and_comm]

/-- The result is `a` where the condition holds, and elsewhere the text is malformed. -/
structure Decodes {α : Type} (result : ReadResult α) (fits : Prop) (a : α) : Prop where
  ok : fits → result = .ok a
  malformed : ¬ fits → result = .error .malformed

namespace Decodes

variable {α β : Type} {p q : Prop}

theorem of_eq {result : ReadResult α} {a : α} (h : result = .ok a) : Decodes result True a :=
  ⟨fun _ => h, fun h => absurd trivial h⟩

theorem of_iff {result : ReadResult α} {a : α} (h : Decodes result p a) (hiff : q ↔ p) :
    Decodes result q a :=
  ⟨fun hq => h.ok (hiff.mp hq), fun hq => h.malformed (mt hiff.mpr hq)⟩

theorem bind {x : ReadResult α} {f : α → ReadResult β} {a : α} {b : β} (hx : Decodes x p a)
    (hf : Decodes (f a) q b) : Decodes (x >>= f) (p ∧ q) b where
  ok h := by rw [hx.ok h.1]; exact hf.ok h.2
  malformed h := by
    by_cases hp : p
    · rw [hx.ok hp]
      exact hf.malformed fun hq => h ⟨hp, hq⟩
    · rw [hx.malformed hp]
      rfl

theorem map {x : ReadResult α} {a : α} (hx : Decodes x p a) (f : α → β) :
    Decodes (x.map f) p (f a) where
  ok h := by rw [hx.ok h]; rfl
  malformed h := by rw [hx.malformed h]; rfl

/-- An array or object takes one of the levels that are left. -/
theorem inside {f : Nat → ReadResult α} {a : α} {nesting : Nat} {numbers : List Number}
    (hzero : f 0 = .error .malformed)
    (hsucc : ∀ inner, Decodes (f (inner + 1)) (Fits inner nesting numbers) a) (room : Nat) :
    Decodes (f room) (Fits room (nesting + 1) numbers) a := by
  cases room with
  | zero => exact ⟨fun h => absurd h (not_fits_succ nesting numbers), fun _ => hzero⟩
  | succ inner => exact (hsucc inner).of_iff (fits_succ inner nesting numbers)

/-- A part without arrays, objects and numbers fits at every depth. -/
theorem flat {result : ReadResult α} {a : α} (h : result = .ok a) (room : Nat) :
    Decodes result (Fits room 0 []) a := (of_eq h).of_iff (fits_flat room)

theorem eq_ite {result : ReadResult α} {a : α} (h : Decodes result p a) [Decidable p] :
    result = if p then .ok a else .error .malformed := by
  split
  · rename_i hp
    exact h.ok hp
  · rename_i hp
    exact h.malformed hp

end Decodes
end Json

/-! ## Values and parameters -/

open Json

/-- What is seen of the text of a number is refused where its text cannot be read. -/
theorem Number.draft_eq (x : Number) :
    (Amount.float x).draft = .null ∧ x.isRereadable = true ∧ x.reread = .undef ∨
      (∃ amount, (Amount.float x).draft = .number (some amount) ∧ x.isRereadable = true ∧
        x.reread = .number amount.toNumber) ∨
      (Amount.float x).draft = .number none ∧ x.isRereadable = false := by
  unfold Amount.draft isRereadable reread readNumber?
  cases (Amount.float x).write with
  | none => exact Or.inl ⟨rfl, rfl, rfl⟩
  | some s =>
      cases hamount : (Numeral.ofChars s.toList).amount with
      | none => exact Or.inr (Or.inr ⟨by simp [hamount], by simp [hamount]⟩)
      | some amount =>
          exact Or.inr (Or.inl ⟨amount, by simp [hamount], by simp [hamount],
            by simp [hamount, Value.ofNumber?]⟩)

/-- The tree of a value is read where the condition holds, and it makes the given value. -/
structure Makes {α β : Type} (result : Option α) (fits : Prop) (make : α → Option β) (b : β) :
    Prop where
  some : fits → ∃ a, result = some a ∧ make a = some b
  none : ¬ fits → result = none

theorem Makes.of_eq {α β : Type} {result : Option α} {fits : Prop} {make : α → Option β} {b : β}
    {a : α} (h : result = Option.some a) (hmake : make a = Option.some b) (hfits : fits) :
    Makes result fits make b :=
  ⟨fun _ => ⟨a, h, hmake⟩, fun hnot => absurd hfits hnot⟩

mutual
/-- All of a value is read before its form is looked at. -/
theorem Value.makes_toJson (v : Value) (room : Nat) :
    Makes (ofDraft? room v.toJson.draft) (Fits room v.toJson.draft.nesting v.allNumbers)
      Value.ofJson? (v.mapNumbers Number.reread) := by
  cases v with
  | undef => exact .of_eq rfl rfl ((fits_flat room).mpr trivial)
  | bool b => exact .of_eq rfl rfl ((fits_flat room).mpr trivial)
  | text s => exact .of_eq rfl rfl ((fits_flat room).mpr trivial)
  | number x =>
      change Makes (ofDraft? room (Amount.float x).draft)
        (Fits room (Amount.float x).draft.nesting [x]) Value.ofJson? x.reread
      rcases x.draft_eq with ⟨hdraft, hx, hreread⟩ | ⟨amount, hdraft, hx, hreread⟩ | ⟨hdraft, hx⟩
      · rw [hdraft, hreread]
        exact .of_eq rfl rfl ⟨Nat.zero_le room, by simpa using hx⟩
      · rw [hdraft, hreread]
        exact .of_eq rfl rfl ⟨Nat.zero_le room, by simpa using hx⟩
      · rw [hdraft]
        refine ⟨fun hfits => ?_, fun _ => rfl⟩
        rw [hfits.2 x (List.mem_singleton_self x)] at hx
        cases hx
  | vector items =>
      -- the vector is an array and takes one of the levels that are left
      cases room with
      | zero => exact ⟨fun h => absurd h (not_fits_succ _ _), fun _ => rfl⟩
      | succ inner =>
          have hitems := Value.makes_itemsToJson items inner
          have hfits := fits_succ inner (draftItems (Value.itemsToJson items)).nesting
            (Value.allNumbersOf items)
          refine ⟨fun h => ?_, fun h => ?_⟩
          · obtain ⟨list, hlist, hvalues⟩ := hitems.some (hfits.mp h)
            refine ⟨.array list, congrArg (Option.map Json.array) hlist, ?_⟩
            rw [Value.ofJson?, hvalues]
            rfl
          · exact congrArg (Option.map Json.array) (hitems.none (mt hfits.mpr h))

theorem Value.makes_itemsToJson (items : List Value) (room : Nat) :
    Makes (ofItems? room (draftItems (Value.itemsToJson items)))
      (Fits room (draftItems (Value.itemsToJson items)).nesting (Value.allNumbersOf items))
      Value.itemsOfJson? (Value.mapNumbersOf Number.reread items) := by
  cases items with
  | nil => exact .of_eq rfl rfl ((fits_flat room).mpr trivial)
  | cons item rest =>
      have hitem := Value.makes_toJson item room
      have hrest := Value.makes_itemsToJson rest room
      have hfits := fits_max room item.toJson.draft.nesting
        (draftItems (Value.itemsToJson rest)).nesting item.allNumbers (Value.allNumbersOf rest)
      refine ⟨fun h => ?_, fun h => ?_⟩
      · obtain ⟨hfirst, hmore⟩ := hfits.mp h
        obtain ⟨json, hjson, hvalue⟩ := hitem.some hfirst
        obtain ⟨list, hlist, hvalues⟩ := hrest.some hmore
        refine ⟨json :: list, ?_, ?_⟩
        · rw [Value.itemsToJson, draftItems, ofItems?, hjson]
          exact congrArg (Option.map (json :: ·)) hlist
        · rw [Value.itemsOfJson?, hvalue, hvalues]
          rfl
      · -- either the first item is refused or one behind it
        rw [Value.itemsToJson, draftItems, ofItems?]
        by_cases hfirst : Fits room item.toJson.draft.nesting item.allNumbers
        · obtain ⟨json, hjson, -⟩ := hitem.some hfirst
          rw [hjson]
          exact congrArg (Option.map (json :: ·))
            (hrest.none fun hmore => h (hfits.mpr ⟨hfirst, hmore⟩))
        · rw [hitem.none hfirst]
end

theorem Value.decodes_toJson (v : Value) (room : Nat) :
    Decodes (Value.ofDraft room v.toJson.draft)
      (Fits room v.toJson.draft.nesting v.allNumbers) (v.mapNumbers Number.reread) where
  ok h := by
    obtain ⟨json, hjson, hvalue⟩ := (v.makes_toJson room).some h
    rw [Value.ofDraft, hjson]
    dsimp only
    rw [hvalue]
  malformed h := by rw [Value.ofDraft, (v.makes_toJson room).none h]

/-- The fields of an object in which entries are saved. -/
def entryFields (entries : List (String × Value)) : Fields :=
  draftFields (entries.map fun (name, value) => (name, value.toJson))

/-- Entries are read in their order, each behind those that were read before. -/
theorem Params.decodes_entries (room : Nat) (entries : List (String × Value)) (params : Params)
    {q : Params} (hnames : (params.entries.map Prod.fst ++ entries.map Prod.fst).Nodup)
    (hq : q.entries =
      params.entries ++ entries.map (Prod.map id (Value.mapNumbers Number.reread))) :
    Decodes (Params.addFields room params (entryFields entries))
      (Fits room (entryFields entries).nesting (entryNumbers entries)) q := by
  induction entries generalizing params with
  | nil =>
      have hsame : q = params := Params.ext (by simpa using hq)
      rw [hsame]
      exact Decodes.flat rfl room
  | cons entry rest ih =>
      obtain ⟨name, value⟩ := entry
      rw [List.map_cons] at hnames
      -- no name was read before, so each entry goes to the end
      have hnew : name ∉ params.entries.map Prod.fst := fun hmem =>
        List.disjoint_of_nodup_append hnames hmem List.mem_cons_self
      have hset : (params.set name (value.mapNumbers Number.reread)).entries =
          params.entries ++ [(name, value.mapNumbers Number.reread)] := setEntry_of_notMem hnew _
      have hrest := ih (params.set name (value.mapNumbers Number.reread))
        (by rw [hset, List.map_append, List.append_assoc]; exact hnames)
        (by rw [hset, List.append_assoc]; exact hq)
      have hstep : Params.addFields room params (entryFields ((name, value) :: rest)) =
          Value.ofDraft room value.toJson.draft >>= fun v =>
            Params.addFields room (params.set name v) (entryFields rest) := by
        rw [entryFields, List.map_cons, draftFields, Params.addFields]
        cases Value.ofDraft room value.toJson.draft <;> rfl
      rw [hstep]
      exact ((value.decodes_toJson room).bind hrest).of_iff
        (fits_max room _ _ value.allNumbers (entryNumbers rest))

theorem Params.decodes_toJson (params : Params) (room : Nat) :
    Decodes (Params.ofDraft room params.toJson.draft)
      (Fits room params.toJson.draft.nesting params.allNumbers)
      (params.mapNumbers Number.reread) :=
  Decodes.inside (f := fun room => Params.ofDraft room params.toJson.draft) rfl
    (fun inner => Params.decodes_entries inner params.entries .empty params.distinct rfl) room

namespace Saved

/-! ## Parts of a node -/

/-- What a part of a draft fills in. -/
def fillingOfDraft (room : Nat) (kind : Kind) (d : Draft) : Part → ReadResult Filling
  | .shape => (readOption room shapeOptions d).map .shape
  | .transformOp => (readOption room transformOptions d).map .transformOp
  | .combinatorOp => (readOption room combinatorOptions d).map .combinatorOp
  | .extrusionOp => (readOption room extrusionOptions d).map .extrusionOp
  | .referenceKind => (readOption room referenceOptions d).map .referenceKind
  | .name => (readString d).map .text
  | .path => (readString d).map .text
  | .params => (Params.ofDraft room d).map .params
  | .children => (readChildren room kind d).map .children

theorem readPart_eq (room : Nat) (kind : Kind) (slots : Slots) (d : Draft) (part : Part) :
    (if part = .children then (readChildren room kind d).map slots.withChildren
      else readPart room slots d part) = (fillingOfDraft room kind d part).map (·.put slots) := by
  cases part with
  | shape => exact bind_put (readOption room shapeOptions d) .shape slots
  | transformOp => exact bind_put (readOption room transformOptions d) .transformOp slots
  | combinatorOp => exact bind_put (readOption room combinatorOptions d) .combinatorOp slots
  | extrusionOp => exact bind_put (readOption room extrusionOptions d) .extrusionOp slots
  | referenceKind => exact bind_put (readOption room referenceOptions d) .referenceKind slots
  | name => exact bind_put (readString d) .text slots
  | path => exact bind_put (readString d) .text slots
  | params => exact bind_put (Params.ofDraft room d) .params slots
  | children =>
      rw [if_pos rfl, fillingOfDraft]
      cases readChildren room kind d <;> rfl

/-- A part of the kind that has not been read before fills its place. -/
theorem readRecord_part {room : Nat} {kind : Kind} {seen : List Part} {part : Part}
    (hpart : kind.parts.find? (·.key == part.key) = some part) (hseen : part ∉ seen)
    (slots : Slots) (d : Draft) (rest : Fields) :
    readRecord room kind seen slots (.field (some part.key) d rest) =
      fillingOfDraft room kind d part >>= fun a =>
        readRecord room kind (part :: seen) (a.put slots) rest := by
  have hcontains : seen.contains part = false := by simpa using hseen
  rw [readRecord, hpart]
  dsimp only
  rw [hcontains, readPart_eq]
  cases fillingOfDraft room kind d part <;> rfl

section Records

variable {room : Nat} {kind : Kind} {seen : List Part} {slots : Slots} {part : Part} {d : Draft}
  {rest : Fields} {xs ys : List Number} {a : Filling} {node : Node}

theorem decodes_part (hpart : kind.parts.find? (·.key == part.key) = some part)
    (hseen : part ∉ seen)
    (ha : Decodes (fillingOfDraft room kind d part) (Fits room d.nesting xs) a)
    (hrest : Decodes (readRecord room kind (part :: seen) (a.put slots) rest)
      (Fits room rest.nesting ys) node) :
    Decodes (readRecord room kind seen slots (.field (some part.key) d rest))
      (Fits room (Fields.field (some part.key) d rest).nesting (xs ++ ys)) node := by
  rw [readRecord_part hpart hseen]
  exact (ha.bind hrest).of_iff (fits_max room d.nesting rest.nesting xs ys)

/-- A part that is a string can be read at every depth. -/
theorem decodes_textPart (hpart : kind.parts.find? (·.key == part.key) = some part)
    (hseen : part ∉ seen) {s : String}
    (ha : fillingOfDraft room kind (.text (some s)) part = .ok a)
    (hrest : Decodes (readRecord room kind (part :: seen) (a.put slots) rest)
      (Fits room rest.nesting ys) node) :
    Decodes (readRecord room kind seen slots (.field (some part.key) (.text (some s)) rest))
      (Fits room (Fields.field (some part.key) (.text (some s)) rest).nesting ys) node :=
  decodes_part hpart hseen (Decodes.flat ha room) hrest

/-- With its last part a node is complete. -/
theorem decodes_lastPart (hpart : kind.parts.find? (·.key == part.key) = some part)
    (hseen : part ∉ seen)
    (ha : Decodes (fillingOfDraft room kind d part) (Fits room d.nesting xs) a)
    (hbuild : (a.put slots).build kind = .ok node) :
    Decodes (readRecord room kind seen slots (.field (some part.key) d .ended))
      (Fits room (Fields.field (some part.key) d .ended).nesting xs) node := by
  have hend : readRecord room kind (part :: seen) (a.put slots) .ended = .ok node := by
    rw [readRecord, hbuild]
    rfl
  have hrecord := decodes_part hpart hseen ha (Decodes.flat hend room)
  rwa [List.append_nil] at hrecord

end Records

theorem chooseNamed_kind (kind : Kind) : chooseNamed Kind.options kind.name = .ok kind := by
  cases kind <;> rfl

/-- A node takes two levels: one for its kind and one for its parts. -/
@[simp] theorem nesting_nodeJson (kind : Kind) (fields : List (String × Json)) :
    (nodeJson kind fields).draft.nesting = (draftFields fields).nesting + 2 := by
  change max ((draftFields fields).nesting + 1) 0 + 1 = _
  rw [Nat.max_zero]

@[simp] theorem nesting_draftFields_nil : (draftFields []).nesting = 0 := rfl

@[simp] theorem nesting_partField (part : Part) (json : Json) (rest : List (String × Json)) :
    (draftFields (partField part json :: rest)).nesting =
      max json.draft.nesting (draftFields rest).nesting := rfl

/-- A node is read where its parts are, two levels further in. -/
theorem decodes_nodeJson {kind : Kind} (hkind : kind ≠ .comment) {fields : List (String × Json)}
    {xs : List Number} {node : Node}
    (h : ∀ room, Decodes (readRecord room kind [] {} (draftFields fields))
      (Fits room (draftFields fields).nesting xs) node) (room : Nat) :
    Decodes (readNode room (nodeJson kind fields).draft)
      (Fits room (nodeJson kind fields).draft.nesting xs) node := by
  -- the inner level is that of the parts
  have hcontent : ∀ room, Decodes (readContent room kind (.object (draftFields fields)))
      (Fits room ((draftFields fields).nesting + 1) xs) node := by
    intro room
    refine Decodes.inside (f := fun room => readContent room kind (.object (draftFields fields)))
      ?_ (fun inner => ?_) room
    · rw [readContent, if_neg hkind]
    · rw [readContent, if_neg hkind]
      exact h inner
  rw [nesting_nodeJson]
  refine Decodes.inside (f := fun room => readNode room (nodeJson kind fields).draft) rfl
    (fun inner => ?_) room
  have hnode : readNode (inner + 1) (nodeJson kind fields).draft =
      readContent inner kind (.object (draftFields fields)) := by
    change readNodeFields inner
      (.field (some kind.name) (.object (draftFields fields)) .ended) = _
    rw [readNodeFields, chooseNamed_kind]
    dsimp only
    cases readContent inner kind (.object (draftFields fields)) <;> rfl
  rw [hnode]
  exact hcontent inner

/-! ## Nodes -/

section Options

variable (room : Nat) (kind : Kind)

theorem fillingOfDraft_shape (x : Shape) :
    fillingOfDraft room kind (.text (some x.name)) .shape = .ok (.shape x) := by
  cases x <;> rfl

theorem fillingOfDraft_transformOp (x : TransformOp) :
    fillingOfDraft room kind (.text (some x.name)) .transformOp = .ok (.transformOp x) := by
  cases x <;> rfl

theorem fillingOfDraft_combinatorOp (x : CombinatorOp) :
    fillingOfDraft room kind (.text (some x.name)) .combinatorOp = .ok (.combinatorOp x) := by
  cases x <;> rfl

theorem fillingOfDraft_extrusionOp (x : ExtrusionOp) :
    fillingOfDraft room kind (.text (some x.name)) .extrusionOp = .ok (.extrusionOp x) := by
  cases x <;> rfl

theorem fillingOfDraft_referenceKind (x : ReferenceKind) :
    fillingOfDraft room kind (.text (some x.keyword)) .referenceKind = .ok (.referenceKind x) := by
  cases x <;> rfl

theorem fillingOfDraft_name (s : String) :
    fillingOfDraft room kind (.text (some s)) .name = .ok (.text s) := rfl

theorem fillingOfDraft_path (s : String) :
    fillingOfDraft room kind (.text (some s)) .path = .ok (.text s) := rfl

/-- Only a module call may be without nodes inside. -/
theorem fillingOfDraft_null :
    fillingOfDraft room .moduleCall .null .children = .ok (.children none) := rfl

theorem decodes_params (params : Params) :
    Decodes (fillingOfDraft room kind params.toJson.draft .params)
      (Fits room params.toJson.draft.nesting params.allNumbers)
      (.params (params.mapNumbers Number.reread)) :=
  (params.decodes_toJson room).map Filling.params

end Options

mutual
/-- A saved node is read back where it fits, with every number read from its text. -/
theorem decodes_toJson (node : Node) (room : Nat) :
    Decodes (readNode room node.toJson.draft)
      (Fits room node.toJson.draft.nesting node.allNumbers) (node.mapNumbers Number.reread) := by
  cases node with
  | primitive shape params =>
      refine decodes_nodeJson (by decide) (fun room => ?_) room
      refine decodes_textPart rfl (by decide) (fillingOfDraft_shape room .primitive shape) ?_
      exact decodes_lastPart rfl (by decide) (decodes_params room .primitive params) rfl
  | call name params =>
      -- the null in place of the nodes inside has no numbers
      have hnumbers : (Node.call name params).allNumbers = params.allNumbers ++ [] :=
        (List.append_nil _).symm
      rw [hnumbers]
      refine decodes_nodeJson (by decide) (fun room => ?_) room
      refine decodes_textPart rfl (by decide) (fillingOfDraft_name room .moduleCall name) ?_
      refine decodes_part rfl (by decide) (decodes_params room .moduleCall params) ?_
      exact decodes_lastPart rfl (by decide) (Decodes.flat (fillingOfDraft_null room) room) rfl
  | composite frame children =>
      have hchildren : ∀ kind room,
          Decodes (fillingOfDraft room kind (Json.array (Node.listToJson children)).draft .children)
            (Fits room (Json.array (Node.listToJson children)).draft.nesting
              (Node.allNumbersOf children))
            (.children (some (Node.mapNumbersOf Number.reread children))) := by
        intro kind room
        have hitems := Decodes.inside
          (f := fun room => readChildren room kind (Json.array (Node.listToJson children)).draft)
          rfl (fun inner => (decodes_listToJson children inner).map some) room
        exact hitems.map Filling.children
      cases frame with
      | transform op params =>
          refine decodes_nodeJson (by decide) (fun room => ?_) room
          refine decodes_textPart rfl (by decide) (fillingOfDraft_transformOp room .transform op) ?_
          refine decodes_part rfl (by decide) (decodes_params room .transform params) ?_
          exact decodes_lastPart rfl (by decide) (hchildren .transform room) rfl
      | combinator op =>
          refine decodes_nodeJson (by decide) (fun room => ?_) room
          refine decodes_textPart rfl (by decide)
            (fillingOfDraft_combinatorOp room .combinator op) ?_
          exact decodes_lastPart rfl (by decide) (hchildren .combinator room) rfl
      | extrusion op params =>
          refine decodes_nodeJson (by decide) (fun room => ?_) room
          refine decodes_textPart rfl (by decide) (fillingOfDraft_extrusionOp room .extrusion op) ?_
          refine decodes_part rfl (by decide) (decodes_params room .extrusion params) ?_
          exact decodes_lastPart rfl (by decide) (hchildren .extrusion room) rfl
      | moduleCall name params =>
          refine decodes_nodeJson (by decide) (fun room => ?_) room
          refine decodes_textPart rfl (by decide) (fillingOfDraft_name room .moduleCall name) ?_
          refine decodes_part rfl (by decide) (decodes_params room .moduleCall params) ?_
          exact decodes_lastPart rfl (by decide) (hchildren .moduleCall room) rfl
  | reference ref =>
      refine decodes_nodeJson (by decide) (fun room => ?_) room
      refine decodes_textPart rfl (by decide)
        (fillingOfDraft_referenceKind room .reference ref.kind) ?_
      exact decodes_lastPart rfl (by decide)
        (Decodes.flat (fillingOfDraft_path room .reference ref.path) room) rfl
  | comment text =>
      exact Decodes.inside (f := fun room => readNode room (Node.comment text).toJson.draft) rfl
        (fun inner => Decodes.flat rfl inner) room

theorem decodes_listToJson (nodes : List Node) (room : Nat) :
    Decodes (readItems room (draftItems (Node.listToJson nodes)))
      (Fits room (draftItems (Node.listToJson nodes)).nesting (Node.allNumbersOf nodes))
      (Node.mapNumbersOf Number.reread nodes) := by
  cases nodes with
  | nil => exact Decodes.flat rfl room
  | cons node rest =>
      have hstep : readItems room (draftItems (Node.listToJson (node :: rest))) =
          readNode room node.toJson.draft >>= fun node' =>
            (readItems room (draftItems (Node.listToJson rest))).map (node' :: ·) := by
        rw [Node.listToJson, draftItems, readItems]
        cases readNode room node.toJson.draft with
        | error e => rfl
        | ok node' => cases readItems room (draftItems (Node.listToJson rest)) <;> rfl
      rw [hstep]
      exact ((decodes_toJson node room).bind ((decodes_listToJson rest room).map _)).of_iff
        (fits_max room _ _ node.allNumbers (Node.allNumbersOf rest))
end

end Saved

/-! ## Levels -/

mutual
/-- The arrays that nest in the text of a value. -/
def Value.levels : Value → Nat
  | .vector items => Value.levelsOf items + 1
  | _ => 0

def Value.levelsOf : List Value → Nat
  | [] => 0
  | item :: rest => max item.levels (Value.levelsOf rest)
end

/-- Parameters are an object around their values. -/
def Params.levels (params : Params) : Nat :=
  Value.levelsOf (params.entries.map Prod.snd) + 1

/-- The levels that the parameters of a composite take; a combinator has none. -/
def Frame.levels : Frame → Nat
  | combinator _ => 0
  | frame => frame.params.levels

mutual
/-- The arrays and objects that nest in the text of a node: one object for its kind, another for its
parts, and an array around the nodes inside. -/
def Node.levels : Node → Nat
  | .primitive _ params => params.levels + 2
  | .call _ params => params.levels + 2
  | .composite frame children => max frame.levels (Node.levelsOf children + 1) + 2
  | .reference _ => 2
  | .comment _ => 1

def Node.levelsOf : List Node → Nat
  | [] => 0
  | node :: rest => max node.levels (Node.levelsOf rest)
end

theorem nesting_amount (amount : Amount) : amount.draft.nesting = 0 := by
  unfold Amount.draft
  cases amount.write <;> rfl

mutual
theorem Value.nesting_toJson (v : Value) : v.toJson.draft.nesting = v.levels := by
  cases v with
  | undef => rfl
  | bool b => rfl
  | number x => exact nesting_amount (.float x)
  | text s => rfl
  | vector items => exact congrArg (· + 1) (Value.nesting_itemsToJson items)

theorem Value.nesting_itemsToJson (items : List Value) :
    (draftItems (Value.itemsToJson items)).nesting = Value.levelsOf items := by
  cases items with
  | nil => rfl
  | cons item rest =>
      exact congrArg₂ max item.nesting_toJson (Value.nesting_itemsToJson rest)
end

theorem nesting_entryFields (entries : List (String × Value)) :
    (entryFields entries).nesting = Value.levelsOf (entries.map Prod.snd) := by
  induction entries with
  | nil => rfl
  | cons entry rest ih => exact congrArg₂ max entry.2.nesting_toJson ih

@[simp] theorem Params.nesting_toJson (params : Params) :
    params.toJson.draft.nesting = params.levels :=
  congrArg (· + 1) (nesting_entryFields params.entries)

mutual
theorem Node.nesting_toJson (node : Node) : node.toJson.draft.nesting = node.levels := by
  cases node with
  | primitive shape params => simp [Node.toJson, Node.levels]
  | call name params => simp [Node.toJson, Node.levels]
  | composite frame children =>
      have hchildren : (Json.array (Node.listToJson children)).draft.nesting =
          Node.levelsOf children + 1 := congrArg (· + 1) (Node.nesting_listToJson children)
      rw [Node.toJson, Node.levels]
      cases frame <;> simp [Saved.compositeJson, hchildren, Frame.levels, Frame.params]
  | reference ref => rfl
  | comment text => rfl

theorem Node.nesting_listToJson (nodes : List Node) :
    (draftItems (Node.listToJson nodes)).nesting = Node.levelsOf nodes := by
  cases nodes with
  | nil => rfl
  | cons node rest =>
      exact congrArg₂ max node.nesting_toJson (Node.nesting_listToJson rest)
end

/-! ## Saved texts -/

/-- The text of a node is read as the node with every number read from its own text, provided that
its arrays and objects nest no deeper than the reader goes and that the text of every number is read
as a number; without that the text is refused. -/
theorem Node.read_save (node : Node) :
    Node.read node.save =
      if (Reading.ofText node.save).root.nesting ≤ depthLimit ∧
          ∀ x ∈ node.allNumbers, x.isRereadable = true then
        .ok (node.mapNumbers Number.reread)
      else .error .malformed := by
  have hdecodes := Saved.decodes_toJson node depthLimit
  rw [Node.read, Node.save, readText_write, ofText_write]
  exact hdecodes.eq_ite

/-- The text of an array of nodes is read in the same way, the array being one level more. -/
theorem Node.readAll_saveAll (roots : List Node) :
    Node.readAll (Node.saveAll roots) =
      if (Reading.ofText (Node.saveAll roots)).root.nesting ≤ depthLimit ∧
          ∀ x ∈ Node.allNumbersOf roots, x.isRereadable = true then
        .ok (Node.mapNumbersOf Number.reread roots)
      else .error .malformed := by
  have hdecodes := Decodes.inside
    (f := fun room => Saved.readNodes room (Json.array (Node.listToJson roots)).draft) rfl
    (fun inner => Saved.decodes_listToJson roots inner) depthLimit
  rw [Node.readAll, Node.saveAll, readText_write, ofText_write]
  exact hdecodes.eq_ite

end SolidScript
