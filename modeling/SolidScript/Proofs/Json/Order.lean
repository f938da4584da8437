import Mathlib.Data.List.Sort
import Mathlib.Data.String.Basic
import Mathlib.Tactic
import SolidScript.Json.Tree

/-!
# The order of fields

A tree that is read from a text has the fields of every object sorted by name.  `inOrder?` reads the
same text and keeps them in the order of the text: a name stands where it first appears, with the
value that came last.  Sorting that tree at every depth gives the tree that is read
(`ofDraft?_eq_inOrder?`), and no name stands twice in an object of it (`distinct_of_inOrder?`).
-/

namespace SolidScript
namespace Json

/-! ## Trees in the order of their text -/

/-- Sets a field: its value is replaced in place, and a new name goes to the end. -/
def setField (name : String) (value : Json) : List (String × Json) → List (String × Json)
  | [] => [(name, value)]
  | (other, kept) :: rest =>
    if other = name then (name, value) :: rest else (other, kept) :: setField name value rest

mutual
/-- The tree of a draft with the fields of every object in the order of the draft. -/
def inOrder? (room : Nat) : Draft → Option Json
  | .broken => none
  | .null => some .null
  | .bool b => some (.bool b)
  | .number amount => amount.map .number
  | .text s => s.map .text
  | .array items =>
    match room with
    | 0 => none
    | inner + 1 => (inOrderItems? inner items).map .array
  | .object fields =>
    match room with
    | 0 => none
    | inner + 1 => (inOrderFields? inner [] fields).map .object

def inOrderItems? (room : Nat) : Items → Option (List Json)
  | .ended => some []
  | .broken => none
  | .item value rest =>
    match inOrder? room value with
    | none => none
    | some json => (inOrderItems? room rest).map (json :: ·)

/-- The fields so far with some more set one after the other. -/
def inOrderFields? (room : Nat) (sofar : List (String × Json)) :
    Fields → Option (List (String × Json))
  | .ended => some sofar
  | .broken => none
  | .field name value rest =>
    match name, inOrder? room value with
    | some s, some json => inOrderFields? room (setField s json sofar) rest
    | _, _ => none
end

/-- The tree of a text with the fields of every object in the order of the text. -/
def readInOrder? (text : String) : Option Json :=
  let reading := Reading.ofText text
  if reading.trailing then none else inOrder? depthLimit reading.root

/-! ## Sorted trees -/

mutual
/-- The tree with the fields of every object sorted by name. -/
def sorted : Json → Json
  | null => null
  | bool b => bool b
  | number amount => number amount
  | text s => text s
  | array items => array (sortedItems items)
  | object fields => object (sortedFields fields)

def sortedItems : List Json → List Json
  | [] => []
  | item :: rest => sorted item :: sortedItems rest

def sortedFields : List (String × Json) → List (String × Json)
  | [] => []
  | (name, value) :: rest => insertField name (sorted value) (sortedFields rest)
end

/-- The later value takes the place of the earlier one. -/
theorem insertField_self (name : String) (value other : Json) (fields : List (String × Json)) :
    insertField name value (insertField name other fields) = insertField name value fields := by
  induction fields with
  | nil => simp [insertField]
  | cons field rest ih =>
      obtain ⟨next, kept⟩ := field
      by_cases heq : name = next
      · simp [insertField, heq]
      · by_cases hlt : name < next
        · simp [insertField, heq, hlt]
        · simp [insertField, heq, hlt, ih]

/-- Fields of different names may be inserted in either order. -/
theorem insertField_comm_of_lt {a b : String} (hab : a < b) (x y : Json)
    (fields : List (String × Json)) :
    insertField a x (insertField b y fields) = insertField b y (insertField a x fields) := by
  have hne : a ≠ b := ne_of_lt hab
  have hba : ¬ b < a := lt_asymm hab
  induction fields with
  | nil => simp [insertField, hab, hne, hne.symm, hba]
  | cons field rest ih =>
      obtain ⟨next, kept⟩ := field
      rcases lt_trichotomy b next with hb | rfl | hb
      · -- both come before the field
        have ha := hab.trans hb
        simp [insertField, hab, hne, hne.symm, hba, ha, ha.ne, hb, hb.ne]
      · simp [insertField, hab, hne, hne.symm, hba]
      · -- the second one comes after it
        have hb' : ¬ b < next := lt_asymm hb
        rcases lt_trichotomy a next with ha | rfl | ha
        · simp [insertField, hne.symm, hba, ha, ha.ne, hb', hb.ne']
        · simp [insertField, hne.symm, hba]
        · simp [insertField, lt_asymm ha, ha.ne', hb', hb.ne', ih]

theorem insertField_comm {a b : String} (hab : a ≠ b) (x y : Json)
    (fields : List (String × Json)) :
    insertField a x (insertField b y fields) = insertField b y (insertField a x fields) := by
  rcases lt_or_gt_of_ne hab with hlt | hgt
  · exact insertField_comm_of_lt hlt x y fields
  · exact (insertField_comm_of_lt hgt y x fields).symm

/-- Setting a field and sorting is sorting and inserting the field. -/
theorem sortedFields_setField (name : String) (value : Json) (fields : List (String × Json)) :
    sortedFields (setField name value fields) =
      insertField name value.sorted (sortedFields fields) := by
  induction fields with
  | nil => rfl
  | cons field rest ih =>
      obtain ⟨other, kept⟩ := field
      rw [setField, sortedFields]
      split
      · rename_i hsame
        rw [sortedFields, hsame, insertField_self]
      · rename_i hother
        rw [sortedFields, ih, insertField_comm hother]

mutual
/-- The tree that is read is the sorted one. -/
theorem ofDraft?_eq_inOrder? (room : Nat) (d : Draft) :
    ofDraft? room d = (inOrder? room d).map sorted := by
  cases d with
  | broken => rfl
  | null => rfl
  | bool b => rfl
  | number amount => cases amount <;> rfl
  | text s => cases s <;> rfl
  | array items =>
      cases room with
      | zero => rfl
      | succ inner =>
          rw [ofDraft?, inOrder?, ofItems?_eq_inOrderItems? inner items, Option.map_map,
            Option.map_map]
          rfl
  | object fields =>
      cases room with
      | zero => rfl
      | succ inner =>
          have hfields := ofFields?_eq_inOrderFields? inner [] fields
          rw [sortedFields] at hfields
          rw [ofDraft?, inOrder?, hfields, Option.map_map, Option.map_map]
          rfl

theorem ofItems?_eq_inOrderItems? (room : Nat) (items : Items) :
    ofItems? room items = (inOrderItems? room items).map sortedItems := by
  cases items with
  | ended => rfl
  | broken => rfl
  | item value rest =>
      rw [ofItems?, inOrderItems?, ofDraft?_eq_inOrder? room value,
        ofItems?_eq_inOrderItems? room rest]
      cases inOrder? room value with
      | none => rfl
      | some json => cases inOrderItems? room rest <;> rfl

theorem ofFields?_eq_inOrderFields? (room : Nat) (sofar : List (String × Json))
    (fields : Fields) :
    ofFields? room (sortedFields sofar) fields =
      (inOrderFields? room sofar fields).map sortedFields := by
  cases fields with
  | ended => rfl
  | broken => rfl
  | field name value rest =>
      cases name with
      | none => rfl
      | some s =>
          have hvalue := ofDraft?_eq_inOrder? room value
          cases hjson : inOrder? room value with
          | none =>
              rw [hjson] at hvalue
              simp [ofFields?, inOrderFields?, hjson, hvalue]
          | some json =>
              rw [hjson, Option.map_some] at hvalue
              simp only [ofFields?, inOrderFields?, hjson, hvalue]
              rw [← sortedFields_setField]
              exact ofFields?_eq_inOrderFields? room (setField s json sofar) rest
end

theorem read?_eq_readInOrder? (text : String) :
    read? text = (readInOrder? text).map sorted := by
  unfold read? readInOrder?
  dsimp only
  split
  · rfl
  · exact ofDraft?_eq_inOrder? _ _

/-! ## Distinct names -/

mutual
/-- No name stands twice in an object. -/
def Distinct : Json → Prop
  | null => True
  | bool _ => True
  | number _ => True
  | text _ => True
  | array items => DistinctItems items
  | object fields => (fields.map Prod.fst).Nodup ∧ DistinctFields fields

def DistinctItems : List Json → Prop
  | [] => True
  | item :: rest => Distinct item ∧ DistinctItems rest

def DistinctFields : List (String × Json) → Prop
  | [] => True
  | (_, value) :: rest => Distinct value ∧ DistinctFields rest
end

theorem names_setField (name : String) (value : Json) (fields : List (String × Json)) :
    (setField name value fields).map Prod.fst =
      if name ∈ fields.map Prod.fst then fields.map Prod.fst
      else fields.map Prod.fst ++ [name] := by
  induction fields with
  | nil => simp [setField]
  | cons field rest ih =>
      obtain ⟨other, kept⟩ := field
      by_cases h : other = name
      · simp [setField, h]
      · have h' : name ≠ other := Ne.symm h
        simp only [setField, if_neg h, List.map_cons, ih, List.mem_cons, h', false_or]
        split <;> simp

theorem nodup_setField {fields : List (String × Json)} (h : (fields.map Prod.fst).Nodup)
    (name : String) (value : Json) : ((setField name value fields).map Prod.fst).Nodup := by
  rw [names_setField]
  split
  · exact h
  · rename_i hnew
    exact List.nodup_append_comm.mp (List.nodup_cons.mpr ⟨hnew, h⟩ : ([name] ++ _).Nodup)

theorem distinctFields_setField {fields : List (String × Json)} (h : DistinctFields fields)
    (name : String) {value : Json} (hvalue : value.Distinct) :
    DistinctFields (setField name value fields) := by
  induction fields with
  | nil => exact ⟨hvalue, h⟩
  | cons field rest ih =>
      obtain ⟨other, kept⟩ := field
      obtain ⟨hkept, hrest⟩ := h
      rw [setField]
      split
      · exact ⟨hvalue, hrest⟩
      · exact ⟨hkept, ih hrest⟩

theorem inOrder?_array {room : Nat} {items : Items} {json : Json}
    (h : inOrder? room (.array items) = some json) :
    ∃ inner list, room = inner + 1 ∧ inOrderItems? inner items = some list ∧
      json = .array list := by
  cases room with
  | zero => cases h
  | succ inner =>
      obtain ⟨list, hlist, rfl⟩ := Option.map_eq_some_iff.mp h
      exact ⟨inner, list, rfl, hlist, rfl⟩

theorem inOrder?_object {room : Nat} {fields : Fields} {json : Json}
    (h : inOrder? room (.object fields) = some json) :
    ∃ inner list, room = inner + 1 ∧ inOrderFields? inner [] fields = some list ∧
      json = .object list := by
  cases room with
  | zero => cases h
  | succ inner =>
      obtain ⟨list, hlist, rfl⟩ := Option.map_eq_some_iff.mp h
      exact ⟨inner, list, rfl, hlist, rfl⟩

/-- A list of items has a tree when each item has one. -/
theorem inOrderItems?_item {room : Nat} {d : Draft} {rest : Items} {list : List Json}
    (h : inOrderItems? room (.item d rest) = some list) :
    ∃ json others, list = json :: others ∧ inOrder? room d = some json ∧
      inOrderItems? room rest = some others := by
  rw [inOrderItems?] at h
  split at h
  · cases h
  · rename_i json hjson
    obtain ⟨others, hothers, rfl⟩ := Option.map_eq_some_iff.mp h
    exact ⟨json, others, rfl, hjson, hothers⟩

/-- A field with a name is set to its tree, and the fields behind it are set after it. -/
theorem inOrderFields?_field {room : Nat} {sofar list : List (String × Json)} {name : String}
    {d : Draft} {rest : Fields}
    (h : inOrderFields? room sofar (.field (some name) d rest) = some list) :
    ∃ json, inOrder? room d = some json ∧
      inOrderFields? room (setField name json sofar) rest = some list := by
  cases hjson : inOrder? room d with
  | none => simp [inOrderFields?, hjson] at h
  | some json => exact ⟨json, rfl, by simpa only [inOrderFields?, hjson] using h⟩

mutual
theorem distinct_of_inOrder? {room : Nat} {d : Draft} {json : Json}
    (h : inOrder? room d = some json) : json.Distinct := by
  cases d with
  | broken => cases h
  | null => cases h; trivial
  | bool b => cases h; trivial
  | number amount =>
      obtain ⟨_, _, rfl⟩ := Option.map_eq_some_iff.mp h
      trivial
  | text s =>
      obtain ⟨_, _, rfl⟩ := Option.map_eq_some_iff.mp h
      trivial
  | array items =>
      obtain ⟨inner, list, rfl, hlist, rfl⟩ := inOrder?_array h
      exact distinctItems_of_inOrderItems? hlist
  | object fields =>
      obtain ⟨inner, list, rfl, hlist, rfl⟩ := inOrder?_object h
      have hnone : (([] : List (String × Json)).map Prod.fst).Nodup := List.nodup_nil
      exact distinct_of_inOrderFields? hnone trivial hlist

theorem distinctItems_of_inOrderItems? {room : Nat} {items : Items} {list : List Json}
    (h : inOrderItems? room items = some list) : DistinctItems list := by
  cases items with
  | ended => cases h; trivial
  | broken => cases h
  | item value rest =>
      obtain ⟨json, others, rfl, hjson, hothers⟩ := inOrderItems?_item h
      exact ⟨distinct_of_inOrder? hjson, distinctItems_of_inOrderItems? hothers⟩

theorem distinct_of_inOrderFields? {room : Nat} {sofar list : List (String × Json)}
    {fields : Fields} (hnames : (sofar.map Prod.fst).Nodup) (hsofar : DistinctFields sofar)
    (h : inOrderFields? room sofar fields = some list) : (object list).Distinct := by
  cases fields with
  | ended => cases h; exact ⟨hnames, hsofar⟩
  | broken => cases h
  | field name value rest =>
      cases name with
      | none => cases h
      | some s =>
          obtain ⟨json, hjson, hrest⟩ := inOrderFields?_field h
          exact distinct_of_inOrderFields? (nodup_setField hnames s json)
            (distinctFields_setField hsofar s (distinct_of_inOrder? hjson)) hrest
end

theorem distinct_of_readInOrder? {text : String} {json : Json}
    (h : readInOrder? text = some json) : json.Distinct := by
  unfold readInOrder? at h
  dsimp only at h
  split at h
  · cases h
  · exact distinct_of_inOrder? h

/-! ## Sorting by name -/

/-- Fields in the order of their names. -/
def byName {α : Type} (a b : String × α) : Prop := a.1 ≤ b.1

instance {α : Type} : DecidableRel (@byName α) := fun a b =>
  inferInstanceAs (Decidable (a.1 ≤ b.1))

instance {α : Type} : Std.Total (@byName α) := ⟨fun a b => le_total a.1 b.1⟩

instance {α : Type} : IsTrans (String × α) byName := ⟨fun _ _ _ => le_trans⟩

theorem insertField_eq_orderedInsert {name : String} {fields : List (String × Json)}
    (h : name ∉ fields.map Prod.fst) (value : Json) :
    insertField name value fields = fields.orderedInsert byName (name, value) := by
  induction fields with
  | nil => rfl
  | cons field rest ih =>
      obtain ⟨other, kept⟩ := field
      rw [List.map_cons, List.mem_cons, not_or] at h
      rw [insertField, if_neg h.1, List.orderedInsert_cons, ih h.2]
      by_cases hlt : name < other
      · have hle : byName (name, value) (other, kept) := hlt.le
        rw [if_pos hlt, if_pos hle]
      · have hle : ¬ byName (name, value) (other, kept) := fun hle => hlt (lt_of_le_of_ne hle h.1)
        rw [if_neg hlt, if_neg hle]

/-- Where no name stands twice, sorting is the sorting of fields by their names. -/
theorem sortedFields_eq_insertionSort {fields : List (String × Json)}
    (h : (fields.map Prod.fst).Nodup) :
    sortedFields fields = (fields.map (Prod.map id sorted)).insertionSort byName := by
  induction fields with
  | nil => rfl
  | cons field rest ih =>
      obtain ⟨name, value⟩ := field
      rw [List.map_cons, List.nodup_cons] at h
      have hperm := (List.perm_insertionSort byName (rest.map (Prod.map id sorted))).map Prod.fst
      have hnew : name ∉ (sortedFields rest).map Prod.fst := by
        rw [ih h.2, hperm.mem_iff, List.map_map]
        exact h.1
      rw [sortedFields, insertField_eq_orderedInsert hnew, ih h.2]
      rfl

/-- Sorting loses no name and adds none. -/
theorem names_sortedFields_perm {fields : List (String × Json)}
    (h : (fields.map Prod.fst).Nodup) :
    ((sortedFields fields).map Prod.fst).Perm (fields.map Prod.fst) := by
  rw [sortedFields_eq_insertionSort h]
  have hperm := (List.perm_insertionSort byName (fields.map (Prod.map id sorted))).map Prod.fst
  rwa [List.map_map] at hperm

end Json
end SolidScript
