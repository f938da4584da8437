import Mathlib.Tactic
import SolidScript.Proofs.Result
import SolidScript.Saved.Value

/-!
# What parameters hold

Whatever way parameters are built, names are set to values, one after the other.  This history
determines the parameters (`Params.Holds`): a name stands where it was set first and has the value
that was set last.  A building (`Params.Building`) is told by its history, in which merging puts the
history of the other parameters behind that of the first ones and reading an object sets the names
of its fields in their order.

Parameters with the same names in the same order and the same values are equal, so the laws of
merging are laws of histories that are put together.
-/

namespace SolidScript

/-! ## Names without repeats -/

theorem nodup_eraseDups (names : List String) : names.eraseDups.Nodup := by
  match names with
  | [] => exact List.nodup_nil
  | name :: rest =>
      rw [List.eraseDups_cons, List.nodup_cons]
      exact ⟨by simp, nodup_eraseDups _⟩
termination_by names.length
decreasing_by exact Nat.lt_succ_of_le (List.length_filter_le _ _)

theorem eraseDups_of_nodup {names : List String} (h : names.Nodup) : names.eraseDups = names := by
  induction names with
  | nil => rfl
  | cons name rest ih =>
      obtain ⟨hname, hrest⟩ := List.nodup_cons.mp h
      have hkeep : rest.filter (fun other => !other == name) = rest :=
        List.filter_eq_self.mpr fun other hother => by
          simpa using ne_of_mem_of_not_mem hother hname
      rw [List.eraseDups_cons, hkeep, ih hrest]

/-- Repeats may be dropped before or after a choice of names. -/
theorem eraseDups_filter (keep : String → Bool) (names : List String) :
    (names.filter keep).eraseDups = names.eraseDups.filter keep := by
  match names with
  | [] => rfl
  | name :: rest =>
      have htail := eraseDups_filter keep (rest.filter fun other => !other == name)
      rw [List.eraseDups_cons, List.filter_cons, List.filter_cons, ← htail]
      cases hname : keep name with
      | true => rw [if_pos rfl, if_pos rfl, List.eraseDups_cons, List.filter_comm]
      | false =>
          -- the choice drops every repeat of this name by itself
          rw [if_neg Bool.false_ne_true, if_neg Bool.false_ne_true, List.filter_filter]
          congr 2
          funext other
          by_cases hother : other = name
          · rw [hother, hname, Bool.false_and]
          · simp [hother]
termination_by names.length
decreasing_by exact Nat.lt_succ_of_le (List.length_filter_le _ _)

/-- Behind other names, names add those that do not stand there yet, each once. -/
theorem eraseDups_append_eq (front names : List String) :
    (front ++ names).eraseDups =
      front.eraseDups ++ names.eraseDups.filter fun name => !front.contains name := by
  rw [List.eraseDups_append, List.removeAll, eraseDups_filter]

theorem eraseDups_append_eraseDups (front names : List String) :
    (front ++ names.eraseDups).eraseDups = (front ++ names).eraseDups := by
  rw [eraseDups_append_eq, eraseDups_append_eq, eraseDups_of_nodup (nodup_eraseDups names)]

/-! ## Histories -/

/-- The value to which a name was set last. -/
def lastSet? (name : String) (sets : List (String × Value)) : Option Value :=
  sets.reverse.lookup name

theorem lookup_cons_eq_ite {α : Type} (name other : String) (value : α)
    (rest : List (String × α)) : ((other, value) :: rest).lookup name =
      if name = other then some value else rest.lookup name := by
  rw [List.lookup_cons]
  by_cases h : name = other
  · rw [if_pos h, beq_iff_eq.mpr h]
  · rw [if_neg h, beq_false_of_ne h]

theorem isSome_lookup_iff {α : Type} {name : String} {entries : List (String × α)} :
    (entries.lookup name).isSome ↔ name ∈ entries.map Prod.fst := by
  rw [List.lookup_isSome_iff, List.mem_map]
  simp only [beq_iff_eq, eq_comm (a := name)]

theorem lookup_eq_none {α : Type} {name : String} {entries : List (String × α)}
    (h : name ∉ entries.map Prod.fst) : entries.lookup name = none :=
  Option.not_isSome_iff_eq_none.mp (mt isSome_lookup_iff.mp h)

theorem isSome_lastSet?_iff {name : String} {sets : List (String × Value)} :
    (lastSet? name sets).isSome ↔ name ∈ sets.map Prod.fst := by
  rw [lastSet?, isSome_lookup_iff, List.map_reverse, List.mem_reverse]

theorem lastSet?_append (name : String) (xs ys : List (String × Value)) :
    lastSet? name (xs ++ ys) = (lastSet? name ys).or (lastSet? name xs) := by
  rw [lastSet?, List.reverse_append, List.lookup_append]
  rfl

theorem lastSet?_singleton (name other : String) (value : Value) :
    lastSet? name [(other, value)] = if name = other then some value else none :=
  lookup_cons_eq_ite name other value []

/-- Where no name is set twice, the first time is the last. -/
theorem lastSet?_eq_lookup {sets : List (String × Value)} (h : (sets.map Prod.fst).Nodup)
    (name : String) : lastSet? name sets = sets.lookup name := by
  induction sets with
  | nil => rfl
  | cons entry rest ih =>
      obtain ⟨other, value⟩ := entry
      obtain ⟨hother, hrest⟩ := List.nodup_cons.mp h
      have hsplit := lastSet?_append name [(other, value)] rest
      rw [List.singleton_append, lastSet?_singleton, ih hrest] at hsplit
      rw [hsplit, lookup_cons_eq_ite]
      by_cases hname : name = other
      · rw [hname, lookup_eq_none hother, if_pos rfl, Option.none_or]
      · rw [if_neg hname, if_neg hname, Option.or_none]

/-! ## Entries -/

theorem lookup_eq_of_mem {entries : List (String × Value)} (h : (entries.map Prod.fst).Nodup)
    {entry : String × Value} (hmem : entry ∈ entries) : entries.lookup entry.1 = some entry.2 := by
  induction entries with
  | nil => cases hmem
  | cons first rest ih =>
      obtain ⟨hfirst, hrest⟩ := List.nodup_cons.mp h
      rw [lookup_cons_eq_ite]
      rcases List.mem_cons.mp hmem with rfl | hmem
      · exact if_pos rfl
      · have hne : entry.1 ≠ first.1 := ne_of_mem_of_not_mem (List.mem_map_of_mem hmem) hfirst
        rw [if_neg hne, ih hrest hmem]

theorem setEntry_of_notMem {name : String} {entries : List (String × Value)}
    (h : name ∉ entries.map Prod.fst) (value : Value) :
    setEntry name value entries = entries ++ [(name, value)] := by
  induction entries with
  | nil => rfl
  | cons entry rest ih =>
      rw [List.map_cons, List.mem_cons, not_or] at h
      rw [setEntry, if_neg (Ne.symm h.1), ih h.2, List.cons_append]

/-- A name that is there gets another value where it stands. -/
theorem setEntry_of_mem {name : String} {entries : List (String × Value)}
    (hdistinct : (entries.map Prod.fst).Nodup) (h : name ∈ entries.map Prod.fst) (value : Value) :
    setEntry name value entries =
      entries.map fun entry => if entry.1 = name then (name, value) else entry := by
  induction entries with
  | nil => cases h
  | cons entry rest ih =>
      obtain ⟨hentry, hrest⟩ := List.nodup_cons.mp hdistinct
      rw [setEntry, List.map_cons]
      by_cases hname : entry.1 = name
      · -- the name stands in no other entry, so the others stay as they are
        have hkeep : ∀ other ∈ rest, (if other.1 = name then (name, value) else other) = other := by
          intro other hother
          refine if_neg fun heq => hentry ?_
          rw [hname, ← heq]
          exact List.mem_map_of_mem hother
        rw [if_pos hname, if_pos hname, List.map_congr_left hkeep, List.map_id']
      · have hmem : name ∈ rest.map Prod.fst :=
          (List.mem_cons.mp h).resolve_left (Ne.symm hname)
        rw [if_neg hname, if_neg hname, ih hrest hmem]

theorem lookup_setEntry (name other : String) (value : Value) (entries : List (String × Value)) :
    (setEntry name value entries).lookup other =
      if other = name then some value else entries.lookup other := by
  induction entries with
  | nil => exact lookup_cons_eq_ite other name value []
  | cons entry rest ih =>
      obtain ⟨kept, old⟩ := entry
      rw [setEntry, lookup_cons_eq_ite]
      by_cases hkept : kept = name
      · rw [if_pos hkept, lookup_cons_eq_ite, hkept]
        split <;> rfl
      · rw [if_neg hkept, lookup_cons_eq_ite, ih]
        by_cases hother : other = name
        · rw [if_pos hother, if_pos hother, if_neg (hother ▸ Ne.symm hkept)]
        · rw [if_neg hother, if_neg hother]

/-! ## Refusals -/

theorem Json.Draft.toOption_refuse {α : Type} (d : Draft) (wanted : String) :
    (d.refuse wanted : ReadResult α).toOption = none := by
  rw [Draft.refuse]
  cases d.found <;> rfl

theorem Json.Draft.refuse_ne_ok {α : Type} (d : Draft) (wanted : String) (a : α) :
    (d.refuse wanted : ReadResult α) ≠ .ok a := by
  intro h
  have hnone : (d.refuse wanted : ReadResult α).toOption = none := d.toOption_refuse wanted
  rw [toOption_eq_some_iff.mpr h] at hnone
  cases hnone

namespace Params

/-- The names in their order. -/
def names (params : Params) : List String := params.entries.map Prod.fst

/-- The parameters are what a history of sets leaves behind. -/
structure Holds (params : Params) (sets : List (String × Value)) : Prop where
  /-- Every name stands once. -/
  distinct : params.names.Nodup
  /-- The names stand in the order in which they were first set. -/
  order : params.names = (sets.map Prod.fst).eraseDups
  /-- A name has the value that was set last, and none when it was never set. -/
  value (name : String) : params.get? name = lastSet? name sets

theorem get?_eq_lookup (params : Params) (name : String) :
    params.get? name = params.entries.lookup name := by
  rw [get?]
  induction params.entries with
  | nil => rfl
  | cons entry rest ih =>
      rw [List.find?_cons, List.lookup_cons, Bool.beq_comm]
      cases name == entry.1 with
      | true => rfl
      | false => exact ih

/-- The entries are what the names and their values say. -/
theorem entries_eq_map (params : Params) :
    params.entries = params.names.map fun name => (name, (params.get? name).getD .undef) := by
  have hentry : ∀ entry ∈ params.entries,
      (entry.1, (params.get? entry.1).getD .undef) = entry := by
    intro entry hmem
    rw [get?_eq_lookup, lookup_eq_of_mem params.distinct hmem]
    rfl
  rw [names, List.map_map]
  exact ((List.map_congr_left hentry).trans (List.map_id' _)).symm

theorem ext_get? {a b : Params} (hnames : a.names = b.names)
    (hvalues : ∀ name, a.get? name = b.get? name) : a = b := by
  apply Params.ext
  rw [entries_eq_map a, entries_eq_map b, hnames]
  simp only [hvalues]

/-- A history leaves only one thing behind. -/
theorem Holds.unique {a b : Params} {sets : List (String × Value)} (ha : a.Holds sets)
    (hb : b.Holds sets) : a = b :=
  ext_get? (ha.order.trans hb.order.symm) fun name => (ha.value name).trans (hb.value name).symm

/-! ## What each operation adds to the history -/

theorem holds_empty : empty.Holds [] := ⟨List.nodup_nil, rfl, fun _ => rfl⟩

/-- One more set is one more entry of the history. -/
theorem Holds.set {params : Params} {sets : List (String × Value)} (h : params.Holds sets)
    (name : String) (value : Value) :
    (params.set name value).Holds (sets ++ [(name, value)]) where
  distinct := (params.set name value).distinct
  order := by
    have hnames : (params.set name value).names =
        if name ∈ params.names then params.names else params.names ++ [name] :=
      names_setEntry name value params.entries
    have hmem : (sets.map Prod.fst).contains name = decide (name ∈ params.names) := by
      rw [List.contains_eq_mem, h.order]
      exact decide_eq_decide.mpr List.mem_eraseDups.symm
    have hone : ([(name, value)].map Prod.fst).eraseDups = [name] := rfl
    rw [hnames, List.map_append, eraseDups_append_eq, ← h.order, hone, List.filter_cons, hmem]
    by_cases hname : name ∈ params.names
    · simp [hname]
    · simp [hname]
  value other := by
    rw [get?_eq_lookup, lastSet?_append, lastSet?_singleton, ← h.value, get?_eq_lookup]
    refine (lookup_setEntry name other value params.entries).trans ?_
    split <;> simp

theorem Holds.setAll {params : Params} {sets : List (String × Value)} (h : params.Holds sets)
    (more : List (String × Value)) : (params.setAll more).Holds (sets ++ more) := by
  induction more generalizing params sets with
  | nil => rwa [List.append_nil]
  | cons entry rest ih =>
      have hrest := ih (h.set entry.1 entry.2)
      rwa [List.append_assoc, List.singleton_append] at hrest

theorem holds_ofList (sets : List (String × Value)) : (ofList sets).Holds sets :=
  holds_empty.setAll sets

/-- Entries are a history of their own. -/
theorem holds_entries (params : Params) : params.Holds params.entries where
  distinct := params.distinct
  order := (eraseDups_of_nodup params.distinct).symm
  value name := by rw [get?_eq_lookup, lastSet?_eq_lookup params.distinct]

/-- Merging puts one history behind another, though only what the second one left behind is set. -/
theorem Holds.merge {a b : Params} {xs ys : List (String × Value)} (ha : a.Holds xs)
    (hb : b.Holds ys) : (a.merge b).Holds (xs ++ ys) where
  distinct := (a.merge b).distinct
  order := by
    have hmerge := (ha.setAll b.entries).order
    have hnames : b.entries.map Prod.fst = (ys.map Prod.fst).eraseDups := hb.order
    rw [List.map_append, hnames, eraseDups_append_eraseDups, ← List.map_append] at hmerge
    exact hmerge
  value name := by
    have hmerge := (ha.setAll b.entries).value name
    rw [lastSet?_append, ← (holds_entries b).value, hb.value, ← lastSet?_append] at hmerge
    exact hmerge

theorem merge_assoc (a b c : Params) : (a.merge b).merge c = a.merge (b.merge c) := by
  have hleft := ((holds_entries a).merge (holds_entries b)).merge (holds_entries c)
  have hright := (holds_entries a).merge ((holds_entries b).merge (holds_entries c))
  rw [← List.append_assoc] at hright
  exact hleft.unique hright

theorem empty_merge (params : Params) : empty.merge params = params :=
  (holds_empty.merge (holds_entries params)).unique (holds_entries params)

theorem merge_empty (params : Params) : params.merge empty = params := rfl

/-! ## Reading -/

/-- What the fields of an object in a text set, if all of them can be read. -/
def fieldSets? (room : Nat) : Json.Fields → Option (List (String × Value))
  | .ended => some []
  | .broken => none
  | .field none _ _ => none
  | .field (some name) d rest => do
    let value ← (Value.ofDraft room d).toOption
    let sets ← fieldSets? room rest
    some ((name, value) :: sets)

/-- What an object in a text sets.  The arrays in it may nest one level less than the object. -/
def objectSets? : Json.Draft → Option (List (String × Value))
  | .object fields => fieldSets? (Json.depthLimit - 1) fields
  | _ => none

/-- What the object that a text consists of sets, in the order of the text. -/
def textSets? (text : String) : Option (List (String × Value)) :=
  let reading := Json.Reading.ofText text
  if reading.trailing then none else objectSets? reading.root

/-- What the fields of an object in a tree set. -/
def treeFieldSets? : List (String × Json) → Option (List (String × Value))
  | [] => some []
  | (name, json) :: rest => do
    let value ← Value.ofJson? json
    let sets ← treeFieldSets? rest
    some ((name, value) :: sets)

/-- What the object that a tree consists of sets. -/
def treeSets? : Json → Option (List (String × Value))
  | .object fields => treeFieldSets? fields
  | _ => none

theorem toOption_addFields (room : Nat) (params : Params) (fields : Json.Fields) :
    (addFields room params fields).toOption = (fieldSets? room fields).map params.setAll := by
  match fields with
  | .ended => rfl
  | .broken => rfl
  | .field none d rest => rfl
  | .field (some name) d rest =>
      rw [addFields, fieldSets?]
      cases Value.ofDraft room d with
      | error e => rfl
      | ok value =>
          refine (toOption_addFields room (params.set name value) rest).trans ?_
          cases fieldSets? room rest <;> rfl

theorem toOption_addJson (params : Params) (fields : List (String × Json)) :
    (addJson params fields).toOption = (treeFieldSets? fields).map params.setAll := by
  induction fields generalizing params with
  | nil => rfl
  | cons field rest ih =>
      obtain ⟨name, json⟩ := field
      rw [addJson, treeFieldSets?]
      cases Value.ofJson? json with
      | none => rfl
      | some value =>
          refine (ih (params.set name value)).trans ?_
          cases treeFieldSets? rest <;> rfl

theorem toOption_ofDraft (d : Json.Draft) :
    (ofDraft Json.depthLimit d).toOption = (objectSets? d).map ofList := by
  cases d with
  | object fields => exact toOption_addFields (Json.depthLimit - 1) empty fields
  | broken => exact Json.Draft.toOption_refuse .broken wanted
  | null => exact Json.Draft.toOption_refuse .null wanted
  | bool b => exact Json.Draft.toOption_refuse (.bool b) wanted
  | number amount => exact Json.Draft.toOption_refuse (.number amount) wanted
  | text s => exact Json.Draft.toOption_refuse (.text s) wanted
  | array items => exact Json.Draft.toOption_refuse (.array items) wanted

theorem toOption_read (text : String) : (read text).toOption = (textSets? text).map ofList := by
  unfold read Json.readText textSets?
  dsimp only
  have hroot := toOption_ofDraft (Json.Reading.ofText text).root
  split
  · rename_i e he
    rw [he] at hroot
    split
    · rfl
    · exact hroot
  · rename_i params hparams
    rw [hparams] at hroot
    split
    · rfl
    · exact hroot

theorem toOption_ofJson (json : Json) : (ofJson json).toOption = (treeSets? json).map ofList := by
  cases json with
  | object fields => exact toOption_addJson empty fields
  | null => rfl
  | bool b => rfl
  | number amount => rfl
  | text s => rfl
  | array items => rfl

/-! ## Buildings -/

/-- A way of building parameters. -/
inductive Building where
  | new
  | set (before : Building) (name : String) (value : Value)
  | merge (before other : Building)
  /-- Sets entries one after the other, from no parameters. -/
  | ofList (entries : List (String × Value))
  /-- Reads the object that a text consists of. -/
  | read (text : String)
  /-- Takes over the object that a JSON tree consists of. -/
  | ofJson (json : Json)

namespace Building

/-- The parameters that are built, unless something cannot be read. -/
def build? : Building → Option Params
  | new => some empty
  | set before name value => before.build?.map (·.set name value)
  | merge before other => do
    let a ← before.build?
    let b ← other.build?
    some (a.merge b)
  | ofList entries => some (Params.ofList entries)
  | read text => (Params.read text).toOption
  | ofJson json => (Params.ofJson json).toOption

/-- The history of a building: what is set in it, one name after the other. -/
def sets? : Building → Option (List (String × Value))
  | new => some []
  | set before name value => before.sets?.map (· ++ [(name, value)])
  | merge before other => do
    let xs ← before.sets?
    let ys ← other.sets?
    some (xs ++ ys)
  | ofList entries => some entries
  | read text => textSets? text
  | ofJson json => treeSets? json

end Building

/-- What is read holds what the text sets. -/
theorem rel_of_eq_map {params : Option Params} {sets : Option (List (String × Value))}
    (h : params = sets.map Params.ofList) : Option.Rel Holds params sets := by
  cases sets with
  | none => exact h ▸ .none
  | some sets => exact h ▸ .some (holds_ofList sets)

/-- A building gives parameters exactly when its history is known, and they are what the history
leaves behind. -/
theorem rel_build? (b : Building) : Option.Rel Holds b.build? b.sets? := by
  induction b with
  | new => exact .some holds_empty
  | set before name value ih =>
      rw [Building.build?, Building.sets?]
      generalize before.build? = built, before.sets? = sets at ih
      cases ih with
      | some h => exact .some (h.set name value)
      | none => exact .none
  | merge before other ihBefore ihOther =>
      rw [Building.build?, Building.sets?]
      generalize before.build? = built, before.sets? = sets at ihBefore
      generalize other.build? = builtOther, other.sets? = setsOther at ihOther
      cases ihBefore with
      | none => exact .none
      | some ha =>
          cases ihOther with
          | none => exact .none
          | some hb => exact .some (ha.merge hb)
  | ofList entries => exact .some (holds_ofList entries)
  | read text => exact rel_of_eq_map (toOption_read text)
  | ofJson json => exact rel_of_eq_map (toOption_ofJson json)

/-- However parameters are built, they are what the history of the building leaves behind: distinct
names in the order in which they were first set, each with the value that was set last.  Setting a
name changes no other entry, merging is associative, no parameters are neutral on both sides of it,
and merging sets the entries of the other parameters one by one. -/
theorem built_holds_history :
    (∀ b : Building, Option.Rel Holds b.build? b.sets?) ∧
    (∀ (params : Params) (name : String) (value : Value), (params.set name value).entries =
      if name ∈ params.names then
        params.entries.map fun entry => if entry.1 = name then (name, value) else entry
      else params.entries ++ [(name, value)]) ∧
    (∀ a b c : Params, (a.merge b).merge c = a.merge (b.merge c)) ∧
    (∀ params : Params, empty.merge params = params ∧ params.merge empty = params) ∧
    ∀ a b : Params, a.merge b =
      b.entries.foldl (fun params entry => params.set entry.1 entry.2) a := by
  refine ⟨rel_build?, fun params name value => ?_, merge_assoc, fun params => ?_, fun a b => rfl⟩
  · split
    · exact setEntry_of_mem params.distinct ‹_› value
    · exact setEntry_of_notMem ‹_› value
  · exact ⟨empty_merge params, merge_empty params⟩

end Params
end SolidScript
