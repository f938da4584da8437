import SolidScript.Tree.Value

/-!
# Parameters

The parameters of a call are named values in an order of their own: a name stands where it was first
set and holds the value that was set last.  No name occurs twice (`Params.distinct`).
-/

namespace SolidScript

/-- The entries after a name has been set: its value is replaced in place, and a new name goes to
the end. -/
def setEntry (name : String) (value : Value) : List (String × Value) → List (String × Value)
  | [] => [(name, value)]
  | entry :: rest =>
    if entry.1 = name then (name, value) :: rest else entry :: setEntry name value rest

theorem names_setEntry (name : String) (value : Value) (entries : List (String × Value)) :
    (setEntry name value entries).map Prod.fst =
      if name ∈ entries.map Prod.fst then entries.map Prod.fst
      else entries.map Prod.fst ++ [name] := by
  induction entries with
  | nil => simp [setEntry]
  | cons entry rest ih =>
    by_cases h : entry.1 = name
    · simp [setEntry, h]
    · have h' : ¬ name = entry.1 := fun e => h e.symm
      simp only [setEntry, if_neg h, List.map_cons, ih, List.mem_cons, h', false_or]
      split <;> simp

/-- Named values in order. -/
structure Params where
  entries : List (String × Value)
  /-- Every name stands once. -/
  distinct : (entries.map Prod.fst).Nodup

namespace Params

/-- No parameters. -/
def empty : Params := ⟨[], List.nodup_nil⟩

instance : Inhabited Params := ⟨empty⟩

@[ext] theorem ext {a b : Params} (h : a.entries = b.entries) : a = b := by
  cases a; cases b; cases h; rfl

/-- Sets a name: a name that is there keeps its place, a new one goes to the end. -/
def set (params : Params) (name : String) (value : Value) : Params :=
  ⟨setEntry name value params.entries, by
    rw [names_setEntry]
    split
    · exact params.distinct
    · rename_i h
      rw [List.nodup_append]
      refine ⟨params.distinct, by simp, ?_⟩
      intro a ha b hb
      simp only [List.mem_singleton] at hb
      exact fun e => h (hb ▸ e ▸ ha)⟩

/-- The value of a name. -/
def get? (params : Params) (name : String) : Option Value :=
  (params.entries.find? (·.1 == name)).map Prod.snd

/-- Sets one entry after the other. -/
def setAll (params : Params) (entries : List (String × Value)) : Params :=
  entries.foldl (fun p entry => p.set entry.1 entry.2) params

/-- The parameters after setting entries one after the other, from none. -/
def ofList (entries : List (String × Value)) : Params := empty.setAll entries

/-- Sets every entry of `other` in its order. -/
def merge (params other : Params) : Params := params.setAll other.entries

/-- How many names there are. -/
def size (params : Params) : Nat := params.entries.length

def isEmpty (params : Params) : Bool := params.entries.isEmpty

/-- Equality of entries in order, by `Value.equal`. -/
def equalEntries : List (String × Value) → List (String × Value) → Bool
  | [], [] => true
  | (k, v) :: rest, (k', v') :: rest' => k == k' && v.equal v' && equalEntries rest rest'
  | _, _ => false

/-- Equality of parameters: the same names in the same order with equal values. -/
def equal (a b : Params) : Bool := equalEntries a.entries b.entries

end Params
end SolidScript
