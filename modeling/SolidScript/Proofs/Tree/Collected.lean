import Mathlib.Tactic
import SolidScript.Proofs.Tree.Preorder

/-!
# What is collected

The collected references of some trees are the references from the top without those whose path
stands earlier (`Reference.withoutRepeats`).  The walk that collects them knows only what it has
found so far, so its law is stated for any references that were found before; that is also what
gives the law for trees behind other trees.
-/

namespace SolidScript
namespace Reference

/-- Does one of the references have this path? -/
def hasPath (references : List Reference) (path : String) : Bool :=
  references.any (·.path == path)

/-- The references of a list at whose place no reference before them has the same path. -/
def withoutRepeats (references : List Reference) : List Reference :=
  (references.zipIdx.filter fun (ref, place) => !hasPath (references.take place) ref.path).map
    Prod.fst

theorem hasPath_append (xs ys : List Reference) (path : String) :
    hasPath (xs ++ ys) path = (hasPath xs path || hasPath ys path) := List.any_append

theorem hasPath_singleton (ref : Reference) (path : String) :
    hasPath [ref] path = (ref.path == path) := by
  simp [hasPath]

/-! ## The first reference of every path -/

/-- What is left of a list behind another one when both are gone through from the left. -/
theorem filter_firstOfEachPath (found references : List Reference) :
    (firstOfEachPath references).filter (fun ref => !hasPath found ref.path) =
      ((references.zipIdx found.length).filter fun (ref, place) =>
        !hasPath ((found ++ references).take place) ref.path).map Prod.fst := by
  induction references generalizing found with
  | nil => rfl
  | cons ref rest ih =>
      have htail := ih (found ++ [ref])
      rw [List.length_append, List.length_singleton, List.append_assoc, List.singleton_append]
        at htail
      -- behind the first reference its path counts as found
      have hfilter : (firstOfEachPath rest).filter (fun other =>
            !hasPath found other.path && other.path != ref.path) =
          (firstOfEachPath rest).filter fun other => !hasPath (found ++ [ref]) other.path := by
        congr 1
        funext other
        rw [hasPath_append, hasPath_singleton, Bool.not_or, bne, Bool.beq_comm]
      have htake : (found ++ ref :: rest).take found.length = found := List.take_left
      rw [firstOfEachPath, List.zipIdx_cons, List.filter_cons, List.filter_cons,
        List.filter_filter, hfilter, htail]
      simp only [htake]
      cases hasPath found ref.path <;> rfl

theorem firstOfEachPath_eq_withoutRepeats (references : List Reference) :
    firstOfEachPath references = withoutRepeats references := by
  have hall : (firstOfEachPath references).filter (fun ref => !hasPath [] ref.path) =
      firstOfEachPath references := List.filter_eq_self.mpr fun _ _ => rfl
  rw [← hall]
  exact filter_firstOfEachPath [] references

theorem firstOfEachPath_sublist (references : List Reference) :
    (firstOfEachPath references).Sublist references := by
  induction references with
  | nil => exact List.Sublist.slnil
  | cons ref rest ih => exact (List.filter_sublist.trans ih).cons_cons ref

theorem nodup_paths_firstOfEachPath (references : List Reference) :
    ((firstOfEachPath references).map Reference.path).Nodup := by
  induction references with
  | nil => exact List.nodup_nil
  | cons ref rest ih =>
      rw [firstOfEachPath, List.map_cons, List.nodup_cons]
      constructor
      · intro h
        obtain ⟨other, hother, hpath⟩ := List.mem_map.mp h
        have hne := (List.mem_filter.mp hother).2
        simp [hpath] at hne
      · exact ih.sublist (List.filter_sublist.map Reference.path)

/-- What is kept is the first reference of its path. -/
theorem mem_firstOfEachPath_iff (references : List Reference) (ref : Reference) :
    ref ∈ firstOfEachPath references ↔
      references.find? (·.path == ref.path) = some ref := by
  induction references with
  | nil => simp [firstOfEachPath]
  | cons first rest ih =>
      rw [firstOfEachPath, List.mem_cons, List.mem_filter, ih]
      by_cases hpath : first.path = ref.path
      · rw [List.find?_cons_of_pos (by simp [hpath]), Option.some.injEq]
        constructor
        · rintro (h | ⟨-, hne⟩)
          · exact h.symm
          · simp [hpath] at hne
        · exact fun h => Or.inl h.symm
      · rw [List.find?_cons_of_neg (by simp [hpath])]
        constructor
        · rintro (rfl | ⟨h, -⟩)
          · exact absurd rfl hpath
          · exact h
        · intro h
          exact Or.inr ⟨h, by simpa using Ne.symm hpath⟩

theorem mem_paths_firstOfEachPath_iff (references : List Reference) (path : String) :
    path ∈ (firstOfEachPath references).map Reference.path ↔
      path ∈ references.map Reference.path := by
  constructor
  · exact fun h => ((firstOfEachPath_sublist references).map Reference.path).mem h
  · intro h
    obtain ⟨ref, href, rfl⟩ := List.mem_map.mp h
    have hsome : (references.find? (·.path == ref.path)).isSome = true :=
      List.find?_isSome.mpr ⟨ref, href, beq_self_eq_true ref.path⟩
    obtain ⟨first, hfirst⟩ := Option.isSome_iff_exists.mp hsome
    have hpath : first.path = ref.path := by simpa using List.find?_some hfirst
    rw [← hpath] at hfirst ⊢
    exact List.mem_map_of_mem ((mem_firstOfEachPath_iff references first).mpr hfirst)

theorem firstOfEachPath_append (xs ys : List Reference) :
    firstOfEachPath (xs ++ ys) = firstOfEachPath xs ++
      (firstOfEachPath ys).filter fun ref => !hasPath (firstOfEachPath xs) ref.path := by
  have hone := foldl_add [] (xs ++ ys)
  have htwo := foldl_add (firstOfEachPath xs) ys
  have hfirst := foldl_add [] xs
  simp only [List.any_nil, Bool.not_false, List.filter_true, List.nil_append] at hone hfirst
  rw [← hone, List.foldl_append, hfirst, htwo]
  rfl

/-! ## Trees -/

theorem occurrences_append (xs ys : List Node) :
    occurrences (xs ++ ys) = occurrences xs ++ occurrences ys := by
  induction xs with
  | nil => rfl
  | cons node rest ih =>
      simp only [occurrences] at ih ⊢
      rw [List.cons_append, Node.preorderAll, Node.preorderAll, List.filterMap_append, ih,
        List.filterMap_append, List.append_assoc]

/-- A composite has the references of what is in it. -/
theorem occurrences_composite (frame : Frame) (nodes : List Node) :
    occurrences [.composite frame nodes] = occurrences nodes := by
  rw [occurrences, occurrences, Node.preorderAll, Node.preorder, Node.preorderAll, List.append_nil]
  rfl

/-- The collected references are the references from the top without those whose path stands
earlier: every path of the trees stands once, with the reference that has it first, in the order of
these first references.  Behind other trees a list of trees adds what it has itself, less the paths
that are there already, and a composite around consecutive trees changes nothing. -/
theorem collect_eq_withoutRepeats :
    (∀ roots, collect roots = withoutRepeats (occurrences roots) ∧
      (collect roots).Sublist (occurrences roots) ∧
      ((collect roots).map Reference.path).Nodup ∧
      (∀ path, path ∈ (collect roots).map Reference.path ↔
        path ∈ (occurrences roots).map Reference.path) ∧
      ∀ ref, ref ∈ collect roots ↔
        (occurrences roots).find? (·.path == ref.path) = some ref) ∧
    (∀ xs ys, collect (xs ++ ys) =
      collect xs ++ (collect ys).filter fun ref => !hasPath (collect xs) ref.path) ∧
    ∀ before inner after frame, collect (before ++ .composite frame inner :: after) =
      collect (before ++ inner ++ after) := by
  refine ⟨fun roots => ?_, fun xs ys => ?_, fun before inner after frame => ?_⟩
  · rw [collect_eq_firstOfEachPath]
    exact ⟨firstOfEachPath_eq_withoutRepeats _, firstOfEachPath_sublist _,
      nodup_paths_firstOfEachPath _, mem_paths_firstOfEachPath_iff _, mem_firstOfEachPath_iff _⟩
  · simp only [collect_eq_firstOfEachPath, occurrences_append]
    exact firstOfEachPath_append _ _
  · have hwrapped := occurrences_append [.composite frame inner] after
    rw [List.singleton_append, occurrences_composite] at hwrapped
    rw [collect_eq_firstOfEachPath, collect_eq_firstOfEachPath, occurrences_append, hwrapped,
      occurrences_append, occurrences_append, List.append_assoc]

end Reference
end SolidScript
