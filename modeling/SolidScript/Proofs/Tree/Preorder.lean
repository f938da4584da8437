import SolidScript.Tree.References

/-!
# The nodes of a tree in order

`Node.preorder` lists a tree from the top: a node stands before the nodes inside it, and these stand
in their own order.  Collecting references keeps from this list the first reference of every path
(`Reference.collect_eq_firstOfEachPath`).
-/

namespace SolidScript
namespace Node

mutual
/-- A node and all nodes inside it, from the top. -/
def preorder : Node → List Node
  | composite frame nodes => composite frame nodes :: preorderAll nodes
  | primitive shape params => [primitive shape params]
  | call name params => [call name params]
  | reference ref => [reference ref]
  | comment text => [comment text]

/-- All nodes of some trees, one tree after the other. -/
def preorderAll : List Node → List Node
  | [] => []
  | node :: rest => preorder node ++ preorderAll rest
end

/-- The reference that a node is. -/
def reference? : Node → Option Reference
  | reference ref => some ref
  | _ => none

end Node

namespace Reference

/-- The references of some trees from the top, repeated paths included. -/
def occurrences (roots : List Node) : List Reference :=
  (Node.preorderAll roots).filterMap Node.reference?

/-- The references whose path does not stand earlier in the list. -/
def firstOfEachPath : List Reference → List Reference
  | [] => []
  | ref :: rest => ref :: (firstOfEachPath rest).filter fun other => other.path != ref.path

/-- Adding references one by one keeps those with a new path. -/
theorem foldl_add (found references : List Reference) :
    references.foldl add found =
      found ++ (firstOfEachPath references).filter fun ref => !found.any (·.path == ref.path) := by
  induction references generalizing found with
  | nil => simp [firstOfEachPath]
  | cons ref rest ih =>
      rw [List.foldl_cons, firstOfEachPath, ih]
      unfold add
      by_cases hfound : found.any (·.path == ref.path) = true
      · -- the path is known, so the filter for known paths drops this reference and its repeats
        have hfilter : ∀ other : Reference,
            (!found.any (·.path == other.path) && other.path != ref.path) =
              !found.any (·.path == other.path) := by
          intro other
          by_cases hpath : other.path = ref.path
          · rw [hpath, hfound]
            rfl
          · rw [bne_iff_ne.mpr hpath, Bool.and_true]
        rw [if_pos hfound, List.filter_cons_of_neg (by simp [hfound]), List.filter_filter]
        simp only [hfilter]
      · -- a new path joins the known ones, which is the second filter
        rw [if_neg hfound, List.filter_cons_of_pos (by simp [hfound]), List.filter_filter,
          List.append_assoc, List.singleton_append]
        congr 3
        funext other
        rw [List.any_append, Bool.not_or]
        simp [bne, Bool.beq_comm]

mutual
/-- A walk through a tree adds its references in their order. -/
theorem addFrom_eq_foldl (found : List Reference) (node : Node) :
    addFrom found node = (node.preorder.filterMap Node.reference?).foldl add found := by
  cases node with
  | primitive shape params => rfl
  | call name params => rfl
  | composite frame nodes => exact addFromAll_eq_foldl found nodes
  | reference ref => rfl
  | comment text => rfl

theorem addFromAll_eq_foldl (found : List Reference) (nodes : List Node) :
    addFromAll found nodes = (occurrences nodes).foldl add found := by
  cases nodes with
  | nil => rfl
  | cons node rest =>
      rw [addFromAll, addFromAll_eq_foldl (addFrom found node) rest, addFrom_eq_foldl found node,
        occurrences, occurrences, Node.preorderAll, List.filterMap_append, List.foldl_append]
end

/-- The collected references are the first reference of every path, from the top. -/
theorem collect_eq_firstOfEachPath (roots : List Node) :
    collect roots = firstOfEachPath (occurrences roots) := by
  rw [collect, addFromAll_eq_foldl, foldl_add]
  simp

end Reference
end SolidScript
