import SolidScript.Proofs.Script.Token

/-!
# Bracketed groups

The second stage of reading a script: tokens between matching brackets become groups.  Grouping
undoes writing a list of trees as its tokens (`group?_tokensAll`).
-/

namespace SolidScript
namespace Reading

/-- A token, or what stands between two matching brackets. -/
inductive Tree where
  | leaf (a : Atom)
  | group (b : Bracket) (inner : List Tree)

namespace Tree

mutual
/-- The tokens of a tree. -/
def tokens : Tree → List Token
  | leaf a => [.atom a]
  | group b inner => .opening b :: (tokensAll inner ++ [.closing b])

/-- The tokens of some trees, one after the other. -/
def tokensAll : List Tree → List Token
  | [] => []
  | tree :: rest => tokens tree ++ tokensAll rest
end

end Tree

/-- A group that is not closed yet: its bracket, and the trees before it in the group around it. -/
structure OpenGroup where
  bracket : Bracket
  before : List Tree

/-- Groups tokens, given the groups that are open, the innermost first, and the trees already seen
in the innermost one. -/
def groupFrom? (outer : List OpenGroup) (seen : List Tree) : List Token → Option (List Tree)
  | [] =>
    match outer with
    | [] => some seen
    | _ :: _ => none
  | .atom a :: rest => groupFrom? outer (seen ++ [.leaf a]) rest
  | .opening b :: rest => groupFrom? (⟨b, seen⟩ :: outer) [] rest
  | .closing b :: rest =>
    match outer with
    | [] => none
    | last :: outer =>
      if last.bracket = b then groupFrom? outer (last.before ++ [.group b seen]) rest else none

/-- The trees of some tokens, if all brackets match. -/
def group? (ts : List Token) : Option (List Tree) := groupFrom? [] [] ts

mutual
/-- The tokens of a tree are read as that tree, whatever stands around them. -/
theorem groupFrom?_tokens (tree : Tree) (outer : List OpenGroup) (seen : List Tree)
    (rest : List Token) :
    groupFrom? outer seen (tree.tokens ++ rest) = groupFrom? outer (seen ++ [tree]) rest := by
  cases tree with
  | leaf a => rfl
  | group b inner =>
      -- the group is opened around nothing seen, filled by its inner trees and closed again
      rw [Tree.tokens, List.cons_append, List.append_assoc, groupFrom?,
        groupFrom?_tokensAll inner, List.nil_append]
      exact if_pos rfl

theorem groupFrom?_tokensAll (trees : List Tree) (outer : List OpenGroup) (seen : List Tree)
    (rest : List Token) :
    groupFrom? outer seen (Tree.tokensAll trees ++ rest) =
      groupFrom? outer (seen ++ trees) rest := by
  cases trees with
  | nil => rw [Tree.tokensAll, List.nil_append, List.append_nil]
  | cons tree trees =>
      rw [Tree.tokensAll, List.append_assoc, groupFrom?_tokens tree, groupFrom?_tokensAll trees,
        List.append_assoc, List.singleton_append]
end

theorem group?_tokensAll (trees : List Tree) : group? (Tree.tokensAll trees) = some trees := by
  have hall := groupFrom?_tokensAll trees [] [] []
  rwa [List.append_nil] at hall

end Reading
end SolidScript
