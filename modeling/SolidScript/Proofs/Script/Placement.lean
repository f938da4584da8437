import Mathlib.Tactic
import SolidScript.Proofs.Script.Equality

/-!
# Where references stand

With braces around every body, a script does not show where in the tree a reference stood.  It names
the collected references at its top, and below them it is the script of the tree without references
(`Node.withoutReferencesAll`), at every depth, the faults included (`nodesLines_withoutReferences`).
So documents with the same collected references whose trees are equal without references have one
script, or the same fault (`render_block_eq`).
-/

namespace SolidScript

namespace Node

mutual
/-- The node without the references inside it.  A body that held nothing else stays, empty. -/
def withoutReferences : Node → Node
  | composite frame nodes => composite frame (withoutReferencesAll nodes)
  | primitive shape params => primitive shape params
  | call name params => call name params
  | reference ref => reference ref
  | comment text => comment text

/-- The nodes without references, at every level. -/
def withoutReferencesAll : List Node → List Node
  | [] => []
  | reference _ :: rest => withoutReferencesAll rest
  | node :: rest => withoutReferences node :: withoutReferencesAll rest
end

end Node

namespace Script

/-! ## Trees without references -/

/-- What is kept of the nodes has lines exactly where some of the nodes have. -/
theorem any_hasLines_withoutReferences (nodes : List Node) :
    (Node.withoutReferencesAll nodes).any hasLines = nodes.any hasLines := by
  induction nodes with
  | nil => rfl
  | cons node rest ih =>
      cases node with
      | reference ref => exact ih
      | primitive shape params => rfl
      | call name params => rfl
      | composite frame nodes => rfl
      | comment text => rfl

/-- Every composite has braces in this style. -/
theorem isBraceless_block (frame : Frame) (children : List Node) :
    isBraceless .block frame children = false := rfl

theorem compositeLines_withoutReferences (depth : Nat) (frame : Frame) (children : List Node)
    (call : String) (inner : List Line) :
    compositeLines .block depth frame (Node.withoutReferencesAll children) call inner =
      compositeLines .block depth frame children call inner := by
  unfold compositeLines
  rw [isBraceless_block, isBraceless_block, any_hasLines_withoutReferences]

mutual
/-- References inside a node have no part in its lines or its faults. -/
theorem nodeLines_withoutReferences (depth : Nat) (node : Node) :
    nodeLines .block depth node.withoutReferences = nodeLines .block depth node := by
  cases node with
  | composite frame nodes =>
      rw [Node.withoutReferences, nodeLines, nodeLines,
        nodesLines_withoutReferences (depth + 1) nodes]
      simp only [compositeLines_withoutReferences]
  | primitive shape params => rfl
  | call name params => rfl
  | reference ref => rfl
  | comment text => rfl

theorem nodesLines_withoutReferences (depth : Nat) (nodes : List Node) :
    nodesLines .block depth (Node.withoutReferencesAll nodes) = nodesLines .block depth nodes := by
  cases nodes with
  | nil => rfl
  | cons node rest =>
      have hnode := nodeLines_withoutReferences depth node
      have hrest := nodesLines_withoutReferences depth rest
      have hkept : nodesLines .block depth (node.withoutReferences ::
          Node.withoutReferencesAll rest) = nodesLines .block depth (node :: rest) := by
        rw [nodesLines, nodesLines, hnode, hrest]
      cases node with
      | reference ref =>
          -- a reference is passed over, and it has no lines to lose
          rw [Node.withoutReferencesAll, hrest, nodesLines, nodeLines]
          cases nodesLines .block depth rest <;> rfl
      | primitive shape params => exact hkept
      | call name params => exact hkept
      | composite frame nodes => exact hkept
      | comment text => exact hkept
end

/-! ## Documents -/

/-- In the style with braces, documents that collect the same references and become equal when
references are deleted at every level have the same script, or the same fault.  Trees count as equal
when they are the same and also when all their numbers are equal as numbers. -/
theorem render_block_eq {config : Config} (hstyle : config.style = .block) {xs ys : List Node}
    (hreferences : Reference.collect xs = Reference.collect ys)
    (hequal : Node.withoutReferencesAll xs = Node.withoutReferencesAll ys ∨
      Node.equalAll (Node.withoutReferencesAll xs) (Node.withoutReferencesAll ys) = true) :
    Document.render ⟨config, xs⟩ = Document.render ⟨config, ys⟩ := by
  have hlines : nodesLines .block 0 xs = nodesLines .block 0 ys := by
    rw [← nodesLines_withoutReferences, ← nodesLines_withoutReferences 0 ys]
    rcases hequal with hsame | hequal
    · rw [hsame]
    · exact nodesLines_of_equalAll hequal
  rw [Document.render, Document.render, emit, emit, Document.references, Document.references,
    hreferences, hstyle, hlines]

/-- A reference may stand in a union or before it, and the only reference in a body may leave the
body empty.  Zero and its negative are equal numbers. -/
theorem render_block_eq_gears :
    let gears : Node := .reference ⟨.useFile, "gears.scad"⟩
    let cube (sign : Bool) : Node :=
      .primitive .cube (.ofList [("size", .number (.finite sign ⟨0, by decide⟩))])
    Document.render ⟨{}, [.composite (.combinator .union) [gears, cube true],
        .composite (.combinator .hull) [gears]]⟩ =
      Document.render ⟨{}, [gears, .composite (.combinator .union) [cube false],
        .composite (.combinator .hull) []]⟩ ∧
    Document.render ⟨{}, [gears, .composite (.combinator .union) [cube false],
        .composite (.combinator .hull) []]⟩ =
      .ok "use <gears.scad>\n\nunion() \x7b\n  cube(size = 0);\n\x7d\nhull() \x7b\x7d\n" :=
  ⟨render_block_eq rfl (by decide +kernel) (.inr (by decide +kernel)), by decide +kernel⟩

/-- In the style without braces, a reference beside the only call in a body makes a difference. -/
example :
    let gears : Node := .reference ⟨.useFile, "gears.scad"⟩
    let cube : Node := .primitive .cube .empty
    let scale (nodes : List Node) : Node := .composite (.transform .scale .empty) nodes
    Document.render ⟨{ style := .statement }, [scale [gears, cube]]⟩ ≠
      Document.render ⟨{ style := .statement }, [gears, scale [cube]]⟩ := by
  decide +kernel

end Script
end SolidScript
