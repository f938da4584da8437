import SolidScript.Proofs.Script.Reader
import SolidScript.Script.Document

/-!
# What a script should say

The normal form of a tree, as a reader should find it: references are gone, numbers are rounded to
ten places, a comment has become one comment for each line of its text, and every other node is a
call.  `Node.trees` is the same tree in the brackets of a style, and reading those trees gives the
normal form in either style (`readItems?_trees`).
-/

namespace SolidScript

mutual
/-- The value as a script gives it. -/
def Value.recorded : Value → Reading.Value
  | .undef => .undef
  | .bool b => .bool b
  | .number x => .number (x.rounded 10)
  | .text s => .text s
  | .vector items => .vector (Value.recordedAll items)

def Value.recordedAll : List Value → List Reading.Value
  | [] => []
  | item :: rest => item.recorded :: Value.recordedAll rest
end

/-- The arguments in the order of the parameters. -/
def Params.recorded (params : Params) : List (String × Reading.Value) :=
  params.entries.map fun (name, value) => (name, value.recorded)

/-- The comments for the text of a comment: one for each of its lines, without the blanks at its
end, and one when it has none. -/
def commentContents (text : String) : List String :=
  match Text.lines text.toList with
  | [] => [""]
  | lines => lines.map fun line => String.ofList (Text.trimEnd line)

mutual
/-- The normal form of a node. -/
def Node.recorded : Node → List Reading.Item
  | .primitive shape params => [.call shape.name params.recorded none]
  | .call name params => [.call name params.recorded none]
  | .composite frame children =>
    [.call frame.name frame.params.recorded (some (Node.recordedAll children))]
  | .reference _ => []
  | .comment text => (commentContents text).map .comment

/-- The normal form of some nodes, one after the other. -/
def Node.recordedAll : List Node → List Reading.Item
  | [] => []
  | node :: rest => node.recorded ++ Node.recordedAll rest
end

/-- What the script of a document should say. -/
def Document.recorded (document : Document) : Reading.Contents where
  references := document.references
  settings := document.config.resolution.assignments.map fun (name, x) => (name, x.rounded 10)
  items := Node.recordedAll document.roots

namespace Reading

/-! ## Trees of values -/

mutual
def valueTree : SolidScript.Value → Tree
  | .undef => .leaf (.word "undef")
  | .bool true => .leaf (.word "true")
  | .bool false => .leaf (.word "false")
  | .number x => .leaf (.number (x.rounded 10))
  | .text s => .leaf (.text s)
  | .vector items => .group .square (valueTrees items)

def valueTrees : List SolidScript.Value → List Tree
  | [] => []
  | item :: rest => valueTree item :: moreValueTrees rest

def moreValueTrees : List SolidScript.Value → List Tree
  | [] => []
  | item :: rest => .leaf .comma :: valueTree item :: moreValueTrees rest
end

def moreArgumentTrees : List (String × SolidScript.Value) → List Tree
  | [] => []
  | (name, value) :: rest =>
    .leaf .comma :: .leaf (.word name) :: .leaf .equals :: valueTree value ::
      moreArgumentTrees rest

def argumentTrees (entries : List (String × SolidScript.Value)) : List Tree :=
  (moreArgumentTrees entries).drop 1

def callTrees (name : String) (params : Params) : List Tree :=
  [.leaf (.word name), .group .round (argumentTrees params.entries)]

mutual
theorem readValue?_valueTree (value : SolidScript.Value) :
    readValue? (valueTree value) = some value.recorded := by
  cases value with
  | undef => rfl
  | bool b => cases b <;> rfl
  | number x => rfl
  | text s => rfl
  | vector items => rw [valueTree, readValue?, readValues?_valueTrees items]; rfl

theorem readValues?_valueTrees (items : List SolidScript.Value) :
    readValues? (valueTrees items) = some (SolidScript.Value.recordedAll items) := by
  cases items with
  | nil => rfl
  | cons item rest =>
      rw [valueTrees, readValues?, readValue?_valueTree item, readMoreValues?_moreValueTrees rest]
      rfl

theorem readMoreValues?_moreValueTrees (items : List SolidScript.Value) :
    readMoreValues? (moreValueTrees items) = some (SolidScript.Value.recordedAll items) := by
  cases items with
  | nil => rfl
  | cons item rest =>
      rw [moreValueTrees, readMoreValues?, readValue?_valueTree item,
        readMoreValues?_moreValueTrees rest]
      rfl
end

theorem readMoreArguments?_moreArgumentTrees (entries : List (String × SolidScript.Value)) :
    readMoreArguments? (moreArgumentTrees entries) =
      some (entries.map fun (name, value) => (name, value.recorded)) := by
  induction entries with
  | nil => rfl
  | cons entry rest ih =>
      obtain ⟨name, value⟩ := entry
      rw [moreArgumentTrees, readMoreArguments?, readValue?_valueTree, ih]
      rfl

theorem readArguments?_argumentTrees (params : Params) :
    readArguments? (argumentTrees params.entries) = some params.recorded := by
  have hmore := readMoreArguments?_moreArgumentTrees params.entries
  unfold argumentTrees Params.recorded
  cases hentries : params.entries with
  | nil => rfl
  | cons entry rest =>
      rw [hentries] at hmore
      exact hmore

/-! ## Trees of nodes -/

mutual
def nodeTrees (style : TransformStyle) : Node → List Tree
  | .primitive shape params => callTrees shape.name params ++ [.leaf .semicolon]
  | .call name params => callTrees name params ++ [.leaf .semicolon]
  | .composite frame children =>
    callTrees frame.name frame.params ++
      (if Script.isBraceless style frame children then nodesTrees style children
      else [.group .curly (nodesTrees style children)])
  | .reference _ => []
  | .comment text => (commentContents text).map fun content => .leaf (.comment content)

def nodesTrees (style : TransformStyle) : List Node → List Tree
  | [] => []
  | node :: rest => nodeTrees style node ++ nodesTrees style rest
end

/-! ## Reading the trees of nodes -/

theorem readItems?_comments (contents : List String) (more : List Tree) :
    readItems? ((contents.map fun content => .leaf (.comment content)) ++ more) =
      (readItems? more).map (contents.map .comment ++ ·) := by
  induction contents with
  | nil => simp
  | cons content rest ih =>
      rw [List.map_cons, List.cons_append, readItems?, ih, Option.map_map]
      rfl

/-- Reading a call goes on with what follows it. -/
theorem readItems?_callTrees (name : String) (params : Params) (more : List Tree) :
    readItems? (callTrees name params ++ more) = readBody? name params.recorded more := by
  change readItems? (.leaf (.word name) :: .group .round (argumentTrees params.entries) :: more) = _
  rw [readItems?, readArguments?_argumentTrees]
  rfl

theorem readBody?_semicolon (name : String) (arguments : List (String × Value))
    (more : List Tree) :
    readBody? name arguments ([.leaf .semicolon] ++ more) =
      (readItems? more).map ([.call name arguments none] ++ ·) := by
  rw [List.singleton_append, readBody?]
  rfl

theorem readBody?_block (name : String) (arguments : List (String × Value))
    {inner : List Tree} {body : List Item} (hinner : readItems? inner = some body)
    (more : List Tree) :
    readBody? name arguments ([.group .curly inner] ++ more) =
      (readItems? more).map ([.call name arguments (some body)] ++ ·) := by
  rw [List.singleton_append, readBody?, hinner]
  cases readItems? more <;> rfl

/-- Without braces the body is the one call that starts with the next word. -/
theorem readBody?_word (name : String) (arguments : List (String × Value)) (word : String)
    (more : List Tree) :
    readBody? name arguments (.leaf (.word word) :: more) =
      readItems? (.leaf (.word word) :: more) >>= callWithBody? name arguments := by
  rw [readBody?]
  · exact fun _ h => by cases h
  · exact fun _ _ h => by cases h

/-- A node that is a call starts with a word and has a single call for its normal form. -/
theorem exists_of_isCall (style : TransformStyle) {node : Node}
    (h : SolidScript.Script.isCall node = true) :
    (∃ word more, nodeTrees style node = .leaf (.word word) :: more) ∧
      ∃ name arguments body, node.recorded = [.call name arguments body] := by
  cases node with
  | primitive shape params => exact ⟨⟨_, _, rfl⟩, _, _, _, rfl⟩
  | call name params => exact ⟨⟨_, _, rfl⟩, _, _, _, rfl⟩
  | composite frame children => exact ⟨⟨_, _, rfl⟩, _, _, _, rfl⟩
  | reference ref => cases h
  | comment text => cases h

/-- Only a single call stands without braces. -/
theorem exists_of_isBraceless {style : TransformStyle} {frame : Frame} {children : List Node}
    (h : SolidScript.Script.isBraceless style frame children = true) :
    ∃ child, children = [child] ∧ SolidScript.Script.isCall child = true := by
  unfold SolidScript.Script.isBraceless at h
  rw [Bool.and_eq_true] at h
  obtain ⟨-, hcall⟩ := h
  split at hcall
  · rename_i child
    exact ⟨child, rfl, hcall⟩
  · cases hcall

mutual
/-- Reading the trees of a node gives its normal form, whatever follows. -/
theorem readItems?_nodeTrees (style : TransformStyle) (node : Node) (more : List Tree) :
    readItems? (nodeTrees style node ++ more) = (readItems? more).map (node.recorded ++ ·) := by
  cases node with
  | primitive shape params =>
      rw [nodeTrees, List.append_assoc, readItems?_callTrees, readBody?_semicolon]
      rfl
  | call name params =>
      rw [nodeTrees, List.append_assoc, readItems?_callTrees, readBody?_semicolon]
      rfl
  | composite frame children =>
      have hchildren := readItems?_nodesTrees style children
      rw [nodeTrees, List.append_assoc, readItems?_callTrees]
      by_cases hbraceless : SolidScript.Script.isBraceless style frame children = true
      · -- the only child is a call, which the reader takes for the body before it goes on
        obtain ⟨child, rfl, hcall⟩ := exists_of_isBraceless hbraceless
        obtain ⟨⟨word, tail, htrees⟩, name, arguments, body, hrecorded⟩ :=
          exists_of_isCall style hcall
        have hread := hchildren more
        rw [if_pos hbraceless]
        simp only [nodesTrees, List.append_nil, htrees, List.cons_append,
          Node.recordedAll, hrecorded] at hread ⊢
        rw [readBody?_word, hread]
        cases readItems? more with
        | none => rfl
        | some items => simp [callWithBody?, Node.recorded, Node.recordedAll, hrecorded]
      · -- between braces nothing follows the children
        have hinner := hchildren []
        rw [List.append_nil, readItems?, Option.map_some, List.append_nil] at hinner
        rw [if_neg hbraceless, readBody?_block _ _ hinner]
        rfl
  | reference ref =>
      change readItems? more = _
      simp [Node.recorded]
  | comment text => exact readItems?_comments (commentContents text) more

theorem readItems?_nodesTrees (style : TransformStyle) (nodes : List Node) (more : List Tree) :
    readItems? (nodesTrees style nodes ++ more) =
      (readItems? more).map (Node.recordedAll nodes ++ ·) := by
  cases nodes with
  | nil => simp [nodesTrees, Node.recordedAll]
  | cons node rest =>
      rw [nodesTrees, List.append_assoc, readItems?_nodeTrees style node,
        readItems?_nodesTrees style rest, Option.map_map]
      congr 1
      funext items
      exact (List.append_assoc node.recorded (Node.recordedAll rest) items).symm
end

/-- The trees of a list of nodes are read as its normal form, in either style. -/
theorem readItems?_trees (style : TransformStyle) (nodes : List Node) :
    readItems? (nodesTrees style nodes) = some (Node.recordedAll nodes) := by
  have hread := readItems?_nodesTrees style nodes []
  rw [List.append_nil] at hread
  rw [hread, readItems?]
  simp

end Reading
end SolidScript
