import SolidScript.Saved.Schema

/-!
# Importing saved trees

A tree is imported from a text that holds either one node or an array of root nodes.  The whole text
is read as JSON first, whose objects have every name once and in sorted order; parameters therefore
come in the order of their names.
-/

namespace SolidScript
namespace Saved

open Json

/-- The value of an option that JSON gives by its name, or by an object that gives the name a
null. -/
def optionOfJson {α : Type} (options : List (String × α)) : Json → Except Mismatch α
  | .text s => chooseNamed options s
  | .object [(s, value)] => do
    let chosen ← chooseNamed options s
    match value with
    | .null => .ok chosen
    | other => .error (.wrongType (found other) "unit")
  | .object _ => .error (.wrongValue .map "map with a single key")
  | json => .error (.wrongType (found json) "string or map")

/-- A string. -/
def stringOfJson : Json → Except Mismatch String
  | .text s => .ok s
  | json => .error (.wrongType (found json) "a string")

/-- A part that has no nodes in it. -/
def partOfJson (slots : Slots) (json : Json) : Part → Except Mismatch Slots
  | .shape => do
    let x ← optionOfJson shapeOptions json
    .ok { slots with shape := some x }
  | .transformOp => do
    let x ← optionOfJson transformOptions json
    .ok { slots with transformOp := some x }
  | .combinatorOp => do
    let x ← optionOfJson combinatorOptions json
    .ok { slots with combinatorOp := some x }
  | .extrusionOp => do
    let x ← optionOfJson extrusionOptions json
    .ok { slots with extrusionOp := some x }
  | .referenceKind => do
    let x ← optionOfJson referenceOptions json
    .ok { slots with referenceKind := some x }
  | .name => do
    let x ← stringOfJson json
    .ok { slots with text := some x }
  | .path => do
    let x ← stringOfJson json
    .ok { slots with text := some x }
  | .params => do
    let x ← Params.ofJson json
    .ok { slots with params := some x }
  | .children => .ok slots

/-- A reference whose parts stand in an array. -/
def referenceOfItems (items : List Json) : Except Mismatch Node :=
  match items with
  | [] => .error (.wrongLength 0 Kind.reference.wantedList)
  | [kind] => do
    let _ ← optionOfJson referenceOptions kind
    .error (.wrongLength 1 Kind.reference.wantedList)
  | kind :: path :: rest => do
    let kind ← optionOfJson referenceOptions kind
    let path ← stringOfJson path
    if rest.isEmpty then .ok (.reference ⟨kind, path⟩)
    else .error (.wrongLength items.length "fewer elements in array")

mutual
/-- The node with the given JSON form. -/
def nodeOfJson : Json → Except Mismatch Node
  | .text s => do
    let kind ← chooseNamed Kind.options s
    .error (.wrongType .unitVariant kind.wantedContent)
  | .object fields => nodeOfFields fields
  | json => .error (.wrongType (found json) "string or map")

/-- The node that an object with the given fields makes. -/
def nodeOfFields : List (String × Json) → Except Mismatch Node
  | (s, content) :: [] =>
    match chooseNamed Kind.options s with
    | .error why => .error why
    | .ok kind => nodeOfContent kind content
  | _ => .error (.wrongValue .map "map with a single key")

/-- The node of a kind with the given content. -/
def nodeOfContent (kind : Kind) : Json → Except Mismatch Node
  | .object fields =>
    if kind = .comment then .error (.wrongType .map kind.wanted)
    else nodeOfRecord kind {} fields
  | json =>
    match kind with
    | .comment => do
      let s ← stringOfJson json
      .ok (.comment s)
    | .reference =>
      match json with
      | .array items => referenceOfItems items
      | other => .error (.wrongType (found other) kind.wanted)
    | _ => .error (.wrongType (found json) kind.wantedContent)

/-- The node of a kind with parts by their names.  Unknown fields are passed over. -/
def nodeOfRecord (kind : Kind) (slots : Slots) : List (String × Json) → Except Mismatch Node
  | [] => slots.build kind
  | (s, json) :: rest =>
    match kind.parts.find? (·.key == s) with
    | none => nodeOfRecord kind slots rest
    | some part =>
      match (if part = .children then (childrenOfJson kind json).map slots.withChildren
        else partOfJson slots json part) with
      | .error why => .error why
      | .ok slots' => nodeOfRecord kind slots' rest

/-- The nodes inside a node.  A module call may be without them. -/
def childrenOfJson (kind : Kind) : Json → Except Mismatch (Option (List Node))
  | .null => if kind = .moduleCall then .ok none else .error (.wrongType .null "a sequence")
  | .array items => (nodesOfJson items).map some
  | json => .error (.wrongType (found json) "a sequence")

/-- The nodes with the given JSON forms. -/
def nodesOfJson : List Json → Except Mismatch (List Node)
  | [] => .ok []
  | json :: rest =>
    match nodeOfJson json with
    | .error why => .error why
    | .ok node =>
      match nodesOfJson rest with
      | .error why => .error why
      | .ok nodes => .ok (node :: nodes)
end

/-- The roots of a tree: an array holds them all, anything else is a single one. -/
def rootsOfJson : Json → Except Mismatch (List Node)
  | .array items => nodesOfJson items
  | json => (nodeOfJson json).map ([·])

end Saved

/-- Imports the roots of a tree from a text. -/
def Node.importAll (text : String) : Json.ReadResult (List Node) :=
  match Json.read? text with
  | none => .error .malformed
  | some json => .ofMismatch (Saved.rootsOfJson json)

end SolidScript
