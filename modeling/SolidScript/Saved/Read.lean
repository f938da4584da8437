import SolidScript.Saved.Schema

/-!
# Reading saved nodes from a draft

The direct reader goes through a draft in the order of the text, so that what it reports is what
comes first there.  Parameters keep the order of the text.
-/

namespace SolidScript
namespace Saved

open Json

/-- Reads a part that has no nodes in it. -/
def readPart (room : Nat) (slots : Slots) (d : Draft) : Part → ReadResult Slots
  | .shape => do
    let x ← readOption room shapeOptions d
    .ok { slots with shape := some x }
  | .transformOp => do
    let x ← readOption room transformOptions d
    .ok { slots with transformOp := some x }
  | .combinatorOp => do
    let x ← readOption room combinatorOptions d
    .ok { slots with combinatorOp := some x }
  | .extrusionOp => do
    let x ← readOption room extrusionOptions d
    .ok { slots with extrusionOp := some x }
  | .referenceKind => do
    let x ← readOption room referenceOptions d
    .ok { slots with referenceKind := some x }
  | .name => do
    let x ← readString d
    .ok { slots with text := some x }
  | .path => do
    let x ← readString d
    .ok { slots with text := some x }
  | .params => do
    let x ← Params.ofDraft room d
    .ok { slots with params := some x }
  | .children => .ok slots

/-- What is said of something that is not an array where nodes are wanted. -/
def wantedNodes : String := "a sequence"

mutual
/-- Reads a node. -/
def readNode (room : Nat) : Draft → ReadResult Node
  | .text (some s) =>
    match chooseNamed Kind.options s with
    | .error why => .error (.mismatch why)
    | .ok kind => .error (.mismatch (.wrongType .unitVariant kind.wantedContent))
  | .object fields =>
    match room with
    | 0 => .error .malformed
    | inner + 1 => readNodeFields inner fields
  | _ => .error .malformed

/-- Reads the one field of a node. -/
def readNodeFields (room : Nat) : Fields → ReadResult Node
  | .ended => .error .malformed
  | .broken => .error .malformed
  | .field none _ _ => .error .malformed
  | .field (some s) content rest =>
    match chooseNamed Kind.options s with
    | .error why => .error (.mismatch why)
    | .ok kind =>
      match readContent room kind content with
      | .error e => .error e
      | .ok node =>
        match rest with
        | .ended => .ok node
        | _ => .error .malformed

/-- Reads what a node of the given kind consists of. -/
def readContent (room : Nat) (kind : Kind) : Draft → ReadResult Node
  | .text (some s) =>
    if kind = .comment then .ok (.comment s)
    else .error (.mismatch (.wrongType (.text s) kind.wanted))
  | .array items =>
    if kind = .comment then .error (.mismatch (.wrongType .sequence kind.wanted))
    else
      match room with
      | 0 => .error .malformed
      | inner + 1 => readParts inner kind kind.parts {} items
  | .object fields =>
    if kind = .comment then .error (.mismatch (.wrongType .map kind.wanted))
    else
      match room with
      | 0 => .error .malformed
      | inner + 1 => readRecord inner kind [] {} fields
  | d => d.refuse kind.wanted

/-- Reads parts that stand in an array in their order. -/
def readParts (room : Nat) (kind : Kind) (left : List Part) (slots : Slots) :
    Items → ReadResult Node
  | .broken => .error .malformed
  | .ended =>
    match left with
    | [] => .ofMismatch (slots.build kind)
    | _ => .error (.mismatch (.wrongLength (kind.parts.length - left.length) kind.wantedList))
  | .item d rest =>
    match left with
    | [] => .error .malformed
    | part :: left' =>
      match (if part = .children then (readChildren room kind d).map slots.withChildren
        else readPart room slots d part) with
      | .error e => .error e
      | .ok slots' => readParts room kind left' slots' rest

/-- Reads parts that stand in an object by their names.  Unknown fields are passed over. -/
def readRecord (room : Nat) (kind : Kind) (seen : List Part) (slots : Slots) :
    Fields → ReadResult Node
  | .ended => .ofMismatch (slots.build kind)
  | .broken => .error .malformed
  | .field none _ _ => .error .malformed
  | .field (some s) d rest =>
    match kind.parts.find? (·.key == s) with
    | none => if d.isWhole then readRecord room kind seen slots rest else .error .malformed
    | some part =>
      if seen.contains part then .error (.mismatch (.repeatedField s))
      else
        match (if part = .children then (readChildren room kind d).map slots.withChildren
          else readPart room slots d part) with
        | .error e => .error e
        | .ok slots' => readRecord room kind (part :: seen) slots' rest

/-- Reads the nodes inside a node.  A module call may be without them. -/
def readChildren (room : Nat) (kind : Kind) : Draft → ReadResult (Option (List Node))
  | .null =>
    if kind = .moduleCall then .ok none else .error (.mismatch (.wrongType .null wantedNodes))
  | .array items =>
    match room with
    | 0 => .error .malformed
    | inner + 1 => (readItems inner items).map some
  | d => d.refuse wantedNodes

/-- Reads nodes that stand in an array. -/
def readItems (room : Nat) : Items → ReadResult (List Node)
  | .ended => .ok []
  | .broken => .error .malformed
  | .item d rest =>
    match readNode room d with
    | .error e => .error e
    | .ok node =>
      match readItems room rest with
      | .error e => .error e
      | .ok nodes => .ok (node :: nodes)
end

/-- Reads an array of nodes. -/
def readNodes (room : Nat) : Draft → ReadResult (List Node)
  | .array items =>
    match room with
    | 0 => .error .malformed
    | inner + 1 => readItems inner items
  | d => d.refuse wantedNodes

end Saved

/-- Reads one node from a text. -/
def Node.read (text : String) : Json.ReadResult Node :=
  Json.readText (Saved.readNode Json.depthLimit) text

/-- Reads an array of nodes from a text. -/
def Node.readAll (text : String) : Json.ReadResult (List Node) :=
  Json.readText (Saved.readNodes Json.depthLimit) text

end SolidScript
