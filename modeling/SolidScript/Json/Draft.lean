import SolidScript.Json.Token

/-!
# Drafts of JSON

A draft is the tree that a text shows up to the first place where it stops being JSON.  What stands
before that place can be read, and a reader that goes through the draft in order meets either
something it does not want or the place itself first.  Drafts are built from tokens by a machine
with a stack of the arrays and objects that are still open.
-/

namespace SolidScript
namespace Json

mutual
/-- A JSON value as far as it can be read. -/
inductive Draft where
  /-- Here the text stops being JSON. -/
  | broken
  | null
  | bool (b : Bool)
  | number (amount : Option Amount)
  | text (s : Option String)
  | array (items : Items)
  | object (fields : Fields)

/-- The items of an array. -/
inductive Items where
  /-- The array ends as it should. -/
  | ended
  /-- Neither an item nor the end of the array. -/
  | broken
  | item (value : Draft) (rest : Items)

/-- The fields of an object. -/
inductive Fields where
  /-- The object ends as it should. -/
  | ended
  /-- Neither a name nor the end of the object. -/
  | broken
  | field (name : Option String) (value : Draft) (rest : Fields)
end

instance : Inhabited Draft := ⟨.broken⟩

/-- Items before some others; the first list has its last item first. -/
def Items.before (rest : Items) : List Draft → Items
  | [] => rest
  | d :: ds => Items.before (.item d rest) ds

/-- Fields before some others; the first list has its last field first. -/
def Fields.before (rest : Fields) : List (Option String × Draft) → Fields
  | [] => rest
  | (name, d) :: ds => Fields.before (.field name d rest) ds

/-- An array or object that waits for the end of a value in it.  What it holds already stands in
reverse order. -/
inductive Container where
  | items (seen : List Draft)
  | fields (seen : List (Option String × Draft)) (name : Option String)

/-- Puts a draft in which the text breaks into the containers around it. -/
def closeAround (d : Draft) : List Container → Draft
  | [] => d
  | .items seen :: stack => closeAround (.array (Items.before .broken (d :: seen))) stack
  | .fields seen name :: stack =>
    closeAround (.object (Fields.before .broken ((name, d) :: seen))) stack

/-- What may stand next. -/
inductive Expecting where
  /-- A value, or right after an opening bracket the end of the array. -/
  | value (orEnd : Bool)
  /-- What may follow the value that has just ended. -/
  | after (d : Draft)
  /-- A name in an object with these fields, or right after an opening brace its end. -/
  | name (seen : List (Option String × Draft)) (orEnd : Bool)
  /-- The colon after a name. -/
  | colon (seen : List (Option String × Draft)) (name : Option String)

/-- A whole text: the value it begins with, and whether anything follows that value. -/
structure Reading where
  root : Draft
  trailing : Bool

/-- A machine that has neither stopped nor read all tokens. -/
inductive Progress where
  | running (expecting : Expecting) (stack : List Container)
  | stopped (reading : Reading)

/-- The reading of a text that breaks inside the given containers. -/
def breakOff (d : Draft) (stack : List Container) : Progress :=
  .stopped ⟨closeAround d stack, false⟩

/-- One token where a value may begin. -/
def stepValue (orEnd : Bool) (stack : List Container) (token : Token) : Progress :=
  match token with
  | .null => .running (.after .null) stack
  | .bool b => .running (.after (.bool b)) stack
  | .number amount => .running (.after (.number amount)) stack
  | .text s => .running (.after (.text s)) stack
  | .openArray => .running (.value true) (.items [] :: stack)
  | .openObject => .running (.name [] true) stack
  | .closeArray =>
    match orEnd, stack with
    | true, .items [] :: rest => .running (.after (.array .ended)) rest
    | _, _ => breakOff .broken stack
  | _ => breakOff .broken stack

/-- One token after a value. -/
def stepAfter (d : Draft) (stack : List Container) (token : Token) : Progress :=
  match stack with
  | [] => .stopped ⟨d, true⟩
  | .items seen :: rest =>
    match token with
    | .comma => .running (.value false) (.items (d :: seen) :: rest)
    | .closeArray => .running (.after (.array (Items.before .ended (d :: seen)))) rest
    | _ => breakOff (.array (Items.before .broken (d :: seen))) rest
  | .fields seen name :: rest =>
    match token with
    | .comma => .running (.name ((name, d) :: seen) false) rest
    | .closeObject => .running (.after (.object (Fields.before .ended ((name, d) :: seen)))) rest
    | _ => breakOff (.object (Fields.before .broken ((name, d) :: seen))) rest

/-- One token where a name may stand. -/
def stepName (seen : List (Option String × Draft)) (orEnd : Bool) (stack : List Container)
    (token : Token) : Progress :=
  match token with
  | .text s => .running (.colon seen s) stack
  | .closeObject =>
    if orEnd then .running (.after (.object .ended)) stack
    else breakOff (.object (Fields.before .broken seen)) stack
  | _ => breakOff (.object (Fields.before .broken seen)) stack

/-- One token where a colon should stand. -/
def stepColon (seen : List (Option String × Draft)) (name : Option String)
    (stack : List Container) (token : Token) : Progress :=
  match token with
  | .colon => .running (.value false) (.fields seen name :: stack)
  | _ => breakOff (.object (Fields.before .broken ((name, .broken) :: seen))) stack

/-- One token. -/
def Progress.advance (progress : Progress) (token : Token) : Progress :=
  match progress with
  | .stopped reading => .stopped reading
  | .running expecting stack =>
    match expecting with
    | .value orEnd => stepValue orEnd stack token
    | .after d => stepAfter d stack token
    | .name seen orEnd => stepName seen orEnd stack token
    | .colon seen name => stepColon seen name stack token

/-- The reading when there are no more tokens.  Where the text should go on, it breaks. -/
def Progress.finish (progress : Progress) : Reading :=
  match progress with
  | .running (.after d) [] => ⟨d, false⟩
  | _ =>
    match progress.advance .bad with
    | .stopped reading => reading
    | .running _ _ => ⟨.broken, false⟩

/-- The reading of some tokens. -/
def Reading.ofTokens (tokens : List Token) : Reading :=
  (tokens.foldl Progress.advance (.running (.value false) [])).finish

/-- The reading of a text. -/
def Reading.ofText (text : String) : Reading := .ofTokens (tokens text)

mutual
/-- Is the draft JSON to its end? -/
def Draft.isWhole : Draft → Bool
  | .broken => false
  | .array items => items.isWhole
  | .object fields => fields.isWhole
  | _ => true

/-- Are the items JSON to their end? -/
def Items.isWhole : Items → Bool
  | .ended => true
  | .broken => false
  | .item value rest => value.isWhole && rest.isWhole

/-- Are the fields JSON to their end? -/
def Fields.isWhole : Fields → Bool
  | .ended => true
  | .broken => false
  | .field _ value rest => value.isWhole && rest.isWhole
end

end Json
end SolidScript
