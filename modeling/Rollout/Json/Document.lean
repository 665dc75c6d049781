import Rollout.Json.Token

/-!
A JSON text as a value.

A machine reads the tokens one after the other. It keeps the containers that are still open, the
innermost first, and knows what may come next; so values may nest to any depth. A text is a value if
the machine takes all its tokens and stands behind one value at the end.
-/
namespace Rollout.Json

open Text (Bytes)

/-- A container that is not closed yet, with its contents so far, newest first. -/
inductive Opened where
  | array (items : List Json)
  /-- An object, and the key whose value is being read. -/
  | object (members : List (Option String × Json)) (key : Option String)

/-- What may come next. -/
inductive Expected where
  | value
  /-- A value, or the end of the array that was just opened. -/
  | valueOrEnd
  | key
  /-- A key, or the end of the object that was just opened. -/
  | keyOrEnd
  | colon
  /-- A comma, or the end of the innermost container. -/
  | commaOrEnd
  /-- Nothing more. -/
  | nothing (v : Json)

/-- Where the machine stands. -/
structure Reader where
  opened : List Opened
  expected : Expected

/-- A value is complete: it joins the innermost container, or it is the whole text. -/
def Reader.complete (v : Json) : List Opened → Reader
  | [] => ⟨[], .nothing v⟩
  | .array items :: rest => ⟨.array (v :: items) :: rest, .commaOrEnd⟩
  | .object members key :: rest => ⟨.object ((key, v) :: members) key :: rest, .commaOrEnd⟩

/-- The value of an object; one key without text makes the whole object unusable. -/
def ofMembers (members : List (Option String × Json)) : Json :=
  match members.mapM fun (key, v) => key.map (·, v) with
  | some ms => .obj ms
  | none => .unusable

/-- The value of a string. -/
def ofText : Option String → Json
  | some s => .str s
  | none => .unusable

/-- A token where a value may start. -/
def Reader.begin (opened : List Opened) : Token → Option Reader
  | .openObject => some ⟨.object [] none :: opened, .keyOrEnd⟩
  | .openArray => some ⟨.array [] :: opened, .valueOrEnd⟩
  | .text s => some (complete (ofText s) opened)
  | .scalar v => some (complete v opened)
  | _ => none

/-- The end of the innermost container. -/
def Reader.close : List Opened → Token → Option Reader
  | .array items :: rest, .closeArray => some (complete (.arr items.reverse) rest)
  | .object members _ :: rest, .closeObject => some (complete (ofMembers members.reverse) rest)
  | _, _ => none

/-- A token where a key is due. -/
def Reader.startMember : List Opened → Token → Option Reader
  | .object members _ :: rest, .text s => some ⟨.object members s :: rest, .colon⟩
  | _, _ => none

/-- A token after a value in a container. -/
def Reader.separate : List Opened → Token → Option Reader
  | .array items :: rest, .comma => some ⟨.array items :: rest, .value⟩
  | .object members key :: rest, .comma => some ⟨.object members key :: rest, .key⟩
  | opened, t => close opened t

/-- One token. -/
def Reader.step (r : Reader) (t : Token) : Option Reader :=
  match r.expected with
  | .value => begin r.opened t
  | .valueOrEnd => begin r.opened t <|> close r.opened t
  | .key => startMember r.opened t
  | .keyOrEnd => startMember r.opened t <|> close r.opened t
  | .colon => match t with
    | .colon => some { r with expected := .value }
    | _ => none
  | .commaOrEnd => separate r.opened t
  | .nothing _ => none

/-- The value that a text is. -/
def parse? (bs : Bytes) : Option Json := do
  let ts ← tokens? bs
  let r ← ts.foldlM Reader.step ⟨[], .value⟩
  match r.expected with
  | .nothing v => some v
  | _ => none

/-- The value that a text of characters is. -/
def ofString? (s : String) : Option Json := parse? s.toUTF8.data.toList

end Rollout.Json
