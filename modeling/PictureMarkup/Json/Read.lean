import PictureMarkup.Json.Token

/-!
# Reading JSON

An automaton goes over the tokens once. It keeps the arrays and objects that are open,
the innermost first, and what may come next. A text is a JSON document if the tokens
bring it to exactly one value outside of everything.
-/

namespace PictureMarkup.Json

/-- An open array or object with what it holds so far, the last first. -/
inductive Container where
  | array (items : List Json)
  /-- An object, with the key whose value is being read. -/
  | object (members : List (Option String × Json)) (key : Option String)

/-- What may come next. -/
inductive Expected where
  /-- A value. -/
  | value
  /-- The first item of an array, or its end. -/
  | firstItem
  /-- The first key of an object, or its end; the members so far are none. -/
  | firstKey
  /-- A key after a comma. -/
  | key (members : List (Option String × Json))
  /-- The colon after a key. -/
  | colon (members : List (Option String × Json)) (key : Option String)
  /-- A comma, or the end of the innermost container. -/
  | more
  /-- Nothing: the document is complete. -/
  | done (v : Json)

/-- The automaton's state. -/
structure Reading where
  opened : List Container
  expected : Expected

/-- Hand a finished value to the innermost container. -/
def finishValue (v : Json) : List Container → Reading
  | [] => ⟨[], .done v⟩
  | .array items :: rest => ⟨.array (v :: items) :: rest, .more⟩
  | .object members key :: rest => ⟨.object ((key, v) :: members) key :: rest, .more⟩

/-- Begin a value with a token. -/
def beginValue (opened : List Container) : Token → Option Reading
  | .null => some (finishValue .null opened)
  | .bool b => some (finishValue (.bool b) opened)
  | .number n => some (finishValue (.number n) opened)
  | .string text => some (finishValue (.string text) opened)
  | .openArray => some ⟨.array [] :: opened, .firstItem⟩
  | .openObject => some ⟨opened, .firstKey⟩
  | .closeArray | .closeObject | .comma | .colon => none

/-- Take a token. -/
def readToken (r : Reading) (t : Token) : Option Reading :=
  match r.expected, t, r.opened with
  | .value, t, opened => beginValue opened t
  | .firstItem, .closeArray, .array _ :: rest => some (finishValue (.array []) rest)
  | .firstItem, t, opened => beginValue opened t
  | .firstKey, .closeObject, opened => some (finishValue (.object []) opened)
  | .firstKey, .string key, opened => some ⟨opened, .colon [] key⟩
  | .key members, .string key, opened => some ⟨opened, .colon members key⟩
  | .colon members key, .colon, opened => some ⟨.object members key :: opened, .value⟩
  | .more, .comma, .array items :: rest => some ⟨.array items :: rest, .value⟩
  | .more, .closeArray, .array items :: rest => some (finishValue (.array items.reverse) rest)
  | .more, .comma, .object members _ :: rest => some ⟨rest, .key members⟩
  | .more, .closeObject, .object members _ :: rest =>
    some (finishValue (.object members.reverse) rest)
  | _, _, _ => none

/-- Take tokens to the end. -/
def readTokens (r : Reading) : List Token → Option Json
  | [] =>
    match r.expected with
    | .done v => some v
    | _ => none
  | t :: ts =>
    match readToken r t with
    | none => none
    | some r => readTokens r ts

/-- The value that a text holds. -/
def read? (s : String) : Option Json := (tokens? s).bind (readTokens ⟨[], .value⟩)

end PictureMarkup.Json
