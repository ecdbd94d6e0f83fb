import PictureMarkup.Json.Basic

/-!
# Decoding JSON values

A decoder looks at a value and either makes something of it or refuses it; there is
one reason for refusing, so decoders return options.

A record is an object whose members have known names, in any order; unknown members
are ignored, known ones must not repeat. It may also be an array of its fields in
their declared order, from which trailing fields may be missing. A choice is a record
with one more field, the tag, which names the variant and in an array comes first.

A choice is taken apart only after the whole of it has been found strict. In a choice
inside it the tag may also be the variant's number.
-/

namespace PictureMarkup.Json

/-- Something that makes values out of JSON. -/
abbrev Decoder (τ : Type) : Type := Json → Option τ

/-- Where a value stands. -/
inductive Context where
  /-- Outside of every choice, where some levels may still be nested. -/
  | outside (depth : Nat)
  /-- Inside a choice, which has been found strict. -/
  | inside

/-- The context of an item or a member of a value. -/
def Context.deeper : Context → Context
  | .outside depth => .outside (depth - 1)
  | .inside => .inside

/-- A value that may be null instead. -/
def nullable {τ : Type} (d : Decoder τ) : Decoder (Option τ)
  | .null => some none
  | v => (d v).map some

/-- A number. -/
def float : Decoder Float
  | .number n => n.number?.map Number.float
  | _ => none

/-- A number, rounded to single precision. -/
def single : Decoder Float
  | .number n => n.number?.map Number.single
  | _ => none

/-- An integer from zero up to a bound. -/
def natural (bound : Nat) : Decoder Nat
  | .number n => n.number?.bind (Number.natural? bound)
  | _ => none

/-- True or false. -/
def boolean : Decoder Bool
  | .bool b => some b
  | _ => none

/-- A text. -/
def text : Decoder String
  | .string text => text
  | _ => none

/-- An array of any length. -/
def list {τ : Type} (d : Decoder τ) : Decoder (List τ)
  | .array items => items.mapM d
  | _ => none

/-- A name out of a table, by itself or as the only key of an object with an empty
value. -/
def name {τ : Type} (table : List (String × τ)) : Decoder τ
  | .string (some s) => table.lookup s
  | .object [(some s, .null)] => table.lookup s
  | .object [(some s, .object [])] => table.lookup s
  | _ => none

/-- The value of a field: nothing if it is missing, refused if it is repeated. -/
def field? (name : String) (members : List (Option String × Json)) : Option (Option Json) :=
  match members.filter fun m => m.1 == some name with
  | [] => some none
  | [m] => some (some m.2)
  | _ :: _ :: _ => none

/-- The values of a record's fields in their declared order. -/
def fields? (names : List String) : Json → Option (List (Option Json))
  | .object members =>
    if members.all fun m => m.1.isSome then names.mapM fun n => field? n members else none
  | .array items =>
    if items.length ≤ names.length then
      some (items.map some ++ List.replicate (names.length - items.length) none)
    else none
  | _ => none

/-- A field that must be there. -/
def required {τ : Type} (d : Decoder τ) (v : Option Json) : Option τ := v.bind d

/-- A field that has a value of its own when it is missing. -/
def optional {τ : Type} (default : τ) (d : Decoder τ) : Option Json → Option τ
  | none => some default
  | some v => d v

/-- A record with named fields, made from their values in declared order. -/
def record {τ : Type} (names : List String) (make : List (Option Json) → Option τ) :
    Decoder τ :=
  fun v => (fields? names v).bind make

/-- A record without fields. -/
def unit {τ : Type} (value : τ) : Decoder τ
  | .object _ => some value
  | .array [] => some value
  | _ => none

/-- The position of a variant in the list of their names. -/
def variant? (context : Context) (variants : List String) : Json → Option Nat
  | .string (some s) => variants.findIdx? (· == s)
  | .number n =>
    match context with
    | .inside => n.number?.bind (Number.natural? variants.length)
    | .outside _ => none
  | _ => none

/-- The tag of a choice and the rest of it. -/
def untag? (tag : String) : Json → Option (Json × Json)
  | .object members => do
    let value ← (← field? tag members)
    return (value, .object (members.filter fun m => m.1 != some tag))
  | .array (value :: items) => some (value, .array items)
  | _ => none

/-- Everything in a choice denotes something; inside another choice this is known. -/
def isAcceptable (context : Context) (v : Json) : Bool :=
  match context with
  | .outside depth => v.isStrict depth
  | .inside => true

/-- A choice between named variants, each with a decoder for what stands beside the
tag. -/
def choice {τ : Type} (context : Context) (tag : String)
    (variants : List (String × Decoder τ)) : Decoder τ := fun v =>
  if isAcceptable context v then do
    let (name, rest) ← untag? tag v
    let i ← variant? context (variants.map Prod.fst) name
    let variant ← variants[i]?
    variant.2 rest
  else none

end PictureMarkup.Json
