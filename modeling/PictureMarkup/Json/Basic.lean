import PictureMarkup.Json.Number

/-!
# JSON values

A value as it is written: members of objects keep their order and may repeat, numbers
keep their spelling. Escapes in a string may fail to denote text, when one half of a
surrogate pair stands alone; such a string is kept without a text. Whether that
matters depends on whether anyone looks at it.

Strict values are those in which everything denotes something and that are not nested
too deep.
-/

namespace PictureMarkup

/-- A JSON value as it is written. -/
inductive Json where
  | null
  | bool (b : Bool)
  | number (n : Json.Numeral)
  | string (text : Option String)
  | array (items : List Json)
  | object (members : List (Option String × Json))

namespace Json

/-- How deep arrays and objects may be nested. -/
def maximumDepth : Nat := 127

mutual

/-- Everything denotes something, and no more than some levels are nested. -/
def isStrict (depth : Nat) : Json → Bool
  | .null | .bool _ => true
  | .number n => n.number?.isSome
  | .string text => text.isSome
  | .array items => 0 < depth && areStrict (depth - 1) items
  | .object members => 0 < depth && membersStrict (depth - 1) members

/-- Every item is strict. -/
def areStrict (depth : Nat) : List Json → Bool
  | [] => true
  | v :: vs => isStrict depth v && areStrict depth vs

/-- Every member is strict. -/
def membersStrict (depth : Nat) : List (Option String × Json) → Bool
  | [] => true
  | m :: ms => memberStrict depth m && membersStrict depth ms

/-- A member's key denotes text and its value is strict. -/
def memberStrict (depth : Nat) : Option String × Json → Bool
  | (key, v) => key.isSome && isStrict depth v

end

end Json

end PictureMarkup
