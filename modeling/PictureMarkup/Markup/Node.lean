import PictureMarkup.Options

/-!
# Markup

A document is a tree of elements and comments. It is written either on one line or
with every element, comment and closing tag on a line of its own, indented by its
depth. Text occurs only as the whole content of an element and is written as it
stands. In attribute values only the quote that would end them is escaped.

Which line ending is used is decided last, for the document as a whole.
-/

namespace PictureMarkup.Markup

/-- A part of a document. -/
inductive Node where
  /-- An element with attributes and content. -/
  | element (name : String) (attributes : List (String × String)) (content : List Node)
  /-- An element that holds text, whose spaces all count. -/
  | verbatim (name text : String)
  | comment (text : String)

/-- How a document is laid out. -/
structure Layout where
  /-- Spaces for each level; none for a document on one line. -/
  indent : Option Nat
  lineEnding : LineEnding

/-- The widest indentation of a level. -/
def maximumIndent : Nat := 255

/-- What stands in front of a line at some depth. -/
def lineBreak (indent : Option Nat) (depth : Nat) : List Char :=
  match indent with
  | none => []
  | some width => '\n' :: List.replicate (depth * min width maximumIndent) ' '

/-- A character of an attribute value. -/
def attributeChar (c : Char) : List Char := if c = '"' then "&quot;".toList else [c]

/-- An attribute with the space in front of it. -/
def attributeChars (a : String × String) : List Char :=
  ' ' :: (a.1.toList ++ '=' :: '"' :: (a.2.toList.flatMap attributeChar ++ ['"']))

/-- A tag up to its closing bracket. -/
def openingChars (name : String) (attributes : List (String × String)) : List Char :=
  '<' :: (name.toList ++ attributes.flatMap attributeChars)

/-- A closing tag. -/
def closingChars (name : String) : List Char := '<' :: '/' :: (name.toList ++ ['>'])

mutual

/-- A part of a document that begins at some depth. -/
def Node.chars (indent : Option Nat) (depth : Nat) : Node → List Char
  | .element name attributes [] => openingChars name attributes ++ ['/', '>']
  | .element name attributes (n :: ns) =>
    openingChars name attributes ++ '>' ::
      (contentChars indent (depth + 1) (n :: ns) ++
        (lineBreak indent depth ++ closingChars name))
  | .verbatim name text => openingChars name [] ++ '>' :: (text.toList ++ closingChars name)
  | .comment text => "<!--".toList ++ (text.toList ++ "-->".toList)

/-- Parts of a document, each behind its line break. -/
def contentChars (indent : Option Nat) (depth : Nat) : List Node → List Char
  | [] => []
  | n :: ns => lineBreak indent depth ++ (n.chars indent depth ++ contentChars indent depth ns)

end

/-- A character with line feeds replaced by a line ending. -/
def endedChar (ending : LineEnding) (c : Char) : List Char :=
  if c = '\n' then ending.text.toList else [c]

/-- The text of a document. -/
def Node.render (layout : Layout) (n : Node) : String :=
  String.ofList ((n.chars layout.indent 0).flatMap (endedChar layout.lineEnding))

end PictureMarkup.Markup

namespace PictureMarkup

/-- The layout that conversion settings ask for. -/
def Options.layout (o : Options) : Markup.Layout := ⟨o.indent, o.lineEnding⟩

end PictureMarkup
