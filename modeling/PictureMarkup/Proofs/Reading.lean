import PictureMarkup.Proofs.Scanning

/-!
# Reading elements

Tags are matched with a stack: a tag that opens an element is put on it, and a tag that
closes one has to name the element on top. What is read is a tree of elements and texts
(`Tree`), where it makes no difference how a document is laid out and whether an element
without content has one tag or two.

The text of a readable document is one element, and its tree is read back from it
(`Node.read_render`).
-/

namespace PictureMarkup.Markup

/-! ## Nesting -/

mutual

/-- Tags and texts that make up one element. The tag that was opened last is closed
first. -/
inductive IsElement : List Token → Prop
  | empty {name attributes} : IsElement [.empty name attributes]
  | full {name attributes content} : IsContent content →
      IsElement (.start name attributes :: (content ++ [.finish name]))

/-- Texts and whole elements. -/
inductive IsContent : List Token → Prop
  | nil : IsContent []
  | text {t rest} : IsContent rest → IsContent (.text t :: rest)
  | element {tokens rest} : IsElement tokens → IsContent rest → IsContent (tokens ++ rest)

end

mutual

theorem Node.isElement : ∀ {n : Node}, n.Readable → IsElement n.tokens
  | .element _ _ [], _ => .empty
  | .element _ _ (_ :: _), ⟨_, _, content⟩ => .full (isContent content)
  | .verbatim _ _, _ => .full (.text .nil)

theorem isContent : ∀ {ns : List Node}, AllReadable ns → IsContent (tokensOf ns)
  | [], _ => .nil
  | _ :: _, ⟨first, others⟩ => .element (Node.isElement first) (isContent others)

end

/-! ## Trees -/

/-- An element with its attributes and content, or a text. -/
inductive Tree where
  | element (name : String) (attributes : List (String × String)) (content : List Tree)
  | text (t : String)

mutual

/-- What is read of a part of a document. -/
def Node.tree : Node → Tree
  | .element name attributes content => .element name attributes (treesOf content)
  | .verbatim name text => .element name [] [.text text]
  | .comment text => .text text

/-- The trees of some nodes. -/
def treesOf : List Node → List Tree
  | [] => []
  | n :: ns => n.tree :: treesOf ns

end

/-- An element that is still open, with what stands before it in the element around it. -/
structure Open where
  name : String
  attributes : List (String × String)
  before : List Tree

/-- The open elements, the innermost first, and what has been read of its content. -/
structure Builder where
  around : List Open := []
  content : List Tree := []

namespace Builder

/-- Take one more token in. An end must have the name of the element it ends. -/
def step : Builder → Token → Option Builder
  | ⟨around, content⟩, .start name attributes => some ⟨⟨name, attributes, content⟩ :: around, []⟩
  | ⟨around, content⟩, .empty name attributes =>
    some ⟨around, content ++ [.element name attributes []]⟩
  | ⟨around, content⟩, .text t => some ⟨around, content ++ [.text t]⟩
  | ⟨⟨name, attributes, before⟩ :: around, content⟩, .finish closed =>
    if closed = name then some ⟨around, before ++ [.element name attributes content]⟩ else none
  | ⟨[], _⟩, .finish _ => none

/-- The tree of a document that consists of one element. -/
def result : Builder → Option Tree
  | ⟨[], [.element name attributes content]⟩ => some (.element name attributes content)
  | _ => none

theorem step_finish (name : String) (attributes : List (String × String))
    (before content : List Tree) (around : List Open) :
    step ⟨⟨name, attributes, before⟩ :: around, content⟩ (.finish name) =
      some ⟨around, before ++ [.element name attributes content]⟩ := by
  rw [step, if_pos rfl]

end Builder

/-- Read a document. -/
def read (text : String) : Option Tree :=
  ((scan text).bind (·.foldlM Builder.step {})).bind Builder.result

open Builder

mutual

/-- The tags and texts of a part of a document add its tree to the content. -/
theorem Node.builds : ∀ {n : Node} (around : List Open) (content : List Tree), n.Readable →
    Reaches step ⟨around, content⟩ n.tokens ⟨around, content ++ [n.tree]⟩
  | .element name attributes [], around, content, _ => .single rfl
  | .element name attributes (n :: ns), around, content, ⟨_, _, readable⟩ => by
    -- the element waits on the stack while its content is read
    have inside := buildsAll (⟨name, attributes, content⟩ :: around) [] readable
    have closed := step_finish name attributes content ([] ++ treesOf (n :: ns)) around
    exact .cons rfl (inside.append (.single closed))
  | .verbatim name text, around, content, _ => by
    have closed := step_finish name [] content [.text text] around
    exact .cons rfl (.cons rfl (.single closed))

theorem buildsAll : ∀ {ns : List Node} (around : List Open) (content : List Tree),
    AllReadable ns → Reaches step ⟨around, content⟩ (tokensOf ns) ⟨around, content ++ treesOf ns⟩
  | [], around, content, _ => by
    rw [treesOf, List.append_nil]
    exact .nil
  | n :: ns, around, content, ⟨first, others⟩ => by
    have rest := buildsAll around (content ++ [n.tree]) others
    rw [List.append_assoc] at rest
    exact (n.builds around content first).append rest

end

theorem Node.result_tree {n : Node} (readable : n.Readable) :
    result ⟨[], [n.tree]⟩ = some n.tree := by
  cases n with
  | element name attributes content => rfl
  | verbatim name text => rfl
  | comment text => exact readable.elim

/-- The tree of a readable document is read back from its text in any layout. -/
theorem Node.read_render {n : Node} (readable : n.Readable) (layout : Layout) :
    read (n.render layout) = some n.tree := by
  have built : Reaches step {} n.tokens ⟨[], [n.tree]⟩ := n.builds [] [] readable
  rw [read, n.scan_render readable, Option.bind_some, built, Option.bind_some,
    Node.result_tree readable]

end PictureMarkup.Markup
