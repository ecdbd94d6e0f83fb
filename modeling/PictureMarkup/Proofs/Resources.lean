import PictureMarkup.Proofs.Attributes
import PictureMarkup.Proofs.Layouts

/-!
# Resources

A resource stands behind a comment with the name of its file. The dashes of the name have been
separated, so that the comment ends where it should (`CommentText.commentBody_ofFileName`).

A resource has its key on its outermost element and is otherwise what its drawing would be by
itself (`Resource`). There are no other keys in it, since a drawing has none inside
(`DrawingAttribute.name_ne_key`), and there are no references to other resources, since no
attribute in a drawing has a brace in its value (`DrawingAttribute.brace_notMem`).
-/

namespace PictureMarkup

open Markup

/-! ## Comments -/

namespace CommentText

theorem adjacentDashes_separate (s : List Char) : adjacentDashes (separate s) = 0 := by
  fun_induction separate s with
  | case1 s none => exact none
  | case2 s _ ih => exact ih

/-- Without dashes in a row, a text is a comment in front of a space. -/
theorem commentBody_append_space {s : List Char} (apart : adjacentDashes s = 0) :
    CommentBody (s ++ [' ']) := by
  have space : (' ' : Char) ≠ '-' := by decide
  induction s using List.twoStepInduction with
  | nil => exact .char space .nil
  | singleton c =>
      by_cases dash : c = '-'
      · subst dash
        exact .dash space .nil
      · exact .char dash (.char space .nil)
  | cons_cons c d cs shorter longer =>
      rw [adjacentDashes, Nat.add_eq_zero_iff] at apart
      obtain ⟨here, later⟩ := apart
      by_cases dash : c = '-'
      · subst dash
        have other : d ≠ '-' := by
          rintro rfl
          exact absurd here (by simp)
        have rest : adjacentDashes cs = 0 := by
          rw [adjacentDashes_cons, Nat.add_eq_zero_iff] at later
          exact later.2
        -- behind a dash comes another character, so that two steps are taken at once
        exact .dash other (shorter rest)
      · exact .char dash (longer d later)

/-- The name of a file may stand in a comment. -/
theorem commentBody_ofFileName (name : String) : CommentBody (ofFileName name).toList := by
  have body := commentBody_append_space (adjacentDashes_separate name.toList)
  rw [ofFileName, String.toList_ofList]
  exact .char (by decide) body

end CommentText

/-! ## Keys and references -/

/-- The key that an attribute gives to its element. -/
def keyIn (a : String × String) : Option String := if a.1 = "x:Key" then some a.2 else none

/-- How a value refers to a resource. -/
def resourceReference (key : String) : String := "\x7bDynamicResource " ++ key ++ "\x7d"

/-- What stands in front of the key. -/
def referenceOpening : List Char := "\x7bDynamicResource ".toList

/-- What stands between an opening and a closing character. -/
def between? (opening : List Char) (closing : Char) (cs : List Char) : Option (List Char) :=
  if opening.isPrefixOf cs ∧ cs.getLast? = some closing then
    some (cs.drop opening.length).dropLast
  else none

/-- The key of the resource that a value refers to. -/
def reference? (value : String) : Option String :=
  (between? referenceOpening '\x7d' value.toList).map String.ofList

/-- The keys in a tree. -/
def Markup.Tree.keys (t : Tree) : List String := t.attributes.filterMap keyIn

/-- The keys of the resources to which a tree refers. -/
def Markup.Tree.references (t : Tree) : List String :=
  t.attributes.filterMap fun a => reference? a.2

theorem between?_append (opening inner : List Char) (closing : Char) :
    between? opening closing (opening ++ (inner ++ [closing])) = some inner := by
  have last : (opening ++ (inner ++ [closing])).getLast? = some closing := by
    rw [← List.append_assoc, List.getLast?_concat]
  have first := List.isPrefixOf_iff_prefix.mpr (List.prefix_append opening (inner ++ [closing]))
  rw [between?, if_pos ⟨first, last⟩, List.drop_left, List.dropLast_concat]

theorem between?_eq_none {opening cs : List Char} {c : Char} (first : c ∈ opening) (other : c ∉ cs)
    (closing : Char) : between? opening closing cs = none :=
  if_neg fun inside => other ((List.isPrefixOf_iff_prefix.mp inside.1).subset first)

theorem toList_around (opening inner closing : String) :
    (opening ++ inner ++ closing).toList =
      opening.toList ++ (inner.toList ++ closing.toList) := by
  rw [String.toList_append, String.toList_append, List.append_assoc]

theorem toList_resourceReference (key : String) :
    (resourceReference key).toList = referenceOpening ++ (key.toList ++ ['\x7d']) := by
  have around : (resourceReference key).toList =
      referenceOpening ++ (key.toList ++ "\x7d".toList) := toList_around _ _ _
  have closing : "\x7d".toList = ['\x7d'] := by decide
  -- not by rewriting, which would compare the fixed texts character by character
  exact around.trans (congrArg (fun cs => referenceOpening ++ (key.toList ++ cs)) closing)

/-- A reference is read back as its key. -/
theorem reference?_resourceReference (key : String) :
    reference? (resourceReference key) = some key := by
  rw [reference?, toList_resourceReference, between?_append, Option.map_some, String.ofList_toList]

/-- A value without a brace refers to nothing. -/
theorem reference?_eq_none {value : String} (plain : '\x7b' ∉ value.toList) :
    reference? value = none := by
  have first : '\x7b' ∈ referenceOpening := by decide +kernel
  rw [reference?, between?_eq_none first plain, Option.map_none]

namespace AllDrawn

variable {attributes : List (String × String)}

theorem keys_eq (h : AllDrawn attributes) : attributes.filterMap keyIn = [] :=
  List.filterMap_eq_nil_iff.mpr fun a member => if_neg (h a member).name_ne_key

theorem references_eq (h : AllDrawn attributes) :
    (attributes.filterMap fun a => reference? a.2) = [] :=
  List.filterMap_eq_nil_iff.mpr fun a member => reference?_eq_none (h a member).brace_notMem

end AllDrawn

namespace ResourceKey.IsKey

variable {k : String}

theorem ne_of_mem (isKey : IsKey k) {c d : Char} (member : c ∈ k.toList)
    (other : ¬(d.isAlphanum ∨ d = '_')) : c ≠ d := by
  obtain ⟨cs, chars, plain⟩ := isKey
  rintro rfl
  rw [chars] at member
  rcases List.mem_cons.mp member with first | later
  · exact other (.inr first)
  · exact other (plain c later)

theorem isValue (isKey : IsKey k) : isValue k := by
  refine isValue_of_forall fun c member => ⟨?_, ?_, ?_⟩
  · rw [isLiteral, Bool.and_eq_true, bne_iff_ne, bne_iff_ne]
    exact ⟨isKey.ne_of_mem member (by decide), isKey.ne_of_mem member (by decide)⟩
  · exact isKey.ne_of_mem member (by decide)
  · exact isKey.ne_of_mem member (by decide)

theorem brace_notMem (isKey : IsKey k) : '\x7b' ∉ k.toList :=
  fun member => isKey.ne_of_mem member (by decide) rfl

end ResourceKey.IsKey

/-! ## Resources -/

/-- What is read of a resource: what is read of the markup of its drawing by itself. Its key is
an attribute of its outermost element, and there is no other one. -/
structure Resource (e : String × StyleEntry) (t : Tree) : Prop where
  own : ∀ layout, read (e.2.root.markup e.2.kind (some e.1) layout) = some t
  keyed : ∃ name attributes content, t = .element name (("x:Key", e.1) :: attributes) content ∧
    (attributes ++ attributesIn content).filterMap keyIn = []
  references : t.references = []

theorem Resource.keys {e : String × StyleEntry} {t : Tree} (resource : Resource e t) :
    t.keys = [e.1] := by
  obtain ⟨name, attributes, content, rfl, none⟩ := resource.keyed
  exact congrArg (List.cons e.1) none

/-- The element of a drawing with its key. -/
def resourceNode (e : String × StyleEntry) : Node := e.2.root.document e.2.kind (some e.1)

theorem readable_resourceNode {e : String × StyleEntry} (isKey : ResourceKey.IsKey e.1) :
    (resourceNode e).Readable := by
  refine (e.2.root.written_document e.2.kind ?_).readable
  rintro k ⟨⟩
  exact isKey.isValue

/-- The node of an entry is the resource of the entry. -/
theorem resource_resourceNode {e : String × StyleEntry} (isKey : ResourceKey.IsKey e.1) :
    Resource e (resourceNode e).tree := by
  obtain ⟨name, attributes, content, shape⟩ := e.2.root.document_eq e.2.kind
  have drawn := e.2.root.drawn_document e.2.kind
  have node : resourceNode e = .element name (("x:Key", e.1) :: attributes) content := shape _
  have inside : attributesIn (treesOf content) = attributesOf content := by
    have readable := readable_resourceNode isKey
    rw [node] at readable
    rw [← AllReadable.treesIn_eq readable.2.2, attributesIn_treesIn]
  have plain : AllDrawn (attributes ++ attributesIn (treesOf content)) := by
    rw [shape none] at drawn
    rw [inside]
    exact drawn
  refine ⟨Node.read_render (readable_resourceNode isKey), ?_, ?_⟩
  · refine ⟨name, attributes, treesOf content, ?_, plain.keys_eq⟩
    rw [node, Node.tree]
  · have own : reference? e.1 = none := reference?_eq_none isKey.brace_notMem
    rw [Tree.references, node, Node.tree, Tree.attributes, List.cons_append, List.filterMap_cons,
      own]
    exact plain.references_eq

end PictureMarkup
