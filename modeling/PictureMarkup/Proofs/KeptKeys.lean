import PictureMarkup.Proofs.Processing
import PictureMarkup.Proofs.Resources

/-!
# Which keys survive

The key of a resource is the one text in the markup of a drawing that is given from outside. It
is written as a value, with its quotes as references and all else as it stands. A processor finds
it as the only key of the outermost element, decoded, and finds everything else as it was written
(`Group.process_markup`). So the key survives if its characters are kept, and whether two keys
give the same document can be told from how they are written (`Group.key_survives_iff`). A key
with an ampersand never survives, whether or not the document can be processed.
-/

namespace PictureMarkup

open Markup

namespace Markup

/-- The keys that the outermost element of a tree has itself. -/
def Tree.ownKeys : Tree → List String
  | .element _ attributes _ => attributes.filterMap keyIn
  | .text _ => []

/-- An attribute with its value as it is written. -/
def rawAttribute (ending : LineEnding) (a : String × String) : String × String :=
  (a.1, String.ofList (writtenChars ending a.2.toList))

/-! ## The key as it was written -/

namespace Scanner

variable {ending : LineEnding} {ts : List Token} {name : String}
  {attributes : List (String × String)}

theorem reaches_raw {s t : Scanner} {cs : List Char} (reaches : Reaches step s cs t) :
    Reaches stepRaw s cs t := by
  refine reaches.map id fun moved => ?_
  rw [stepRaw, id, moved]
  rfl

/-- All is kept up to the closing quote. -/
theorem reaches_rawValue (ts : List Token) (name : String) (attributes : List (String × String))
    (key : String) {cs : List Char} (inside : '"' ∉ cs) :
    Reaches stepRaw ⟨ts, .value name attributes key []⟩ cs ⟨ts, .value name attributes key cs⟩ := by
  refine Reaches.run (fun seen => Scanner.mk ts (.value name attributes key seen))
    (fun seen c (other : c ≠ '"') => ?_) (fun c member => ?_) []
  · by_cases literal : isLiteral c
    · rw [stepRaw, step, if_neg other, if_pos literal]
    · rw [stepRaw, step, if_neg other, if_neg literal]
  · rintro rfl
    exact inside member

theorem reaches_rawAttribute (ending : LineEnding) {s : Scanner}
    (inside : s.Inside ts name attributes) {a : String × String} (isName : isName a.1) :
    Reaches stepRaw s ((attributeChars a).flatMap (endedChar ending))
      ⟨ts, .valued name (attributes ++ [rawAttribute ending a])⟩ := by
  have opened := reaches_raw (reaches_keyChars inside isName)
  have read := reaches_rawValue ts name attributes a.1 (quote_notMem_writtenChars ending a.2.toList)
  have valued : stepRaw ⟨ts, .value name attributes a.1 (writtenChars ending a.2.toList)⟩ '"' =
      some ⟨ts, .valued name (attributes ++ [rawAttribute ending a])⟩ := rfl
  have single : '\n' ∉ keyChars a.1 := by simp [keyChars, newline_notMem_name isName]
  have closing : ['"'].flatMap (endedChar ending) = ['"'] := rfl
  rw [attributeChars_eq, List.flatMap_append, flatMap_endedChar ending single, List.flatMap_append,
    closing]
  exact opened.append (read.append (.single valued))

end Scanner

open Scanner

/-- An element is scanned with its first attribute as it was written, if the others and the
content are plain. -/
theorem scanRaw_element {layout : Layout} {name : String} {a : String × String}
    {attributes : List (String × String)} {content : List Node} (own : isName name)
    (isKey : isName a.1) (readable : areAttributes attributes) (inner : AllReadable content) :
    scanRaw ((Node.element name (a :: attributes) content).render layout) =
      some (Node.element name (rawAttribute layout.lineEnding a :: attributes) content).tokens := by
  obtain ⟨s, opened, inTag⟩ := reaches_opening [] [] own
  have first := reaches_rawAttribute layout.lineEnding inTag isKey
  have later : Inside ⟨[], .valued name [rawAttribute layout.lineEnding a]⟩ [] name
      [rawAttribute layout.lineEnding a] := inside_valued
  obtain ⟨t, others, behind⟩ := reaches_attributes later readable
  have rest : Reaches step t
      ((behindChars layout.indent 0 name content).flatMap (endedChar layout.lineEnding)) _ :=
    reaches_behind own behind fun ts => reaches_content content 1 ts inner
  -- only the first attribute may have line breaks of its own
  have single : '\n' ∉ '<' :: name.toList := by simp [newline_notMem_name own]
  have singles : '\n' ∉ attributes.flatMap attributeChars := by
    have whole := newline_notMem_openingChars own readable
    simp only [openingChars, List.mem_cons, List.mem_append, not_or] at whole
    exact whole.2.2
  have chars : ((Node.element name (a :: attributes) content).chars layout.indent 0).flatMap
        (endedChar layout.lineEnding) =
      '<' :: name.toList ++ ((attributeChars a).flatMap (endedChar layout.lineEnding) ++
        (attributes.flatMap attributeChars ++
          (behindChars layout.indent 0 name content).flatMap (endedChar layout.lineEnding))) := by
    have opening : openingChars name (a :: attributes) =
        '<' :: name.toList ++ (attributeChars a ++ attributes.flatMap attributeChars) := rfl
    rw [Node.chars_element, opening, List.flatMap_append, List.flatMap_append, List.flatMap_append,
      flatMap_endedChar _ single, flatMap_endedChar _ singles, List.append_assoc, List.append_assoc]
  have read := (reaches_raw opened).append (first.append ((reaches_raw others).append
    (reaches_raw rest)))
  unfold scanRaw Node.render
  rw [String.toList_ofList, chars, read]
  exact congrArg some (List.append_nil _)

/-- What stands around the value of the first attribute does not depend on the value. -/
theorem chars_around (layout : Layout) (key name : String) (attributes : List (String × String))
    (content : List Node) : ∃ front back, ∀ value,
      ((Node.element name ((key, value) :: attributes) content).chars layout.indent 0).flatMap
          (endedChar layout.lineEnding) =
        front ++ (writtenChars layout.lineEnding value.toList ++ back) := by
  refine ⟨('<' :: name.toList ++ keyChars key).flatMap (endedChar layout.lineEnding),
    ('"' :: (attributes.flatMap attributeChars ++
      behindChars layout.indent 0 name content)).flatMap (endedChar layout.lineEnding), ?_⟩
  intro value
  have opening : openingChars name ((key, value) :: attributes) =
      '<' :: name.toList ++ (attributeChars (key, value) ++ attributes.flatMap attributeChars) :=
    rfl
  rw [Node.chars_element, opening, attributeChars_eq, writtenChars, ← List.flatMap_append,
    ← List.flatMap_append]
  simp only [List.append_assoc, List.cons_append, List.nil_append]

/-! ## The key as it is processed -/

/-- The tags of an element are processed with the first attribute decoded, if the others and the
content are those of a drawing. -/
theorem mapM_resolve?_element {name : String} {a : String × String}
    {attributes : List (String × String)} {content : List Node} (starts : startsName name)
    (distinct : Distinct (a :: attributes)) (inner : AllProcessable content)
    (drawn : AllDrawn (attributes ++ attributesOf content)) :
    (Node.element name (a :: attributes) content).tokens.mapM Token.resolve? =
      (resolveAttribute? a).map fun b => (Node.element name (b :: attributes) content).tokens := by
  obtain ⟨own, inside⟩ := List.forall_mem_append.mp drawn
  have decoded : resolveAttributes? (a :: attributes) =
      (resolveAttribute? a).map (· :: attributes) := by
    rw [resolveAttributes?, if_pos distinct, List.mapM_cons, mapM_resolveAttribute? own]
    cases resolveAttribute? a <;> rfl
  cases content with
  | nil =>
      rw [Node.tokens, List.mapM_cons, Token.resolve?, if_pos starts, decoded]
      cases resolveAttribute? a <;> rfl
  | cons n ns =>
      -- the attribute comes first, and everything behind it stands for itself
      have rest : (tokensOf (n :: ns) ++ [Token.finish name]).mapM Token.resolve? =
          some (tokensOf (n :: ns) ++ [.finish name]) := by
        rw [mapM_eq_some_iff, List.forall₂_same]
        refine List.forall_mem_append.mpr ⟨resolve?_tokensOf inner inside, fun t last => ?_⟩
        rw [List.mem_singleton.mp last]
        rfl
      rw [Node.tokens, List.mapM_cons, Token.resolve?, if_pos starts, decoded, rest]
      cases resolveAttribute? a <;> rfl

end Markup

namespace Group

/-- The key of a drawing is processed as an attribute of the outermost element, in front of the
others, and it is the only thing in the tree that depends on the key. -/
theorem process_markup (root : Group Float) (kind : DocumentKind) :
    ∃ name attributes content, attributes.filterMap keyIn = [] ∧ ∀ key layout,
      process (root.markup kind (some key) layout) =
        (decode whiteInValue (writtenChars layout.lineEnding key.toList)).map fun cs =>
          .element name (("x:Key", String.ofList cs) :: attributes) content := by
  obtain ⟨name, attributes, content, shape⟩ := root.document_eq kind
  have bare : root.document kind none = .element name attributes content := shape none
  have keyed : ∀ key, root.document kind (some key) =
      .element name (("x:Key", key) :: attributes) content := fun key => shape (some key)
  have written := root.written_document kind plain_none
  have drawn := root.drawn_document kind
  rw [bare] at written drawn
  obtain ⟨own, plain, inner⟩ := written
  have readable := areAttributes_of_wellWritten plain
  have isKey : isName "x:Key" := by decide
  refine ⟨name, attributes, treesIn content, ?_, fun key layout => ?_⟩
  · exact AllDrawn.keys_eq (List.forall_mem_append.mp drawn).1
  · have whole := root.processable_document kind
      (some (rawAttribute layout.lineEnding ("x:Key", key)).2)
    rw [keyed] at whole
    obtain ⟨starts, distinct, processable⟩ := whole
    have resolved := mapM_resolve?_element starts distinct processable drawn
    have raw : (rawAttribute layout.lineEnding ("x:Key", key)).2.toList =
        writtenChars layout.lineEnding key.toList := String.toList_ofList
    unfold process markup
    rw [keyed, scanRaw_element own isKey readable inner.readable, Option.bind_some]
    -- nothing but the value of the key can fail to be resolved
    rw [rawAttribute] at resolved raw ⊢
    rw [resolved, resolveAttribute?, raw]
    cases decode whiteInValue (writtenChars layout.lineEnding key.toList) with
    | none => rfl
    | some cs => exact build_element name _ inner.readable.legible

/-- Keys are told apart by the documents as far as they are told apart by how they are written. -/
theorem markup_eq_iff (root : Group Float) (kind : DocumentKind) (key other : String)
    (layout : Layout) :
    root.markup kind (some other) layout = root.markup kind (some key) layout ↔
      writtenChars layout.lineEnding other.toList =
        writtenChars layout.lineEnding key.toList := by
  obtain ⟨name, attributes, content, shape⟩ := root.document_eq kind
  have keyed : ∀ key, root.document kind (some key) =
      .element name (("x:Key", key) :: attributes) content := fun key => shape (some key)
  obtain ⟨front, back, around⟩ := chars_around layout "x:Key" name attributes content
  unfold markup Node.render
  rw [keyed, keyed, String.ofList_inj, around, around, List.append_cancel_left_eq,
    List.append_cancel_right_eq]

/-- **A key survives if and only if its characters do.** Whatever the drawing, the outermost
element and the layout are, a processor finds the key as it was given, as the one key of the
outermost element of a document, if and only if each of its characters may be in a document and
is neither an ampersand nor an opening bracket nor white space other than the blank. Two keys
give the same document if and only if they are written alike, so that keys that survive give
different documents. -/
theorem key_survives_iff (root : Group Float) (kind : DocumentKind) (key : String)
    (layout : Layout) :
    ((∃ t, process (root.markup kind (some key) layout) = some t ∧ t.ownKeys = [key]) ↔
        ∀ c ∈ key.toList, isKept c) ∧
      ∀ other,
        (root.markup kind (some other) layout = root.markup kind (some key) layout ↔
          writtenChars layout.lineEnding other.toList =
            writtenChars layout.lineEnding key.toList) ∧
        ((∀ c ∈ key.toList, isKept c) → (∀ c ∈ other.toList, isKept c) → other ≠ key →
          root.markup kind (some other) layout ≠ root.markup kind (some key) layout) := by
  have decoded := decode_writtenChars_iff layout.lineEnding
  refine ⟨?_, fun other => ⟨root.markup_eq_iff kind key other layout, ?_⟩⟩
  · obtain ⟨name, attributes, content, none, processed⟩ := root.process_markup kind
    have own : ∀ cs, (Tree.element name (("x:Key", String.ofList cs) :: attributes)
        content).ownKeys = [String.ofList cs] := fun cs => congrArg (List.cons _) none
    rw [← decoded, processed]
    constructor
    · rintro ⟨t, survives, keys⟩
      obtain ⟨cs, value, rfl⟩ := Option.map_eq_some_iff.mp survives
      rw [own, List.singleton_inj] at keys
      rw [value, ← keys, String.toList_ofList]
    · intro value
      rw [value]
      refine ⟨_, rfl, ?_⟩
      rw [own, String.ofList_toList]
  · intro kept keptOther different same
    rw [markup_eq_iff] at same
    -- two keys that survive are read back from the same text
    have value := (decoded other.toList).mpr keptOther
    rw [same, (decoded key.toList).mpr kept] at value
    exact different (String.toList_injective (Option.some.inj value).symm)

/-- A quote and the reference by which it is written are not told apart as keys, a key that looks
like a reference is taken for one, and a key with a lone ampersand makes a document that cannot
be processed. -/
theorem keys_lost :
    let markup := fun key => ({} : Group Float).markup .drawingGroup (some key) ⟨none, .lf⟩
    markup "&quot;" = markup "\"" ∧
      (process (markup "&lt;")).map Tree.ownKeys = some ["<"] ∧
      (process (markup "a&b")).isNone := by
  refine ⟨rfl, ?_, ?_⟩
  · decide +kernel
  · decide +kernel

end Group

end PictureMarkup
