import Mathlib.Data.List.Forall2
import PictureMarkup.Proofs.Resources

/-!
# The markup of styles

A styles document goes over its drawings twice, once for the gallery and once for the resources.
Both passes agree, because what is read of the markup follows from the drawings and their keys
alone (`StylesDocument.resources_read_back`): one element in which tags nest, with the gallery in
front, if there is one, and the resources behind it. The keys in it are those of the resources,
and the references are those of the gallery.

On one line, an element is its tags around what its parts are on one line
(`Markup.render_oneLine`), so each resource is there as it would be written by itself.
-/

namespace PictureMarkup

open Markup

/-! ## What is read of a styles document -/

/-- How a resource is shown. -/
def shown (key : String) : DocumentKind → Tree
  | .image => .element "ContentControl" [("Content", resourceReference key)] []
  | .drawingGroup =>
    .element "Image" [] [.element "Image.Source" []
      [.element "DrawingImage" [("Drawing", resourceReference key)] []]]

namespace StylesDocument

/-- The attributes of the outermost element. -/
def namespaces : List (String × String) :=
  [("xmlns", "https://github.com/avaloniaui"),
    ("xmlns:x", "http://schemas.microsoft.com/winfx/2006/xaml")]

/-- What is read of the gallery: every resource in its order, shown as its kind asks for. -/
def galleryTree (d : StylesDocument) : Tree :=
  .element "Design.PreviewWith" []
    [.element "ScrollViewer"
      [("HorizontalScrollBarVisibility", "Auto"), ("VerticalScrollBarVisibility", "Auto")]
      [.element "WrapPanel" [("ItemWidth", "50"), ("ItemHeight", "50"), ("MaxWidth", "400")]
        (d.entries.map fun e => shown e.1 e.2.kind)]]

/-- What is read of a document with some resources. -/
def treeWith (d : StylesDocument) (resources : List Tree) : Tree :=
  .element "Styles" namespaces
    ((if d.preview then [d.galleryTree] else []) ++
      [.element "Style" [] [.element "Style.Resources" [] resources]])

/-- The element around the resources. -/
def resourcesNode (d : StylesDocument) : Node :=
  .element "Style.Resources" [] (d.entries.flatMap fun e => resourceNodes e.1 e.2)

/-- A document is its gallery, if there is one, and its style. -/
theorem document_parts (d : StylesDocument) : d.document = .element "Styles" namespaces
    ((if d.preview then [d.galleryBlock] else []) ++ [block "Style" d.resourcesNode]) := rfl

/-- The comments with the file names. -/
def comments (d : StylesDocument) : List String :=
  d.entries.map fun e => CommentText.ofFileName e.2.fileName

variable {d : StylesDocument} {es : List (String × StyleEntry)}

/-- A node of the gallery can be read back: a reference has no character to escape. -/
theorem readable_galleryNode {key : String} (isKey : ResourceKey.IsKey key) (kind : DocumentKind) :
    (galleryNode key kind).Readable := by
  have opening : referenceOpening.all fun c => isLiteral c && c != '"' && c != '\n' := by
    decide +kernel
  have value : isValue (resourceReference key) := by
    have middle := isKey.isValue
    unfold isValue at *
    rw [toList_resourceReference, List.all_append, List.all_append, opening, middle]
    rfl
  have reference : ∀ {name}, isName name → areAttributes [(name, resourceReference key)] := by
    intro name isName
    simp [areAttributes, isName, value]
  cases kind with
  | image => exact ⟨by decide, reference (by decide), trivial⟩
  | drawingGroup =>
      refine ⟨by decide, rfl, ⟨by decide, rfl, ⟨by decide, ?_, trivial⟩, trivial⟩, trivial⟩
      exact reference (by decide)

theorem readable_galleryNodes (isKey : ∀ e ∈ es, ResourceKey.IsKey e.1) :
    AllReadable (es.map fun e => galleryNode e.1 e.2.kind) := by
  induction es with
  | nil => trivial
  | cons e es ih =>
      refine ⟨readable_galleryNode (isKey e List.mem_cons_self) e.2.kind, ih ?_⟩
      exact fun e member => isKey e (List.mem_cons_of_mem _ member)

theorem readable_galleryBlock (isKey : ∀ e ∈ d.entries, ResourceKey.IsKey e.1) :
    d.galleryBlock.Readable := by
  have nodes := readable_galleryNodes isKey
  exact ⟨by decide, rfl, ⟨by decide, by decide, ⟨by decide, by decide, nodes⟩, trivial⟩, trivial⟩

theorem tree_galleryBlock (d : StylesDocument) : d.galleryBlock.tree = d.galleryTree := by
  have nodes : treesOf (d.entries.map fun e => galleryNode e.1 e.2.kind) =
      d.entries.map fun e => shown e.1 e.2.kind := by
    induction d.entries with
    | nil => rfl
    | cons e es ih =>
        rw [List.map_cons, treesOf, ih, List.map_cons]
        cases e.2.kind <;> rfl
  simp only [galleryBlock, galleryTree, block, Node.tree, treesOf, nodes]

/-- The resources can be read with the comments between them. -/
theorem legible_resourceNodes (isKey : ∀ e ∈ d.entries, ResourceKey.IsKey e.1)
    (names : ∀ e ∈ d.entries, '\n' ∉ e.2.fileName.toList) :
    AllLegible (d.entries.flatMap fun e => resourceNodes e.1 e.2) := by
  rw [allLegible_iff]
  intro n member
  obtain ⟨e, inside, member⟩ := List.mem_flatMap.mp member
  simp only [resourceNodes, List.mem_cons, List.not_mem_nil, or_false] at member
  rcases member with rfl | rfl
  · exact ⟨CommentText.commentBody_ofFileName _, CommentText.single_ofFileName (names e inside)⟩
  · exact (readable_resourceNode (isKey e inside)).legible

theorem legible_document (isKey : ∀ e ∈ d.entries, ResourceKey.IsKey e.1)
    (names : ∀ e ∈ d.entries, '\n' ∉ e.2.fileName.toList) : d.document.Legible := by
  have style : (block "Style" d.resourcesNode).Legible :=
    ⟨by decide, rfl, ⟨by decide, rfl, legible_resourceNodes isKey names⟩, trivial⟩
  refine ⟨by decide, by decide, ?_⟩
  cases d.preview with
  | false => exact ⟨style, trivial⟩
  | true => exact ⟨(readable_galleryBlock isKey).legible, style, trivial⟩

theorem treesIn_resourceNodes (isKey : ∀ e ∈ es, ResourceKey.IsKey e.1) :
    treesIn (es.flatMap fun e => resourceNodes e.1 e.2) =
      es.map fun e => (resourceNode e).tree := by
  induction es with
  | nil => rfl
  | cons e es ih =>
      have own : treesIn (resourceNodes e.1 e.2) = [(resourceNode e).tree] := by
        have resource := (readable_resourceNode (isKey e List.mem_cons_self)).trees_eq
        simp only [resourceNodes, treesIn, Node.trees, List.nil_append, List.append_nil]
        exact resource
      rw [List.flatMap_cons, treesIn_append, own,
        ih fun e member => isKey e (List.mem_cons_of_mem _ member), List.map_cons]
      rfl

/-- There is one comment for each resource, made of the file name. -/
theorem commentsOf_resourceNodes (isKey : ∀ e ∈ es, ResourceKey.IsKey e.1) :
    commentsOf (es.flatMap fun e => resourceNodes e.1 e.2) =
      es.map fun e => CommentText.ofFileName e.2.fileName := by
  induction es with
  | nil => rfl
  | cons e es ih =>
      have own : commentsOf (resourceNodes e.1 e.2) = [CommentText.ofFileName e.2.fileName] := by
        have resource := (readable_resourceNode (isKey e List.mem_cons_self)).comments_eq
        simp only [resourceNodes, commentsOf, Node.comments, List.append_nil]
        exact congrArg (List.cons _) resource
      rw [List.flatMap_cons, commentsOf_append, own,
        ih fun e member => isKey e (List.mem_cons_of_mem _ member), List.map_cons]
      rfl

/-- The document is one element, with its comments in front of the resources. -/
theorem scanCommented_markup (isKey : ∀ e ∈ d.entries, ResourceKey.IsKey e.1)
    (names : ∀ e ∈ d.entries, '\n' ∉ e.2.fileName.toList) (layout : Layout) :
    scanCommented (d.markup layout) = some (d.document.tokens, d.comments) := by
  have comments : d.document.comments = d.comments := by
    have style : commentsOf [block "Style" d.resourcesNode] = d.comments := by
      simp only [block, resourcesNode, commentsOf, Node.comments, List.append_nil]
      exact commentsOf_resourceNodes isKey
    have gallery := (readable_galleryBlock isKey).comments_eq
    rw [document_parts, Node.comments, commentsOf_append, style]
    cases d.preview with
    | false => rfl
    | true => simp [commentsOf, gallery]
  rw [← comments]
  exact Node.scanCommented_render (legible_document isKey names) layout

/-- The tokens of a document are one element, and its tree is the one of the entries. -/
theorem isElement_and_build_document (isKey : ∀ e ∈ d.entries, ResourceKey.IsKey e.1)
    (names : ∀ e ∈ d.entries, '\n' ∉ e.2.fileName.toList) :
    IsElement d.document.tokens ∧ build d.document.tokens =
      some (d.treeWith (d.entries.map fun e => (resourceNode e).tree)) := by
  have style : treesIn [block "Style" d.resourcesNode] =
      [.element "Style" [] [.element "Style.Resources" []
        (d.entries.map fun e => (resourceNode e).tree)]] := by
    simp only [block, resourcesNode, treesIn, Node.trees, List.append_nil,
      treesIn_resourceNodes isKey]
  have gallery : treesIn (if d.preview then [d.galleryBlock] else []) =
      if d.preview then [d.galleryTree] else [] := by
    cases d.preview with
    | false => rfl
    | true =>
        rw [if_pos rfl, if_pos rfl, treesIn, (readable_galleryBlock isKey).trees_eq,
          tree_galleryBlock]
        rfl
  have legible := legible_document isKey names
  rw [document_parts] at legible ⊢
  obtain ⟨nested, built⟩ := isElement_and_build legible
  rw [treesIn_append, gallery, style] at built
  exact ⟨nested, built⟩

end StylesDocument

/-! ## On one line -/

namespace Markup

theorem toList_render_oneLine {n : Node} (single : n.OneLine) (ending : LineEnding) :
    (n.render ⟨none, ending⟩).toList = n.lines.flatMap Line.chars :=
  (Node.laidOut single).joined ending

theorem toList_join_render_oneLine {ns : List Node} (single : AllOneLine ns) (ending : LineEnding) :
    (String.join (ns.map (Node.render ⟨none, ending⟩))).toList =
      (linesOf ns).flatMap Line.chars := by
  induction ns with
  | nil => rfl
  | cons n ns ih =>
      rw [List.map_cons, String.join_cons, String.toList_append, toList_render_oneLine single.1,
        ih single.2, linesOf, List.flatMap_append]

/-- On one line, an element is its tags around what its parts are on one line. -/
theorem render_oneLine {name : String} {attributes : List (String × String)} {content : List Node}
    (single : (Node.element name attributes content).OneLine) (some : content ≠ [])
    (ending : LineEnding) :
    (Node.element name attributes content).render ⟨none, ending⟩ =
      String.ofList (openingChars name attributes ++ ['>']) ++
        String.join (content.map (Node.render ⟨none, ending⟩)) ++
          String.ofList (closingChars name) := by
  refine String.toList_injective ?_
  rw [toList_render_oneLine single, toList_around, String.toList_ofList, String.toList_ofList,
    toList_join_render_oneLine single.2.2]
  cases content with
  | nil => exact absurd rfl some
  | cons n ns => simp [Node.lines, Line.chars]

theorem render_comment {text : String} (single : '\n' ∉ text.toList) (ending : LineEnding) :
    (Node.comment text).render ⟨none, ending⟩ = "<!--" ++ text ++ "-->" := by
  refine String.toList_injective ?_
  have joined := toList_render_oneLine (n := .comment text) single ending
  rw [joined, toList_around, Node.lines, List.flatMap_singleton]
  rfl

end Markup

theorem join_singleton (s : String) : String.join [s] = s := by
  rw [String.join_cons, String.join_nil, String.append_empty]

theorem join_flatMap {τ : Type} (f : τ → List String) (xs : List τ) :
    String.join (xs.flatMap f) = String.join (xs.map fun x => String.join (f x)) := by
  induction xs with
  | nil => rfl
  | cons x xs ih => rw [List.flatMap_cons, String.join_append, ih, List.map_cons, String.join_cons]

namespace StylesDocument

/-- The text of a resource: its comment, and its drawing as it is written by itself. -/
def resourceText (ending : LineEnding) (e : String × StyleEntry) : String :=
  "<!--" ++ CommentText.ofFileName e.2.fileName ++ "-->" ++
    e.2.root.markup e.2.kind (some e.1) ⟨none, ending⟩

/-- The text of all resources, one behind the other. -/
def resourcesText (d : StylesDocument) (ending : LineEnding) : String :=
  if d.isEmpty then "<Style.Resources/>"
  else "<Style.Resources>" ++ String.join (d.entries.map (resourceText ending)) ++
    "</Style.Resources>"

variable {d : StylesDocument}

theorem join_resourceNodes {es : List (String × StyleEntry)}
    (names : ∀ e ∈ es, '\n' ∉ e.2.fileName.toList) (ending : LineEnding) :
    String.join ((es.flatMap fun e => resourceNodes e.1 e.2).map (Node.render ⟨none, ending⟩)) =
      String.join (es.map (resourceText ending)) := by
  rw [List.map_flatMap, join_flatMap]
  refine congrArg String.join (List.map_congr_left fun e member => ?_)
  have comment := render_comment (CommentText.single_ofFileName (names e member)) ending
  rw [resourceNodes, List.map_cons, List.map_singleton, String.join_cons, join_singleton, comment]
  rfl

theorem render_resourcesNode (single : d.resourcesNode.OneLine)
    (names : ∀ e ∈ d.entries, '\n' ∉ e.2.fileName.toList) (ending : LineEnding) :
    d.resourcesNode.render ⟨none, ending⟩ = d.resourcesText ending := by
  have joined := join_resourceNodes names ending
  unfold resourcesNode at single ⊢
  unfold resourcesText isEmpty
  cases entries : d.entries with
  | nil =>
      show (Node.element "Style.Resources" [] []).render ⟨none, ending⟩ = "<Style.Resources/>"
      cases ending <;> decide +kernel
  | cons e es =>
      rw [entries] at joined single
      have some : (e :: es).flatMap (fun e => resourceNodes e.1 e.2) ≠ [] := by
        rw [List.flatMap_cons, resourceNodes]
        exact List.cons_ne_nil _ _
      have opening : String.ofList (openingChars "Style.Resources" [] ++ ['>']) =
          "<Style.Resources>" := by decide +kernel
      have closing : String.ofList (closingChars "Style.Resources") = "</Style.Resources>" := by
        decide +kernel
      rw [render_oneLine single some, joined, opening, closing]
      rfl

/-- The tag that opens a document. -/
def openingTag : String :=
  "<Styles xmlns=\"https://github.com/avaloniaui\" " ++
    "xmlns:x=\"http://schemas.microsoft.com/winfx/2006/xaml\">"

/-- A document on one line: the gallery, if there is one, and the resources. -/
theorem markup_oneLine (single : d.document.OneLine)
    (names : ∀ e ∈ d.entries, '\n' ∉ e.2.fileName.toList) (ending : LineEnding) :
    d.markup ⟨none, ending⟩ =
      openingTag ++
        ((if d.preview then d.galleryBlock.render ⟨none, ending⟩ else "") ++
          ("<Style>" ++ d.resourcesText ending ++ "</Style>")) ++
        "</Styles>" := by
  rw [document_parts] at single
  have content := (allOneLine_iff _).mp single.2.2
  -- the gallery is kept as it is, so only the other part has to be written out
  have styleSingle : (block "Style" d.resourcesNode).OneLine :=
    content _ (List.mem_append_right _ List.mem_cons_self)
  have style : (block "Style" d.resourcesNode).render ⟨none, ending⟩ =
      "<Style>" ++ d.resourcesText ending ++ "</Style>" := by
    have opening : String.ofList (openingChars "Style" [] ++ ['>']) = "<Style>" := by
      decide +kernel
    have closing : String.ofList (closingChars "Style") = "</Style>" := by decide +kernel
    have resources := render_resourcesNode styleSingle.2.2.1 names ending
    rw [block, render_oneLine styleSingle (List.cons_ne_nil _ _), opening, closing,
      List.map_singleton, join_singleton, resources]
  have inside : String.join (((if d.preview then [d.galleryBlock] else []) ++
      [block "Style" d.resourcesNode]).map (Node.render ⟨none, ending⟩)) =
        (if d.preview then d.galleryBlock.render ⟨none, ending⟩ else "") ++
          ("<Style>" ++ d.resourcesText ending ++ "</Style>") := by
    rw [List.map_append, String.join_append, List.map_singleton, style, join_singleton]
    cases d.preview with
    | false => rfl
    | true => rw [if_pos rfl, if_pos rfl, List.map_singleton, join_singleton]
  have opening : String.ofList (openingChars "Styles" namespaces ++ ['>']) = openingTag := by
    decide +kernel
  have closing : String.ofList (closingChars "Styles") = "</Styles>" := by decide +kernel
  have whole := render_oneLine single (List.append_ne_nil_of_right_ne_nil _ (List.cons_ne_nil _ _))
    ending
  rw [opening, closing, inside] at whole
  exact whole

end StylesDocument

/-! ## Both passes agree -/

/-- The attribute that refers to a resource. -/
def shownIn : DocumentKind → String
  | .image => "Content"
  | .drawingGroup => "Drawing"

/-- The gallery has one attribute for each entry, which refers to it. -/
theorem attributesIn_shown (es : List (String × StyleEntry)) :
    attributesIn (es.map fun e => shown e.1 e.2.kind) =
      es.map fun e => (shownIn e.2.kind, resourceReference e.1) := by
  induction es with
  | nil => rfl
  | cons e es ih =>
      rw [List.map_cons, attributesIn, ih, List.map_cons]
      cases e.2.kind <;> rfl

theorem keyIn_shownIn (kind : DocumentKind) (value : String) :
    keyIn (shownIn kind, value) = none := by
  have other : shownIn kind ≠ "x:Key" := by cases kind <;> decide
  exact if_neg other

theorem Resource.keys_resources {es : List (String × StyleEntry)} {resources : List Tree}
    (each : List.Forall₂ Resource es resources) :
    (attributesIn resources).filterMap keyIn = es.map Prod.fst := by
  induction each with
  | nil => rfl
  | @cons e t es ts first _ ih =>
      have own : t.attributes.filterMap keyIn = [e.1] := first.keys
      rw [attributesIn, List.filterMap_append, own, ih]
      rfl

theorem Resource.references_resources {es : List (String × StyleEntry)} {resources : List Tree}
    (each : List.Forall₂ Resource es resources) :
    ((attributesIn resources).filterMap fun a => reference? a.2) = [] := by
  induction each with
  | nil => rfl
  | @cons e t es ts first _ ih =>
      have own : (t.attributes.filterMap fun a => reference? a.2) = [] := first.references
      rw [attributesIn, List.filterMap_append, own, ih]
      rfl

namespace StylesDocument

/-- The attributes of the elements around the gallery. -/
def galleryFrame : List (String × String) :=
  [("HorizontalScrollBarVisibility", "Auto"), ("VerticalScrollBarVisibility", "Auto"),
    ("ItemWidth", "50"), ("ItemHeight", "50"), ("MaxWidth", "400")]

variable (d : StylesDocument) {resources : List Tree}

theorem attributes_treeWith (resources : List Tree) :
    (d.treeWith resources).attributes =
      namespaces ++
        ((if d.preview then
            galleryFrame ++ d.entries.map fun e => (shownIn e.2.kind, resourceReference e.1)
          else []) ++ attributesIn resources) := by
  have shownAttributes := attributesIn_shown d.entries
  cases preview : d.preview with
  | false => simp [treeWith, preview, Tree.attributes, attributesIn, namespaces]
  | true =>
      simp [treeWith, preview, galleryTree, Tree.attributes, attributesIn, namespaces,
        galleryFrame, shownAttributes]

/-- The keys in what is read are the keys of the resources in their order. -/
theorem keys_treeWith (each : List.Forall₂ Resource d.entries resources) :
    (d.treeWith resources).keys = d.keys := by
  have fixed : namespaces.filterMap keyIn = [] := by decide
  have gallery : ((if d.preview then
      galleryFrame ++ d.entries.map fun e => (shownIn e.2.kind, resourceReference e.1)
    else []).filterMap keyIn) = [] := by
    have frame : galleryFrame.filterMap keyIn = [] := by decide
    cases d.preview with
    | false => rfl
    | true => simp [frame, keyIn_shownIn]
  rw [Tree.keys, attributes_treeWith, List.filterMap_append, List.filterMap_append, fixed, gallery,
    Resource.keys_resources each]
  rfl

/-- The references in what is read are those of the gallery. -/
theorem references_treeWith (each : List.Forall₂ Resource d.entries resources) :
    (d.treeWith resources).references = if d.preview then d.keys else [] := by
  have fixed : (namespaces.filterMap fun a => reference? a.2) = [] := by decide +kernel
  have gallery : ((if d.preview then
      galleryFrame ++ d.entries.map fun e => (shownIn e.2.kind, resourceReference e.1)
    else []).filterMap fun a => reference? a.2) = if d.preview then d.keys else [] := by
    have frame : (galleryFrame.filterMap fun a => reference? a.2) = [] := by decide +kernel
    cases d.preview with
    | false => rfl
    | true =>
        rw [if_pos rfl, if_pos rfl, List.filterMap_append, frame, List.filterMap_map, keys,
          List.nil_append, ← List.filterMap_eq_map]
        exact List.filterMap_congr fun e _ => reference?_resourceReference e.1
  rw [Tree.references, attributes_treeWith, List.filterMap_append, List.filterMap_append, fixed,
    gallery, Resource.references_resources each, List.nil_append, List.append_nil]

theorem preview_ofEntries (preview : Bool) (es : List StyleEntry) :
    (ofEntries preview es).preview = preview := by
  induction es using List.reverseRecOn with
  | nil => rfl
  | append_singleton es e ih =>
      rw [ofEntries_append_one]
      exact ih

/-- **Both passes over the drawings agree.** Whatever drawings are added to a styles document, if
no file name has a line break, its markup is one element in every layout, in which the tag that
was opened last is closed first. With a gallery, that shows every resource as its kind asks for.
Behind it there are the resources, and each is what is read of the markup of its drawing by
itself. The keys in all of this are the keys of the resources in their order, all different, each
on the outermost element of its resource. The references are to the same keys in the same order
if there is a gallery, and otherwise there are none. The comments are those with the file names,
and none of them holds two dashes in a row or ends in a dash. On one line, the resources are the
comments and the markup of the drawings by themselves, one behind the other. -/
theorem resources_read_back (preview : Bool) (es : List StyleEntry)
    (names : ∀ e ∈ es, '\n' ∉ e.fileName.toList) :
    let d := ofEntries preview es
    (d.preview = preview ∧ d.entries.map Prod.snd = es ∧ d.keys.Nodup) ∧
      (∃ tokens resources, IsElement tokens ∧ build tokens = some (d.treeWith resources) ∧
        (∀ layout, scanCommented (d.markup layout) = some (tokens, d.comments)) ∧
        List.Forall₂ Resource d.entries resources ∧
        (d.treeWith resources).keys = d.keys ∧
        (d.treeWith resources).references = if preview then d.keys else []) ∧
      (∀ body ∈ d.comments, ¬['-', '-'] <:+: body.toList ∧ body.toList.getLast? ≠ some '-') ∧
      ∀ ending, d.markup ⟨none, ending⟩ =
        openingTag ++
          ((if preview then d.galleryBlock.render ⟨none, ending⟩ else "") ++
            ("<Style>" ++ d.resourcesText ending ++ "</Style>")) ++
          "</Styles>" := by
  intro d
  have keyed := keyed_ofEntries preview es
  have entries := entries_ofEntries preview es
  -- every key and every name fits on a line, and reading back asks for no more
  have isKey : ∀ e ∈ d.entries, ResourceKey.IsKey e.1 :=
    fun e member => keyed.isKey e.1 (List.mem_map_of_mem member)
  have single : ∀ e ∈ d.entries, '\n' ∉ e.2.fileName.toList := by
    intro e member
    have given : e.2 ∈ es := entries ▸ List.mem_map_of_mem member
    exact names e.2 given
  have oneLine : d.document.OneLine :=
    oneLine_document (fun e member => (isKey e member).single) single
  have shows : d.preview = preview := preview_ofEntries preview es
  have each : List.Forall₂ Resource d.entries (d.entries.map fun e => (resourceNode e).tree) := by
    rw [List.forall₂_map_right_iff, List.forall₂_same]
    exact fun e member => resource_resourceNode (isKey e member)
  obtain ⟨nested, built⟩ := isElement_and_build_document isKey single
  refine ⟨⟨shows, entries, keyed.nodup⟩, ?_, ?_, ?_⟩
  · have references := d.references_treeWith each
    rw [shows] at references
    exact ⟨_, _, nested, built, scanCommented_markup isKey single, each, d.keys_treeWith each,
      references⟩
  · intro body member
    obtain ⟨e, -, rfl⟩ := List.mem_map.mp member
    exact (commentBody_iff _).mp (CommentText.commentBody_ofFileName _)
  · intro ending
    have whole := markup_oneLine oneLine single ending
    rw [shows] at whole
    exact whole

/-- Two drawings whose files have the same name, with dashes. -/
theorem resources_read_back_dashes :
    let es : List StyleEntry :=
      [⟨"a--b.svg", .image, Group.window⟩, ⟨"c/a--b.svg", .drawingGroup, {}⟩]
    let d := ofEntries true es
    ((∀ e ∈ es, '\n' ∉ e.fileName.toList) ∧
      d.keys = ["_a__b", "_a__b_1"] ∧ d.comments = [" a- -b.svg ", " c/a- -b.svg "]) ∧
      ∃ tokens resources, (∀ layout, scanCommented (d.markup layout) = some (tokens, d.comments)) ∧
        build tokens = some (d.treeWith resources) ∧ List.Forall₂ Resource d.entries resources := by
  intro es d
  have names : ∀ e ∈ es, '\n' ∉ e.fileName.toList := by decide
  obtain ⟨-, ⟨tokens, resources, -, built, scanned, each, -⟩, -⟩ :=
    resources_read_back true es names
  exact ⟨⟨names, by decide +kernel, by decide +kernel⟩, tokens, resources, scanned, built, each⟩

end StylesDocument

end PictureMarkup
