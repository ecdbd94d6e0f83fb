import PictureMarkup.Proofs.Keys
import PictureMarkup.Proofs.Lines
import PictureMarkup.Proofs.Pruning
import PictureMarkup.Proofs.WellWritten

/-!
# Layout options change only the layout

The markup of a drawing, and that of a styles document, is made of the same lines whatever the
indent and the line ending are (`Group.markup_layouts`). This takes two facts about what is
written. Nothing in it has a line break, unless a key or a file name does
(`Group.oneLine_document`, `StylesDocument.oneLine_document`). And the path data of every clip
that is somewhere in a drawing, also in brushes and masks, stands in one line with the tags
around it (`Group.clipsIn_document`), so that no layout reaches into it.
-/

namespace PictureMarkup

open Markup

/-! ## Nothing has a line break -/

theorem allOneLine_iff (ns : List Node) : AllOneLine ns ↔ ∀ n ∈ ns, n.OneLine := by
  induction ns with
  | nil => simp [AllOneLine]
  | cons n ns ih => simp [AllOneLine, ih]

mutual

theorem Markup.Node.Written.oneLine : ∀ {n : Node}, n.Written → n.OneLine
  | .element _ _ _, ⟨name, attributes, content⟩ => by
    refine ⟨newline_notMem_name name, fun a member => ?_, AllWritten.oneLine content⟩
    have written := attributes a member
    refine ⟨newline_notMem_name written.name, fun inside => ?_⟩
    exact (literal_of_isValue written.value _ inside).2.2 rfl
  | .verbatim _ _, ⟨name, text, _⟩ =>
    ⟨newline_notMem_name name, fun inside => (literal_of_isText text _ inside).2 rfl⟩

theorem AllWritten.oneLine : ∀ {ns : List Node}, AllWritten ns → AllOneLine ns
  | [], _ => trivial
  | _ :: _, ⟨first, others⟩ => ⟨first.oneLine, AllWritten.oneLine others⟩

end

theorem oneLine_block {name : String} {n : Node} (own : '\n' ∉ name.toList) (inside : n.OneLine) :
    (block name n).OneLine :=
  ⟨own, fun _ member => absurd member List.not_mem_nil, inside, trivial⟩

namespace Group

/-- A key is one more attribute of the outermost element and changes nothing else. -/
theorem document_eq (root : Group Float) (kind : DocumentKind) : ∃ name attributes content,
    ∀ key, root.document kind key = .element name (keyAttribute key ++ attributes) content := by
  cases kind with
  | image =>
      refine ⟨"Image", [], [block "DrawingImage" (groupNode none root)], fun key => ?_⟩
      rw [List.append_nil]
      rfl
  | drawingGroup =>
      obtain ⟨transform, clip, opacity, mask, children⟩ := root
      exact ⟨_, _, _, fun key => rfl⟩

theorem oneLine_document (root : Group Float) (kind : DocumentKind) {key : Option String}
    (single : ∀ k ∈ key, '\n' ∉ k.toList) : (root.document kind key).OneLine := by
  obtain ⟨name, attributes, content, shape⟩ := root.document_eq kind
  have written := (root.written_document kind plain_none).oneLine
  rw [shape none] at written
  obtain ⟨own, each, inside⟩ := written
  rw [shape key]
  refine ⟨own, fun a member => ?_, inside⟩
  rcases List.mem_append.mp member with first | other
  · obtain ⟨k, isKey, rfl⟩ := List.mem_map.mp first
    have own : '\n' ∉ "x:Key".toList := by decide
    exact ⟨own, single k (Option.mem_toList.mp isKey)⟩
  · exact each a (List.mem_append_right _ other)

end Group

namespace CommentText

theorem mem_splitPairs {s : List Char} {c : Char} (h : c ∈ splitPairs s) : c ∈ s ∨ c = ' ' := by
  fun_induction splitPairs s with
  | case1 => exact absurd h List.not_mem_nil
  | case2 d => exact .inl h
  | case3 d e r dashes ih =>
      simp only [List.mem_cons] at h ⊢
      rcases h with rfl | rfl | rfl | later
      · simp [dashes.1]
      · exact .inr rfl
      · simp [dashes.1]
      · rcases ih later with inside | space
        · simp [inside]
        · exact .inr space
  | case4 d e r _ ih =>
      simp only [List.mem_cons] at h ih ⊢
      rcases h with rfl | later
      · simp
      · rcases ih later with inside | space
        · simp [inside]
        · exact .inr space

/-- Separating dashes brings in spaces only. -/
theorem mem_separate {s : List Char} {c : Char} (h : c ∈ separate s) : c ∈ s ∨ c = ' ' := by
  fun_induction separate s with
  | case1 s _ => exact .inl h
  | case2 s _ ih =>
      rcases ih h with inside | space
      · exact mem_splitPairs inside
      · exact .inr space

theorem single_ofFileName {name : String} (single : '\n' ∉ name.toList) :
    '\n' ∉ (ofFileName name).toList := by
  intro inside
  simp only [ofFileName, String.toList_ofList, List.mem_cons, List.mem_append,
    List.not_mem_nil, or_false] at inside
  rcases inside with space | own | space
  · exact absurd space (by decide)
  · rcases mem_separate own with line | space
    · exact single line
    · exact absurd space (by decide)
  · exact absurd space (by decide)

end CommentText

theorem ResourceKey.IsKey.single {k : String} (h : IsKey k) : '\n' ∉ k.toList := by
  obtain ⟨cs, chars, plain⟩ := h
  rw [chars]
  intro inside
  rcases List.mem_cons.mp inside with first | later
  · exact absurd first (by decide)
  · have letter := plain '\n' later
    revert letter
    decide

namespace StylesDocument

theorem oneLine_galleryNode {key : String} (single : '\n' ∉ key.toList) (kind : DocumentKind) :
    (galleryNode key kind).OneLine := by
  have value : '\n' ∉ ("\x7bDynamicResource " ++ key ++ "\x7d").toList := by
    simp [String.toList_append, single]
  cases kind with
  | image =>
      refine ⟨by decide, fun a member => ?_, trivial⟩
      have own : '\n' ∉ "Content".toList := by decide
      rw [List.mem_singleton.mp member]
      exact ⟨own, value⟩
  | drawingGroup =>
      refine oneLine_block (by decide) (oneLine_block (by decide) ⟨by decide, ?_, trivial⟩)
      intro a member
      have own : '\n' ∉ "Drawing".toList := by decide
      rw [List.mem_singleton.mp member]
      exact ⟨own, value⟩

/-- A styles document has no line breaks of its own if no key and no file name has one. -/
theorem oneLine_document {d : StylesDocument} (keys : ∀ e ∈ d.entries, '\n' ∉ e.1.toList)
    (names : ∀ e ∈ d.entries, '\n' ∉ e.2.fileName.toList) : d.document.OneLine := by
  have gallery : d.galleryBlock.OneLine := by
    refine oneLine_block (by decide) ⟨by decide, by decide, ⟨by decide, by decide, ?_⟩, trivial⟩
    rw [allOneLine_iff]
    intro n member
    obtain ⟨e, inside, rfl⟩ := List.mem_map.mp member
    exact oneLine_galleryNode (keys e inside) e.2.kind
  have resources : AllOneLine (d.entries.flatMap fun e => resourceNodes e.1 e.2) := by
    rw [allOneLine_iff]
    intro n member
    obtain ⟨e, inside, member⟩ := List.mem_flatMap.mp member
    simp only [resourceNodes, List.mem_cons, List.not_mem_nil, or_false] at member
    rcases member with rfl | rfl
    · exact CommentText.single_ofFileName (names e inside)
    · refine e.2.root.oneLine_document e.2.kind ?_
      rintro k ⟨⟩
      exact keys e inside
  have style : (block "Style" (.element "Style.Resources" []
      (d.entries.flatMap fun e => resourceNodes e.1 e.2))).OneLine :=
    oneLine_block (by decide) ⟨by decide, by decide, resources⟩
  refine ⟨by decide, by decide, ?_⟩
  cases d.preview with
  | false => exact ⟨style, trivial⟩
  | true => exact ⟨gallery, style, trivial⟩

end StylesDocument

/-! ## Path data stands in one line -/

theorem linesOf_append (ns ms : List Node) : linesOf (ns ++ ms) = linesOf ns ++ linesOf ms := by
  induction ns with
  | nil => rfl
  | cons n ns ih => simp [linesOf, ih]

theorem lines_subset_linesOf {n : Node} {ns : List Node} (member : n ∈ ns) :
    n.lines ⊆ linesOf ns := by
  induction ns with
  | nil => exact absurd member List.not_mem_nil
  | cons m ns ih =>
      intro l inside
      rw [linesOf, List.mem_append]
      rcases List.mem_cons.mp member with rfl | later
      · exact .inl inside
      · exact .inr (ih later inside)

theorem linesOf_subset_element (name : String) (attributes : List (String × String))
    (content : List Node) : linesOf content ⊆ (Node.element name attributes content).lines := by
  intro l inside
  cases content with
  | nil => exact absurd inside List.not_mem_nil
  | cons n ns => simp [Node.lines, inside]

theorem lines_subset_element {n : Node} {content : List Node} (member : n ∈ content)
    (name : String) (attributes : List (String × String)) :
    n.lines ⊆ (Node.element name attributes content).lines := by
  intro l inside
  exact linesOf_subset_element name attributes content (lines_subset_linesOf member inside)

theorem lines_subset_block (name : String) (n : Node) : n.lines ⊆ (block name n).lines :=
  lines_subset_element List.mem_cons_self name []

namespace Group

/-- What stands between the tags of a group. -/
def content (g : Group Float) : List Node :=
  transformBlock "DrawingGroup" g.transform ++ (clipBlock g.clip ++
    (drawingNodes g.children ++ maskBlock g.mask))

theorem linesOf_content_subset (g : Group Float) (key : Option String) :
    linesOf g.content ⊆ (groupNode key g).lines := by
  obtain ⟨transform, clip, opacity, mask, children⟩ := g
  exact linesOf_subset_element _ _ _

theorem drawingNode_mem {d : Drawing Float (Group Float)} {ds : List (Drawing Float (Group Float))}
    (member : d ∈ ds) : drawingNode d ∈ drawingNodes ds := by
  induction ds with
  | nil => exact absurd member List.not_mem_nil
  | cons e ds ih =>
      rw [drawingNodes]
      rcases List.mem_cons.mp member with rfl | later
      · exact List.mem_cons_self
      · exact List.mem_cons_of_mem _ (ih later)

theorem lines_subset_image (key : Option String) (n : Node) : n.lines ⊆ (imageNode key n).lines := by
  intro l inside
  have image := lines_subset_block "DrawingImage" n inside
  exact lines_subset_element List.mem_cons_self _ _ image

/-- A brush that shows a drawing has its lines. -/
theorem lines_subset_visual (b : VisualBrush Float (Group Float)) :
    (groupNode none b.visual).lines ⊆ (visualNode b).lines := by
  obtain ⟨tileMode, source, destination, transform, visual⟩ := b
  intro l inside
  have image := lines_subset_image none _ inside
  have whole := lines_subset_block "VisualBrush.Visual" _ image
  exact lines_subset_element (List.mem_append_right _ List.mem_cons_self) _ _ whole

theorem lines_subset_brushBlock (name : String) (b : VisualBrush Float (Group Float)) :
    (groupNode none b.visual).lines ⊆ linesOf (brushBlock name (some (.visual b))) := by
  intro l inside
  have brush := lines_subset_block name _ (lines_subset_visual b inside)
  exact lines_subset_linesOf List.mem_cons_self brush

/-- A group has the lines of every group directly inside it. -/
theorem Holds.linesOf_subset {g h : Group Float} {j : Nat} (holds : g.Holds j h) :
    linesOf h.content ⊆ linesOf g.content := by
  have children : ∀ d ∈ g.children, (drawingNode d).lines ⊆ linesOf g.content := by
    intro d member
    refine lines_subset_linesOf ?_
    simp [content, drawingNode_mem member]
  intro l inside
  -- below, the lines are followed from the group outwards, one element at a time
  have own := h.linesOf_content_subset none inside
  cases holds with
  | child member => exact children _ member own
  | @mask b mask =>
      have brush := lines_subset_block "DrawingGroup.OpacityMask" (brushNode (.visual b))
        (lines_subset_visual b own)
      refine lines_subset_linesOf ?_ brush
      simp [content, mask, maskBlock]
  | @fill leaf b member filled =>
      refine children _ member ?_
      have brush := lines_subset_brushBlock "GeometryDrawing.Brush" b own
      obtain ⟨path, brush', pen⟩ := leaf
      obtain rfl : brush' = some (.visual b) := filled
      refine linesOf_subset_element _ _ _ ?_
      rw [linesOf_append]
      exact List.mem_append_left _ brush
  | @stroke leaf pen b member stroked painted =>
      refine children _ member ?_
      have brush := lines_subset_brushBlock "Pen.Brush" b own
      -- a pen has its own element between the brush and the leaf
      obtain ⟨path, brush', pen'⟩ := leaf
      obtain rfl : pen' = some pen := stroked
      obtain ⟨penBrush, thickness, lineCap, lineJoin, miterLimit, dash⟩ := pen
      obtain rfl : penBrush = some (.visual b) := painted
      have outline : l ∈ (penNode ⟨some (.visual b), thickness, lineCap, lineJoin, miterLimit,
          dash⟩).lines := by
        refine linesOf_subset_element _ _ _ ?_
        rw [linesOf_append]
        exact List.mem_append_right _ brush
      have block := lines_subset_block "GeometryDrawing.Pen" _ outline
      exact lines_subset_element (List.mem_append_right _ List.mem_cons_self) _ _ block

theorem Shows.linesOf_subset {root g : Group Float} {k : Nat} (shows : root.Shows k g) :
    linesOf g.content ⊆ linesOf root.content := by
  induction shows with
  | root => exact List.Subset.refl _
  | inside _ holds ih =>
      intro l inside
      exact ih (holds.linesOf_subset inside)

/-- The path data of every clip that is somewhere in a drawing stands in one of the lines, with
nothing but the tags around it. -/
def ClipsIn (root : Group Float) (lines : List Line) : Prop :=
  ∀ k g p, root.Shows k g → g.clip = some p → .verbatim "StreamGeometry" p.text ∈ lines

theorem clipsIn_document (root : Group Float) (kind : DocumentKind) (key : Option String) :
    root.ClipsIn (root.document kind key).lines := by
  intro k g p shows clip
  have own : .verbatim "StreamGeometry" p.text ∈ linesOf g.content := by
    have block := lines_subset_block "DrawingGroup.ClipGeometry"
      (.verbatim "StreamGeometry" p.text) List.mem_cons_self
    refine lines_subset_linesOf ?_ block
    simp [content, clip, clipBlock]
  have inside := shows.linesOf_subset own
  cases kind with
  | image => exact lines_subset_image key _ (root.linesOf_content_subset none inside)
  | drawingGroup => exact root.linesOf_content_subset key inside

end Group

/-- A styles document has the lines of each of its resources. -/
theorem StylesDocument.resource_subset_lines (d : StylesDocument) {e : String × StyleEntry}
    (member : e ∈ d.entries) :
    (e.2.root.document e.2.kind (some e.1)).lines ⊆ d.document.lines := by
  have resource : e.2.root.document e.2.kind (some e.1) ∈
      d.entries.flatMap fun e => resourceNodes e.1 e.2 :=
    List.mem_flatMap.mpr ⟨e, member, by simp [resourceNodes]⟩
  intro l inside
  have resources := lines_subset_element resource "Style.Resources" [] inside
  have style := lines_subset_block "Style" _ resources
  exact lines_subset_element (List.mem_append_right _ List.mem_cons_self) _ _ style

/-! ## Layouts -/

/-- The markup of styles is made of the same lines in every layout. The keys have no line breaks
by the way they are made, so only the file names matter. -/
theorem StylesDocument.laidOut_ofEntries (preview : Bool) {es : List StyleEntry}
    (names : ∀ e ∈ es, '\n' ∉ e.fileName.toList) :
    LaidOut (ofEntries preview es).markup (ofEntries preview es).document.lines := by
  have keyed := keyed_ofEntries preview es
  have entries := entries_ofEntries preview es
  refine Node.laidOut (oneLine_document (fun e member => ?_) fun e member => ?_)
  · exact (keyed.isKey e.1 (List.mem_map_of_mem member)).single
  · have given : e.2 ∈ es := entries ▸ List.mem_map_of_mem member
    exact names e.2 given

theorem StylesDocument.clipsIn_ofEntries (preview : Bool) {es : List StyleEntry} {e : StyleEntry}
    (member : e ∈ es) : e.root.ClipsIn (ofEntries preview es).document.lines := by
  intro k g p shows clip
  rw [← entries_ofEntries preview es] at member
  obtain ⟨entry, inside, rfl⟩ := List.mem_map.mp member
  have own := entry.2.root.clipsIn_document entry.2.kind (some entry.1) k g p shows clip
  exact resource_subset_lines _ inside own

/-- **The layout decides only where lines break.** Whatever the drawing is, and whatever key
without line breaks it gets, its markup is made of the same lines in every layout, and the path
data of each clip stands whole in one of them. The same holds for a styles document of any
drawings, if no file name has a line break. -/
theorem Group.markup_layouts (root : Group Float) (kind : DocumentKind) (key : Option String)
    (single : ∀ k ∈ key, '\n' ∉ k.toList) (preview : Bool) (es : List StyleEntry)
    (names : ∀ e ∈ es, '\n' ∉ e.fileName.toList) :
    (LaidOut (root.markup kind key) (root.document kind key).lines ∧
      root.ClipsIn (root.document kind key).lines) ∧
    LaidOut (StylesDocument.ofEntries preview es).markup
        (StylesDocument.ofEntries preview es).document.lines ∧
      ∀ e ∈ es, e.root.ClipsIn (StylesDocument.ofEntries preview es).document.lines := by
  have drawing := Node.laidOut (root.oneLine_document kind single)
  have styles := StylesDocument.laidOut_ofEntries preview names
  refine ⟨⟨drawing, root.clipsIn_document kind key⟩, styles, fun e member => ?_⟩
  exact StylesDocument.clipsIn_ofEntries preview member

/-- A group with a clip that has no elements, so that its path data ends in a space. -/
def Group.window : Group Float := { clip := some ⟨[], .evenOdd⟩ }

/-- A key and file names with brackets, dashes and a lone carriage return. -/
theorem Group.markup_layouts_window :
    let es : List StyleEntry := [⟨"a-->b\r.svg", .image, window⟩, ⟨"> <.svg", .drawingGroup, {}⟩]
    (LaidOut (window.markup .drawingGroup (some "a> <b"))
        (window.document .drawingGroup (some "a> <b")).lines ∧
      window.ClipsIn (window.document .drawingGroup (some "a> <b")).lines) ∧
    LaidOut (StylesDocument.ofEntries true es).markup
        (StylesDocument.ofEntries true es).document.lines ∧
      ∀ e ∈ es, e.root.ClipsIn (StylesDocument.ofEntries true es).document.lines := by
  refine markup_layouts window .drawingGroup (some "a> <b") ?_ true _ ?_
  · decide
  · decide

end PictureMarkup
