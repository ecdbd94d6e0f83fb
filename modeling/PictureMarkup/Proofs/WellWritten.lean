import PictureMarkup.Proofs.Parts

/-!
# What is written in a document

Every name, value and text in the markup of a drawing consists of characters that stand for
themselves, so that it can be read as it is written, and every number in it is a plain
decimal (`Group.written_document`). The induction follows the functions that write the
elements of a drawing.
-/

namespace PictureMarkup

open Markup

/-! ## Plain characters -/

/-- What is printed for a number, a colour or a path needs no escaping and stays on its line. -/
theorem plainChar_of_isPrinted {c : Char} (printed : isPrinted c) :
    isLiteral c ∧ c ≠ '"' ∧ c ≠ '\n' := by
  have not : ∀ {d : Char}, isPrinted d = false → c ≠ d := ne_of_isPrinted printed
  refine ⟨?_, not (by decide), not (by decide)⟩
  rw [isLiteral, Bool.and_eq_true, bne_iff_ne, bne_iff_ne]
  exact ⟨not (by decide), not (by decide)⟩

theorem isValue_of_forall {s : String}
    (h : ∀ c ∈ s.toList, isLiteral c ∧ c ≠ '"' ∧ c ≠ '\n') : isValue s := by
  rw [isValue, List.all_eq_true]
  intro c member
  obtain ⟨literal, quote, line⟩ := h c member
  rw [literal, bne_iff_ne.mpr quote, bne_iff_ne.mpr line]
  rfl

/-- A text of printed characters can stand between quotes as it is. -/
theorem isValue_of_isPrinted {s : String} (h : ∀ c ∈ s.toList, isPrinted c) : isValue s :=
  isValue_of_forall fun c member => plainChar_of_isPrinted (h c member)

/-- Numbers behind commas can stand between quotes. -/
theorem isValue_listChars {s : String} {ns : List Numeral}
    (written : s.toList = Numeral.listChars ',' ns) : isValue s := by
  refine isValue_of_isPrinted fun c member => ?_
  rw [written] at member
  exact Numeral.isPrinted_listChars (by decide) ns c member

theorem Color.isValue_text (c : Color) : isValue c.text := isValue_of_isPrinted c.isPrinted_text

/-- The data of a path can stand between tags: it is not blank, and nothing in it opens a tag. -/
theorem Path.isText_text (p : Path Float) : isText p.text := by
  have visible : ¬p.text.toList.all isBlank := by
    rw [p.toList_text, List.all_append]
    cases p.fillRule <;> exact Bool.false_ne_true
  rw [isText, Bool.and_eq_true, Bool.not_eq_true', Bool.eq_false_iff, List.all_eq_true]
  refine ⟨visible, fun c member => ?_⟩
  obtain ⟨literal, -, line⟩ := plainChar_of_isPrinted (p.isPrinted_text c member)
  rw [literal, bne_iff_ne.mpr line]
  rfl

/-! ## What is written in a document -/

/-- The attributes that hold numbers. -/
def isNumeric (name : String) : Bool :=
  ["Opacity", "Matrix", "Offset", "StartPoint", "EndPoint", "Center", "GradientOrigin", "Radius",
    "Thickness", "MiterLimit", "Dashes", "SourceRect", "DestinationRect"].contains name

/-- A readable attribute, where every number is a plain decimal. -/
structure WellWritten (a : String × String) : Prop where
  name : isName a.1
  value : isValue a.2
  numbers : isNumeric a.1 → (Number.readList? a.2).isSome
  path : a.1 = "Geometry" → (Path.read? a.2).isSome

/-- Every number in a tag or a text is a plain decimal. -/
def Markup.Token.PlainNumbers : Token → Prop
  | .start _ attributes | .empty _ attributes =>
    ∀ a ∈ attributes, (isNumeric a.1 → (Number.readList? a.2).isSome) ∧
      (a.1 = "Geometry" → (Path.read? a.2).isSome)
  | .text t => (Path.read? t).isSome
  | .finish _ => True

namespace WellWritten

/-- A word is well written if it can stand between quotes. -/
theorem of_value {name value : String} (isName : isName name) (isValue : isValue value)
    (word : isNumeric name = false) (other : name ≠ "Geometry") : WellWritten (name, value) :=
  ⟨isName, isValue, fun numeric => absurd (word.symm.trans numeric) Bool.false_ne_true,
    fun path => absurd path other⟩

/-- Numbers behind commas are well written. -/
theorem of_numbers {name value : String} (isName : isName name) {ns : List Numeral}
    (written : value.toList = Numeral.listChars ',' ns) (other : name ≠ "Geometry") :
    WellWritten (name, value) := by
  refine ⟨isName, isValue_listChars written, fun _ => ?_, fun path => absurd path other⟩
  rw [Number.readList?, written, Numeral.readList?_listChars (by decide)]
  rfl

theorem of_list {name : String} (isName : isName name) (xs : List Float)
    (other : name ≠ "Geometry") : WellWritten (name, Number.list xs) :=
  of_numbers isName (Number.toList_list xs) other

/-- A single number is well written. -/
theorem of_numeral {name : String} (isName : isName name) (n : Numeral)
    (other : name ≠ "Geometry") : WellWritten (name, n.text) := by
  have written : n.text.toList = Numeral.listChars ',' [n] := by
    rw [Numeral.listChars, List.map_singleton, List.intercalate_singleton]
    rfl
  exact of_numbers isName written other

end WellWritten

/-- Attributes that are well written. -/
def AttributesWritten (attributes : List (String × String)) : Prop :=
  ∀ a ∈ attributes, WellWritten a

namespace AttributesWritten

theorem nil : AttributesWritten [] := fun _ member => absurd member List.not_mem_nil

theorem cons {a : String × String} {attributes : List (String × String)} (first : WellWritten a)
    (others : AttributesWritten attributes) : AttributesWritten (a :: attributes) :=
  List.forall_mem_cons.mpr ⟨first, others⟩

theorem append {first others : List (String × String)} (h : AttributesWritten first)
    (h' : AttributesWritten others) : AttributesWritten (first ++ others) :=
  List.forall_mem_append.mpr ⟨h, h'⟩

/-- An attribute that may be missing is well written if its value is. -/
theorem optional {name : String} {value : Option String}
    (h : ∀ v ∈ value, WellWritten (name, v)) : AttributesWritten (attribute? name value) := by
  cases value with
  | none => exact nil
  | some v => exact cons (h v rfl) nil

/-- An attribute that is left out for its default is well written if its value is. -/
theorem unlessDefault {name value : String} (isDefault : Bool) (h : WellWritten (name, value)) :
    AttributesWritten (attributeUnless isDefault name value) := by
  cases isDefault with
  | true => exact nil
  | false => exact cons h nil

end AttributesWritten

mutual

/-- All attributes and texts of a part of a document are well written. -/
def Markup.Node.Written : Node → Prop
  | .element name attributes content =>
    isName name ∧ AttributesWritten attributes ∧ AllWritten content
  | .verbatim name text => isName name ∧ isText text ∧ (Path.read? text).isSome
  | .comment _ => False

/-- Every node is well written. -/
def AllWritten : List Node → Prop
  | [] => True
  | n :: ns => n.Written ∧ AllWritten ns

end

/-- Attributes that are well written can be read back. -/
theorem areAttributes_of_wellWritten {attributes : List (String × String)}
    (h : AttributesWritten attributes) : areAttributes attributes := by
  rw [areAttributes, List.all_eq_true]
  intro a member
  rw [(h a member).name, (h a member).value]
  rfl

mutual

/-- A node that is well written can be read back, and so can all below it. -/
theorem Markup.Node.Written.readable : ∀ {n : Node}, n.Written → n.Readable
  | .element _ _ _, ⟨name, attributes, content⟩ =>
    ⟨name, areAttributes_of_wellWritten attributes, AllWritten.readable content⟩
  | .verbatim _ _, ⟨name, text, _⟩ => ⟨name, text⟩

theorem AllWritten.readable : ∀ {ns : List Node}, AllWritten ns → AllReadable ns
  | [], _ => trivial
  | _ :: _, ⟨first, others⟩ => ⟨first.readable, AllWritten.readable others⟩

end

mutual

/-- Every token of a node that is well written holds plain numbers where it should hold
numbers. -/
theorem Markup.Node.Written.plainNumbers : ∀ {n : Node}, n.Written →
    ∀ t ∈ n.tokens, t.PlainNumbers
  | .element _ _ [], ⟨_, attributes, _⟩, t, member => by
    rw [List.mem_singleton.mp member]
    exact fun a inside => ⟨(attributes a inside).numbers, (attributes a inside).path⟩
  | .element _ _ (_ :: _), ⟨_, attributes, content⟩, t, member => by
    rcases List.mem_cons.mp member with rfl | member
    · exact fun a inside => ⟨(attributes a inside).numbers, (attributes a inside).path⟩
    · rcases List.mem_append.mp member with inside | last
      · exact AllWritten.plainNumbers content t inside
      · rw [List.mem_singleton.mp last]
        trivial
  | .verbatim _ _, ⟨_, _, path⟩, t, member => by
    rcases List.mem_cons.mp member with rfl | member
    · exact fun a inside => absurd inside List.not_mem_nil
    · rcases List.mem_cons.mp member with rfl | last
      · exact path
      · rw [List.mem_singleton.mp last]
        trivial

theorem AllWritten.plainNumbers : ∀ {ns : List Node}, AllWritten ns →
    ∀ t ∈ tokensOf ns, t.PlainNumbers
  | _ :: _, ⟨first, others⟩, t, member =>
    (List.mem_append.mp member).elim (first.plainNumbers t) (AllWritten.plainNumbers others t)

end

/-! ## Drawings -/

theorem AllWritten.append {ns ms : List Node} (first : AllWritten ns) (others : AllWritten ms) :
    AllWritten (ns ++ ms) := by
  induction ns with
  | nil => exact others
  | cons n ns ih => exact ⟨first.1, ih first.2⟩

theorem written_block {name : String} {n : Node} (isName : isName name) (inside : n.Written) :
    (block name n).Written := ⟨isName, .nil, inside, trivial⟩

/-- The block of a transform is well written, and so are the other blocks, by the values in
them. -/
theorem written_transformBlock {owner : String} (m : Option (Affine Float))
    (isName : isName (owner ++ ".Transform")) : AllWritten (transformBlock owner m) := by
  cases m with
  | none => trivial
  | some m =>
      have matrix : WellWritten ("Matrix", Number.matrix m) :=
        .of_list (by decide) _ (by decide)
      exact ⟨written_block isName ⟨by decide, .cons matrix .nil, trivial⟩, trivial⟩

theorem written_clipBlock (clip : Option (Path Float)) : AllWritten (clipBlock clip) := by
  cases clip with
  | none => trivial
  | some p =>
      have read : (Path.read? p.text).isSome := by
        rw [Path.read?_text]
        rfl
      exact ⟨written_block (by decide) ⟨by decide, p.isText_text, read⟩, trivial⟩

/-- By induction on the stops, each of which is an element without content. -/
theorem written_stopsBlock {owner : String} (stops : List (GradientStop Float))
    (isName : isName (owner ++ ".GradientStops")) : (stopsBlock owner stops).Written := by
  refine ⟨isName, .nil, ?_⟩
  induction stops with
  | nil => trivial
  | cons s stops ih =>
      have offset : WellWritten ("Offset", Number.single s.offset) :=
        .of_numeral (by decide) (.single s.offset) (by decide)
      have color : WellWritten ("Color", s.color.text) :=
        .of_value (by decide) s.color.isValue_text (by decide) (by decide)
      exact ⟨⟨by decide, .cons offset (.cons color .nil), trivial⟩, ih⟩

/-- The word for a spread is well written; for padding there is none. -/
theorem written_spread (spread : Extend) : AttributesWritten (spreadAttribute spread) := by
  have word : ∀ value, isValue value → WellWritten ("SpreadMethod", value) :=
    fun _ isValue => .of_value (by decide) isValue (by decide) (by decide)
  cases spread with
  | pad => exact .nil
  | «repeat» => exact .cons (word _ (by decide)) .nil
  | reflect => exact .cons (word _ (by decide)) .nil

theorem written_linear (g : LinearGradient Float) : (linearNode g).Written := by
  have start : WellWritten ("StartPoint", Number.point g.start) :=
    .of_list (by decide) _ (by decide)
  have finish : WellWritten ("EndPoint", Number.point g.finish) :=
    .of_list (by decide) _ (by decide)
  refine ⟨by decide, .append (.cons start (.cons finish .nil)) (written_spread g.spread), ?_⟩
  exact (written_transformBlock g.transform (by decide)).append
    ⟨written_stopsBlock g.stops (by decide), trivial⟩

theorem written_radial (g : RadialGradient Float) : (radialNode g).Written := by
  have center : WellWritten ("Center", Number.point g.center) :=
    .of_list (by decide) _ (by decide)
  have origin : WellWritten ("GradientOrigin", Number.point g.origin) :=
    .of_list (by decide) _ (by decide)
  have radius : WellWritten ("Radius", Number.single g.radius) :=
    .of_numeral (by decide) (.single g.radius) (by decide)
  refine ⟨by decide, .append (.cons center (.cons origin (.cons radius .nil)))
    (written_spread g.spread), ?_⟩
  exact (written_transformBlock g.transform (by decide)).append
    ⟨written_stopsBlock g.stops (by decide), trivial⟩

theorem written_dashBlock (dash : Option (DashStyle Float)) : AllWritten (dashBlock dash) := by
  cases dash with
  | none => trivial
  | some d =>
      have dashes : WellWritten ("Dashes", Number.list d.dashes) :=
        .of_list (by decide) _ (by decide)
      have offset : WellWritten ("Offset", Number.single d.offset) :=
        .of_numeral (by decide) (.single d.offset) (by decide)
      exact ⟨written_block (by decide) ⟨by decide, .cons dashes (.cons offset .nil), trivial⟩,
        trivial⟩

theorem written_brushAttribute {V : Type} (b : Option (Brush Float V)) :
    AttributesWritten (brushAttribute b) := by
  refine .optional fun v member => ?_
  obtain ⟨c, -, rfl⟩ := Option.map_eq_some_iff.mp member
  exact .of_value (by decide) c.isValue_text (by decide) (by decide)

/-- Whichever of its attributes a pen has, they are well written. -/
theorem written_penAttributes {V : Type} (p : Pen Float V) :
    AttributesWritten (penAttributes p) := by
  have thickness : WellWritten ("Thickness", Number.single p.thickness) :=
    .of_numeral (by decide) (.single p.thickness) (by decide)
  have cap : WellWritten ("LineCap", capName p.lineCap) :=
    .of_value (by decide) (by cases p.lineCap <;> decide) (by decide) (by decide)
  have join : WellWritten ("LineJoin", joinName p.lineJoin) :=
    .of_value (by decide) (by cases p.lineJoin <;> decide) (by decide) (by decide)
  have limit : WellWritten ("MiterLimit", Number.single p.miterLimit) :=
    .of_numeral (by decide) (.single p.miterLimit) (by decide)
  exact ((((written_brushAttribute p.brush).append (.unlessDefault _ thickness)).append
    (.unlessDefault _ cap)).append (.unlessDefault _ join)).append (.unlessDefault _ limit)

theorem written_visualAttributes {V : Type} (b : VisualBrush Float V) :
    AttributesWritten (visualAttributes b) := by
  have mode : ∀ v ∈ b.tileMode.map TileMode.name, WellWritten ("TileMode", v) := by
    intro v member
    obtain ⟨mode, -, rfl⟩ := Option.map_eq_some_iff.mp member
    exact .of_value (by decide) (by cases mode <;> decide) (by decide) (by decide)
  have source : ∀ v ∈ b.source.map Number.rect, WellWritten ("SourceRect", v) := by
    intro v member
    obtain ⟨r, -, rfl⟩ := Option.map_eq_some_iff.mp member
    exact .of_list (by decide) _ (by decide)
  have destination : ∀ v ∈ b.destination.map Number.rect, WellWritten ("DestinationRect", v) := by
    intro v member
    obtain ⟨r, -, rfl⟩ := Option.map_eq_some_iff.mp member
    exact .of_list (by decide) _ (by decide)
  exact ((AttributesWritten.optional mode).append (.optional source)).append
    (.optional destination)

theorem written_keyAttribute {key : Option String} (plain : ∀ k ∈ key, isValue k) :
    AttributesWritten (keyAttribute key) :=
  .optional fun k member => .of_value (by decide) (plain k member) (by decide) (by decide)

/-- A key that can stand between quotes does not spoil the attributes of a group. -/
theorem written_groupAttributes {key : Option String} (plain : ∀ k ∈ key, isValue k)
    (opacity : Option Float) :
    AttributesWritten (keyAttribute key ++ attribute? "Opacity" (opacity.map Number.double)) := by
  refine (written_keyAttribute plain).append (.optional fun v member => ?_)
  obtain ⟨x, -, rfl⟩ := Option.map_eq_some_iff.mp member
  exact .of_numeral (by decide) (.double x) (by decide)

/-- An image is well written if its drawing is. -/
theorem written_image {key : Option String} (plain : ∀ k ∈ key, isValue k) {root : Node}
    (inside : root.Written) : (imageNode key root).Written :=
  ⟨by decide, written_keyAttribute plain, written_block (by decide) inside, trivial⟩

theorem plain_none : ∀ k ∈ (none : Option String), isValue k :=
  fun _ member => absurd member (Option.not_mem_none _)

mutual

/-- The element of a group is well written. -/
theorem written_group {key : Option String} (plain : ∀ k ∈ key, isValue k) :
    ∀ g : Group Float, (groupNode key g).Written
  | ⟨transform, clip, opacity, mask, children⟩ =>
    ⟨by decide, written_groupAttributes plain opacity,
      (written_transformBlock transform (by decide)).append
        ((written_clipBlock clip).append
          ((written_drawings children).append (written_mask mask)))⟩

/-- The drawings of a group, and what is in them: one case for each constructor of the tree. -/
theorem written_drawings : ∀ ds : List (Drawing Float (Group Float)), AllWritten (drawingNodes ds)
  | [] => trivial
  | d :: ds => ⟨written_drawing d, written_drawings ds⟩

theorem written_drawing : ∀ d : Drawing Float (Group Float), (drawingNode d).Written
  | .group g => written_group plain_none g
  | .leaf l => written_leaf l

theorem written_leaf : ∀ l : Leaf Float (Group Float), (leafNode l).Written
  | ⟨path, brush, pen⟩ => by
    have name : isName "Geometry" := by decide
    have word : ¬isNumeric "Geometry" := by decide
    have read : (Path.read? path.text).isSome := by
      rw [Path.read?_text]
      rfl
    have geometry : WellWritten ("Geometry", path.text) :=
      ⟨name, isValue_of_isPrinted path.isPrinted_text, fun numeric => absurd numeric word, fun _ => read⟩
    exact ⟨by decide, (written_brushAttribute brush).append (.cons geometry .nil),
      (written_brushBlock (by decide) brush).append (written_penBlock pen)⟩

theorem written_mask : ∀ mask : Option (Brush Float (Group Float)), AllWritten (maskBlock mask)
  | none => trivial
  | some b => ⟨written_block (by decide) (written_brush b), trivial⟩

theorem written_brushBlock {name : String} (isName : isName name) :
    ∀ b : Option (Brush Float (Group Float)), AllWritten (brushBlock name b)
  | none | some (.solid _) => trivial
  | some (.linear g) => ⟨written_block isName (written_linear g), trivial⟩
  | some (.radial g) => ⟨written_block isName (written_radial g), trivial⟩
  | some (.visual b) => ⟨written_block isName (written_visual b), trivial⟩

theorem written_penBlock : ∀ pen : Option (Pen Float (Group Float)), AllWritten (penBlock pen)
  | none => trivial
  | some p => ⟨written_block (by decide) (written_pen p), trivial⟩

/-- A pen with its dashes and its brush. -/
theorem written_pen : ∀ p : Pen Float (Group Float), (penNode p).Written
  | ⟨brush, _, _, _, _, dash⟩ =>
    ⟨by decide, written_penAttributes _,
      (written_dashBlock dash).append (written_brushBlock (by decide) brush)⟩

theorem written_brush : ∀ b : Brush Float (Group Float), (brushNode b).Written
  | .solid c =>
    ⟨by decide, .cons (.of_value (by decide) c.isValue_text (by decide) (by decide)) .nil, trivial⟩
  | .linear g => written_linear g
  | .radial g => written_radial g
  | .visual b => written_visual b

/-- A brush that shows a drawing, with the whole drawing. -/
theorem written_visual : ∀ b : VisualBrush Float (Group Float), (visualNode b).Written
  | ⟨_, _, _, transform, visual⟩ =>
    ⟨by decide, written_visualAttributes _,
      (written_transformBlock transform (by decide)).append
        ⟨written_block (by decide) (written_image plain_none (written_group plain_none visual)),
          trivial⟩⟩

end

theorem Group.written_document (root : Group Float) (kind : DocumentKind) {key : Option String}
    (plain : ∀ k ∈ key, isValue k) : (root.document kind key).Written := by
  cases kind with
  | image => exact written_image plain (written_group plain_none root)
  | drawingGroup => exact written_group plain root

end PictureMarkup
