import PictureMarkup.Proofs.Commented
import PictureMarkup.Proofs.WellWritten

/-!
# The attributes of a drawing

The elements of a drawing have attributes of four kinds: numbers, colours, path data and words
from a fixed list (`DrawingAttribute`). That holds at any depth, also inside of the drawings that
brushes and masks show, and the key of the outermost element is the only other attribute
(`Group.drawn_document`). The induction follows the functions that write the elements.

None of the four kinds is a key, and none has a brace in its value. So a drawing takes no key
from the document around it, and it refers to nothing in there (`DrawingAttribute.name_ne_key`,
`DrawingAttribute.brace_notMem`).
-/

namespace PictureMarkup

open Markup

/-! ## In document order -/

namespace Markup

mutual

/-- The attributes in a part of a document. -/
def Node.attributes : Node → List (String × String)
  | .element _ attributes content => attributes ++ attributesOf content
  | .verbatim _ _ => []
  | .comment _ => []

/-- The attributes of some nodes themselves, in order. -/
def attributesOf : List Node → List (String × String)
  | [] => []
  | n :: ns => n.attributes ++ attributesOf ns

end

mutual

/-- The attributes in a tree. -/
def Tree.attributes : Tree → List (String × String)
  | .element _ attributes content => attributes ++ attributesIn content
  | .text _ => []

/-- The attributes anywhere in some trees. -/
def attributesIn : List Tree → List (String × String)
  | [] => []
  | t :: ts => t.attributes ++ attributesIn ts

end

theorem attributesOf_append (ns ms : List Node) :
    attributesOf (ns ++ ms) = attributesOf ns ++ attributesOf ms := by
  induction ns with
  | nil => rfl
  | cons n ns ih => simp [attributesOf, ih]

theorem attributesIn_append (ts us : List Tree) :
    attributesIn (ts ++ us) = attributesIn ts ++ attributesIn us := by
  induction ts with
  | nil => rfl
  | cons t ts ih => simp [attributesIn, ih]

mutual

/-- A tree has the attributes that were written. -/
theorem Node.attributesIn_trees : ∀ n : Node, attributesIn n.trees = n.attributes
  | .element name attributes content => by
    rw [Node.trees, attributesIn, Tree.attributes, attributesIn_treesIn, attributesIn,
      List.append_nil, Node.attributes]
  | .verbatim _ _ => rfl
  | .comment _ => rfl

/-- The attributes in the trees of nodes are the attributes of the nodes. -/
theorem attributesIn_treesIn : ∀ ns : List Node, attributesIn (treesIn ns) = attributesOf ns
  | [] => rfl
  | n :: ns => by
    rw [treesIn, attributesIn_append, n.attributesIn_trees, attributesIn_treesIn, attributesOf]

end

/-- A property element has no attributes of its own. -/
theorem attributes_block (name : String) (n : Node) :
    (block name n).attributes = n.attributes := by
  simp [block, Node.attributes, attributesOf]

end Markup

/-! ## Four kinds of attributes -/

/-- The attributes that are words. -/
def words : List (String × String) :=
  [("SpreadMethod", "Repeat"), ("SpreadMethod", "Reflect"),
    ("LineCap", "Flat"), ("LineCap", "Round"), ("LineCap", "Square"),
    ("LineJoin", "Miter"), ("LineJoin", "Round"), ("LineJoin", "Bevel"),
    ("TileMode", "None"), ("TileMode", "Tile"), ("TileMode", "FlipX"), ("TileMode", "FlipY"),
    ("TileMode", "FlipXY")]

/-- An attribute in a drawing, apart from its key. -/
inductive DrawingAttribute : String × String → Prop
  | numbers {name value : String} {ns : List Numeral} (named : isNumeric name)
      (written : value.toList = Numeral.listChars ',' ns) : DrawingAttribute (name, value)
  | color {name : String} (named : name = "Color" ∨ name = "Brush") (c : Color) :
      DrawingAttribute (name, c.text)
  | word {a : String × String} (listed : a ∈ words) : DrawingAttribute a
  | pathData (p : Path Float) : DrawingAttribute ("Geometry", p.text)

namespace DrawingAttribute

variable {a : String × String}

/-- A drawing has no key among its attributes. -/
theorem name_ne_key (drawn : DrawingAttribute a) : a.1 ≠ "x:Key" := by
  cases drawn with
  | numbers named =>
      rintro rfl
      exact absurd named (by decide)
  | color named =>
      rintro rfl
      exact absurd named (by decide)
  | word listed =>
      have each : ∀ a ∈ words, a.1 ≠ "x:Key" := by decide
      exact each a listed
  | pathData =>
      show "Geometry" ≠ "x:Key"
      decide

/-- The value of an attribute of a drawing is made of printed characters. -/
theorem isPrinted (drawn : DrawingAttribute a) : ∀ c ∈ a.2.toList, isPrinted c := by
  cases drawn with
  | @numbers _ value _ _ written =>
      show ∀ c ∈ value.toList, _
      rw [written]
      exact Numeral.isPrinted_listChars (by decide) _
  | color _ c => exact c.isPrinted_text
  | word listed =>
      have each : ∀ a ∈ words, a.2.toList.all PictureMarkup.isPrinted := by decide
      exact List.all_eq_true.mp (each a listed)
  | pathData p => exact p.isPrinted_text

/-- No attribute of a drawing refers to a resource. -/
theorem brace_notMem (drawn : DrawingAttribute a) : '\x7b' ∉ a.2.toList :=
  fun member => ne_of_isPrinted (drawn.isPrinted _ member) (by decide) rfl

/-- Numbers behind commas are the value of an attribute of a drawing. -/
theorem list {name : String} (named : isNumeric name) (xs : List Float) :
    DrawingAttribute (name, Number.list xs) :=
  .numbers named (Number.toList_list xs)

theorem numeral {name : String} (named : isNumeric name) (n : Numeral) :
    DrawingAttribute (name, n.text) := by
  have written : n.text.toList = Numeral.listChars ',' [n] := by
    rw [Numeral.listChars, List.map_singleton, List.intercalate_singleton]
    rfl
  exact .numbers named written

end DrawingAttribute

/-- Attributes that may be inside of a drawing. -/
def AllDrawn (attributes : List (String × String)) : Prop :=
  ∀ a ∈ attributes, DrawingAttribute a

namespace AllDrawn

theorem nil : AllDrawn [] := fun _ member => absurd member List.not_mem_nil

theorem cons {a : String × String} {attributes : List (String × String)}
    (first : DrawingAttribute a) (others : AllDrawn attributes) : AllDrawn (a :: attributes) :=
  List.forall_mem_cons.mpr ⟨first, others⟩

theorem append {first others : List (String × String)} (h : AllDrawn first)
    (h' : AllDrawn others) : AllDrawn (first ++ others) :=
  List.forall_mem_append.mpr ⟨h, h'⟩

/-- An attribute that may be missing is one of a drawing if its value is. -/
theorem optional {name : String} {value : Option String}
    (h : ∀ v ∈ value, DrawingAttribute (name, v)) : AllDrawn (attribute? name value) := by
  cases value with
  | none => exact nil
  | some v => exact cons (h v rfl) nil

/-- An attribute that is left out for its default is one of a drawing if its value is. -/
theorem unlessDefault {name value : String} (isDefault : Bool)
    (h : DrawingAttribute (name, value)) : AllDrawn (attributeUnless isDefault name value) := by
  cases isDefault with
  | true => exact nil
  | false => exact cons h nil

theorem leaf {attributes : List (String × String)} (h : AllDrawn attributes) (name : String) :
    AllDrawn (Node.element name attributes []).attributes := by
  rwa [Node.attributes, attributesOf, List.append_nil]

/-- A property element has the attributes of its value. -/
theorem block {n : Node} (h : AllDrawn n.attributes) (name : String) :
    AllDrawn (attributesOf [Markup.block name n]) := by
  rwa [attributesOf, attributesOf, attributes_block, List.append_nil]

end AllDrawn

/-! ## Drawings -/

open DrawingAttribute

theorem drawn_transformBlock (owner : String) (m : Option (Affine Float)) :
    AllDrawn (attributesOf (transformBlock owner m)) := by
  cases m with
  | none => exact .nil
  | some m => exact .block (.leaf (.cons (list (by decide) _) .nil) _) _

theorem drawn_clipBlock (clip : Option (Path Float)) :
    AllDrawn (attributesOf (clipBlock clip)) := by
  cases clip with
  | none => exact .nil
  | some p => exact .block (n := .verbatim "StreamGeometry" p.text) .nil _

/-- By induction on the stops: an offset and a colour each. -/
theorem drawn_stopsBlock (owner : String) (stops : List (GradientStop Float)) :
    AllDrawn (stopsBlock owner stops).attributes := by
  rw [stopsBlock, Node.attributes, List.nil_append]
  induction stops with
  | nil => exact .nil
  | cons s stops ih =>
      have offset : DrawingAttribute ("Offset", Number.single s.offset) :=
        numeral (by decide) (.single s.offset)
      have color : DrawingAttribute ("Color", s.color.text) := .color (.inl rfl) s.color
      exact .append (.cons offset (.cons color .nil)) ih

/-- Padding is not written, the other two ways are. -/
theorem drawn_spread (spread : Extend) : AllDrawn (spreadAttribute spread) := by
  cases spread with
  | pad => exact .nil
  | «repeat» => exact .cons (.word (by decide)) .nil
  | reflect => exact .cons (.word (by decide)) .nil

/-- What both kinds of gradients hold. -/
theorem drawn_gradientContent (owner : String) (transform : Option (Affine Float))
    (stops : List (GradientStop Float)) :
    AllDrawn (attributesOf (transformBlock owner transform ++ [stopsBlock owner stops])) := by
  rw [attributesOf_append]
  refine (drawn_transformBlock owner transform).append ?_
  rw [attributesOf, attributesOf, List.append_nil]
  exact drawn_stopsBlock owner stops

theorem drawn_linear (g : LinearGradient Float) : AllDrawn (linearNode g).attributes := by
  have points : AllDrawn
      [("StartPoint", Number.point g.start), ("EndPoint", Number.point g.finish)] :=
    .cons (list (by decide) _) (.cons (list (by decide) _) .nil)
  exact (points.append (drawn_spread g.spread)).append
    (drawn_gradientContent _ g.transform g.stops)

theorem drawn_radial (g : RadialGradient Float) : AllDrawn (radialNode g).attributes := by
  have numbers : AllDrawn [("Center", Number.point g.center),
      ("GradientOrigin", Number.point g.origin), ("Radius", Number.single g.radius)] :=
    .cons (list (by decide) _)
      (.cons (list (by decide) _) (.cons (numeral (by decide) (.single g.radius)) .nil))
  exact (numbers.append (drawn_spread g.spread)).append
    (drawn_gradientContent _ g.transform g.stops)

theorem drawn_dashBlock (dash : Option (DashStyle Float)) :
    AllDrawn (attributesOf (dashBlock dash)) := by
  cases dash with
  | none => exact .nil
  | some d =>
      have offset : DrawingAttribute ("Offset", Number.single d.offset) :=
        numeral (by decide) (.single d.offset)
      exact .block (.leaf (.cons (list (by decide) d.dashes) (.cons offset .nil)) _) _

theorem drawn_brushAttribute {V : Type} (b : Option (Brush Float V)) :
    AllDrawn (brushAttribute b) := by
  refine .optional fun v member => ?_
  obtain ⟨c, -, rfl⟩ := Option.map_eq_some_iff.mp member
  exact .color (.inr rfl) c

/-- A pen has at most these attributes. -/
theorem drawn_penAttributes {V : Type} (p : Pen Float V) : AllDrawn (penAttributes p) := by
  have thickness : DrawingAttribute ("Thickness", Number.single p.thickness) :=
    numeral (by decide) (.single p.thickness)
  have cap : DrawingAttribute ("LineCap", capName p.lineCap) :=
    .word (by cases p.lineCap <;> decide)
  have join : DrawingAttribute ("LineJoin", joinName p.lineJoin) :=
    .word (by cases p.lineJoin <;> decide)
  have limit : DrawingAttribute ("MiterLimit", Number.single p.miterLimit) :=
    numeral (by decide) (.single p.miterLimit)
  exact ((((drawn_brushAttribute p.brush).append (.unlessDefault _ thickness)).append
    (.unlessDefault _ cap)).append (.unlessDefault _ join)).append (.unlessDefault _ limit)

theorem drawn_visualAttributes {V : Type} (b : VisualBrush Float V) :
    AllDrawn (visualAttributes b) := by
  have mode : ∀ v ∈ b.tileMode.map TileMode.name, DrawingAttribute ("TileMode", v) := by
    intro v member
    obtain ⟨mode, -, rfl⟩ := Option.map_eq_some_iff.mp member
    exact .word (by cases mode <;> decide)
  have rect : ∀ {name : String} {r : Option (Rect Float)}, isNumeric name →
      ∀ v ∈ r.map Number.rect, DrawingAttribute (name, v) := by
    intro name r named v member
    obtain ⟨r, -, rfl⟩ := Option.map_eq_some_iff.mp member
    exact list named _
  exact ((AllDrawn.optional mode).append (.optional (rect (by decide)))).append
    (.optional (rect (by decide)))

/-- An image without a key has the attributes of its drawing. -/
theorem drawn_image {root : Node} (h : AllDrawn root.attributes) :
    AllDrawn (imageNode none root).attributes :=
  .block h _

mutual

/-- The attributes in a group without a key. -/
theorem drawn_group : ∀ g : Group Float, AllDrawn (groupNode none g).attributes
  | ⟨transform, clip, opacity, mask, children⟩ => by
    have own : ∀ v ∈ opacity.map Number.double, DrawingAttribute ("Opacity", v) := by
      intro v member
      obtain ⟨x, -, rfl⟩ := Option.map_eq_some_iff.mp member
      exact numeral (by decide) (.double x)
    rw [groupNode, Node.attributes, attributesOf_append, attributesOf_append, attributesOf_append]
    exact (AllDrawn.optional own).append ((drawn_transformBlock _ transform).append
      ((drawn_clipBlock clip).append ((drawn_drawings children).append (drawn_mask mask))))

/-- The drawings of a group have attributes of a drawing only, one case for each constructor
of the tree. -/
theorem drawn_drawings : ∀ ds : List (Drawing Float (Group Float)),
    AllDrawn (attributesOf (drawingNodes ds))
  | [] => .nil
  | d :: ds => (drawn_drawing d).append (drawn_drawings ds)

theorem drawn_drawing : ∀ d : Drawing Float (Group Float), AllDrawn (drawingNode d).attributes
  | .group g => drawn_group g
  | .leaf l => drawn_leaf l

theorem drawn_leaf : ∀ l : Leaf Float (Group Float), AllDrawn (leafNode l).attributes
  | ⟨path, brush, pen⟩ => by
    rw [leafNode, Node.attributes, attributesOf_append]
    exact ((drawn_brushAttribute brush).append (.cons (.pathData path) .nil)).append
      ((drawn_brushBlock _ brush).append (drawn_penBlock pen))

theorem drawn_mask : ∀ mask : Option (Brush Float (Group Float)),
    AllDrawn (attributesOf (maskBlock mask))
  | none => .nil
  | some b => .block (drawn_brush b) _

theorem drawn_brushBlock (name : String) : ∀ b : Option (Brush Float (Group Float)),
    AllDrawn (attributesOf (brushBlock name b))
  | none | some (.solid _) => .nil
  | some (.linear g) => .block (drawn_linear g) name
  | some (.radial g) => .block (drawn_radial g) name
  | some (.visual b) => .block (drawn_visual b) name

theorem drawn_penBlock : ∀ pen : Option (Pen Float (Group Float)),
    AllDrawn (attributesOf (penBlock pen))
  | none => .nil
  | some p => .block (drawn_pen p) _

theorem drawn_pen : ∀ p : Pen Float (Group Float), AllDrawn (penNode p).attributes
  | ⟨brush, thickness, lineCap, lineJoin, miterLimit, dash⟩ => by
    rw [penNode, Node.attributes, attributesOf_append]
    exact (drawn_penAttributes _).append ((drawn_dashBlock dash).append (drawn_brushBlock _ brush))

theorem drawn_brush : ∀ b : Brush Float (Group Float), AllDrawn (brushNode b).attributes
  | .solid c => .cons (.color (.inl rfl) c) .nil
  | .linear g => drawn_linear g
  | .radial g => drawn_radial g
  | .visual b => drawn_visual b

/-- A brush that shows a drawing has attributes of a drawing only, with the whole drawing. -/
theorem drawn_visual : ∀ b : VisualBrush Float (Group Float), AllDrawn (visualNode b).attributes
  | ⟨tileMode, source, destination, transform, visual⟩ => by
    rw [visualNode, Node.attributes, attributesOf_append]
    exact (drawn_visualAttributes _).append ((drawn_transformBlock _ transform).append
      (.block (drawn_image (drawn_group visual)) _))

end

/-- Without a key, all attributes in the document of a drawing are attributes of drawings. -/
theorem Group.drawn_document (root : Group Float) (kind : DocumentKind) :
    AllDrawn (root.document kind none).attributes := by
  cases kind with
  | image => exact drawn_image (drawn_group root)
  | drawingGroup => exact drawn_group root

end PictureMarkup
