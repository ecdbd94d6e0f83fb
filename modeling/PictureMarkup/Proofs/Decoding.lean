import PictureMarkup.Proofs.Parts

/-!
# Elements mean what they were written for

The element of each part of a drawing decodes to that part as it is printed
(`groupNode_means`). The induction follows the functions that write the elements; what an
element finds among its own elements is a matter of which properties they stand for
(`Part.valueOf_append`, `Part.valueOf_optional`).
-/

namespace PictureMarkup

namespace Part

/-- A property that may be missing. -/
def optional (name : String) (value : Option Part) : List Part := value.toList.map (.property name)

/-- A property is looked for in front first. -/
@[simp] theorem valueOf_append (name : String) (ps qs : List Part) :
    valueOf name (ps ++ qs) = (valueOf name ps).or (valueOf name qs) := List.findSome?_append

/-- A property element that may be missing has the value of its own name only. -/
@[simp] theorem valueOf_optional (name other : String) (value : Option Part) :
    valueOf name (optional other value) = if other = name then value else none := by
  cases value with
  | none => exact (ite_self _).symm
  | some value =>
      rw [optional, Option.toList_some, List.map_singleton, valueOf, List.findSome?_singleton]
      rfl

end Part

namespace Markup

/-! ## Attributes -/

/-- An attribute that may be missing has the value of its own name only. -/
@[simp] theorem lookup_attribute? (key name : String) (value : Option String) :
    (attribute? name value).lookup key = if key = name then value else none := by
  cases value with
  | none => exact (ite_self _).symm
  | some value =>
      show ([(name, value)] : List (String × String)).lookup key = _
      rw [List.lookup_cons]
      by_cases same : key = name
      · rw [if_pos same, same, beq_self_eq_true]
      · rw [if_neg same, beq_eq_false_iff_ne.mpr same]
        rfl

/-- An attribute that is left out for its default is found if the value is another. -/
@[simp] theorem lookup_attributeUnless (key name value : String) (isDefault : Bool) :
    (attributeUnless isDefault name value).lookup key =
      if key = name then printedUnless isDefault value else none := by
  have same : attributeUnless isDefault name value =
      attribute? name (printedUnless isDefault value) := by cases isDefault <;> rfl
  rw [same, lookup_attribute?]

/-! ## Meanings -/

/-- The tree of a node is read as a part. -/
def Node.Means (n : Node) (p : Part) : Prop := n.tree.part? = some p

/-- What each part of a document means. -/
def Mean (ns : List Node) (ps : List Part) : Prop := parts? (treesOf ns) = some ps

theorem Mean.nil : Mean [] [] := rfl

/-- Nodes are read one by one. -/
theorem Mean.cons {n : Node} {ns : List Node} {p : Part} {ps : List Part} (first : n.Means p)
    (others : Mean ns ps) : Mean (n :: ns) (p :: ps) := by
  unfold Mean treesOf parts?
  rw [first, others]
  rfl

theorem Mean.single {n : Node} {p : Part} (h : n.Means p) : Mean [n] [p] := .cons h .nil

/-- Nodes one after the other are read as parts one after the other. -/
theorem Mean.append {ns ms : List Node} {ps qs : List Part} (first : Mean ns ps)
    (others : Mean ms qs) : Mean (ns ++ ms) (ps ++ qs) := by
  induction ns generalizing ps with
  | nil =>
      cases first
      exact others
  | cons n ns ih =>
      unfold Mean treesOf parts? at first
      obtain ⟨p, head, rest⟩ := Option.bind_eq_some_iff.mp first
      obtain ⟨ps, tail, same⟩ := Option.bind_eq_some_iff.mp rest
      cases same
      exact .cons head (ih tail)

/-- An element is read from its attributes and the parts inside. -/
theorem Node.means_element {name : String} {attributes : List (String × String)}
    {content : List Node} {ps : List Part} {p : Part} (inside : Mean content ps)
    (decoded : Part.ofElement? attributes ps name = some p) :
    (Node.element name attributes content).Means p := by
  unfold Means tree Tree.part?
  rw [inside]
  exact decoded

/-- A block decodes to a property unless its name has a meaning of its own. -/
theorem block_means {name : String} {n : Node} {value : Part} (inside : n.Means value)
    (property : Part.ofElement? [] [value] name = some (.property name value)) :
    (block name n).Means (.property name value) :=
  Node.means_element (.single inside) property

theorem means_matrix (m : Affine Float) :
    (Node.element "MatrixTransform" [("Matrix", Number.matrix m)] []).Means
      (.matrix m.printed) := by
  refine Node.means_element .nil ?_
  simp [Part.ofElement?]

/-- A transform is read as the property of its owner, and nothing where there is none. -/
theorem means_transformBlock (owner : String) (m : Option (Affine Float))
    (property : ∀ value, Part.ofElement? [] [value] (owner ++ ".Transform") =
      some (.property (owner ++ ".Transform") value)) :
    Mean (transformBlock owner m)
      (Part.optional (owner ++ ".Transform") (m.map fun m => .matrix m.printed)) := by
  cases m with
  | none => exact .nil
  | some m => exact .single (block_means (means_matrix m) (property _))

theorem means_clipBlock (clip : Option (Path Float)) :
    Mean (clipBlock clip)
      (Part.optional "DrawingGroup.ClipGeometry" (clip.map fun p => .path p.printed)) := by
  cases clip with
  | none => exact .nil
  | some p =>
      have path : (Node.verbatim "StreamGeometry" p.text).Means (.path p.printed) := by
        show Part.ofElement? [] [.text p.text] "StreamGeometry" = _
        simp [Part.ofElement?]
      exact .single (block_means path rfl)

/-- Stops are read back as the stops they print. -/
theorem mapM_stop (stops : List (GradientStop Float)) :
    (stops.map fun s => Part.stop s.printed).mapM Part.stop? =
      some (stops.map GradientStop.printed) := by
  have each : ∀ s : GradientStop Float, (Part.stop s.printed).stop? = some s.printed :=
    fun _ => rfl
  exact mapM_map each stops

theorem means_stops (owner : String) (stops : List (GradientStop Float))
    (decoded : ∀ ps, Part.ofElement? [] ps (owner ++ ".GradientStops") =
      (ps.mapM Part.stop?).map .stops) :
    (stopsBlock owner stops).Means (.stops (stops.map GradientStop.printed)) := by
  have each : Mean (stops.map fun s => Node.element "GradientStop"
      [("Offset", Number.single s.offset), ("Color", s.color.text)] [])
      (stops.map fun s => .stop s.printed) := by
    induction stops with
    | nil => exact .nil
    | cons s stops ih =>
        refine .cons (Node.means_element .nil ?_) ih
        simp [Part.ofElement?, Color.parse?_text, GradientStop.printed, List.lookup_cons]
  refine Node.means_element each ?_
  rw [decoded, mapM_stop]
  rfl

/-- An element finds its transform in front of properties that are none. -/
theorem transformOf_optional {owner : String} (m : Option (Affine Float)) {rest : List Part}
    (other : Part.valueOf (owner ++ ".Transform") rest = none) :
    Part.transformOf
      (Part.optional (owner ++ ".Transform") (m.map fun m => .matrix m.printed) ++ rest) owner =
        m.map Affine.printed := by
  rw [Part.transformOf, Part.valueOf_append, Part.valueOf_optional, if_pos rfl, other,
    Option.or_none]
  cases m <;> rfl

/-! ## Gradients -/

/-- The spread behind other attributes is read back, padding from nothing. -/
theorem spreadOf?_append {attributes : List (String × String)} (spread : Extend)
    (other : attributes.lookup "SpreadMethod" = none) :
    Part.spreadOf? (attributes ++ spreadAttribute spread) = some spread := by
  rw [Part.spreadOf?, List.lookup_append, other, Option.none_or]
  cases spread <;> rfl

theorem stopsOf?_optional (name : String) (value : Option Part) (ss : List (GradientStop Numeral)) :
    Part.stopsOf? (Part.optional name value ++ [.stops ss]) = some ss := by
  cases value <;> rfl

/-- A linear gradient is read back with its points, its spread, its transform and its stops. -/
theorem means_linear (g : LinearGradient Float) :
    (linearNode g).Means (.brush (.linear g.printed)) := by
  have transform := means_transformBlock "LinearGradientBrush" g.transform fun _ => rfl
  have stops := means_stops "LinearGradientBrush" g.stops fun _ => rfl
  refine Node.means_element (transform.append (.single stops)) ?_
  refine congrArg (Option.map fun g => Part.brush (.linear g)) (?_ : _ = some g.printed)
  unfold Part.linearOf?
  rw [spreadOf?_append _ rfl, stopsOf?_optional, transformOf_optional _ rfl]
  simp [List.lookup_cons, LinearGradient.printed]

/-- A radial gradient is read back in the same way. -/
theorem means_radial (g : RadialGradient Float) :
    (radialNode g).Means (.brush (.radial g.printed)) := by
  have transform := means_transformBlock "RadialGradientBrush" g.transform fun _ => rfl
  have stops := means_stops "RadialGradientBrush" g.stops fun _ => rfl
  refine Node.means_element (transform.append (.single stops)) ?_
  refine congrArg (Option.map fun g => Part.brush (.radial g)) (?_ : _ = some g.printed)
  unfold Part.radialOf?
  rw [spreadOf?_append _ rfl, stopsOf?_optional, transformOf_optional _ rfl]
  simp [List.lookup_cons, RadialGradient.printed]

/-! ## Brushes and pens in their places -/

/-- What stands in a block for a brush; a solid one needs none. -/
def blockValue : Option (Brush Float (Group Float)) → Option Part
  | none | some (.solid _) => none
  | some b => some (.brush (printedBrush b))

/-- A brush is found in the attribute or in the block, wherever it was written. -/
theorem brushOf_eq {attributes : List (String × String)} {parts : List Part} {name : String}
    (b : Option (Brush Float (Group Float)))
    (written : attributes.lookup "Brush" = (b.bind Brush.color?).map Color.text)
    (value : Part.valueOf name parts = blockValue b) :
    Part.brushOf attributes parts name = printedBrush? b := by
  -- a colour is always in the attribute, and no other brush ever is
  have parsed : ((b.bind Brush.color?).map Color.text).bind Color.parse? =
      b.bind Brush.color? := by
    cases b.bind Brush.color? with
    | none => rfl
    | some c => exact Color.parse?_text c
  unfold Part.brushOf
  rw [written, value, parsed]
  cases b with
  | none => rfl
  | some b => cases b <;> rfl

/-- The line cap is read back, and a flat one is not written. -/
theorem capOf_eq {attributes : List (String × String)} (cap : LineCap)
    (written : attributes.lookup "LineCap" = printedUnless (cap = .butt) (capName cap)) :
    Part.capOf attributes = printedUnless (cap = .butt) cap := by
  unfold Part.capOf
  rw [written]
  cases cap <;> rfl

theorem joinOf_eq {attributes : List (String × String)} (join : LineJoin)
    (written : attributes.lookup "LineJoin" = printedUnless (join = .bevel) (joinName join)) :
    Part.joinOf attributes = printedUnless (join = .bevel) join := by
  unfold Part.joinOf
  rw [written]
  cases join <;> rfl

/-- A number is read unless it was left out. -/
theorem bind_printedUnless {isDefault : Bool} (x : Float) :
    (printedUnless isDefault (Number.single x)).bind Number.read? =
      printedUnless isDefault (.single x) := by
  cases isDefault with
  | true => rfl
  | false =>
      show (some (Number.single x)).bind Number.read? = some (.single x)
      rw [Option.bind_some, Number.read?_single]

theorem means_dashBlock (dash : Option (DashStyle Float)) :
    Mean (dashBlock dash)
      (Part.optional "Pen.DashStyle" (dash.map fun d => .dash d.printed)) := by
  cases dash with
  | none => exact .nil
  | some d =>
      refine .single (block_means (Node.means_element .nil ?_) rfl)
      simp [Part.ofElement?, List.lookup_cons, DashStyle.printed]

theorem tileModeOf_eq {attributes : List (String × String)} (mode : Option TileMode)
    (written : attributes.lookup "TileMode" = mode.map TileMode.name) :
    Part.tileModeOf attributes = mode := by
  unfold Part.tileModeOf
  rw [written]
  cases mode with
  | none => rfl
  | some mode => cases mode <;> rfl

/-! ## Drawings -/

/-- The part that a member of a group is read as. -/
def drawingPart : Printed.Drawing Printed.Group → Part
  | .group g => .group none g
  | .leaf l => .leaf l

/-- No drawing is taken for a property. -/
theorem valueOf_drawings (name : String) (ds : List (Printed.Drawing Printed.Group)) :
    Part.valueOf name (ds.map drawingPart) = none := by
  rw [Part.valueOf, List.findSome?_map, List.findSome?_eq_none_iff]
  intro d _
  cases d <;> rfl

/-- Every member of a group is taken for a drawing, in order. -/
theorem filterMap_drawings (ds : List (Printed.Drawing Printed.Group)) :
    (ds.map drawingPart).filterMap Part.drawing? = ds := by
  induction ds with
  | nil => rfl
  | cons d ds ih =>
      have first : Part.drawing? (drawingPart d) = some d := by cases d <;> rfl
      rw [List.map_cons, List.filterMap_cons_some first, ih]

/-- No property is taken for a drawing. -/
theorem filterMap_optional (name : String) (value : Option Part) :
    (Part.optional name value).filterMap Part.drawing? = [] := by
  cases value <;> rfl

/-- What the elements of a group mean. -/
def groupParts (transform : Option (Affine Float)) (clip : Option (Path Float))
    (children : List (Printed.Drawing Printed.Group))
    (mask : Option (Printed.Brush Printed.Group)) : List Part :=
  Part.optional ("DrawingGroup" ++ ".Transform") (transform.map fun m => .matrix m.printed) ++
    (Part.optional "DrawingGroup.ClipGeometry" (clip.map fun p => .path p.printed) ++
      (children.map drawingPart ++ Part.optional "DrawingGroup.OpacityMask" (mask.map .brush)))

/-- A group is read back from its properties and its drawings, which stand side by side. -/
theorem groupOf_groupParts {attributes : List (String × String)} (transform : Option (Affine Float))
    (clip : Option (Path Float)) (opacity : Option Float)
    (children : List (Printed.Drawing Printed.Group)) (mask : Option (Printed.Brush Printed.Group))
    (written : attributes.lookup "Opacity" = opacity.map Number.double) :
    Part.groupOf attributes (groupParts transform clip children mask) =
      ⟨transform.map Affine.printed, clip.map Path.printed, opacity.map .double, mask,
        children⟩ := by
  have transformed : Part.transformOf (groupParts transform clip children mask) "DrawingGroup" =
      transform.map Affine.printed := by
    refine transformOf_optional transform ?_
    simp [valueOf_drawings]
  have clipped : Part.valueOf "DrawingGroup.ClipGeometry"
      (groupParts transform clip children mask) = clip.map fun p => .path p.printed := by
    simp [groupParts, valueOf_drawings]
  have masked : Part.valueOf "DrawingGroup.OpacityMask" (groupParts transform clip children mask) =
      mask.map .brush := by
    simp [groupParts, valueOf_drawings]
  -- properties stand in front of the children and behind them
  have drawn : (groupParts transform clip children mask).filterMap Part.drawing? = children := by
    rw [groupParts, List.filterMap_append, List.filterMap_append, List.filterMap_append,
      filterMap_optional, filterMap_optional, filterMap_optional, filterMap_drawings,
      List.nil_append, List.nil_append, List.append_nil]
  have faded : (opacity.map Number.double).bind Number.read? = opacity.map .double := by
    cases opacity with
    | none => rfl
    | some x => rw [Option.map_some, Option.bind_some, Number.read?_double, Option.map_some]
  unfold Part.groupOf
  rw [transformed, clipped, masked, drawn, written, faded]
  cases clip <;> cases mask <;> rfl

/-- The key and the opacity of a group do not get in the way of each other. -/
theorem lookup_groupAttributes (key opacity : Option String) :
    (keyAttribute key ++ attribute? "Opacity" opacity).lookup "x:Key" = key ∧
      (keyAttribute key ++ attribute? "Opacity" opacity).lookup "Opacity" = opacity := by
  simp [keyAttribute, List.lookup_append]

/-- A shape is read back from its geometry and what stands for its brush and its pen. -/
theorem leafOf?_eq {attributes : List (String × String)} {parts : List Part} (path : Path Float)
    (brush : Option (Brush Float (Group Float))) (pen : Option (Pen Float (Group Float)))
    (written : attributes = brushAttribute brush ++ [("Geometry", path.text)])
    (inside : Part.valueOf "GeometryDrawing.Brush" parts = blockValue brush)
    (drawn : Part.valueOf "GeometryDrawing.Pen" parts = (printedPen? pen).map .pen) :
    Part.leafOf? attributes parts = some (printedLeaf ⟨path, brush, pen⟩) := by
  have colored : attributes.lookup "Brush" = (brush.bind Brush.color?).map Color.text := by
    simp [written, brushAttribute, List.lookup_append]
  have traced : attributes.lookup "Geometry" = some path.text := by
    simp [written, brushAttribute, List.lookup_append]
  unfold Part.leafOf?
  rw [traced, Option.bind_some, Path.read?_text, brushOf_eq brush colored inside, drawn]
  cases pen <;> rfl

/-- A pen is read back, with what has its default left out. -/
theorem penOf_eq {attributes : List (String × String)} {parts : List Part}
    (p : Pen Float (Group Float)) (written : attributes = penAttributes p)
    (dash : Part.valueOf "Pen.DashStyle" parts = p.dash.map fun d => .dash d.printed)
    (brush : Part.valueOf "Pen.Brush" parts = blockValue p.brush) :
    Part.penOf attributes parts = printedPen p := by
  obtain ⟨b, thickness, cap, join, limit, d⟩ := p
  have colored : attributes.lookup "Brush" = (b.bind Brush.color?).map Color.text := by
    simp [written, penAttributes, brushAttribute, List.lookup_append]
  have thick : attributes.lookup "Thickness" =
      printedUnless (thickness == defaultThickness) (Number.single thickness) := by
    simp [written, penAttributes, brushAttribute, List.lookup_append]
  have capped : attributes.lookup "LineCap" = printedUnless (cap = .butt) (capName cap) := by
    simp [written, penAttributes, brushAttribute, List.lookup_append]
  have joined : attributes.lookup "LineJoin" = printedUnless (join = .bevel) (joinName join) := by
    simp [written, penAttributes, brushAttribute, List.lookup_append]
  have limited : attributes.lookup "MiterLimit" =
      printedUnless (limit == defaultMiterLimit) (Number.single limit) := by
    simp [written, penAttributes, brushAttribute, List.lookup_append]
  unfold Part.penOf
  rw [brushOf_eq b colored brush, thick, limited, bind_printedUnless, bind_printedUnless,
    capOf_eq cap capped, joinOf_eq join joined, dash]
  cases d <;> rfl

/-- An image decodes to the drawing in it. -/
theorem means_image (key : Option String) {root : Node} {g : Printed.Group}
    (inside : root.Means (.group none g)) : (imageNode key root).Means (.image key g) := by
  have property : (block "DrawingImage" root).Means (.property "DrawingImage" (.group none g)) :=
    block_means inside rfl
  refine Node.means_element (.single property) ?_
  show some (Part.image ((keyAttribute key).lookup "x:Key") g) = _
  simp [keyAttribute]

/-- A brush that shows a drawing is read back with the drawing. -/
theorem visualOf?_eq (b : VisualBrush Float (Group Float)) :
    Part.visualOf? (visualAttributes b)
      (Part.optional ("VisualBrush" ++ ".Transform") (b.transform.map fun m => .matrix m.printed) ++
        Part.optional "VisualBrush.Visual" (some (.image none b.visual.printed))) =
      some (printedVisual b) := by
  obtain ⟨mode, source, destination, transform, visual⟩ := b
  generalize written : visualAttributes (VisualBrush.mk mode source destination transform visual) =
    attributes
  have tiled : attributes.lookup "TileMode" = mode.map TileMode.name := by
    simp [← written, visualAttributes, List.lookup_append]
  have cut : attributes.lookup "SourceRect" = source.map Number.rect := by
    simp [← written, visualAttributes, List.lookup_append]
  have placed : attributes.lookup "DestinationRect" = destination.map Number.rect := by
    simp [← written, visualAttributes, List.lookup_append]
  -- what is not written is not there when it is read
  have rect : ∀ r : Option (Rect Float),
      (r.map Number.rect).bind Box.read? = r.map Rect.printed := by
    intro r
    cases r with
    | none => rfl
    | some r => rw [Option.map_some, Option.bind_some, Box.read?_rect, Option.map_some]
  have shown : Part.valueOf "VisualBrush.Visual"
      (Part.optional ("VisualBrush" ++ ".Transform") (transform.map fun m => .matrix m.printed) ++
        Part.optional "VisualBrush.Visual" (some (.image none visual.printed))) =
      some (.image none visual.printed) := by simp
  unfold Part.visualOf?
  rw [shown]
  simp only
  rw [tileModeOf_eq mode tiled, cut, placed, rect, rect, transformOf_optional transform (by simp)]
  rfl

mutual

/-- The element of a group decodes to the group as it is printed. -/
theorem means_group (key : Option String) : ∀ g : Group Float,
    (groupNode key g).Means (.group key g.printed)
  | ⟨transform, clip, opacity, mask, children⟩ => by
    have content := (means_transformBlock "DrawingGroup" transform fun _ => rfl).append
      ((means_clipBlock clip).append ((means_drawings children).append (means_mask mask)))
    obtain ⟨named, faded⟩ := lookup_groupAttributes key (opacity.map Number.double)
    refine Node.means_element content ?_
    show some (Part.group _ (Part.groupOf _ (groupParts transform clip _ _))) = _
    rw [groupOf_groupParts transform clip opacity _ _ faded, named]
    rfl

/-- The drawings of a group are read back, one case for each constructor of the tree. -/
theorem means_drawings : ∀ ds : List (Drawing Float (Group Float)),
    Mean (drawingNodes ds) ((printedDrawings ds).map drawingPart)
  | [] => .nil
  | d :: ds => .cons (means_drawing d) (means_drawings ds)

theorem means_drawing : ∀ d : Drawing Float (Group Float),
    (drawingNode d).Means (drawingPart (printedDrawing d))
  | .group g => means_group none g
  | .leaf l => means_leaf l

theorem means_leaf : ∀ l : Leaf Float (Group Float), (leafNode l).Means (.leaf (printedLeaf l))
  | ⟨path, brush, pen⟩ => by
    have content := (means_brushBlock "GeometryDrawing.Brush" brush fun _ => rfl).append
      (means_penBlock pen)
    refine Node.means_element content ?_
    refine congrArg (Option.map Part.leaf) (leafOf?_eq path brush pen rfl ?_ ?_)
    · simp
    · simp

theorem means_mask : ∀ mask : Option (Brush Float (Group Float)),
    Mean (maskBlock mask)
      (Part.optional "DrawingGroup.OpacityMask" ((printedBrush? mask).map .brush))
  | none => .nil
  | some b => .single (block_means (means_brush b) rfl)

/-- A brush is read back as a property, unless it is a plain colour, which is an attribute. -/
theorem means_brushBlock (name : String) (b : Option (Brush Float (Group Float)))
    (property : ∀ value, Part.ofElement? [] [value] name = some (.property name value)) :
    Mean (brushBlock name b) (Part.optional name (blockValue b)) :=
  match b with
  | none => .nil
  | some (.solid _) => .nil
  | some (.linear g) => .single (block_means (means_linear g) (property _))
  | some (.radial g) => .single (block_means (means_radial g) (property _))
  | some (.visual b) => .single (block_means (means_visual b) (property _))

theorem means_penBlock : ∀ pen : Option (Pen Float (Group Float)),
    Mean (penBlock pen) (Part.optional "GeometryDrawing.Pen" ((printedPen? pen).map .pen))
  | none => .nil
  | some p => .single (block_means (means_pen p) rfl)

theorem means_pen : ∀ p : Pen Float (Group Float), (penNode p).Means (.pen (printedPen p))
  | ⟨brush, thickness, lineCap, lineJoin, miterLimit, dash⟩ => by
    have content := (means_dashBlock dash).append
      (means_brushBlock "Pen.Brush" brush fun _ => rfl)
    refine Node.means_element content ?_
    show some (Part.pen (Part.penOf _ _)) = _
    rw [penOf_eq _ rfl (by simp) (by simp)]

theorem means_brush : ∀ b : Brush Float (Group Float),
    (brushNode b).Means (.brush (printedBrush b))
  | .solid c => by
    refine Node.means_element .nil ?_
    simp [Part.ofElement?, Color.parse?_text, printedBrush]
  | .linear g => means_linear g
  | .radial g => means_radial g
  | .visual b => means_visual b

/-- A brush that shows a drawing is read back with what the drawing is read back as. -/
theorem means_visual : ∀ b : VisualBrush Float (Group Float),
    (visualNode b).Means (.brush (.visual (printedVisual b)))
  | ⟨tileMode, source, destination, transform, visual⟩ => by
    have image : (block "VisualBrush.Visual" (imageNode none (groupNode none visual))).Means _ :=
      block_means (means_image none (means_group none visual)) rfl
    have content := (means_transformBlock "VisualBrush" transform fun _ => rfl).append
      (.single image)
    refine Node.means_element content ?_
    exact congrArg (Option.map fun b => Part.brush (.visual b)) (visualOf?_eq _)

end

end Markup

end PictureMarkup
