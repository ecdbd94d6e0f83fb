import PictureMarkup.Proofs.Attributes
import PictureMarkup.Proofs.Escapes

/-!
# Documents as they are processed

A processor of documents goes on where the scanner stops at an ampersand or at a bracket in a
value, and looks at values and texts when it has all of them: they are decoded, no element may
have two attributes of one name, and names begin with a letter (`process`).

The elements of a drawing have distinct attributes (`Group.processable_document`). The induction
follows the functions that write the elements, and each of them draws its attributes from a list
of names in order (`Listed`). So the tags and texts of a drawing are processed as they stand
(`Node.resolve?_tokens`), and what is processed of an element can only differ from what was
written in an attribute that is no attribute of a drawing.
-/

namespace PictureMarkup

namespace Markup

/-! ## The processor -/

/-- Go on as the scanner does, and keep in a text or a value what it refuses. -/
def Scanner.stepRaw (s : Scanner) (c : Char) : Option Scanner :=
  match s.step c, s.mode with
  | some t, _ => some t
  | none, .text seen => some ⟨s.tokens, .text (seen ++ [c])⟩
  | none, .value name attributes key seen =>
    some ⟨s.tokens, .value name attributes key (seen ++ [c])⟩
  | none, _ => none

/-- The tags and texts of a document, with values and texts as they were written. -/
def scanRaw (text : String) : Option (List Token) :=
  (text.toList.foldlM Scanner.stepRaw {}).bind Scanner.result

/-- The first character can begin a name. -/
def startsName (s : String) : Bool := (s.toList.head?.map Char.isAlpha).getD false

/-- Attributes with names that an element may have together. -/
def Distinct (attributes : List (String × String)) : Prop :=
  (attributes.map Prod.fst).Nodup ∧ ∀ a ∈ attributes, startsName a.1

instance (attributes : List (String × String)) : Decidable (Distinct attributes) :=
  inferInstanceAs (Decidable (_ ∧ _))

/-- An attribute with its value decoded. -/
def resolveAttribute? (a : String × String) : Option (String × String) :=
  (decode whiteInValue a.2.toList).map fun cs => (a.1, String.ofList cs)

/-- The attributes with their references resolved; none may occur twice. -/
def resolveAttributes? (attributes : List (String × String)) : Option (List (String × String)) :=
  if Distinct attributes then attributes.mapM resolveAttribute? else none

/-- A token with its references resolved, if its name begins as a name does. -/
def Token.resolve? : Token → Option Token
  | .start name attributes =>
    if startsName name then (resolveAttributes? attributes).map (.start name) else none
  | .empty name attributes =>
    if startsName name then (resolveAttributes? attributes).map (.empty name) else none
  | .finish name => some (.finish name)
  | .text t => (decode whiteInText t.toList).map fun cs => .text (String.ofList cs)

/-- Process a document. -/
def process (text : String) : Option Tree :=
  (scanRaw text).bind fun tokens => (tokens.mapM Token.resolve?).bind build

/-! ## What is processed as it stands -/

/-- Printed characters are visible ASCII characters or blanks. -/
theorem toNat_of_isPrinted {c : Char} (printed : isPrinted c) :
    0x20 ≤ c.toNat ∧ c.toNat < 0x7F := by
  simp only [isPrinted, Char.isAlphanum, Bool.or_eq_true, beq_iff_eq] at printed
  rcases printed with (((((letter | digit) | rfl) | rfl) | rfl) | rfl) | rfl
  · rcases Bool.or_eq_true_iff.mp letter with upper | lower
    · have : 65 ≤ c.toNat ∧ c.toNat ≤ 90 := of_decide_eq_true upper
      omega
    · obtain ⟨low, high⟩ := Bool.and_eq_true_iff.mp lower
      have : 97 ≤ c.toNat := of_decide_eq_true low
      have : c.toNat ≤ 122 := of_decide_eq_true high
      omega
  · obtain ⟨low, high⟩ := Bool.and_eq_true_iff.mp digit
    have : 48 ≤ c.toNat := of_decide_eq_true low
    have : c.toNat ≤ 57 := of_decide_eq_true high
    omega
  all_goals decide

/-- No printed character is changed by a processor. -/
theorem isKept_of_isPrinted {c : Char} (printed : isPrinted c) : isKept c := by
  have not : ∀ {d : Char}, isPrinted d = false → c ≠ d := ne_of_isPrinted printed
  obtain ⟨above, below⟩ := toNat_of_isPrinted printed
  have plain : isBreak c = false := by
    simp only [isBreak, Bool.or_eq_false_iff, beq_eq_false_iff_ne]
    exact ⟨⟨not (by decide), not (by decide)⟩, not (by decide)⟩
  have character : isCharacter c := by
    simp only [isCharacter, plain, Bool.false_or, Bool.and_eq_true, decide_eq_true_eq, bne_iff_ne]
    omega
  simp only [isKept, character, plain, Bool.not_false, Bool.and_true, Bool.true_and,
    Bool.and_eq_true, bne_iff_ne]
  exact ⟨not (by decide), not (by decide)⟩

/-- A text of printed characters stands for itself, where white space that is printed does. -/
theorem decode_of_isPrinted {white : Char → Char} (own : ∀ c, isPrinted c → white c = c)
    {cs : List Char} (printed : ∀ c ∈ cs, isPrinted c) : decode white cs = some cs := by
  have run : Reaches (Decoder.step white) (.text [] false) cs (.text ([] ++ cs) false) :=
    Reaches.run (fun out => Decoder.text out false)
      (fun _ c printed => Decoder.step_kept (own c printed) (isKept_of_isPrinted printed))
      printed []
  unfold decode
  rw [run]
  rfl

theorem whiteInValue_of_isPrinted (c : Char) (printed : isPrinted c) : whiteInValue c = c := by
  have kept := isKept_of_isPrinted printed
  simp only [isKept, Bool.and_eq_true, Bool.not_eq_true'] at kept
  simp [whiteInValue, kept.1.1.2]

theorem whiteInText_of_isPrinted (c : Char) (printed : isPrinted c) : whiteInText c = c :=
  if_neg (ne_of_isPrinted printed (by decide))

/-- The value of an attribute of a drawing stands for itself. -/
theorem resolveAttribute?_of_drawn {a : String × String} (drawn : DrawingAttribute a) :
    resolveAttribute? a = some a := by
  unfold resolveAttribute?
  rw [decode_of_isPrinted whiteInValue_of_isPrinted drawn.isPrinted]
  exact congrArg (fun v => some (a.1, v)) String.ofList_toList

theorem mapM_resolveAttribute? {attributes : List (String × String)}
    (drawn : AllDrawn attributes) : attributes.mapM resolveAttribute? = some attributes := by
  rw [mapM_eq_some_iff, List.forall₂_same]
  exact fun a member => resolveAttribute?_of_drawn (drawn a member)

/-- Attributes of a drawing stand for themselves, if no two have the same name. -/
theorem resolveAttributes?_of_drawn {attributes : List (String × String)}
    (distinct : Distinct attributes) (drawn : AllDrawn attributes) :
    resolveAttributes? attributes = some attributes :=
  (if_pos distinct).trans (mapM_resolveAttribute? drawn)

mutual

/-- The elements in a part of a document have proper names and distinct attributes, and its
texts are printed. -/
def Node.Processable : Node → Prop
  | .element name attributes content =>
    startsName name ∧ Distinct attributes ∧ AllProcessable content
  | .verbatim name text => startsName name ∧ ∀ c ∈ text.toList, isPrinted c
  | .comment _ => False

/-- Every node can be processed. -/
def AllProcessable : List Node → Prop
  | [] => True
  | n :: ns => n.Processable ∧ AllProcessable ns

end

/-- Nodes one after the other can be processed if they all can. -/
theorem AllProcessable.append {ns ms : List Node} (first : AllProcessable ns)
    (others : AllProcessable ms) : AllProcessable (ns ++ ms) := by
  induction ns with
  | nil => exact others
  | cons n ns ih => exact ⟨first.1, ih first.2⟩

/-- A tag with attributes of a drawing stands for itself. -/
theorem Token.resolve?_start {name : String} {attributes : List (String × String)}
    (starts : startsName name) (distinct : Distinct attributes) (drawn : AllDrawn attributes) :
    resolve? (.start name attributes) = some (.start name attributes) := by
  rw [resolve?, if_pos starts, resolveAttributes?_of_drawn distinct drawn, Option.map_some]

theorem Token.resolve?_empty {name : String} {attributes : List (String × String)}
    (starts : startsName name) (distinct : Distinct attributes) (drawn : AllDrawn attributes) :
    resolve? (.empty name attributes) = some (.empty name attributes) := by
  rw [resolve?, if_pos starts, resolveAttributes?_of_drawn distinct drawn, Option.map_some]

/-- A text of printed characters between tags stands for itself. -/
theorem Token.resolve?_text {t : String} (printed : ∀ c ∈ t.toList, isPrinted c) :
    resolve? (.text t) = some (.text t) := by
  rw [resolve?, decode_of_isPrinted whiteInText_of_isPrinted printed, Option.map_some,
    String.ofList_toList]

mutual

/-- The tags and texts of a drawing are processed as they stand. -/
theorem Node.resolve?_tokens : ∀ {n : Node}, n.Processable → AllDrawn n.attributes →
    ∀ t ∈ n.tokens, t.resolve? = some t
  | .element name attributes [], ⟨starts, distinct, _⟩, drawn, t, member => by
    obtain ⟨own, -⟩ := List.forall_mem_append.mp drawn
    rw [List.mem_singleton.mp member]
    exact Token.resolve?_empty starts distinct own
  | .element name attributes (n :: ns), ⟨starts, distinct, content⟩, drawn, t, member => by
    obtain ⟨own, inside⟩ := List.forall_mem_append.mp drawn
    rcases List.mem_cons.mp member with rfl | member
    · exact Token.resolve?_start starts distinct own
    · rcases List.mem_append.mp member with within | last
      · exact resolve?_tokensOf content inside t within
      · rw [List.mem_singleton.mp last]
        rfl
  | .verbatim name text, ⟨starts, printed⟩, _, t, member => by
    have distinct : Distinct [] := by decide
    rcases List.mem_cons.mp member with rfl | member
    · exact Token.resolve?_start starts distinct .nil
    · rcases List.mem_cons.mp member with rfl | last
      · exact Token.resolve?_text printed
      · rw [List.mem_singleton.mp last]
        rfl

/-- All tokens of nodes that can be processed stand for themselves. -/
theorem resolve?_tokensOf : ∀ {ns : List Node}, AllProcessable ns → AllDrawn (attributesOf ns) →
    ∀ t ∈ tokensOf ns, t.resolve? = some t
  | n :: ns, ⟨first, others⟩, drawn, t, member => by
    obtain ⟨own, later⟩ := List.forall_mem_append.mp drawn
    exact (List.mem_append.mp member).elim (Node.resolve?_tokens first own t)
      (resolve?_tokensOf others later t)

end

end Markup

open Markup

/-! ## Distinct attributes -/

/-- The attributes have some of the names, in their order. -/
def Listed (names : List String) (attributes : List (String × String)) : Prop :=
  (attributes.map Prod.fst).Sublist names

namespace Listed

variable {names more : List String} {attributes others : List (String × String)}

/-- The names of more attributes are among more names, in the same order. -/
theorem append (h : Listed names attributes) (h' : Listed more others) :
    Listed (names ++ more) (attributes ++ others) := by
  unfold Listed
  rw [List.map_append]
  exact List.Sublist.append h h'

theorem optional (name : String) (value : Option String) :
    Listed [name] (attribute? name value) := by
  cases value with
  | none => exact List.nil_sublist _
  | some v => exact List.Sublist.refl _

/-- An attribute that may be left out has at most its own name. -/
theorem unlessDefault (isDefault : Bool) (name value : String) :
    Listed [name] (attributeUnless isDefault name value) := by
  cases isDefault with
  | true => exact List.nil_sublist _
  | false => exact List.Sublist.refl _

theorem spread (spread : Extend) : Listed ["SpreadMethod"] (spreadAttribute spread) := by
  cases spread with
  | pad => exact List.nil_sublist _
  | «repeat» => exact List.Sublist.refl _
  | reflect => exact List.Sublist.refl _

/-- Attributes whose names are among different names, in order, have different names. -/
theorem distinct (listed : Listed names attributes)
    (proper : names.Nodup ∧ ∀ name ∈ names, startsName name) : Distinct attributes := by
  refine ⟨List.Nodup.sublist listed proper.1, fun a member => ?_⟩
  exact proper.2 a.1 (listed.subset (List.mem_map_of_mem member))

end Listed

/-- A property element can be processed if its value can. -/
theorem processable_block {name : String} {n : Node} (starts : startsName name)
    (inside : n.Processable) : (block name n).Processable :=
  ⟨starts, by decide, inside, trivial⟩

/-- An element without content. -/
theorem processable_leaf {name : String} (starts : startsName name) {names : List String}
    {attributes : List (String × String)} (listed : Listed names attributes)
    (proper : names.Nodup ∧ ∀ name ∈ names, startsName name) :
    (Node.element name attributes []).Processable :=
  ⟨starts, listed.distinct proper, trivial⟩

theorem processable_transformBlock {owner : String} (m : Option (Affine Float))
    (starts : startsName (owner ++ ".Transform")) : AllProcessable (transformBlock owner m) := by
  cases m with
  | none => trivial
  | some m =>
      have matrix : Listed ["Matrix"] [("Matrix", Number.matrix m)] := List.Sublist.refl _
      exact ⟨processable_block starts (processable_leaf (by decide) matrix (by decide)), trivial⟩

theorem processable_clipBlock (clip : Option (Path Float)) : AllProcessable (clipBlock clip) := by
  cases clip with
  | none => trivial
  | some p => exact ⟨processable_block (by decide) ⟨by decide, p.isPrinted_text⟩, trivial⟩

/-- By induction on the stops, which have two attributes each. -/
theorem processable_stopsBlock {owner : String} (stops : List (GradientStop Float))
    (starts : startsName (owner ++ ".GradientStops")) : (stopsBlock owner stops).Processable := by
  refine ⟨starts, by decide, ?_⟩
  induction stops with
  | nil => trivial
  | cons s stops ih =>
      have listed : Listed ["Offset", "Color"]
          [("Offset", Number.single s.offset), ("Color", s.color.text)] := List.Sublist.refl _
      exact ⟨processable_leaf (by decide) listed (by decide), ih⟩

theorem processable_linear (g : LinearGradient Float) : (linearNode g).Processable := by
  have points : Listed ["StartPoint", "EndPoint"]
      [("StartPoint", Number.point g.start), ("EndPoint", Number.point g.finish)] :=
    List.Sublist.refl _
  refine ⟨by decide, (points.append (.spread g.spread)).distinct (by decide), ?_⟩
  exact (processable_transformBlock g.transform (by decide)).append
    ⟨processable_stopsBlock g.stops (by decide), trivial⟩

theorem processable_radial (g : RadialGradient Float) : (radialNode g).Processable := by
  have numbers : Listed ["Center", "GradientOrigin", "Radius"]
      [("Center", Number.point g.center), ("GradientOrigin", Number.point g.origin),
        ("Radius", Number.single g.radius)] := List.Sublist.refl _
  refine ⟨by decide, (numbers.append (.spread g.spread)).distinct (by decide), ?_⟩
  exact (processable_transformBlock g.transform (by decide)).append
    ⟨processable_stopsBlock g.stops (by decide), trivial⟩

theorem processable_dashBlock (dash : Option (DashStyle Float)) :
    AllProcessable (dashBlock dash) := by
  cases dash with
  | none => trivial
  | some d =>
      have listed : Listed ["Dashes", "Offset"]
          [("Dashes", Number.list d.dashes), ("Offset", Number.single d.offset)] :=
        List.Sublist.refl _
      exact ⟨processable_block (by decide) (processable_leaf (by decide) listed (by decide)),
        trivial⟩

/-- The attributes of a pen in the order in which they are written. -/
theorem listed_penAttributes {V : Type} (p : Pen Float V) :
    Listed ["Brush", "Thickness", "LineCap", "LineJoin", "MiterLimit"] (penAttributes p) :=
  ((((Listed.optional "Brush" _).append (.unlessDefault _ "Thickness" _)).append
    (.unlessDefault _ "LineCap" _)).append (.unlessDefault _ "LineJoin" _)).append
    (.unlessDefault _ "MiterLimit" _)

theorem listed_leafAttributes {V : Type} (path : Path Float) (brush : Option (Brush Float V)) :
    Listed ["Brush", "Geometry"] (brushAttribute brush ++ [("Geometry", path.text)]) :=
  (Listed.optional "Brush" _).append (List.Sublist.refl _)

theorem listed_visualAttributes {V : Type} (b : VisualBrush Float V) :
    Listed ["TileMode", "SourceRect", "DestinationRect"] (visualAttributes b) :=
  ((Listed.optional "TileMode" _).append (.optional "SourceRect" _)).append
    (.optional "DestinationRect" _)

/-- An image can be processed if its drawing can: a key is its only attribute. -/
theorem processable_image (key : Option String) {root : Node} (inside : root.Processable) :
    (imageNode key root).Processable :=
  ⟨by decide, (Listed.optional "x:Key" key).distinct (by decide),
    processable_block (by decide) inside, trivial⟩

mutual

/-- The element of a group, whatever its key is. -/
theorem processable_group (key : Option String) : ∀ g : Group Float, (groupNode key g).Processable
  | ⟨transform, clip, opacity, mask, children⟩ =>
    ⟨by decide, ((Listed.optional "x:Key" key).append (.optional "Opacity" _)).distinct (by decide),
      (processable_transformBlock transform (by decide)).append
        ((processable_clipBlock clip).append
          ((processable_drawings children).append (processable_mask mask)))⟩

/-- The drawings of a group can be processed, one case for each constructor of the tree. -/
theorem processable_drawings : ∀ ds : List (Drawing Float (Group Float)),
    AllProcessable (drawingNodes ds)
  | [] => trivial
  | d :: ds => ⟨processable_drawing d, processable_drawings ds⟩

theorem processable_drawing : ∀ d : Drawing Float (Group Float), (drawingNode d).Processable
  | .group g => processable_group none g
  | .leaf l => processable_shape l

theorem processable_shape : ∀ l : Leaf Float (Group Float), (leafNode l).Processable
  | ⟨path, brush, pen⟩ =>
    ⟨by decide, (listed_leafAttributes path brush).distinct (by decide),
      (processable_brushBlock (by decide) brush).append (processable_penBlock pen)⟩

theorem processable_mask : ∀ mask : Option (Brush Float (Group Float)),
    AllProcessable (maskBlock mask)
  | none => trivial
  | some b => ⟨processable_block (by decide) (processable_brush b), trivial⟩

theorem processable_brushBlock {name : String} (starts : startsName name) :
    ∀ b : Option (Brush Float (Group Float)), AllProcessable (brushBlock name b)
  | none | some (.solid _) => trivial
  | some (.linear g) => ⟨processable_block starts (processable_linear g), trivial⟩
  | some (.radial g) => ⟨processable_block starts (processable_radial g), trivial⟩
  | some (.visual b) => ⟨processable_block starts (processable_visual b), trivial⟩

theorem processable_penBlock : ∀ pen : Option (Pen Float (Group Float)),
    AllProcessable (penBlock pen)
  | none => trivial
  | some p => ⟨processable_block (by decide) (processable_pen p), trivial⟩

/-- A pen can be processed: its attributes have different names, and its blocks have none. -/
theorem processable_pen : ∀ p : Pen Float (Group Float), (penNode p).Processable
  | ⟨brush, _, _, _, _, dash⟩ =>
    ⟨by decide, (listed_penAttributes _).distinct (by decide),
      (processable_dashBlock dash).append (processable_brushBlock (by decide) brush)⟩

theorem processable_brush : ∀ b : Brush Float (Group Float), (brushNode b).Processable
  | .solid c => by
    have listed : Listed ["Color"] [("Color", c.text)] := List.Sublist.refl _
    exact processable_leaf (by decide) listed (by decide)
  | .linear g => processable_linear g
  | .radial g => processable_radial g
  | .visual b => processable_visual b

theorem processable_visual : ∀ b : VisualBrush Float (Group Float), (visualNode b).Processable
  | ⟨_, _, _, transform, visual⟩ =>
    ⟨by decide, (listed_visualAttributes _).distinct (by decide),
      (processable_transformBlock transform (by decide)).append
        ⟨processable_block (by decide) (processable_image none (processable_group none visual)),
          trivial⟩⟩

end

/-- A whole document can be processed, with a key or without one. -/
theorem Group.processable_document (root : Group Float) (kind : DocumentKind)
    (key : Option String) : (root.document kind key).Processable := by
  cases kind with
  | image => exact processable_image key (processable_group none root)
  | drawingGroup => exact processable_group key root

end PictureMarkup
