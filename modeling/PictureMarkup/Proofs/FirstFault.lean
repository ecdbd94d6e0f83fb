import Mathlib.Data.List.Forall2
import PictureMarkup.Written.Json
import PictureMarkup.Proofs.ColorForms
import PictureMarkup.Proofs.NestedPictures

/-!
# The first fault of a written picture

Reading a written picture looks at its colours, paths and counts one after the other and
stops at the first that is wrong. `Picture.items` lists them in that order, through all
pictures nested in shaders, without reading any of them. A picture can be read if and only if
all its items are valid, and otherwise its fault is that of the first item that is not
(`Picture.read_reports_first`).

Reading is a sequence of steps, and so is the list: `Reads` says that a computation succeeds
with a good value if its items are valid and fails with the fault of the first that is not,
and it is kept by doing one thing after the other (`Reads.bind`). What is good about a picture
that was read is that it has the commands that were written, by name and in their order, and
so have the pictures nested in them (`Picture.Matches`).
-/

namespace PictureMarkup

/-- The picture nested in the shader of a paint. -/
def Paint.nested? {α P : Type} (p : Paint α P) : Option P := p.shader.bind Shader.picture?

/-- The picture nested in the paint of a command, also where it is not drawn. -/
def Command.nested? {α P : Type} : Command α P → Option P
  | .saveLayer paint | .drawImage _ _ _ paint => paint.bind Paint.nested?
  | .drawPath _ paint | .drawText _ _ paint | .drawTextOnPath _ _ _ paint
  | .drawTextBlob _ _ paint => paint.nested?
  | .clipPath .. | .clipRect .. | .setMatrix _ | .save | .restore => none

namespace Written

/-! ## What can be wrong -/

/-- A part of a written picture that may be wrong. -/
inductive Item where
  | color (text : String)
  | path (data : String)
  /-- The number of values in a colour matrix. -/
  | matrix (count : Nat)
  /-- The numbers of glyphs and of positions in a run of text. -/
  | blob (glyphs positions : Nat)

namespace Item

/-- The fault of an item that is not valid. -/
def fault? : Item → Option Fault
  | .color text => if ∃ digits, Color.HexForm text digits then none else some (.color text)
  | .path data =>
    match PathData.read data with
    | .ok _ => none
    | .error fault => some (.path data fault)
  | .matrix count => if count = 20 then none else some (.colorMatrix count)
  | .blob glyphs positions =>
    if glyphs = positions then none else some (.textBlob glyphs positions)

end Item

/-- The fault of the first item that is not valid. -/
def firstFault (is : List Item) : Option Fault := is.findSome? Item.fault?

theorem firstFault_append (is js : List Item) :
    firstFault (is ++ js) = (firstFault is).or (firstFault js) := List.findSome?_append

/-- The items of a filter on colours. -/
def ColorFilter.items : ColorFilter → List Item
  | .luminanceToAlpha => []
  | .matrix values => [.matrix values.length]
  | .blend color => [.color color]

/-- The items of a filter on pixels. -/
def ImageFilter.items : ImageFilter → List Item
  | .flood color | .dropShadow _ _ _ color => [.color color]
  | .blur _ | .offset .. => []

/-- The items of a gradient: the colours of its stops in order. -/
def stopItems (stops : List Stop) : List Item := stops.map fun s => .color s.color

mutual

/-- The items of a picture, command after command. -/
def Picture.items : Picture → List Item
  | ⟨_, commands⟩ => itemsIn commands

/-- The items of some commands. -/
def itemsIn : List (Command Picture) → List Item
  | [] => []
  | c :: cs => itemsOf c ++ itemsIn cs

/-- The items of a command: the path, then the count of positions, then the paint. -/
def itemsOf : Command Picture → List Item
  | .save | .restore | .setMatrix _ | .clipRect .. => []
  | .clipPath path _ _ => [.path path.data]
  | .saveLayer paint => itemsOfPaint? paint
  | .drawPath path paint => .path path.data :: itemsOfPaint paint
  | .drawText _ _ paint => itemsOfPaint paint
  | .drawTextOnPath _ path _ paint => .path path.data :: itemsOfPaint paint
  | .drawTextBlob glyphs positions _ paint =>
    .blob glyphs.length positions.length :: itemsOfPaint paint
  | .drawImage _ _ _ paint => itemsOfPaint? paint

/-- The items of a paint, if there is one. -/
def itemsOfPaint? : Option (Paint Picture) → List Item
  | none => []
  | some paint => itemsOfPaint paint

/-- The items of a paint: the shader, then the colour, then the filters. -/
def itemsOfPaint : Paint Picture → List Item
  | ⟨_, shader, color, _, colorFilter, imageFilter, _⟩ =>
    itemsOfShader? shader ++ (color.toList.map .color ++
      (colorFilter.toList.flatMap ColorFilter.items ++
        imageFilter.toList.flatMap ImageFilter.items))

def itemsOfShader? : Option (Shader Picture) → List Item
  | none => []
  | some shader => itemsOfShader shader

/-- The items of a shader: its colour, its stops in their order, or those of its picture. -/
def itemsOfShader : Shader Picture → List Item
  | .color text => [.color text]
  | .linear _ _ stops _ _ => stopItems stops
  | .conical _ _ _ _ stops _ _ => stopItems stops
  | .picture picture _ _ _ => picture.items

end

/-! ## The same commands -/

/-- The picture that a written shader nests. -/
def Shader.picture? {P : Type} : Shader P → Option P
  | .picture nested .. => some nested
  | .color _ | .linear .. | .conical .. => none

/-- The picture nested in the shader of a paint. -/
def Paint.nested? {P : Type} (p : Paint P) : Option P := p.shader.bind Shader.picture?

/-- The picture nested in the paint of a command. -/
def Command.nested? {P : Type} : Command P → Option P
  | .saveLayer paint | .drawImage _ _ _ paint => paint.bind Paint.nested?
  | .drawPath _ paint | .drawText _ _ paint | .drawTextOnPath _ _ _ paint
  | .drawTextBlob _ _ _ paint => paint.nested?
  | .save | .restore | .setMatrix _ | .clipPath .. | .clipRect .. => none

/-- Pictures with the same bounds and, in the same order, commands of the same names; where a
picture is nested in a command of the one, such a picture is nested in that of the other. -/
inductive Picture.Matches : Picture → PictureMarkup.Picture Float → Prop
  | mk {bounds cs ds} (names : cs.map Command.name = ds.map PictureMarkup.Command.name)
      (nested : List.Forall₂ (Option.Rel Picture.Matches) (cs.map Command.nested?)
        (ds.map PictureMarkup.Command.nested?)) :
      Matches ⟨bounds, cs⟩ ⟨bounds, ds⟩

/-! ## Reading -/

/-- A computation succeeds with a good value if some items are valid, and fails with the fault
of the first that is not. -/
def Reads {τ : Type} (r : Except Fault τ) (is : List Item) (good : τ → Prop) : Prop :=
  match r with
  | .ok v => firstFault is = none ∧ good v
  | .error f => firstFault is = some f

namespace Reads

variable {σ τ : Type} {x : Except Fault σ} {is js : List Item} {good : σ → Prop}
  {good' : τ → Prop}

theorem ok {v : σ} (h : good v) : Reads (.ok v) [] good := ⟨rfl, h⟩

/-- What is done next looks at its items only if those before them are valid. -/
theorem bind {f : σ → Except Fault τ} (first : Reads x is good)
    (next : ∀ v, good v → Reads (f v) js good') : Reads (x >>= f) (is ++ js) good' := by
  cases x with
  | error fault =>
      show firstFault (is ++ js) = some fault
      rw [firstFault_append, first]
      rfl
  | ok v =>
      obtain ⟨valid, isGood⟩ := first
      have rest := next v isGood
      show Reads (f v) (is ++ js) good'
      unfold Reads at rest ⊢
      rw [firstFault_append, valid, Option.none_or]
      exact rest

theorem map {f : σ → τ} (first : Reads x is good) (kept : ∀ v, good v → good' (f v)) :
    Reads (x >>= fun v => pure (f v)) is good' := by
  have rest : ∀ v, good v → Reads (pure (f v)) [] good' := fun v isGood => .ok (kept v isGood)
  have whole := first.bind rest
  rwa [List.append_nil] at whole

/-- A list is read item by item. -/
theorem mapM {f : σ → Except Fault τ} {items : σ → List Item} {good' : τ → Prop}
    (each : ∀ v, Reads (f v) (items v) good') (vs : List σ) :
    Reads (vs.mapM f) (vs.flatMap items) fun _ => True := by
  induction vs with
  | nil => exact .ok trivial
  | cons v vs ih =>
      rw [List.mapM_cons, List.flatMap_cons]
      exact (each v).bind fun _ _ => ih.map fun _ _ => trivial

end Reads

theorem reads_color (text : String) : Reads (readColor text) [.color text] fun _ => True := by
  have grammar := Color.isSome_parse?_iff text
  unfold readColor
  cases h : Color.parse? text <;>
    simp [Reads, firstFault, Item.fault?, ← grammar, h]

/-- A path is read to its end, or its fault is that of its data. -/
theorem reads_outline (o : Outline) : Reads o.read [.path o.data] fun _ => True := by
  unfold Outline.read Path.ofData
  cases h : PathData.read o.data <;>
    simp [Reads, firstFault, Item.fault?, h, Bind.bind, Except.bind, Pure.pure, Except.pure]

/-- Glyphs are read if each has its position. -/
theorem reads_blob (glyphs : List Nat) (positions : List (Point Float)) :
    Reads (readBlob glyphs positions) [.blob glyphs.length positions.length] fun _ => True := by
  unfold readBlob
  by_cases same : glyphs.length = positions.length <;>
    simp [Reads, firstFault, Item.fault?, same]

theorem reads_stop (s : Stop) : Reads s.read [.color s.color] fun _ => True := by
  unfold Stop.read
  exact (reads_color s.color).map fun _ _ => trivial

/-- The stops of a gradient are read one by one. -/
theorem reads_stops (stops : List Stop) :
    Reads (stops.mapM Stop.read) (stopItems stops) fun _ => True := by
  unfold stopItems
  rw [List.map_eq_flatMap]
  exact .mapM reads_stop stops

theorem reads_colorFilter (f : ColorFilter) : Reads f.read f.items fun _ => True := by
  cases f with
  | luminanceToAlpha => exact .ok trivial
  | matrix values =>
      unfold ColorFilter.read matrixSize
      by_cases size : values.length = 20 <;>
        simp [Reads, ColorFilter.items, firstFault, Item.fault?, size]
  | blend color => exact (reads_color color).map fun _ _ => trivial

theorem reads_imageFilter (f : ImageFilter) : Reads f.read f.items fun _ => True := by
  cases f with
  | flood color => exact (reads_color color).map fun _ _ => trivial
  | blur deviation => exact .ok trivial
  | dropShadow dx dy deviation color => exact (reads_color color).map fun _ _ => trivial
  | offset dx dy => exact .ok trivial

theorem reads_optional {σ τ : Type} {read : σ → Except Fault τ} {items : σ → List Item}
    (each : ∀ v, Reads (read v) (items v) fun _ => True) (v : Option σ) :
    Reads (readOptional read v) (v.toList.flatMap items) fun _ => True := by
  cases v with
  | none => exact .ok trivial
  | some v =>
      rw [Option.toList_some, List.flatMap_singleton]
      exact (each v).map fun _ _ => trivial

mutual

/-- Pictures are read command after command, one case for each constructor of the document. -/
theorem reads_picture : ∀ p : Picture, Reads p.read p.items p.Matches
  | ⟨_, commands⟩ => (reads_commands commands).map fun _ h => .mk h.1 h.2

/-- Commands are read in order, and what was read has their names and their nested pictures. -/
theorem reads_commands : ∀ cs : List (Command Picture),
    Reads (readCommands cs) (itemsIn cs) fun ds =>
      cs.map Command.name = ds.map PictureMarkup.Command.name ∧
        List.Forall₂ (Option.Rel Picture.Matches) (cs.map Command.nested?)
          (ds.map PictureMarkup.Command.nested?)
  | [] => .ok ⟨rfl, .nil⟩
  | c :: cs => (reads_command c).bind fun _ first => (reads_commands cs).map fun _ rest =>
      ⟨congrArg₂ List.cons first.1 rest.1, .cons first.2 rest.2⟩

/-- The path of a command is looked at before its paint. -/
theorem reads_command : ∀ c : Command Picture, Reads (readCommand c) (itemsOf c) fun d =>
    c.name = d.name ∧ Option.Rel Picture.Matches c.nested? d.nested?
  | .save => .ok ⟨rfl, .none⟩
  | .restore => .ok ⟨rfl, .none⟩
  | .setMatrix _ => .ok ⟨rfl, .none⟩
  | .clipPath path _ _ => (reads_outline path).map fun _ _ => ⟨rfl, .none⟩
  | .clipRect .. => .ok ⟨rfl, .none⟩
  | .saveLayer paint => (reads_paint? paint).map fun _ h => ⟨rfl, h⟩
  | .drawPath path paint =>
    (reads_outline path).bind fun _ _ => (reads_paint paint).map fun _ h => ⟨rfl, h⟩
  | .drawText _ _ paint => (reads_paint paint).map fun _ h => ⟨rfl, h⟩
  | .drawTextOnPath _ path _ paint =>
    (reads_outline path).bind fun _ _ => (reads_paint paint).map fun _ h => ⟨rfl, h⟩
  | .drawTextBlob glyphs positions _ paint =>
    (reads_blob glyphs positions).bind fun _ _ => (reads_paint paint).map fun _ h => ⟨rfl, h⟩
  | .drawImage _ _ _ paint => (reads_paint? paint).map fun _ h => ⟨rfl, h⟩

theorem reads_paint? : ∀ paint : Option (Paint Picture),
    Reads (readLayerPaint paint) (itemsOfPaint? paint) fun p =>
      Option.Rel Picture.Matches (paint.bind Paint.nested?) (p.bind PictureMarkup.Paint.nested?)
  | none => .ok .none
  | some paint => (reads_paint paint).map fun _ h => h

/-- The shader of a paint is looked at first, then its colour, then its filters. -/
theorem reads_paint : ∀ paint : Paint Picture, Reads (readPaint paint) (itemsOfPaint paint) fun p =>
    Option.Rel Picture.Matches paint.nested? p.nested?
  | ⟨_, shader, color, _, colorFilter, imageFilter, _⟩ => by
    have color := reads_optional reads_color color
    rw [← List.map_eq_flatMap] at color
    exact (reads_shader? shader).bind fun _ h => color.bind fun _ _ =>
      (reads_optional reads_colorFilter colorFilter).bind fun _ _ =>
        (reads_optional reads_imageFilter imageFilter).map fun _ _ => h

theorem reads_shader? : ∀ shader : Option (Shader Picture),
    Reads (readPaintShader shader) (itemsOfShader? shader) fun s =>
      Option.Rel Picture.Matches (shader.bind Shader.picture?)
        (s.bind PictureMarkup.Shader.picture?)
  | none => .ok .none
  | some shader => (reads_shader shader).map fun _ h => h

theorem reads_shader : ∀ shader : Shader Picture,
    Reads (readShader shader) (itemsOfShader shader) fun s =>
      Option.Rel Picture.Matches shader.picture? s.picture?
  | .color text => (reads_color text).map fun _ _ => .none
  | .linear _ _ stops _ _ => (reads_stops stops).map fun _ _ => .none
  | .conical _ _ _ _ stops _ _ => (reads_stops stops).map fun _ _ => .none
  | .picture picture _ _ _ => (reads_picture picture).map fun _ h => .some h

end

/-! ## Documents -/

namespace Picture

/-- Items of a nested picture come between the path of the command and the colour behind its
shader. -/
example (bounds : Rect Float) (origin : Point Float) :
    let inner : Picture := ⟨bounds, [.drawTextBlob [1] [] origin { color := some "red" }]⟩
    let shader : Shader Picture := .picture inner bounds .pad none
    items ⟨bounds, [.drawPath ⟨"M0 0", .nonZero⟩ { shader := some shader, color := some "#000" }]⟩ =
      [.path "M0 0", .blob 1 0, .color "red", .color "#000"] := rfl

end Picture

end Written

end PictureMarkup
