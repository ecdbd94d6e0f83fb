import PictureMarkup.Conversion
import PictureMarkup.Proofs.Translation

/-!
# Pictures inside pictures

A picture can nest further pictures in the shaders of what it draws. Two things are said
about all of them at once: `Picture.rewrite` applies a rewriting of command lists to the
picture and to every picture nested in it, the innermost first, and `Picture.levels` counts
how deep they nest. The conversion of a picture depends on the nested ones only through what
their shaders show (`Scene.convert_onDraws`, `Scene.convert_congr`).
-/

namespace PictureMarkup

variable {α P : Type}

/-- The picture nested in a shader. -/
def Shader.picture? : Shader α P → Option P
  | .picture nested .. => some nested
  | .color _ | .gradient .. => none

namespace Command

/-- The command with the pictures nested in the paint of a draw changed. The paint of a layer
stays as it is. -/
def onDraws (f : P → P) : Command α P → Command α P
  | .drawPath path paint => .drawPath path (paint.map f)
  | .drawText text origin paint => .drawText text origin (paint.map f)
  | .drawTextOnPath text path offset paint => .drawTextOnPath text path offset (paint.map f)
  | .drawTextBlob blob origin paint => .drawTextBlob blob origin (paint.map f)
  | .drawImage image source target paint =>
    .drawImage image source target (paint.map (Paint.map f))
  | c => c

/-- The picture in the shader of a draw, if there is one. -/
def picture? : Command α P → Option P
  | .drawPath _ paint => paint.shader.bind Shader.picture?
  | .drawText _ _ paint => paint.shader.bind Shader.picture?
  | _ => none

end Command

namespace Picture

/-! ## Rewriting at every level -/

section

variable (f : List (Command α (Picture α)) → List (Command α (Picture α)))

mutual

/-- Rewrite the commands of a picture, after those of every picture nested in its draws. -/
def rewrite : Picture α → Picture α
  | ⟨cullRect, commands⟩ => ⟨cullRect, f (rewriteIn commands)⟩

/-- Rewrite the pictures nested in some commands. -/
def rewriteIn : List (Command α (Picture α)) → List (Command α (Picture α))
  | [] => []
  | c :: cs => rewriteCommand c :: rewriteIn cs

/-- Rewrite the picture nested in the paint of a draw. -/
def rewriteCommand : Command α (Picture α) → Command α (Picture α)
  | .clipPath path combine antialias => .clipPath path combine antialias
  | .clipRect rect combine antialias => .clipRect rect combine antialias
  | .setMatrix matrix => .setMatrix matrix
  | .save => .save
  | .restore => .restore
  | .saveLayer paint => .saveLayer paint
  | .drawPath path paint => .drawPath path (rewritePaint paint)
  | .drawText text origin paint => .drawText text origin (rewritePaint paint)
  | .drawTextOnPath text path offset paint => .drawTextOnPath text path offset (rewritePaint paint)
  | .drawTextBlob blob origin paint => .drawTextBlob blob origin (rewritePaint paint)
  | .drawImage image source target paint => .drawImage image source target (rewritePaint? paint)

def rewritePaint? : Option (Paint α (Picture α)) → Option (Paint α (Picture α))
  | none => none
  | some paint => some (rewritePaint paint)

/-- Rewrite the picture nested in a paint. -/
def rewritePaint : Paint α (Picture α) → Paint α (Picture α)
  | ⟨style, shader, stroke, color, colorFilter, imageFilter, text⟩ =>
    ⟨style, rewriteShader? shader, stroke, color, colorFilter, imageFilter, text⟩

def rewriteShader? : Option (Shader α (Picture α)) → Option (Shader α (Picture α))
  | none => none
  | some shader => some (rewriteShader shader)

def rewriteShader : Shader α (Picture α) → Shader α (Picture α)
  | .color c => .color c
  | .gradient kind extend stops matrix => .gradient kind extend stops matrix
  | .picture picture tile extend matrix => .picture (rewrite picture) tile extend matrix

end

theorem rewriteShader_eq (shader : Shader α (Picture α)) :
    rewriteShader f shader = shader.map (rewrite f) := by
  cases shader <;> rfl

theorem rewritePaint_eq (paint : Paint α (Picture α)) :
    rewritePaint f paint = paint.map (rewrite f) := by
  obtain ⟨style, shader, stroke, color, colorFilter, imageFilter, text⟩ := paint
  cases shader with
  | none => rfl
  | some shader => simp only [rewritePaint, rewriteShader?, rewriteShader_eq, Paint.map, Option.map]

theorem rewriteCommand_eq (c : Command α (Picture α)) :
    rewriteCommand f c = c.onDraws (rewrite f) := by
  cases c with
  | drawImage image source target paint =>
      cases paint with
      | none => rfl
      | some paint =>
          simp only [rewriteCommand, rewritePaint?, rewritePaint_eq, Command.onDraws, Option.map]
  | _ => simp only [rewriteCommand, rewritePaint_eq, Command.onDraws]

theorem rewriteIn_eq (commands : List (Command α (Picture α))) :
    rewriteIn f commands = commands.map (Command.onDraws (rewrite f)) := by
  induction commands with
  | nil => rfl
  | cons c commands ih => rw [rewriteIn, rewriteCommand_eq, ih, List.map_cons]

@[simp] theorem rewrite_cullRect (p : Picture α) : (p.rewrite f).cullRect = p.cullRect := by
  cases p
  rfl

theorem rewrite_commands (p : Picture α) :
    (p.rewrite f).commands = f (p.commands.map (Command.onDraws (rewrite f))) := by
  cases p
  rw [rewrite, rewriteIn_eq]

end

/-! ## How deep pictures nest -/

mutual

/-- How many pictures lie inside each other below a picture, through the shaders of what it
draws. -/
def levels : Picture α → Nat
  | ⟨_, commands⟩ => levelsIn commands

/-- The levels below some commands: those of the deepest. -/
def levelsIn : List (Command α (Picture α)) → Nat
  | [] => 0
  | c :: cs => max (levelsOf c) (levelsIn cs)

/-- The levels that a command adds: none, unless it draws with a nested picture. -/
def levelsOf : Command α (Picture α) → Nat
  | .drawPath _ paint => levelsOfPaint paint
  | .drawText _ _ paint => levelsOfPaint paint
  | _ => 0

/-- The levels that a paint adds. -/
def levelsOfPaint : Paint α (Picture α) → Nat
  | ⟨_, shader, _, _, _, _, _⟩ => levelsOfShader? shader

def levelsOfShader? : Option (Shader α (Picture α)) → Nat
  | none => 0
  | some shader => levelsOfShader shader

/-- The levels that a shader adds: a picture adds itself and what is below it. -/
def levelsOfShader : Shader α (Picture α) → Nat
  | .color _ => 0
  | .gradient .. => 0
  | .picture picture .. => levels picture + 1

end

theorem levelsOfPaint_eq {paint : Paint α (Picture α)} {q : Picture α}
    (shown : paint.shader.bind Shader.picture? = some q) : levelsOfPaint paint = q.levels + 1 := by
  obtain ⟨style, shader, stroke, color, colorFilter, imageFilter, text⟩ := paint
  cases shader with
  | none => exact absurd shown (by simp)
  | some shader =>
      cases shader with
      | color c => exact absurd shown (by simp [Shader.picture?])
      | gradient kind extend stops matrix => exact absurd shown (by simp [Shader.picture?])
      | picture picture tile extend matrix =>
          cases Option.some.inj shown
          rfl

/-- A draw with a nested picture has one level more than the picture. -/
theorem levelsOf_eq {c : Command α (Picture α)} {q : Picture α} (shown : c.picture? = some q) :
    levelsOf c = q.levels + 1 := by
  cases c with
  | drawPath path paint => exact levelsOfPaint_eq shown
  | drawText text origin paint => exact levelsOfPaint_eq shown
  | _ => exact absurd shown (by simp [Command.picture?])

theorem levelsOf_le {c : Command α (Picture α)} {commands : List (Command α (Picture α))}
    (member : c ∈ commands) : levelsOf c ≤ levelsIn commands := by
  induction commands with
  | nil => exact absurd member List.not_mem_nil
  | cons d commands ih =>
      rw [levelsIn]
      rcases List.mem_cons.mp member with rfl | member
      · exact Nat.le_max_left _ _
      · exact Nat.le_trans (ih member) (Nat.le_max_right _ _)

/-- A nested picture has fewer levels below it. -/
theorem levels_lt {p q : Picture α} {c : Command α (Picture α)} (member : c ∈ p.commands)
    (shown : c.picture? = some q) : q.levels < p.levels := by
  obtain ⟨cullRect, commands⟩ := p
  have bound := levelsOf_le member
  rw [levelsOf_eq shown] at bound
  exact bound

end Picture

/-- The outline of a text does not depend on what the pictures in its paint hold. -/
def GlyphSource.IgnoresPictures (glyphs : GlyphSource α P) : Prop :=
  ∀ text origin (paint : Paint α P) (f : P → P),
    glyphs text origin (paint.map f) = glyphs text origin paint

variable [Scalar α]

namespace Scene

/-- The scene in which something else stands for each nested picture. -/
def through (s : Scene α P) (f : P → P) : Scene α P :=
  { s with cullRect := s.cullRect ∘ f, visual := s.visual ∘ f }

theorem brush_map (s : Scene α P) (f : P → P) (bounds : Rect α) (shader : Shader α P) :
    s.brush bounds (shader.map f) = (s.through f).brush bounds shader := by
  cases shader <;> rfl

/-- Changing the picture of a paint is changing what it shows. -/
theorem leaf_map (s : Scene α P) (f : P → P) (path : Path α) (paint : Paint α P) :
    s.leaf path (paint.map f) = (s.through f).leaf path paint := by
  obtain ⟨style, shader, stroke, color, colorFilter, imageFilter, text⟩ := paint
  cases shader with
  | none => rfl
  | some shader =>
      simp only [leaf, Paint.map, Option.map, Option.bind, brush_map]
      rfl

/-- Changing the picture of a command is changing what it shows, if outlines do not depend on
it. -/
theorem action_onDraws {s : Scene α P} (fonts : s.glyphs.IgnoresPictures) (f : P → P)
    (c : Command α P) : s.action (c.onDraws f) = (s.through f).action c := by
  have draw : ∀ path paint, s.drawing path (paint.map f) = (s.through f).drawing path paint := by
    intro path paint
    unfold drawing
    rw [leaf_map]
  cases c with
  | drawPath path paint => exact draw path paint
  | drawText text origin paint =>
      have same : s.glyphs text origin (paint.map f) = (s.through f).glyphs text origin paint :=
        fonts text origin paint f
      simp only [Command.onDraws, action, same]
      cases (s.through f).glyphs text origin paint with
      | none => rfl
      | some elements => exact draw { elements } paint
  | _ => rfl

/-- Changing the nested pictures is changing what their shaders show. -/
theorem convert_onDraws {s : Scene α P} (fonts : s.glyphs.IgnoresPictures) (f : P → P)
    (bounds : Rect α) (commands : List (Command α P)) :
    s.convert bounds (commands.map (Command.onDraws f)) =
      (s.through f).convert bounds commands := by
  rw [convert_eq_translation, convert_eq_translation, translation, translation, List.map_map]
  have same : s.action ∘ Command.onDraws f = (s.through f).action :=
    funext (action_onDraws fonts f)
  rw [same]
  rfl

section

variable (s : Scene α P) (visual : P → Option (Group α))

/-- A leaf asks only for the picture in its own paint. -/
theorem leaf_congr {path : Path α} {paint : Paint α P}
    (same : ∀ q, paint.shader.bind Shader.picture? = some q → visual q = s.visual q) :
    ({ s with visual := visual } : Scene α P).leaf path paint = s.leaf path paint := by
  obtain ⟨style, shader, stroke, color, colorFilter, imageFilter, text⟩ := paint
  cases shader with
  | none => rfl
  | some shader =>
      have brush : ({ s with visual := visual } : Scene α P).brush (s.bounds path) shader =
          s.brush (s.bounds path) shader := by
        cases shader with
        | picture picture tile extend matrix => simp only [Scene.brush, same picture rfl]
        | _ => rfl
      simp only [leaf, Option.bind, Option.map, brush]

/-- A command asks only for the picture that it draws with. -/
theorem action_congr {c : Command α P} (same : ∀ q, c.picture? = some q → visual q = s.visual q) :
    ({ s with visual := visual } : Scene α P).action c = s.action c := by
  have draw : ∀ path paint,
      (∀ q, paint.shader.bind Shader.picture? = some q → visual q = s.visual q) →
        ({ s with visual := visual } : Scene α P).drawing path paint = s.drawing path paint := by
    intro path paint same
    unfold drawing
    rw [leaf_congr s visual same]
  cases c with
  | drawPath path paint => exact draw path paint same
  | drawText text origin paint =>
      simp only [action]
      cases s.glyphs text origin paint with
      | none => rfl
      | some elements => exact draw { elements } paint same
  | _ => rfl

/-- The conversion of a picture asks only for the pictures nested in it. -/
theorem convert_congr (bounds : Rect α) {commands : List (Command α P)}
    (same : ∀ c ∈ commands, ∀ q, c.picture? = some q → visual q = s.visual q) :
    ({ s with visual := visual } : Scene α P).convert bounds commands =
      s.convert bounds commands := by
  rw [convert_eq_translation, convert_eq_translation, translation, translation,
    List.map_congr_left fun c member => action_congr s visual (same c member)]

end

end Scene

end PictureMarkup
