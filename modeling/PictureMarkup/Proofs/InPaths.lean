import PictureMarkup.Proofs.NestedPictures

/-!
# Pictures in paths

Of the eleven commands six are enough. A text is the path that outlines it, a clip to a
rectangle is one to the rectangle's path, and what cannot be converted or shows nothing may as
well not be there. `Picture.inPaths` says so of a picture and of every picture nested in what it
draws: with a source of outlines at hand it leaves only commands that need none.

One command and the commands that stand for it do the same to every state of the machine, as long
as the scene of the second shows for each rewritten picture what that of the first shows for the
picture itself (`Machine.run_inPathsWith`). So nothing that follows can tell them apart, at the top
level or in any picture of a shader (`Setting.convert_inPaths`).
-/

namespace PictureMarkup

variable {α P : Type}

/-- The commands that stand for a command where texts have outlines and nested pictures are
changed. The outline of a text is that of the text in its own paint. -/
def Command.inPathsWith (glyphs : GlyphSource α P) (f : P → P) :
    Command α P → List (Command α P)
  | .clipPath path combine antialias => [.clipPath path combine antialias]
  | .clipRect rect combine antialias => [.clipPath (.ofRect rect) combine antialias]
  | .setMatrix matrix => [.setMatrix matrix]
  | .save => [.save]
  | .restore => [.restore]
  | .saveLayer paint => [.saveLayer paint]
  | .drawPath path paint => if path.isEmpty then [] else [.drawPath path (paint.map f)]
  | .drawText text origin paint =>
    match glyphs text origin paint with
    | none => []
    | some elements => [.drawPath { elements, fillRule := .nonZero } (paint.map f)]
  | .drawTextOnPath .. | .drawTextBlob .. | .drawImage .. => []

namespace Picture

section

variable (glyphs : GlyphSource α (Picture α))

mutual

/-- The picture with paths for texts and rectangles, and without what shows nothing, at every
level. -/
def inPaths : Picture α → Picture α
  | ⟨cullRect, commands⟩ => ⟨cullRect, inPathsIn commands⟩

/-- What stands for some commands. -/
def inPathsIn : List (Command α (Picture α)) → List (Command α (Picture α))
  | [] => []
  | c :: cs => inPathsFor c ++ inPathsIn cs

/-- What stands for a command: a path for a rectangle or for a text with an outline, nothing
for what shows nothing, and otherwise the command, with the pictures nested in its paint
rewritten. -/
def inPathsFor : Command α (Picture α) → List (Command α (Picture α))
  | .clipPath path combine antialias => [.clipPath path combine antialias]
  | .clipRect rect combine antialias => [.clipPath (.ofRect rect) combine antialias]
  | .setMatrix matrix => [.setMatrix matrix]
  | .save => [.save]
  | .restore => [.restore]
  | .saveLayer paint => [.saveLayer paint]
  | .drawPath path paint => if path.isEmpty then [] else [.drawPath path (inPathsPaint paint)]
  | .drawText text origin paint =>
    match glyphs text origin paint with
    | none => []
    | some elements => [.drawPath { elements, fillRule := .nonZero } (inPathsPaint paint)]
  | .drawTextOnPath .. | .drawTextBlob .. | .drawImage .. => []

/-- A paint with the picture nested in its shader rewritten. -/
def inPathsPaint : Paint α (Picture α) → Paint α (Picture α)
  | ⟨style, shader, stroke, color, colorFilter, imageFilter, text⟩ =>
    ⟨style, inPathsShader? shader, stroke, color, colorFilter, imageFilter, text⟩

def inPathsShader? : Option (Shader α (Picture α)) → Option (Shader α (Picture α))
  | none => none
  | some shader => some (inPathsShader shader)

def inPathsShader : Shader α (Picture α) → Shader α (Picture α)
  | .color c => .color c
  | .gradient kind extend stops matrix => .gradient kind extend stops matrix
  | .picture picture tile extend matrix => .picture (inPaths picture) tile extend matrix

end

theorem inPathsShader_eq (shader : Shader α (Picture α)) :
    inPathsShader glyphs shader = shader.map (inPaths glyphs) := by
  cases shader <;> rfl

theorem inPathsPaint_eq (paint : Paint α (Picture α)) :
    inPathsPaint glyphs paint = paint.map (inPaths glyphs) := by
  obtain ⟨style, shader, stroke, color, colorFilter, imageFilter, text⟩ := paint
  cases shader with
  | none => rfl
  | some shader =>
      simp only [inPathsPaint, inPathsShader?, inPathsShader_eq, Paint.map, Option.map]

theorem inPathsFor_eq (c : Command α (Picture α)) :
    inPathsFor glyphs c = c.inPathsWith glyphs (inPaths glyphs) := by
  cases c <;> simp only [inPathsFor, inPathsPaint_eq, Command.inPathsWith]

theorem inPathsIn_eq (commands : List (Command α (Picture α))) :
    inPathsIn glyphs commands =
      commands.flatMap (Command.inPathsWith glyphs (inPaths glyphs)) := by
  induction commands with
  | nil => rfl
  | cons c commands ih => rw [inPathsIn, inPathsFor_eq, ih, List.flatMap_cons]

@[simp] theorem inPaths_cullRect (p : Picture α) : (p.inPaths glyphs).cullRect = p.cullRect := by
  cases p
  rfl

theorem inPaths_commands (p : Picture α) :
    (p.inPaths glyphs).commands =
      p.commands.flatMap (Command.inPathsWith glyphs (inPaths glyphs)) := by
  cases p
  exact inPathsIn_eq glyphs _

end

end Picture

/-- The same scene with another source of outlines. -/
def Scene.withGlyphs (s : Scene α P) (glyphs : GlyphSource α P) : Scene α P :=
  { s with glyphs := glyphs }

namespace Setting

/-- The same setting without outlines. -/
def withoutGlyphs (s : Setting α) : Setting α := { s with glyphs := .none }

/-- Where rewritten pictures are shown as the pictures themselves, the scene without outlines
stands for the scene with them. -/
theorem scene_withoutGlyphs {s : Setting α} {visual visual' : Picture α → Option (Group α)}
    (same : ∀ q : Picture α, visual' (q.inPaths s.glyphs) = visual q) :
    ((s.withoutGlyphs.scene visual').through (Picture.inPaths s.glyphs)).withGlyphs s.glyphs =
      s.scene visual := by
  have rects : (Picture.cullRect : Picture α → Rect α) ∘ Picture.inPaths s.glyphs =
      Picture.cullRect := funext fun q => q.inPaths_cullRect _
  have visuals : visual' ∘ Picture.inPaths s.glyphs = visual := funext same
  unfold Scene.through Scene.withGlyphs scene
  rw [rects, visuals]
  rfl

end Setting

variable [Scalar α]

namespace Machine

/-- Drawing in a changed paint is drawing in the paint itself where something else stands for each
nested picture. Outlines play no part in it. -/
theorem draw_map (s : Scene α P) (glyphs : GlyphSource α P) (f : P → P) (path : Path α)
    (paint : Paint α P) (m : Machine α) :
    m.draw s path (paint.map f) = m.draw ((s.through f).withGlyphs glyphs) path paint := by
  unfold draw
  rw [Scene.leaf_map]
  rfl

/-- The commands that stand for a command do what it does. -/
theorem run_inPathsWith (s : Scene α P) (glyphs : GlyphSource α P) (f : P → P) (m : Machine α)
    (c : Command α P) :
    m.run s (c.inPathsWith glyphs f) = m.step ((s.through f).withGlyphs glyphs) c := by
  cases c with
  | drawPath path paint =>
      simp only [Command.inPathsWith, step, ← draw_map]
      by_cases empty : path.isEmpty
      · -- a path that shows nothing is not drawn in the first place
        rw [if_pos empty, draw, if_pos empty, run]
      · rw [if_neg empty]
        rfl
  | drawText text origin paint =>
      simp only [Command.inPathsWith, step, Scene.outline, Scene.withGlyphs]
      cases glyphs text origin paint with
      | none => rfl
      | some elements => exact draw_map s glyphs f _ paint m
  | _ => rfl

theorem run_flatMap_inPathsWith (s : Scene α P) (glyphs : GlyphSource α P) (f : P → P)
    (cs : List (Command α P)) (m : Machine α) :
    m.run s (cs.flatMap (Command.inPathsWith glyphs f)) =
      m.run ((s.through f).withGlyphs glyphs) cs := by
  induction cs generalizing m with
  | nil => rfl
  | cons c cs ih => rw [List.flatMap_cons, run_append, run_inPathsWith, ih, run]

end Machine

namespace Setting

theorem run_inPaths {s : Setting α} {visual visual' : Picture α → Option (Group α)}
    (same : ∀ q : Picture α, visual' (q.inPaths s.glyphs) = visual q)
    (cs : List (Command α (Picture α))) (m : Machine α) :
    m.run (s.withoutGlyphs.scene visual')
        (cs.flatMap (Command.inPathsWith s.glyphs (Picture.inPaths s.glyphs))) =
      m.run (s.scene visual) cs := by
  rw [Machine.run_flatMap_inPathsWith, scene_withoutGlyphs same]

theorem convert_inPaths_of_visual {s : Setting α}
    {visual visual' : Picture α → Option (Group α)}
    (same : ∀ q : Picture α, visual' (q.inPaths s.glyphs) = visual q) (p : Picture α) :
    (s.withoutGlyphs.scene visual').convert (p.inPaths s.glyphs).cullRect
        (p.inPaths s.glyphs).commands =
      (s.scene visual).convert p.cullRect p.commands := by
  unfold Scene.convert
  rw [Picture.inPaths_cullRect, Picture.inPaths_commands, run_inPaths same]
  rfl

theorem visual_inPaths (s : Setting α) (levels : Nat) :
    ∀ p : Picture α, s.withoutGlyphs.visual levels (p.inPaths s.glyphs) = s.visual levels p := by
  induction levels with
  | zero => exact fun _ => rfl
  | succ levels ih => exact fun p => congrArg some (convert_inPaths_of_visual ih p)

/-- **Texts, rectangles and what is not supported are a matter of writing.** A picture converts,
with any source of outlines, to what its rewriting in paths converts to without outlines, and so
does every picture nested in the shader of a draw, at each level. Behind any first part of its
commands the machine is in the same state as behind the commands that stand for this part: the
same frames, transforms, clips and groups are open for the commands that remain. -/
theorem convert_inPaths (s : Setting α) (p : Picture α) :
    s.withoutGlyphs.convert (p.inPaths s.glyphs) = s.convert p ∧
      (∀ levels, s.withoutGlyphs.visual levels (p.inPaths s.glyphs) = s.visual levels p) ∧
      ∀ levels before after, p.commands = before ++ after →
        let rewritten := List.flatMap (Command.inPathsWith s.glyphs (Picture.inPaths s.glyphs))
        (p.inPaths s.glyphs).commands = rewritten before ++ rewritten after ∧
          (Machine.start s.options (p.inPaths s.glyphs).cullRect).run
              (s.withoutGlyphs.scene (s.withoutGlyphs.visual levels)) (rewritten before) =
            (Machine.start s.options p.cullRect).run (s.scene (s.visual levels)) before := by
  refine ⟨?_, fun levels => s.visual_inPaths levels p, ?_⟩
  · exact convert_inPaths_of_visual (s.visual_inPaths maximumNesting) p
  · intro levels before after split rewritten
    have commands := p.inPaths_commands s.glyphs
    rw [split, List.flatMap_append] at commands
    refine ⟨commands, ?_⟩
    rw [Picture.inPaths_cullRect, run_inPaths (s.visual_inPaths levels)]

end Setting

end PictureMarkup
