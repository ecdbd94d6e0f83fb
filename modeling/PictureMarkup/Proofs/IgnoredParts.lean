import PictureMarkup.Proofs.Erasing
import PictureMarkup.Proofs.Exact
import PictureMarkup.Proofs.NestedPictures

/-!
# Ignoring is erasing

Clips, opacities and masks can be left out of a conversion by options. They can just as well
be erased from the picture beforehand, from its own commands and from those of every picture
nested in a shader of what it draws (`Picture.erased`): the tree is the same, whichever of
the options are on (`Setting.convert_erased`).
-/

namespace PictureMarkup

variable {α P : Type}

/-- The same options with nothing left out. -/
def Options.complete (o : Options) : Options :=
  { o with ignoreOpacity := false, ignoreClips := false, ignoreMask := false }

/-- The commands without what some options ignore. -/
def Command.erase (o : Options) (commands : List (Command α P)) : List (Command α P) :=
  eraseMasks o (eraseOpacity o (eraseClips o commands))

/-- The picture without what some options ignore, at every level. -/
def Picture.erased (o : Options) (p : Picture α) : Picture α := p.rewrite (Command.erase o)

variable [Scalar α]

namespace Scene

/-- Erasing from the commands of a picture, with what nested pictures show left alone. -/
theorem convert_erase (s : Scene α P) (bounds : Rect α) (commands : List (Command α P)) :
    (s.under s.options.complete).convert bounds (Command.erase s.options commands) =
      s.convert bounds commands := by
  -- one option after the other is turned off
  let clipped := s.under s.options.withClips
  let faded := clipped.under clipped.options.withOpacity
  calc (s.under s.options.complete).convert bounds (Command.erase s.options commands)
      = faded.convert bounds (Command.eraseOpacity clipped.options
          (Command.eraseClips s.options commands)) := faded.convert_eraseMasks bounds _
    _ = clipped.convert bounds (Command.eraseClips s.options commands) :=
        clipped.convert_eraseOpacity bounds _
    _ = s.convert bounds commands := s.convert_eraseClips bounds commands

end Scene

namespace Setting

/-- Erasing from a picture and from the pictures nested in it, when what these show is known
not to change. -/
theorem convert_erased_of_visual {s : Setting α} (fonts : s.glyphs.IgnoresPictures)
    {visual visual' : Picture α → Option (Group α)}
    (same : ∀ q : Picture α, visual' (q.erased s.options) = visual q) (p : Picture α) :
    ((s.scene visual').under s.options.complete).convert (p.erased s.options).cullRect
        (p.erased s.options).commands =
      (s.scene visual).convert p.cullRect p.commands := by
  have through : (s.scene visual').through (Picture.erased s.options) = s.scene visual := by
    have rects : (Picture.cullRect : Picture α → Rect α) ∘ Picture.erased s.options =
        Picture.cullRect := funext fun q => q.rewrite_cullRect _
    have visuals : visual' ∘ Picture.erased s.options = visual := funext same
    unfold Scene.through scene
    rw [rects, visuals]
  have commands := p.rewrite_commands (Command.erase s.options)
  calc _ = ((s.scene visual').under s.options.complete).convert p.cullRect
          (Command.erase s.options (p.commands.map (Command.onDraws (Picture.erased s.options)))) :=
        congrArg₂ _ (p.rewrite_cullRect _) commands
    _ = (s.scene visual').convert p.cullRect
          (p.commands.map (Command.onDraws (Picture.erased s.options))) :=
        (s.scene visual').convert_erase p.cullRect _
    _ = (s.scene visual).convert p.cullRect p.commands := by
        rw [Scene.convert_onDraws fonts, through]

theorem visual_erased {s : Setting α} (fonts : s.glyphs.IgnoresPictures) (levels : Nat) :
    ∀ p : Picture α,
      ({ s with options := s.options.complete } : Setting α).visual levels (p.erased s.options) =
        s.visual levels p := by
  induction levels with
  | zero => exact fun _ => rfl
  | succ levels ih => exact fun p => congrArg some (convert_erased_of_visual fonts ih p)

/-- **Ignoring is erasing.** If the outline of a text does not depend on the pictures nested in
its paint, a picture converts, with any of clips, opacities and masks ignored, to the tree that
it has, with none of them ignored, once they are erased from it: the clips, the paint of fading
layers, the paint of mask groups and the mask layers up to their restore or to the end, at its
top and in every picture nested in a shader of what is drawn. Erasing changes the pictures nested
in paints of texts as well, so a source of outlines that looked at them could tell. -/
theorem convert_erased (s : Setting α) (fonts : s.glyphs.IgnoresPictures) (p : Picture α) :
    s.convert p =
      ({ s with options := s.options.complete } : Setting α).convert (p.erased s.options) :=
  (convert_erased_of_visual fonts (visual_erased fonts maximumNesting) p).symm

end Setting

/-- Exact arithmetic with everything ignored. A text is outlined by a box for each of its
characters taken together, as high and wide as the size of the text. -/
def Setting.boxes : Setting ℚ where
  options := { ignoreOpacity := true, ignoreClips := true, ignoreMask := true }
  glyphs text origin paint :=
    paint.text.map fun style =>
      (Path.ofRect ⟨origin.x, origin.y - style.size, origin.x + text.length * style.size,
        origin.y⟩).elements
  bounds _ := ⟨0, 0, 1, 1⟩

namespace Picture

/-- The unit square. -/
def box : Path ℚ := .ofRect ⟨0, 0, 1, 1⟩

/-- A clipped text in a fading layer, a masked box, and a mask that is never left. -/
def badge : Picture ℚ where
  cullRect := ⟨0, 0, 8, 8⟩
  commands :=
    [.clipPath box .intersect true, .saveLayer (some (.layer ⟨128, 0, 0, 0⟩)),
      .drawText "ab" ⟨1, 2⟩ { Paint.fill ⟨255, 0, 0, 255⟩ with text := some ⟨"", 3, 400, false⟩ },
      .restore, .saveLayer (some (.layer .maskSentinel)), .drawPath box (.fill ⟨255, 0, 0, 255⟩),
      .saveLayer (some { Paint.layer .maskSentinel with colorFilter := some .luminanceToAlpha }),
      .save, .drawPath box (.fill .transparent), .restore, .restore, .restore,
      .saveLayer (some { Paint.layer .maskSentinel with colorFilter := some .luminanceToAlpha }),
      .setMatrix ⟨2, 0, 0, 2, 0, 0⟩, .drawPath box (.fill .transparent)]

/-- The badge as the pattern of a clipped box. -/
def framed : Picture ℚ where
  cullRect := ⟨0, 0, 8, 8⟩
  commands :=
    [.clipRect ⟨0, 0, 4, 4⟩ .difference false,
      .drawPath box (.shaded .fillAndStroke (.picture badge ⟨0, 0, 2, 2⟩ .repeat none))]

/-- What is left of the badge. -/
def plainBadge : Picture ℚ where
  cullRect := ⟨0, 0, 8, 8⟩
  commands :=
    [.saveLayer none,
      .drawText "ab" ⟨1, 2⟩ { Paint.fill ⟨255, 0, 0, 255⟩ with text := some ⟨"", 3, 400, false⟩ },
      .restore, .saveLayer none, .drawPath box (.fill ⟨255, 0, 0, 255⟩), .restore]

end Picture

/-- The framed badge converts, with everything ignored, as an unclipped box with the pattern of
the plain badge. -/
theorem Setting.convert_erased_framed :
    boxes.glyphs.IgnoresPictures ∧
      boxes.convert .framed = ({ boxes with options := {} } : Setting ℚ).convert
        { cullRect := ⟨0, 0, 8, 8⟩
          commands := [.drawPath Picture.box
            (.shaded .fillAndStroke (.picture .plainBadge ⟨0, 0, 2, 2⟩ .repeat none))] } := by
  have fonts : boxes.glyphs.IgnoresPictures := fun _ _ _ _ => rfl
  exact ⟨fonts, convert_erased boxes fonts .framed⟩

end PictureMarkup
