import PictureMarkup.Machine
import PictureMarkup.Path.Bounds

/-!
# Converting pictures

A picture's shaders may show further pictures, which are converted by the same rules
and with the same options. Only so many levels are followed; a picture below the
last one has no drawing, so that a brush which would show it is left out.
-/

namespace PictureMarkup

/-- How many pictures may lie inside each other, the outermost one not counted. -/
def maximumNesting : Nat := 32

/-- What the conversion of a whole picture depends on: the options, the source of outlines and
the measure of paths. -/
structure Setting (α : Type) where
  options : Options
  glyphs : GlyphSource α (Picture α)
  bounds : Path α → Rect α

namespace Setting

variable {α : Type}

/-- The scene of a picture, given the drawings of the pictures nested in it. -/
def scene (s : Setting α) (visual : Picture α → Option (Group α)) : Scene α (Picture α) where
  options := s.options
  glyphs := s.glyphs
  bounds := s.bounds
  cullRect := Picture.cullRect
  visual := visual

variable [Scalar α]

/-- The drawing of a picture in which a number of further levels are followed, for a
picture that is itself one of these levels. -/
def visual (s : Setting α) : Nat → Picture α → Option (Group α)
  | 0, _ => none
  | levels + 1, p => some ((s.scene (s.visual levels)).convert p.cullRect p.commands)

/-- The tree of a picture, with nested pictures as deep as the limit. -/
def convert (s : Setting α) (p : Picture α) : Group α :=
  (s.scene (s.visual maximumNesting)).convert p.cullRect p.commands

end Setting

/-- A source without outlines, so that texts draw nothing. -/
def GlyphSource.none {α P : Type} : GlyphSource α P := fun _ _ _ => Option.none

/-- The setting of the program, which measures paths in floating point. -/
def Setting.floating (options : Options) (glyphs : GlyphSource Float (Picture Float)) :
    Setting Float where
  options := options
  glyphs := glyphs
  bounds := Path.bounds

end PictureMarkup
