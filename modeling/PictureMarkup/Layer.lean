import PictureMarkup.Drawing
import PictureMarkup.Options

/-!
# Layers

A drawing has no offscreen layers, so a layer is recognised by its paint and
expressed by properties of groups. The patterns are conventions of the renderer that
makes the recordings: opaque black marks the two layers of a mask, the one that
holds the mask also has a colour filter, and a colour that is not opaque fades a
group. A layer of any other kind passes its content through to what encloses it.
-/

namespace PictureMarkup

/-- How a layer is reproduced. -/
inductive LayerKind where
  /-- Masked content: a plain group. -/
  | maskGroup
  /-- A mask: the opacity mask of what encloses it. -/
  | maskBrush
  /-- A faded group, with its alpha. -/
  | opacity (alpha : UInt8)
  /-- A filtered layer: its content without the filter. -/
  | filter
  /-- Anything else: its content. -/
  | unknown
  deriving DecidableEq

namespace LayerKind

variable {α P : Type}

/-- The kind of a layer with a paint. The patterns are tried in order. -/
def classify : Option (Paint α P) → LayerKind
  | none => .unknown
  | some paint =>
    let sentinel := paint.color == some Color.maskSentinel
    if paint.shader.isSome then .unknown
    else
      match paint.colorFilter, paint.imageFilter with
      | some _, none => if sentinel then .maskBrush else .unknown
      | none, none =>
        if sentinel then .maskGroup
        else
          match paint.color with
          | some c => if c.alpha < 255 then .opacity c.alpha else .unknown
          | none => .unknown
      | none, some _ => if sentinel then .filter else .unknown
      | some _, some _ => .unknown

/-- The name of the kind in reports. -/
def name : LayerKind → String
  | .maskGroup => "mask group"
  | .maskBrush => "mask brush"
  | .opacity _ => "opacity group"
  | .filter => "filter group"
  | .unknown => "unknown paint"

end LayerKind

/-- The opacity of a colour's alpha, between zero and one. -/
def opacityOf {α : Type} [Scalar α] (alpha : UInt8) : α := Scalar.ratio alpha.toNat 255

namespace Group

variable {α : Type}

/-- The brush that a mask layer's content makes: drawn as it stands, not tiled. -/
def maskBrush (content : Group α) : Brush α (Group α) :=
  .visual { tileMode := some .none, visual := content }

/-- Take over the children of a layer, and its mask if it has one. -/
def absorb (parent content : Group α) : Group α :=
  ((content.mask.map parent.setMask).getD parent).append content.children

/-- Combine the content of a finished layer with what encloses it. -/
def composite [Scalar α] (options : Options) (kind : LayerKind) (parent content : Group α) :
    Group α :=
  match kind with
  | .maskGroup =>
    if options.ignoreMask then parent.absorb content else parent.append [.group content]
  | .maskBrush => if options.ignoreMask then parent else parent.setMask content.maskBrush
  | .opacity alpha =>
    if options.ignoreOpacity then parent.absorb content
    else parent.append [.group { content with opacity := some (opacityOf alpha) }]
  | .filter | .unknown => parent.absorb content

end Group

end PictureMarkup
