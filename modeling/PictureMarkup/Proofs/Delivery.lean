import PictureMarkup.Proofs.Nesting

/-!
# What is delivered to which group

A ledger follows the commands of a picture without building anything. Groups and buffers
are numbered by the command that opens them, the root is number zero, and the ledger keeps
the numbers of those that are open, frame by frame. When a leaf is drawn, or when a group
or a buffer is closed, it writes down what is delivered and to which group: the innermost
that is open around it, where buffers that only pass their content on are skipped.

A buffer of this kind delivers nothing itself, and neither does the buffer of a mask while
masks are ignored. The buffer of any other mask is delivered as a mask, and everything else
as a child. What is still open at the end of the picture is closed then, the innermost
first.
-/

namespace PictureMarkup

variable {α P : Type}

/-- What becomes of a group or a buffer when it is closed. -/
inductive Role (α : Type) where
  /-- A child with the properties of a group. -/
  | wrapped (shell : Group α)
  | masking
  /-- Nothing of its own: what is delivered to it goes to the group around it. -/
  | passing
  | dropped

/-- The role of a layer: the group it makes, the mask it makes, or neither. -/
def LayerKind.role [Scalar α] (options : Options) : LayerKind → Role α
  | .maskGroup => if options.ignoreMask then .passing else .wrapped .empty
  | .maskBrush => if options.ignoreMask then .dropped else .masking
  | .opacity alpha =>
    if options.ignoreOpacity then .passing else .wrapped { opacity := some (opacityOf alpha) }
  | .filter | .unknown => .passing

/-- What is delivered, apart from the content of a group that is delivered. -/
inductive Parcel (α : Type) where
  | leaf (l : Leaf α (Group α))
  | group (shell : Group α)
  | mask

namespace Parcel

/-- The parcel is a mask. -/
def isMask : Parcel α → Bool
  | .mask => true
  | .leaf _ | .group _ => false

/-- What a delivery adds to its target, if it is a group or a mask with some content. -/
def content (c : Content α) : Parcel α → Content α
  | .leaf l => .one (.leaf l)
  | .group shell => .one (.group { shell with mask := c.mask, children := c.children })
  | .mask => { mask := some c.group.maskBrush }

end Parcel

/-- What a layer delivers when it is left, if it delivers anything. -/
def Role.parcel? : Role α → Option (Parcel α)
  | .wrapped shell => some (.group shell)
  | .masking => some .mask
  | .passing | .dropped => none

/-- A parcel, and the command that opened the group it goes to. -/
structure Delivery (α : Type) where
  /-- The command that drew the leaf or opened the group. -/
  number : Nat
  target : Nat
  parcel : Parcel α

/-- What arrives with a delivery, given what every command has gathered. -/
def Delivery.content (contents : Nat → Content α) (d : Delivery α) : Content α :=
  d.parcel.content (contents d.number)

/-- What is delivered to a target, in order. -/
def deliveredTo (n : Nat) (log : List (Delivery α)) : List (Delivery α) :=
  log.filter fun d => d.target == n

/-- The numbers of the masks that are delivered to a target, in order. -/
def masksFor (n : Nat) (log : List (Delivery α)) : List Nat :=
  ((deliveredTo n log).filter (·.parcel.isMask)).map (·.number)

/-- A group or a buffer that is open. -/
structure Holder (α : Type) where
  number : Nat
  role : Role α

namespace Holder

/-- The transform of an open group that has one. -/
def transform? (h : Holder α) : Option (Affine α) :=
  match h.role with
  | .wrapped shell => shell.transform
  | .masking | .passing | .dropped => none

/-- The group that something would be delivered to, given what is open, innermost first. -/
def target : List (Holder α) → Nat
  | [] => 0
  | ⟨_, .passing⟩ :: below => target below
  | ⟨number, _⟩ :: _ => number

/-- What closing a holder delivers, given what is open below it. -/
def deliveries (h : Holder α) (below : List (Holder α)) : List (Delivery α) :=
  h.role.parcel?.toList.map fun parcel => ⟨h.number, target below, parcel⟩

/-- What closing some holders delivers, the first one first. -/
def closing : List (Holder α) → List (Holder α) → List (Delivery α)
  | [], _ => []
  | h :: hs, below => h.deliveries (hs ++ below) ++ closing hs below

end Holder

/-- What is open, and what has been delivered. -/
structure Ledger (α : Type) where
  holders : FrameStack (Holder α) := .empty
  log : List (Delivery α) := []

namespace Ledger

/-- All that is open, innermost first. -/
def held (l : Ledger α) : List (Holder α) := l.holders.current ++ l.holders.outer.flatten

/-- Open a group that delivers later. -/
def hold (l : Ledger α) (h : Holder α) : Ledger α := { l with holders := l.holders.push h }

/-- Deliver a leaf to the innermost group that takes something. -/
def deliver (l : Ledger α) (number : Nat) (leaf : Leaf α (Group α)) : Ledger α :=
  { l with log := l.log ++ [⟨number, Holder.target l.held, .leaf leaf⟩] }

/-- Open a frame. -/
def pushFrame (l : Ledger α) : Ledger α := { l with holders := l.holders.pushFrame }

/-- Close what the innermost frame holds, unless it is the outermost one. -/
def leave (l : Ledger α) : Ledger α :=
  match l.holders.outer with
  | [] => l
  | _ :: _ =>
    { holders := l.holders.popFrame
      log := l.log ++ Holder.closing l.holders.current l.holders.outer.flatten }

/-- The transforms of the open groups, outermost first. -/
def transforms (l : Ledger α) : List (Affine α) := l.holders.entries.filterMap Holder.transform?

variable [Scalar α]

/-- Follow the action of the command with a number. -/
def act (options : Options) (number : Nat) (l : Ledger α) : Action α → Ledger α
  | .clip c => l.hold ⟨number, .wrapped { clip := some c.path }⟩
  | .matrix matrix =>
    match matrix.opening l.transforms with
    | none => l
    | some t => l.hold ⟨number, .wrapped { transform := some t }⟩
  | .add leaf => l.deliver number leaf
  | .enter none => l.pushFrame
  | .enter (some kind) => l.pushFrame.hold ⟨number, kind.role options⟩
  | .leave => l.leave
  | .nothing => l

/-- Follow actions, numbered from here on. -/
def follow (options : Options) : Nat → Ledger α → List (Action α) → Ledger α
  | _, l, [] => l
  | number, l, a :: as => follow options (number + 1) (l.act options number a) as

/-- All deliveries of a picture that ends here. -/
def finish (l : Ledger α) : List (Delivery α) := l.log ++ Holder.closing l.held []

end Ledger

/-- What a picture delivers to which group, in the order of closing. -/
def Scene.deliveries [Scalar α] (s : Scene α P) (commands : List (Command α P)) :
    List (Delivery α) :=
  (Ledger.follow s.options 1 {} (commands.map s.action)).finish

end PictureMarkup
