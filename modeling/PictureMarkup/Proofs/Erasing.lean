import PictureMarkup.Proofs.Replacing

/-!
# Erasing what an option ignores

Each of the three options that leave something out of a tree amounts to erasing it from the
commands. With an option on, a picture converts to what it converts to with the option off
after the clips are erased (`Scene.convert_eraseClips`), the fading layers are stripped of
their paint (`Scene.convert_eraseOpacity`), or the mask layers are erased with everything in
them and the mask groups stripped (`Scene.convert_eraseMasks`). Saves and restores need not
match: a mask layer that is never left is erased to the end.

The machine takes notice of an option at three different moments, when a clip is pushed, when
a layer is combined and when a mask is dropped, while the erasing happens on the flat list
beforehand. Both are compared as recursions over the nesting. For the mask layers that means
following the list inside a layer that is gone: what the list without it begins with is what
stands after the restore of the layer (`Block.past`).
-/

namespace PictureMarkup

variable {α P τ : Type}

/-! ## Erasing -/

namespace Options

/-- The options with clips respected. -/
def withClips (o : Options) : Options := { o with ignoreClips := false }

/-- The options with opacities respected. -/
def withOpacity (o : Options) : Options := { o with ignoreOpacity := false }

/-- The options with masks respected. -/
def withMasks (o : Options) : Options := { o with ignoreMask := false }

variable {o : Options}

theorem withClips_eq (h : ¬o.ignoreClips = true) : o.withClips = o := by
  rw [withClips, ← eq_false_of_ne_true h]

theorem withOpacity_eq (h : ¬o.ignoreOpacity = true) : o.withOpacity = o := by
  rw [withOpacity, ← eq_false_of_ne_true h]

theorem withMasks_eq (h : ¬o.ignoreMask = true) : o.withMasks = o := by
  rw [withMasks, ← eq_false_of_ne_true h]

end Options

/-- What a command does to the nesting. -/
inductive Bracket where
  | opens (layer : Option LayerKind)
  | closes
  | neither
  deriving DecidableEq

namespace Command

/-- How a command opens or closes a frame. -/
def bracket : Command α P → Bracket
  | .save => .opens none
  | .saveLayer paint => .opens (some (.classify paint))
  | .restore => .closes
  | _ => .neither

/-- The command is a clip. -/
def isClip : Command α P → Bool
  | .clipPath .. | .clipRect .. => true
  | _ => false

/-- A layer of one of some kinds without its paint, any other command as it is. -/
def withoutPaint (kinds : LayerKind → Bool) : Command α P → Command α P
  | .saveLayer paint => if kinds (.classify paint) then .saveLayer none else .saveLayer paint
  | c => c

end Command

/-- How an action opens or closes a frame. -/
def Action.bracket : Action α → Bracket
  | .enter layer => .opens layer
  | .leave => .closes
  | .clip _ | .matrix _ | .add _ | .nothing => .neither

/-- The items without the mask layers: each is gone with everything up to the item that
leaves it, or to the end if none does. The number says how many frames are open inside the
mask layer that is being erased, itself included. -/
def withoutMasks (bracket : τ → Bracket) : Nat → List τ → List τ
  | _, [] => []
  | 0, x :: xs =>
    if bracket x = .opens (some .maskBrush) then withoutMasks bracket 1 xs
    else x :: withoutMasks bracket 0 xs
  | n + 1, x :: xs =>
    match bracket x with
    | .opens _ => withoutMasks bracket (n + 2) xs
    | .closes => withoutMasks bracket n xs
    | .neither => withoutMasks bracket (n + 1) xs

namespace LayerKind

/-- The layer fades its content. -/
def fades : LayerKind → Bool
  | .opacity _ => true
  | .maskGroup | .maskBrush | .filter | .unknown => false

/-- The layer holds masked content. -/
def isMasked : LayerKind → Bool
  | .maskGroup => true
  | .maskBrush | .opacity _ | .filter | .unknown => false

end LayerKind

namespace Command

/-- The commands without the clips, if these are ignored. -/
def eraseClips (o : Options) (commands : List (Command α P)) : List (Command α P) :=
  if o.ignoreClips then commands.filter fun c => !c.isClip else commands

/-- The commands with the fading layers stripped of their paint, if opacities are ignored. -/
def eraseOpacity (o : Options) (commands : List (Command α P)) : List (Command α P) :=
  if o.ignoreOpacity then commands.map (withoutPaint LayerKind.fades) else commands

/-- The commands without the mask layers and with the mask groups stripped of their paint, if
masks are ignored. -/
def eraseMasks (o : Options) (commands : List (Command α P)) : List (Command α P) :=
  if o.ignoreMask then
    (withoutMasks bracket 0 commands).map (withoutPaint LayerKind.isMasked)
  else commands

end Command

theorem mem_of_mem_withoutMasks {bracket : τ → Bracket} {x : τ} (xs : List τ) :
    ∀ n, x ∈ withoutMasks bracket n xs →
      x ∈ xs ∧ bracket x ≠ .opens (some .maskBrush) := by
  induction xs with
  | nil => exact fun _ member => absurd member (by simp [withoutMasks])
  | cons y xs ih =>
      intro n member
      have later : ∀ n, x ∈ withoutMasks bracket n xs →
          x ∈ y :: xs ∧ bracket x ≠ .opens (some .maskBrush) := fun n member =>
        ⟨List.mem_cons_of_mem _ (ih n member).1, (ih n member).2⟩
      cases n with
      | zero =>
          rw [withoutMasks] at member
          split at member
          · exact later 1 member
          · rename_i kept
            rcases List.mem_cons.mp member with rfl | member
            · exact ⟨List.mem_cons_self, kept⟩
            · exact later 0 member
      | succ n =>
          rw [withoutMasks] at member
          split at member <;> exact later _ member

/-! ## Erasing and nesting -/

namespace Block

/-- A block without its mask layers. -/
def withoutMasks : Block α → Block α
  | .done => .done
  | .add l rest => .add l rest.withoutMasks
  | .clip c rest => .clip c rest.withoutMasks
  | .matrix m rest => .matrix m rest.withoutMasks
  | .scope layer body rest =>
    if layer = some .maskBrush then rest.withoutMasks
    else .scope layer body.withoutMasks rest.withoutMasks

/-- What is left of the blocks around a mask layer when that layer and the frames open inside
it, a number of them, are gone. -/
def past (inside : Nat) (around : List (Block α)) : Block α × List (Block α) :=
  match around.drop inside with
  | [] => (.done, [])
  | rest :: outer => (rest.withoutMasks, outer.map withoutMasks)

theorem past_succ_cons (inside : Nat) (b : Block α) (around : List (Block α)) :
    past (inside + 1) (b :: around) = past inside around := rfl

theorem past_nil (inside : Nat) : past inside ([] : List (Block α)) = (.done, []) := by
  unfold past
  rw [List.drop_nil]

end Block

namespace Action

/-- Only a layer has a kind that can be replaced. -/
theorem replace_of_not_layer {a : Action α} (kind : LayerKind → LayerKind)
    (h : ∀ k, a.bracket ≠ .opens (some k)) : a.replace id kind = a := by
  cases a with
  | enter layer =>
      cases layer with
      | none => rfl
      | some k => exact absurd rfl (h k)
  | _ => rfl

/-- An action that asks for nothing does not show in the nesting. -/
theorem nest_matched_nothing (n : Nat) (as : List (Action α)) :
    nest (matched n (.nothing :: as)) = nest (matched n as) := by
  cases n <;> rfl

/-- Actions that nest alike still do so behind one more action. -/
theorem nest_matched_cons {as bs : List (Action α)}
    (same : ∀ n, nest (matched n as) = nest (matched n bs)) (a : Action α) (n : Nat) :
    nest (matched n (a :: as)) = nest (matched n (a :: bs)) := by
  cases a with
  | leave =>
      cases n with
      | zero => exact same 0
      | succ n => simp only [matched, nest, same]
  | _ => simp only [matched, nest, same]

/-- Erasing the mask layers from a list erases them from its nesting. Inside a mask layer that
is being erased, the list goes on where that layer is left. -/
theorem nest_withoutMasks (as : List (Action α)) :
    (∀ n, nest (matched n (withoutMasks bracket 0 as)) =
      ((nest (matched n as)).1.withoutMasks,
        (nest (matched n as)).2.map Block.withoutMasks)) ∧
      ∀ n inside, nest (matched n (withoutMasks bracket (inside + 1) as)) =
        Block.past inside (nest (matched (n + inside + 1) as)).2 := by
  induction as with
  | nil => exact ⟨fun _ => rfl, fun _ _ => (Block.past_nil _).symm⟩
  | cons a as ih =>
      obtain ⟨outside, inside⟩ := ih
      constructor
      · intro n
        cases a with
        | enter layer =>
            by_cases mask : layer = some .maskBrush
            · have gone : bracket (.enter layer : Action α) = .opens (some .maskBrush) :=
                congrArg Bracket.opens mask
              -- from here on the list is inside the layer
              rw [withoutMasks, if_pos gone, inside n 0]
              simp only [matched, nest]
              rcases nest (matched (n + 0 + 1) as) with ⟨body, _ | ⟨rest, around⟩⟩ <;>
                simp [Block.past, Block.withoutMasks, mask]
            · have kept : bracket (.enter layer : Action α) ≠ .opens (some .maskBrush) :=
                fun same => mask (Bracket.opens.inj same)
              rw [withoutMasks, if_neg kept]
              simp only [matched, nest, outside]
              rcases nest (matched (n + 1) as) with ⟨body, _ | ⟨rest, around⟩⟩ <;>
                simp [Block.withoutMasks, mask]
        | leave =>
            rw [withoutMasks, if_neg (by simp [bracket])]
            cases n with
            | zero => exact outside 0
            | succ n => simp only [matched, nest, outside, List.map_cons, Block.withoutMasks]
        | _ =>
            rw [withoutMasks, if_neg (by simp [bracket])]
            simp only [matched, nest, outside, Block.withoutMasks]
      · intro n k
        cases a with
        | enter layer =>
            -- one frame more is open inside the layer
            show nest (matched n (withoutMasks bracket (k + 1 + 1) as)) = _
            rw [inside n (k + 1)]
            simp only [matched, nest, Nat.add_assoc]
            rcases nest (matched (n + (k + (1 + 1))) as) with ⟨body, _ | ⟨rest, around⟩⟩
            · rw [Block.past_nil, Block.past_nil]
            · rfl
        | leave =>
            show nest (matched n (withoutMasks bracket k as)) = _
            simp only [matched, nest]
            cases k with
            | zero => exact outside n
            | succ k => rw [Block.past_succ_cons, inside n k]; rfl
        | _ => exact inside n k

end Action

/-! ## Erasing and translating -/

section

variable [Scalar α]

/-- Under some other options a layer of another kind hands on the same. -/
def Action.Agrees (options other : Options) (kind : LayerKind → LayerKind) : Action α → Prop
  | .enter (some k) => ∀ c : Content α, c.asLayer other (kind k) = c.asLayer options k
  | _ => True

theorem Action.agrees_of_forall {options other : Options} {kind : LayerKind → LayerKind}
    (same : ∀ k (c : Content α), c.asLayer other (kind k) = c.asLayer options k)
    (a : Action α) : a.Agrees options other kind := by
  cases a with
  | enter layer =>
      cases layer with
      | none => exact trivial
      | some k => exact same k
  | _ => exact trivial

namespace Block

theorem translate_replace_kind {options other : Options} {kind : LayerKind → LayerKind}
    {b : Block α} (agrees : b.Every (Action.Agrees options other kind)) :
    ∀ ts, (b.replace id kind).translate other ts = b.translate options ts := by
  induction b with
  | done => exact fun _ => rfl
  | add l rest ih =>
      intro ts
      simp only [replace, translate, ih agrees.2, id]
  | clip c rest ih =>
      intro ts
      simp only [replace, translate, ih agrees.2]
  | matrix m rest ih =>
      intro ts
      simp only [replace, translate, ih agrees.2]
  | scope layer body rest ihBody ihRest =>
      obtain ⟨same, body, rest⟩ := agrees
      intro ts
      simp only [replace, translate, ihBody body, ihRest rest]
      cases layer with
      | none => rfl
      | some k => exact congrArg (· ++ _) (same _)

/-- While masks are ignored a mask layer adds nothing. -/
theorem translate_withoutMasks {options : Options} (ignored : options.ignoreMask = true)
    (b : Block α) : ∀ ts, b.withoutMasks.translate options ts = b.translate options ts := by
  induction b with
  | done => exact fun _ => rfl
  | add l rest ih =>
      intro ts
      simp only [withoutMasks, translate, ih]
  | clip c rest ih =>
      intro ts
      simp only [withoutMasks, translate, ih]
  | matrix m rest ih =>
      intro ts
      simp only [withoutMasks, translate, ih]
  | scope layer body rest ihBody ihRest =>
      intro ts
      by_cases mask : layer = some .maskBrush
      · simp [withoutMasks, translate, ihRest, mask, Content.outside, Content.asLayer, ignored]
      · simp only [withoutMasks, if_neg mask, translate, ihBody, ihRest]

end Block

namespace Scene

/-- The same scene under other options. -/
def under (s : Scene α P) (options : Options) : Scene α P := { s with options := options }

/-- Two pictures whose commands add the same convert to the same group. -/
theorem convert_eq_of_translate (s s' : Scene α P) {commands commands' : List (Command α P)}
    (background : s'.options.transparentBackground = s.options.transparentBackground)
    (same : (Action.nest (Action.matched 0 (commands'.map s'.action))).1.translate s'.options [] =
      (Action.nest (Action.matched 0 (commands.map s.action))).1.translate s.options [])
    (bounds : Rect α) : s'.convert bounds commands' = s.convert bounds commands := by
  rw [convert_eq_translation, convert_eq_translation, translation, translation, same]
  unfold Content.background
  rw [background]

theorem bracket_action (s : Scene α P) (c : Command α P) : (s.action c).bracket = c.bracket := by
  have clipping : ∀ clip, (s.clipping clip).bracket = .neither := by
    intro clip
    unfold clipping
    split <;> rfl
  have drawing : ∀ path paint, (s.drawing path paint).bracket = .neither := by
    intro path paint
    unfold drawing
    split <;> rfl
  cases c with
  | clipPath path combine antialias => exact clipping _
  | clipRect rect combine antialias => exact clipping _
  | drawPath path paint => exact drawing path paint
  | drawText text origin paint =>
      simp only [action]
      cases s.glyphs text origin paint with
      | none => rfl
      | some elements => exact drawing { elements } paint
  | _ => rfl

/-- Mask layers can be told before or after asking what the commands ask for. -/
theorem map_action_withoutMasks (s : Scene α P) (commands : List (Command α P)) :
    ∀ n, (withoutMasks Command.bracket n commands).map s.action =
      withoutMasks Action.bracket n (commands.map s.action) := by
  induction commands with
  | nil =>
      intro n
      cases n <;> rfl
  | cons c commands ih =>
      intro n
      have same := s.bracket_action c
      cases n with
      | zero =>
          rw [List.map_cons, withoutMasks, withoutMasks, same]
          split
          · exact ih 1
          · rw [List.map_cons, ih 0]
      | succ n =>
          rw [List.map_cons, withoutMasks, withoutMasks, same]
          split <;> exact ih _

/-! ## One option after the other -/

/-- A picture whose clips are ignored converts as if it had none. -/
theorem convert_eraseClips (s : Scene α P) (bounds : Rect α) (commands : List (Command α P)) :
    (s.under s.options.withClips).convert bounds (Command.eraseClips s.options commands) =
      s.convert bounds commands := by
  by_cases ignored : s.options.ignoreClips = true
  case neg => rw [Command.eraseClips, if_neg ignored, Options.withClips_eq ignored]; rfl
  rw [Command.eraseClips, if_pos ignored]
  have nested : ∀ n, Action.nest (Action.matched n ((commands.filter fun c => !c.isClip).map
      (s.under s.options.withClips).action)) =
        Action.nest (Action.matched n (commands.map s.action)) := by
    induction commands with
    | nil => exact fun _ => rfl
    | cons c commands ih =>
        intro n
        by_cases clip : c.isClip
        · have nothing : s.action c = .nothing := by
            cases c <;> simp_all [action, clipping, Command.isClip]
          rw [List.filter_cons_of_neg (by simp [clip]), List.map_cons, nothing,
            Action.nest_matched_nothing]
          exact ih n
        · have same : (s.under s.options.withClips).action c = s.action c := by
            cases c with
            | clipPath => exact absurd rfl clip
            | clipRect => exact absurd rfl clip
            | _ => rfl
          rw [List.filter_cons_of_pos (by simp [clip]), List.map_cons, List.map_cons, same]
          exact Action.nest_matched_cons ih _ n
  refine convert_eq_of_translate s (s.under s.options.withClips) rfl ?_ bounds
  -- what a layer hands on has nothing to do with clips
  have agrees : ∀ a ∈ commands.map s.action, a.Agrees s.options s.options.withClips id :=
    fun a _ => Action.agrees_of_forall (fun _ _ => rfl) a
  have translated := Block.translate_replace_kind (Action.every_nest_matched agrees 0)
  rw [nested, ← translated, Block.replace_id]
  rfl

/-- A picture converts alike with some of its layers stripped of their paint, if these hand
on their content as it stands. -/
theorem convert_withoutPaint (s : Scene α P) (other : Options) (kinds : LayerKind → Bool)
    (plain : ∀ c, (s.under other).action c = s.action c)
    (background : other.transparentBackground = s.options.transparentBackground)
    (bounds : Rect α) (commands : List (Command α P))
    (agrees : ∀ paint, .saveLayer paint ∈ commands → ∀ c : Content α,
      c.asLayer other (if kinds (.classify paint) then .unknown else .classify paint) =
        c.asLayer s.options (.classify paint)) :
    (s.under other).convert bounds (commands.map (Command.withoutPaint kinds)) =
      s.convert bounds commands := by
  have replaced : (commands.map (Command.withoutPaint kinds)).map (s.under other).action =
      (commands.map s.action).map
        (Action.replace id fun kind => if kinds kind then .unknown else kind) := by
    rw [List.map_map, List.map_map]
    refine List.map_congr_left fun c _ => ?_
    -- only a layer can tell the two apart
    by_cases layer : ∃ paint, c = .saveLayer paint
    · obtain ⟨paint, rfl⟩ := layer
      have unpainted : LayerKind.classify (none : Option (Paint α P)) = .unknown := rfl
      by_cases kind : kinds (.classify paint)
      · simp [Command.withoutPaint, Action.replace, action, kind, unpainted]
      · simp [Command.withoutPaint, Action.replace, action, kind]
    · have kept : c.withoutPaint kinds = c := by
        cases c with
        | saveLayer paint => exact absurd ⟨paint, rfl⟩ layer
        | _ => rfl
      have other : ∀ k, (s.action c).bracket ≠ .opens (some k) := by
        rw [s.bracket_action]
        cases c with
        | saveLayer paint => exact absurd ⟨paint, rfl⟩ layer
        | _ => simp [Command.bracket]
      rw [Function.comp_apply, Function.comp_apply, kept, plain,
        Action.replace_of_not_layer _ other]
  refine convert_eq_of_translate s (s.under other) background ?_ bounds
  rw [replaced, Action.nest_matched_replace]
  refine Block.translate_replace_kind (Action.every_nest_matched ?_ 0) []
  intro a member
  -- what the other kind makes of a content matters for layers only
  obtain ⟨c, asked, rfl⟩ := List.mem_map.mp member
  rcases s.action_cases c with ⟨_, rfl⟩ | ⟨paint, rfl⟩ | rfl | rfl | ⟨_, h⟩ | ⟨_, h⟩ | h
  · exact trivial
  · exact agrees paint asked
  · exact trivial
  · exact trivial
  · exact h ▸ trivial
  · exact h ▸ trivial
  · exact h ▸ trivial

/-- A picture whose opacities are ignored converts as if its fading layers had no paint. -/
theorem convert_eraseOpacity (s : Scene α P) (bounds : Rect α) (commands : List (Command α P)) :
    (s.under s.options.withOpacity).convert bounds (Command.eraseOpacity s.options commands) =
      s.convert bounds commands := by
  by_cases ignored : s.options.ignoreOpacity = true
  case neg => rw [Command.eraseOpacity, if_neg ignored, Options.withOpacity_eq ignored]; rfl
  rw [Command.eraseOpacity, if_pos ignored]
  have plain : ∀ c, (s.under s.options.withOpacity).action c = s.action c := by
    intro c
    cases c <;> rfl
  refine s.convert_withoutPaint _ LayerKind.fades plain rfl bounds commands ?_
  intro paint _ c
  cases LayerKind.classify paint with
  | opacity alpha => simp [LayerKind.fades, Content.asLayer, ignored]
  | _ => rfl

/-- A picture whose masks are ignored converts as if it had no mask layers and its mask groups
had no paint. -/
theorem convert_eraseMasks (s : Scene α P) (bounds : Rect α) (commands : List (Command α P)) :
    (s.under s.options.withMasks).convert bounds (Command.eraseMasks s.options commands) =
      s.convert bounds commands := by
  by_cases ignored : s.options.ignoreMask = true
  case neg => rw [Command.eraseMasks, if_neg ignored, Options.withMasks_eq ignored]; rfl
  rw [Command.eraseMasks, if_pos ignored]
  have erased : s.convert bounds (withoutMasks Command.bracket 0 commands) =
      s.convert bounds commands := by
    refine convert_eq_of_translate s s rfl ?_ bounds
    rw [map_action_withoutMasks, (Action.nest_withoutMasks _).1]
    exact Block.translate_withoutMasks ignored _ []
  rw [← erased]
  have plain : ∀ c, (s.under s.options.withMasks).action c = s.action c := by
    intro c
    cases c <;> rfl
  refine s.convert_withoutPaint _ LayerKind.isMasked plain rfl bounds _ ?_
  intro paint member c
  -- no mask layer is left, for which the options would make a difference
  have noMask := (mem_of_mem_withoutMasks commands 0 member).2
  cases kind : LayerKind.classify paint with
  | maskBrush => exact absurd (by simp [Command.bracket, kind]) noMask
  | maskGroup => simp [LayerKind.isMasked, Content.asLayer, ignored]
  | _ => rfl

end Scene

end

end PictureMarkup
