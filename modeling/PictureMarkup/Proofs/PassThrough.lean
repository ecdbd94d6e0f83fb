import PictureMarkup.Proofs.Outcome

/-!
# Layers that pass their content through

A filtered layer and a layer of unknown paint cannot be told from plain saves. A layer
collects its content in a buffer of its own and hands the children and the mask on when it
ends, while a save lets everything go straight into the group around it. In between the
two machines hold different groups, but never states that a picture could tell apart: what
arrives in the frame of such a layer arrives outside as it stands, as in the frame of a
save.
-/

namespace PictureMarkup

variable {α P : Type}

/-- Whatever the options are, a layer of this kind hands its content on as it stands. -/
def LayerKind.passes : LayerKind → Bool
  | .filter | .unknown => true
  | .maskGroup | .maskBrush | .opacity _ => false

/-- A layer that passes its content through as a save, any other command as it is. -/
def Command.asSave : Command α P → Command α P
  | .saveLayer paint => if (LayerKind.classify paint).passes then .save else .saveLayer paint
  | c => c

variable [Scalar α]

theorem Content.outside_of_passes (options : Options) {kind : LayerKind} (h : kind.passes)
    (c : Content α) : c.outside options (some kind) = c.outside options none := by
  cases kind with
  | filter => rfl
  | unknown => rfl
  | maskGroup => exact absurd h Bool.false_ne_true
  | maskBrush => exact absurd h Bool.false_ne_true
  | opacity alpha => exact absurd h Bool.false_ne_true

namespace Machine

/-- Following a command and following it as a save leaves states that are alike. -/
theorem Alike.step_asSave {m m' : Machine α} (s : Scene α P) (h : Alike s.options m m')
    (c : Command α P) : Alike s.options (m.step s c.asSave) (m'.step s c) := by
  have same : Alike s.options (m.step s c) (m'.step s c) := by
    rw [step_eq_act, step_eq_act]
    exact h.act (s.action c)
  cases c with
  | saveLayer paint =>
      by_cases passes : (LayerKind.classify paint).passes
      · have saved : Command.asSave (.saveLayer paint : Command α P) = .save := if_pos passes
        rw [saved, step_eq_act, step_eq_act]
        exact h.enter fun c => (Content.outside_of_passes s.options passes c).symm
      · have kept : Command.asSave (.saveLayer paint : Command α P) = .saveLayer paint :=
          if_neg passes
        rw [kept]
        exact same
  | _ => exact same

theorem Alike.run_asSave (s : Scene α P) (commands : List (Command α P)) :
    ∀ {m m' : Machine α} (chosen : Nat → Bool), Alike s.options m m' →
      Alike s.options (m.run s (commands.mapIdx fun i c => if chosen i then c.asSave else c))
        (m'.run s commands) := by
  induction commands with
  | nil => exact fun _ h => h
  | cons c commands ih =>
      intro m m' chosen h
      rw [List.mapIdx_cons, run, run]
      refine ih (fun i => chosen (i + 1)) ?_
      split
      · exact h.step_asSave s c
      · rw [step_eq_act, step_eq_act]
        exact h.act (s.action c)

end Machine

theorem Scene.convert_asSave (s : Scene α P) (bounds : Rect α) (commands : List (Command α P))
    (chosen : Nat → Bool) :
    s.convert bounds (commands.mapIdx fun i c => if chosen i then c.asSave else c) =
      s.convert bounds commands := by
  have begun : Machine.Alike s.options (Machine.start s.options bounds) _ :=
    .refl (Machine.grown_start s.options bounds)
  exact (begun.run_asSave s commands chosen).finish

/-- **Layers that pass their content through are saves.** Whichever of a picture's layers
of these kinds are replaced by plain saves, the root group stays the same, with all its
children, masks and properties, whether saves and restores match or not. The same holds of
a picture nested in a shader, at every level. -/
theorem Setting.convert_with_saves_for_layers (s : Setting α) (p : Picture α)
    (chosen : Nat → Bool) :
    let saved : Picture α :=
      { p with commands := p.commands.mapIdx fun i c => if chosen i then c.asSave else c }
    s.convert saved = s.convert p ∧ ∀ levels, s.visual levels saved = s.visual levels p := by
  intro saved
  refine ⟨Scene.convert_asSave _ p.cullRect p.commands chosen, fun levels => ?_⟩
  cases levels with
  | zero => rfl
  | succ levels =>
      have same := Scene.convert_asSave (s.scene (s.visual levels)) p.cullRect p.commands chosen
      rw [visual, visual]
      exact congrArg some same

end PictureMarkup
