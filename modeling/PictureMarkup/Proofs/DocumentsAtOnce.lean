import PictureMarkup.Proofs.Jobs
import PictureMarkup.Proofs.Targets

/-!
# Documents written at once

Several inputs are converted to a document each by jobs that know nothing of one another. A
job reads its input and then writes its document, and the requests of different jobs may
reach the disk in any order.

As long as no two inputs share a target, the order does not matter. Each job finds its input
as it was, because no document goes to an input of another job, and once a document is
written it stays, because no other document goes to its place. What is kept is that a job is
at one of three stages and that the disk differs from the first one by the documents of those
that are done (`Kept`), whoever has the next turn.

Inputs that do share a target are converted without a failure all the same, and the document
that is written last is the one that is left.
-/

namespace PictureMarkup.CommandLine

namespace Disk

/-- The disk after the output directory has been created, if there is one. -/
def prepared (d : Disk) : Option String → Option Disk
  | none => some d
  | some directory => d.makeDirectories directory

/-- Nothing is a file and a directory at once. -/
def Proper (d : Disk) : Prop := ∀ file ∈ d.files, d.isDirectory file.1 = false

instance (d : Disk) : Decidable d.Proper :=
  inferInstanceAs (Decidable (∀ file ∈ d.files, d.isDirectory file.1 = false))

/-- The picture that an input holds. -/
def Shows (d : Disk) (path : String) (p : Picture Float) : Prop :=
  (load fileSystem path d).1 = .ok p

theorem Proper.leads {d : Disk} {path text : String} (proper : d.Proper)
    (found : d.read path = some text) : ∃ l, d.Leads path l := by
  obtain ⟨l, located, stored⟩ := Option.bind_eq_some_iff.mp found
  obtain ⟨before, after, split, -⟩ := List.lookup_eq_some_iff.mp stored
  exact ⟨l, located, proper (l, text) (by simp [split])⟩

end Disk

deriving instance DecidableEq for Disk

instance decidableEqResult : DecidableEq (Except Failure String)
  | .ok a, .ok b => decidable_of_iff (a = b) (by simp)
  | .error a, .error b => decidable_of_iff (a = b) (by simp)
  | .ok _, .error _ | .error _, .ok _ => isFalse (by simp)

/-- What may be expected of inputs that are converted to a document each: on the disk that
their jobs find, every input can be converted and its document can be written. -/
structure Batch (a : Arguments) (d ready : Disk) : Prop where
  several : 2 ≤ a.inputs.length
  separate : a.has .styles = false
  keyless : a.key = none
  prepared : d.prepared a.output = some ready
  proper : ready.Proper
  converts : ∀ x ∈ a.inputs, (convertInput Disk.fileSystem a x ready).1 = .ok ""

variable {a : Arguments} {d e ready : Disk} {x y : String} {p : Picture Float}

/-! ## The job of one input -/

/-- The jobs of all inputs, before any of them has had a turn. -/
def Arguments.atWork (a : Arguments) (d : Disk) : Pool (Except Failure String) :=
  ⟨a.inputs.map (convertInput Job.fileSystem a), d⟩

/-- The document of an input. -/
def Arguments.document (a : Arguments) (p : Picture Float) : String := markup a.options none p

/-- What is left to do once the input has been read. -/
def Arguments.delivery (a : Arguments) (x : String) (p : Picture Float) :
    Job (Except Failure String) :=
  deliver Job.fileSystem (some (target a.output x)) (a.document p)

/-- What the text of an input amounts to. -/
def decoded (path : String) : Option String → Except Failure (Picture Float)
  | none => .error (.reading path)
  | some text =>
    match Picture.parse text with
    | .ok p => .ok p
    | .error _ => .error (.decoding path)

theorem load_fileSystem (path : String) (d : Disk) :
    load Disk.fileSystem path d = (decoded path (d.read path), d) := by
  show (match d.read path with
    | none => _
    | some text => _ : StateM Disk _) d = _
  cases d.read path with
  | none => rfl
  | some text =>
      simp only [decoded]
      cases Picture.parse text <;> rfl

theorem shows_iff : d.Shows x p ↔ decoded x (d.read x) = .ok p := by
  rw [Disk.Shows, load_fileSystem]

/-- What is left to do for an input once it has been read: nothing if it cannot be decoded,
and otherwise to write its document. -/
def Arguments.afterReading (a : Arguments) (x : String) (answer : Option String) :
    Job (Except Failure String) :=
  match decoded x answer with
  | .error f => .done (.error f)
  | .ok p => a.delivery x p

/-- The job of an input: a request to read it, and then the delivery of its document. -/
theorem convertInput_eq (a : Arguments) (x : String) :
    convertInput Job.fileSystem a x = .read x (a.afterReading x) := by
  refine congrArg (Job.read x) (funext fun answer => ?_)
  cases answer with
  | none => rfl
  | some text =>
      simp only [Arguments.afterReading, decoded, Job.andThen]
      cases Picture.parse text <;> rfl

theorem convertInput_ne_done (a : Arguments) (x : String) (result : Except Failure String) :
    convertInput Job.fileSystem a x ≠ .done result := by
  simp [convertInput_eq]

theorem delivery_eq (a : Arguments) (x : String) (p : Picture Float) :
    a.delivery x p = .write (target a.output x) (a.document p) fun ok =>
      .done (if ok then .ok "" else .error (.writing (target a.output x))) := rfl

theorem turn_convertInput (holds : d.Shows x p) :
    (convertInput Job.fileSystem a x).turn d = (a.delivery x p, d) := by
  rw [convertInput_eq, Job.turn_read, Arguments.afterReading, shows_iff.mp holds]

theorem turn_delivery (written : d.write (target a.output x) (a.document p) = some e) :
    (a.delivery x p).turn d = (.done (.ok ""), e) := by
  have answer : Disk.fileSystem.write (target a.output x) (a.document p) d = (true, e) := by
    simp only [Disk.fileSystem, Disk.attempt, written]
  rw [delivery_eq, Job.turn_write, answer]
  rfl

/-- The conversion of an input reads it and then delivers the document. -/
theorem convertInput_fileSystem (a : Arguments) (x : String) (d : Disk) :
    convertInput Disk.fileSystem a x d = (a.afterReading x (d.read x)).alone d := by
  have loaded : convertInput Disk.fileSystem a x d =
      (match (load Disk.fileSystem x d).1 with
        | .error f => pure (.error f)
        | .ok p => deliver Disk.fileSystem (some (target a.output x)) (a.document p)
        : StateM Disk (Except Failure String)) (load Disk.fileSystem x d).2 := rfl
  rw [loaded, load_fileSystem, Arguments.afterReading]
  cases decoded x (d.read x) <;> rfl

/-- A job that runs alone is the conversion itself. -/
theorem alone_convertInput (a : Arguments) (x : String) :
    (convertInput Job.fileSystem a x).alone = convertInput Disk.fileSystem a x := by
  funext d
  rw [convertInput_fileSystem, convertInput_eq, Job.alone_read]

/-- An input that can be converted shows a picture, and its document has a place. -/
theorem exists_of_converts (converts : (convertInput Disk.fileSystem a x d).1 = .ok "") :
    ∃ p, d.Shows x p ∧ ∃ l, d.Leads (target a.output x) l := by
  rw [convertInput_fileSystem, Arguments.afterReading] at converts
  cases parsed : decoded x (d.read x) with
  | error f =>
      simp only [parsed, Job.alone_done] at converts
      exact absurd converts (by simp)
  | ok p =>
      refine ⟨p, shows_iff.mpr parsed, ?_⟩
      simp only [parsed] at converts
      cases written : d.write (target a.output x) (a.document p) with
      | none =>
          have refused : Disk.fileSystem.write (target a.output x) (a.document p) d =
              (false, d) := by
            simp only [Disk.fileSystem, Disk.attempt, written]
          rw [delivery_eq, Job.alone_write, refused] at converts
          exact absurd converts (by simp [Job.alone_done])
      | some e =>
          obtain ⟨l, leads, -⟩ := Disk.write_eq_some_iff.mp written
          exact ⟨l, leads⟩

/-! ## Jobs that do not meet -/

/-- Documents go to places of their own, where no input of another job is. -/
structure Apart (a : Arguments) (ready : Disk) : Prop where
  targets : ∀ {i j : Nat} {x y : String}, i ≠ j → a.inputs[i]? = some x → a.inputs[j]? = some y →
    ready.locate (target a.output x) ≠ ready.locate (target a.output y)
  inputs : ∀ {i j : Nat} {x y : String}, i ≠ j → a.inputs[i]? = some x → a.inputs[j]? = some y →
    ready.locate x ≠ ready.locate (target a.output y)

/-- How far the job of an input is, on a disk on which it may have written its document. -/
inductive Stage (a : Arguments) (ready d : Disk) (x : String) :
    Job (Except Failure String) → Prop
  | waiting {p : Picture Float} (holds : ready.Shows x p) :
      Stage a ready d x (convertInput Job.fileSystem a x)
  | loaded {p : Picture Float} (holds : ready.Shows x p) : Stage a ready d x (a.delivery x p)
  | delivered {p : Picture Float} (holds : ready.Shows x p)
      (written : d.read (target a.output x) = some (a.document p)) :
      Stage a ready d x (.done (.ok ""))

/-- What stays true whoever has the next turn: every job is at one of its stages, and nothing
on the disk has changed but what is read at the places of documents that are done. -/
structure Kept (a : Arguments) (ready : Disk) (pool : Pool (Except Failure String)) : Prop where
  alike : ready.Alike pool.disk
  length : pool.jobs.length = a.inputs.length
  stages : ∀ {i : Nat} {x : String} {job : Job (Except Failure String)},
    a.inputs[i]? = some x → pool.jobs[i]? = some job → Stage a ready pool.disk x job
  others : ∀ path, pool.disk.read path = ready.read path ∨
    ∃ (i : Nat) (x : String) (result : Except Failure String), a.inputs[i]? = some x ∧
      pool.jobs[i]? = some (.done result) ∧
        ready.locate path = ready.locate (target a.output x)

variable {pool : Pool (Except Failure String)} {job : Job (Except Failure String)} {i : Nat}

theorem Kept.lt_length (kept : Kept a ready pool) (here : a.inputs[i]? = some x) :
    i < pool.jobs.length := by
  rw [kept.length]
  exact (List.getElem?_eq_some_iff.mp here).1

/-- It is enough to look at the job whose turn it is, if it changes nothing but its target. -/
theorem Kept.set (apart : Apart a ready) (kept : Kept a ready pool)
    (here : a.inputs[i]? = some x) (alike : pool.disk.Alike e) (stage : Stage a ready e x job)
    (goesOn : ∀ result, pool.jobs[i]? = some (.done result) → job.isDone = true)
    (others : ∀ path, e.read path = pool.disk.read path ∨
      job.isDone = true ∧ ready.locate path = ready.locate (target a.output x)) :
    Kept a ready ⟨pool.jobs.set i job, e⟩ := by
  have inside : i < pool.jobs.length := kept.lt_length here
  have done : job.isDone = true → ∃ result, (pool.jobs.set i job)[i]? = some (.done result) := by
    intro isDone
    obtain ⟨result, rfl⟩ := Job.exists_of_isDone isDone
    exact ⟨result, List.getElem?_set_self inside⟩
  refine { alike := kept.alike.trans alike, length := ?_, stages := ?_, others := ?_ }
  · rw [List.length_set, kept.length]
  · intro j y other there found
    by_cases same : i = j
    · subst same
      rw [List.getElem?_set_self inside] at found
      cases Option.some.inj found
      cases here.symm.trans there
      exact stage
    · rw [List.getElem?_set_ne same] at found
      -- the other job has not moved, and nothing was written to its target
      cases kept.stages there found with
      | waiting holds => exact .waiting holds
      | loaded holds => exact .loaded holds
      | delivered holds written =>
          refine .delivered holds ?_
          obtain unchanged | ⟨-, meets⟩ := others (target a.output y)
          · rw [unchanged, written]
          · exact absurd meets.symm (apart.targets same here there)
  · intro path
    -- a place is as it was, or it is the target of a job that is done
    obtain unchanged | ⟨isDone, place⟩ := others path
    · rw [unchanged]
      obtain untouched | ⟨j, y, result, there, found, place⟩ := kept.others path
      · exact .inl untouched
      · by_cases same : i = j
        · subst same
          obtain ⟨last, finished⟩ := done (goesOn result found)
          exact .inr ⟨i, y, last, there, finished, place⟩
        · exact .inr ⟨j, y, result, there, by rwa [List.getElem?_set_ne same], place⟩
    · obtain ⟨result, finished⟩ := done isDone
      exact .inr ⟨i, x, result, here, finished, place⟩

/-- Every input shows a picture, and every document has a place. -/
structure Ready (a : Arguments) (ready : Disk) : Prop extends Apart a ready where
  pictures : ∀ {x}, x ∈ a.inputs → ∃ p, ready.Shows x p
  places : ∀ {x}, x ∈ a.inputs → ∃ l, ready.Leads (target a.output x) l

/-- Every turn keeps this up. -/
theorem Kept.turn (start : Ready a ready) (kept : Kept a ready pool) (i : Nat) :
    Kept a ready (pool.turn i) := by
  unfold Pool.turn
  split
  · exact kept
  · rename_i job found
    have inside : i < a.inputs.length := by
      rw [← kept.length]
      exact (List.getElem?_eq_some_iff.mp found).1
    obtain ⟨x, here⟩ : ∃ x, a.inputs[i]? = some x := ⟨_, List.getElem?_eq_getElem inside⟩
    cases kept.stages here found with
    | waiting holds =>
        -- the input is as it was, since only documents have been written
        have unread : pool.disk.read x = ready.read x := by
          obtain same | ⟨j, y, result, there, done, place⟩ := kept.others x
          · exact same
          · have other : i ≠ j := by
              rintro rfl
              exact convertInput_ne_done a x result (Option.some.inj (found.symm.trans done))
            exact absurd place (start.inputs other here there)
        have holdsNow : pool.disk.Shows x _ :=
          shows_iff.mpr ((congrArg (decoded x) unread).trans (shows_iff.mp holds))
        rw [turn_convertInput holdsNow]
        refine kept.set start.toApart here (.refl _) (.loaded holds) ?_ fun _ => .inl rfl
        intro result done
        exact absurd (Option.some.inj (found.symm.trans done)) (convertInput_ne_done a x result)
    | loaded holds =>
        rename_i p
        obtain ⟨l, leads⟩ := start.places (List.mem_of_getElem? here)
        obtain ⟨e, written⟩ : ∃ e, pool.disk.write (target a.output x) (a.document p) = some e :=
          ⟨_, Disk.write_eq_some_iff.mpr ⟨l, kept.alike.leads leads, rfl⟩⟩
        have reads := Disk.read_of_write written
        simp only [kept.alike.locate] at reads
        rw [turn_delivery written]
        refine kept.set start.toApart here (Disk.alike_of_write written) (.delivered holds ?_) ?_ ?_
        · rw [reads, if_pos rfl]
        · exact fun _ _ => rfl
        · intro path
          by_cases place : ready.locate path = ready.locate (target a.output x)
          · exact .inr ⟨rfl, place⟩
          · exact .inl (by rw [reads, if_neg place])
    | delivered holds written =>
        refine kept.set start.toApart here (.refl _) (.delivered holds written) ?_ ?_
        · exact fun _ _ => rfl
        · exact fun _ => .inl rfl

theorem Kept.run (start : Ready a ready) (kept : Kept a ready pool) (schedule : List Nat) :
    Kept a ready (pool.run schedule) := by
  induction schedule generalizing pool with
  | nil => exact kept
  | cons i schedule ih => exact ih (kept.turn start i)

theorem kept_atWork (start : Ready a ready) : Kept a ready (a.atWork ready) where
  alike := .refl ready
  length := List.length_map _
  stages here found := by
    obtain ⟨p, holds⟩ := start.pictures (List.mem_of_getElem? here)
    rw [Arguments.atWork, List.getElem?_map, here] at found
    cases found
    exact .waiting holds
  others _ := .inl rfl

/-! ## When all is done -/

theorem Kept.delivered (kept : Kept a ready pool) {result : Except Failure String}
    (here : a.inputs[i]? = some x) (found : pool.jobs[i]? = some (.done result)) :
    result = .ok "" ∧ ∃ p, ready.Shows x p ∧
      pool.disk.read (target a.output x) = some (a.document p) := by
  have stage := kept.stages here found
  generalize same : Job.done result = job at stage
  cases stage with
  | waiting holds => exact absurd same.symm (convertInput_ne_done a x result)
  | loaded holds => exact absurd (same.trans (delivery_eq a x _)) (by simp)
  | delivered holds written => exact ⟨Job.done.inj same, _, holds, written⟩

theorem Kept.exists_done (kept : Kept a ready pool) (finished : pool.IsDone)
    (here : a.inputs[i]? = some x) : ∃ result, pool.jobs[i]? = some (.done result) := by
  have inside : i < pool.jobs.length := kept.lt_length here
  obtain ⟨result, done⟩ := Job.exists_of_isDone (finished _ (List.getElem_mem inside))
  exact ⟨result, by rw [List.getElem?_eq_getElem inside, done]⟩

theorem Disk.read_congr {path other : String} (same : d.locate path = d.locate other) :
    d.read path = d.read other := by
  rw [Disk.read, same, Disk.read]

/-- What can be read in the end is decided by the inputs alone. -/
theorem Kept.read_eq {other : Pool (Except Failure String)} (kept : Kept a ready pool)
    (keptOther : Kept a ready other) (finished : pool.IsDone) (finishedOther : other.IsDone)
    (path : String) : pool.disk.read path = other.disk.read path := by
  -- a path that leads to the place of a document is the path to a document
  have document : ∀ {last : Pool (Except Failure String)} {j : Nat} {y : String}, Kept a ready last →
      last.IsDone → a.inputs[j]? = some y → ready.locate path = ready.locate (target a.output y) →
        ∃ p, ready.Shows y p ∧ last.disk.read path = some (a.document p) := by
    intro last j y keptLast done there place
    obtain ⟨result, found⟩ := keptLast.exists_done done there
    obtain ⟨-, p, holds, written⟩ := keptLast.delivered there found
    refine ⟨p, holds, ?_⟩
    rw [← written]
    exact Disk.read_congr (by rw [keptLast.alike.locate, keptLast.alike.locate, place])
  have agree : ∀ {j : Nat} {y : String}, a.inputs[j]? = some y →
      ready.locate path = ready.locate (target a.output y) →
        pool.disk.read path = other.disk.read path := by
    intro j y there place
    obtain ⟨p, holds, written⟩ := document kept finished there place
    obtain ⟨q, holdsOther, writtenOther⟩ := document keptOther finishedOther there place
    cases Except.ok.inj (holds.symm.trans holdsOther)
    rw [written, writtenOther]
  obtain same | ⟨j, y, -, there, -, place⟩ := kept.others path
  · obtain sameOther | ⟨j, y, -, there, -, place⟩ := keptOther.others path
    · rw [same, sameOther]
    · exact agree there place
  · exact agree there place

/-- How a run ends that has tried to convert all inputs. -/
def report (a : Arguments) (results : List (Except Failure String)) : Except Failure String :=
  if (successes results).isEmpty then .error (.noneConverted a.inputs.length) else .ok ""

namespace Batch

/-- The jobs of a batch in which no two inputs share a target do not meet. -/
theorem start (batch : Batch a d ready)
    (unshared : a.inputs.Pairwise fun x y => ¬ ready.Sharing a.output x y) : Ready a ready := by
  have parts : ∀ {x}, x ∈ a.inputs → ∃ p, ready.Shows x p ∧ (∃ k, ready.Leads x k) ∧
      ∃ l, ready.Leads (target a.output x) l := by
    intro x member
    obtain ⟨p, holds, place⟩ := exists_of_converts (batch.converts x member)
    refine ⟨p, holds, ?_, place⟩
    cases found : ready.read x with
    | none => exact absurd (shows_iff.mp holds) (by simp [found, decoded])
    | some text => exact batch.proper.leads found
  have never : ∀ {i j : Nat} {x y : String}, i ≠ j → a.inputs[i]? = some x →
      a.inputs[j]? = some y → ¬ ready.Sharing a.output x y := by
    intro i j x y other here there
    obtain ⟨insideI, rfl⟩ := List.getElem?_eq_some_iff.mp here
    obtain ⟨insideJ, rfl⟩ := List.getElem?_eq_some_iff.mp there
    -- sharing does not depend on which of the two comes first
    obtain before | after := Nat.lt_or_gt_of_ne other
    · exact List.pairwise_iff_getElem.mp unshared i j insideI insideJ before
    · exact fun sharing => List.pairwise_iff_getElem.mp unshared j i insideJ insideI after
        ⟨sharing.stem.symm, fun none => (sharing.folder none).symm⟩
  refine { targets := ?_, inputs := ?_, pictures := ?_, places := ?_ }
  · intro i j x y other here there same
    obtain ⟨-, -, ⟨k, input⟩, l, written⟩ := parts (List.mem_of_getElem? here)
    obtain ⟨-, -, ⟨k', input'⟩, l', written'⟩ := parts (List.mem_of_getElem? there)
    exact never other here there
      ((Disk.locate_target_eq_iff input input' written written').mp same)
  · intro i j x y other here there same
    obtain ⟨-, -, ⟨k, input⟩, -⟩ := parts (List.mem_of_getElem? here)
    obtain ⟨-, -, ⟨k', input'⟩, l, written⟩ := parts (List.mem_of_getElem? there)
    -- an input at the place of a target has the name that the target gets
    cases Option.some.inj (input.located.symm.trans (same.trans written.located))
    exact never other here there (Disk.sharing_of_target_at_input input input' written)
  · intro x member
    obtain ⟨p, holds, -⟩ := parts member
    exact ⟨p, holds⟩
  · intro x member
    exact (parts member).choose_spec.2.2

/-- The run of the program on a batch: the conversions one after the other. -/
theorem convert_eq (batch : Batch a d ready) :
    convert Disk.fileSystem a d =
      (report a (a.inputs.mapM (convertInput Disk.fileSystem a) ready).1,
        (a.inputs.mapM (convertInput Disk.fileSystem a) ready).2) := by
  have each : convert Disk.fileSystem a = convertEach Disk.fileSystem a := by
    have several := batch.several
    unfold convert
    rw [batch.separate]
    split
    · contradiction
    · split
      · rename_i single
        simp [single] at several
      · rfl
  -- what is done behind the conversions only looks at their results
  have reported : ∀ d, (do
      let results ← a.inputs.mapM (convertInput Disk.fileSystem a)
      if (successes results).isEmpty then return .error (.noneConverted a.inputs.length)
      else return .ok "" : StateM Disk (Except Failure String)) d =
        (report a (a.inputs.mapM (convertInput Disk.fileSystem a) d).1,
          (a.inputs.mapM (convertInput Disk.fileSystem a) d).2) := by
    have chosen : ∀ (c : Bool) (f g : Except Failure String) (e : Disk),
        (if c then pure f else pure g : StateM Disk _) e = (if c then f else g, e) := by
      intro c f g e
      cases c <;> rfl
    exact fun d => chosen _ _ _ _
  have prepared := batch.prepared
  rw [each, ← reported ready]
  unfold convertEach
  rw [batch.keyless]
  -- with a directory it is made first, and everything else happens there
  cases out : a.output with
  | none =>
      rw [out] at prepared
      cases prepared
      rfl
  | some directory =>
      rw [out] at prepared
      have created : d.makeDirectories directory = some ready := prepared
      have made : Disk.fileSystem.makeDirectories directory d = (true, ready) := by
        simp only [Disk.fileSystem, Disk.attempt, created]
      simp only [bind, StateT.bind, made, Option.isSome_none, Bool.false_eq_true, if_false, if_true]
      rfl

/-- The program converts the inputs one after the other, which is one of the orders. -/
theorem exists_schedule (batch : Batch a d ready) (start : Ready a ready) :
    ∃ schedule, ((a.atWork ready).run schedule).IsDone ∧
      convert Disk.fileSystem a d = (.ok "", ((a.atWork ready).run schedule).disk) := by
  obtain ⟨schedule, ran⟩ := Pool.exists_run_inTurn [] (a.atWork ready).jobs ready
  have inTurn : (a.atWork ready).jobs.mapM Job.alone =
      a.inputs.mapM (convertInput Disk.fileSystem a) := by
    rw [Arguments.atWork, List.mapM_map]
    exact congrArg (fun f => a.inputs.mapM f) (funext (alone_convertInput a))
  rw [List.nil_append, List.nil_append, inTurn] at ran
  have kept := (kept_atWork start).run start schedule
  have pool : (a.atWork ready).run schedule = _ := ran
  have finished : ((a.atWork ready).run schedule).IsDone := by
    rw [pool]
    intro job member
    obtain ⟨result, -, rfl⟩ := List.mem_map.mp member
    rfl
  refine ⟨schedule, finished, ?_⟩
  -- the first input is there, and its job has ended well
  obtain ⟨x, here⟩ : ∃ x, a.inputs[0]? = some x :=
    ⟨_, List.getElem?_eq_getElem (Nat.lt_of_lt_of_le Nat.zero_lt_two batch.several)⟩
  obtain ⟨result, found⟩ := kept.exists_done finished here
  obtain ⟨rfl, -⟩ := kept.delivered here found
  rw [pool] at found
  have converted : Except.ok "" ∈ (a.inputs.mapM (convertInput Disk.fileSystem a) ready).1 := by
    obtain ⟨other, member, same⟩ := List.mem_map.mp (List.mem_of_getElem? found)
    exact Job.done.inj same ▸ member
  have some : (successes (a.inputs.mapM (convertInput Disk.fileSystem a) ready).1).isEmpty = false :=
    List.isEmpty_eq_false_iff.mpr
      (List.ne_nil_of_mem (List.mem_filterMap.mpr ⟨_, converted, rfl⟩))
  rw [batch.convert_eq, pool, report, some]
  rfl

/-- **The order of the jobs does not matter.** If no two inputs share a target, the documents
go to different files. In whatever order the requests reach the disk, an input whose job is
done was converted, and its document is in its file and stays there. The jobs can always be
brought to their ends, and once they are there, the files are those that the run of the
program leaves, which succeeds. -/
theorem any_order (batch : Batch a d ready)
    (unshared : a.inputs.Pairwise fun x y => ¬ ready.Sharing a.output x y) :
    (a.inputs.Pairwise fun x y =>
      ready.locate (target a.output x) ≠ ready.locate (target a.output y)) ∧
    (convert Disk.fileSystem a d).1 = .ok "" ∧
    ∀ schedule pool, pool = (a.atWork ready).run schedule →
      (∀ (i : Nat) x result, a.inputs[i]? = some x → pool.jobs[i]? = some (.done result) →
        result = .ok "" ∧ ∃ p, ready.Shows x p ∧
          pool.disk.read (target a.output x) = some (markup a.options none p)) ∧
      (∃ later, (pool.run later).IsDone) ∧
      (pool.IsDone → ∀ path, pool.disk.read path = (convert Disk.fileSystem a d).2.read path) := by
  have start := batch.start unshared
  obtain ⟨inTurn, finished, program⟩ := batch.exists_schedule start
  have kept := (kept_atWork start).run start
  refine ⟨?_, by rw [program], ?_⟩
  · refine List.pairwise_iff_getElem.mpr fun i j insideI insideJ before => ?_
    exact start.targets (Nat.ne_of_lt before) (List.getElem?_eq_getElem insideI)
      (List.getElem?_eq_getElem insideJ)
  · rintro schedule pool rfl
    refine ⟨?_, Pool.exists_run_isDone _, ?_⟩
    · exact fun i x result here found => (kept schedule).delivered here found
    · intro done path
      rw [program]
      exact (kept schedule).read_eq (kept inTurn) done finished path

/-- Two inputs with different names are converted into one directory. -/
theorem any_order_different_names :
    let a : Arguments := { inputs := ["x/icon.json", "y/badge.json"], output := some "out" }
    let d : Disk :=
      { files := [(["w", "x", "icon.json"], "[[0,0,0,0]]"),
          (["w", "y", "badge.json"], "[[0,0,0,0],[[\"save\"],[\"restore\"]]]")]
        start := ["w"] }
    let ready : Disk := { d with directories := [["w", "out"]] }
    (Batch a d ready ∧ a.inputs.Pairwise fun x y => ¬ ready.Sharing a.output x y) ∧
      (a.inputs.Pairwise fun x y =>
        ready.locate (target a.output x) ≠ ready.locate (target a.output y)) ∧
      (convert Disk.fileSystem a d).1 = .ok "" := by
  intro a d ready
  have batch : Batch a d ready :=
    { several := by decide
      separate := rfl
      keyless := rfl
      prepared := by decide +kernel
      proper := by decide +kernel
      converts := by decide +kernel }
  have unshared : a.inputs.Pairwise fun x y => ¬ ready.Sharing a.output x y := by decide +kernel
  obtain ⟨apart, success, -⟩ := batch.any_order unshared
  exact ⟨⟨batch, unshared⟩, apart, success⟩

/-- Inputs that share a target: the order decides which of the documents is left, the other
one is lost, and the run succeeds. -/
theorem one_document_is_lost :
    let a : Arguments := { inputs := ["a.json", "a.txt"] }
    let d : Disk :=
      { files := [(["w", "a.json"], "[[0,0,0,0]]"),
          (["w", "a.txt"], "[[0,0,0,0],[[\"save_layer\",[\"fill\",null,\"#FF000000\"]]]]")]
        start := ["w"] }
    let first := (a.atWork d).run [0, 0, 1, 1]
    let second := (a.atWork d).run [1, 1, 0, 0]
    (Batch a d d ∧ a.inputs.Nodup ∧ first.IsDone ∧ second.IsDone) ∧
      (convert Disk.fileSystem a d).1 = .ok "" ∧
      target a.output "a.json" = target a.output "a.txt" ∧
      first.disk.read "a.axaml" ≠ second.disk.read "a.axaml" ∧
      ∀ p, d.Shows "a.json" p →
        first.disk.read (target a.output "a.json") ≠ some (markup a.options none p) := by
  intro a d first second
  have batch : Batch a d d :=
    { several := by decide
      separate := rfl
      keyless := rfl
      prepared := rfl
      proper := by decide +kernel
      converts := by decide +kernel }
  -- the document of the first input, compared as a text
  have lost : first.disk.read (target a.output "a.json") ≠
      (decoded "a.json" (d.read "a.json")).toOption.map a.document := by
    decide +kernel
  refine ⟨⟨batch, by decide, by decide +kernel, by decide +kernel⟩, by decide +kernel,
    by decide +kernel, by decide +kernel, fun p holds => ?_⟩
  rwa [shows_iff.mp holds] at lost

end Batch

end PictureMarkup.CommandLine
