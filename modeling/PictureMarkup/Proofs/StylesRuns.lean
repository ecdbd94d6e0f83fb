import Mathlib.Data.List.Forall2
import PictureMarkup.Proofs.DocumentsAtOnce
import PictureMarkup.Proofs.Keys

/-!
# Runs that write a styles document

A run that writes a styles document first has every input read and converted, by jobs that
may work at the same time, and then collects what they have come to in the order of the
inputs. Nothing is written before that.

So the jobs are alike in one respect: all they ask for is files to read. Jobs that only read
leave the disk as it is for each other, and each comes to the result that it settles on at the
start (`Job.Settles`), whoever has the next turn (`Pool.Settled`). With the results at hand, the
document is made of those that are no failures. A failure is left out before keys are chosen,
so it counts for nothing that an input which cannot be converted was ever there.
-/

namespace PictureMarkup.CommandLine

/-! ## Jobs that only read -/

/-- A job that asks for nothing but files to read comes to a result on a disk. -/
inductive Job.Settles {τ : Type} (d : Disk) : Job τ → τ → Prop
  | done (result : τ) : Settles d (.done result) result
  | read {path : String} {next : Option String → Job τ} {result : τ}
      (rest : Settles d (next (d.read path)) result) : Settles d (.read path next) result

/-- A turn of such a job leaves the disk as it is, and the job goes on towards its result. -/
theorem Job.Settles.turn {τ : Type} {d : Disk} {job : Job τ} {result : τ}
    (settles : job.Settles d result) : (job.turn d).1.Settles d result ∧ (job.turn d).2 = d := by
  cases settles with
  | done => exact ⟨.done result, rfl⟩
  | read rest => exact ⟨rest, rfl⟩

/-- The result of a job that is done. -/
def Job.result? {τ : Type} : Job τ → Option τ
  | .done result => some result
  | .read .. | .write .. | .makeDirectories .. => none

namespace Pool

/-- What the jobs that are done have come to, in the order of the jobs. -/
def results {τ : Type} (pool : Pool τ) : List τ := pool.jobs.filterMap Job.result?

variable {τ : Type} {d : Disk} {expected : List τ} {pool : Pool τ}

/-- All jobs are on their way to their results, and the disk is as it was. -/
structure Settled (d : Disk) (expected : List τ) (pool : Pool τ) : Prop where
  disk : pool.disk = d
  jobs : List.Forall₂ (Job.Settles d) pool.jobs expected

/-- A turn of a job changes nothing about how it ends. -/
theorem Settled.turn (settled : Settled d expected pool) (i : Nat) :
    Settled d expected (pool.turn i) := by
  unfold Pool.turn
  split
  · exact settled
  · rename_i job found
    obtain ⟨inside, rfl⟩ := List.getElem?_eq_some_iff.mp found
    have lengths := settled.jobs.length_eq
    have moved := (settled.jobs.get inside (lengths ▸ inside)).turn
    rw [settled.disk]
    refine ⟨moved.2, List.forall₂_of_length_eq_of_get (by rw [List.length_set, lengths]) ?_⟩
    intro j insideSet insideExpected
    rw [List.get_eq_getElem, List.getElem_set]
    by_cases same : i = j
    · subst same
      rw [if_pos rfl]
      exact moved.1
    · rw [if_neg same]
      exact settled.jobs.get _ insideExpected

theorem Settled.run (settled : Settled d expected pool) (schedule : List Nat) :
    Settled d expected (pool.run schedule) := by
  induction schedule generalizing pool with
  | nil => exact settled
  | cons i schedule ih => exact ih (settled.turn i)

/-- When all jobs are done, they have come to their results. -/
theorem Settled.results_eq (settled : Settled d expected pool) (finished : pool.IsDone) :
    pool.results = expected := by
  have each : ∀ {jobs : List (Job τ)} {expected : List τ},
      List.Forall₂ (Job.Settles d) jobs expected → (∀ job ∈ jobs, job.isDone = true) →
        jobs.filterMap Job.result? = expected := by
    intro jobs expected settles done
    induction settles with
    | nil => rfl
    | cons head tail ih =>
        cases head with
        | done => exact congrArg (List.cons _) (ih fun job member => done job (.tail _ member))
        | read rest => exact absurd (done _ (.head _)) (by simp [Job.isDone])
  exact each settled.jobs finished

end Pool

/-! ## What becomes of the inputs -/

/-- A file system with any state, in which reading a file changes nothing. What the files hold
may be anything, and so may be what happens when something is written. -/
def FileSystem.holding {σ : Type} (contents : σ → String → Option String)
    (write : String → String → StateM σ Bool) (makeDirectories : String → StateM σ Bool) :
    FileSystem (StateM σ) where
  read path := fun s => (contents s path, s)
  write := write
  makeDirectories := makeDirectories

theorem Disk.fileSystem_eq : fileSystem = .holding Disk.read
    (fun path text => attempt (·.write path text)) (fun path => attempt (·.makeDirectories path)) :=
  rfl

/-- The files hold a picture at a path. -/
def decodes (contents : String → Option String) (path : String) : Bool :=
  (decoded path (contents path)).toOption.isSome

/-- The arguments with only those inputs that hold a picture, in their order. -/
def Arguments.decoding (a : Arguments) (contents : String → Option String) : Arguments :=
  { a with inputs := a.inputs.filter (decodes contents) }

/-- What an input becomes, by what its file holds. -/
def Arguments.entry (a : Arguments) (contents : String → Option String) (input : String) :
    Except Failure StyleEntry :=
  (decoded input (contents input)).map (styleEntry a.options (FileName.ofPath input))

/-- The document of what the inputs have become. -/
def Arguments.collect (a : Arguments) (results : List (Except Failure StyleEntry)) :
    StylesDocument :=
  (successes results).foldl StylesDocument.push { preview := a.has .preview }

/-- What a run does once it has the results of all inputs. -/
def finish {m : Type → Type} [Monad m] (fs : FileSystem m) (a : Arguments)
    (results : List (Except Failure StyleEntry)) : m (Except Failure String) :=
  if (a.collect results).isEmpty then pure (.error (.noneConverted a.inputs.length))
  else deliver fs a.output ((a.collect results).markup a.options.layout)

/-- All inputs are loaded in front of everything else. -/
theorem convertStyles_eq {m : Type → Type} [Monad m] (fs : FileSystem m) (a : Arguments) :
    convertStyles fs a = a.inputs.mapM (loadEntry fs a) >>= finish fs a := rfl

section

variable {σ : Type} (contents : σ → String → Option String)
  (write : String → String → StateM σ Bool) (makeDirectories : String → StateM σ Bool)

theorem load_holding (path : String) (s : σ) :
    load (.holding contents write makeDirectories) path s =
      (decoded path (contents s path), s) := by
  unfold load
  simp only [FileSystem.holding, bind, StateT.bind]
  cases contents s path with
  | none => rfl
  | some text =>
      simp only [decoded]
      cases Picture.parse text <;> rfl

theorem loadEntry_holding (a : Arguments) (input : String) (s : σ) :
    loadEntry (.holding contents write makeDirectories) a input s =
      (a.entry (contents s) input, s) := by
  unfold loadEntry Arguments.entry
  simp only [bind, StateT.bind, load_holding]
  cases decoded input (contents s input) <;> rfl

/-- The inputs are read one after the other, and each finds what was there at the start. -/
theorem mapM_loadEntry_holding (a : Arguments) (inputs : List String) (s : σ) :
    inputs.mapM (loadEntry (.holding contents write makeDirectories) a) s =
      (inputs.map (a.entry (contents s)), s) := by
  induction inputs with
  | nil => rfl
  | cons input inputs ih =>
      rw [List.mapM_cons, List.map_cons]
      simp only [bind, StateT.bind, loadEntry_holding, ih]
      rfl

theorem convertStyles_holding (a : Arguments) (s : σ) :
    convertStyles (.holding contents write makeDirectories) a s =
      finish (.holding contents write makeDirectories) a
        (a.inputs.map (a.entry (contents s))) s := by
  simp only [convertStyles_eq, bind, StateT.bind, mapM_loadEntry_holding]

end

section

variable (a : Arguments) (contents : String → Option String)

theorem isSome_toOption_entry (input : String) :
    (a.entry contents input).toOption.isSome = decodes contents input := by
  unfold Arguments.entry decodes
  cases decoded input (contents input) <;> rfl

/-- Inputs that do not decode have no share in the successes. -/
theorem successes_filter (inputs : List String) :
    successes ((inputs.filter (decodes contents)).map (a.entry contents)) =
      successes (inputs.map (a.entry contents)) := by
  unfold successes
  rw [List.filterMap_map, List.filterMap_map, List.filterMap_filter]
  refine List.filterMap_congr fun input _ => ?_
  have some := isSome_toOption_entry a contents input
  cases holds : decodes contents input with
  | true => rfl
  | false =>
      rw [holds] at some
      exact (Option.not_isSome_iff_eq_none.mp (by simp [some])).symm

theorem collect_decoding :
    (a.decoding contents).collect
        ((a.decoding contents).inputs.map ((a.decoding contents).entry contents)) =
      a.collect (a.inputs.map (a.entry contents)) := by
  have same : successes ((a.decoding contents).inputs.map ((a.decoding contents).entry contents)) =
      successes (a.inputs.map (a.entry contents)) := successes_filter a contents a.inputs
  unfold Arguments.collect
  rw [same]
  rfl

theorem ofEntries_isEmpty_iff (preview : Bool) (es : List StyleEntry) :
    (StylesDocument.ofEntries preview es).isEmpty = true ↔ es = [] := by
  unfold StylesDocument.isEmpty
  rw [List.isEmpty_iff, ← List.map_eq_nil_iff (f := Prod.snd), StylesDocument.entries_ofEntries]

/-- There is nothing to show if and only if none of the inputs decodes. -/
theorem collect_isEmpty_iff :
    (a.collect (a.inputs.map (a.entry contents))).isEmpty = true ↔
      (a.decoding contents).inputs = [] := by
  show (StylesDocument.ofEntries _ _).isEmpty = true ↔ _
  rw [ofEntries_isEmpty_iff]
  unfold successes Arguments.decoding
  rw [List.filterMap_map, List.filterMap_eq_nil_iff, List.filter_eq_nil_iff]
  refine forall₂_congr fun input _ => ?_
  rw [← isSome_toOption_entry a contents input, Option.not_isSome_iff_eq_none]
  rfl

end

/-! ## The jobs of a run -/

/-- The jobs of all inputs, before any of them has had a turn. -/
def Arguments.loading (a : Arguments) (d : Disk) : Pool (Except Failure StyleEntry) :=
  ⟨a.inputs.map (loadEntry Job.fileSystem a), d⟩

theorem settles_loadEntry (a : Arguments) (d : Disk) (input : String) :
    (loadEntry Job.fileSystem a input).Settles d (a.entry d.read input) := by
  refine .read ?_
  unfold Arguments.entry
  cases d.read input with
  | none => exact .done _
  | some text =>
      simp only [decoded, Job.andThen]
      cases Picture.parse text <;> exact .done _

theorem settled_loading (a : Arguments) (d : Disk) :
    (a.loading d).Settled d (a.inputs.map (a.entry d.read)) := by
  refine ⟨rfl, ?_⟩
  rw [Arguments.loading, List.forall₂_map_left_iff, List.forall₂_map_right_iff, List.forall₂_same]
  exact fun input _ => settles_loadEntry a d input

/-- **Inputs that fail leave no trace.** Whatever the files hold, a run that writes a styles
document collects the same document as for those inputs alone that decode, in their order, and
so with the same keys, comments, gallery and markup. If there is one that decodes, the run
prints the same, writes the same and ends alike. If there is none, it fails, and no file is
written and no other change is asked for.

On a disk, the inputs are read by jobs that work at the same time. In whatever order their
requests are answered, the disk is the same after every turn, the jobs can be brought to their
ends, and once they are there, what is collected and what comes of it is what the run comes to
that reads the inputs one after the other. -/
theorem failing_inputs_leave_no_trace (a : Arguments) :
    (∀ (σ : Type) (contents : σ → String → Option String) (write : String → String → StateM σ Bool)
        (makeDirectories : String → StateM σ Bool) (s : σ),
      let fs := FileSystem.holding contents write makeDirectories
      let kept := a.decoding (contents s)
      kept.collect (kept.inputs.mapM (loadEntry fs kept) s).1 =
          a.collect (a.inputs.mapM (loadEntry fs a) s).1 ∧
        (kept.inputs ≠ [] → convertStyles fs a s = convertStyles fs kept s) ∧
        (kept.inputs = [] → convertStyles fs a s = (.error (.noneConverted a.inputs.length), s))) ∧
    ∀ (d : Disk) (schedule : List Nat),
      let pool := (a.loading d).run schedule
      let kept := a.decoding d.read
      pool.disk = d ∧
        (∃ later, (pool.run later).IsDone) ∧
        (pool.IsDone →
          a.collect pool.results =
            kept.collect (kept.inputs.mapM (loadEntry Disk.fileSystem kept) d).1 ∧
          finish Disk.fileSystem a pool.results pool.disk = convertStyles Disk.fileSystem a d) := by
  refine ⟨?_, ?_⟩
  · intro σ contents write makeDirectories s fs kept
    have same := collect_decoding a (contents s)
    have whole := convertStyles_holding contents write makeDirectories a s
    have part := convertStyles_holding contents write makeDirectories kept s
    refine ⟨?_, ?_, ?_⟩
    · rw [mapM_loadEntry_holding, mapM_loadEntry_holding, same]
    · intro some
      -- the same entries are collected, so the rest is the same run
      have nonempty := fun empty => some ((collect_isEmpty_iff a (contents s)).mp empty)
      rw [whole, part, finish, finish, same, if_neg nonempty, if_neg nonempty]
      rfl
    · intro none
      rw [whole, finish, if_pos ((collect_isEmpty_iff a (contents s)).mpr none)]
      rfl
  · intro d schedule pool kept
    -- reading jobs leave the disk alone, so each ends as if it had been run by itself
    have settled := (settled_loading a d).run schedule
    refine ⟨settled.disk, Pool.exists_run_isDone pool, fun finished => ?_⟩
    rw [settled.results_eq finished, settled.disk, Disk.fileSystem_eq, convertStyles_holding,
      mapM_loadEntry_holding, collect_decoding a d.read]
    exact ⟨rfl, rfl⟩

/-- An input that fails does not take the key of one that has the same name. -/
example :
    let a : Arguments := { inputs := ["a/icon.json", "b/icon.json"] }
    let contents path := if path = "b/icon.json" then some "[[0,0,0,0]]" else some "nothing"
    (a.collect (a.inputs.map (a.entry contents))).keys = ["_icon"] := by
  decide +kernel

end PictureMarkup.CommandLine
