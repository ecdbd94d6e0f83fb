import PictureMarkup.CommandLine.FileSystem

/-!
# Jobs on one disk

A computation that is written for any file system can also be taken apart into its requests:
it asks for a file, waits, and goes on with the answer (`Job`). Several jobs can then be at
work on one disk, and each turn of one of them is one request that is answered (`Pool`). A
schedule says whose turn it is, so the schedules are all the orders in which requests of jobs
that run at the same time can reach the disk.

A job that runs alone is a computation on the disk again, and jobs that run alone one after
another follow a schedule like any other (`Pool.exists_run_inTurn`).
-/

namespace PictureMarkup.CommandLine

/-- A computation that waits for the answer to its next request. -/
inductive Job (τ : Type) where
  | done (result : τ)
  | read (path : String) (next : Option String → Job τ)
  | write (path text : String) (next : Bool → Job τ)
  | makeDirectories (path : String) (next : Bool → Job τ)

namespace Job

variable {τ υ : Type}

/-- Go on with another job. -/
def andThen (more : τ → Job υ) : Job τ → Job υ
  | .done result => more result
  | .read path next => .read path fun answer => andThen more (next answer)
  | .write path text next => .write path text fun answer => andThen more (next answer)
  | .makeDirectories path next => .makeDirectories path fun answer => andThen more (next answer)

instance : Monad Job where
  pure := .done
  bind job more := job.andThen more

/-- The file system whose requests are waited for. -/
def fileSystem : FileSystem Job where
  read path := .read path .done
  write path text := .write path text .done
  makeDirectories path := .makeDirectories path .done

/-- Have the next request answered. -/
def turn : Job τ → StateM Disk (Job τ)
  | .done result => pure (.done result)
  | .read path next => do return next (← Disk.fileSystem.read path)
  | .write path text next => do return next (← Disk.fileSystem.write path text)
  | .makeDirectories path next => do return next (← Disk.fileSystem.makeDirectories path)

/-- Have all requests answered, with nothing in between. -/
def alone : Job τ → StateM Disk τ
  | .done result => pure result
  | .read path next => do alone (next (← Disk.fileSystem.read path))
  | .write path text next => do alone (next (← Disk.fileSystem.write path text))
  | .makeDirectories path next => do alone (next (← Disk.fileSystem.makeDirectories path))

section

variable (path text : String) (result : τ) (d : Disk)

theorem turn_read (next : Option String → Job τ) :
    (read path next).turn d = (next (d.read path), d) := rfl

theorem turn_write (next : Bool → Job τ) :
    (write path text next).turn d =
      (next (Disk.fileSystem.write path text d).1, (Disk.fileSystem.write path text d).2) := rfl

theorem alone_done : (done result).alone d = (result, d) := rfl

theorem alone_read (next : Option String → Job τ) :
    (read path next).alone d = (next (d.read path)).alone d := rfl

theorem alone_write (next : Bool → Job τ) :
    (write path text next).alone d =
      (next (Disk.fileSystem.write path text d).1).alone (Disk.fileSystem.write path text d).2 :=
  rfl

end

/-- Nothing is left to do. -/
def isDone : Job τ → Bool
  | .done _ => true
  | .read .. | .write .. | .makeDirectories .. => false

theorem exists_of_isDone {job : Job τ} (h : job.isDone = true) : ∃ result, job = .done result := by
  cases job with
  | done result => exact ⟨result, rfl⟩
  | _ => exact absurd h (by simp [isDone])

end Job

/-- Jobs at work on one disk. -/
structure Pool (τ : Type) where
  jobs : List (Job τ)
  disk : Disk

namespace Pool

variable {τ : Type}

/-- One of the jobs takes a turn. -/
def turn (pool : Pool τ) (i : Nat) : Pool τ :=
  match pool.jobs[i]? with
  | none => pool
  | some job => ⟨pool.jobs.set i (job.turn pool.disk).1, (job.turn pool.disk).2⟩

/-- The jobs take turns. -/
def run (pool : Pool τ) (schedule : List Nat) : Pool τ := schedule.foldl turn pool

/-- No job waits for anything any more. -/
def IsDone (pool : Pool τ) : Prop := ∀ job ∈ pool.jobs, job.isDone = true

instance (pool : Pool τ) : Decidable pool.IsDone :=
  inferInstanceAs (Decidable (∀ job ∈ pool.jobs, job.isDone = true))

theorem run_append (pool : Pool τ) (first later : List Nat) :
    pool.run (first ++ later) = (pool.run first).run later := List.foldl_append

/-! ## One after another -/

theorem turn_middle (before : List (Job τ)) (job : Job τ) (after : List (Job τ)) (d : Disk) :
    turn ⟨before ++ job :: after, d⟩ before.length =
      ⟨before ++ (job.turn d).1 :: after, (job.turn d).2⟩ := by
  simp [turn]

theorem exists_run_of_turn {before after : List (Job τ)} {job : Job τ} {d : Disk} {last : Pool τ}
    (h : ∃ schedule, run ⟨before ++ (job.turn d).1 :: after, (job.turn d).2⟩ schedule = last) :
    ∃ schedule, run ⟨before ++ job :: after, d⟩ schedule = last := by
  obtain ⟨schedule, same⟩ := h
  refine ⟨before.length :: schedule, ?_⟩
  rw [run, List.foldl_cons, turn_middle]
  exact same

/-- A job whose turns come all at once does what it does alone. -/
theorem exists_run_alone (before : List (Job τ)) (job : Job τ) (after : List (Job τ)) (d : Disk) :
    ∃ schedule, run ⟨before ++ job :: after, d⟩ schedule =
      ⟨before ++ .done (job.alone d).1 :: after, (job.alone d).2⟩ := by
  induction job generalizing d with
  | done result => exact ⟨[], rfl⟩
  | read path next ih => exact exists_run_of_turn (ih _ _)
  | write path text next ih => exact exists_run_of_turn (ih _ _)
  | makeDirectories path next ih => exact exists_run_of_turn (ih _ _)

/-- Jobs that run alone one after another follow a schedule. -/
theorem exists_run_inTurn (before jobs : List (Job τ)) (d : Disk) :
    ∃ schedule, run ⟨before ++ jobs, d⟩ schedule =
      ⟨before ++ ((jobs.mapM Job.alone) d).1.map .done, ((jobs.mapM Job.alone) d).2⟩ := by
  induction jobs generalizing before d with
  | nil => exact ⟨[], rfl⟩
  | cons job jobs ih =>
      obtain ⟨now, first⟩ := exists_run_alone before job jobs d
      obtain ⟨later, rest⟩ := ih (before ++ [.done (job.alone d).1]) (job.alone d).2
      refine ⟨now ++ later, ?_⟩
      have inTurn : (job :: jobs).mapM Job.alone d =
          ((job.alone d).1 :: ((jobs.mapM Job.alone) (job.alone d).2).1,
            ((jobs.mapM Job.alone) (job.alone d).2).2) := by
        rw [List.mapM_cons]
        rfl
      rw [run_append, first, List.append_cons, rest, inTurn]
      simp

/-- Whatever has happened, the jobs can be brought to their ends. -/
theorem exists_run_isDone (pool : Pool τ) : ∃ schedule, (pool.run schedule).IsDone := by
  obtain ⟨schedule, same⟩ := exists_run_inTurn [] pool.jobs pool.disk
  refine ⟨schedule, ?_⟩
  rw [List.nil_append, List.nil_append] at same
  rw [show pool = ⟨pool.jobs, pool.disk⟩ from rfl, same]
  intro job member
  obtain ⟨result, -, rfl⟩ := List.mem_map.mp member
  rfl

end Pool

end PictureMarkup.CommandLine
