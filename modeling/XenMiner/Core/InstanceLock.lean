import XenMiner.Lib.PyInt
import Mathlib.Data.Fintype.Basic

/-!
# `core/instance_lock.py`: one miner at a time

Any number of processes, of a type `ι`, call `acquire` and `release` on one lock file.  Each call is
a sequence of file-system steps (look whether the file exists, read it, unlink it, write it), and
the steps of different processes interleave in any order.  A process may die between any two of its
steps; the operating system gives a process a pid no running process has, but pids are used again.

`sees p q` says that the system lets `p` look `q` up: `os.kill(pid, 0)` raises `PermissionError` for
a process of somebody else, which `_pid_alive` takes for a dead one.
-/

namespace XenMiner

/-- The next file-system step of a process. -/
inductive LockPoint
  | idle
  /-- `acquire`: `lock_path.exists()`. -/
  | looking
  /-- `acquire`: `read_text` and `_pid_alive`. -/
  | reading
  /-- `acquire`: `unlink`. -/
  | removing
  /-- `acquire`: `write_text`. -/
  | writing
  /-- `release`: `lock_path.exists()`. -/
  | releaseLooking
  /-- `release`: `read_text` and the comparison with the own pid. -/
  | releaseReading
  /-- `release`: `unlink`. -/
  | releaseRemoving
  deriving DecidableEq, Repr

/-- In a call of `release`. -/
def LockPoint.releasing : LockPoint → Bool
  | .releaseLooking | .releaseReading | .releaseRemoving => true
  | _ => false

/-- A process: running from its start to its death, and between an `acquire` that returned `True` and
its `release` while `holds`. -/
structure LockProcess where
  pid : ℕ := 0
  running : Bool := false
  point : LockPoint := .idle
  holds : Bool := false
  deriving DecidableEq, Repr

/-- The lock file and the processes. -/
structure InstanceLock (ι : Type*) where
  file : Option String
  procs : ι → LockProcess

namespace InstanceLock

variable {ι : Type*}

/-- Before the first process. -/
def empty : InstanceLock ι where
  file := none
  procs _ := {}

variable [DecidableEq ι] (s : InstanceLock ι)

/-- A process goes to its next step. -/
def goto (p : ι) (point : LockPoint) : InstanceLock ι :=
  { s with procs := Function.update s.procs p { s.procs p with point := point } }

@[simp]
theorem goto_file (p : ι) (point : LockPoint) : (s.goto p point).file = s.file := rfl

@[simp]
theorem goto_procs_self (p : ι) (point : LockPoint) :
    (s.goto p point).procs p = { s.procs p with point := point } := Function.update_self ..

@[simp]
theorem goto_goto (p : ι) (first point : LockPoint) :
    (s.goto p first).goto p point = s.goto p point := by
  simp [goto]

/-- A step to another point changes neither pids nor lives. -/
theorem goto_procs (p q : ι) (point : LockPoint) :
    ((s.goto p point).procs q).pid = (s.procs q).pid ∧
      ((s.goto p point).procs q).running = (s.procs q).running := by
  by_cases hqp : q = p
  · rw [hqp, goto_procs_self]
    exact ⟨rfl, rfl⟩
  · have hsame : (s.goto p point).procs q = s.procs q := Function.update_of_ne hqp ..
    rw [hsame]
    exact ⟨rfl, rfl⟩

variable [Fintype ι] (sees : ι → ι → Bool)

/-- `_pid_alive`, asked by `p`. -/
def pidAlive (p : ι) (pid : ℤ) : Bool :=
  decide (0 < pid ∧ ∃ q, (s.procs q).running = true ∧ (s.procs q).pid = pid ∧ sees p q = true)

@[simp]
theorem pidAlive_goto (p q : ι) (point : LockPoint) (pid : ℤ) :
    (s.goto p point).pidAlive sees q pid = s.pidAlive sees q pid := by
  simp only [pidAlive, goto_procs]

/-- The next file-system step of a call. -/
def advance (p : ι) : InstanceLock ι :=
  match (s.procs p).point, s.file with
  | .idle, _ => s
  | .looking, none => s.goto p .writing
  | .looking, some _ => s.goto p .reading
  -- the file is gone: `read_text` raises
  | .reading, none => s.goto p .removing
  | .reading, some text =>
    match PyStr.parseInt (PyStr.strip text) with
    | some oldPid => if s.pidAlive sees p oldPid then s.goto p .idle else s.goto p .removing
    | none => s.goto p .removing
  | .removing, _ => { s.goto p .writing with file := none }
  | .writing, _ =>
    { file := some (toString (s.procs p).pid)
      procs := Function.update s.procs p { s.procs p with point := .idle, holds := true } }
  | .releaseLooking, none => s.goto p .idle
  | .releaseLooking, some _ => s.goto p .releaseReading
  | .releaseReading, none => s.goto p .idle
  | .releaseReading, some text =>
    if PyStr.strip text = toString (s.procs p).pid then s.goto p .releaseRemoving
    else s.goto p .idle
  | .releaseRemoving, _ => { s.goto p .idle with file := none }

/-- What can happen. -/
inductive Event (ι : Type*)
  /-- A process starts with a pid. -/
  | spawn (p : ι) (pid : ℕ)
  | die (p : ι)
  /-- A process calls `acquire`. -/
  | acquire (p : ι)
  /-- A process calls `release`. -/
  | release (p : ι)
  /-- A process takes the next step of its call. -/
  | advance (p : ι)

/-- A pid no running process has. -/
def pidFree (pid : ℕ) : Bool := decide (∀ q, (s.procs q).running = true → (s.procs q).pid ≠ pid)

/-- A call is made between calls, by a running process. -/
def ready (p : ι) : Bool := (s.procs p).running && decide ((s.procs p).point = .idle)

/-- An event; one that cannot happen changes nothing. -/
def step (s : InstanceLock ι) : Event ι → InstanceLock ι
  | .spawn p pid =>
    if (s.procs p).running = false ∧ 0 < pid ∧ s.pidFree pid then
      { s with procs := Function.update s.procs p { pid := pid, running := true } }
    else s
  | .die p => { s with procs := Function.update s.procs p { s.procs p with running := false } }
  | .acquire p => if s.ready p then s.goto p .looking else s
  | .release p =>
    if s.ready p then
      { s with procs :=
          Function.update s.procs p { s.procs p with point := .releaseLooking, holds := false } }
    else s
  | .advance p => if (s.procs p).running then s.advance sees p else s

/-- A live process between an `acquire` that returned `True` and its `release`. -/
def HoldsLock (p : ι) : Prop := (s.procs p).running = true ∧ (s.procs p).holds = true

/-- The next step of `p` is to read the file, and its `acquire` returns `False` on what it finds. -/
def Refuses (p : ι) : Prop :=
  (s.procs p).running = true ∧ (s.procs p).point = .reading ∧
    ∃ text pid, s.file = some text ∧ PyStr.parseInt (PyStr.strip text) = some pid ∧
      s.pidAlive sees p pid = true

end InstanceLock

end XenMiner
