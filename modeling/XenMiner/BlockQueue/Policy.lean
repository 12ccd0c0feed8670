import XenMiner.Lib.PyNum
import XenMiner.Lib.PyStr

/-!
# `block_queue/policy.py` and `block_queue/submit_cpu.py`

When queued blocks are allowed to submit, and how many cores verify them.  The local clock enters
as its minute.
-/

namespace XenMiner.Policy

/-- `in_xuni_window`: `:56`–`:59` and `:00`–`:04`. -/
def inXuniWindow (minute : ℕ) : Bool := 56 ≤ minute || minute < 5

/-- `ready_to_flush`: XUNI waits for the window, everything else goes at any time. -/
def readyToFlush (blockType : String) (minute : ℕ) : Bool × String :=
  let kind := PyStr.upper blockType
  if kind = "XUNI" ∧ inXuniWindow minute = false then (false, "waiting_for_xuni_window")
  else (true, "ready")

/-- `submit_worker_count` on a host with `cores` cores. -/
def submitWorkerCount (fraction : ℚ) (cores : ℤ) : ℤ := max 1 (PyNum.pyInt (cores * fraction))

/-- `SubmitCpuPool.parallelism_for_single`. -/
def parallelismForSingle (workers configured : ℤ) : ℤ := max 1 (min configured workers)

/-- One configured lane stays one lane. -/
@[simp]
theorem parallelismForSingle_one {workers : ℤ} (h : 1 ≤ workers) :
    parallelismForSingle workers 1 = 1 := by
  unfold parallelismForSingle
  omega

end XenMiner.Policy
