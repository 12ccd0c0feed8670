import XenMiner.Lib.PyStr

/-!
# `networking/submit_result.py`: reading the pool's reply

A reply is the HTTP status and the body that `Submitter.submit` returns; without an HTTP answer the
status is `0` and the body is the text of the exception.
-/

namespace XenMiner.SubmitResult

structure Reply where
  status : ℤ
  body : String
  deriving DecidableEq, Repr

/-- The pool has recorded the block. -/
def submitAccepted (status : ℤ) (body : String) : Bool :=
  if 200 ≤ status ∧ status < 300 then true
  else PyStr.contains "already exists" (PyStr.lower body)

/-- The pool expects another memory cost. -/
def isDifficultyMismatch (status : ℤ) (body : String) : Bool :=
  if status = 0 then false
  else
    let lowered := PyStr.lower body
    PyStr.contains "hash does not contain 'm=" lowered
      || PyStr.contains "does not contain" lowered && PyStr.contains "m=" lowered
      || PyStr.contains "memory_cost" lowered && PyStr.contains "does not contain" lowered

/-- An XUNI block came outside of the window. -/
def isXuniWindowReject (status : ℤ) (body : String) : Bool :=
  if status = 0 then false
  else
    let lowered := PyStr.lower body
    PyStr.contains "outside of time window" lowered
      || PyStr.contains "outside of proper time frame" lowered
      || PyStr.contains "time frame" lowered
      || PyStr.contains "time window" lowered

/-- A network failure. -/
def isTransientSubmitFailure (status : ℤ) (body : String) : Bool :=
  if status = 0 then true
  else
    let lowered := PyStr.lower body
    PyStr.contains "timed out" lowered
      || PyStr.contains "timeout" lowered
      || PyStr.contains "urlopen error" lowered
      || PyStr.contains "connection" lowered && PyStr.contains "reset" lowered
      || PyStr.contains "forcibly closed" lowered

/-- A genuine reject: none of the others. -/
def countsAsReject (status : ℤ) (body : String) : Bool :=
  if submitAccepted status body then false
  else if isDifficultyMismatch status body then false
  else if isXuniWindowReject status body then false
  else if isTransientSubmitFailure status body then false
  else true

/-- What of the body a log line shows. -/
def snippet (n : ℕ) (body : String) : String :=
  PyStr.take n (PyStr.replaceChar '\n' ' ' (PyStr.strip body))

/-- `submit_response_hint`. -/
def submitResponseHint (status : ℤ) (body : String) : String :=
  if 200 ≤ status ∧ status < 300 then "HTTP " ++ toString status
  else if PyStr.contains "already exists" (PyStr.lower body) then "already on server (duplicate)"
  else if isDifficultyMismatch status body then "difficulty mismatch — hold for matching m="
  else if isXuniWindowReject status body then "outside XUNI window"
  else if isTransientSubmitFailure status body then
    let text := snippet 60 body
    "network error" ++ if text ≠ "" then " — " ++ text else ""
  else
    let text := snippet 80 body
    "HTTP " ++ toString status ++ if text ≠ "" then " — " ++ text else ""

/-! ### The classes -/

theorem countsAsReject_iff {status : ℤ} {body : String} :
    countsAsReject status body = true ↔
      submitAccepted status body = false ∧ isDifficultyMismatch status body = false ∧
        isXuniWindowReject status body = false ∧ isTransientSubmitFailure status body = false := by
  unfold countsAsReject
  cases submitAccepted status body <;> cases isDifficultyMismatch status body <;>
    cases isXuniWindowReject status body <;> cases isTransientSubmitFailure status body <;> simp

theorem not_submitAccepted_of_countsAsReject {status : ℤ} {body : String}
    (h : countsAsReject status body = true) : submitAccepted status body = false :=
  (countsAsReject_iff.mp h).1

end XenMiner.SubmitResult
