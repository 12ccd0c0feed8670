import XenMiner.Mining.Cpu

/-!
# `strategies/fibonacci_strategy.py`: deterministic keys

Each worker of the CPU backend makes a key function for its lane and calls it for every attempt.  The
key function keeps the last two numbers of its recurrence.

`hashlib.sha256(...).hexdigest()` is a parameter.
-/

namespace XenMiner

namespace FibonacciStrategy

/-- `key_fn`, with the two numbers it keeps. -/
structure KeyFn where
  a : ℤ
  b : ℤ
  deriving DecidableEq, Repr

def makeFibonacciKeyFn (laneId : ℤ) : KeyFn where
  a := laneId
  b := laneId + 1

namespace KeyFn

variable (f : KeyFn)

/-- The numbers after a call. -/
def next : KeyFn where
  a := f.b
  b := (f.a + f.b) % 2 ^ 256

/-- What is hashed once the numbers have moved on. -/
def text (index : ℤ) : String := "fib:" ++ toString f.a ++ ":" ++ toString index

/-- A call: the key, and the function after it. -/
def call (sha256Hex : String → String) (index : ℤ) : String × KeyFn :=
  (sha256Hex (f.next.text index), f.next)

end KeyFn

end FibonacciStrategy

open FibonacciStrategy

/-- The CPU miner with the key function of each worker. -/
structure FibonacciMiner where
  miner : CpuMiner
  /-- In the order of the workers. -/
  keyFns : List KeyFn := []
  /-- What has been hashed to a key, once for each attempt. -/
  texts : List String := []

namespace FibonacciMiner

variable (sha256Hex argon2Hash : String → String) (s : FibonacciMiner)

/-- The attempt a turn makes: by which worker, and with which key function. -/
def attempt : CpuMiner.CpuAction → Option (ℕ × CpuWorker × KeyFn)
  | .worker i =>
    match s.miner.workers[i]?, s.keyFns[i]? with
    | some w, some f => if w.place = .hashing then some (i, w, f) else none
    | _, _ => none
  | _ => none

/-- The key function of the worker whose turn it is. -/
def keyFn (a : CpuMiner.CpuAction) (_lane index : ℤ) : String :=
  match s.attempt a with
  | some (_, _, f) => (f.call sha256Hex index).1
  | none => ""

/-- One turn.  A new worker makes its key function from its lane. -/
def step (s : FibonacciMiner) (a : CpuMiner.CpuAction) : FibonacciMiner :=
  let miner := s.miner.step (s.keyFn sha256Hex a) argon2Hash a
  match s.attempt a with
  | some (i, w, f) =>
    { miner := miner
      keyFns := s.keyFns.set i (f.call sha256Hex w.localIndex).2
      texts := s.texts ++ [f.next.text w.localIndex] }
  | none =>
    { s with
      miner := miner
      keyFns := s.keyFns ++
        (miner.workers.drop s.keyFns.length).map fun w => makeFibonacciKeyFn w.lane }

/-- The keys of all attempts. -/
def keys : List String := s.texts.map sha256Hex

end FibonacciMiner

end XenMiner
