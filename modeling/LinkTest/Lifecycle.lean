import LinkTest.Failure
import LinkTest.Phase
import LinkTest.Record.Basic

/-! # The life of runs

The current phase, the latest valid record and the phases entered last. An operation that is
refused leaves all three as they are; one that succeeds moves along one edge of
`Phase.mayEnter`. -/

namespace LinkTest

structure Lifecycle where
  phase : Phase
  latest : Option Record
  /-- The phases entered last, oldest first. -/
  history : List Phase

namespace Lifecycle

/-- How many phases are remembered. -/
def historyLimit : Nat := 32

/-- The last `n` elements. -/
def lastOf {α : Type} (n : Nat) (l : List α) : List α := l.drop (l.length - n)

def start : Lifecycle := ⟨.idle, none, [.idle]⟩

/-- Enters a phase without asking whether it may. -/
def enter (l : Lifecycle) (p : Phase) : Lifecycle :=
  { l with phase := p, history := lastOf historyLimit (l.history ++ [p]) }

def refusal (l : Lifecycle) (p : Phase) : Failure := .invalidTransition l.phase.name p.name

/-- Enters a phase if an edge leads there. -/
def transition (l : Lifecycle) (p : Phase) : Except Failure Lifecycle :=
  if l.phase.mayEnter p then .ok (l.enter p) else .error (l.refusal p)

/-- Claims the pipeline if it is free. -/
def beginRun (l : Lifecycle) : Option Lifecycle :=
  if l.phase = .idle then some (l.enter .preparing) else none

/-- Ends the test with a valid record, which becomes the latest. -/
def complete (l : Lifecycle) (r : Record) : Except Failure Lifecycle :=
  if r.isValid then
    (l.transition .completed).map fun l => { l with latest := some r }
  else .error (.invalidRecord "cannot complete a run with an invalid record")

/-- Ends the run without a record. -/
def abort (l : Lifecycle) : Except Failure Lifecycle :=
  match l.phase with
  | .preparing | .testing => l.transition .idle
  | _ => .error (l.refusal .idle)

/-- The record has been seen. It stays the latest until the next one. -/
def acknowledge (l : Lifecycle) : Except Failure Lifecycle :=
  if l.phase = .completed then l.transition .idle else .error (l.refusal .idle)

def clearLatest (l : Lifecycle) : Lifecycle := { l with latest := none }

end Lifecycle
end LinkTest
