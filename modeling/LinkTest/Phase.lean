import LinkTest.Datum.Decoder
import LinkTest.Timestamp

/-! # Phases of a run -/

namespace LinkTest

inductive Phase
  /-- No run is active and no record waits to be seen. -/
  | idle
  /-- The login is under way. -/
  | preparing
  /-- The test is under way. -/
  | testing
  /-- A valid record waits to be seen. -/
  | completed
deriving DecidableEq, Repr, Inhabited

namespace Phase

def name : Phase → String
  | idle => "idle"
  | preparing => "preparing"
  | testing => "testing"
  | completed => "completed"

def named : List (String × Phase) := [idle, preparing, testing, completed].map fun p => (p.name, p)

def decoder : Decoder Phase := Decoder.variant named

/-- Whether a run or its unseen record occupies the pipeline. -/
def isBusy : Phase → Bool
  | idle => false
  | _ => true

/-- The edges of the life of a run. A run may end from `preparing` as well as from `testing`, as a
failed login ends it before the test has begun. -/
def mayEnter : Phase → Phase → Bool
  | idle, preparing => true
  | preparing, testing => true
  | preparing, idle => true
  | testing, completed => true
  | testing, idle => true
  | completed, idle => true
  | _, _ => false

end Phase

/-- A phase and when it was entered. -/
structure PhaseEntry where
  phase : Phase
  enteredAt : Timestamp
deriving DecidableEq, Repr

namespace PhaseEntry

def datum (e : PhaseEntry) : Datum :=
  .dict [("phase", .text e.phase.name), ("entered_at", .text e.enteredAt.text)] .strict

def fields : List Decoder.Field := [
  .of "phase" Phase.decoder .refused,
  .of "entered_at" Timestamp.decoder .refused]

def decoder : Decoder PhaseEntry := fun d => do
  let found ← Decoder.fields "PhaseHistoryEntry" fields d
  let phase ← found.get "phase" Phase.decoder
  let enteredAt ← found.get "entered_at" Timestamp.decoder
  .ok ⟨phase, enteredAt⟩

end PhaseEntry
end LinkTest
