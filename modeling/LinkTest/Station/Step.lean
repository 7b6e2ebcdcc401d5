import LinkTest.Station.Run

/-!
# Steps of the whole

A step lets one worker take one message and carries out what comes of it. Settling takes steps
until every worker that is not held has nothing left to take.
-/

namespace LinkTest.Station

variable {σ : Type}

/-- Hands a reply to a target. -/
def deposit (id : Nat) (reply : Reply) (s : Station σ) : Station σ :=
  if (s.targets[id]?).any Target.wanted then
    { s with targets := s.targets.modify id fun t => { t with received := t.received ++ [reply] } }
  else s.note ⟨.debug, Worker.threadName, "Worker: reply target gone, discarding reply"⟩

def perform (s : Station σ) : Effect → Station σ
  | .note n => s.note n
  | .reply (.target id _) reply => s.deposit id reply
  | .reply (.run run) reply => s.onReply run reply

/-- Lets a worker take its oldest message. -/
def step [Server σ] (id : Nat) (s : Station σ) : Station σ :=
  match s.worker? id with
  | none => s
  | some w =>
    let (next, effects) := w.step fun n => s.stamps (s.stamped + n)
    let s := { s with stamped := s.stamped + 1 + w.queue.length }
    effects.foldl perform (s.setWorker id next)

/-- Whether a worker would take a message now. -/
def isReady (w : Worker σ) : Bool := !w.held && w.isOpen && !w.queue.isEmpty

/-- How many messages can come of one: a test may be followed by an upload. -/
def weight : Message → Nat
  | .requestTest _ => 2
  | _ => 1

def workload (s : Station σ) : Nat :=
  (s.workers.flatMap fun w => w.queue.map weight).foldr (· + ·) 0

def settleWithin [Server σ] : Nat → Station σ → Station σ
  | 0, s => s
  | n + 1, s =>
    match s.workers.findIdx? isReady with
    | none => s
    | some id => settleWithin n (s.step id)

def settle [Server σ] (s : Station σ) : Station σ := settleWithin s.workload s

end LinkTest.Station
