import LinkTest.Bus
import LinkTest.Lifecycle
import LinkTest.Worker

/-!
# The station

The parts at work together: one lifecycle, one bus, any number of workers and of targets for their
replies, the run that is being made and the worker that makes the runs. Workers and targets are
named by their places in the order in which they were added.
-/

namespace LinkTest

/-- Collects replies until nobody wants them any more. -/
structure Target where
  kind : TargetKind
  received : List Reply
  wanted : Bool

structure Station (σ : Type) where
  lifecycle : Lifecycle
  bus : Bus
  workers : List (Worker σ)
  targets : List Target
  /-- The worker that makes the runs. -/
  bound : Option Nat
  current : Option RunId
  /-- How many runs were begun. -/
  begun : Nat
  log : Log
  /-- What is put on the records that are made here, in this order. -/
  stamps : Nat → Stamp
  /-- How many of the stamps are used up. -/
  stamped : Nat

namespace Station

variable {σ : Type}

def start (stamps : Nat → Stamp) : Station σ :=
  ⟨.start, .empty, [], [], none, none, 0, .empty, stamps, 0⟩

def worker? (s : Station σ) (id : Nat) : Option (Worker σ) := s.workers[id]?

def note (s : Station σ) (n : Note) : Station σ := { s with log := s.log.add n }

def notes (s : Station σ) (ns : List Note) : Station σ := { s with log := s.log.addAll ns }

def setLevel (s : Station σ) (l : LogLevel) : Station σ := { s with log := { s.log with level := l } }

/-- The thread on which callers act. -/
def caller : String := "main"

/-! ## The bus -/

def publishNote (thread : String) (b : Bus) (e : Event) : Note :=
  ⟨.debug, thread, "EventBus: " ++ e.kind.name ++
    match b.topics e.kind with
    | none => " dropped, no subscribers"
    | some _ => " delivered to " ++ toString (b.publish e).1 ++ " subscribers"⟩

/-- Publishes an event and answers to how many subscriptions. -/
def publish (thread : String) (e : Event) (s : Station σ) : Nat × Station σ :=
  ((s.bus.publish e).1, { s with bus := (s.bus.publish e).2 }.note (publishNote thread s.bus e))

def announce (thread : String) (e : Event) (s : Station σ) : Station σ := (s.publish thread e).2

def subscribe (kinds : List EventKind) (s : Station σ) : Nat × Station σ :=
  let (id, bus) := s.bus.subscribe kinds
  (id, { s with bus := bus }.note (.main .debug ("EventBus: subscriber " ++ toString id ++
    " registered for [" ++ ", ".intercalate ((Subscription.kindsOf kinds).map EventKind.name) ++
    "]")))

def unsubscribe (id : Nat) (s : Station σ) : Station σ :=
  { s with bus := s.bus.unsubscribe id }.note
    (.main .debug ("EventBus: subscriber " ++ toString id ++ " released"))

def letGo (id : Nat) (s : Station σ) : Station σ := { s with bus := s.bus.release id }

def receive (id : Nat) (s : Station σ) : Option Event × Station σ :=
  ((s.bus.receive id).1, { s with bus := (s.bus.receive id).2 })

def drain (id : Nat) (s : Station σ) : List Event × Station σ :=
  ((s.bus.drain id).1, { s with bus := (s.bus.drain id).2 })

/-! ## The lifecycle -/

def moveNote (thread : String) (source target : Phase) : Note :=
  ⟨.debug, thread, "Lifecycle: " ++ source.name ++ " -> " ++ target.name⟩

def refusalNote (thread : String) (source target : Phase) : Note :=
  ⟨.debug, thread, "Lifecycle: rejected " ++ source.name ++ " -> " ++ target.name⟩

/-- The outcome of an attempt to change the lifecycle, with the phase left if it has succeeded. -/
def settleMove (thread : String) (attempt : Except Failure Lifecycle) (refused : List Note)
    (s : Station σ) : Except Failure Phase × Station σ :=
  match attempt with
  | .ok l =>
    (.ok s.lifecycle.phase,
      { s with lifecycle := l }.note (moveNote thread s.lifecycle.phase l.phase))
  | .error f => (.error f, s.notes refused)

def transition (thread : String) (p : Phase) (s : Station σ) : Except Failure Phase × Station σ :=
  s.settleMove thread (s.lifecycle.transition p) [refusalNote thread s.lifecycle.phase p]

def complete (thread : String) (r : Record) (s : Station σ) : Except Failure Phase × Station σ :=
  s.settleMove thread (s.lifecycle.complete r)
    (if r.isValid then [refusalNote thread s.lifecycle.phase .completed] else [])

def abort (thread : String) (s : Station σ) : Except Failure Phase × Station σ :=
  s.settleMove thread s.lifecycle.abort []

def acknowledge (thread : String) (s : Station σ) : Except Failure Phase × Station σ :=
  s.settleMove thread s.lifecycle.acknowledge []

/-- Claims the pipeline and answers whether it was free. -/
def beginRun (s : Station σ) : Bool × Station σ :=
  match s.lifecycle.beginRun with
  | some l => (true, { s with lifecycle := l }.note (moveNote caller .idle .preparing))
  | none =>
    (false, s.note (.main .debug
      ("Lifecycle: begin_run ignored in phase " ++ s.lifecycle.phase.name)))

def clearLatest (s : Station σ) : Station σ := { s with lifecycle := s.lifecycle.clearLatest }

/-! ## Targets -/

def addTarget (kind : TargetKind) (s : Station σ) : Nat × Station σ :=
  (s.targets.length, { s with targets := s.targets ++ [⟨kind, [], true⟩] })

/-- Nobody reads the replies any more. A target that is called with them goes on being called. -/
def dropTarget (id : Nat) (s : Station σ) : Station σ :=
  { s with targets := s.targets.modify id fun t =>
      if t.kind = .channel then { t with wanted := false } else t }

/-! ## Workers -/

def addWorker (w : Worker σ) (s : Station σ) : Nat × Station σ :=
  (s.workers.length, { s with workers := s.workers ++ [w] })

def setWorker (id : Nat) (w : Worker σ) (s : Station σ) : Station σ :=
  { s with workers := s.workers.set id w }

def startWorker (id : Nat) (s : Station σ) : Except Failure Unit × Station σ :=
  match s.worker? id with
  | none => (.error .workerStopped, s)
  | some w =>
    match w.start with
    | .ok w => (.ok (), (s.setWorker id w).note (.main .info "Communication worker started"))
    | .error f => (.error f, s)

def stopWorker (id : Nat) (s : Station σ) : Station σ :=
  match s.worker? id with
  | none => s
  | some w => (s.setWorker id w.stop.1).notes w.stop.2

def dropWorker (id : Nat) (s : Station σ) : Station σ :=
  match s.worker? id with
  | none => s
  | some w => s.setWorker id w.drop

/-- Keeps a worker from taking its next message, and answers whether it was free to before. -/
def hold (id : Nat) (s : Station σ) : Except Failure Bool × Station σ :=
  match s.worker? id with
  | none => (.error .workerStopped, s)
  | some w =>
    if w.isOpen then (.ok !w.held, s.setWorker id { w with held := true })
    else (.error .workerStopped, s)

/-- Lets a worker go on. -/
def resume (id : Nat) (s : Station σ) : Station σ :=
  { s with workers := s.workers.modify id ({ · with held := false }) }

def send (thread : String) (id : Nat) (m : Message) (s : Station σ) :
    Except Failure Unit × Station σ :=
  match s.worker? id with
  | none => (.error .workerStopped, s)
  | some w =>
    let sent := w.enqueue m
    match sent with
    | .ok w => (.ok (), (s.setWorker id w).note (Worker.enqueueNote thread m sent))
    | .error f => (.error f, s.note (Worker.enqueueNote thread m sent))

/-- What a caller dies of who cannot go on after a failure. -/
def fatal (operation : String) (f : Failure) : String := operation ++ "(): " ++ f.message

end Station
end LinkTest
