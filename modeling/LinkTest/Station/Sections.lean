import LinkTest.Station.Step

/-!
# Operations, section by section

Starting a run, acknowledging a record and dealing with a reply each take several locks, one after
the other, and other threads may act in between. A section is what is done under one lock, with the
notes in the log that belong to it. A caller's operation is a visit, and what a worker's thread does
with an effect is a duty: either says what is done next and what is left to be done after it.
-/

namespace LinkTest.Station

variable {σ : Type}

/-- What a caller does next, and what it knows by then. -/
inductive Visit
  /-- A run is to be started: the binding is read. -/
  | start
  | claim (id : Nat)
  /-- The pipeline was not free, and the log says in which phase it is. -/
  | excuse
  /-- The pipeline is claimed: there is a new run. -/
  | enlist (id : Nat)
  | herald (id : Nat) (run : RunId)
  | login (id : Nat) (run : RunId)
  | request (id : Nat) (run : RunId)
  /-- The worker could not be reached: there is no run any more. -/
  | lose (run : RunId) (f : Failure)
  | withdraw (f : Failure)
  | acknowledge
  /-- A change of the phase is announced before the caller is answered. -/
  | tell (source target : Phase) (answer : Except Failure Bool)

/-- What the thread of a worker does next, and what it knows by then. -/
inductive Duty
  | carry (e : Effect)
  | enter (run : RunId)
  | complete (run : RunId) (r : Record)
  /-- The phase is `completed`, and this is announced. -/
  | unveil (run : RunId) (r : Record)
  | present (run : RunId) (r : Record)
  /-- The record is to be uploaded: the binding is read. -/
  | address (run : RunId) (r : Record)
  | upload (id : Nat) (run : RunId) (r : Record)
  /-- The test has failed: there is no run any more. -/
  | drop (run : RunId) (reason : String)
  | abort (run : RunId) (reason : String)
  /-- A change of the phase is announced, and then the failure, if there is one. -/
  | tell (source target : Phase) (failure : Option String)
  | fail (reason : String)

/-- One section of a visit: what is left of it, or the answer. -/
def Visit.step (v : Visit) (s : Station σ) : (Visit ⊕ Except Failure Bool) × Station σ :=
  match v with
  | .start =>
    match s.bound with
    | none => (.inr (.error .notBound), s)
    | some id => (.inl (.claim id), s)
  | .claim id =>
    match s.beginRun with
    | (true, s) => (.inl (.enlist id), s)
    | (false, s) => (.inl .excuse, s)
  | .excuse => (.inr (.ok false), s.note (.main .debug
      ("Orchestrator: start_test ignored in phase " ++ s.lifecycle.phase.name)))
  | .enlist id =>
    let run : RunId := ⟨s.begun⟩
    let s := { s with current := some run, begun := s.begun + 1 }
    (.inl (.herald id run), s.note (.main .info ("Run " ++ run.text ++ " started")))
  | .herald id run => (.inl (.login id run), s.announceMove caller .idle .preparing)
  | .login id run =>
    match s.send caller id (.login none) with
    | (.ok _, s) => (.inl (.request id run), s)
    | (.error f, s) => (.inl (.lose run f), s)
  | .request id run =>
    match s.send caller id (.requestTest (.run run)) with
    | (.ok _, s) => (.inr (.ok true), s)
    | (.error f, s) => (.inl (.lose run f), s)
  | .lose run f =>
    let s := s.note (.main .error
      ("Run " ++ run.text ++ " could not reach the worker: " ++ f.message))
    (.inl (.withdraw f), { s with current := none })
  | .withdraw f =>
    match s.abort caller with
    | (.ok source, s) => (.inl (.tell source .idle (.error f)), s)
    | (.error _, s) => (.inr (.error f), s)
  | .acknowledge =>
    match s.acknowledge caller with
    | (.ok _, s) => (.inl (.tell .completed .idle (.ok true)), s)
    | (.error f, s) => (.inr (.ok false),
        s.note (.main .debug ("Orchestrator: acknowledge ignored: " ++ f.message)))
  | .tell source target answer => (.inr answer, s.announceMove caller source target)

/-- One section of a duty: what is left of it. -/
def Duty.step (d : Duty) (s : Station σ) : Option Duty × Station σ :=
  let thread := Worker.threadName
  match d with
  | .carry (.reply (.run run) .started) =>
    if s.current = some run then (some (.enter run), s) else (none, s.note (staleNote run))
  | .carry (.reply (.run run) (.finished r)) =>
    if s.current = some run then
      (some (if r.isValid then .complete run r else .drop run r.reason), s)
    else (none, s.note (staleNote run))
  | .carry e => (none, s.perform e)
  | .enter run =>
    match s.transition thread .testing with
    | (.ok source, s) => (some (.tell source .testing none), s)
    | (.error f, s) => (none, s.note (runNote .warn run (": " ++ f.message)))
  | .complete run r =>
    match s.complete thread r with
    | (.ok _, s) => (some (.unveil run r),
        s.note (runNote .info run (" completed (" ++ r.stamp.id.short ++ ")")))
    | (.error f, s) => (none, s.note (runNote .warn run (": could not complete: " ++ f.message)))
  | .unveil run r => (some (.present run r), s.announceMove thread .testing .completed)
  | .present run r => (some (.address run r), s.announce thread (.testCompleted r))
  | .address run r => (s.bound.map fun id => .upload id run r, s)
  | .upload id run r =>
    match s.send thread id (.report r (some (.run run))) with
    | (.ok _, s) => (none, s)
    | (.error f, s) => (none, s.note (runNote .warn run (": results not uploaded: " ++ f.message)))
  | .drop run reason =>
    let s := s.note (runNote .warn run (" failed: " ++ reason))
    (some (.abort run reason), { s with current := none })
  | .abort run reason =>
    match s.abort thread with
    | (.ok source, s) => (some (.tell source .idle (some reason)), s)
    | (.error f, s) => (some (.fail reason), s.note (runNote .warn run (": " ++ f.message)))
  | .tell source target failure => (failure.map .fail, s.announceMove thread source target)
  | .fail reason => (none, s.announce thread (.testFailed reason))

end LinkTest.Station
