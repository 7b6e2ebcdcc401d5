import LinkTest.Station.Basic

/-!
# Runs

A run claims the pipeline, sends a login and a request for a test to the bound worker, and is
carried forward by the replies. Replies of a run that is not the current one change nothing, but
what has been uploaded is announced in any case.
-/

namespace LinkTest.Station

variable {σ : Type}

/-- Binds the worker that makes the runs from now on. -/
def bind (id : Nat) (s : Station σ) : Station σ :=
  { s with bound := some id }.note (.main .debug "Orchestrator: communicator bound")

def announceMove (thread : String) (source target : Phase) (s : Station σ) : Station σ :=
  s.announce thread (.phaseChanged source target)

/-- Ends the run, whatever the phase: if it is one that can be left, this is announced. -/
def giveUp (thread : String) (s : Station σ) : Except Failure Phase × Station σ :=
  match { s with current := none }.abort thread with
  | (.ok source, s) => (.ok source, s.announceMove thread source .idle)
  | (.error f, s) => (.error f, s)

/-- Sends the two messages of a run. -/
def sendRun (id : Nat) (run : RunId) (s : Station σ) : Except Failure Unit × Station σ :=
  match s.send caller id (.login none) with
  | (.ok _, s) => s.send caller id (.requestTest (.run run))
  | (.error f, s) => (.error f, s)

/-- Starts a run if a worker is bound and the pipeline is free. If the worker cannot be reached,
the pipeline is free again. -/
def startTest (s : Station σ) : Except Failure Bool × Station σ :=
  match s.bound with
  | none => (.error .notBound, s)
  | some id =>
    match s.beginRun with
    | (false, s) =>
      (.ok false, s.note (.main .debug
        ("Orchestrator: start_test ignored in phase " ++ s.lifecycle.phase.name)))
    | (true, s) =>
      let run : RunId := ⟨s.begun⟩
      let s := { s with current := some run, begun := s.begun + 1 }
      let s := s.note (.main .info ("Run " ++ run.text ++ " started"))
      match (s.announceMove caller .idle .preparing).sendRun id run with
      | (.ok _, s) => (.ok true, s)
      | (.error f, s) =>
        let s := s.note (.main .error
          ("Run " ++ run.text ++ " could not reach the worker: " ++ f.message))
        (.error f, (s.giveUp caller).2)

/-- The record has been seen: the pipeline is free for the next run. -/
def acknowledgeResults (s : Station σ) : Bool × Station σ :=
  match s.acknowledge caller with
  | (.ok _, s) => (true, s.announceMove caller .completed .idle)
  | (.error f, s) =>
    (false, s.note (.main .debug ("Orchestrator: acknowledge ignored: " ++ f.message)))

/-! ## Replies, on the worker's thread -/

def runNote (level : LogLevel) (run : RunId) (text : String) : Note :=
  ⟨level, Worker.threadName, "Run " ++ run.text ++ text⟩

/-- Has a record uploaded by the worker that is bound now. -/
def submit (run : RunId) (r : Record) (s : Station σ) : Station σ :=
  match s.bound with
  | none => s
  | some id =>
    match s.send Worker.threadName id (.report r (some (.run run))) with
    | (.ok _, s) => s
    | (.error f, s) => s.note (runNote .warn run (": results not uploaded: " ++ f.message))

/-- The test of the current run has ended. -/
def concludeRun (run : RunId) (r : Record) (s : Station σ) : Station σ :=
  let thread := Worker.threadName
  if r.isValid then
    match s.complete thread r with
    | (.ok _, s) =>
      let s := s.note (runNote .info run (" completed (" ++ r.stamp.id.short ++ ")"))
      let s := s.announceMove thread .testing .completed
      (s.announce thread (.testCompleted r)).submit run r
    | (.error f, s) => s.note (runNote .warn run (": could not complete: " ++ f.message))
  else
    let s := s.note (runNote .warn run (" failed: " ++ r.reason))
    let s := match s.giveUp thread with
      | (.ok _, s) => s
      | (.error f, s) => s.note (runNote .warn run (": " ++ f.message))
    s.announce thread (.testFailed r.reason)

/-- The test of the current run has begun. -/
def enterTesting (run : RunId) (s : Station σ) : Station σ :=
  let thread := Worker.threadName
  match s.transition thread .testing with
  | (.ok source, s) => s.announceMove thread source .testing
  | (.error f, s) => s.note (runNote .warn run (": " ++ f.message))

def staleNote (run : RunId) : Note :=
  ⟨.debug, Worker.threadName, "Orchestrator: ignoring stale reply for run " ++ run.text⟩

/-- What a reply to a run does. -/
def onReply (run : RunId) (reply : Reply) (s : Station σ) : Station σ :=
  match reply with
  | .reported receipt =>
    let text := " reported as set " ++ toString receipt.setId ++ " result " ++
      toString receipt.resultId
    (s.note (runNote .info run text)).announce Worker.threadName (.reportRouter receipt)
  | .reportFailed reason => s.note (runNote .warn run (" report failed: " ++ reason))
  | .started => if s.current = some run then s.enterTesting run else s.note (staleNote run)
  | .finished r => if s.current = some run then s.concludeRun run r else s.note (staleNote run)

end LinkTest.Station
