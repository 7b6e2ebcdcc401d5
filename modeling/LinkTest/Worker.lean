import LinkTest.Log
import LinkTest.Message
import LinkTest.Server.Basic

/-!
# Workers

A worker owns one server and takes messages from a queue, one at a time and in the order in which
they were sent. A step takes the oldest message, makes at most one call, and says what has to be
replied to whom. The message `quit` ends the worker: what is still queued is answered without a
call, the server is told goodbye, and no message is taken any more.
-/

namespace LinkTest

/-- What the latest login has come to. -/
inductive Session
  | loggedOut
  | active (token : SessionToken)
  | failed (reason : String)
deriving DecidableEq, Repr, Inhabited

/-- The thread that takes a worker's messages. -/
inductive Thread
  | unstarted
  /-- Messages can be sent, and will be taken. -/
  | serving
  | ended
  | crashed
deriving DecidableEq, Repr, Inhabited

/-- Whoever started a worker. -/
inductive Owner
  | present
  /-- Waits for the thread to end. -/
  | stopping
  /-- Waits for the thread to end, and lets go of the worker then. -/
  | leaving
  | gone
deriving DecidableEq, Repr, Inhabited

/-- What comes of a step besides the new state, in the order in which it happens. -/
inductive Effect
  | reply (recipient : ReplyTo) (reply : Reply)
  | note (n : Note)

structure Worker (σ : Type) where
  server : σ
  credentials : Credentials
  /-- How long a call may take. -/
  limit : Span
  session : Session
  thread : Thread
  owner : Owner
  /-- Whether it was started and not stopped. -/
  running : Bool
  /-- The messages sent and not taken, oldest first. -/
  queue : List Message
  /-- Whether it is kept from taking the next message. -/
  held : Bool
  /-- The calls made, oldest first. -/
  calls : List Call

namespace Worker

/-- How long a call may take unless said otherwise. -/
def defaultLimit : Span := .ofSeconds 60

def threadName : String := "comm-worker"

def note (level : LogLevel) (text : String) : Effect := .note ⟨level, threadName, text⟩

/-- Why a request is refused that stands behind `quit`. -/
def rejection : String := Failure.workerStopped.message

def uploadRefusal : String := "refusing to upload an invalid record"

variable {σ : Type}

def new (server : σ) (credentials : Credentials) (limit : Span) : Worker σ :=
  ⟨server, credentials, limit, .loggedOut, .unstarted, .present, false, [], false, []⟩

/-- Whether messages can be sent to it. -/
def isOpen (w : Worker σ) : Bool := w.thread = .serving

/-- Whether its owner is waiting for its thread. -/
def isPending (w : Worker σ) : Bool := w.owner = .stopping ∨ w.owner = .leaving

/-! ## What its owner does -/

/-- Starts the thread, which can be done once. -/
def start (w : Worker σ) : Except Failure (Worker σ) :=
  if w.thread = .unstarted then .ok { w with thread := .serving, running := true }
  else .error .workerAlreadyStarted

/-- Sends a message to the end of the queue. -/
def enqueue (w : Worker σ) (m : Message) : Except Failure (Worker σ) :=
  if w.isOpen then .ok { w with queue := w.queue ++ [m] } else .error .workerStopped

def enqueueNote (thread : String) (m : Message) : Except Failure (Worker σ) → Note
  | .ok _ => ⟨.debug, thread, "CommHandle: enqueued " ++ m.kind⟩
  | .error _ => ⟨.error, thread, "Enqueue " ++ m.kind ++ " on a stopped communication worker"⟩

/-- What is said when the wait of a stop is over. -/
def stopNotes : Thread → List Note
  | .crashed => [.main .error "Communication worker thread panicked",
      .main .info "Communication worker stopped"]
  | _ => [.main .info "Communication worker stopped"]

/-- Sends `quit` and waits for the thread, which may be over already. -/
def stop (w : Worker σ) : Worker σ × List Note :=
  if w.running then
    if w.isOpen then
      ({ w with running := false, owner := .stopping, queue := w.queue ++ [.quit] }, [])
    else ({ w with running := false }, stopNotes w.thread)
  else (w, [.main .debug "CommunicationWorker::stop on a worker that is not running"])

/-- Lets go of the worker; one that is running is stopped first. -/
def drop (w : Worker σ) : Worker σ :=
  if w.running then
    if w.isOpen then { w with running := false, owner := .leaving, queue := w.queue ++ [.quit] }
    else { w with running := false, owner := .gone }
  else { w with owner := .gone }

/-- The wait of the owner, if there is one, is over. -/
def release (w : Worker σ) : Worker σ × List Effect :=
  match w.owner with
  | .stopping => ({ w with owner := .present }, (stopNotes w.thread).map .note)
  | .leaving => ({ w with owner := .gone }, [])
  | _ => (w, [])

/-! ## What its thread does -/

/-- Nothing is taken any more, and what was queued is lost. -/
def crash (w : Worker σ) : Worker σ × List Effect :=
  { w with thread := .crashed, queue := [] }.release

def answered (r : Record) (t : ReplyTo) : List Effect := [
  note .debug ("Worker: test finished valid=" ++ toString r.isValid ++ " id=" ++ r.stamp.id.short),
  .reply t (.finished r)]

/-- What is owed to a message that no call is made for any more. -/
def rejectionOf (stamp : Stamp) : Message → List Effect
  | .requestTest t => [.reply t (.finished (.failed stamp rejection))]
  | .report _ (some t) => [.reply t (.reportFailed rejection)]
  | _ => []

def reject (stamp : Stamp) (m : Message) : List Effect :=
  note .debug ("Worker: rejecting " ++ m.kind ++ " queued behind QUIT") :: rejectionOf stamp m

variable [Server σ]

def logIn (c : Credentials) (w : Worker σ) : Worker σ × List Effect :=
  let (outcome, server) := Server.login w.limit c w.server
  let w := { w with server := server, calls := w.calls ++ [Call.login c] }
  match outcome.result? w.limit with
  | none => w.crash
  | some (.ok token) =>
    ({ w with session := .active token }, [note .info ("Login succeeded for " ++ c.username)])
  | some (.error f) =>
    ({ w with session := .failed f.message },
      [note .warn ("Login failed for " ++ c.username ++ ": " ++ f.message)])

/-- Makes a test if there is a session. Without one, or when the test fails, the record says so. -/
def makeTest (stamp : Stamp) (t : ReplyTo) (w : Worker σ) : Worker σ × List Effect :=
  match w.session with
  | .loggedOut => (w, answered (.failed stamp Failure.notLoggedIn.message) t)
  | .failed reason => (w, answered (.failed stamp ("login failed: " ++ reason)) t)
  | .active token =>
    let (outcome, server) := Server.test w.limit token w.server
    let w := { w with server := server, calls := w.calls ++ [Call.test token] }
    match outcome.result? w.limit with
    | none =>
      let (w, effects) := w.crash
      (w, .reply t .started :: effects)
    | some (.ok r) => (w, .reply t .started :: answered r t)
    | some (.error f) =>
      (w, .reply t .started :: note .warn ("Test exchange failed: " ++ f.message) ::
        answered (.failed stamp ("test exchange failed: " ++ f.message)) t)

/-- Uploads a valid record if there is a session. -/
def upload (r : Record) (t : Option ReplyTo) (w : Worker σ) : Worker σ × List Effect :=
  let answer (reply : Reply) : List Effect := (t.map (Effect.reply · reply)).toList
  if r.isValid then
    match w.session with
    | .active token =>
      let (outcome, server) := Server.report w.limit token r w.server
      let w := { w with server := server, calls := w.calls ++ [Call.report token r] }
      match outcome.result? w.limit with
      | none => w.crash
      | some (.ok receipt) => (w, answer (.reported receipt))
      | some (.error f) =>
        (w, note .warn ("Report upload failed: " ++ f.message) :: answer (.reportFailed f.message))
    | _ => (w, answer (.reportFailed Failure.notLoggedIn.message))
  else (w, answer (.reportFailed uploadRefusal))

/-- Answers all that is queued, each with a stamp of its own at hand, and ends. -/
def finish (stamps : Nat → Stamp) (w : Worker σ) : Worker σ × List Effect :=
  let rejections := (w.queue.mapIdx fun i m => reject (stamps i) m).flatten
  let ended := { w with
    server := Server.disconnect w.server
    calls := w.calls ++ [Call.disconnect]
    session := .loggedOut
    thread := .ended
    queue := [] }
  let (w, effects) := ended.release
  (w, rejections ++ note .debug "Worker: exiting" :: effects)

def handle (stamps : Nat → Stamp) (m : Message) (w : Worker σ) : Worker σ × List Effect :=
  match m with
  | .login c => w.logIn (c.getD w.credentials)
  | .requestTest t => w.makeTest (stamps 0) t
  | .report r t => w.upload r t
  | .quit => w.finish stamps

/-- Takes the oldest message, if there is one and the thread is there to take it. -/
def step (stamps : Nat → Stamp) (w : Worker σ) : Worker σ × List Effect :=
  if w.isOpen then
    match w.queue with
    | [] => (w, [])
    | m :: rest =>
      let (w, effects) := { w with queue := rest }.handle stamps m
      (w, note .debug ("Worker: processing " ++ m.kind) :: effects)
  else (w, [])

end Worker
end LinkTest
