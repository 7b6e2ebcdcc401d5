import LinkTest.Client.Basic
import LinkTest.Record.Table
import LinkTest.Station.Step

/-!
# Making one test

A station with one worker is set up for the configured server, the run is started, and what
happens is told until the outcome is there or the time for it is over. Then the upload is given a
moment, and everything is taken down in order.
-/

namespace LinkTest.Command

/-- How much time one call has: that of two exchanges, connecting included, and of the
measurements. Nothing if there is no such span. -/
def callLimit? (c : Config) : Option Span :=
  (c.exchangeTimeout.times? 4).bind (·.plus? c.probe.throughputWindow)

/-- How long the outcome is waited for: the time of two calls. -/
def deadline? (c : Config) : Option Span := (callLimit? c).bind (·.times? 2)

/-- A station with a worker that is bound to it and a subscription to all that happens. -/
structure Bench where
  station : Station Remote
  worker : Nat
  subscription : Nat

/-- What is written to the two outputs. -/
structure Output where
  out : String
  err : String
deriving DecidableEq, Repr

namespace Bench

def credentials (c : Config) : Credentials := ⟨c.username.getD "", c.token.getD ""⟩

def setUp (c : Config) (limit : Span) (n : Network) (stamps : Nat → Stamp) (log : Log) : Bench :=
  let remote : Remote := ⟨.ofConfig c, n, stamps 0⟩
  let empty : Station Remote := { Station.start (fun n => stamps (n + 1)) with log := log }
  let (worker, s) := empty.addWorker (.new remote (credentials c) limit)
  let s := (s.startWorker worker).2
  let (subscription, s) := (s.bind worker).subscribe EventKind.all
  ⟨s, worker, subscription⟩

def remote? (b : Bench) : Option Remote := (b.station.worker? b.worker).map Worker.server

/-- The time on the clock of the network. -/
def now (b : Bench) : Span := (b.remote?.map fun r => r.network.now).getD .zero

/-- Whether the worker has something to do. -/
def isBusy (b : Bench) : Bool := (b.station.worker? b.worker).any Station.isReady

def step (b : Bench) : Bench := { b with station := b.station.step b.worker }

def receive (b : Bench) : Option Event × Bench :=
  let (e, s) := b.station.receive b.subscription
  (e, { b with station := s })

/-- Enough turns for all messages that are queued and all events that come of them. -/
def turns (b : Bench) : Nat :=
  4 * b.station.workload + (b.station.bus.subscriptions.flatMap Subscription.pending).length + 1

def isOutcome : Event → Bool
  | .testCompleted _ | .testFailed _ => true
  | _ => false

/-- What happens before a moment, up to the outcome, and the outcome if it is among that. -/
def awaitOutcome (moment : Span) : Nat → Bench → List Event × Option Event × Bench
  | 0, b => ([], none, b)
  | k + 1, b =>
    if b.now.nanos < moment.nanos then
      match b.receive with
      | (some e, b) =>
        if isOutcome e then ([], some e, b)
        else
          let (es, outcome, b) := awaitOutcome moment k b
          (e :: es, outcome, b)
      | (none, b) => if b.isBusy then awaitOutcome moment k b.step else ([], none, b)
    else ([], none, b)

/-- The next event, if it comes up to a moment. -/
def awaitNext (moment : Span) : Nat → Bench → Option Event × Bench
  | 0, b => (none, b)
  | k + 1, b =>
    if b.now.nanos ≤ moment.nanos then
      match b.receive with
      | (some e, b) => (some e, b)
      | (none, b) => if b.isBusy then awaitNext moment k b.step else (none, b)
    else (none, b)

def after (b : Bench) (s : Span) : Span := ⟨b.now.nanos + s.nanos⟩

/-- Everything is taken down: what is still queued is done before. -/
def takeDown (b : Bench) : Bench :=
  { b with station := ((b.station.unsubscribe b.subscription).stopWorker b.worker).settle }

end Bench

def telling (es : List Event) : String := String.join (es.map fun e => e.describe ++ "\n")

def lateReason : String := "no result before the deadline"

/-- The measurements of a run that has succeeded, and a moment for the upload. -/
def present (c : Config) (json : Bool) (r : Record) (b : Bench) : Output × Bench :=
  let shown := if json then r.renderJson ++ "\n" else r.renderTable
  let (next, b) := b.awaitNext (b.after c.exchangeTimeout) b.turns
  (⟨shown, telling next.toList⟩, { b with station := b.station.acknowledgeResults.2 })

/-- What is shown of the outcome, and whether it is a success. -/
def conclude (c : Config) (json : Bool) (outcome : Option Event) (b : Bench) :
    Bool × Output × Bench :=
  match outcome with
  | some (.testCompleted r) => (true, present c json r b)
  | some (.testFailed reason) => (false, ⟨"", renderFailure reason⟩, b)
  | _ => (false, ⟨"", renderFailure lateReason⟩, b)

/-- What has become of one test. -/
structure Tested where
  result : Except Failure Bool
  output : Output
  network : Network
  log : Log

def startNote (c : Config) (json : Bool) : Note :=
  .main .info ("Run command: server=" ++ c.server ++ " json=" ++ if json then "true" else "false")

/-- Makes one test, with a limit for each call and a deadline for the outcome. -/
def testWithin (limit deadline : Span) (c : Config) (json : Bool) (n : Network)
    (stamps : Nat → Stamp) (log : Log) : Tested :=
  let b := Bench.setUp c limit n stamps log
  let greeting := "Testing against " ++ c.server ++ "\n"
  match b.station.startTest with
  | (.error f, s) => ⟨.error f, ⟨"", greeting⟩, n, s.log⟩
  | (.ok _, s) =>
    let b := { b with station := s }
    let (es, outcome, b) := b.awaitOutcome (b.after deadline) b.turns
    let (success, output, b) := conclude c json outcome b
    let b := b.takeDown
    ⟨.ok success, ⟨output.out, greeting ++ telling es ++ output.err⟩,
      (b.remote?.map Remote.network).getD n, b.station.log⟩

/-- Makes one test; nothing if there is no span for the time that it may take. -/
def test? (c : Config) (json : Bool) (n : Network) (stamps : Nat → Stamp) (log : Log) :
    Option Tested :=
  (callLimit? c).bind fun limit => (deadline? c).map fun deadline =>
    testWithin limit deadline c json n stamps log

end LinkTest.Command
