import LinkTest.Proofs.Station.Superseded

/-!
# What a station answers

Everything that can be done to a station, with what it answers to whoever does it: a refusal with
its reason, the number of what was added, the phase that was left, the events that were received.
The transcript of a schedule pairs each deed with its answer.
-/

namespace LinkTest

namespace Scene

/-- What comes back to whoever acts. -/
inductive Answer
  | nothing
  | number (n : Nat)
  | done (result : Except Failure Unit)
  | decided (result : Except Failure Bool)
  | left (result : Except Failure Phase)
  | events (es : List Event)

variable {σ : Type}

def answerToMove (c : Scene σ) : Move σ → Answer
  | .addWorker server own limit => .number (c.station.addWorker (.new server own limit)).1
  | .startWorker id => .done (c.station.startWorker id).1
  | .hold id => .decided (c.station.hold id).1
  | .login id credentials => .done (c.station.send Station.caller id (.login credentials)).1
  | .requestTest id target kind =>
    .done (c.station.send Station.caller id (.requestTest (.target target kind))).1
  | .report id r t =>
    .done (c.station.send Station.caller id (.report r (t.map fun (i, k) => .target i k))).1
  | .addTarget kind => .number (c.station.addTarget kind).1
  | .startTest => .decided c.station.startTest.1
  | .acknowledge => .decided (.ok c.station.acknowledgeResults.1)
  | .subscribe kinds => .number (c.station.subscribe kinds).1
  | .receive id => .events (c.station.receive id).1.toList
  | .drain id => .events (c.station.drain id).1
  | _ => .nothing

def answerToOperation (thread : String) (s : Station σ) : Lifecycle.Operation → Answer
  | .beginRun => .decided (.ok s.beginRun.1)
  | .transition p => .left (s.transition thread p).1
  | .complete r => .done ((s.complete thread r).1.map fun _ => ())
  | .abort => .left (s.abort thread).1
  | .acknowledge => .done ((s.acknowledge thread).1.map fun _ => ())
  | .clearLatest => .nothing

def answer (c : Scene σ) : Deed σ → Answer
  | .move m => c.answerToMove m
  | .operate thread o => answerToOperation thread c.station o
  | .publish thread e => .number (c.station.publish thread e).1

variable [Server σ]

/-- Each deed of a schedule with its answer. -/
def transcript (c : Scene σ) : List (Deed σ) → List (Deed σ × Answer)
  | [] => []
  | a :: rest => (a, c.answer a) :: (c.act a).transcript rest

theorem transcript_append (c : Scene σ) (before after : List (Deed σ)) :
    c.transcript (before ++ after) =
      c.transcript before ++ (c.actAll before).transcript after := by
  induction before generalizing c with
  | nil => rfl
  | cons a rest ih => rw [List.cons_append, transcript, ih, transcript, List.cons_append,
      actAll_cons]

end Scene
end LinkTest
