import Mathlib.Logic.Function.Basic
import LinkTest.Proofs.Station.Operations
import LinkTest.Server.Scripted

/-!
# Schedules of a station

A scene is a station at work: beside its state there is, for each worker, what its thread has still
to carry out of the message that it took last, and, for each subscription, what was received from
it. A schedule is any list of moves. Callers act in one move; a thread takes its oldest message in
one move and carries out each effect of it in another, so that others act in between, and so does a
recipient from inside a reply. The lifecycle is changed by runs alone. Operations are whole here;
what happens when others act in the midst of them is told by ensembles.
-/

namespace LinkTest

structure Scene (σ : Type) where
  station : Station σ
  /-- The effects of the message that each worker took last that were not carried out yet. -/
  pending : Nat → List Effect
  /-- The events that were received from each subscription, oldest first. -/
  received : Nat → List Event

namespace Scene

inductive Move (σ : Type)
  | addWorker (server : σ) (own : Credentials) (limit : Span)
  | startWorker (id : Nat)
  | stopWorker (id : Nat)
  | dropWorker (id : Nat)
  | hold (id : Nat)
  | resume (id : Nat)
  /-- Someone who has a handle of the worker sends it a message. -/
  | login (id : Nat) (credentials : Option Credentials)
  | requestTest (id target : Nat) (kind : TargetKind)
  | report (id : Nat) (record : Record) (replyTo : Option (Nat × TargetKind))
  | addTarget (kind : TargetKind)
  | dropTarget (id : Nat)
  | bind (id : Nat)
  | startTest
  | acknowledge
  | clearLatest
  | setLevel (level : LogLevel)
  | subscribe (kinds : List EventKind)
  | unsubscribe (id : Nat)
  | letGo (id : Nat)
  | receive (id : Nat)
  | drain (id : Nat)
  /-- The thread of the worker takes the oldest message. -/
  | take (id : Nat)
  /-- The thread of the worker carries out the next effect. -/
  | carry (id : Nat)

variable {σ : Type}

def start (stamps : Nat → Stamp) : Scene σ := ⟨.start stamps, fun _ => [], fun _ => []⟩

def phase (c : Scene σ) : Phase := c.station.lifecycle.phase

/-- What was received from a subscription and what waits in it. -/
def heard (id : Nat) (c : Scene σ) : List Event := c.received id ++ c.station.bus.pendingOf id

/-- Carries out the next effect. -/
def carry (id : Nat) (c : Scene σ) : Scene σ :=
  match c.pending id with
  | [] => c
  | e :: rest => { c with
      station := c.station.perform e
      pending := Function.update c.pending id rest }

variable [Server σ]

/-- Takes the oldest message once the one before is done with, if the worker is not held. -/
def take (id : Nat) (c : Scene σ) : Scene σ :=
  match c.station.worker? id with
  | none => c
  | some w =>
    if (c.pending id).isEmpty && !w.held then
      let (next, effects) := w.step fun n => c.station.stamps (c.station.stamped + n)
      { c with
        station := { c.station with
          stamped := c.station.stamped + 1 + w.queue.length
          workers := c.station.workers.set id next }
        pending := Function.update c.pending id effects }
    else c

def apply (c : Scene σ) : Move σ → Scene σ
  | .addWorker server own limit =>
    { c with station := (c.station.addWorker (.new server own limit)).2 }
  | .startWorker id => { c with station := (c.station.startWorker id).2 }
  | .stopWorker id => { c with station := c.station.stopWorker id }
  | .dropWorker id => { c with station := c.station.dropWorker id }
  | .hold id => { c with station := (c.station.hold id).2 }
  | .resume id => { c with station := c.station.resume id }
  | .login id credentials =>
    { c with station := (c.station.send Station.caller id (.login credentials)).2 }
  | .requestTest id target kind =>
    { c with station := (c.station.send Station.caller id (.requestTest (.target target kind))).2 }
  | .report id r t =>
    { c with station :=
        (c.station.send Station.caller id (.report r (t.map fun (i, k) => .target i k))).2 }
  | .addTarget kind => { c with station := (c.station.addTarget kind).2 }
  | .dropTarget id => { c with station := c.station.dropTarget id }
  | .bind id => { c with station := c.station.bind id }
  | .startTest => { c with station := c.station.startTest.2 }
  | .acknowledge => { c with station := c.station.acknowledgeResults.2 }
  | .clearLatest => { c with station := c.station.clearLatest }
  | .setLevel level => { c with station := c.station.setLevel level }
  | .subscribe kinds => { c with station := (c.station.subscribe kinds).2 }
  | .unsubscribe id => { c with station := c.station.unsubscribe id }
  | .letGo id => { c with station := c.station.letGo id }
  | .receive id => { c with
      station := (c.station.receive id).2
      received := Function.update c.received id
        (c.received id ++ (c.station.receive id).1.toList) }
  | .drain id => { c with
      station := (c.station.drain id).2
      received := Function.update c.received id (c.received id ++ (c.station.drain id).1) }
  | .take id => c.take id
  | .carry id => c.carry id

def run (c : Scene σ) (moves : List (Move σ)) : Scene σ := moves.foldl apply c

@[simp] theorem run_nil (c : Scene σ) : c.run [] = c := rfl

@[simp] theorem run_cons (c : Scene σ) (m : Move σ) (rest : List (Move σ)) :
    c.run (m :: rest) = (c.apply m).run rest := rfl

@[simp] theorem run_append (c : Scene σ) (before after : List (Move σ)) :
    c.run (before ++ after) = (c.run before).run after := List.foldl_append

/-- A thread that is free takes a step of its worker. -/
theorem take_of_free {c : Scene σ} {id : Nat} {w : Worker σ} (hw : c.station.worker? id = some w)
    (hp : c.pending id = []) (hh : w.held = false) : ∃ stamps stamped, c.take id = { c with
      station := { c.station with
        stamped := stamped
        workers := c.station.workers.set id (w.step stamps).1 }
      pending := Function.update c.pending id (w.step stamps).2 } := by
  refine ⟨fun n => c.station.stamps (c.station.stamped + n),
    c.station.stamped + 1 + w.queue.length, ?_⟩
  simp only [take, hw, hp, hh, List.isEmpty_nil, Bool.not_false, Bool.and_self, if_true]

theorem take_eq (id : Nat) (c : Scene σ) : c.take id = c ∨ ∃ w stamps stamped,
    c.station.worker? id = some w ∧ c.pending id = [] ∧ c.take id = { c with
      station := { c.station with
        stamped := stamped
        workers := c.station.workers.set id (w.step stamps).1 }
      pending := Function.update c.pending id (w.step stamps).2 } := by
  cases hw : c.station.worker? id with
  | none => exact .inl (by simp only [take, hw])
  | some w =>
    by_cases hf : c.pending id = [] ∧ w.held = false
    · obtain ⟨stamps, stamped, ht⟩ := take_of_free hw hf.1 hf.2
      exact .inr ⟨w, stamps, stamped, rfl, hf.1, ht⟩
    · refine .inl ?_
      simp only [take, hw]
      exact if_neg (by simpa using hf)

theorem carry_of_cons {c : Scene σ} {id : Nat} {e : Effect} {rest : List Effect}
    (hp : c.pending id = e :: rest) : c.apply (.carry id) = { c with
      station := c.station.perform e
      pending := Function.update c.pending id rest } := by
  simp only [apply, carry, hp]

/-- The scenes to which some schedule of a new station leads. -/
def Reached (c : Scene σ) : Prop := ∃ stamps moves, (start stamps).run moves = c

/-! ## Steps as moves -/

/-- The moves by which a worker carries out all that is left of its last message. -/
def leftover (c : Scene σ) (id : Nat) : List (Move σ) :=
  List.replicate (c.pending id).length (.carry id)

/-- The moves by which a worker takes a message and carries out all that comes of it. -/
def turn (c : Scene σ) (id : Nat) : List (Move σ) := .take id :: (c.take id).leftover id

theorem run_leftover (c : Scene σ) (id : Nat) : c.run (c.leftover id) = { c with
    station := (c.pending id).foldl Station.perform c.station
    pending := Function.update c.pending id [] } := by
  unfold leftover
  generalize hp : c.pending id = effects
  induction effects generalizing c with
  | nil =>
    rw [← hp, Function.update_eq_self, hp]
    rfl
  | cons e rest ih =>
    rw [List.length_cons, List.replicate_succ, run_cons, carry_of_cons hp, ih,
      Function.update_idem]
    · rfl
    · exact Function.update_self id rest c.pending

/-- A step of a worker that is not held is the turn of it that nothing interrupts. -/
theorem run_turn (c : Scene σ) (id : Nat) (hp : c.pending id = [])
    (hh : ∀ w, c.station.worker? id = some w → w.held = false) :
    c.run (c.turn id) = { c with station := c.station.step id } := by
  have hupdate : Function.update c.pending id [] = c.pending := by
    rw [← hp, Function.update_eq_self]
  change (c.take id).run ((c.take id).leftover id) = _
  rw [run_leftover]
  unfold take Station.step
  cases hw : c.station.worker? id with
  | none => simp [hp, hupdate]
  | some w =>
    simp only [hp, hh w hw, List.isEmpty_nil, Bool.not_false, Bool.and_self, if_true,
      Function.update_self, Function.update_idem, hupdate]
    rfl

/-- What the station does until nothing is left to take is one of the schedules. -/
theorem exists_run_settle (c : Scene σ) (hp : ∀ id, c.pending id = []) :
    ∃ moves, c.run moves = { c with station := c.station.settle } := by
  suffices h : ∀ (n : Nat) (s : Station σ),
      ∃ moves, { c with station := s }.run moves = { c with station := s.settleWithin n } by
    exact h c.station.workload c.station
  intro n
  induction n with
  | zero => exact fun s => ⟨[], rfl⟩
  | succ n ih =>
    intro s
    unfold Station.settleWithin
    cases hr : s.workers.findIdx? Station.isReady with
    | none => exact ⟨[], rfl⟩
    | some id =>
      obtain ⟨moves, hm⟩ := ih (s.step id)
      have hfree : ∀ w, s.worker? id = some w → w.held = false := by
        intro w hw
        obtain ⟨hid, hready, -⟩ := List.findIdx?_eq_some_iff_getElem.1 hr
        have hget : s.workers[id] = w := (List.getElem?_eq_some_iff.1 hw).2
        rw [hget] at hready
        cases hh : w.held with
        | false => rfl
        | true => simp [Station.isReady, hh] at hready
      have hturn := run_turn { c with station := s } id (hp id) hfree
      exact ⟨turn { c with station := s } id ++ moves, by rw [run_append, hturn, hm]⟩

/-! ## Moves aside from runs -/

/-- Whether a move is about subscriptions. -/
def Move.isListening : Move σ → Bool
  | .subscribe _ | .unsubscribe _ | .letGo _ | .receive _ | .drain _ => true
  | _ => false

/-- Whether a move may carry a run forward. -/
def Move.isDriving : Move σ → Bool
  | .startTest | .acknowledge | .take _ | .carry _ => true
  | _ => false

/-- What a move that does not drive a run leaves where it is. -/
structure Aside (m : Move σ) (c : Scene σ) : Prop where
  phase : (c.apply m).phase = c.phase
  current : (c.apply m).station.current = c.station.current
  pending : (c.apply m).pending = c.pending
  staffed : Station.Staffed c.station.workers (c.apply m).station.workers
  bus : m.isListening = false →
    (c.apply m).station.bus = c.station.bus ∧ (c.apply m).received = c.received

theorem aside_of_not_driving {m : Move σ} (hm : m.isDriving = false) (c : Scene σ) :
    Aside m c := by
  cases m with
  | addWorker server own limit =>
    exact ⟨rfl, rfl, rfl, .hired server own limit, fun _ => ⟨rfl, rfl⟩⟩
  | startWorker id =>
    obtain ⟨workers, log, h, hw⟩ := c.station.startWorker_spec id
    constructor <;> simp [apply, phase, h, hw]
  | stopWorker id =>
    obtain ⟨workers, log, h, hw⟩ := c.station.stopWorker_spec id
    constructor <;> simp [apply, phase, h, hw]
  | dropWorker id =>
    obtain ⟨workers, log, h, hw⟩ := c.station.dropWorker_spec id
    constructor <;> simp [apply, phase, h, hw]
  | hold id =>
    obtain ⟨workers, log, h, hw⟩ := c.station.hold_spec id
    constructor <;> simp [apply, phase, h, hw]
  | resume id =>
    obtain ⟨workers, log, h, hw⟩ := c.station.resume_spec id
    constructor <;> simp [apply, phase, h, hw]
  | login id credentials =>
    obtain ⟨workers, log, h, hw⟩ :=
      c.station.send_spec Station.caller id (m := .login credentials) rfl
    constructor <;> simp [apply, phase, h, hw]
  | requestTest id target kind =>
    obtain ⟨workers, log, h, hw⟩ :=
      c.station.send_spec Station.caller id (m := .requestTest (.target target kind)) rfl
    constructor <;> simp [apply, phase, h, hw]
  | report id r t =>
    obtain ⟨workers, log, h, hw⟩ := c.station.send_spec Station.caller id
      (m := .report r (t.map fun (i, k) => .target i k)) rfl
    constructor <;> simp [apply, phase, h, hw]
  | addTarget kind => exact ⟨rfl, rfl, rfl, .same, fun _ => ⟨rfl, rfl⟩⟩
  | dropTarget id => exact ⟨rfl, rfl, rfl, .same, fun _ => ⟨rfl, rfl⟩⟩
  | bind id => exact ⟨rfl, rfl, rfl, .same, fun _ => ⟨rfl, rfl⟩⟩
  | clearLatest => exact ⟨rfl, rfl, rfl, .same, fun _ => ⟨rfl, rfl⟩⟩
  | setLevel level => exact ⟨rfl, rfl, rfl, .same, fun _ => ⟨rfl, rfl⟩⟩
  | subscribe kinds => exact ⟨rfl, rfl, rfl, .same, nofun⟩
  | unsubscribe id => exact ⟨rfl, rfl, rfl, .same, nofun⟩
  | letGo id => exact ⟨rfl, rfl, rfl, .same, nofun⟩
  | receive id => exact ⟨rfl, rfl, rfl, .same, nofun⟩
  | drain id => exact ⟨rfl, rfl, rfl, .same, nofun⟩
  | startTest => cases hm
  | acknowledge => cases hm
  | take id => cases hm
  | carry id => cases hm

/-! ## Crashes are final -/

/-- No call has taken a thread down with it. -/
def CrashFree (c : Scene σ) : Prop := Station.Uncrashed c.station.workers

instance (c : Scene σ) : Decidable c.CrashFree :=
  inferInstanceAs (Decidable (Station.Uncrashed c.station.workers))

theorem crashFree_of_apply {c : Scene σ} {m : Move σ} (h : (c.apply m).CrashFree) :
    c.CrashFree := by
  cases hm : m.isDriving with
  | false => exact (aside_of_not_driving hm c).staffed.uncrashed h
  | true =>
    cases m with
    | startTest => exact Station.uncrashed_of_startTest h
    | acknowledge =>
      by_cases hp : c.station.lifecycle.phase = .completed
      · obtain ⟨log, ha⟩ := Station.acknowledgeResults_of_completed hp
        simpa only [CrashFree, apply, ha] using h
      · obtain ⟨log, ha⟩ := Station.acknowledgeResults_of_not_completed hp
        simpa only [CrashFree, apply, ha] using h
    | take id =>
      rcases c.take_eq id with ht | ⟨w, stamps, stamped, hw, -, ht⟩
      · simpa only [apply, ht] using h
      · simp only [CrashFree, apply, ht] at h ⊢
        refine Station.uncrashed_of_set hw (fun hc => ?_) h
        rw [w.step_of_closed stamps (by simp [Worker.isOpen, hc])]
        exact hc
    | carry id =>
      simp only [CrashFree, apply, carry] at h ⊢
      split at h
      · exact h
      · exact (c.station.staffed_perform _).uncrashed h
    | _ => cases hm

theorem crashFree_of_run {c : Scene σ} {moves : List (Move σ)} (h : (c.run moves).CrashFree) :
    c.CrashFree := by
  induction moves generalizing c with
  | nil => exact h
  | cons m rest ih => exact crashFree_of_apply (ih h)

/-- What every move without a crash keeps, a schedule without a crash keeps. -/
theorem run_induction {P : Scene σ → Prop}
    (step : ∀ c m, P c → (c.apply m).CrashFree → P (c.apply m))
    (c : Scene σ) (moves : List (Move σ)) (hc : P c) (h : (c.run moves).CrashFree) :
    P (c.run moves) := by
  induction moves generalizing c with
  | nil => exact hc
  | cons m rest ih => exact ih _ (step c m hc (crashFree_of_run h)) h

/-! ## A schedule -/

/-- The second test fails. -/
def rehearsalScript : Script :=
  ⟨[], [.ended (.ok (Script.defaultRecord default)), .overdue], [], default⟩

/-- A run completes and a second one fails. A third does not reach the worker, which was stopped. A
fourth is sent to another worker, which is held and stopped while the run is still on its way, and
the first worker is bound again. All is watched from the start. -/
def rehearsal : List (Move Script) :=
  let turn : List (Move Script) := .take 0 :: List.replicate 5 (.carry 0)
  let hire : Move Script := .addWorker rehearsalScript .anonymous Worker.defaultLimit
  List.flatten [[hire, .startWorker 0, .bind 0, .startTest], turn, turn, turn,
    [.acknowledge, .receive 0, .startTest], turn, turn, [.stopWorker 0], turn,
    [.startTest, hire, .startWorker 1, .hold 1, .bind 1, .startTest, .stopWorker 1, .bind 0]]

def rehearsed : Scene Script :=
  (start fun _ => default).run (.subscribe EventKind.all :: rehearsal)

end Scene
end LinkTest
