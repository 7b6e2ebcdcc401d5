import LinkTest.Proofs.Bus.Watch
import LinkTest.Proofs.Station.Staff

/-!
# What the operations of a station do

One statement for each operation of runs: the cases that it distinguishes, and in each of them the
whole state that it leaves, up to the log. All that is proved of stations goes through these.
-/

namespace LinkTest

/-- Whether a run is on its way: begun, and neither completed nor given up. -/
def Phase.isUnderWay : Phase → Bool
  | .preparing => true
  | .testing => true
  | _ => false

theorem Phase.isUnderWay_iff {p : Phase} :
    p.isUnderWay = true ↔ p = .preparing ∨ p = .testing := by
  cases p <;> decide

theorem Phase.isUnderWay_eq_false_iff {p : Phase} :
    p.isUnderWay = false ↔ p = .idle ∨ p = .completed := by
  cases p <;> decide

namespace Lifecycle

variable {l : Lifecycle}

theorem abort_of_underWay (h : l.phase.isUnderWay = true) : l.abort = .ok (l.enter .idle) := by
  unfold abort transition
  cases hp : l.phase <;> simp [hp, Phase.isUnderWay, Phase.mayEnter] at h ⊢

theorem abort_of_not_underWay (h : l.phase.isUnderWay = false) :
    l.abort = .error (l.refusal .idle) := by
  unfold abort
  cases hp : l.phase <;> simp [hp, Phase.isUnderWay] at h ⊢

theorem acknowledge_of_completed (h : l.phase = .completed) :
    l.acknowledge = .ok (l.enter .idle) := by
  simp [acknowledge, transition, h, Phase.mayEnter]

theorem acknowledge_of_not_completed (h : l.phase ≠ .completed) :
    l.acknowledge = .error (l.refusal .idle) := by
  simp [acknowledge, h]

end Lifecycle

namespace Station

variable {σ : Type}

/-! ## Parts -/

/-- A message that is sent to an open worker comes to the end of its queue. -/
theorem send_of_open (thread : String) {id : Nat} {w : Worker σ} (m : Message) {s : Station σ}
    (hw : s.worker? id = some w) (ho : w.isOpen = true) :
    ∃ log, s.send thread id m = (.ok (), { s with
      workers := s.workers.set id { w with queue := w.queue ++ [m] }, log := log }) := by
  simp only [send, hw, Worker.enqueue, ho, if_true]
  exact ⟨_, rfl⟩

/-- Nobody takes a message that is sent elsewhere. -/
theorem send_of_closed (thread : String) {id : Nat} (m : Message) {s : Station σ}
    (h : ∀ w, s.worker? id = some w → w.isOpen = false) :
    ∃ log, s.send thread id m = (.error .workerStopped, { s with log := log }) := by
  cases hw : s.worker? id with
  | none => exact ⟨s.log, by simp only [send, hw]⟩
  | some w =>
    simp only [send, hw, Worker.enqueue, h w hw]
    exact ⟨_, rfl⟩

/-- Whether a worker with this number is there and open, as its case distinction. -/
theorem open_or_closed (id : Nat) (s : Station σ) :
    (∃ w, s.worker? id = some w ∧ w.isOpen = true) ∨
      ∀ w, s.worker? id = some w → w.isOpen = false := by
  cases hw : s.worker? id with
  | none => exact .inr fun w h => by cases h
  | some w =>
    cases ho : w.isOpen with
    | true => exact .inl ⟨w, rfl, ho⟩
    | false => exact .inr fun v hv => Option.some.inj hv ▸ ho

theorem mem_workers_of_worker? {id : Nat} {w : Worker σ} {s : Station σ}
    (h : s.worker? id = some w) : id < s.workers.length :=
  (List.getElem?_eq_some_iff.1 h).1

/-- The two messages of a run, sent to an open worker. -/
theorem sendRun_of_open {id : Nat} (run : RunId) {w : Worker σ} {s : Station σ}
    (hw : s.worker? id = some w) (ho : w.isOpen = true) :
    ∃ log, s.sendRun id run = (.ok (), { s with
      workers := s.workers.set id
        { w with queue := w.queue ++ [.login none, .requestTest (.run run)] }
      log := log }) := by
  obtain ⟨log₁, h₁⟩ := send_of_open caller (.login none) hw ho
  have hw' : worker? { s with
      workers := s.workers.set id { w with queue := w.queue ++ [.login none] }, log := log₁ } id =
      some { w with queue := w.queue ++ [.login none] } := by
    simp [worker?, mem_workers_of_worker? hw]
  obtain ⟨log₂, h₂⟩ := send_of_open caller (.requestTest (.run run)) hw' ho
  refine ⟨log₂, ?_⟩
  simp only [sendRun, h₁, h₂]
  simp

theorem sendRun_of_closed {id : Nat} (run : RunId) {s : Station σ}
    (h : ∀ w, s.worker? id = some w → w.isOpen = false) :
    ∃ log, s.sendRun id run = (.error .workerStopped, { s with log := log }) := by
  obtain ⟨log, hs⟩ := send_of_closed caller (.login none) h
  exact ⟨log, by simp only [sendRun, hs]⟩

/-- Giving up ends a run that is on its way. -/
theorem giveUp_of_underWay (thread : String) {s : Station σ}
    (h : s.lifecycle.phase.isUnderWay = true) :
    ∃ log, s.giveUp thread = (.ok s.lifecycle.phase, { s with
      current := none
      lifecycle := s.lifecycle.enter .idle
      bus := s.bus.publishAll [.phaseChanged s.lifecycle.phase .idle]
      log := log }) := by
  simp only [giveUp, abort, settleMove, Lifecycle.abort_of_underWay h]
  exact ⟨_, rfl⟩

theorem giveUp_of_not_underWay (thread : String) {s : Station σ}
    (h : s.lifecycle.phase.isUnderWay = false) :
    ∃ f, s.giveUp thread = (.error f, { s with current := none }) := by
  refine ⟨s.lifecycle.refusal .idle, ?_⟩
  simp [giveUp, abort, settleMove, Lifecycle.abort_of_not_underWay h, notes, Log.addAll]

/-! ## Starting a run -/

theorem startTest_of_unbound {s : Station σ} (h : s.bound = none) :
    s.startTest = (.error .notBound, s) := by
  simp only [startTest, h]

theorem startTest_of_busy {s : Station σ} {id : Nat} (hb : s.bound = some id)
    (hp : s.lifecycle.phase ≠ .idle) :
    ∃ log, s.startTest = (.ok false, { s with log := log }) := by
  have hr : s.lifecycle.beginRun = none := by simp [Lifecycle.beginRun, hp]
  simp only [startTest, hb, beginRun, hr]
  rw [← hb]
  exact ⟨_, rfl⟩

/-- A run that reaches its worker. -/
theorem startTest_of_open {s : Station σ} {id : Nat} {w : Worker σ} (hb : s.bound = some id)
    (hp : s.lifecycle.phase = .idle) (hw : s.worker? id = some w) (ho : w.isOpen = true) :
    ∃ log, s.startTest = (.ok true, { s with
      lifecycle := s.lifecycle.enter .preparing
      current := some ⟨s.begun⟩
      begun := s.begun + 1
      bus := s.bus.publishAll [.phaseChanged .idle .preparing]
      workers := s.workers.set id
        { w with queue := w.queue ++ [.login none, .requestTest (.run ⟨s.begun⟩)] }
      log := log }) := by
  have hr : s.lifecycle.beginRun = some (s.lifecycle.enter .preparing) := by
    simp [Lifecycle.beginRun, hp]
  simp only [startTest, hb, beginRun, hr]
  -- The messages are sent from a station that differs in the lifecycle, the run, the bus and the log.
  generalize hs : announceMove _ _ _ _ = t
  have hwt : t.worker? id = some w := by rw [← hs]; exact hw
  obtain ⟨log, ht⟩ := sendRun_of_open ⟨s.begun⟩ hwt ho
  refine ⟨log, ?_⟩
  simp only [note] at ht ⊢
  rw [ht, ← hs, ← hb]
  rfl

/-- A run that does not reach its worker is given up at once. -/
theorem startTest_of_closed {s : Station σ} {id : Nat} (hb : s.bound = some id)
    (hp : s.lifecycle.phase = .idle) (h : ∀ w, s.worker? id = some w → w.isOpen = false) :
    ∃ log, s.startTest = (.error .workerStopped, { s with
      lifecycle := (s.lifecycle.enter .preparing).enter .idle
      current := none
      begun := s.begun + 1
      bus := s.bus.publishAll [.phaseChanged .idle .preparing, .phaseChanged .preparing .idle]
      log := log }) := by
  have hr : s.lifecycle.beginRun = some (s.lifecycle.enter .preparing) := by
    simp [Lifecycle.beginRun, hp]
  simp only [startTest, hb, beginRun, hr]
  generalize hs : announceMove _ _ _ _ = t
  have hwt : ∀ w, t.worker? id = some w → w.isOpen = false := by rw [← hs]; exact h
  obtain ⟨log, ht⟩ := sendRun_of_closed ⟨s.begun⟩ hwt
  simp only [note] at ht ⊢
  rw [ht]
  dsimp only
  generalize hu : Station.mk _ _ _ _ _ _ _ _ _ _ = u
  have huw : u.lifecycle.phase.isUnderWay = true := by rw [← hu, ← hs]; rfl
  obtain ⟨log', hg⟩ := giveUp_of_underWay caller huw
  refine ⟨log', ?_⟩
  rw [hg, ← hu, ← hs, ← hb]
  rfl

/-- All that can come of starting a run. -/
inductive Beginning (s : Station σ) : Except Failure Bool × Station σ → Prop
  | unbound : Beginning s (.error .notBound, s)
  | busy (hp : s.lifecycle.phase ≠ .idle) (log : Log) :
    Beginning s (.ok false, { s with log := log })
  | reached {id : Nat} {w : Worker σ} (hp : s.lifecycle.phase = .idle)
    (hw : s.worker? id = some w) (ho : w.isOpen = true) (log : Log) :
    Beginning s (.ok true, { s with
      lifecycle := s.lifecycle.enter .preparing
      current := some ⟨s.begun⟩
      begun := s.begun + 1
      bus := s.bus.publishAll [.phaseChanged .idle .preparing]
      workers := s.workers.set id
        { w with queue := w.queue ++ [.login none, .requestTest (.run ⟨s.begun⟩)] }
      log := log })
  | unreached (hp : s.lifecycle.phase = .idle) (log : Log) :
    Beginning s (.error .workerStopped, { s with
      lifecycle := (s.lifecycle.enter .preparing).enter .idle
      current := none
      begun := s.begun + 1
      bus := s.bus.publishAll [.phaseChanged .idle .preparing, .phaseChanged .preparing .idle]
      log := log })

theorem beginning_startTest (s : Station σ) : Beginning s s.startTest := by
  cases hb : s.bound with
  | none =>
    rw [s.startTest_of_unbound hb]
    exact .unbound
  | some id =>
    by_cases hp : s.lifecycle.phase = .idle
    · rcases s.open_or_closed id with ⟨w, hw, ho⟩ | hc
      · obtain ⟨log, h⟩ := startTest_of_open hb hp hw ho
        rw [h]
        exact .reached hp hw ho log
      · obtain ⟨log, h⟩ := startTest_of_closed hb hp hc
        rw [h]
        exact .unreached hp log
    · obtain ⟨log, h⟩ := startTest_of_busy hb hp
      rw [h]
      exact .busy hp log

/-- A run begun crashes no thread. -/
theorem uncrashed_of_startTest {s : Station σ} (h : Uncrashed s.startTest.2.workers) :
    Uncrashed s.workers := by
  have hs := s.beginning_startTest
  generalize s.startTest = x at h hs
  cases hs with
  | unbound => exact h
  | busy => exact h
  | reached hp hw ho log =>
    refine uncrashed_of_set hw ?_ h
    exact fun hc => hc
  | unreached => exact h

/-! ## Acknowledging -/

theorem acknowledgeResults_of_completed {s : Station σ} (hp : s.lifecycle.phase = .completed) :
    ∃ log, s.acknowledgeResults = (true, { s with
      lifecycle := s.lifecycle.enter .idle
      bus := s.bus.publishAll [.phaseChanged .completed .idle]
      log := log }) := by
  simp only [acknowledgeResults, acknowledge, settleMove, Lifecycle.acknowledge_of_completed hp]
  exact ⟨_, rfl⟩

theorem acknowledgeResults_of_not_completed {s : Station σ}
    (hp : s.lifecycle.phase ≠ .completed) :
    ∃ log, s.acknowledgeResults = (false, { s with log := log }) := by
  simp only [acknowledgeResults, acknowledge, settleMove, Lifecycle.acknowledge_of_not_completed hp]
  exact ⟨_, rfl⟩

/-! ## Replies to a run -/

/-- A record to be uploaded comes to the end of the queue of the bound worker, or nowhere. -/
theorem submit_spec (run : RunId) (r : Record) (s : Station σ) : ∃ workers log,
    s.submit run r = { s with workers := workers, log := log } ∧ Staffed s.workers workers := by
  unfold submit
  split
  · exact ⟨s.workers, s.log, rfl, .same⟩
  · next id hb =>
    obtain ⟨workers, log, hs, hw⟩ :=
      s.send_spec Worker.threadName id (m := .report r (some (.run run))) rfl
    split
    · next h =>
      rw [h] at hs
      exact ⟨workers, log, hs, hw⟩
    · next f t h =>
      rw [h] at hs
      subst hs
      exact ⟨workers, _, rfl, hw⟩

/-- The test of the run begins. -/
theorem onReply_started {run : RunId} {s : Station σ} (hc : s.current = some run)
    (hp : s.lifecycle.phase = .preparing) :
    ∃ log, s.onReply run .started = { s with
      lifecycle := s.lifecycle.enter .testing
      bus := s.bus.publishAll [.phaseChanged .preparing .testing]
      log := log } := by
  have ht : s.lifecycle.transition .testing = .ok (s.lifecycle.enter .testing) := by
    simp [Lifecycle.transition, hp, Phase.mayEnter]
  simp only [onReply, hc, if_true, enterTesting, transition, settleMove, ht, hp]
  rw [← hc]
  exact ⟨_, rfl⟩

/-- The test of the run ends with a valid record, which is announced and then uploaded. -/
theorem onReply_finished_of_valid {run : RunId} {r : Record} {s : Station σ}
    (hc : s.current = some run) (hp : s.lifecycle.phase = .testing) (hr : r.isValid = true) :
    ∃ workers log, s.onReply run (.finished r) = { s with
      lifecycle := { s.lifecycle.enter .completed with latest := some r }
      bus := s.bus.publishAll [.phaseChanged .testing .completed, .testCompleted r]
      workers := workers
      log := log } ∧ Staffed s.workers workers := by
  have ht : s.lifecycle.complete r =
      .ok { s.lifecycle.enter .completed with latest := some r } := by
    simp [Lifecycle.complete, Lifecycle.transition, hr, hp, Phase.mayEnter, Except.map]
  simp only [onReply, hc, if_true, concludeRun, hr, complete, settleMove, ht]
  generalize hu : announce _ _ _ = u
  obtain ⟨workers, log, h, hw⟩ := u.submit_spec run r
  refine ⟨workers, log, ?_, ?_⟩
  · rw [h, ← hu, ← hc]
    rfl
  · rw [← hu] at hw
    exact hw

/-- The test of the run ends with a record that says why there is none. -/
theorem onReply_finished_of_invalid {run : RunId} {r : Record} {s : Station σ}
    (hc : s.current = some run) (hp : s.lifecycle.phase.isUnderWay = true)
    (hr : r.isValid = false) :
    ∃ log, s.onReply run (.finished r) = { s with
      current := none
      lifecycle := s.lifecycle.enter .idle
      bus := s.bus.publishAll [.phaseChanged s.lifecycle.phase .idle, .testFailed r.reason]
      log := log } := by
  simp only [onReply, hc, if_true, concludeRun, hr]
  generalize hu : note _ _ = u
  have hup : u.lifecycle.phase.isUnderWay = true := by rw [← hu]; exact hp
  obtain ⟨log, h⟩ := giveUp_of_underWay Worker.threadName hup
  simp only [h]
  rw [← hu]
  exact ⟨_, rfl⟩

/-! ## Workers under replies -/

theorem staffed_of_eq {ws ws' : List (Worker σ)} (h : ws' = ws) : Staffed ws ws' := by
  rw [h]
  exact .same

theorem settleMove_workers (thread : String) (attempt : Except Failure Lifecycle)
    (refused : List Note) (s : Station σ) :
    (s.settleMove thread attempt refused).2.workers = s.workers := by
  cases attempt <;> rfl

theorem giveUp_workers (thread : String) (s : Station σ) :
    (s.giveUp thread).2.workers = s.workers := by
  cases hp : s.lifecycle.phase.isUnderWay with
  | true =>
    obtain ⟨log, h⟩ := giveUp_of_underWay thread hp
    rw [h]
  | false =>
    obtain ⟨f, h⟩ := giveUp_of_not_underWay thread hp
    rw [h]

theorem enterTesting_workers (run : RunId) (s : Station σ) :
    (s.enterTesting run).workers = s.workers := by
  have hw : (s.transition Worker.threadName .testing).2.workers = s.workers :=
    s.settleMove_workers _ _ _
  simp only [enterTesting]
  split
  · next h =>
    rw [h] at hw
    exact hw
  · next h =>
    rw [h] at hw
    exact hw

theorem staffed_concludeRun (run : RunId) (r : Record) (s : Station σ) :
    Staffed s.workers (s.concludeRun run r).workers := by
  simp only [concludeRun]
  split
  · have hw : (s.complete Worker.threadName r).2.workers = s.workers :=
      s.settleMove_workers _ _ _
    split
    · next t h =>
      rw [h] at hw
      generalize hu : announce _ _ _ = u
      obtain ⟨workers, log, hs, hst⟩ := u.submit_spec run r
      have huw : u.workers = s.workers := by
        rw [← hu]
        exact hw
      rw [hs, ← huw]
      exact hst
    · next h =>
      rw [h] at hw
      exact staffed_of_eq hw
  · generalize hu : note s _ = u
    have hw : (u.giveUp Worker.threadName).2.workers = s.workers := by
      rw [giveUp_workers, ← hu]
      rfl
    refine staffed_of_eq ?_
    split
    · next h =>
      rw [h] at hw
      exact hw
    · next h =>
      rw [h] at hw
      exact hw

/-- Whatever the reply and the phase. -/
theorem staffed_onReply (run : RunId) (reply : Reply) (s : Station σ) :
    Staffed s.workers (s.onReply run reply).workers := by
  cases reply with
  | reported receipt => exact .same
  | reportFailed reason => exact .same
  | started =>
    simp only [onReply]
    split
    · exact staffed_of_eq (s.enterTesting_workers run)
    · exact .same
  | finished r =>
    simp only [onReply]
    split
    · exact s.staffed_concludeRun run r
    · exact .same

theorem staffed_perform (e : Effect) (s : Station σ) : Staffed s.workers (s.perform e).workers := by
  unfold perform
  split
  · exact .same
  · unfold deposit
    split <;> exact .same
  · exact s.staffed_onReply _ _

end Station
end LinkTest
