import LinkTest.Proofs.Station.Handles

/-!
# What a move publishes

Who listens does not matter to what a station does: at another bus, and with another log, the same
move leaves the same station and publishes the same events. What a move publishes is therefore what
a subscription made just before it would hear of it.
-/

namespace LinkTest

namespace Station

variable {σ : Type}

/-- The same station at another bus and with another log. -/
def wired (b : Bus) (log : Log) (s : Station σ) : Station σ := { s with bus := b, log := log }

/-! ## Uploads -/

/-- Where the upload of a run comes to: the end of the queue of the worker that is bound, if that
one is there and open. -/
inductive Submitted (s : Station σ) (run : RunId) (r : Record) : List (Worker σ) → Prop
  | nowhere : Submitted s run r s.workers
  | sent {id : Nat} {w : Worker σ} (hb : s.bound = some id) (hw : s.worker? id = some w)
    (ho : w.isOpen = true) :
    Submitted s run r
      (s.workers.set id { w with queue := w.queue ++ [.report r (some (.run run))] })

theorem submit_of_open (run : RunId) (r : Record) {s : Station σ} {id : Nat} {w : Worker σ}
    (hb : s.bound = some id) (hw : s.worker? id = some w) (ho : w.isOpen = true) :
    ∃ log, s.submit run r = { s with
      workers := s.workers.set id { w with queue := w.queue ++ [.report r (some (.run run))] }
      log := log } := by
  obtain ⟨log, hs⟩ := send_of_open Worker.threadName (.report r (some (.run run))) hw ho
  refine ⟨log, ?_⟩
  simp only [submit, hb, hs]

theorem submit_of_closed (run : RunId) (r : Record) {s : Station σ}
    (h : ∀ id w, s.bound = some id → s.worker? id = some w → w.isOpen = false) :
    ∃ log, s.submit run r = { s with log := log } := by
  cases hb : s.bound with
  | none =>
    refine ⟨s.log, ?_⟩
    simp only [submit, hb]
    rw [← hb]
  | some id =>
    obtain ⟨log, hs⟩ :=
      send_of_closed Worker.threadName (.report r (some (.run run))) fun w => h id w hb
    simp only [submit, hb, hs]
    rw [← hb]
    exact ⟨_, rfl⟩

theorem submitted (run : RunId) (r : Record) (s : Station σ) :
    ∃ workers, Submitted s run r workers ∧
      ∀ t : Station σ, t.bound = s.bound → t.workers = s.workers →
        ∃ log, t.submit run r = { t with workers := workers, log := log } := by
  by_cases hopen : ∃ id w, s.bound = some id ∧ s.worker? id = some w ∧ w.isOpen = true
  · obtain ⟨id, w, hb, hw, ho⟩ := hopen
    refine ⟨_, .sent hb hw ho, fun t ht hws => ?_⟩
    rw [← hws]
    exact submit_of_open run r (ht.trans hb) (by rw [worker?, hws]; exact hw) ho
  · refine ⟨s.workers, .nowhere, fun t ht hws => ?_⟩
    have hclosed : ∀ id w, t.bound = some id → t.worker? id = some w → w.isOpen = false := by
      intro id w hb hw
      rw [worker?, hws] at hw
      by_contra ho
      exact hopen ⟨id, w, ht.symm.trans hb, hw, by simpa using ho⟩
    rw [← hws]
    exact submit_of_closed run r hclosed

/-! ## Replies -/

/-- All that can come of a reply to a run: the events that are published, and the station that is
left, up to its bus and its log. -/
inductive Replied (s : Station σ) (run : RunId) : Reply → List Event → Station σ → Prop
  | ignored (reply : Reply) : Replied s run reply [] s
  | uploaded (receipt : Receipt) : Replied s run (.reported receipt) [.reportRouter receipt] s
  | begun (hc : s.current = some run) (hp : s.lifecycle.phase = .preparing) :
    Replied s run .started [.phaseChanged .preparing .testing]
      { s with lifecycle := s.lifecycle.enter .testing }
  | completed {r : Record} {workers : List (Worker σ)} (hc : s.current = some run)
    (hp : s.lifecycle.phase = .testing) (hr : r.isValid = true)
    (hw : s.Submitted run r workers) :
    Replied s run (.finished r) [.phaseChanged .testing .completed, .testCompleted r]
      { s with
        lifecycle := { s.lifecycle.enter .completed with latest := some r }
        workers := workers }
  | failed {r : Record} (hc : s.current = some run) (hp : s.lifecycle.phase.isUnderWay = true)
    (hr : r.isValid = false) :
    Replied s run (.finished r) [.phaseChanged s.lifecycle.phase .idle, .testFailed r.reason]
      { s with lifecycle := s.lifecycle.enter .idle, current := none }
  | stray {r : Record} (hc : s.current = some run) (hp : s.lifecycle.phase.isUnderWay = false)
    (hr : r.isValid = false) :
    Replied s run (.finished r) [.testFailed r.reason] { s with current := none }

theorem onReply_of_stale {run : RunId} {s : Station σ} (hc : s.current ≠ some run) {reply : Reply}
    (hr : reply = .started ∨ ∃ r, reply = .finished r) :
    ∃ log, s.onReply run reply = { s with log := log } := by
  rcases hr with rfl | ⟨r, rfl⟩ <;> exact ⟨_, if_neg hc⟩

theorem onReply_started_of_not_preparing {run : RunId} {s : Station σ}
    (hp : s.lifecycle.phase ≠ .preparing) :
    ∃ log, s.onReply run .started = { s with log := log } := by
  by_cases hc : s.current = some run
  · have ht : s.lifecycle.transition .testing = .error (s.lifecycle.refusal .testing) := by
      cases hp' : s.lifecycle.phase <;>
        simp [Lifecycle.transition, hp', Phase.mayEnter] at hp ⊢
    simp only [onReply, hc, if_true, enterTesting, transition, settleMove, ht]
    rw [← hc]
    exact ⟨_, rfl⟩
  · exact onReply_of_stale hc (.inl rfl)

theorem onReply_finished_of_not_testing {run : RunId} {r : Record} {s : Station σ}
    (hp : s.lifecycle.phase ≠ .testing) (hr : r.isValid = true) :
    ∃ log, s.onReply run (.finished r) = { s with log := log } := by
  by_cases hc : s.current = some run
  · have ht : s.lifecycle.complete r = .error (s.lifecycle.refusal .completed) := by
      cases hp' : s.lifecycle.phase <;>
        simp [Lifecycle.complete, Lifecycle.transition, hr, hp', Phase.mayEnter, Except.map] at hp ⊢
    simp only [onReply, hc, if_true, concludeRun, hr, complete, settleMove, ht]
    rw [← hc]
    exact ⟨_, rfl⟩
  · exact onReply_of_stale hc (.inr ⟨r, rfl⟩)

/-- The upload goes where it would have gone before the record was announced. -/
theorem onReply_finished_of_testing {run : RunId} {r : Record} {s : Station σ}
    {workers : List (Worker σ)} (hc : s.current = some run) (hp : s.lifecycle.phase = .testing)
    (hr : r.isValid = true)
    (hs : ∀ t : Station σ, t.bound = s.bound → t.workers = s.workers →
      ∃ log, t.submit run r = { t with workers := workers, log := log }) :
    ∃ log, s.onReply run (.finished r) = { s with
      lifecycle := { s.lifecycle.enter .completed with latest := some r }
      bus := s.bus.publishAll [.phaseChanged .testing .completed, .testCompleted r]
      workers := workers
      log := log } := by
  have ht : s.lifecycle.complete r =
      .ok { s.lifecycle.enter .completed with latest := some r } := by
    simp [Lifecycle.complete, Lifecycle.transition, hr, hp, Phase.mayEnter, Except.map]
  simp only [onReply, hc, if_true, concludeRun, hr, complete, settleMove, ht]
  generalize hu : announce _ _ _ = u
  obtain ⟨log, h⟩ := hs u (by rw [← hu]; rfl) (by rw [← hu]; rfl)
  refine ⟨log, ?_⟩
  rw [h, ← hu, ← hc]
  rfl

theorem onReply_finished_of_stray {run : RunId} {r : Record} {s : Station σ}
    (hc : s.current = some run) (hp : s.lifecycle.phase.isUnderWay = false)
    (hr : r.isValid = false) :
    ∃ log, s.onReply run (.finished r) = { s with
      current := none
      bus := s.bus.publishAll [.testFailed r.reason]
      log := log } := by
  simp only [onReply, hc, if_true, concludeRun, hr]
  generalize hu : note s _ = u
  have hup : u.lifecycle.phase.isUnderWay = false := by rw [← hu]; exact hp
  obtain ⟨f, h⟩ := giveUp_of_not_underWay Worker.threadName hup
  simp only [h]
  rw [← hu]
  exact ⟨_, rfl⟩

theorem replied (run : RunId) (reply : Reply) (s : Station σ) :
    ∃ news t, Replied s run reply news t ∧
      ∀ b log, ∃ log', (s.wired b log).onReply run reply = t.wired (b.publishAll news) log' := by
  cases reply with
  | reported receipt => exact ⟨_, s, .uploaded receipt, fun b log => ⟨_, rfl⟩⟩
  | reportFailed reason => exact ⟨[], s, .ignored _, fun b log => ⟨_, rfl⟩⟩
  | started =>
    by_cases h : s.current = some run ∧ s.lifecycle.phase = .preparing
    · exact ⟨_, _, .begun h.1 h.2, fun b log =>
        onReply_started (s := s.wired b log) h.1 h.2⟩
    · refine ⟨[], s, .ignored _, fun b log => ?_⟩
      by_cases hc : s.current = some run
      · exact onReply_started_of_not_preparing (s := s.wired b log) fun hp => h ⟨hc, hp⟩
      · exact onReply_of_stale (s := s.wired b log) hc (.inl rfl)
  | finished r =>
    by_cases hc : s.current = some run
    · cases hr : r.isValid with
      | true =>
        by_cases hp : s.lifecycle.phase = .testing
        · obtain ⟨workers, hw, hs⟩ := s.submitted run r
          exact ⟨_, _, .completed hc hp hr hw, fun b log =>
            onReply_finished_of_testing (s := s.wired b log) hc hp hr fun t => hs t⟩
        · exact ⟨[], s, .ignored _, fun b log =>
            onReply_finished_of_not_testing (s := s.wired b log) hp hr⟩
      | false =>
        cases hp : s.lifecycle.phase.isUnderWay with
        | true => exact ⟨_, _, .failed hc hp hr, fun b log =>
            onReply_finished_of_invalid (s := s.wired b log) hc hp hr⟩
        | false => exact ⟨_, _, .stray hc hp hr, fun b log =>
            onReply_finished_of_stray (s := s.wired b log) hc hp hr⟩
    · exact ⟨[], s, .ignored _, fun b log =>
        onReply_of_stale (s := s.wired b log) hc (.inr ⟨r, rfl⟩)⟩

/-! ## Owners and holders of handles -/

theorem startWorker_wired (id : Nat) (s : Station σ) (b : Bus) (log : Log) :
    ∃ log', ((s.wired b log).startWorker id).2 = (s.startWorker id).2.wired b log' := by
  have hs : (s.wired b log).worker? id = s.worker? id := rfl
  rw [startWorker, startWorker, hs]
  cases s.worker? id with
  | none => exact ⟨log, rfl⟩
  | some w =>
    dsimp only
    cases w.start <;> exact ⟨_, rfl⟩

theorem stopWorker_wired (id : Nat) (s : Station σ) (b : Bus) (log : Log) :
    ∃ log', (s.wired b log).stopWorker id = (s.stopWorker id).wired b log' := by
  have hs : (s.wired b log).worker? id = s.worker? id := rfl
  rw [stopWorker, stopWorker, hs]
  cases s.worker? id with
  | none => exact ⟨log, rfl⟩
  | some w => exact ⟨_, rfl⟩

theorem dropWorker_wired (id : Nat) (s : Station σ) (b : Bus) (log : Log) :
    (s.wired b log).dropWorker id = (s.dropWorker id).wired b log := by
  have hs : (s.wired b log).worker? id = s.worker? id := rfl
  rw [dropWorker, dropWorker, hs]
  cases s.worker? id <;> rfl

theorem hold_wired (id : Nat) (s : Station σ) (b : Bus) (log : Log) :
    ((s.wired b log).hold id).2 = (s.hold id).2.wired b log := by
  have hs : (s.wired b log).worker? id = s.worker? id := rfl
  rw [hold, hold, hs]
  cases s.worker? id with
  | none => rfl
  | some w =>
    dsimp only
    split <;> rfl

theorem send_wired (thread : String) (id : Nat) (m : Message) (s : Station σ) (b : Bus)
    (log : Log) :
    ∃ log', ((s.wired b log).send thread id m).2 = (s.send thread id m).2.wired b log' := by
  have hs : (s.wired b log).worker? id = s.worker? id := rfl
  rw [send, send, hs]
  cases s.worker? id with
  | none => exact ⟨log, rfl⟩
  | some w =>
    dsimp only
    cases w.enqueue m <;> exact ⟨_, rfl⟩

/-! ## Effects -/

/-- All that can come of an effect that is carried out, in the same way. -/
inductive Performed (s : Station σ) : Effect → List Event → Station σ → Prop
  | noted (n : Note) : Performed s (.note n) [] s
  | deposited (id : Nat) (kind : TargetKind) (reply : Reply) (targets : List Target) :
    Performed s (.reply (.target id kind) reply) [] { s with targets := targets }
  | replied {run : RunId} {reply : Reply} {news : List Event} {t : Station σ}
    (h : Replied s run reply news t) : Performed s (.reply (.run run) reply) news t

theorem performed (e : Effect) (s : Station σ) :
    ∃ news t, Performed s e news t ∧
      ∀ b log, ∃ log', (s.wired b log).perform e = t.wired (b.publishAll news) log' := by
  cases e with
  | note n => exact ⟨[], s, .noted n, fun b log => ⟨_, rfl⟩⟩
  | reply t reply =>
    cases t with
    | target id kind =>
      by_cases hw : (s.targets[id]?).any Target.wanted
      · refine ⟨[], _, .deposited id kind reply (s.targets.modify id fun t =>
          { t with received := t.received ++ [reply] }), fun b log => ⟨log, ?_⟩⟩
        exact if_pos hw
      · refine ⟨[], _, .deposited id kind reply s.targets, fun b log => ?_⟩
        obtain ⟨log', h⟩ : ∃ log', (s.wired b log).deposit id reply = s.wired b log' :=
          ⟨_, if_neg hw⟩
        exact ⟨log', h⟩
    | run run =>
      obtain ⟨news, t, h, ht⟩ := s.replied run reply
      exact ⟨news, t, .replied h, ht⟩

/-- Effects neither bind a worker nor begin a run. -/
theorem Performed.frame {s t : Station σ} {e : Effect} {news : List Event}
    (h : s.Performed e news t) : t.bound = s.bound ∧ t.begun = s.begun := by
  cases h with
  | noted n => exact ⟨rfl, rfl⟩
  | deposited id kind reply targets => exact ⟨rfl, rfl⟩
  | replied h => cases h <;> exact ⟨rfl, rfl⟩

end Station

namespace Scene

variable {σ : Type} [Server σ]

def wired (b : Bus) (log : Log) (c : Scene σ) : Scene σ :=
  { c with station := c.station.wired b log }

/-- All that can come of a move that is not about subscriptions, in the same way. -/
inductive Made (c : Scene σ) : Move σ → List Event → Scene σ → Prop
  | aside {m : Move σ} (hm : m.isDriving = false) : Made c m [] (c.apply m)
  | taken (id : Nat) : Made c (.take id) [] (c.apply (.take id))
  | refused (m : Move σ) (hm : m = .startTest ∨ m = .acknowledge) : Made c m [] c
  | reached {id : Nat} {w : Worker σ} (hb : c.station.bound = some id) (hp : c.phase = .idle)
    (hw : c.station.worker? id = some w) (ho : w.isOpen = true) :
    Made c .startTest [.phaseChanged .idle .preparing] { c with station := { c.station with
      lifecycle := c.station.lifecycle.enter .preparing
      current := some ⟨c.station.begun⟩
      begun := c.station.begun + 1
      workers := c.station.workers.set id
        { w with queue := w.queue ++ [.login none, .requestTest (.run ⟨c.station.begun⟩)] } } }
  | unreached (hp : c.phase = .idle) :
    Made c .startTest [.phaseChanged .idle .preparing, .phaseChanged .preparing .idle]
      { c with station := { c.station with
        lifecycle := (c.station.lifecycle.enter .preparing).enter .idle
        current := none
        begun := c.station.begun + 1 } }
  | acknowledged (hp : c.phase = .completed) :
    Made c .acknowledge [.phaseChanged .completed .idle]
      { c with station := { c.station with lifecycle := c.station.lifecycle.enter .idle } }
  | waited (id : Nat) : Made c (.carry id) [] c
  | carried {id : Nat} {e : Effect} {rest : List Effect} {news : List Event} {t : Station σ}
    (hp : c.pending id = e :: rest) (h : c.station.Performed e news t) :
    Made c (.carry id) news
      { c with station := t, pending := Function.update c.pending id rest }

theorem made_startTest (c : Scene σ) : ∃ news c', Made c .startTest news c' ∧
    ∀ b log, ∃ log', (c.wired b log).apply .startTest = c'.wired (b.publishAll news) log' := by
  have hlift : ∀ {s s' : Station σ} {r : Except Failure Bool}, s.startTest = (r, s') →
      (Scene.mk s c.pending c.received).apply .startTest = ⟨s', c.pending, c.received⟩ := by
    intro s s' r h
    simp only [apply, h]
  cases hb : c.station.bound with
  | none =>
    exact ⟨[], c, .refused _ (.inl rfl), fun b log =>
      ⟨log, hlift (Station.startTest_of_unbound (s := c.station.wired b log) hb)⟩⟩
  | some id =>
    by_cases hp : c.phase = .idle
    · rcases c.station.open_or_closed id with ⟨w, hw, ho⟩ | hc
      · refine ⟨_, _, .reached hb hp hw ho, fun b log => ?_⟩
        obtain ⟨log', h⟩ := Station.startTest_of_open (s := c.station.wired b log) hb hp hw ho
        exact ⟨log', hlift h⟩
      · refine ⟨_, _, .unreached hp, fun b log => ?_⟩
        obtain ⟨log', h⟩ := Station.startTest_of_closed (s := c.station.wired b log) hb hp hc
        exact ⟨log', hlift h⟩
    · refine ⟨[], c, .refused _ (.inl rfl), fun b log => ?_⟩
      obtain ⟨log', h⟩ := Station.startTest_of_busy (s := c.station.wired b log) hb hp
      exact ⟨log', hlift h⟩

theorem made_acknowledge (c : Scene σ) : ∃ news c', Made c .acknowledge news c' ∧
    ∀ b log, ∃ log', (c.wired b log).apply .acknowledge = c'.wired (b.publishAll news) log' := by
  have hlift : ∀ {s s' : Station σ} {r : Bool}, s.acknowledgeResults = (r, s') →
      (Scene.mk s c.pending c.received).apply .acknowledge = ⟨s', c.pending, c.received⟩ := by
    intro s s' r h
    simp only [apply, h]
  by_cases hp : c.phase = .completed
  · refine ⟨_, _, .acknowledged hp, fun b log => ?_⟩
    obtain ⟨log', h⟩ := Station.acknowledgeResults_of_completed (s := c.station.wired b log) hp
    exact ⟨log', hlift h⟩
  · refine ⟨[], c, .refused _ (.inr rfl), fun b log => ?_⟩
    obtain ⟨log', h⟩ := Station.acknowledgeResults_of_not_completed (s := c.station.wired b log) hp
    exact ⟨log', hlift h⟩

theorem made_carry (id : Nat) (c : Scene σ) : ∃ news c', Made c (.carry id) news c' ∧
    ∀ b log, ∃ log', (c.wired b log).apply (.carry id) = c'.wired (b.publishAll news) log' := by
  cases hp : c.pending id with
  | nil =>
    refine ⟨[], c, .waited id, fun b log => ⟨log, ?_⟩⟩
    have hw : (c.wired b log).pending id = [] := hp
    simp only [apply, carry, hw]
    rfl
  | cons e rest =>
    obtain ⟨news, t, h, ht⟩ := c.station.performed e
    refine ⟨news, _, .carried hp h, fun b log => ?_⟩
    obtain ⟨log', hb⟩ := ht b log
    refine ⟨log', ?_⟩
    rw [carry_of_cons (c := c.wired b log) hp]
    exact congrArg (fun s => Scene.mk s (Function.update c.pending id rest) c.received) hb

theorem take_wired (id : Nat) (c : Scene σ) (b : Bus) (log : Log) :
    (c.wired b log).take id = (c.take id).wired b log := by
  have hs : (c.wired b log).station.worker? id = c.station.worker? id := rfl
  have hp : (c.wired b log).pending = c.pending := rfl
  simp only [take, hs, hp]
  cases c.station.worker? id with
  | none => rfl
  | some w =>
    dsimp only
    split <;> rfl

theorem aside_wired {m : Move σ} (hm : m.isDriving = false) (hl : m.isListening = false)
    (c : Scene σ) (b : Bus) (log : Log) :
    ∃ log', (c.wired b log).apply m = (c.apply m).wired b log' := by
  have hlift : ∀ {s s' : Station σ}, (∃ log', s = s'.wired b log') →
      ∃ log', { c with station := s } = ({ c with station := s' } : Scene σ).wired b log' := by
    rintro s s' ⟨log', rfl⟩
    exact ⟨log', rfl⟩
  cases m with
  | addWorker server own limit => exact ⟨log, rfl⟩
  | startWorker id => exact hlift (c.station.startWorker_wired id b log)
  | stopWorker id => exact hlift (c.station.stopWorker_wired id b log)
  | dropWorker id => exact hlift ⟨log, c.station.dropWorker_wired id b log⟩
  | hold id => exact hlift ⟨log, c.station.hold_wired id b log⟩
  | resume id => exact ⟨log, rfl⟩
  | login id credentials => exact hlift (c.station.send_wired _ id _ b log)
  | requestTest id target kind => exact hlift (c.station.send_wired _ id _ b log)
  | report id r t => exact hlift (c.station.send_wired _ id _ b log)
  | addTarget kind => exact ⟨log, rfl⟩
  | dropTarget id => exact ⟨log, rfl⟩
  | bind id => exact ⟨_, rfl⟩
  | startTest => cases hm
  | acknowledge => cases hm
  | clearLatest => exact ⟨log, rfl⟩
  | setLevel level => exact ⟨_, rfl⟩
  | subscribe kinds => cases hl
  | unsubscribe id => cases hl
  | letGo id => cases hl
  | receive id => cases hl
  | drain id => cases hl
  | take id => cases hm
  | carry id => cases hm

theorem exists_made {m : Move σ} (hl : m.isListening = false) (c : Scene σ) :
    ∃ news c', Made c m news c' ∧
      ∀ b log, ∃ log', (c.wired b log).apply m = c'.wired (b.publishAll news) log' := by
  cases hm : m.isDriving with
  | false => exact ⟨[], _, .aside hm, fun b log => aside_wired hm hl c b log⟩
  | true =>
    cases m with
    | startTest => exact c.made_startTest
    | acknowledge => exact c.made_acknowledge
    | take id => exact ⟨[], _, .taken id, fun b log => ⟨log, c.take_wired id b log⟩⟩
    | carry id => exact c.made_carry id
    | _ => cases hm

/-- A bus with nothing but a subscription to all kinds. -/
def tap : Bus := (Bus.empty.subscribe EventKind.all).2

/-- The events that a move publishes: what one who listens from just before it would hear of it. -/
def published (c : Scene σ) (m : Move σ) : List Event :=
  ((c.wired tap .empty).apply m).station.bus.pendingOf 0

theorem watched_tap : tap.Watched 0 :=
  Bus.watched_subscribe_all fun k => by cases k <;> decide

theorem pendingOf_tap (es : List Event) : (tap.publishAll es).pendingOf 0 = es :=
  (watched_tap.publishAll es).2

/-- What a move has made, and the events that it publishes. -/
theorem made {m : Move σ} (hl : m.isListening = false) (c : Scene σ) :
    ∃ news c' log, c.published m = news ∧ Made c m news c' ∧
      c.apply m = c'.wired (c.station.bus.publishAll news) log := by
  obtain ⟨news, c', h, hc⟩ := exists_made hl c
  obtain ⟨log, happly⟩ := hc c.station.bus c.station.log
  refine ⟨news, c', log, ?_, h, happly⟩
  obtain ⟨log', htap⟩ := hc tap .empty
  rw [published, htap]
  exact pendingOf_tap news

/-- What comes of the next effect of a worker, from what it does at any bus. -/
theorem carried {c : Scene σ} {id : Nat} {e : Effect} {rest : List Effect}
    (hp : c.pending id = e :: rest) {news : List Event} {t : Station σ}
    (h : ∀ b log, ∃ log', (c.station.wired b log).perform e = t.wired (b.publishAll news) log') :
    c.published (.carry id) = news ∧ ∃ log, c.apply (.carry id) = { c with
      station := t.wired (c.station.bus.publishAll news) log
      pending := Function.update c.pending id rest } := by
  have hcarry : ∀ b log, ∃ log', (c.wired b log).apply (.carry id) = { c with
      station := t.wired (b.publishAll news) log'
      pending := Function.update c.pending id rest } := by
    intro b log
    obtain ⟨log', he⟩ := h b log
    refine ⟨log', ?_⟩
    rw [carry_of_cons (c := c.wired b log) hp]
    exact congrArg (fun s => Scene.mk s (Function.update c.pending id rest) c.received) he
  obtain ⟨log', htap⟩ := hcarry tap .empty
  refine ⟨?_, hcarry c.station.bus c.station.log⟩
  rw [published, htap]
  exact pendingOf_tap news

omit [Server σ] in
theorem Move.isListening_of_isDriving {m : Move σ} (hm : m.isDriving = true) :
    m.isListening = false := by
  cases m <;> first | rfl | cases hm

theorem published_of_isListening {m : Move σ} (hl : m.isListening = true) (c : Scene σ) :
    c.published m = [] := by
  cases m with
  | subscribe kinds => exact (watched_tap.subscribe kinds).2
  | unsubscribe i => cases i <;> rfl
  | letGo i => cases i <;> rfl
  | receive i => cases i <;> rfl
  | drain i => cases i <;> rfl
  | _ => cases hl

theorem published_of_not_driving {m : Move σ} (hm : m.isDriving = false) (c : Scene σ) :
    c.published m = [] := by
  cases hl : m.isListening with
  | true => exact published_of_isListening hl c
  | false =>
    obtain ⟨news, c', log, hn, h, -⟩ := c.made hl
    rw [hn]
    cases h with
    | aside => rfl
    | _ => first | cases hm | rfl

/-! ## The binding and the count of runs -/

theorem take_frame (id : Nat) (c : Scene σ) :
    (c.take id).station.bound = c.station.bound ∧ (c.take id).station.begun = c.station.begun ∧
      (c.take id).station.lifecycle = c.station.lifecycle ∧
      (c.take id).station.current = c.station.current := by
  rcases c.take_eq id with ht | ⟨w, stamps, stamped, -, -, ht⟩ <;> rw [ht] <;>
    exact ⟨rfl, rfl, rfl, rfl⟩

theorem frame_apply (m : Move σ) (c : Scene σ) :
    (c.apply m).station.bound = m.binds?.or c.station.bound ∧
      c.station.begun ≤ (c.apply m).station.begun := by
  cases hm : m.isDriving with
  | false =>
    have hb := beside_of_not_driving hm c
    exact ⟨hb.bound, hb.begun ▸ Nat.le_refl _⟩
  | true =>
    obtain ⟨news, c', log, -, h, hc⟩ := c.made (Move.isListening_of_isDriving hm)
    rw [hc]
    cases h with
    | aside h => cases hm.symm.trans h
    | taken id =>
      obtain ⟨hb, hn, -⟩ := c.take_frame id
      exact ⟨hb, Nat.le_of_eq hn.symm⟩
    | refused m h => rcases h with rfl | rfl <;> exact ⟨rfl, Nat.le_refl _⟩
    | reached => exact ⟨rfl, Nat.le_succ _⟩
    | unreached => exact ⟨rfl, Nat.le_succ _⟩
    | acknowledged => exact ⟨rfl, Nat.le_refl _⟩
    | waited => exact ⟨rfl, Nat.le_refl _⟩
    | carried hp h =>
      obtain ⟨hb, hn⟩ := h.frame
      exact ⟨hb, Nat.le_of_eq hn.symm⟩

end Scene
end LinkTest
