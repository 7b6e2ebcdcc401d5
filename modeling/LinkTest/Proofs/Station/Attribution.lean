import LinkTest.Proofs.Client.Asking
import LinkTest.Proofs.Station.Seeking

/-!
# Under which numbers uploads go

The numbers are kept by the client and the metrics are in the message, and nothing but the order of
sections links them. Between the test of a run and its upload the worker that has made it must take
no request for another test, and the upload must come to this worker. If nobody acts between the
sections of an operation this is so. If the record is acknowledged and the next run asks for its test
before the thread has sent off the record, it goes under the numbers of the next run.
-/

namespace LinkTest

open Station (Visit Duty)

namespace Worker

/-- The receipt of an upload names the numbers under which it went. -/
theorem receipt_of_upload? {w : Worker Remote} {run : RunId} {r : Record} {receipt : Receipt}
    {s : Settings} (h : w.Paced) (hw : w.isTorn = false)
    (hu : w.upload? = some (run, r, .ended (.ok receipt)))
    (hs : w.server.client.settings = some s) : receipt = ⟨s.setId, s.resultId⟩ := by
  obtain ⟨rest, token, ho, hq, hsession, hv, hend⟩ := exists_of_upload? hu
  have hreq : w.request? = some (.report token s.setId s.resultId r.metrics) := by
    simp [request?, ho, hq, hsession, hv, hs]
  obtain ⟨-, -, hreceipt⟩ :=
    Remote.report_spec h.inStep h.once token r hs (whole_of_request? hw hreq)
  exact hreceipt receipt hend.symm

end Worker

namespace Ensemble

/-! ## Schedules -/

/-- What is asked of a move: clients that are added have no connection, and their servers answer
each request with one line at most; only runs ask for tests; the binding changes while no run is on
its way; and no call is given up between its request and the response. -/
def permits (e : Ensemble Remote) : Move Remote → Bool
  | .aside (.addWorker server _ _) =>
    server.client.connection.isNone && decide server.network.AnswersOnce
  | .aside (.requestTest _ _ _) => false
  | .aside (.bind _) => e.phase = .idle || e.phase = .completed
  | .take id => !(e.taker? id).any Worker.isTorn
  | _ => true

/-- No worker is bound between the completion of a run and the reading of the binding for its
upload. -/
def bindsInOrder (e : Ensemble Remote) : Move Remote → Bool
  | .aside (.bind _) => (List.range e.scene.station.workers.length).all fun id =>
    !(e.duties id).any Duty.isUnaddressed
  | _ => true

/-- The pipeline is claimed for the worker that is bound, not for one that was bound when its caller
began. -/
def claimsInOrder (e : Ensemble Remote) : Move Remote → Bool
  | .proceed k =>
    match e.visits k with
    | some (.claim id) => e.phase ≠ .idle || e.scene.station.bound = some id
    | _ => true
  | _ => true

/-- No run asks a worker for its test while the thread of this worker has still to send off the
record of the run before. -/
def requestsInOrder (e : Ensemble Remote) : Move Remote → Bool
  | .proceed k =>
    match e.visits k with
    | some (.request id _) => !(e.duties id).any Duty.isUnsent
    | _ => true
  | _ => true

/-- What is asked of the order of sections besides. -/
def inOrder (e : Ensemble Remote) (m : Move Remote) : Bool :=
  e.bindsInOrder m && e.claimsInOrder m && e.requestsInOrder m

/-- The worker that takes its oldest message now makes the test of a run, which comes to this
record. Its server answers the request for settings that it sends in doing so, and these settings
are what its client keeps. -/
structure Tests (e : Ensemble Remote) (id : Nat) (run : RunId) (r : Record) (s : Settings)
    (w w' : Worker Remote) : Prop where
  taken : e.taker? id = some w
  left : (e.apply (.take id)).scene.station.worker? id = some w'
  test : w.test? = some (run, .ended (.ok r))
  answered : ∃ token i reply, w.session = .active token ∧
    w'.server.network.Answered i (w.server.network.linesOf i).length (.getConfig token) reply ∧
    reply.settings = some s
  kept : w'.server.client.settings = some s

/-- In one of these moves the worker has made the test of the run. -/
def TestedUnder (e : Ensemble Remote) (moves : List (Move Remote)) (id : Nat) (run : RunId)
    (r : Record) (s : Settings) : Prop :=
  ∃ earlier later w w', moves = earlier ++ .take id :: later ∧ (e.run earlier).Tests id run r s w w'

theorem TestedUnder.append {e : Ensemble Remote} {moves : List (Move Remote)} {id : Nat}
    {run : RunId} {r : Record} {s : Settings} (h : e.TestedUnder moves id run r s)
    (after : List (Move Remote)) : e.TestedUnder (moves ++ after) id run r s := by
  obtain ⟨earlier, later, w, w', rfl, ht⟩ := h
  exact ⟨earlier, later ++ after, w, w', by simp, ht⟩

/-! ## The invariant -/

/-- What is kept by every move of the order that is asked for. -/
structure Attributed (tested : Nat → RunId → Record → Settings → Prop)
    (handed : Nat → Record → Prop) (e : Ensemble Remote) : Prop where
  pursuit : e.Pursuit
  paced : ∀ w ∈ e.scene.station.workers, w.Paced
  away : ∀ id, e.scene.station.workers.length ≤ id → e.effects id = [] ∧ e.duties id = none
  /-- A run is made with the worker that is bound. -/
  called : ∀ k v id, e.visits k = some v → v.worker? = some id → e.scene.station.bound = some id
  settled : ∀ id run, run ∈ e.unsettled id → e.scene.station.bound = some id
  unaddressed : ∀ id d, e.duties id = some d → d.isUnaddressed = true →
    e.scene.station.bound = some id
  aimed : ∀ id j run r, e.duties id = some (.upload j run r) → j = id
  /-- No run asks a worker for a test whose thread has still to send off a record. -/
  quiet : ∀ id d, e.duties id = some d → d.isUnsent = true → e.scene.asked id = []
  asked : ∀ id t, .requestTest t ∈ Station.queueOf e.scene.station.workers id → ∃ run, t = .run run
  /-- A worker whose thread has the record of a run has the settings of this run. -/
  owed : ∀ id w run r, e.scene.station.worker? id = some w → e.Holds id run r →
    ∃ s, w.server.client.settings = some s ∧ tested id run r s
  /-- So has one that has still to upload it, and it will until then. -/
  queued : ∀ id w front r run back, e.scene.station.worker? id = some w →
    w.queue = front ++ .report r (some (.run run)) :: back →
    (∀ t, .requestTest t ∉ front) ∧ ∃ s, w.server.client.settings = some s ∧ tested id run r s
  others : ∀ id r t, .report r t ∈ Station.queueOf e.scene.station.workers id →
    (∃ run, t = some (.run run)) ∨ handed id r
  reported : ∀ id run receipt, .reply (.run run) (.reported receipt) ∈ e.effects id →
    ∃ r s, tested id run r s ∧ receipt = ⟨s.setId, s.resultId⟩

variable {tested tested' : Nat → RunId → Record → Settings → Prop}
  {handed handed' : Nat → Record → Prop} {e : Ensemble Remote}

theorem Attributed.mono (h : e.Attributed tested handed)
    (ht : ∀ id run r s, tested id run r s → tested' id run r s)
    (hh : ∀ id r, handed id r → handed' id r) : e.Attributed tested' handed' where
  pursuit := h.pursuit
  paced := h.paced
  away := h.away
  called := h.called
  settled := h.settled
  unaddressed := h.unaddressed
  aimed := h.aimed
  quiet := h.quiet
  asked := h.asked
  owed id w run r hw hp := (h.owed id w run r hw hp).imp fun s => .imp_right (ht id run r s)
  queued id w front r run back hw hq :=
    (h.queued id w front r run back hw hq).imp_right (.imp fun s => .imp_right (ht id run r s))
  others id r t hr := (h.others id r t hr).imp_right (hh id r)
  reported id run receipt hp := by
    obtain ⟨r, s, htested, hreceipt⟩ := h.reported id run receipt hp
    exact ⟨r, s, ht id run r s htested, hreceipt⟩

/-! ## The binding -/

section

variable {m : Move Remote}

/-- When a worker may be bound nobody is in the midst of a run or of its upload. -/
theorem Attributed.free_of_bind (h : e.Attributed tested handed) {k : Nat}
    (hp : e.permits (.aside (.bind k)) = true) (ho : e.inOrder (.aside (.bind k)) = true) :
    e.Free ∧ ∀ id d, e.duties id = some d → d.isUnaddressed = false := by
  have hphase : e.phase.isUnderWay = false :=
    Phase.isUnderWay_eq_false_iff.2 (by simpa [permits] using hp)
  refine ⟨h.pursuit.free_of_phase hphase, fun id d hd => ?_⟩
  have hall : ∀ id < e.scene.station.workers.length,
      (e.duties id).any Duty.isUnaddressed = false := by
    simpa [inOrder, bindsInOrder, claimsInOrder, requestsInOrder] using ho
  by_cases hid : id < e.scene.station.workers.length
  · simpa [hd] using hall id hid
  · cases hd.symm.trans (h.away id (Nat.le_of_not_lt hid)).2

/-- What is known of the binding stays so while someone is in the midst of a run. -/
theorem Attributed.bound_apply (h : e.Attributed tested handed) (hp : e.permits m = true)
    (ho : e.inOrder m = true) {id : Nat} (hb : e.scene.station.bound = some id)
    (hbusy : ¬e.Free ∨ ∃ j d, e.duties j = some d ∧ d.isUnaddressed = true) :
    (e.apply m).scene.station.bound = some id := by
  rcases e.bound_apply m with hsame | ⟨k, rfl⟩
  · rw [hsame, hb]
  · obtain ⟨hfree, hall⟩ := h.free_of_bind hp ho
    rcases hbusy with hn | ⟨j, d, hd, hu⟩
    · exact absurd hfree hn
    · cases hu.symm.trans (hall j d hd)

theorem Attributed.called_apply (h : e.Attributed tested handed) (hp : e.permits m = true)
    (ho : e.inOrder m = true) (k : Nat) (v : Visit) (id : Nat)
    (hv : (e.apply m).visits k = some v) (hid : v.worker? = some id) :
    (e.apply m).scene.station.bound = some id := by
  have hkept : ∀ {u : Visit}, e.visits k = some u → u.worker? = some id →
      (e.apply m).scene.station.bound = some id := fun hu hid =>
    h.bound_apply hp ho (h.called k _ id hu hid) (.inl fun hf => by
      cases (hf.visits k _ hu).symm.trans (Station.Visit.isClaimed_of_worker? hid))
  rcases visits_apply hv with hv | rfl | rfl | ⟨rfl, u, news, t, hu, hmade⟩
  · exact hkept hv hid
  · cases hid
  · cases hid
  · rcases hmade.worker? hid with hid | ⟨rfl, hphase⟩
    · exact hkept hu hid
    · have hidle : e.phase = .idle := hphase
      have hb : e.scene.station.bound = some id := by
        simpa [inOrder, bindsInOrder, claimsInOrder, requestsInOrder, hu, hidle] using ho
      rcases e.bound_apply (.proceed k) with hsame | ⟨_, hbind⟩
      · rw [hsame, hb]
      · cases hbind

theorem Attributed.settled_apply (h : e.Attributed tested handed) (hp : e.permits m = true)
    (ho : e.inOrder m = true) (id : Nat) (run : RunId) (hr : run ∈ (e.apply m).unsettled id) :
    (e.apply m).scene.station.bound = some id := by
  rcases mem_unsettled_apply hr with hr | ⟨k, rfl, hv⟩
  · refine h.bound_apply hp ho (h.settled id run hr) (.inl fun hf => ?_)
    rw [hf.settled id] at hr
    cases hr
  · refine h.bound_apply hp ho (h.called k _ id hv rfl) (.inl fun hf => ?_)
    cases hf.visits k _ hv

theorem Attributed.unaddressed_apply (h : e.Attributed tested handed) (hp : e.permits m = true)
    (ho : e.inOrder m = true) (id : Nat) (d : Duty) (hd : (e.apply m).duties id = some d)
    (hu : d.isUnaddressed = true) : (e.apply m).scene.station.bound = some id := by
  have hkept : ∀ {d : Duty}, e.duties id = some d → d.isUnaddressed = true →
      (e.apply m).scene.station.bound = some id := fun hd hu =>
    h.bound_apply hp ho (h.unaddressed id _ hd hu) (.inr ⟨id, _, hd, hu⟩)
  rcases duties_apply hd with hd | ⟨-, ⟨x, rest, -, -, rfl⟩ | ⟨d', news, t, hd', hmade⟩⟩
  · exact hkept hd hu
  · cases hu
  · rcases hmade.isUnaddressed hu with hu | ⟨run, r, rfl⟩
    · exact hkept hd' hu
    · have hr : run ∈ e.unsettled id := mem_unsettled_of_duty hd' rfl
      refine h.bound_apply hp ho (h.settled id run hr) (.inl fun hf => ?_)
      rw [hf.settled id] at hr
      cases hr

theorem Attributed.aimed_apply (h : e.Attributed tested handed) (id j : Nat) (run : RunId)
    (r : Record) (hd : (e.apply m).duties id = some (.upload j run r)) : j = id := by
  rcases duties_apply hd with hd | ⟨-, ⟨x, rest, -, -, hx⟩ | ⟨d, news, t, hd, hmade⟩⟩
  · exact h.aimed id j run r hd
  · cases hx
  · obtain ⟨rfl, hb⟩ := hmade.upload
    exact Option.some.inj (hb.symm.trans (h.unaddressed id _ hd rfl))

theorem Attributed.quiet_apply (h : e.Attributed tested handed) (ho : e.inOrder m = true)
    (id : Nat) (d : Duty) (hd : (e.apply m).duties id = some d) (hu : d.isUnsent = true) :
    (e.apply m).scene.asked id = [] := by
  have hd := duties_apply hd
  have hbefore : e.scene.asked id = [] := by
    rcases hd with hd | ⟨-, ⟨x, rest, -, -, rfl⟩ | ⟨d', news, t, hd', hmade⟩⟩
    · exact h.quiet id d hd hu
    · cases hu
    · rcases hmade.isUnsent hu with hu | ⟨run, r, rfl⟩
      · exact h.quiet id d' hd' hu
      · exact h.pursuit.asked_eq_nil hd' rfl
  refine List.eq_nil_iff_forall_not_mem.2 fun run hr => ?_
  rcases mem_asked_apply hr with hr | ⟨k, rfl, hv⟩
  · rw [hbefore] at hr
    cases hr
  · rcases hd with hd | ⟨hk, -⟩
    · have hnot : d.isUnsent = false := by
        simpa [inOrder, bindsInOrder, claimsInOrder, requestsInOrder, hv, hd] using ho
      cases hu.symm.trans hnot
    · cases hk

end

/-! ## Moves that take no message -/

section

variable {m : Move Remote} (hm : ∀ id, m ≠ .take id)
include hm

end

/-! ## Moves that take a message -/

/-- The ensemble that a worker leaves which takes its oldest message. -/
structure Took (e : Ensemble Remote) (id : Nat) (w : Worker Remote) (stamps : Nat → Stamp)
    (e' : Ensemble Remote) : Prop where
  workers : e'.scene.station.workers = e.scene.station.workers.set id (w.step stamps).1
  effects : e'.effects id = (w.step stamps).2
  others : ∀ j, j ≠ id → e'.effects j = e.effects j
  duties : e'.duties = e.duties

theorem took_of_taker? {id : Nat} {w : Worker Remote} (hw : e.taker? id = some w) :
    ∃ stamps, Took e id w stamps (e.apply (.take id)) := by
  obtain ⟨hd, hw⟩ := taker?_eq_some_iff.1 hw
  obtain ⟨hid, hp, hh⟩ := Scene.taker?_eq_some_iff.1 hw
  obtain ⟨stamps, stamped, ht⟩ := Scene.take_of_free hid hp hh
  have happly : e.apply (.take id) = { e with scene := e.scene.take id } := by simp [apply, hd]
  refine ⟨stamps, ?_⟩
  rw [happly, ht]
  exact ⟨rfl, by simp [effects, hd], fun j hj => by simp [effects, hj], rfl⟩

namespace Took

variable {id : Nat} {w : Worker Remote} {stamps : Nat → Stamp} {e' : Ensemble Remote}

theorem worker (h : Took e id w stamps e') (hw : e.scene.station.worker? id = some w) :
    e'.scene.station.worker? id = some (w.step stamps).1 := by
  rw [Station.worker?, h.workers, List.getElem?_set_self (Station.mem_workers_of_worker? hw)]

theorem worker_ne (h : Took e id w stamps e') {j : Nat} (hj : j ≠ id) :
    e'.scene.station.worker? j = e.scene.station.worker? j := by
  rw [Station.worker?, h.workers, List.getElem?_set_ne hj.symm, Station.worker?]

theorem mem_queueOf (h : Took e id w stamps e') (hw : e.scene.station.worker? id = some w)
    {j : Nat} {x : Message} (hx : x ∈ Station.queueOf e'.scene.station.workers j) :
    x ∈ Station.queueOf e.scene.station.workers j := by
  rw [h.workers] at hx
  by_cases hj : j = id
  · subst hj
    rw [Station.queueOf_set_self _ (Station.mem_workers_of_worker? hw)] at hx
    rw [Station.queueOf_eq hw]
    exact (Worker.queue_step_suffix stamps w).subset hx
  · rwa [Station.queueOf_set_ne _ hj] at hx

end Took

section

variable {id : Nat} {w : Worker Remote} {stamps : Nat → Stamp}

/-- Uploads that are left in the queue go under the same numbers as before. -/
theorem Attributed.queued_of_took (h : e.Attributed tested handed)
    (hw : e.scene.station.worker? id = some w) (hasking : Worker.Asking w (w.step stamps).1)
    {front back : List Message} {r : Record} {run : RunId}
    (hq : (w.step stamps).1.queue = front ++ .report r (some (.run run)) :: back) :
    (∀ t, .requestTest t ∉ front) ∧ ∃ s,
      (w.step stamps).1.server.client.settings = some s ∧ tested id run r s := by
  obtain ⟨gone, hgone⟩ := Worker.queue_step_suffix stamps w
  rw [hq, ← List.append_assoc] at hgone
  obtain ⟨hfront, s, hs, ht⟩ := h.queued id w (gone ++ front) r run back hw hgone.symm
  refine ⟨fun t hm => hfront t (List.mem_append_right _ hm), s, ?_, ht⟩
  rw [hasking.settings fun t rest hq => ?_, hs]
  rw [hq] at hgone
  cases hall : gone ++ front with
  | nil =>
    rw [hall] at hgone
    cases hgone
  | cons x rest =>
    rw [hall] at hgone
    obtain ⟨rfl, -⟩ := List.cons.inj hgone
    exact hfront t (by simp [hall])

/-- The test that gives a worker the record of a run to tell also gives it the settings. -/
theorem tests_of_took (hpaced : ∀ w ∈ e.scene.station.workers, w.Paced)
    (hw : e.taker? id = some w) (hwhole : w.isTorn = false)
    (htook : Took e id w stamps (e.apply (.take id))) {run : RunId} {r : Record}
    (htest : w.test? = some (run, .ended (.ok r))) : ∃ s,
      (w.step stamps).1.server.client.settings = some s ∧
        e.Tests id run r s w (w.step stamps).1 := by
  obtain ⟨-, hfree⟩ := taker?_eq_some_iff.1 hw
  obtain ⟨hid, -, -⟩ := Scene.taker?_eq_some_iff.1 hfree
  obtain ⟨token, i, reply, s, hs, ha, hreply, hset⟩ :=
    Worker.settings_of_test? stamps (hpaced w (List.mem_of_getElem? hid)) hwhole htest
  exact ⟨s, hset, hw, htook.worker hid, htest, ⟨token, i, reply, hs, ha, hreply⟩, hset⟩

theorem Attributed.owed_of_took (h : e.Attributed tested handed) (hw : e.taker? id = some w)
    (hwhole : w.isTorn = false) (htook : Took e id w stamps (e.apply (.take id))) {run : RunId}
    {r : Record} (hr : (e.apply (.take id)).Holds id run r) : ∃ s,
      (w.step stamps).1.server.client.settings = some s ∧
        e.Tests id run r s w (w.step stamps).1 := by
  rcases hr with ⟨hr, hv⟩ | ⟨d, hd, -⟩
  · rw [htook.effects] at hr
    refine tests_of_took h.paced hw hwhole htook ?_
    exact Worker.test?_of_finished stamps (List.mem_filterMap.2 ⟨_, hr, rfl⟩) hv
  · rw [htook.duties] at hd
    cases hd.symm.trans (taker?_eq_some_iff.1 hw).1

theorem Attributed.reported_of_took (h : e.Attributed tested handed)
    (hw : e.scene.station.worker? id = some w) (hwhole : w.isTorn = false) {run : RunId}
    {receipt : Receipt} (hr : .reply (.run run) (.reported receipt) ∈ (w.step stamps).2) :
    ∃ r s, tested id run r s ∧ receipt = ⟨s.setId, s.resultId⟩ := by
  have hmem : .receipt receipt ∈ Errand.ofEffects run (w.step stamps).2 :=
    List.mem_filterMap.2 ⟨(.run run, .reported receipt), List.mem_filterMap.2 ⟨_, hr, rfl⟩,
      by simp [Errand.ofReply]⟩
  obtain ⟨r, hu⟩ := Errand.upload?_of_receipt stamps hmem
  obtain ⟨rest, token, -, hq, -⟩ := Worker.exists_of_upload? hu
  obtain ⟨-, s, hs, ht⟩ := h.queued id w [] r run rest hw hq
  exact ⟨r, s, ht,
    Worker.receipt_of_upload? (h.paced w (List.mem_of_getElem? hw)) hwhole hu hs⟩

end

theorem Attributed.take (h : e.Attributed tested handed) {id : Nat} {w : Worker Remote}
    (hp : e.permits (.take id) = true) (hw : e.taker? id = some w)
    (htested : ∀ run r s w', e.Tests id run r s w w' → tested id run r s) :
    (e.apply (.take id)).Attributed tested handed := by
  have hwhole : w.isTorn = false := by simpa [permits, hw] using hp
  obtain ⟨hd, hfree⟩ := taker?_eq_some_iff.1 hw
  obtain ⟨hid, -, -⟩ := Scene.taker?_eq_some_iff.1 hfree
  obtain ⟨stamps, htook⟩ := took_of_taker? hw
  have hasking := Worker.asking_step stamps (h.paced w (List.mem_of_getElem? hid)) hwhole
  refine ⟨h.pursuit.apply _, ?_, fun j hj => ?_, h.called_apply hp rfl, h.settled_apply hp rfl,
    h.unaddressed_apply hp rfl, h.aimed_apply, h.quiet_apply rfl,
    fun j t ht => h.asked j t (htook.mem_queueOf hid ht), fun j w' run r hw' hr => ?_,
    fun j w' front r run back hw' hq => ?_,
    fun j r t hr => h.others j r t (htook.mem_queueOf hid hr), fun j run receipt hr => ?_⟩
  · rw [htook.workers]
    exact Station.forall_set h.paced hasking.paced
  · rw [htook.workers, List.length_set] at hj
    have hne : j ≠ id := fun hji => Nat.lt_irrefl j
      (Nat.lt_of_lt_of_le (hji ▸ Station.mem_workers_of_worker? hid) hj)
    rw [htook.others j hne, htook.duties]
    exact h.away j hj
  · by_cases hj : j = id
    · subst hj
      obtain rfl := Option.some.inj ((htook.worker hid).symm.trans hw')
      obtain ⟨s, hset, ht⟩ := h.owed_of_took hw hwhole htook hr
      exact ⟨s, hset, htested run r s _ ht⟩
    · refine h.owed j w' run r ((htook.worker_ne hj).symm.trans hw') ?_
      rwa [Holds, htook.others j hj, htook.duties] at hr
  · by_cases hj : j = id
    · subst hj
      obtain rfl := Option.some.inj ((htook.worker hid).symm.trans hw')
      exact h.queued_of_took hid hasking hq
    · exact h.queued j w' front r run back ((htook.worker_ne hj).symm.trans hw') hq
  · by_cases hj : j = id
    · subst hj
      rw [htook.effects] at hr
      exact h.reported_of_took hid hwhole hr
    · rw [htook.others j hj] at hr
      exact h.reported j run receipt hr

/-! ## Whole schedules -/

end Ensemble
end LinkTest
