import LinkTest.Proofs.Station.Debt
import LinkTest.Proofs.Station.Scene

/-!
# The run that is on its way

While a run is on its way it is the current one, one worker owes it what its phase says, and nothing
else is owed to any run. At other times nothing is owed to a run at all. Every move without a crash
keeps this, and so no reply to a run ever comes out of turn.
-/

namespace LinkTest

/-! ## Queues -/

namespace Station

variable {σ : Type}

/-- The messages that a worker was sent and has not taken; none if there is no such worker. -/
def queueOf (ws : List (Worker σ)) (id : Nat) : List Message :=
  ((ws[id]?).map Worker.queue).getD []

theorem queueOf_eq {ws : List (Worker σ)} {id : Nat} {w : Worker σ} (hw : ws[id]? = some w) :
    queueOf ws id = w.queue := by
  simp [queueOf, hw]

theorem queueOf_set_self {ws : List (Worker σ)} {id : Nat} (w : Worker σ) (hid : id < ws.length) :
    queueOf (ws.set id w) id = w.queue := by
  simp [queueOf, hid]

theorem queueOf_set_ne {ws : List (Worker σ)} {id j : Nat} (w : Worker σ) (hj : j ≠ id) :
    queueOf (ws.set id w) j = queueOf ws j := by
  simp [queueOf, hj.symm]

/-- Messages that come to the end of a queue. -/
theorem queueOf_set {ws : List (Worker σ)} {id : Nat} {w w' : Worker σ} {ms : List Message}
    (hw : ws[id]? = some w) (hq : w'.queue = w.queue ++ ms) (j : Nat) :
    queueOf (ws.set id w') j = queueOf ws j ++ if j = id then ms else [] := by
  by_cases hj : j = id
  · subst hj
    rw [queueOf_set_self _ (List.getElem?_eq_some_iff.1 hw).1, queueOf_eq hw, hq, if_pos rfl]
  · rw [queueOf_set_ne _ hj, if_neg hj, List.append_nil]

/-- Nobody has sent anything to a worker that was just made. -/
theorem queueOf_hired (ws : List (Worker σ)) (server : σ) (own : Credentials) (limit : Span)
    (id : Nat) : queueOf (ws ++ [.new server own limit]) id = queueOf ws id := by
  by_cases hid : id < ws.length
  · rw [queueOf, List.getElem?_append_left hid]
    rfl
  · have hle : ws.length ≤ id := Nat.le_of_not_lt hid
    rw [queueOf, queueOf, List.getElem?_append_right hle, List.getElem?_eq_none hle]
    cases id - ws.length <;> rfl

/-- A change of one worker, after which all of them still have a property. -/
theorem forall_set {p : Worker σ → Prop} {ws : List (Worker σ)} {id : Nat} {w : Worker σ}
    (h : ∀ v ∈ ws, p v) (hw : p w) : ∀ v ∈ ws.set id w, p v := by
  intro v hv
  rcases List.mem_or_eq_of_mem_set hv with hv | rfl
  · exact h v hv
  · exact hw

theorem Staffed.shut {ws ws' : List (Worker σ)} (h : Staffed ws ws') (hs : ∀ w ∈ ws, w.Shut) :
    ∀ w ∈ ws', w.Shut := by
  cases h with
  | same => exact hs
  | hired server own limit =>
    intro w hw
    rcases List.mem_append.1 hw with hw | hw
    · exact hs w hw
    · obtain rfl := List.mem_singleton.1 hw
      exact fun _ => rfl
  | grown hw hg hm => exact forall_set hs (hg.shut (hs _ (List.mem_of_getElem? hw)))

theorem Staffed.length_le {ws ws' : List (Worker σ)} (h : Staffed ws ws') :
    ws.length ≤ ws'.length := by
  cases h with
  | same => exact Nat.le_refl _
  | hired server own limit => simp
  | grown hw hg hm => simp

/-- Messages come to the end of a queue, and no request of a run is among them. -/
theorem Staffed.queueOf_append {ws ws' : List (Worker σ)} (h : Staffed ws ws') (id : Nat) :
    ∃ ms, queueOf ws' id = queueOf ws id ++ ms ∧ Debt.ofQueue ms = [] := by
  cases h with
  | same => exact ⟨[], (List.append_nil _).symm, rfl⟩
  | hired server own limit => exact ⟨[], by rw [queueOf_hired, List.append_nil], rfl⟩
  | grown hw hg hm =>
    refine ⟨_, queueOf_set hw hg.queue id, ?_⟩
    split
    · exact Debt.ofQueue_of_run? hm
    · rfl

theorem Staffed.ofQueue {ws ws' : List (Worker σ)} (h : Staffed ws ws') (id : Nat) :
    Debt.ofQueue (queueOf ws' id) = Debt.ofQueue (queueOf ws id) := by
  obtain ⟨ms, hq, hm⟩ := h.queueOf_append id
  rw [hq, Debt.ofQueue_append, hm, List.append_nil]

end Station

namespace Scene

variable {σ : Type}

/-! ## The invariant -/

/-- What a worker owes to runs. -/
def debts (c : Scene σ) (id : Nat) : List Debt :=
  Debt.ofEffects (c.pending id) ++ Debt.ofQueue (Station.queueOf c.station.workers id)

/-- Who owes what to which run. -/
inductive Flow : Phase → Option RunId → (Nat → List Debt) → Prop
  | free {p : Phase} {current : Option RunId} {debts : Nat → List Debt}
    (hp : p.isUnderWay = false) (h : ∀ id, debts id = []) : Flow p current debts
  | busy {p : Phase} {run : RunId} {debts : Nat → List Debt} (id : Nat)
    (h : Debt.Stage p run (debts id)) (ho : ∀ j, j ≠ id → debts j = []) : Flow p (some run) debts

structure Sound (c : Scene σ) : Prop where
  shut : ∀ w ∈ c.station.workers, w.Shut
  /-- Only workers that are there carry out effects. -/
  away : ∀ id, c.station.workers.length ≤ id → c.pending id = []
  flow : Flow c.phase c.station.current c.debts

theorem sound_start (stamps : Nat → Stamp) : (start stamps : Scene σ).Sound where
  shut := by simp [start, Station.start]
  away _ _ := rfl
  flow := .free rfl fun _ => rfl

/-- The worker that owes something is the one to which the run is sent. -/
theorem Flow.of_ne_nil {p : Phase} {current : Option RunId} {debts : Nat → List Debt} {id : Nat}
    (h : Flow p current debts) (hd : debts id ≠ []) :
    ∃ run, current = some run ∧ Debt.Stage p run (debts id) ∧ ∀ j, j ≠ id → debts j = [] := by
  cases h with
  | free hp h => exact absurd (h id) hd
  | @busy run _ k h ho =>
    by_cases hk : id = k
    · subst hk
      exact ⟨run, rfl, h, ho⟩
    · exact absurd (ho id hk) hd

/-- A change by which no worker owes more or less. -/
theorem Sound.of_staffed {c c' : Scene σ} (h : c.Sound)
    (hs : Station.Staffed c.station.workers c'.station.workers) (hp : c'.phase = c.phase)
    (hc : c'.station.current = c.station.current)
    (hd : ∀ id, Debt.ofEffects (c'.pending id) = Debt.ofEffects (c.pending id))
    (ha : ∀ id, c.pending id = [] → c'.pending id = []) : c'.Sound where
  shut := hs.shut h.shut
  away id hid := ha id (h.away id (Nat.le_trans hs.length_le hid))
  flow := by
    have hdebts : c'.debts = c.debts := by
      funext id
      rw [debts, debts, hd, hs.ofQueue]
    rw [hp, hc, hdebts]
    exact h.flow

theorem Flow.of_isUnderWay {p : Phase} {current : Option RunId} {debts : Nat → List Debt}
    (h : Flow p current debts) (hp : p.isUnderWay = true) :
    ∃ id run, current = some run ∧ Debt.Stage p run (debts id) ∧ ∀ j, j ≠ id → debts j = [] := by
  cases h with
  | free hn =>
    rw [hn] at hp
    cases hp
  | busy id h ho => exact ⟨id, _, rfl, h, ho⟩

theorem Flow.eq_nil {p : Phase} {current : Option RunId} {debts : Nat → List Debt}
    (h : Flow p current debts) (hp : p.isUnderWay = false) (id : Nat) : debts id = [] := by
  cases h with
  | free _ h => exact h id
  | busy _ h =>
    rw [h.isUnderWay] at hp
    cases hp

/-- A worker may turn what it owes into something else that the phase allows. -/
theorem Flow.update {p : Phase} {current : Option RunId} {debts debts' : Nat → List Debt}
    (h : Flow p current debts) (id : Nat) (hother : ∀ j, j ≠ id → debts' j = debts j)
    (hnil : debts id = [] → debts' id = [])
    (hstage : ∀ run, Debt.Stage p run (debts id) → Debt.Stage p run (debts' id)) :
    Flow p current debts' := by
  by_cases hd : debts id = []
  · have hsame : debts' = debts := by
      funext j
      by_cases hj : j = id
      · rw [hj, hnil hd, hd]
      · exact hother j hj
    rw [hsame]
    exact h
  · obtain ⟨run, rfl, hs, ho⟩ := h.of_ne_nil hd
    exact .busy id (hstage run hs) fun j hj => by rw [hother j hj, ho j hj]

/-! ## What is published -/

/-- What one move publishes, and the phases before and after it. -/
inductive Turn : Phase → List Event → Phase → Prop
  | still (p : Phase) : Turn p [] p
  | uploaded (p : Phase) (receipt : Receipt) : Turn p [.reportRouter receipt] p
  | begun : Turn .idle [.phaseChanged .idle .preparing] .preparing
  | unreached : Turn .idle [.phaseChanged .idle .preparing, .phaseChanged .preparing .idle] .idle
  | tested : Turn .preparing [.phaseChanged .preparing .testing] .testing
  | completed (r : Record) (h : r.isValid = true) :
    Turn .testing [.phaseChanged .testing .completed, .testCompleted r] .completed
  | failed (p : Phase) (reason : String) (h : p.isUnderWay = true) :
    Turn p [.phaseChanged p .idle, .testFailed reason] .idle
  | acknowledged : Turn .completed [.phaseChanged .completed .idle] .idle

/-- A run was begun and did not reach its worker. -/
def lost : List Event := [.phaseChanged .idle .preparing, .phaseChanged .preparing .idle]

variable [Server σ]

/-- What a move that drives runs does to a sound scene. -/
structure Driven (m : Move σ) (c c' : Scene σ) (news : List Event) : Prop where
  sound : c'.Sound
  turn : Turn c.phase news c'.phase
  bus : c'.station.bus = c.station.bus.publishAll news
  received : c'.received = c.received
  lost_iff : news = lost ↔ m = .startTest ∧ c.station.startTest.1 = .error .workerStopped

theorem Sound.startTest {c : Scene σ} (h : c.Sound) :
    ∃ news, Driven .startTest c (c.apply .startTest) news := by
  have hb := c.station.beginning_startTest
  have hc : c.apply .startTest = { c with station := c.station.startTest.2 } := rfl
  generalize hx : c.station.startTest = x at hb hc
  rw [hc]
  cases hb with
  | unbound => exact ⟨[], h, .still _, rfl, rfl, by simp [lost, hx]⟩
  | busy hp log =>
    exact ⟨[], h.of_staffed .same rfl rfl (fun _ => rfl) fun _ => id, .still _, rfl, rfl,
      by simp [lost, hx]⟩
  | @reached id w hp hw ho log =>
    have hfree := h.flow.eq_nil (by rw [phase, hp]; rfl)
    have hid : id < c.station.workers.length := Station.mem_workers_of_worker? hw
    refine ⟨[.phaseChanged .idle .preparing], ⟨?_, ?_, ?_⟩, ?_, rfl, rfl, by simp [lost, hx]⟩
    · exact Station.forall_set h.shut fun hn => absurd (w.isOpen_iff.1 ho) hn
    · simpa using h.away
    · refine .busy id ?_ fun j hj => ?_
      · obtain ⟨he, hq⟩ := List.append_eq_nil_iff.1 (hfree id)
        rw [Station.queueOf_eq hw] at hq
        simp only [debts, he, Station.queueOf_set_self _ hid, Debt.ofQueue_append, hq]
        exact .asked _
      · simp only [debts, Station.queueOf_set_ne _ hj]
        exact hfree j
    · rw [phase, hp]
      exact .begun
  | unreached hp log =>
    refine ⟨lost, ⟨h.shut, h.away, ?_⟩, ?_, rfl, rfl, by simp [hx]⟩
    · exact .free rfl (h.flow.eq_nil (by rw [phase, hp]; rfl))
    · rw [phase, hp]
      exact .unreached

theorem Sound.acknowledge {c : Scene σ} (h : c.Sound) :
    ∃ news, Driven .acknowledge c (c.apply .acknowledge) news := by
  by_cases hp : c.station.lifecycle.phase = .completed
  · obtain ⟨log, ha⟩ := Station.acknowledgeResults_of_completed hp
    simp only [apply, ha]
    refine ⟨[.phaseChanged .completed .idle], ⟨h.shut, h.away, ?_⟩, ?_, rfl, rfl, by simp [lost]⟩
    · exact .free rfl (h.flow.eq_nil (by rw [phase, hp]; rfl))
    · rw [phase, hp]
      exact .acknowledged
  · obtain ⟨log, ha⟩ := Station.acknowledgeResults_of_not_completed hp
    simp only [apply, ha]
    exact ⟨[], h.of_staffed .same rfl rfl (fun _ => rfl) fun _ => id, .still _, rfl, rfl,
      by simp [lost]⟩

theorem Sound.take {c : Scene σ} (h : c.Sound) {id : Nat} (hc : (c.apply (.take id)).CrashFree) :
    ∃ news, Driven (.take id) c (c.apply (.take id)) news := by
  rcases c.take_eq id with ht | ⟨w, stamps, stamped, hw, hp, ht⟩
  · simp only [apply, ht]
    exact ⟨[], h, .still _, rfl, rfl, by simp [lost]⟩
  · simp only [CrashFree, apply, ht] at hc ⊢
    have hid : id < c.station.workers.length := Station.mem_workers_of_worker? hw
    have hcr : (w.step stamps).1.thread ≠ .crashed :=
      hc _ (List.mem_iff_getElem?.2 ⟨id, by simp [hid]⟩)
    obtain ⟨hshut, hnil, hrun⟩ := Debt.step_spec stamps w
      (h.shut w (List.mem_of_getElem? hw)) hcr
    refine ⟨[], ⟨Station.forall_set h.shut hshut, fun j hj => ?_, ?_⟩, .still _, rfl, rfl,
      by simp [lost]⟩
    · have hlen : c.station.workers.length ≤ j := by simpa using hj
      simp only [Function.update_of_ne (Nat.ne_of_gt (Nat.lt_of_lt_of_le hid hlen))]
      exact h.away j hlen
    -- The worker owes what its queue owed, in the form that the step has given to it.
    · have hd : c.debts id = Debt.ofQueue w.queue := by
        simp [debts, hp, Station.queueOf_eq hw]
      refine h.flow.update id (fun j hj => ?_) (fun hn => ?_) fun run hs => ?_
      · simp [debts, Station.queueOf_set_ne _ hj, hj]
      · simpa [debts, Station.queueOf_set_self _ hid] using hnil (hd ▸ hn)
      · rw [hd] at hs
        obtain ⟨hprep, hone⟩ := hs.of_queue
        rw [hprep]
        simpa [debts, Station.queueOf_set_self _ hid] using hrun run hone

omit [Server σ] in
/-- An effect that pays nothing changes neither the run nor the phase; an upload is announced. -/
theorem perform_of_not_debt {e : Effect} (he : Debt.ofEffect e = none) (s : Station σ) :
    ∃ news, (news = [] ∨ ∃ receipt, news = [.reportRouter receipt]) ∧
      (s.perform e).lifecycle = s.lifecycle ∧ (s.perform e).current = s.current ∧
      (s.perform e).bus = s.bus.publishAll news := by
  cases e with
  | note n => exact ⟨[], .inl rfl, rfl, rfl, rfl⟩
  | reply t reply =>
    cases t with
    | target id kind =>
      refine ⟨[], .inl rfl, ?_⟩
      simp only [Station.perform, Station.deposit]
      split <;> exact ⟨rfl, rfl, rfl⟩
    | run run =>
      cases reply with
      | started => cases he
      | finished r => cases he
      | reported receipt => exact ⟨[.reportRouter receipt], .inr ⟨receipt, rfl⟩, rfl, rfl, rfl⟩
      | reportFailed reason => exact ⟨[], .inl rfl, rfl, rfl, rfl⟩

/-- An effect that is carried out is not owed any more. -/
theorem debts_carry {c : Scene σ} {id : Nat} {e : Effect} {rest : List Effect}
    (hp : c.pending id = e :: rest) (j : Nat) :
    c.debts j = (if j = id then (Debt.ofEffect e).toList else []) ++
      (c.apply (.carry id)).debts j := by
  have hq := (c.station.staffed_perform e).ofQueue j
  rw [carry_of_cons hp]
  by_cases hj : j = id
  · subst hj
    simp only [debts, hq, hp, Debt.ofEffects_cons, Function.update_self, if_true,
      List.append_assoc]
  · simp only [debts, hq, Function.update_of_ne hj, if_neg hj, List.nil_append]

/-- What remains to be seen of an effect that is carried out: the run and what is published. -/
theorem Sound.driven_carry {c : Scene σ} (h : c.Sound) {id : Nat} {e : Effect}
    {rest : List Effect} (hp : c.pending id = e :: rest) {news : List Event}
    (hf : Flow (c.station.perform e).lifecycle.phase (c.station.perform e).current
      (c.apply (.carry id)).debts)
    (ht : Turn c.phase news (c.station.perform e).lifecycle.phase)
    (hb : (c.station.perform e).bus = c.station.bus.publishAll news) (hn : news ≠ lost) :
    Driven (.carry id) c (c.apply (.carry id)) news := by
  have hst := c.station.staffed_perform e
  rw [carry_of_cons hp] at hf ⊢
  refine ⟨⟨hst.shut h.shut, fun j hj => ?_, hf⟩, ht, hb, rfl, by simp [hn]⟩
  have hjp := h.away j (Nat.le_trans hst.length_le hj)
  have hne : j ≠ id := by
    rintro rfl
    rw [hp] at hjp
    cases hjp
  exact (Function.update_of_ne hne _ _).trans hjp

theorem Sound.carry_of_not_debt {c : Scene σ} (h : c.Sound) {id : Nat} {e : Effect}
    {rest : List Effect} (hp : c.pending id = e :: rest) (he : Debt.ofEffect e = none) :
    ∃ news, Driven (.carry id) c (c.apply (.carry id)) news := by
  have hsame : (c.apply (.carry id)).debts = c.debts := by
    funext j
    simp [debts_carry hp j, he]
  obtain ⟨news, hn, hl, hcur, hb⟩ := perform_of_not_debt he c.station
  refine ⟨news, h.driven_carry hp ?_ ?_ hb ?_⟩
  · rw [hl, hcur, hsame]
    exact h.flow
  · rw [hl]
    rcases hn with rfl | ⟨receipt, rfl⟩
    · exact .still _
    · exact .uploaded _ receipt
  · rcases hn with rfl | ⟨receipt, rfl⟩ <;> simp [lost]

/-- An effect that pays something is owed to the current run, and nobody else owes anything. -/
theorem Sound.stage_of_debt {c : Scene σ} (h : c.Sound) {id : Nat} {e : Effect}
    {rest : List Effect} (hp : c.pending id = e :: rest) {d : Debt}
    (he : Debt.ofEffect e = some d) :
    ∃ run, c.station.current = some run ∧
      Debt.Stage c.phase run (d :: (c.apply (.carry id)).debts id) ∧
      ∀ j, j ≠ id → (c.apply (.carry id)).debts j = [] := by
  have hd := debts_carry hp
  have hdid : c.debts id = d :: (c.apply (.carry id)).debts id := by
    rw [hd id, if_pos rfl, he]
    rfl
  obtain ⟨run, hcur, hs, ho⟩ := h.flow.of_ne_nil (show c.debts id ≠ [] by simp [hdid])
  refine ⟨run, hcur, hdid ▸ hs, fun j hj => ?_⟩
  have hj' := hd j
  rw [if_neg hj, List.nil_append] at hj'
  rw [← hj', ho j hj]

theorem Sound.carry_started {c : Scene σ} (h : c.Sound) {id : Nat} {run : RunId}
    {rest : List Effect} (hp : c.pending id = .reply (.run run) .started :: rest) :
    ∃ news, Driven (.carry id) c (c.apply (.carry id)) news := by
  obtain ⟨current, hcur, hs, ho⟩ := h.stage_of_debt hp rfl
  obtain ⟨hprep, rfl, r, hr⟩ := hs.of_start
  obtain ⟨log, ht⟩ := Station.onReply_started hcur hprep
  refine ⟨[.phaseChanged .preparing .testing], h.driven_carry hp ?_ ?_ ?_ (by simp [lost])⟩
  · simp only [Station.perform, ht, hcur]
    refine .busy id ?_ ho
    rw [hr]
    exact .tested run r
  · simp only [Station.perform, ht, hprep]
    exact .tested
  · simp only [Station.perform, ht]

theorem Sound.carry_finished {c : Scene σ} (h : c.Sound) {id : Nat} {run : RunId} {r : Record}
    {rest : List Effect} (hp : c.pending id = .reply (.run run) (.finished r) :: rest) :
    ∃ news, Driven (.carry id) c (c.apply (.carry id)) news := by
  obtain ⟨current, hcur, hs, ho⟩ := h.stage_of_debt hp rfl
  obtain ⟨rfl, hnil, hvalid⟩ := hs.of_record
  have hfree : ∀ j, (c.apply (.carry id)).debts j = [] := by
    intro j
    by_cases hj : j = id
    · rw [hj, hnil]
    · exact ho j hj
  cases hr : r.isValid with
  | true =>
    have htest := hvalid hr
    obtain ⟨workers, log, ht, -⟩ := Station.onReply_finished_of_valid hcur htest hr
    refine ⟨[.phaseChanged .testing .completed, .testCompleted r],
      h.driven_carry hp ?_ ?_ ?_ (by simp [lost])⟩
    · simp only [Station.perform, ht]
      exact .free rfl hfree
    · simp only [Station.perform, ht, htest]
      exact .completed r hr
    · simp only [Station.perform, ht]
  | false =>
    obtain ⟨log, ht⟩ := Station.onReply_finished_of_invalid hcur hs.isUnderWay hr
    refine ⟨[.phaseChanged c.phase .idle, .testFailed r.reason],
      h.driven_carry hp ?_ ?_ ?_ (by simp [lost])⟩
    · simp only [Station.perform, ht]
      exact .free rfl hfree
    · simp only [Station.perform, ht]
      exact .failed c.phase r.reason hs.isUnderWay
    · simp only [Station.perform, ht]
      rfl

theorem Sound.carry {c : Scene σ} (h : c.Sound) (id : Nat) :
    ∃ news, Driven (.carry id) c (c.apply (.carry id)) news := by
  cases hp : c.pending id with
  | nil =>
    have hc : c.apply (.carry id) = c := by simp only [apply, Scene.carry, hp]
    rw [hc]
    exact ⟨[], h, .still _, rfl, rfl, by simp [lost]⟩
  | cons e rest =>
    cases he : Debt.ofEffect e with
    | none => exact h.carry_of_not_debt hp he
    | some d =>
      rcases Debt.eq_of_ofEffect he with ⟨run, rfl, -⟩ | ⟨run, r, rfl, -⟩
      · exact h.carry_started hp
      · exact h.carry_finished hp

/-! ## Schedules -/

/-- Every move without a crash is either aside from runs or drives them as it should. -/
theorem Sound.driven {c : Scene σ} (h : c.Sound) {m : Move σ} (hm : m.isDriving = true)
    (hc : (c.apply m).CrashFree) : ∃ news, Driven m c (c.apply m) news := by
  cases m with
  | startTest => exact h.startTest
  | acknowledge => exact h.acknowledge
  | take id => exact h.take hc
  | carry id => exact h.carry id
  | _ => cases hm

theorem Sound.apply {c : Scene σ} (h : c.Sound) (m : Move σ) (hc : (c.apply m).CrashFree) :
    (c.apply m).Sound := by
  cases hm : m.isDriving with
  | true =>
    obtain ⟨news, hd⟩ := h.driven hm hc
    exact hd.sound
  | false =>
    have ha := aside_of_not_driving hm c
    exact h.of_staffed ha.staffed ha.phase ha.current (fun id => by rw [ha.pending])
      fun id hp => by rw [ha.pending, hp]

theorem Sound.run {c : Scene σ} (h : c.Sound) (moves : List (Move σ))
    (hc : (c.run moves).CrashFree) : (c.run moves).Sound :=
  run_induction (fun _ m hs hm => hs.apply m hm) c moves h hc

theorem sound_of_reached {c : Scene σ} (hr : c.Reached) (h : c.CrashFree) : c.Sound := by
  obtain ⟨stamps, moves, rfl⟩ := hr
  exact (sound_start stamps).run moves h

end Scene
end LinkTest
