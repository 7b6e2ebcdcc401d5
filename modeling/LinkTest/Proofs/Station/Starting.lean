import LinkTest.Proofs.Station.Dispatch
import LinkTest.Proofs.Station.Superseded

/-!
# Starting a run is all or nothing

Whatever has happened before, and whatever others have done, a run that is to be started is
refused and leaves everything as it was, or its two messages are queued with the worker that is
bound, or that worker cannot be reached and the pipeline is free again. The number that the run is
given has never been that of another one: nothing that is queued or on its way speaks of it.
-/

namespace LinkTest

theorem Message.forRun?_eq_some_iff {m : Message} {run : RunId} :
    m.forRun? = some run ↔ m.replyTo? = some (.run run) := by
  cases m with
  | login c => simp [forRun?, replyTo?]
  | requestTest t => cases t <;> simp [forRun?, replyTo?]
  | report r t => rcases t with _ | (_ | _) <;> simp [forRun?, replyTo?]
  | quit => simp [forRun?, replyTo?]

/-! ## Who is answered -/

namespace Worker

variable {σ : Type}

theorem exists_of_mem_rejections {stamps : Nat → Stamp} {queue : List Message} {t : ReplyTo}
    {reply : Reply} (h : (t, reply) ∈ rejections stamps queue) :
    ∃ m ∈ queue, m.replyTo? = some t := by
  obtain ⟨answers, hanswers, h⟩ := List.mem_flatten.1 h
  obtain ⟨i, hi, rfl⟩ := List.mem_mapIdx.1 hanswers
  exact ⟨_, List.getElem_mem hi, (mem_addressed h).1⟩

variable [Server σ]

/-- Only those are answered who are named by the message, also where the call crashes. -/
theorem addressed_handle (stamps : Nat → Stamp) {m : Message} (hm : m.isQuit = false)
    (w : Worker σ) : ∃ b, repliesOf (w.handle stamps m).2 = addressed m b := by
  cases m with
  | login c =>
    refine ⟨[], ?_⟩
    rcases hr : (Server.login w.limit (c.getD w.credentials) w.server).1.result? w.limit with
      _ | (f | token) <;> simp [handle, logIn, hr, addressed]
  | requestTest t =>
    cases hs : w.session with
    | loggedOut => exact ⟨[.finished _], by simp [handle, makeTest, hs, addressed]; rfl⟩
    | failed reason => exact ⟨[.finished _], by simp [handle, makeTest, hs, addressed]; rfl⟩
    | active token =>
      rcases hr : (Server.test w.limit token w.server).1.result? w.limit with _ | result
      · exact ⟨[.started], by simp [handle, makeTest, hs, hr, addressed, Message.replyTo?]⟩
      · refine ⟨[.started, .finished (testRecord (stamps 0) result)], ?_⟩
        cases result <;>
          simp [handle, makeTest, hs, hr, addressed, Message.replyTo?, testRecord]
  | report r t =>
    cases hv : r.isValid with
    | false => exact ⟨[.reportFailed uploadRefusal], by
        cases t <;> simp [handle, upload, hv, addressed, Message.replyTo?]⟩
    | true =>
      cases hs : w.session with
      | active token =>
        rcases hr : (Server.report w.limit token r w.server).1.result? w.limit with _ | result
        · exact ⟨[], by simp [handle, upload, hv, hs, hr, addressed]⟩
        · refine ⟨[uploadReply result], ?_⟩
          cases result <;> cases t <;>
            simp [handle, upload, hv, hs, hr, addressed, Message.replyTo?, uploadReply]
      | _ => exact ⟨[.reportFailed Failure.notLoggedIn.message], by
          cases t <;> simp [handle, upload, hv, hs, addressed, Message.replyTo?]⟩
  | quit => cases hm

/-- Whoever is answered in a step was named by a message in the queue. -/
theorem exists_of_mem_step {stamps : Nat → Stamp} {w : Worker σ} {t : ReplyTo} {reply : Reply}
    (h : (t, reply) ∈ repliesOf (w.step stamps).2) : ∃ m ∈ w.queue, m.replyTo? = some t := by
  cases ho : w.isOpen with
  | false => simp [step_of_closed stamps w ho] at h
  | true =>
    cases hq : w.queue with
    | nil => simp [step_of_empty stamps w hq] at h
    | cons m rest =>
      cases hm : m.isQuit with
      | true =>
        obtain rfl := Message.eq_quit_of_isQuit hm
        rw [(step_of_quit stamps ho hq).2] at h
        obtain ⟨m, hm, ht⟩ := exists_of_mem_rejections h
        exact ⟨m, List.mem_cons_of_mem _ hm, ht⟩
      | false =>
        obtain ⟨b, hb⟩ := addressed_handle stamps hm { w with queue := rest }
        rw [repliesOf_step stamps ho hq, hb] at h
        exact ⟨m, List.mem_cons_self, (mem_addressed h).1⟩

end Worker

namespace Scene

variable {σ : Type} [Server σ]

/-! ## Numbers that are in use -/

/-- The run is the current one, or a message that is queued or a reply that is on its way is about
it. -/
inductive Spoken (c : Scene σ) (run : RunId) : Prop
  | current (h : c.station.current = some run)
  | queued {id : Nat} {m : Message} (hm : m ∈ Station.queueOf c.station.workers id)
    (hf : m.forRun? = some run)
  | replied {id : Nat} {reply : Reply} (h : .reply (.run run) reply ∈ c.pending id)

/-- A message in a queue was there before, or is sent by the move. -/
theorem mem_queueOf_apply {m : Move σ} {c : Scene σ} {id : Nat} {x : Message}
    (h : x ∈ Station.queueOf (c.apply m).station.workers id) :
    x ∈ Station.queueOf c.station.workers id ∨ x ∈ c.posted m id := by
  have hgrown : ∀ {ms}, Station.queueOf (c.apply m).station.workers id =
      Station.queueOf c.station.workers id ++ ms →
        x ∈ Station.queueOf c.station.workers id ∨ x ∈ c.posted m id := by
    intro ms hq
    rw [posted_of_append hq]
    rwa [hq, List.mem_append] at h
  cases hm : m.isDriving with
  | false =>
    obtain ⟨ms, hq, -⟩ := (aside_of_not_driving hm c).staffed.queueOf_append id
    exact hgrown hq
  | true =>
    cases m with
    | take k => exact .inl ((c.queueOf_take k id).subset h)
    | carry k =>
      cases hp : c.pending k with
      | nil => exact .inl (by simpa only [apply, carry, hp] using h)
      | cons e rest =>
        obtain ⟨ms, hq, -⟩ := (c.station.staffed_perform e).queueOf_append id
        exact hgrown (by rw [carry_of_cons hp]; exact hq)
    | startTest =>
      have hs := c.station.beginning_startTest
      have hc : (c.apply .startTest).station = c.station.startTest.2 := rfl
      generalize c.station.startTest = started at hs hc
      cases hs with
      | reached hp hw ho log => exact hgrown (by rw [hc]; exact Station.queueOf_set hw rfl id)
      | _ => exact .inl (by simpa only [hc] using h)
    | acknowledge =>
      by_cases hp : c.station.lifecycle.phase = .completed
      · obtain ⟨log, ha⟩ := Station.acknowledgeResults_of_completed hp
        exact .inl (by simpa only [apply, ha] using h)
      · obtain ⟨log, ha⟩ := Station.acknowledgeResults_of_not_completed hp
        exact .inl (by simpa only [apply, ha] using h)
    | _ => cases hm

/-- A run that is started and sends something uses up a number. -/
theorem begun_of_posted {c : Scene σ} {id : Nat} {x : Message} (h : x ∈ c.posted .startTest id) :
    (c.apply .startTest).station.begun = c.station.begun + 1 := by
  have hs := c.station.beginning_startTest
  have hc : (c.apply .startTest).station = c.station.startTest.2 := rfl
  generalize c.station.startTest = started at hs hc
  have hnone : (c.apply .startTest).station.workers = c.station.workers →
      (c.apply .startTest).station.begun = c.station.begun + 1 := by
    intro hw
    have hposted : c.posted .startTest id = [] := posted_of_append (by rw [hw, List.append_nil])
    rw [hposted] at h
    cases h
  cases hs with
  | unbound => exact hnone (by rw [hc])
  | busy => exact hnone (by rw [hc])
  | reached => rw [hc]
  | unreached => rw [hc]

/-- A reply that is on its way was so before, or answers a message that was queued. -/
theorem mem_pending_apply {m : Move σ} {c : Scene σ} {id : Nat} {run : RunId} {reply : Reply}
    (h : .reply (.run run) reply ∈ (c.apply m).pending id) : c.Spoken run := by
  cases hm : m.isDriving with
  | false =>
    rw [(aside_of_not_driving hm c).pending] at h
    exact .replied h
  | true =>
    cases m with
    | take k =>
      rcases c.take_eq k with ht | ⟨w, stamps, stamped, hw, -, ht⟩
      · rw [apply, ht] at h
        exact .replied h
      · simp only [apply, ht] at h
        by_cases hi : id = k
        · subst hi
          rw [Function.update_self] at h
          have hr : (.run run, reply) ∈ repliesOf (w.step stamps).2 :=
            List.mem_filterMap.2 ⟨_, h, rfl⟩
          obtain ⟨x, hx, hf⟩ := Worker.exists_of_mem_step hr
          exact .queued (by rwa [Station.queueOf_eq hw]) (Message.forRun?_eq_some_iff.2 hf)
        · rw [Function.update_of_ne hi] at h
          exact .replied h
    | carry k =>
      cases hp : c.pending k with
      | nil => exact .replied (by simpa only [apply, carry, hp] using h)
      | cons e rest =>
        simp only [carry_of_cons hp] at h
        by_cases hi : id = k
        · subst hi
          rw [Function.update_self] at h
          exact .replied (by rw [hp]; exact List.mem_cons_of_mem _ h)
        · rw [Function.update_of_ne hi] at h
          exact .replied h
    | startTest => exact .replied h
    | acknowledge => exact .replied h
    | _ => cases hm

/-- The only run that is spoken of for the first time is the one that is started. -/
theorem Spoken.of_act {c : Scene σ} {d : Deed σ} {run : RunId} (h : (c.act d).Spoken run) :
    c.Spoken run ∨ run.number < (c.act d).station.begun := by
  cases h with
  | current h =>
    cases succeeded_act d c with
    | same hc hb => exact .inl (.current (hc.symm.trans h))
    | ended hc => cases hc.symm.trans h
    | next hc hb =>
      obtain rfl := Option.some.inj (hc.symm.trans h)
      exact .inr hb
  | @queued id x hx hf =>
    cases d with
    | operate thread o =>
      obtain ⟨lifecycle, log, ho⟩ := c.station.operate_frame thread o
      rw [act, ho] at hx
      exact .inl (.queued hx hf)
    | publish thread e => exact .inl (.queued hx hf)
    | move m =>
      rcases mem_queueOf_apply hx with hx | hx
      · exact .inl (.queued hx hf)
      · rcases (posted_forRun hx hf).2 with ⟨rfl, rfl⟩ | ⟨k, r, rest, -, hp, -⟩
        · exact .inr (by rw [act, begun_of_posted hx]; exact Nat.lt_succ_self _)
        · have hmem := List.mem_cons_self (a := Effect.reply (.run run) (.finished r)) (l := rest)
          rw [← hp] at hmem
          exact .inl (.replied hmem)
  | replied h =>
    cases d with
    | operate thread o => exact .inl (.replied h)
    | publish thread e => exact .inl (.replied h)
    | move m => exact .inl (mem_pending_apply h)

theorem begun_le_act (c : Scene σ) (d : Deed σ) : c.station.begun ≤ (c.act d).station.begun := by
  cases succeeded_act d c with
  | same hc hb => exact hb
  | ended hc hb => exact hb
  | next hc hb => exact Nat.le_of_lt hb

theorem begun_le_actAll (c : Scene σ) (deeds : List (Deed σ)) :
    c.station.begun ≤ (c.actAll deeds).station.begun := by
  induction deeds generalizing c with
  | nil => exact Nat.le_refl _
  | cons d rest ih => exact Nat.le_trans (c.begun_le_act d) (ih _)

/-- Nothing is ever said of a run that was not begun. -/
theorem lt_begun_of_spoken {c : Scene σ} (hc : ∀ run, c.Spoken run → run.number < c.station.begun)
    (deeds : List (Deed σ)) {run : RunId} (h : (c.actAll deeds).Spoken run) :
    run.number < (c.actAll deeds).station.begun := by
  induction deeds generalizing c with
  | nil => exact hc run h
  | cons d rest ih =>
    refine ih (fun run hrun => ?_) h
    rcases hrun.of_act with hrun | hlt
    · exact Nat.lt_of_lt_of_le (hc run hrun) (c.begun_le_act d)
    · exact hlt

omit [Server σ] in
theorem not_spoken_start (stamps : Nat → Stamp) (run : RunId) :
    ¬(start stamps : Scene σ).Spoken run := by
  rintro (h | ⟨hm, -⟩ | h)
  · cases h
  · cases hm
  · cases h

/-! ## All or nothing -/

/-- How starting a run ends in a scene, by what is bound, by the phase and by the worker. -/
structure Decided (c : Scene σ) : Prop where
  unbound : c.station.startTest.1 = .error .notBound ↔ c.station.bound = none
  busy : c.station.startTest.1 = .ok false ↔ c.station.bound ≠ none ∧ c.phase ≠ .idle
  /-- What is refused leaves nothing but a line in the log. -/
  refused : c.station.startTest.1 = .error .notBound ∨ c.station.startTest.1 = .ok false →
    ∃ log, c.station.startTest.2 = { c.station with log := log }
  /-- A run that begins has a number of its own, and its two messages are the last in the queue of
  the worker that is bound. -/
  reached : ∀ id w, c.station.bound = some id → c.phase = .idle →
    c.station.worker? id = some w → w.isOpen = true →
    c.station.startTest.1 = .ok true ∧ ¬c.Spoken ⟨c.station.begun⟩ ∧
      ∃ log, c.station.startTest.2 = { c.station with
        lifecycle := c.station.lifecycle.enter .preparing
        current := some ⟨c.station.begun⟩
        begun := c.station.begun + 1
        bus := c.station.bus.publishAll [.phaseChanged .idle .preparing]
        workers := c.station.workers.set id
          { w with queue := w.queue ++ [.login none, .requestTest (.run ⟨c.station.begun⟩)] }
        log := log }
  /-- A run that does not reach a worker is undone, and this is announced. -/
  unreached : ∀ id, c.station.bound = some id → c.phase = .idle →
    (∀ w, c.station.worker? id = some w → w.isOpen = false) →
    c.station.startTest.1 = .error .workerStopped ∧
      ∃ log, c.station.startTest.2 = { c.station with
        lifecycle := { c.station.lifecycle with
          history := Lifecycle.lastOf Lifecycle.historyLimit
            (c.station.lifecycle.history ++ [.preparing, .idle]) }
        current := none
        begun := c.station.begun + 1
        bus := c.station.bus.publishAll
          [.phaseChanged .idle .preparing, .phaseChanged .preparing .idle]
        log := log }

omit [Server σ] in
/-- A pipeline that was free and is so again. -/
theorem enter_preparing_idle {l : Lifecycle} (hp : l.phase = .idle) :
    (l.enter .preparing).enter .idle = { l with
      history := Lifecycle.lastOf Lifecycle.historyLimit (l.history ++ [.preparing, .idle]) } := by
  obtain ⟨phase, latest, history⟩ := l
  obtain rfl : phase = .idle := hp
  simp [Lifecycle.enter, Lifecycle.lastOf_lastOf_append]

omit [Server σ] in
theorem decided_of_fresh {c : Scene σ} (hfresh : ¬c.Spoken ⟨c.station.begun⟩) : c.Decided := by
  cases hb : c.station.bound with
  | none =>
    have h := Station.startTest_of_unbound hb
    exact {
      unbound := by simp [h, hb]
      busy := by simp [h, hb]
      refused := fun _ => ⟨c.station.log, by rw [h]⟩
      reached := fun id w hid => by cases hb.symm.trans hid
      unreached := fun id hid => by cases hb.symm.trans hid }
  | some id =>
    by_cases hp : c.phase = .idle
    · rcases c.station.open_or_closed id with ⟨w, hw, ho⟩ | hclosed
      · obtain ⟨log, h⟩ := Station.startTest_of_open hb hp hw ho
        refine {
          unbound := by simp [h, hb]
          busy := by simp [h, hp]
          refused := by simp [h]
          reached := fun i v hi _ hv _ => ?_
          unreached := fun i hi _ hv => ?_ }
        · obtain rfl := Option.some.inj (hb.symm.trans hi)
          obtain rfl := Option.some.inj (hw.symm.trans hv)
          exact ⟨by rw [h], hfresh, log, by rw [h]⟩
        · obtain rfl := Option.some.inj (hb.symm.trans hi)
          rw [hv w hw] at ho
          cases ho
      · obtain ⟨log, h⟩ := Station.startTest_of_closed hb hp hclosed
        refine {
          unbound := by simp [h, hb]
          busy := by simp [h, hp]
          refused := by simp [h]
          reached := fun i v hi _ hv ho => ?_
          unreached := fun i _ _ _ => ⟨by rw [h], log, by rw [h, enter_preparing_idle hp]⟩ }
        obtain rfl := Option.some.inj (hb.symm.trans hi)
        rw [hclosed v hv] at ho
        cases ho
    · obtain ⟨log, h⟩ := Station.startTest_of_busy hb hp
      exact {
        unbound := by simp [h, hb]
        busy := by simp [h, hb, hp]
        refused := fun _ => ⟨log, by rw [h]⟩
        reached := fun i w _ hidle => absurd hidle hp
        unreached := fun i _ hidle => absurd hidle hp }

/-- A run is started, refused or undone as described in every scene that anything may have led to:
moves of any kind, calls that took their threads down, and others that change the lifecycle or
publish events. The number that it would be given has been that of no run before. -/
theorem decided_of_deeds (stamps : Nat → Stamp) (deeds : List (Deed σ)) :
    ((start stamps).actAll deeds).Decided ∧ ∀ before after, deeds = before ++ after →
      ((start stamps).actAll before).station.current ≠
        some ⟨((start stamps).actAll deeds).station.begun⟩ := by
  have hbegun : ∀ deeds run, ((start stamps : Scene σ).actAll deeds).Spoken run →
      run.number < ((start stamps : Scene σ).actAll deeds).station.begun := fun deeds run =>
    lt_begun_of_spoken (fun run h => absurd h (not_spoken_start stamps run)) deeds
  refine ⟨decided_of_fresh fun h => Nat.lt_irrefl _ (hbegun deeds _ h), ?_⟩
  rintro before after rfl hc
  have hlt := hbegun before _ (.current hc)
  rw [actAll, List.foldl_append] at hlt
  exact Nat.lt_irrefl _ (Nat.lt_of_lt_of_le hlt (begun_le_actAll _ after))

/-- A worker that is held can be stopped and is open still: the run is queued behind its end. -/
example :
    let c := (start fun _ => default : Scene Script).run
      [.addWorker rehearsalScript .anonymous Worker.defaultLimit, .startWorker 0, .bind 0, .hold 0,
        .stopWorker 0, .startTest]
    c.phase = .preparing ∧ (Station.queueOf c.station.workers 0).map Message.kind =
      ["QUIT", "LOGIN", "REQUEST_TEST"] := by
  decide +kernel

end Scene
end LinkTest
