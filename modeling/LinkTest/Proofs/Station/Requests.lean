import LinkTest.Proofs.Station.InFlight
import LinkTest.Proofs.Station.Publishing
import LinkTest.Proofs.Worker.Taking

/-!
# Requests are answered once

Each run makes one request, under a number of its own. A request waits in one queue, then it is
being answered by one worker, then it is gone; a crash can only make it vanish. So no run is ever
told twice of the end of its test, whatever its worker and the server do.
-/

namespace LinkTest

namespace Debt

variable {σ : Type}

/-- Requests that are rejected turn into records of the same runs. -/
theorem runs_rejections (stamps : Nat → Stamp) (queue : List Message) :
    ((Worker.rejections stamps queue).filterMap ofReply).filterMap Debt.run? =
      (ofQueue queue).filterMap Debt.run? := by
  induction queue generalizing stamps with
  | nil => rfl
  | cons m rest ih =>
    rw [ofReply_rejections_cons, ofQueue_cons, List.filterMap_append, List.filterMap_append, ih]
    cases m.run? <;> rfl

/-- Whatever comes of a step, it leaves requests unanswered that were unanswered before. -/
theorem runs_step [Server σ] (stamps : Nat → Stamp) (w : Worker σ) :
    ((ofEffects (w.step stamps).2 ++ ofQueue (w.step stamps).1.queue).filterMap Debt.run?).Sublist
      ((ofQueue w.queue).filterMap Debt.run?) := by
  rw [ofEffects_eq, List.filterMap_append]
  cases ho : w.isOpen with
  | false =>
    rw [w.step_of_closed stamps ho]
    exact List.Sublist.refl _
  | true =>
    cases hq : w.queue with
    | nil =>
      rw [w.step_of_empty stamps hq, hq]
      exact List.Sublist.refl _
    | cons m rest =>
      by_cases hc : (w.step stamps).1.thread = .crashed
      · obtain ⟨hempty, hstarted⟩ := Worker.step_of_crash stamps ho hc
        have hnone :
            ((repliesOf (w.step stamps).2).filterMap ofReply).filterMap Debt.run? = [] := by
          rw [List.filterMap_filterMap, List.filterMap_eq_nil_iff]
          rintro ⟨t, reply⟩ hr
          rw [hstarted t reply hr]
          cases t <;> rfl
        rw [hnone, hempty]
        exact List.nil_sublist _
      · rw [Worker.queue_step stamps ho hq hc, ofQueue_cons, List.filterMap_append]
        cases hm : m.isQuit with
        | true =>
          obtain rfl := Message.eq_quit_of_isQuit hm
          rw [(Worker.step_of_quit stamps ho hq).2, runs_rejections]
          simp
        | false =>
          obtain ⟨-, hr, ha⟩ := Worker.step_of_message stamps ho hq hm hc
          rw [hr, if_neg Bool.false_ne_true]
          cases hrun : m.run? with
          | none =>
            rw [ofReply_addressed hrun ha]
            exact List.Sublist.refl _
          | some run =>
            obtain rfl := Message.eq_requestTest_of_run? hrun
            rw [(stage_addressed ha).filterMap_run?]
            exact List.Sublist.refl _

end Debt

namespace Scene

variable {σ : Type}

/-- The runs whose requests wait in the queue of a worker. -/
def asked (c : Scene σ) (id : Nat) : List RunId :=
  (Station.queueOf c.station.workers id).filterMap Message.run?

theorem asked_eq (c : Scene σ) (id : Nat) :
    c.asked id = (Debt.ofQueue (Station.queueOf c.station.workers id)).filterMap Debt.run? := by
  rw [asked, Debt.ofQueue, List.filterMap_filterMap]
  congr 1
  funext m
  cases hm : m.run? <;> simp [Debt.run?]

theorem asked_subset_unanswered (c : Scene σ) (id : Nat) : c.asked id ⊆ c.unanswered id :=
  List.subset_append_right _ _

/-- Requests that are unanswered are of runs that were begun, and each is in one place. -/
structure Numbered (c : Scene σ) : Prop where
  begun : ∀ id run, run ∈ c.unanswered id → run.number < c.station.begun
  nodup : ∀ id, (c.unanswered id).Nodup
  apart : ∀ i j run, run ∈ c.unanswered i → run ∈ c.unanswered j → i = j

theorem numbered_start (stamps : Nat → Stamp) : (start stamps : Scene σ).Numbered := by
  have h : ∀ id, (start stamps : Scene σ).unanswered id = [] := fun _ => rfl
  exact ⟨by simp [h], by simp [h], by simp [h]⟩

variable [Server σ]

/-- All that can happen to requests: one is made, by the run that begins, or some are gone. -/
inductive Requested (c c' : Scene σ) : Prop
  | made (id : Nat)
    (ha : ∀ j, c'.asked j = c.asked j ++ if j = id then [⟨c.station.begun⟩] else [])
    (hu : ∀ j, c'.unanswered j = c.unanswered j ++ if j = id then [⟨c.station.begun⟩] else [])
    (hb : c'.station.begun = c.station.begun + 1) : Requested c c'
  | gone (ha : ∀ j, (c'.asked j).Sublist (c.asked j))
    (hu : ∀ j, (c'.unanswered j).Sublist (c.unanswered j))
    (hb : c.station.begun ≤ c'.station.begun) : Requested c c'

omit [Server σ] in
theorem Requested.of_sublist {c c' : Scene σ}
    (hq : ∀ j, Debt.ofQueue (Station.queueOf c'.station.workers j) =
      Debt.ofQueue (Station.queueOf c.station.workers j))
    (hd : ∀ j, (c'.debts j).Sublist (c.debts j)) (hb : c.station.begun ≤ c'.station.begun) :
    Requested c c' := by
  refine .gone (fun j => ?_) (fun j => ?_) hb
  · rw [asked_eq, asked_eq, hq]
  · rw [unanswered_eq, unanswered_eq]
    exact (hd j).filterMap _

omit [Server σ] in
/-- A change that does not concern requests. -/
theorem Requested.of_staffed {c c' : Scene σ} (hp : c'.pending = c.pending)
    (hs : Station.Staffed c.station.workers c'.station.workers)
    (hb : c.station.begun ≤ c'.station.begun) : Requested c c' := by
  refine .of_sublist hs.ofQueue (fun j => ?_) hb
  rw [debts, debts, hp, hs.ofQueue]

theorem requested_startTest (c : Scene σ) : Requested c (c.apply .startTest) := by
  have hb := c.station.beginning_startTest
  have hc : c.apply .startTest = { c with station := c.station.startTest.2 } := rfl
  generalize c.station.startTest = x at hb hc
  rw [hc]
  cases hb with
  | unbound => exact .of_staffed rfl .same (Nat.le_refl _)
  | busy => exact .of_staffed rfl .same (Nat.le_refl _)
  | unreached => exact .of_staffed rfl .same (Nat.le_succ _)
  | @reached id w hp hw ho log =>
    have hasked : ∀ j, Station.queueOf (c.station.workers.set id
        { w with queue := w.queue ++ [.login none, .requestTest (.run ⟨c.station.begun⟩)] }) j =
        Station.queueOf c.station.workers j ++
          if j = id then [.login none, .requestTest (.run ⟨c.station.begun⟩)] else [] :=
      Station.queueOf_set hw rfl
    refine .made id (fun j => ?_) (fun j => ?_) rfl
    · rw [asked, hasked, List.filterMap_append]
      congr 1
      split <;> rfl
    · rw [unanswered, hasked, List.filterMap_append, ← List.append_assoc]
      congr 1
      split <;> rfl

theorem requested_take (id : Nat) (c : Scene σ) : Requested c (c.apply (.take id)) := by
  rcases c.take_eq id with ht | ⟨w, stamps, stamped, hw, hp, ht⟩
  · rw [apply, ht]
    exact .of_staffed rfl .same (Nat.le_refl _)
  · have hid : id < c.station.workers.length := Station.mem_workers_of_worker? hw
    rw [apply, ht]
    refine .gone (fun j => ?_) (fun j => ?_) (Nat.le_refl _)
    · by_cases hj : j = id
      · subst hj
        simp only [asked, Station.queueOf_set_self _ hid, Station.queueOf_eq hw]
        exact (Worker.queue_step_suffix stamps w).sublist.filterMap _
      · simp only [asked, Station.queueOf_set_ne _ hj]
        exact List.Sublist.refl _
    · rw [unanswered_eq, unanswered_eq]
      by_cases hj : j = id
      · subst hj
        simpa [debts, hp, Station.queueOf_set_self _ hid, Station.queueOf_eq hw] using
          Debt.runs_step stamps w
      · simp only [debts, Station.queueOf_set_ne _ hj, Function.update_of_ne hj]
        exact List.Sublist.refl _

theorem requested_carry (id : Nat) (c : Scene σ) : Requested c (c.apply (.carry id)) := by
  cases hp : c.pending id with
  | nil =>
    simp only [apply, carry, hp]
    exact .of_staffed rfl .same (Nat.le_refl _)
  | cons e rest =>
    refine .of_sublist (fun j => ?_) (fun j => ?_) (frame_apply _ c).2
    · rw [carry_of_cons hp]
      exact (c.station.staffed_perform e).ofQueue j
    · rw [debts_carry hp j]
      exact List.sublist_append_right _ _

theorem requested_apply (m : Move σ) (c : Scene σ) : Requested c (c.apply m) := by
  cases hm : m.isDriving with
  | false =>
    have ha := aside_of_not_driving hm c
    exact .of_staffed ha.pending ha.staffed (frame_apply m c).2
  | true =>
    cases m with
    | startTest => exact c.requested_startTest
    | acknowledge =>
      refine .of_staffed rfl ?_ (frame_apply _ c).2
      by_cases hp : c.station.lifecycle.phase = .completed
      · obtain ⟨log, h⟩ := Station.acknowledgeResults_of_completed hp
        rw [apply, h]
        exact .same
      · obtain ⟨log, h⟩ := Station.acknowledgeResults_of_not_completed hp
        rw [apply, h]
        exact .same
    | take id => exact c.requested_take id
    | carry id => exact c.requested_carry id
    | _ => cases hm

theorem Numbered.apply {c : Scene σ} (h : c.Numbered) (m : Move σ) : (c.apply m).Numbered := by
  cases requested_apply m c with
  | gone ha hu hb =>
    refine ⟨fun id run hr => ?_, fun id => (h.nodup id).sublist (hu id), fun i j run hi hj => ?_⟩
    · exact Nat.lt_of_lt_of_le (h.begun id run ((hu id).subset hr)) hb
    · exact h.apart i j run ((hu i).subset hi) ((hu j).subset hj)
  | made id ha hu hb =>
    -- The number of the new run is not among the old ones.
    have hnew : ∀ j, (⟨c.station.begun⟩ : RunId) ∉ c.unanswered j := fun j hj =>
      Nat.lt_irrefl _ (h.begun j _ hj)
    have hmem : ∀ j run, run ∈ (c.apply m).unanswered j →
        run ∈ c.unanswered j ∨ j = id ∧ run = ⟨c.station.begun⟩ := by
      intro j run hr
      rw [hu] at hr
      split at hr
      · next hj =>
        rw [List.mem_append, List.mem_singleton] at hr
        exact hr.imp_right fun hr => ⟨hj, hr⟩
      · exact .inl (by simpa using hr)
    refine ⟨fun j run hr => ?_, fun j => ?_, fun i j run hi hj => ?_⟩
    · rw [hb]
      rcases hmem j run hr with hr | ⟨-, rfl⟩
      · exact Nat.lt_succ_of_lt (h.begun j run hr)
      · exact Nat.lt_succ_self _
    · rw [hu]
      split
      · exact List.nodup_append.2 ⟨h.nodup j, by simp, by
          rintro a ha b hb rfl
          rw [List.mem_singleton.1 hb] at ha
          exact hnew j ha⟩
      · rw [List.append_nil]
        exact h.nodup j
    · rcases hmem i run hi with hi | ⟨rfl, rfl⟩ <;> rcases hmem j _ hj with hj | ⟨rfl, hr⟩
      · exact h.apart i j _ hi hj
      · exact absurd (hr ▸ hi) (hnew i)
      · exact absurd hj (hnew j)
      · rfl

end Scene
end LinkTest
