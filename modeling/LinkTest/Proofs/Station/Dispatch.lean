import Mathlib.Data.List.Induction
import LinkTest.Proofs.Station.Flight
import LinkTest.Proofs.Station.Publishing
import LinkTest.Proofs.Worker.Taking

/-!
# Where the messages of a run are sent

A run sends its login and its request to the worker that is bound when it begins. Its upload goes to
the worker that is bound when its test ends, which is another one if the binding has changed in
between. Nothing else is ever sent on behalf of a run.
-/

namespace LinkTest

namespace Station

variable {σ : Type}

theorem Handed.queueOf_append {ws ws' : List (Worker σ)} (h : Handed ws ws') (j : Nat) :
    ∃ ms, queueOf ws' j = queueOf ws j ++ ms ∧ ∀ m ∈ ms, m.forRun? = none := by
  cases h with
  | same => exact ⟨[], (List.append_nil _).symm, by simp⟩
  | hired server own limit =>
    exact ⟨[], by rw [queueOf_hired, List.append_nil], by simp⟩
  | handed hw hc hq hm =>
    refine ⟨_, queueOf_set hw hq j, ?_⟩
    split
    · exact hm
    · simp

/-- A run begins if the pipeline is free and the worker that is bound is open. -/
theorem startTest_of_ok {s : Station σ} {id : Nat} (hb : s.bound = some id)
    (hr : s.startTest.1 = .ok true) :
    ∃ w log, s.worker? id = some w ∧ s.startTest = (.ok true, { s with
      lifecycle := s.lifecycle.enter .preparing
      current := some ⟨s.begun⟩
      begun := s.begun + 1
      bus := s.bus.publishAll [.phaseChanged .idle .preparing]
      workers := s.workers.set id
        { w with queue := w.queue ++ [.login none, .requestTest (.run ⟨s.begun⟩)] }
      log := log }) := by
  by_cases hp : s.lifecycle.phase = .idle
  · rcases s.open_or_closed id with ⟨w, hw, ho⟩ | hc
    · obtain ⟨log, h⟩ := startTest_of_open hb hp hw ho
      exact ⟨w, log, hw, h⟩
    · obtain ⟨log, h⟩ := startTest_of_closed hb hp hc
      rw [h] at hr
      cases hr
  · obtain ⟨log, h⟩ := startTest_of_busy hb hp
    rw [h] at hr
    cases hr

end Station

namespace Scene

variable {σ : Type} [Server σ]

/-- The messages that a move sends to a worker: those that it adds to the end of its queue. -/
def posted (c : Scene σ) (m : Move σ) (id : Nat) : List Message :=
  (Station.queueOf (c.apply m).station.workers id).drop
    (Station.queueOf c.station.workers id).length

omit [Server σ] in
/-- The worker that is bound after some moves, if it is `id` before them. -/
def boundAfter (id : Nat) (moves : List (Move σ)) : Nat :=
  (moves.filterMap Move.binds?).getLast?.getD id

/-! ## The binding -/

theorem bound_run {id : Nat} (c : Scene σ) (hb : c.station.bound = some id)
    (moves : List (Move σ)) : (c.run moves).station.bound = some (boundAfter id moves) := by
  induction moves using List.reverseRecOn with
  | nil => exact hb
  | append_singleton moves m ih =>
    rw [run_append, run_cons, run_nil, (frame_apply m _).1, ih, boundAfter, boundAfter,
      List.filterMap_append]
    cases h : m.binds? <;> simp [h]

theorem begun_le_run (c : Scene σ) (moves : List (Move σ)) :
    c.station.begun ≤ (c.run moves).station.begun := by
  induction moves generalizing c with
  | nil => exact Nat.le_refl _
  | cons m rest ih => exact Nat.le_trans (frame_apply m c).2 (ih _)

/-! ## What is sent -/

theorem posted_of_append {c : Scene σ} {m : Move σ} {id : Nat} {ms : List Message}
    (h : Station.queueOf (c.apply m).station.workers id =
      Station.queueOf c.station.workers id ++ ms) : c.posted m id = ms := by
  rw [posted, h, List.drop_left]

/-- What a thread leaves in the queues stood at their ends before. -/
theorem queueOf_take (c : Scene σ) (id j : Nat) :
    Station.queueOf (c.apply (.take id)).station.workers j <:+
      Station.queueOf c.station.workers j := by
  rcases c.take_eq id with ht | ⟨w, stamps, stamped, hw, -, ht⟩
  · simp only [apply, ht, List.suffix_rfl]
  · rw [apply, ht]
    by_cases hj : j = id
    · subst hj
      rw [Station.queueOf_set_self _ (Station.mem_workers_of_worker? hw), Station.queueOf_eq hw]
      exact Worker.queue_step_suffix stamps w
    · simp only [Station.queueOf_set_ne _ hj, List.suffix_rfl]

/-- Whoever takes messages sends none. -/
theorem posted_take (c : Scene σ) (id j : Nat) : c.posted (.take id) j = [] :=
  List.drop_eq_nil_iff.2 (c.queueOf_take id j).length_le

/-- What a move sends on behalf of a run: the request when the run begins, and the upload when its
test has ended. Both go to the worker that is bound. -/
theorem posted_forRun {c : Scene σ} {m : Move σ} {j : Nat} {x : Message} {run : RunId}
    (hx : x ∈ c.posted m j) (hf : x.forRun? = some run) : c.station.bound = some j ∧
      ((m = .startTest ∧ run = ⟨c.station.begun⟩) ∨
        ∃ id r rest, m = .carry id ∧ c.pending id = .reply (.run run) (.finished r) :: rest ∧
          r.isValid = true ∧ x = .report r (some (.run run))) := by
  cases hm : m.isDriving with
  | false =>
    obtain ⟨ms, hq, hms⟩ := (beside_of_not_driving hm c).handed.queueOf_append j
    rw [posted_of_append hq] at hx
    rw [hms x hx] at hf
    cases hf
  | true =>
    obtain ⟨news, c', log, -, h, hc⟩ := c.made (Move.isListening_of_isDriving hm)
    have hsent : ∀ ms, Station.queueOf c'.station.workers j =
        Station.queueOf c.station.workers j ++ ms → x ∈ ms := by
      intro ms hq
      rwa [posted_of_append (by rw [hc]; exact hq)] at hx
    have hnone : c'.station.workers ≠ c.station.workers := by
      intro hw
      cases hsent [] (by rw [hw, List.append_nil])
    cases h with
    | aside h => cases hm.symm.trans h
    | taken id =>
      rw [posted_take] at hx
      cases hx
    | refused m h => exact absurd rfl hnone
    | @reached id w hb hp hw ho =>
      obtain ⟨rfl, hx'⟩ := List.mem_ite_nil_right.1 (hsent _ (Station.queueOf_set hw rfl j))
      rw [List.mem_cons, List.mem_singleton] at hx'
      rcases hx' with rfl | rfl
      · cases hf
      · exact ⟨hb, .inl ⟨rfl, (Option.some.inj hf).symm⟩⟩
    | unreached => exact absurd rfl hnone
    | acknowledged => exact absurd rfl hnone
    | waited => exact absurd rfl hnone
    | @carried k e rest news t hp h =>
      cases h with
      | noted n => exact absurd rfl hnone
      | deposited => exact absurd rfl hnone
      | replied h =>
        cases h with
        | ignored => exact absurd rfl hnone
        | uploaded => exact absurd rfl hnone
        | begun => exact absurd rfl hnone
        | failed => exact absurd rfl hnone
        | stray => exact absurd rfl hnone
        | completed hcur hph hr hs =>
          cases hs with
          | nowhere => exact absurd rfl hnone
          | @sent id w hb hw ho =>
            obtain ⟨rfl, hx'⟩ := List.mem_ite_nil_right.1 (hsent _ (Station.queueOf_set hw rfl j))
            obtain rfl := List.mem_singleton.1 hx'
            obtain rfl := Option.some.inj hf
            exact ⟨hb, .inr ⟨k, _, rest, rfl, hp, hr, rfl⟩⟩

/-- The upload of a run that has completed its test goes to the worker that is bound, if that one is
open. -/
theorem posted_upload {c : Scene σ} {k id : Nat} {run : RunId} {r : Record} {rest : List Effect}
    {w : Worker σ} (hp : c.pending k = .reply (.run run) (.finished r) :: rest)
    (hcur : c.station.current = some run) (hph : c.phase = .testing) (hr : r.isValid = true)
    (hb : c.station.bound = some id) (hw : c.station.worker? id = some w)
    (ho : w.isOpen = true) : c.posted (.carry k) id = [.report r (some (.run run))] := by
  have hs : ∀ t : Station σ, t.bound = c.station.bound → t.workers = c.station.workers →
      ∃ log, t.submit run r = { t with
        workers := c.station.workers.set id
          { w with queue := w.queue ++ [.report r (some (.run run))] }
        log := log } := by
    intro t ht hws
    rw [← hws]
    exact Station.submit_of_open run r (ht.trans hb) (by rw [Station.worker?, hws]; exact hw) ho
  obtain ⟨log, h⟩ := Station.onReply_finished_of_testing hcur hph hr hs
  refine posted_of_append ?_
  rw [carry_of_cons hp]
  simp only [Station.perform, h]
  rw [Station.queueOf_set hw rfl, if_pos rfl]

omit [Server σ] in
/-- The worker that is bound after no other was bound. -/
theorem boundAfter_of_forall {id : Nat} {moves : List (Move σ)}
    (h : ∀ k, .bind k ∈ moves → k = id) : boundAfter id moves = id := by
  unfold boundAfter
  cases hl : (moves.filterMap Move.binds?).getLast? with
  | none => rfl
  | some k =>
    obtain ⟨m, hm, hk⟩ := List.mem_filterMap.1 (List.mem_of_getLast? hl)
    cases m with
    | bind i =>
      obtain rfl : i = k := Option.some.inj hk
      exact h i hm
    | _ => cases hk

/-- A run that has begun has sent its login and its request to the worker that was bound then, and
nothing to another. All that is sent on its behalf later is the upload of a valid record in the
moment in which its test has ended. It goes to the worker that is bound in that moment, which is the
one that made the test if no other was bound since the run began. -/
theorem dispatch_of_run {c : Scene σ} {id : Nat} (hb : c.station.bound = some id)
    (hr : c.station.startTest.1 = .ok true) :
    (∀ j, c.posted .startTest j =
      if j = id then [.login none, .requestTest (.run ⟨c.station.begun⟩)] else []) ∧
    ∀ (later : List (Move σ)) (d : Scene σ), (c.apply .startTest).run later = d →
      (∀ m j x, x ∈ d.posted m j → x.forRun? = some ⟨c.station.begun⟩ →
        j = boundAfter id later ∧
        ((∀ k, .bind k ∈ later → k = id) → j = id) ∧
        ∃ k r rest, m = .carry k ∧
          d.pending k = .reply (.run ⟨c.station.begun⟩) (.finished r) :: rest ∧
          r.isValid = true ∧ x = .report r (some (.run ⟨c.station.begun⟩))) ∧
      ∀ k r rest w, d.pending k = .reply (.run ⟨c.station.begun⟩) (.finished r) :: rest →
        d.station.current = some ⟨c.station.begun⟩ → d.phase = .testing → r.isValid = true →
        d.station.worker? (boundAfter id later) = some w → w.isOpen = true →
        d.posted (.carry k) (boundAfter id later) =
          [.report r (some (.run ⟨c.station.begun⟩))] := by
  obtain ⟨w, log, hw, hs⟩ := Station.startTest_of_ok hb hr
  have hafter : (c.apply .startTest).station = c.station.startTest.2 := rfl
  rw [hs] at hafter
  refine ⟨fun j => ?_, ?_⟩
  · refine posted_of_append ?_
    rw [hafter]
    exact Station.queueOf_set hw rfl j
  · rintro later d rfl
    have hbound : ((c.apply .startTest).run later).station.bound = some (boundAfter id later) :=
      bound_run _ (by rw [hafter]; exact hb) later
    have hbegun : c.station.begun < ((c.apply .startTest).run later).station.begun := by
      have hle := begun_le_run (c.apply .startTest) later
      rw [hafter] at hle
      exact hle
    refine ⟨fun m j x hx hf => ?_, fun k r rest v hp hcur hph hv hw ho =>
      posted_upload hp hcur hph hv hbound hw ho⟩
    obtain ⟨hj, hsent⟩ := posted_forRun hx hf
    obtain rfl : boundAfter id later = j := Option.some.inj (hbound.symm.trans hj)
    refine ⟨rfl, boundAfter_of_forall, ?_⟩
    rcases hsent with ⟨-, hrun⟩ | hsent
    · rw [RunId.mk.injEq] at hrun
      exact absurd hrun (Nat.ne_of_lt hbegun)
    · exact hsent

theorem dispatch_of_rehearsed :
    let c := (start fun _ => default).run (rehearsal.take 3)
    c.station.bound = some 0 ∧ c.station.startTest.1 = .ok true ∧ ∀ j, c.posted .startTest j =
      if j = 0 then [.login none, .requestTest (.run ⟨c.station.begun⟩)] else [] := by
  intro c
  have hb : c.station.bound = some 0 := rfl
  have hr : c.station.startTest.1 = .ok true := rfl
  exact ⟨hb, hr, (dispatch_of_run hb hr).1⟩

/-- Two workers, of which the first is bound. -/
def reboundBefore : Scene Script :=
  let hire : Move Script := .addWorker rehearsalScript .anonymous Worker.defaultLimit
  (start fun _ => default).run [hire, .startWorker 0, hire, .startWorker 1, .bind 0]

/-- The second is bound while the first makes the test, up to the moment in which this ends. -/
def rebinding : List (Move Script) :=
  [.bind 1, .take 0, .carry 0, .carry 0, .take 0, .carry 0, .carry 0, .carry 0]

/-- What is sent on behalf of a run does not always go to the worker that was bound when it
began. -/
theorem not_dispatched_to_one : ¬ ∀ (c : Scene Script) (id : Nat), c.Reached →
    c.station.bound = some id → c.station.startTest.1 = .ok true →
    ∀ later m j x, x ∈ ((c.apply .startTest).run later).posted m j →
      x.forRun? = some ⟨c.station.begun⟩ → j = id := by
  intro h
  have hsent : (((reboundBefore.apply .startTest).run rebinding).posted (.carry 0) 1).map
      Message.forRun? = [some ⟨0⟩] := by decide +kernel
  have hmem := List.mem_singleton_self (some (RunId.mk 0))
  rw [← hsent] at hmem
  obtain ⟨x, hx, hf⟩ := List.mem_map.1 hmem
  have hone := h reboundBefore 0 ⟨_, _, rfl⟩ rfl rfl rebinding (.carry 0) 1 x hx hf
  cases hone

end Scene
end LinkTest
