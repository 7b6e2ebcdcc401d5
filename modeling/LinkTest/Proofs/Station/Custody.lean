import LinkTest.Proofs.Station.Pursuit

/-!
# Who has a record until it is sent off

A valid record stays with the thread of the worker that has made the test, from the reply up to the
section in which it is sent off. By then the run is over, and the next one may have begun.
-/

namespace LinkTest

namespace Station

/-- The effect that the thread has taken up and not looked at. -/
def Duty.effect? : Duty → Option Effect
  | .carry e => some e
  | _ => none

/-- The run is over, and the binding was not read for its upload. -/
def Duty.isUnaddressed : Duty → Bool
  | .unveil _ _ | .present _ _ | .address _ _ => true
  | _ => false

/-- The run is over, and its record was not sent off. -/
def Duty.isUnsent : Duty → Bool
  | .upload _ _ _ => true
  | d => d.isUnaddressed

/-- The record of a run that the thread has at hand. -/
def Duty.record? : Duty → Option (RunId × Record)
  | .complete run r | .unveil run r | .present run r | .address run r | .upload _ run r =>
    some (run, r)
  | _ => none

/-- The worker that the caller makes a run with, once the pipeline is claimed. -/
def Visit.worker? : Visit → Option Nat
  | .enlist id | .herald id _ | .login id _ | .request id _ => some id
  | _ => none

theorem Visit.isClaimed_of_worker? {v : Visit} {id : Nat} (h : v.worker? = some id) :
    v.isClaimed = true := by
  cases v <;> first | rfl | cases h

variable {σ : Type} {s t : Station σ} {d d' : Duty} {news : List Event} {next : Option Duty}

theorem Duty.Made.isUnaddressed (h : d.Made s news (some d') t) (hd : d'.isUnaddressed = true) :
    d.isUnaddressed = true ∨ ∃ run r, d = .complete run r := by
  generalize hn : some d' = n at h
  cases h with
  | completed run => exact .inr ⟨run, _, rfl⟩
  | unveiled => exact .inl rfl
  | presented => exact .inl rfl
  | addressed =>
    cases hb : s.bound <;> rw [hb] at hn <;> cases hn
    cases hd
  | told source target failure =>
    cases failure <;> cases hn
    cases hd
  | _ => cases hn <;> cases hd

theorem Duty.Made.isUnsent (h : d.Made s news (some d') t) (hd : d'.isUnsent = true) :
    d.isUnsent = true ∨ ∃ run r, d = .complete run r := by
  generalize hn : some d' = n at h
  cases h with
  | completed run => exact .inr ⟨run, _, rfl⟩
  | unveiled => exact .inl rfl
  | presented => exact .inl rfl
  | addressed => exact .inl rfl
  | told source target failure =>
    cases failure <;> cases hn
    cases hd
  | _ => cases hn <;> cases hd

/-- The upload goes to the worker that was bound when the binding was read. -/
theorem Duty.Made.upload {id : Nat} {run : RunId} {r : Record}
    (h : d.Made s news (some (.upload id run r)) t) : d = .address run r ∧ s.bound = some id := by
  generalize hn : some (Duty.upload id run r) = n at h
  cases h with
  | addressed =>
    obtain ⟨k, hb, he⟩ := Option.map_eq_some_iff.1 hn.symm
    cases he
    exact ⟨rfl, hb⟩
  | told source target failure => cases failure <;> cases hn
  | _ => cases hn

/-- A record that is at hand has been so before, or it comes from the reply. -/
theorem Duty.Made.record? {run : RunId} {r : Record} (h : d.Made s news (some d') t)
    (hd : d'.record? = some (run, r)) : d.record? = some (run, r) ∨
      d = .carry (.reply (.run run) (.finished r)) ∧ r.isValid = true := by
  generalize hn : some d' = n at h
  cases h with
  | tested hc hr =>
    cases hn
    cases hd
    exact .inr ⟨rfl, hr⟩
  | addressed =>
    obtain ⟨k, -, rfl⟩ := Option.map_eq_some_iff.1 hn.symm
    exact .inl hd
  | told source target failure =>
    cases failure <;> cases hn
    cases hd
  | _ => cases hn <;> exact .inl hd

theorem Visit.Made.worker? {v u : Visit} {id : Nat} (h : v.Made s news (.inl u) t)
    (hu : u.worker? = some id) :
    v.worker? = some id ∨ v = .claim id ∧ s.lifecycle.phase = .idle := by
  generalize hn : Sum.inl u = n at h
  cases h with
  | claimed k hp =>
    cases hn
    cases hu
    exact .inr ⟨rfl, hp⟩
  | _ => cases hn <;> first | exact .inl hu | cases hu

end Station

open Station (Visit Duty)

namespace Ensemble

variable {σ : Type} {e : Ensemble σ}

/-- The effects that a thread has still to look at, the one that it has taken up first. -/
def effects (e : Ensemble σ) (id : Nat) : List Effect :=
  ((e.duties id).bind Duty.effect?).toList ++ e.scene.pending id

/-- A worker's thread has a valid record of the run, or it will be told of it. -/
def Holds (e : Ensemble σ) (id : Nat) (run : RunId) (r : Record) : Prop :=
  .reply (.run run) (.finished r) ∈ e.effects id ∧ r.isValid = true ∨
    ∃ d, e.duties id = some d ∧ d.record? = some (run, r)

theorem mem_unsettled_of_duty {id : Nat} {d : Duty} {run : RunId} (hd : e.duties id = some d)
    (hr : d.run? = some run) : run ∈ e.unsettled id := by
  simp [unsettled, hd, hr]

/-- While the thread of a worker sees to the end of a run, nobody asks the worker for another. -/
theorem Pursuit.asked_eq_nil (h : e.Pursuit) {id : Nat} {d : Duty} {run : RunId}
    (hd : e.duties id = some d) (hr : d.run? = some run) : e.scene.asked id = [] := by
  obtain ⟨-, -, hone, -⟩ := h.of_unsettled (mem_unsettled_of_duty hd hr)
  have hnil : e.scene.unanswered id = [] := by simpa [unsettled, hd, hr] using hone
  exact (List.append_eq_nil_iff.1 hnil).2

variable [Server σ] {m : Move σ}

/-- What becomes of the duty of a thread. -/
theorem duties_apply {id : Nat} {d' : Duty} (h : (e.apply m).duties id = some d') :
    e.duties id = some d' ∨ m = .carry id ∧
      ((∃ x rest, e.duties id = none ∧ e.scene.pending id = x :: rest ∧ d' = .carry x) ∨
        ∃ d news t, e.duties id = some d ∧ d.Made e.scene.station news (some d') t) := by
  obtain ⟨news, e', b, log, hmade, -, he⟩ := e.made m
  rw [he] at h
  cases hmade with
  | @takenUp k x rest hd hp =>
    by_cases hk : id = k
    · subst hk
      obtain rfl : Duty.carry x = d' := by simpa [wired] using h
      exact .inr ⟨rfl, .inl ⟨x, rest, hd, hp, rfl⟩⟩
    · exact .inl (by simpa [wired, hk] using h)
  | @carried k d news next t hd hm =>
    by_cases hk : id = k
    · subst hk
      obtain rfl : next = some d' := by simpa [wired] using h
      exact .inr ⟨rfl, .inr ⟨d, news, t, hd, hm⟩⟩
    · exact .inl (by simpa [wired, hk] using h)
  | _ => exact .inl h

theorem visits_apply {k : Nat} {u : Visit} (h : (e.apply m).visits k = some u) :
    e.visits k = some u ∨ u = .start ∨ u = .acknowledge ∨ m = .proceed k ∧
      ∃ v news t, e.visits k = some v ∧ v.Made e.scene.station news (.inl u) t := by
  obtain ⟨news, e', b, log, hmade, -, he⟩ := e.made m
  rw [he] at h
  cases hmade with
  | @entered m j v hm hv =>
    by_cases hk : k = j
    · subst hk
      obtain rfl : v = u := by simpa [wired] using h
      exact .inr (hm.imp And.right fun h => .inl h.2)
    · exact .inl (by simpa [wired, hk] using h)
  | @proceeded j v news next t hv hm =>
    rcases visits_visited (e := e) (t := t) h with ⟨rfl, hn⟩ | ⟨-, hu⟩
    · obtain rfl : next = .inl u := by
        cases next <;> cases hn
        rfl
      exact .inr (.inr (.inr ⟨rfl, v, news, t, hv, hm⟩))
    · exact .inl hu
  | _ => exact .inl h

/-- The binding changes only when a worker is bound. -/
theorem bound_apply (m : Move σ) (e : Ensemble σ) :
    (e.apply m).scene.station.bound = e.scene.station.bound ∨ ∃ k, m = .aside (.bind k) := by
  obtain ⟨news, e', b, log, hmade, -, he⟩ := e.made m
  rw [he]
  cases hmade with
  | @aside m hm =>
    have hb := (Scene.beside_of_not_driving hm e.scene).bound
    cases m with
    | bind k => exact .inr ⟨k, rfl⟩
    | _ => exact .inl hb
  | taken => exact .inl (e.scene.take_frame _).1
  | proceeded hv hm => exact .inl (by cases hm <;> rfl)
  | carried hd hm => exact .inl (by cases hm <;> rfl)
  | _ => exact .inl rfl

/-- The end of a run has to be seen to as before, or because a caller has just asked for it. -/
theorem mem_unsettled_apply {id : Nat} {run : RunId} (h : run ∈ (e.apply m).unsettled id) :
    run ∈ e.unsettled id ∨ ∃ k, m = .proceed k ∧ e.visits k = some (.request id run) := by
  obtain ⟨news, e', b, log, hmade, -, he⟩ := e.made m
  rw [he] at h
  cases hmade with
  | aside hm =>
    refine .inl ?_
    rw [unsettled, ← unanswered_aside hm]
    exact h
  | waited => exact .inl h
  | entered => exact .inl h
  | @taken k w hd hw =>
    exact .inl ((List.Sublist.append (List.Sublist.refl _) (unanswered_take k e.scene id).1).subset h)
  | @takenUp k x rest hd hp =>
    refine .inl ?_
    by_cases hk : id = k
    · subst hk
      cases hx : x.concluded? <;>
        simpa [wired, Scene.wired, Station.wired, unsettled, Scene.unanswered, hd, hp, Duty.run?, hx]
          using h
    · simpa [wired, Scene.wired, Station.wired, unsettled, Scene.unanswered, hk] using h
  | carried hd hm => exact .inl ((unsettled_served_sublist hd hm id).subset h)
  | @proceeded k v news next t hv hm =>
    rcases List.mem_append.1 h with h | h
    · exact .inl (List.mem_append_left _ h)
    · rcases unanswered_of_visit (c := e.scene) hm id with hsame | ⟨other, rfl, hone⟩
      · exact .inl (List.mem_append_right _ (hsame ▸ h))
      · have h := hone ▸ h
        rcases List.mem_append.1 h with h | h
        · exact .inl (List.mem_append_right _ h)
        · obtain rfl := List.mem_singleton.1 h
          exact .inr ⟨k, rfl, hv⟩

/-- A message that waits in a queue was there before, or it was sent just now. -/
theorem mem_queueOf_apply (hm : ∀ id, m ≠ .take id) {id : Nat} {x : Message}
    (hx : x ∈ Station.queueOf (e.apply m).scene.station.workers id) :
    x ∈ Station.queueOf e.scene.station.workers id ∨ Sends e m id x := by
  cases hw' : (e.apply m).scene.station.worker? id with
  | none =>
    have hnone : (e.apply m).scene.station.workers[id]? = none := hw'
    simp [Station.queueOf, hnone] at hx
  | some w' =>
    rw [Station.queueOf_eq hw'] at hx
    rcases worker_of_supplied hm hw' with ⟨w, ms, hw, -, hq, hms⟩ | ⟨_, _, _, -, rfl, -⟩
    · rw [hq, List.mem_append] at hx
      rw [Station.queueOf_eq hw]
      exact hx.imp_right (hms x)
    · cases hx

/-- Only a caller who has claimed the pipeline asks for a test. -/
theorem mem_asked_apply {id : Nat} {run : RunId} (h : run ∈ (e.apply m).scene.asked id) :
    run ∈ e.scene.asked id ∨ ∃ k, m = .proceed k ∧ e.visits k = some (.request id run) := by
  by_cases hm : ∃ k, m = .take k
  · obtain ⟨k, rfl⟩ := hm
    refine .inl ?_
    simp only [apply] at h
    split at h
    · exact h
    · exact (unanswered_take k e.scene id).2.subset h
  · obtain ⟨x, hx, hr⟩ := List.mem_filterMap.1 h
    rcases mem_queueOf_apply (fun k hk => hm ⟨k, hk⟩) hx with hx | hx
    · exact .inl (List.mem_filterMap.2 ⟨x, hx, hr⟩)
    · cases hx with
      | handed hx => cases hr.symm.trans (Message.run?_of_forRun? (Scene.forRun?_of_message? hx))
      | login => cases hr
      | upload => cases hr
      | @request k _ other hv =>
        cases hr
        exact .inr ⟨k, rfl, hv⟩

/-- No worker goes away. -/
theorem length_apply (m : Move σ) (e : Ensemble σ) :
    e.scene.station.workers.length ≤ (e.apply m).scene.station.workers.length := by
  obtain ⟨news, e', b, log, hmade, -, he⟩ := e.made m
  rw [he]
  have hset : ∀ (id : Nat) (w : Worker σ), e.scene.station.workers.length ≤
      (e.scene.station.workers.set id w).length := fun id w =>
    Nat.le_of_eq List.length_set.symm
  cases hmade with
  | aside hm => exact (Scene.aside_of_not_driving hm e.scene).staffed.length_le
  | @taken id w hd hw =>
    rcases e.scene.take_eq id with ht | ⟨w, stamps, stamped, -, -, ht⟩
    · exact Nat.le_of_eq (congrArg (fun c => c.station.workers.length) ht).symm
    · rw [wired, Scene.wired, Station.wired, ht]
      exact hset id _
  | proceeded hv hm => cases hm <;> first | exact Nat.le_refl _ | exact hset _ _
  | carried hd hm => cases hm <;> first | exact Nat.le_refl _ | exact hset _ _
  | _ => exact Nat.le_refl _

end Ensemble
end LinkTest
