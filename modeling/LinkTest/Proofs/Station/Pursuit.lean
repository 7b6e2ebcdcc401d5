import LinkTest.Proofs.Station.Ensemble

/-!
# One run at a time, whatever comes in between

From the moment in which a caller claims the pipeline until its run is completed or given up, exactly
one thread pursues the run, or its request waits for one, in any order in which the sections of all
operations are done.
-/

namespace LinkTest

namespace Station

/-- Whether the caller has claimed the pipeline, and nobody has the run from it yet. -/
def Visit.isClaimed : Visit → Bool
  | .enlist _ | .herald _ _ | .login _ _ | .request _ _ | .lose _ _ | .withdraw _ => true
  | _ => false

/-- The run that the caller has still to ask a worker for. -/
def Visit.run? : Visit → Option RunId
  | .herald _ run | .login _ run | .request _ run => some run
  | _ => none

/-- The run whose end the thread has still to see to. -/
def Duty.run? : Duty → Option RunId
  | .carry e => e.concluded?
  | .complete run _ | .drop run _ | .abort run _ => some run
  | _ => none

end Station

open Station (Visit Duty)

namespace Ensemble

variable {σ : Type} {e : Ensemble σ}

def phase (e : Ensemble σ) : Phase := e.scene.phase

/-- The runs whose ends a worker and its thread have still to see to. -/
def unsettled (e : Ensemble σ) (id : Nat) : List RunId :=
  ((e.duties id).bind Duty.run?).toList ++ e.scene.unanswered id

/-- Nobody pursues a run. -/
structure Free (e : Ensemble σ) : Prop where
  visits : ∀ k v, e.visits k = some v → v.isClaimed = false
  settled : ∀ id, e.unsettled id = []

/-- One thread at most pursues a run, and while it does the run is on its way. -/
inductive Pursuit (e : Ensemble σ) : Prop
  | free (h : e.Free)
  | calling (k : Nat) (hp : e.phase.isUnderWay = true)
    (hv : ∀ j v, e.visits j = some v → v.isClaimed = true → j = k)
    (hs : ∀ id, e.unsettled id = [])
  | working (id : Nat) (run : RunId) (hp : e.phase.isUnderWay = true)
    (hv : ∀ k v, e.visits k = some v → v.isClaimed = false) (hs : e.unsettled id = [run])
    (ho : ∀ j, j ≠ id → e.unsettled j = [])

namespace Pursuit

theorem free_of_phase (h : e.Pursuit) (hp : e.phase.isUnderWay = false) : e.Free := by
  cases h with
  | free h => exact h
  | calling k hu => cases hp.symm.trans hu
  | working id run hu => cases hp.symm.trans hu

/-- A caller who has claimed the pipeline is the only one who pursues a run. -/
theorem of_isClaimed (h : e.Pursuit) {k : Nat} {v : Visit} (hv : e.visits k = some v)
    (hc : v.isClaimed = true) : e.phase.isUnderWay = true ∧
      (∀ j u, e.visits j = some u → u.isClaimed = true → j = k) ∧ ∀ id, e.unsettled id = [] := by
  cases h with
  | free h => cases hc.symm.trans (h.visits k v hv)
  | calling j hp hj hs => exact ⟨hp, hj k v hv hc ▸ hj, hs⟩
  | working id run hp hn => cases hc.symm.trans (hn k v hv)

/-- So is a thread that has still to see to the end of a run. -/
theorem of_unsettled (h : e.Pursuit) {id : Nat} {run : RunId} (hr : run ∈ e.unsettled id) :
    e.phase.isUnderWay = true ∧ (∀ k v, e.visits k = some v → v.isClaimed = false) ∧
      e.unsettled id = [run] ∧ ∀ j, j ≠ id → e.unsettled j = [] := by
  cases h with
  | free h =>
    rw [h.settled id] at hr
    cases hr
  | calling k hp hv hs =>
    rw [hs id] at hr
    cases hr
  | working j other hp hv hs ho =>
    by_cases hj : id = j
    · subst hj
      rw [hs, List.mem_singleton] at hr
      exact ⟨hp, hv, hr ▸ hs, ho⟩
    · rw [ho id hj] at hr
      cases hr

/-- Whatever leaves the phase under way may let go of a run, but not take one up. -/
theorem mono (h : e.Pursuit) {e' : Ensemble σ}
    (hp : e.phase.isUnderWay = true → e'.phase.isUnderWay = true)
    (hv : ∀ k v, e'.visits k = some v → v.isClaimed = true →
      ∃ u, e.visits k = some u ∧ u.isClaimed = true)
    (hs : ∀ id, (e'.unsettled id).Sublist (e.unsettled id)) : e'.Pursuit := by
  have hfree : ∀ {id : Nat}, e.unsettled id = [] → e'.unsettled id = [] := fun {id} hn =>
    List.sublist_nil.1 (hn ▸ hs id)
  have hunclaimed : (∀ k v, e.visits k = some v → v.isClaimed = false) →
      ∀ k v, e'.visits k = some v → v.isClaimed = false := by
    refine fun hn k v hk => Bool.eq_false_iff.2 fun hc => ?_
    obtain ⟨u, hu, hcu⟩ := hv k v hk hc
    cases hcu.symm.trans (hn k u hu)
  cases h with
  | free h => exact .free ⟨hunclaimed h.visits, fun id => hfree (h.settled id)⟩
  | calling k hu hk hn =>
    refine .calling k (hp hu) (fun j v hj hc => ?_) fun id => hfree (hn id)
    obtain ⟨u, hu', hcu⟩ := hv j v hj hc
    exact hk j u hu' hcu
  | working id run hu hn hid ho =>
    have hsub := hs id
    rw [hid, List.sublist_singleton] at hsub
    rcases hsub with hnil | hone
    · refine .free ⟨hunclaimed hn, fun j => ?_⟩
      by_cases hj : j = id
      · rw [hj, hnil]
      · exact hfree (ho j hj)
    · exact .working id run (hp hu) (hunclaimed hn) hone fun j hj => hfree (ho j hj)

end Pursuit

/-! ## Sections of visits -/

/-- A message that is sent may ask for the test of a run. -/
theorem asked_sent {c : Scene σ} {id : Nat} {w : Worker σ} {x : Message}
    (hw : c.station.worker? id = some w) {t : Station σ}
    (ht : t.workers = c.station.workers.set id { w with queue := w.queue ++ [x] }) (j : Nat) :
    Scene.asked { c with station := t } j =
      c.asked j ++ if j = id then x.run?.toList else [] := by
  have hq : Station.queueOf t.workers j =
      Station.queueOf c.station.workers j ++ if j = id then [x] else [] := by
    rw [ht]
    exact Station.queueOf_set hw rfl j
  rw [Scene.asked, Scene.asked, hq, List.filterMap_append]
  congr 1
  split
  · cases hx : x.run? <;> simp [hx]
  · rfl

theorem unanswered_sent {c : Scene σ} {id : Nat} {w : Worker σ} {x : Message}
    (hw : c.station.worker? id = some w) {t : Station σ}
    (ht : t.workers = c.station.workers.set id { w with queue := w.queue ++ [x] }) (j : Nat) :
    Scene.unanswered { c with station := t } j =
      c.unanswered j ++ if j = id then x.run?.toList else [] := by
  refine (congrArg (_ ++ ·) (asked_sent hw ht j)).trans ?_
  rw [← List.append_assoc]
  rfl

/-- A caller asks for a test in one section only. -/
theorem unanswered_of_visit {c : Scene σ} {v : Visit} {news : List Event}
    {next : Visit ⊕ Except Failure Bool} {t : Station σ} (hm : v.Made c.station news next t)
    (j : Nat) : Scene.unanswered { c with station := t } j = c.unanswered j ∨
      ∃ run, v = .request j run ∧
        Scene.unanswered { c with station := t } j = c.unanswered j ++ [run] := by
  cases hm with
  | loggedIn run hw ho =>
    refine .inl ((unanswered_sent hw rfl j).trans ?_)
    split <;> exact List.append_nil _
  | @requested id run w hw ho =>
    by_cases hj : j = id
    · subst hj
      exact .inr ⟨run, rfl, (unanswered_sent hw rfl j).trans (by rw [if_pos rfl]; rfl)⟩
    · exact .inl ((unanswered_sent hw rfl j).trans (by rw [if_neg hj, List.append_nil]))
  | _ => exact .inl rfl

/-- The scene after a section of a visit, with what is left of the visit. -/
def visited (e : Ensemble σ) (k : Nat) (next : Option Visit) (t : Station σ) : Ensemble σ :=
  { e with scene := { e.scene with station := t }, visits := Function.update e.visits k next }

theorem unsettled_sent {k : Nat} {next : Option Visit} {id : Nat} {w : Worker σ} {x : Message}
    (hw : e.scene.station.worker? id = some w) {t : Station σ}
    (ht : t.workers = e.scene.station.workers.set id { w with queue := w.queue ++ [x] }) (j : Nat) :
    (e.visited k next t).unsettled j = e.unsettled j ++ if j = id then x.run?.toList else [] := by
  have hu : (e.visited k next t).unsettled j = ((e.duties j).bind Duty.run?).toList ++
      Scene.unanswered { e.scene with station := t } j := rfl
  rw [hu, unanswered_sent hw ht, ← List.append_assoc, unsettled]

theorem visits_visited {k j : Nat} {next : Option Visit} {t : Station σ} {u : Visit}
    (h : (e.visited k next t).visits j = some u) :
    j = k ∧ next = some u ∨ j ≠ k ∧ e.visits j = some u := by
  by_cases hj : j = k
  · subst hj
    exact .inl ⟨rfl, by simpa [visited] using h⟩
  · exact .inr ⟨hj, by simpa [visited, hj] using h⟩

namespace Pursuit

variable {k : Nat} {v : Visit} {t : Station σ}

/-- Whoever goes on pursuing the run was pursuing it before. -/
theorem visited_of_mono (h : e.Pursuit) (hv : e.visits k = some v) {next : Option Visit}
    (hnext : ∀ u, next = some u → u.isClaimed = true → v.isClaimed = true)
    (hp : e.phase.isUnderWay = true → t.lifecycle.phase.isUnderWay = true)
    (hs : ∀ id, (e.visited k next t).unsettled id = e.unsettled id) :
    (e.visited k next t).Pursuit := by
  refine h.mono hp (fun j u hj hc => ?_) fun id => (hs id) ▸ List.Sublist.refl _
  rcases visits_visited hj with ⟨rfl, hn⟩ | ⟨-, hu⟩
  · exact ⟨v, hv, hnext u hn hc⟩
  · exact ⟨u, hu, hc⟩

/-- After the last section in which a caller pursues a run no caller does. -/
theorem unclaimed_visited (h : ∀ j u, e.visits j = some u → u.isClaimed = true → j = k)
    {next : Option Visit} (hnext : ∀ u, next = some u → u.isClaimed = false) :
    ∀ j u, (e.visited k next t).visits j = some u → u.isClaimed = false := by
  intro j u hj
  rcases visits_visited hj with ⟨-, hu⟩ | ⟨hne, hu⟩
  · exact hnext u hu
  · exact Bool.eq_false_iff.2 fun hc => hne (h j u hu hc)

theorem visited_of_free (h : ∀ j u, e.visits j = some u → u.isClaimed = true → j = k)
    (hn : ∀ id, e.unsettled id = []) {next : Option Visit}
    (hnext : ∀ u, next = some u → u.isClaimed = false)
    (hs : ∀ id, (e.visited k next t).unsettled id = e.unsettled id) :
    (e.visited k next t).Free :=
  ⟨unclaimed_visited h hnext, fun id => (hs id).trans (hn id)⟩

theorem proceed (h : e.Pursuit) (hv : e.visits k = some v) {news : List Event}
    {next : Visit ⊕ Except Failure Bool} (hm : v.Made e.scene.station news next t) :
    (e.visited k next.getLeft? t).Pursuit := by
  cases hm with
  | claimed id hp =>
    have hfree := h.free_of_phase (show e.scene.station.lifecycle.phase.isUnderWay = false by
      rw [hp]; rfl)
    refine .calling k rfl (fun j u hj hc => ?_) hfree.settled
    rcases visits_visited hj with ⟨rfl, -⟩ | ⟨-, hu⟩
    · rfl
    · cases hc.symm.trans (hfree.visits j u hu)
  | @requested id run w hw ho =>
    obtain ⟨hp, hothers, hnil⟩ := h.of_isClaimed hv rfl
    refine .working id run hp (unclaimed_visited hothers fun _ hn => (nomatch hn)) ?_ fun j hj => ?_
    · exact (unsettled_sent hw rfl id).trans (by rw [hnil, if_pos rfl]; rfl)
    · exact (unsettled_sent hw rfl j).trans (by rw [hnil, if_neg hj, List.nil_append])
  | loggedIn run hw ho =>
    refine h.visited_of_mono hv (fun _ _ _ => rfl) (fun hp => hp) fun j =>
      (unsettled_sent hw rfl j).trans ?_
    split <;> exact List.append_nil _
  | withdrawn f hp =>
    obtain ⟨-, hothers, hnil⟩ := h.of_isClaimed hv rfl
    refine .free (visited_of_free hothers hnil (fun u hu => ?_) fun _ => rfl)
    cases hu
    rfl
  | acknowledged hp =>
    have hfree := h.free_of_phase (show e.scene.station.lifecycle.phase.isUnderWay = false by
      rw [hp]; rfl)
    refine .free (visited_of_free (fun j u hu hc => ?_) hfree.settled (fun u hu => ?_)
      fun _ => rfl)
    · cases hc.symm.trans (hfree.visits j u hu)
    · cases hu
      rfl
  | missed id run hv' =>
    refine h.visited_of_mono hv (fun _ _ _ => ?_) (fun hp => hp) fun _ => rfl
    rcases hv' with rfl | rfl <;> rfl
  | enlisted id => exact h.visited_of_mono hv (fun _ _ _ => rfl) (fun hp => hp) fun _ => rfl
  | heralded id run => exact h.visited_of_mono hv (fun _ _ _ => rfl) (fun hp => hp) fun _ => rfl
  | lost run f => exact h.visited_of_mono hv (fun _ _ _ => rfl) (fun hp => hp) fun _ => rfl
  | _ =>
    refine h.visited_of_mono hv (fun u hu hc => ?_) (fun hp => hp) fun _ => rfl
    cases hu
    try cases hc

end Pursuit

/-! ## Sections of duties -/

/-- The scene after a section of a duty, with what is left of the duty. -/
def served (e : Ensemble σ) (id : Nat) (next : Option Duty) (t : Station σ) : Ensemble σ :=
  { e with scene := { e.scene with station := t }, duties := Function.update e.duties id next }

section

variable {id : Nat} {d : Duty} {news : List Event} {next : Option Duty} {t : Station σ}

/-- No section of a duty asks for a test. -/
theorem unanswered_of_duty {c : Scene σ} (hm : d.Made c.station news next t) (j : Nat) :
    Scene.unanswered { c with station := t } j = c.unanswered j := by
  cases hm with
  | submitted run r hw ho =>
    refine (unanswered_sent hw rfl j).trans ?_
    split <;> exact List.append_nil _
  | _ => rfl

/-- A thread goes on seeing to the end of a run, or it lets go of it. -/
theorem run?_of_duty {s : Station σ} (hm : d.Made s news next t) {run : RunId}
    (hr : next.bind Duty.run? = some run) : d.run? = some run := by
  cases hm with
  | tested => exact hr
  | failed => exact hr
  | dropped => exact hr
  | addressed =>
    cases hb : t.bound <;> rw [hb] at hr <;> cases hr
  | told source target failure => cases failure <;> cases hr
  | _ => cases hr

/-- The phase goes on being under way until the thread has seen to the end of its run. -/
theorem isUnderWay_of_duty {s : Station σ} (hm : d.Made s news next t)
    (hp : s.lifecycle.phase.isUnderWay = true) : t.lifecycle.phase.isUnderWay = true ∨
      ∃ run, d.run? = some run ∧ next.bind Duty.run? = none := by
  cases hm with
  | entered => exact .inl rfl
  | completed run => exact .inr ⟨run, rfl, rfl⟩
  | aborted run => exact .inr ⟨run, rfl, rfl⟩
  | _ => exact .inl hp

theorem unsettled_served (hm : d.Made e.scene.station news next t) (j : Nat) :
    (e.served id next t).unsettled j = if j = id
      then (next.bind Duty.run?).toList ++ e.scene.unanswered j else e.unsettled j := by
  by_cases hj : j = id
  · subst hj
    rw [if_pos rfl, ← unanswered_of_duty hm j]
    simp [unsettled, served]
  · rw [if_neg hj, unsettled, unsettled, ← unanswered_of_duty hm j]
    simp [served, hj]

theorem unsettled_served_sublist (hd : e.duties id = some d)
    (hm : d.Made e.scene.station news next t) (j : Nat) :
    ((e.served id next t).unsettled j).Sublist (e.unsettled j) := by
  rw [unsettled_served hm]
  split
  · next hj =>
    subst hj
    rw [unsettled, hd]
    refine List.Sublist.append ?_ (List.Sublist.refl _)
    cases hn : next.bind Duty.run? with
    | none => exact List.nil_sublist _
    | some run => rw [Option.bind_some, run?_of_duty hm hn]
  · exact List.Sublist.refl _

namespace Pursuit

/-- Once the run of a thread has ended nobody pursues a run. -/
theorem served_of_end (h : e.Pursuit) (hd : e.duties id = some d)
    (hm : d.Made e.scene.station news next t) {run : RunId} (hr : d.run? = some run)
    (hnext : next.bind Duty.run? = none) : (e.served id next t).Free := by
  have hduty : ((e.duties id).bind Duty.run?).toList = [run] := by rw [hd, Option.bind_some, hr]; rfl
  have hmem : run ∈ e.unsettled id := by simp [unsettled, hduty]
  obtain ⟨-, hv, hid, ho⟩ := h.of_unsettled hmem
  refine ⟨hv, fun j => ?_⟩
  rw [unsettled_served hm]
  split
  · next hj =>
    subst hj
    rw [unsettled, hduty] at hid
    rw [hnext]
    exact (List.cons.inj hid).2
  · next hj => exact ho j hj

theorem carry (h : e.Pursuit) (hd : e.duties id = some d)
    (hm : d.Made e.scene.station news next t) : (e.served id next t).Pursuit := by
  have hmono : (e.phase.isUnderWay = true → t.lifecycle.phase.isUnderWay = true) →
      (e.served id next t).Pursuit := fun hp =>
    h.mono hp (fun _ u hj hc => ⟨u, hj, hc⟩) (unsettled_served_sublist hd hm)
  cases hp : e.phase.isUnderWay with
  | false => exact hmono fun hu => nomatch hp.symm.trans hu
  | true =>
    rcases isUnderWay_of_duty hm hp with hu | ⟨run, hr, hn⟩
    · exact hmono fun _ => hu
    · exact .free (h.served_of_end hd hm hr hn)

end Pursuit

end

/-! ## Whole schedules -/

variable [Server σ]

/-- What a move that drives no run leaves unanswered, and what a message that is taken does. -/
theorem unanswered_aside {m : Scene.Move σ} (hm : m.isDriving = false) (c : Scene σ) (id : Nat) :
    (c.apply m).unanswered id = c.unanswered id := by
  have ha := Scene.aside_of_not_driving hm c
  rw [Scene.unanswered_eq, Scene.unanswered_eq, Scene.debts, Scene.debts, ha.pending,
    ha.staffed.ofQueue]

theorem unanswered_take (id : Nat) (c : Scene σ) (j : Nat) :
    ((c.take id).unanswered j).Sublist (c.unanswered j) ∧
      ((c.take id).asked j).Sublist (c.asked j) := by
  cases c.requested_take id with
  | gone ha hu => exact ⟨hu j, ha j⟩
  | made _ _ _ hbegun =>
    have hlt : c.station.begun + 1 = c.station.begun := hbegun.symm.trans (c.take_frame id).2.1
    omega

theorem Pursuit.apply (h : e.Pursuit) (m : Move σ) : (e.apply m).Pursuit := by
  obtain ⟨news, e', b, log, hmade, -, he⟩ := e.made m
  suffices he' : e'.Pursuit by
    rw [he]
    exact he'.mono (fun hp => hp) (fun _ v hv hc => ⟨v, hv, hc⟩) fun _ => List.Sublist.refl _
  cases hmade with
  | aside hm =>
    refine h.mono (fun hp => ?_) (fun _ v hv hc => ⟨v, hv, hc⟩) fun id => ?_
    · exact (congrArg Phase.isUnderWay (Scene.aside_of_not_driving hm e.scene).phase).trans hp
    · rw [unsettled, unsettled, unanswered_aside hm]
  | waited => exact h
  | @entered m k v hm hv =>
    refine h.mono (fun hp => hp) (fun j u hj hc => ?_) fun _ => List.Sublist.refl _
    by_cases hk : j = k
    · subst hk
      obtain rfl : v = u := by simpa using hj
      rcases hm with ⟨-, rfl⟩ | ⟨-, rfl⟩ <;> cases hc
    · exact ⟨u, by simpa [hk] using hj, hc⟩
  | proceeded hv hm => exact h.proceed hv hm
  | @taken id w hd hw =>
    refine h.mono (fun hp => ?_) (fun _ v hv hc => ⟨v, hv, hc⟩) fun j => ?_
    · exact (congrArg (fun l => Phase.isUnderWay (Lifecycle.phase l))
        (e.scene.take_frame id).2.2.1).trans hp
    · exact List.Sublist.append (List.Sublist.refl _) (unanswered_take id e.scene j).1
  | @takenUp id x rest hd hp =>
    refine h.mono (fun hp => hp) (fun _ v hv hc => ⟨v, hv, hc⟩) fun j => ?_
    by_cases hj : j = id
    · subst hj
      simp [unsettled, Scene.unanswered, hd, hp, Duty.run?, List.filterMap_cons]
      cases x.concluded? <;> simp
    · simp [unsettled, Scene.unanswered, hj]
  | carried hd hm => exact h.carry hd hm

end Ensemble
end LinkTest
