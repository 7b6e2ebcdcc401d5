import LinkTest.Proofs.Station.Chronicle

/-!
# The tests of runs

A run is tested once at most. A valid record is owed to a run only after the server has returned it
from the test of this run.
-/

namespace LinkTest.Scene

variable {σ : Type} [Server σ]

theorem tested?_take (id : Nat) (c : Scene σ) :
    c.take id = c ∧ c.tested? (.take id) = none ∨ ∃ w stamps stamped,
      c.station.worker? id = some w ∧ c.pending id = [] ∧ c.tested? (.take id) = w.test? ∧
      c.take id = { c with
        station := { c.station with
          stamped := stamped
          workers := c.station.workers.set id (w.step stamps).1 }
        pending := Function.update c.pending id (w.step stamps).2 } := by
  cases hw : c.station.worker? id with
  | none => exact .inl ⟨by simp only [take, hw], by simp only [tested?, hw]⟩
  | some w =>
    by_cases hf : c.pending id = [] ∧ w.held = false
    · obtain ⟨stamps, stamped, ht⟩ := take_of_free hw hf.1 hf.2
      exact .inr ⟨w, stamps, stamped, rfl, hf.1, by simp [tested?, hw, hf], ht⟩
    · have hn : ((c.pending id).isEmpty && !w.held) ≠ true := by simpa using hf
      refine .inl ⟨?_, ?_⟩
      · simp only [take, hw]
        exact if_neg hn
      · simp only [tested?, hw]
        exact if_neg hn

/-- A run is owed a valid record as before, or because its test was made just now. -/
theorem owed_apply {c : Scene σ} {m : Move σ} {id : Nat} {run : RunId} {r : Record}
    (h : .reply (.run run) (.finished r) ∈ (c.apply m).pending id) (hr : r.isValid = true) :
    .reply (.run run) (.finished r) ∈ c.pending id ∨
      c.tested? m = some (run, .ended (.ok r)) := by
  cases hm : m.isDriving with
  | false =>
    rw [(aside_of_not_driving hm c).pending] at h
    exact .inl h
  | true =>
    cases m with
    | startTest => exact .inl h
    | acknowledge => exact .inl h
    | take k =>
      rcases c.tested?_take k with ⟨ht, -⟩ | ⟨w, stamps, stamped, -, hp, htest, ht⟩
      · rw [apply, ht] at h
        exact .inl h
      · rw [apply, ht] at h
        by_cases hk : id = k
        · subst hk
          simp only [Function.update_self] at h
          refine .inr (htest.trans (Worker.test?_of_finished stamps ?_ hr))
          exact List.mem_filterMap.2 ⟨_, h, rfl⟩
        · simp only [Function.update_of_ne hk] at h
          exact .inl h
    | carry k =>
      cases hp : c.pending k with
      | nil =>
        simp only [apply, carry, hp] at h
        exact .inl h
      | cons e rest =>
        rw [carry_of_cons hp] at h
        by_cases hk : id = k
        · subst hk
          simp only [Function.update_self] at h
          exact .inl (hp ▸ List.mem_cons_of_mem e h)
        · simp only [Function.update_of_ne hk] at h
          exact .inl h
    | _ => cases hm

/-- Requests whose tests were not made yet have no outcome; a run has one at most, and a valid
record that is owed to it is that outcome. -/
structure Examined (c : Scene σ) (es : List Entry) : Prop where
  untested : ∀ id run, run ∈ c.asked id → testsOf run es = []
  once : ∀ run, (testsOf run es).length ≤ 1
  begun : ∀ run, testsOf run es ≠ [] → run.number < c.station.begun
  owed : ∀ id run r, .reply (.run run) (.finished r) ∈ c.pending id → r.isValid = true →
    testsOf run es = [.ended (.ok r)]

/-- A move in which no test is made. -/
theorem Examined.apply_of_untested {c : Scene σ} {es : List Entry} (h : c.Examined es)
    {m : Move σ} (hm : c.tested? m = none) :
    (c.apply m).Examined (es ++ c.entries m) := by
  have hsame : ∀ run, testsOf run (es ++ c.entries m) = testsOf run es := by
    intro run
    rw [testsOf_append, testsOf_entries, hm]
    exact List.append_nil _
  refine ⟨fun id run ha => ?_, fun run => ?_, fun run hn => ?_, fun id run r hp hr => ?_⟩
  · rw [hsame]
    cases requested_apply m c with
    | gone hsub => exact h.untested id run ((hsub id).subset ha)
    | made k hmade =>
      rw [hmade, List.mem_append] at ha
      rcases ha with ha | ha
      · exact h.untested id run ha
      · obtain rfl : run = ⟨c.station.begun⟩ := by
          split at ha
          · exact List.mem_singleton.1 ha
          · cases ha
        by_contra hn
        exact Nat.lt_irrefl _ (h.begun _ hn)
  · rw [hsame]
    exact h.once run
  · rw [hsame] at hn
    exact Nat.lt_of_lt_of_le (h.begun run hn) (frame_apply m c).2
  · rw [hsame]
    rcases owed_apply hp hr with hp | ht
    · exact h.owed id run r hp hr
    · rw [hm] at ht
      cases ht

/-- The request of a run whose test is made waits in a queue, and in none after the move. -/
theorem asked_of_tested {c : Scene σ} (hn : c.Numbered) {m : Move σ} {run : RunId}
    {outcome : Outcome Record} (hm : c.tested? m = some (run, outcome)) :
    (∃ id, run ∈ c.asked id) ∧
      ∀ j, (c.apply m).asked j ⊆ c.asked j ∧ run ∉ (c.apply m).asked j := by
  cases m with
  | take id =>
    rcases c.tested?_take id with ⟨-, hnone⟩ | ⟨w, stamps, stamped, hw, -, htest, ht⟩
    · rw [hm] at hnone
      cases hnone
    · obtain ⟨rest, hq, hleft⟩ := Worker.queue_of_test? stamps (htest.symm.trans hm)
      have hasked : c.asked id = run :: rest.filterMap Message.run? := by
        rw [asked, Station.queueOf_eq hw, hq]
        rfl
      have hrun : run ∈ c.asked id := by
        rw [hasked]
        exact List.mem_cons_self
      refine ⟨⟨id, hrun⟩, fun j => ?_⟩
      rw [apply, ht]
      by_cases hj : j = id
      · subst hj
        have hdup : (c.asked j).Nodup := (hn.nodup j).sublist (List.sublist_append_right _ _)
        rw [hasked, List.nodup_cons] at hdup
        have hsub : (w.step stamps).1.queue.filterMap Message.run? ⊆
            rest.filterMap Message.run? := (hleft.sublist.filterMap _).subset
        simp only [asked, Station.queueOf_set_self _ (Station.mem_workers_of_worker? hw)]
        rw [← asked, hasked]
        exact ⟨List.subset_cons_of_subset run hsub, fun h => hdup.1 (hsub h)⟩
      · simp only [asked, Station.queueOf_set_ne _ hj]
        refine ⟨List.Subset.refl _, fun h => hj ?_⟩
        exact hn.apart j id run (c.asked_subset_unanswered j h) (c.asked_subset_unanswered id hrun)
  | _ => cases hm

/-- A move in which the test of a run is made. -/
theorem Examined.apply_of_tested {c : Scene σ} {es : List Entry} (h : c.Examined es)
    (hn : c.Numbered) {m : Move σ} {run : RunId} {outcome : Outcome Record}
    (hm : c.tested? m = some (run, outcome)) :
    (c.apply m).Examined (es ++ c.entries m) := by
  obtain ⟨⟨k, hk⟩, hgone⟩ := asked_of_tested hn hm
  have hnew : testsOf run (es ++ c.entries m) = [outcome] := by
    rw [testsOf_append, testsOf_entries, hm, h.untested k run hk]
    simp [Entry.outcome?]
  have hold : ∀ run', run' ≠ run → testsOf run' (es ++ c.entries m) = testsOf run' es := by
    intro run' hne
    rw [testsOf_append, testsOf_entries, hm]
    simp [Entry.outcome?, hne.symm]
  refine ⟨fun j run' ha => ?_, fun run' => ?_, fun run' hs => ?_, fun j run' r hp hr => ?_⟩
  · obtain ⟨hsub, hnot⟩ := hgone j
    rw [hold run' fun he => hnot (he ▸ ha)]
    exact h.untested j run' (hsub ha)
  · by_cases he : run' = run
    · rw [he, hnew]
      exact Nat.le_refl 1
    · rw [hold run' he]
      exact h.once run'
  · refine Nat.lt_of_lt_of_le ?_ (frame_apply m c).2
    by_cases he : run' = run
    · rw [he]
      exact hn.begun k run (c.asked_subset_unanswered k hk)
    · rw [hold run' he] at hs
      exact h.begun run' hs
  · rcases owed_apply hp hr with hp | ht
    · have howed := h.owed j run' r hp hr
      have hne : run' ≠ run := by
        rintro rfl
        rw [h.untested k run' hk] at howed
        cases howed
      rw [hold run' hne, howed]
    · rw [hm] at ht
      obtain ⟨rfl, rfl⟩ : run = run' ∧ outcome = .ended (.ok r) := by simpa using ht
      exact hnew

theorem Examined.apply {c : Scene σ} {es : List Entry} (h : c.Examined es) (hn : c.Numbered)
    (m : Move σ) : (c.apply m).Examined (es ++ c.entries m) := by
  cases hm : c.tested? m with
  | none => exact h.apply_of_untested hm
  | some p => exact h.apply_of_tested hn hm

end LinkTest.Scene
