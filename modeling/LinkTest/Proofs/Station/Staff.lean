import LinkTest.Proofs.Worker.Desk
import LinkTest.Station.Step

/-!
# The staff of a station

Between two steps of its threads a station changes its workers in three ways only: a new one comes
in, one is started, and messages come to the end of the queue of one that is open.
-/

namespace LinkTest

/-- The run for which a message asks for a test. -/
def Message.run? : Message → Option RunId
  | .requestTest (.run run) => some run
  | _ => none

theorem Message.eq_requestTest_of_run? {m : Message} {run : RunId} (h : m.run? = some run) :
    m = .requestTest (.run run) := by
  cases m with
  | requestTest t =>
    cases t with
    | target id kind => cases h
    | run other =>
      cases h
      rfl
  | _ => cases h

namespace Worker

variable {σ : Type}

/-- The worker was perhaps started, and these messages came to the end of its queue. -/
structure Grown (ms : List Message) (w w' : Worker σ) : Prop where
  thread : w'.thread = w.thread ∨ w.thread = .unstarted ∧ w'.thread = .serving
  queue : w'.queue = w.queue ++ ms
  room : ms = [] ∨ w.isOpen = true

theorem Grown.serving {ms : List Message} {w w' : Worker σ} (h : w.Grown ms w')
    (hw : w.thread = .serving) : w'.thread = .serving := by
  rcases h.thread with ht | ⟨hu, -⟩
  · rw [ht, hw]
  · rw [hw] at hu
    cases hu

theorem Grown.crashed {ms : List Message} {w w' : Worker σ} (h : w.Grown ms w')
    (hw : w.thread = .crashed) : w'.thread = .crashed := by
  rcases h.thread with ht | ⟨hu, -⟩
  · rw [ht, hw]
  · rw [hw] at hu
    cases hu

/-- Nothing waits for a thread that does not serve. -/
def Shut (w : Worker σ) : Prop := w.thread ≠ .serving → w.queue = []

theorem Grown.shut {ms : List Message} {w w' : Worker σ} (h : w.Grown ms w') (hw : w.Shut) :
    w'.Shut := by
  intro hn
  have hc : w.thread ≠ .serving := fun hs => hn (h.serving hs)
  rcases h.room with hm | ho
  · rw [h.queue, hw hc, hm, List.append_nil]
  · exact absurd (w.isOpen_iff.1 ho) hc

theorem farewell_run? (w : Worker σ) : ∀ m ∈ w.farewell, m.run? = none := by
  unfold farewell
  split
  · simp [Message.run?]
  · simp

theorem farewell_room (w : Worker σ) : w.farewell = [] ∨ w.isOpen = true := by
  cases ho : w.isOpen with
  | true => exact .inr rfl
  | false => exact .inl (w.farewell_of_closed ho)

end Worker

namespace Station

variable {σ : Type}

/-- What becomes of the workers when no thread takes a step and no run asks for a test. -/
inductive Staffed (ws : List (Worker σ)) : List (Worker σ) → Prop
  | same : Staffed ws ws
  | hired (server : σ) (own : Credentials) (limit : Span) :
    Staffed ws (ws ++ [.new server own limit])
  | grown {id : Nat} {w w' : Worker σ} {ms : List Message} (hw : ws[id]? = some w)
    (h : w.Grown ms w') (hm : ∀ m ∈ ms, m.run? = none) : Staffed ws (ws.set id w')

/-- No call has taken a thread down with it. -/
def Uncrashed (ws : List (Worker σ)) : Prop := ∀ w ∈ ws, w.thread ≠ .crashed

instance (ws : List (Worker σ)) : Decidable (Uncrashed ws) :=
  inferInstanceAs (Decidable (∀ w ∈ ws, w.thread ≠ .crashed))

theorem uncrashed_of_set {ws : List (Worker σ)} {id : Nat} {w w' : Worker σ}
    (hw : ws[id]? = some w) (hc : w.thread = .crashed → w'.thread = .crashed)
    (h : Uncrashed (ws.set id w')) : Uncrashed ws := by
  intro v hv
  obtain ⟨j, hj⟩ := List.mem_iff_getElem?.1 hv
  by_cases hi : id = j
  · subst hi
    obtain rfl : w = v := Option.some.inj (hw.symm.trans hj)
    have hlt : id < ws.length := (List.getElem?_eq_some_iff.1 hw).1
    exact fun hcr => h w' (List.mem_iff_getElem?.2 ⟨id, by simp [hlt]⟩) (hc hcr)
  · exact h v (List.mem_iff_getElem?.2 ⟨j, by rw [List.getElem?_set_ne hi, hj]⟩)

theorem Staffed.uncrashed {ws ws' : List (Worker σ)} (h : Staffed ws ws') (hc : Uncrashed ws') :
    Uncrashed ws := by
  cases h with
  | same => exact hc
  | hired server own limit => exact fun w hw => hc w (List.mem_append_left _ hw)
  | grown hw hg => exact uncrashed_of_set hw hg.crashed hc

/-! ## What the owners and the holders of handles do -/

theorem startWorker_spec (id : Nat) (s : Station σ) : ∃ workers log,
    (s.startWorker id).2 = { s with workers := workers, log := log } ∧
      Staffed s.workers workers := by
  unfold startWorker Worker.start
  split
  · exact ⟨s.workers, s.log, rfl, .same⟩
  · next w hw =>
    by_cases hu : w.thread = .unstarted
    · simp only [hu, if_true]
      exact ⟨_, _, rfl, .grown hw ⟨.inr ⟨hu, rfl⟩, (List.append_nil _).symm, .inl rfl⟩ (by simp)⟩
    · simp only [hu, if_false]
      exact ⟨s.workers, s.log, rfl, .same⟩

theorem stopWorker_spec (id : Nat) (s : Station σ) : ∃ workers log,
    s.stopWorker id = { s with workers := workers, log := log } ∧ Staffed s.workers workers := by
  unfold stopWorker
  split
  · exact ⟨s.workers, s.log, rfl, .same⟩
  · next w hw =>
    obtain ⟨owner, running, hs⟩ := w.stop_fst
    exact ⟨_, _, rfl, .grown hw ⟨.inl (by rw [hs]), by rw [hs], w.farewell_room⟩ w.farewell_run?⟩

theorem dropWorker_spec (id : Nat) (s : Station σ) : ∃ workers log,
    s.dropWorker id = { s with workers := workers, log := log } ∧ Staffed s.workers workers := by
  unfold dropWorker
  split
  · exact ⟨s.workers, s.log, rfl, .same⟩
  · next w hw =>
    obtain ⟨owner, running, hd⟩ := w.drop_eq
    exact ⟨_, _, rfl, .grown hw ⟨.inl (by rw [hd]), by rw [hd], w.farewell_room⟩ w.farewell_run?⟩

theorem hold_spec (id : Nat) (s : Station σ) : ∃ workers log,
    (s.hold id).2 = { s with workers := workers, log := log } ∧ Staffed s.workers workers := by
  unfold hold
  split
  · exact ⟨s.workers, s.log, rfl, .same⟩
  · next w hw =>
    split
    · exact ⟨_, _, rfl, .grown hw ⟨.inl rfl, (List.append_nil _).symm, .inl rfl⟩ (by simp)⟩
    · exact ⟨s.workers, s.log, rfl, .same⟩

theorem resume_spec (id : Nat) (s : Station σ) : ∃ workers log,
    s.resume id = { s with workers := workers, log := log } ∧ Staffed s.workers workers := by
  refine ⟨_, s.log, rfl, ?_⟩
  cases hw : s.workers[id]? with
  | none =>
    rw [List.modify_eq_self (List.getElem?_eq_none_iff.1 hw)]
    exact .same
  | some w =>
    have hm : s.workers.modify id ({ · with held := false }) =
        s.workers.set id { w with held := false } := by
      ext1 j
      by_cases hj : id = j
      · subst hj
        obtain ⟨hlt, hget⟩ := List.getElem?_eq_some_iff.1 hw
        simp [hlt, hget]
      · simp [hj]
    rw [hm]
    exact .grown hw ⟨.inl rfl, (List.append_nil _).symm, .inl rfl⟩ (by simp)

theorem send_spec (thread : String) (id : Nat) {m : Message} (hm : m.run? = none)
    (s : Station σ) : ∃ workers log,
    (s.send thread id m).2 = { s with workers := workers, log := log } ∧
      Staffed s.workers workers := by
  unfold send Worker.enqueue
  split
  · exact ⟨s.workers, s.log, rfl, .same⟩
  · next w hw =>
    by_cases ho : w.isOpen
    · simp only [ho, if_true]
      exact ⟨_, _, rfl, .grown hw ⟨.inl rfl, rfl, .inr ho⟩ (by simpa using hm)⟩
    · simp only [ho]
      exact ⟨s.workers, _, rfl, .same⟩

end Station
end LinkTest
