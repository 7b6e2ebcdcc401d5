import LinkTest.Proofs.Worker.Handling

/-!
# Steps with or without a crash

What can be said of a step whatever comes of the call: the queue only loses messages at its head or
all of them, no invalid record is uploaded, and a run is told of a valid record by nobody but the
server that has made its test.
-/

namespace LinkTest.Worker

variable {σ : Type}

@[simp] theorem release_queue (w : Worker σ) : w.release.1.queue = w.queue := by
  obtain ⟨owner, h⟩ := w.release_fst
  rw [h]

@[simp] theorem release_calls (w : Worker σ) : w.release.1.calls = w.calls := by
  obtain ⟨owner, h⟩ := w.release_fst
  rw [h]

@[simp] theorem crash_queue (w : Worker σ) : w.crash.1.queue = [] := by
  simp [crash]

@[simp] theorem crash_calls (w : Worker σ) : w.crash.1.calls = w.calls := by
  simp [crash]

@[simp] theorem repliesOf_crash (w : Worker σ) : repliesOf w.crash.2 = [] := by
  simp [crash]

variable [Server σ]

/-! ## Crashes -/

/-- A call that takes the thread down leaves no message, and no answer but that a test has begun. -/
theorem handle_of_crash (stamps : Nat → Stamp) {m : Message} {w : Worker σ}
    (hw : w.thread ≠ .crashed) (h : (w.handle stamps m).1.thread = .crashed) :
    (w.handle stamps m).1.queue = [] ∧ ∀ t reply, (t, reply) ∈ repliesOf (w.handle stamps m).2 →
      reply = .started := by
  cases m with
  | login c =>
    rcases hr : (Server.login w.limit (c.getD w.credentials) w.server).1.result? w.limit with
      _ | (f | token)
    · simp [handle, logIn, hr]
    · simp [handle, logIn, hr, hw] at h
    · simp [handle, logIn, hr, hw] at h
  | requestTest t =>
    cases hs : w.session with
    | loggedOut => simp [handle, makeTest, hs, hw] at h
    | failed reason => simp [handle, makeTest, hs, hw] at h
    | active token =>
      rcases hr : (Server.test w.limit token w.server).1.result? w.limit with _ | (f | r)
      · simp [handle, makeTest, hs, hr]
      · simp [handle, makeTest, hs, hr, hw] at h
      · simp [handle, makeTest, hs, hr, hw] at h
  | report r t =>
    cases hv : r.isValid with
    | false => simp [handle, upload, hv, hw] at h
    | true =>
      cases hs : w.session with
      | loggedOut => simp [handle, upload, hv, hs, hw] at h
      | failed reason => simp [handle, upload, hv, hs, hw] at h
      | active token =>
        rcases hr : (Server.report w.limit token r w.server).1.result? w.limit with
          _ | (f | receipt)
        · simp [handle, upload, hv, hs, hr]
        · simp [handle, upload, hv, hs, hr, hw] at h
        · simp [handle, upload, hv, hs, hr, hw] at h
  | quit =>
    obtain ⟨⟨owner, hf⟩, -⟩ := finish_spec stamps w
    rw [handle, hf] at h
    cases h

/-- The same of a step. -/
theorem step_of_crash (stamps : Nat → Stamp) {w : Worker σ} (ho : w.isOpen = true)
    (h : (w.step stamps).1.thread = .crashed) :
    (w.step stamps).1.queue = [] ∧ ∀ t reply, (t, reply) ∈ repliesOf (w.step stamps).2 →
      reply = .started := by
  have hw : w.thread ≠ .crashed := by
    rw [w.isOpen_iff.1 ho]
    nofun
  cases hq : w.queue with
  | nil =>
    rw [step_of_empty stamps w hq] at h
    exact absurd h hw
  | cons m rest =>
    rw [repliesOf_step stamps ho hq]
    rw [step_fst stamps ho hq] at h ⊢
    exact handle_of_crash stamps (w := { w with queue := rest }) hw h

/-- What is left in the queue stood at its end before. -/
theorem queue_step_suffix (stamps : Nat → Stamp) (w : Worker σ) :
    (w.step stamps).1.queue <:+ w.queue := by
  cases ho : w.isOpen with
  | false => simp [step_of_closed stamps w ho]
  | true =>
    cases hq : w.queue with
    | nil => simp [step_of_empty stamps w hq, hq]
    | cons m rest =>
      by_cases hc : (w.step stamps).1.thread = .crashed
      · rw [(step_of_crash stamps ho hc).1]
        exact List.nil_suffix
      · rw [queue_step stamps ho hq hc]
        split
        · exact List.nil_suffix
        · exact List.suffix_cons m rest

/-! ## Calls -/

/-- An invalid record is never uploaded. -/
theorem calls_handle (stamps : Nat → Stamp) (m : Message) (w : Worker σ) :
    ∃ made, (w.handle stamps m).1.calls = w.calls ++ made ∧
      ∀ token r, .report token r ∈ made → r.isValid = true := by
  cases m with
  | login c =>
    refine ⟨[.login (c.getD w.credentials)], ?_, by simp⟩
    rcases hr : (Server.login w.limit (c.getD w.credentials) w.server).1.result? w.limit with
      _ | (f | token) <;> simp [handle, logIn, hr]
  | requestTest t =>
    cases hs : w.session with
    | loggedOut => exact ⟨[], by simp [handle, makeTest, hs], by simp⟩
    | failed reason => exact ⟨[], by simp [handle, makeTest, hs], by simp⟩
    | active token =>
      refine ⟨[.test token], ?_, by simp⟩
      rcases hr : (Server.test w.limit token w.server).1.result? w.limit with _ | (f | r) <;>
        simp [handle, makeTest, hs, hr]
  | report r t =>
    cases hv : r.isValid with
    | false => exact ⟨[], by simp [handle, upload, hv], by simp⟩
    | true =>
      cases hs : w.session with
      | loggedOut => exact ⟨[], by simp [handle, upload, hv, hs], by simp⟩
      | failed reason => exact ⟨[], by simp [handle, upload, hv, hs], by simp⟩
      | active token =>
        refine ⟨[.report token r], ?_, by simp [hv]⟩
        rcases hr : (Server.report w.limit token r w.server).1.result? w.limit with
          _ | (f | receipt) <;> simp [handle, upload, hv, hs, hr]
  | quit =>
    obtain ⟨⟨owner, hf⟩, -⟩ := finish_spec stamps w
    exact ⟨[.disconnect], by rw [handle, hf], by simp⟩

theorem calls_step (stamps : Nat → Stamp) (w : Worker σ) :
    ∃ made, (w.step stamps).1.calls = w.calls ++ made ∧
      ∀ token r, .report token r ∈ made → r.isValid = true := by
  cases ho : w.isOpen with
  | false => exact ⟨[], by simp [step_of_closed stamps w ho], by simp⟩
  | true =>
    cases hq : w.queue with
    | nil => exact ⟨[], by simp [step_of_empty stamps w hq], by simp⟩
    | cons m rest =>
      rw [step_fst stamps ho hq]
      exact calls_handle stamps m { w with queue := rest }

/-- No invalid record was uploaded by this worker. -/
def UploadsValid (w : Worker σ) : Prop :=
  ∀ token r, .report token r ∈ w.calls → r.isValid = true

omit [Server σ] in
theorem UploadsValid.of_calls {w w' : Worker σ} (h : w.UploadsValid) (hc : w'.calls = w.calls) :
    w'.UploadsValid := by
  intro token r hr
  rw [hc] at hr
  exact h token r hr

theorem UploadsValid.step {w : Worker σ} (h : w.UploadsValid) (stamps : Nat → Stamp) :
    (w.step stamps).1.UploadsValid := by
  intro token r hr
  obtain ⟨made, hcalls, hvalid⟩ := w.calls_step stamps
  rw [hcalls, List.mem_append] at hr
  rcases hr with hr | hr
  · exact h token r hr
  · exact hvalid token r hr

/-! ## Tests -/

/-- The test that a worker makes for a run when it takes its oldest message, and how the call
ends. -/
def test? (w : Worker σ) : Option (RunId × Outcome Record) :=
  if w.isOpen then
    match w.queue, w.session with
    | .requestTest (.run run) :: _, .active token =>
      some (run, (Server.test w.limit token w.server).1)
    | _, _ => none
  else none

theorem exists_of_test? {w : Worker σ} {run : RunId} {outcome : Outcome Record}
    (h : w.test? = some (run, outcome)) :
    ∃ rest token, w.isOpen = true ∧ w.queue = .requestTest (.run run) :: rest ∧
      w.session = .active token ∧ outcome = (Server.test w.limit token w.server).1 := by
  unfold test? at h
  split at h
  · next ho =>
    split at h
    · next run' rest token hq hs =>
      obtain ⟨rfl, rfl⟩ : run' = run ∧ _ = outcome := by simpa using h
      exact ⟨rest, token, ho, hq, hs, rfl⟩
    · cases h
  · cases h

/-- The request is taken from the queue, and what is left stood behind it. -/
theorem queue_of_test? (stamps : Nat → Stamp) {w : Worker σ} {run : RunId}
    {outcome : Outcome Record} (h : w.test? = some (run, outcome)) :
    ∃ rest, w.queue = .requestTest (.run run) :: rest ∧ (w.step stamps).1.queue <:+ rest := by
  obtain ⟨rest, token, ho, hq, -, -⟩ := exists_of_test? h
  refine ⟨rest, hq, ?_⟩
  by_cases hc : (w.step stamps).1.thread = .crashed
  · rw [(step_of_crash stamps ho hc).1]
    exact List.nil_suffix
  · rw [queue_step stamps ho hq hc]
    exact List.suffix_rfl

omit [Server σ] in
theorem mem_addressed {m : Message} {b : List Reply} {t : ReplyTo} {reply : Reply}
    (h : (t, reply) ∈ addressed m b) : m.replyTo? = some t ∧ reply ∈ b := by
  simpa [addressed] using h

omit [Server σ] in
theorem not_isValid_of_rejections {stamps : Nat → Stamp} {queue : List Message} {t : ReplyTo}
    {r : Record} (h : (t, .finished r) ∈ rejections stamps queue) : r.isValid = false := by
  induction queue generalizing stamps with
  | nil => simp [rejections] at h
  | cons m rest ih =>
    simp only [rejections, List.mapIdx_cons, List.flatten_cons, List.mem_append] at h
    rcases h with h | h
    · obtain ⟨-, hm⟩ := mem_addressed h
      cases m with
      | requestTest u =>
        simp only [rejectionReplies, List.mem_singleton, Reply.finished.injEq] at hm
        rw [hm]
        rfl
      | report s u => cases u <;> simp [rejectionReplies] at hm
      | _ => simp [rejectionReplies] at hm
    · exact ih h

/-- A valid record among the answers is one that the server has returned from a test. -/
theorem ended_of_answer {limit : Span} {stamp : Stamp} {server : σ} {session : Session}
    {m : Message} {r : Record} (h : .finished r ∈ answer limit stamp server session m)
    (hr : r.isValid = true) :
    ∃ t token, m = .requestTest t ∧ session = .active token ∧
      (Server.test limit token server).1 = .ended (.ok r) := by
  cases m with
  | login c => cases session <;> simp [answer] at h
  | requestTest t =>
    cases session with
    | loggedOut =>
      obtain rfl : r = _ := by simpa [answer] using h
      cases hr
    | failed reason =>
      obtain rfl : r = _ := by simpa [answer] using h
      cases hr
    | active token =>
      refine ⟨t, token, rfl, rfl, ?_⟩
      rcases ho : (Server.test limit token server).1 with (f | s) | _ | _ <;>
        simp only [answer, ho, Outcome.result?, testRecord, Option.map_some, Option.map_none,
          Function.comp_apply, Option.toList_some, Option.toList_none, List.mem_cons,
          List.not_mem_nil, reduceCtorEq, Reply.finished.injEq, false_or, or_false] at h
      · subst h
        cases hr
      · rw [h]
      · subst h
        cases hr
  | report s t =>
    cases t with
    | none => cases session <;> simp [answer] at h
    | some t =>
      cases hv : s.isValid with
      | false => cases session <;> simp [answer, hv] at h
      | true =>
        cases session with
        | loggedOut => simp [answer, hv] at h
        | failed reason => simp [answer, hv] at h
        | active token =>
          rcases ho : (Server.report limit token s server).1.result? limit with
            _ | (f | receipt) <;> simp [answer, hv, ho, uploadReply] at h
  | quit => cases session <;> simp [answer] at h

/-- A run is told of a valid record only if the server has returned it from the test of the run. -/
theorem test?_of_finished (stamps : Nat → Stamp) {w : Worker σ} {run : RunId} {r : Record}
    (h : (.run run, .finished r) ∈ repliesOf (w.step stamps).2) (hr : r.isValid = true) :
    w.test? = some (run, .ended (.ok r)) := by
  cases ho : w.isOpen with
  | false => simp [step_of_closed stamps w ho] at h
  | true =>
    cases hq : w.queue with
    | nil => simp [step_of_empty stamps w hq] at h
    | cons m rest =>
      by_cases hc : (w.step stamps).1.thread = .crashed
      · cases (step_of_crash stamps ho hc).2 _ _ h
      cases hm : m.isQuit with
      | true =>
        obtain rfl := Message.eq_quit_of_isQuit hm
        rw [(step_of_quit stamps ho hq).2] at h
        rw [not_isValid_of_rejections h] at hr
        cases hr
      | false =>
        rw [(step_of_message stamps ho hq hm hc).2.1] at h
        obtain ⟨ht, ha⟩ := mem_addressed h
        obtain ⟨t, token, rfl, hs, hend⟩ := ended_of_answer ha hr
        obtain rfl : t = .run run := by simpa [Message.replyTo?] using ht
        simp [test?, ho, hq, hs, hend]

end LinkTest.Worker
