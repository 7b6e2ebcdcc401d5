import LinkTest.Proofs.Worker.Ownership

/-!
# The end of a worker

Main statement: when the wait of a stop or a drop is over, all that was accepted before `quit` has
been handled, all behind it has been answered without a call, and the farewell was the last call.
From then on no message is accepted, and nothing changes but the owner and the hold.
-/

namespace LinkTest

/-- Messages with `quit` among them are those before it, `quit`, and those behind. -/
theorem exists_behind_quit {ms : List Message} (h : hasQuit ms = true) :
    ∃ behind, ms = beforeQuit ms ++ .quit :: behind := by
  induction ms with
  | nil => cases h
  | cons m rest ih =>
    cases hm : m.isQuit with
    | true =>
      obtain rfl := Message.eq_quit_of_isQuit hm
      exact ⟨rest, rfl⟩
    | false =>
      have hr : hasQuit rest = true := by simpa [hasQuit, hm] using h
      obtain ⟨behind, hb⟩ := ih hr
      refine ⟨behind, ?_⟩
      have hbefore : beforeQuit (m :: rest) = m :: beforeQuit rest := by simp [beforeQuit, hm]
      rw [hbefore, List.cons_append, ← hb]

theorem hasQuit_beforeQuit (ms : List Message) : hasQuit (beforeQuit ms) = false := by
  rw [hasQuit, List.any_eq_false]
  intro m hm
  simpa using List.all_eq_true.1 List.all_takeWhile m hm

/-- No message has the farewell said but `quit`, of which the account takes no notice. -/
theorem Account.disconnect_not_mem {σ : Type} [Server σ] (limit : Span) (own : Credentials)
    (server : σ) (ms : List Message) : .disconnect ∉ (Account.after limit own server ms).calls := by
  induction ms using List.reverseRecOn with
  | nil => simp [Account.opened]
  | append_singleton ms m ih =>
    rw [Account.after_concat]
    cases m with
    | login c => simpa [Account.handle] using ih
    | requestTest t =>
      simp only [Account.handle]
      split
      · simpa using ih
      · exact ih
    | report r t =>
      simp only [Account.handle]
      split
      · split
        · simpa using ih
        · exact ih
      · exact ih
    | quit => exact ih

namespace Desk

variable {σ : Type} [Server σ]

/-- Whether a worker runs is not a matter of its thread. -/
theorem running_take (stamps : Nat → Stamp) (d : Desk σ)
    (hc : (d.apply (.take stamps)).worker.thread ≠ .crashed) :
    (d.apply (.take stamps)).worker.running = d.worker.running := by
  simp only [apply, take] at hc ⊢
  split at hc
  · next hg =>
    rw [if_pos hg]
    cases ho : d.worker.isOpen with
    | false => rw [Worker.step_of_closed stamps _ ho]
    | true =>
      cases hq : d.worker.queue with
      | nil => rw [Worker.step_of_empty stamps _ hq]
      | cons m rest =>
        cases hm : m.isQuit with
        | false =>
          obtain ⟨⟨server, session, calls, hs⟩, -, -⟩ := Worker.step_of_message stamps ho hq hm hc
          rw [hs]
        | true =>
          obtain rfl := Message.eq_quit_of_isQuit hm
          obtain ⟨⟨owner, hs⟩, -⟩ := Worker.step_of_quit stamps ho hq
          rw [hs]
  · next hg => rw [if_neg hg]

/-- A worker that was started and is not running will not run again. -/
theorem running_apply {d : Desk σ} (hs : d.worker.thread ≠ .unstarted)
    (hr : d.worker.running = false) (m : Move) (hc : (d.apply m).worker.thread ≠ .crashed) :
    (d.apply m).worker.running = false := by
  cases m with
  | start =>
    rw [apply, start_of_started hs]
    exact hr
  | send m =>
    simp only [apply, send, Worker.enqueue]
    cases d.worker.isOpen <;> exact hr
  | hold =>
    simp only [apply]
    split <;> exact hr
  | resume => exact hr
  | stop =>
    rw [stop_of_not_running hr]
    exact hr
  | drop =>
    rw [drop_of_not_running hr]
    exact hr
  | take stamps => rw [running_take stamps d hc, hr]
  | carry =>
    simp only [apply, carry]
    split <;> exact hr

theorem running_run {d : Desk σ} (hs : d.worker.thread ≠ .unstarted)
    (hr : d.worker.running = false) (moves : List Move)
    (hc : (d.run moves).worker.thread ≠ .crashed) :
    (d.run moves).worker.thread ≠ .unstarted ∧ (d.run moves).worker.running = false :=
  run_induction (P := fun d => d.worker.thread ≠ .unstarted ∧ d.worker.running = false)
    (fun _ m h hm => ⟨started_apply h.1 m, running_apply h.1 h.2 m hm⟩) d moves ⟨hs, hr⟩ hc

/-- Nothing changes at a worker that has ended but its owner and the hold, and no message is
accepted, whatever is tried. -/
theorem apply_of_ended {d : Desk σ} (he : d.worker.thread = .ended)
    (hr : d.worker.running = false) (m : Move) :
    (∃ owner held, (d.apply m).worker = { d.worker with owner := owner, held := held }) ∧
      (d.apply m).accepted = d.accepted := by
  have ho : d.worker.isOpen = false := by simp [Worker.isOpen, he]
  have hsame : ∃ owner held, d.worker = { d.worker with owner := owner, held := held } :=
    ⟨d.worker.owner, d.worker.held, rfl⟩
  cases m with
  | start =>
    have hu : d.worker.thread ≠ .unstarted := by simp [he]
    rw [apply, start_of_started hu]
    exact ⟨hsame, rfl⟩
  | send m =>
    simp only [apply, send, Worker.enqueue, ho]
    exact ⟨hsame, rfl⟩
  | hold =>
    simp only [apply, ho]
    exact ⟨hsame, rfl⟩
  | resume => exact ⟨⟨d.worker.owner, false, rfl⟩, rfl⟩
  | stop =>
    rw [stop_of_not_running hr]
    exact ⟨hsame, rfl⟩
  | drop =>
    rw [drop_of_not_running hr]
    exact ⟨⟨.gone, d.worker.held, rfl⟩, rfl⟩
  | take stamps =>
    simp only [apply, take, Worker.step_of_closed stamps _ ho]
    split <;> exact ⟨hsame, rfl⟩
  | carry =>
    simp only [apply, carry]
    split <;> exact ⟨hsame, rfl⟩

theorem run_of_ended {d : Desk σ} (he : d.worker.thread = .ended) (hr : d.worker.running = false)
    (moves : List Move) :
    (∃ owner held, (d.run moves).worker = { d.worker with owner := owner, held := held }) ∧
      (d.run moves).accepted = d.accepted := by
  induction moves generalizing d with
  | nil => exact ⟨⟨d.worker.owner, d.worker.held, rfl⟩, rfl⟩
  | cons m rest ih =>
    obtain ⟨⟨owner, held, hw⟩, ha⟩ := apply_of_ended he hr m
    obtain ⟨⟨owner', held', hw'⟩, ha'⟩ :=
      ih (d := d.apply m) (by rw [hw]; exact he) (by rw [hw]; exact hr)
    refine ⟨⟨owner', held', ?_⟩, ha'.trans ha⟩
    change ((d.apply m).run rest).worker = _
    rw [hw', hw]

theorem accepted_prefix (d : Desk σ) (moves : List Move) :
    d.accepted <+: (d.run moves).accepted := by
  induction moves generalizing d with
  | nil => exact List.prefix_refl _
  | cons m rest ih =>
    refine List.IsPrefix.trans ?_ (ih (d.apply m))
    cases m with
    | start =>
      simp only [apply]
      split <;> exact List.prefix_refl _
    | send m =>
      simp only [apply, send]
      split
      · exact List.prefix_append _ _
      · exact List.prefix_refl _
    | hold =>
      simp only [apply]
      split <;> exact List.prefix_refl _
    | resume => exact List.prefix_refl _
    | stop => exact List.prefix_append _ _
    | drop => exact List.prefix_append _ _
    | take stamps =>
      simp only [apply, take]
      split <;> exact List.prefix_refl _
    | carry =>
      simp only [apply, carry]
      split <;> exact List.prefix_refl _

/-- A worker that nobody starts stays as it is, and has nothing to do. -/
theorem unstarted_apply {d : Desk σ} (h : d.worker.thread = .unstarted) {m : Move}
    (hm : m ≠ .start) : (d.apply m).worker.thread = .unstarted := by
  have ho : d.worker.isOpen = false := by simp [Worker.isOpen, h]
  cases m with
  | start => exact absurd rfl hm
  | send m =>
    simp only [apply, send, Worker.enqueue, ho]
    exact h
  | hold =>
    simp only [apply, ho]
    exact h
  | resume => exact h
  | stop =>
    obtain ⟨owner, running, hw⟩ := d.worker.stop_fst
    simpa [apply, hw] using h
  | drop =>
    obtain ⟨owner, running, hw⟩ := d.worker.drop_eq
    simpa [apply, hw] using h
  | take stamps =>
    simp only [apply, take, Worker.step_of_closed stamps _ ho]
    split <;> exact h
  | carry =>
    simp only [apply, carry]
    split <;> exact h

theorem unstarted_run {d : Desk σ} (h : d.worker.thread = .unstarted) {moves : List Move}
    (hm : .start ∉ moves) : (d.run moves).worker.thread = .unstarted := by
  induction moves generalizing d with
  | nil => exact h
  | cons m rest ih =>
    rw [List.mem_cons, not_or] at hm
    exact ih (unstarted_apply h (Ne.symm hm.1)) hm.2

/-- A worker that has ended after it had handled the messages `served`. -/
structure Over (limit : Span) (own : Credentials) (server : σ) (served : List Message)
    (d : Desk σ) : Prop where
  accepted : ∃ behind, d.accepted = served ++ .quit :: behind
  first : hasQuit served = false
  calls : d.worker.calls = (Account.after limit own server served).calls ++ [.disconnect]
  once : .disconnect ∉ (Account.after limit own server served).calls
  queue : d.worker.queue = []
  session : d.worker.session = .loggedOut
  running : d.worker.running = false
  closed : d.worker.isOpen = false

variable {limit : Span} {own : Credentials} {server : σ}

theorem over_of_ended {d : Desk σ} (hi : InService limit own server d)
    (he : d.worker.thread = .ended) (hr : d.worker.running = false) :
    Over limit own server (beforeQuit d.accepted) d := by
  obtain ⟨tr, -, -, ha, hs⟩ := hi.story
  have hq : hasQuit tr.messages = true := by
    by_contra hn
    exact (hs.going (by simpa using hn)).1 he
  obtain ⟨-, hqueue, hsession, hcalls⟩ := hs.closed hq
  rw [hqueue, List.append_nil] at ha
  rw [ha] at hq hcalls
  exact ⟨exists_behind_quit hq, hasQuit_beforeQuit _, hcalls, Account.disconnect_not_mem _ _ _ _,
    hqueue, hsession, hr, by simp [Worker.isOpen, he]⟩

/-- What an owner sends to a worker that is running stands behind all that was accepted before. -/
theorem beforeQuit_accepted {d : Desk σ} (ht : d.Tended) (hr : d.worker.running = true) {m : Move}
    (hm : m = .stop ∨ m = .drop) (after : List Move) :
    beforeQuit ((d.apply m).run after).accepted = d.accepted := by
  obtain ⟨-, hserv, hq⟩ := ht.running hr
  have ho : d.worker.isOpen = true := d.worker.isOpen_iff.2 hserv
  have ha : (d.apply m).accepted = d.accepted ++ [.quit] := by
    rcases hm with rfl | rfl
    · rw [stop_of_running hr ho]
    · rw [drop_of_running hr ho]
  obtain ⟨behind, hb⟩ := accepted_prefix (d.apply m) after
  rw [← hb, ha, List.append_assoc, beforeQuit_of_hasQuit_eq_false hq]
  simp [beforeQuit, Message.isQuit]

theorem calls_of_unstarted {d : Desk σ} (hi : InService limit own server d) (ht : d.Tended)
    (hu : d.worker.thread = .unstarted) : d.worker.calls = [] := by
  obtain ⟨tr, -, -, ha, hs⟩ := hi.story
  rw [ht.fresh hu, List.append_eq_nil_iff] at ha
  rw [ha.1] at hs
  exact (hs.going rfl).2.calls

/-- By a stop or a drop a worker ceases to run. -/
theorem running_of_end {d : Desk σ} (ht : d.Tended) {m : Move} (hm : m = .stop ∨ m = .drop) :
    (d.apply m).worker.running = false := by
  cases hr : d.worker.running with
  | true =>
    have ho : d.worker.isOpen = true := d.worker.isOpen_iff.2 (ht.running hr).2.1
    rcases hm with rfl | rfl
    · rw [stop_of_running hr ho]
    · rw [drop_of_running hr ho]
  | false =>
    rcases hm with rfl | rfl
    · rw [stop_of_not_running hr, hr]
    · rw [drop_of_not_running hr]
      exact hr

theorem refused_of_ended {d : Desk σ} (he : d.worker.thread = .ended) (m : Message) :
    d.worker.enqueue m = .error .workerStopped ∧ d.apply (.send m) = d := by
  have ho : d.worker.isOpen = false := by simp [Worker.isOpen, he]
  simp [apply, send, Worker.enqueue, ho]

theorem Over.of_frame {d d' : Desk σ} {served : List Message} (h : d.Over limit own server served)
    (hw : ∃ owner held, d'.worker = { d.worker with owner := owner, held := held })
    (ha : d'.accepted = d.accepted) : d'.Over limit own server served := by
  obtain ⟨owner, held, hw⟩ := hw
  exact ⟨ha ▸ h.accepted, h.first, by rw [hw]; exact h.calls, h.once, by rw [hw]; exact h.queue,
    by rw [hw]; exact h.session, by rw [hw]; exact h.running, by rw [hw]; exact h.closed⟩

/-- A worker is started once at most, and a start that is refused changes nothing; a stop before the
start changes nothing either. When the wait of a stop or drop of a started worker is over, the
worker has handled what was accepted before `quit`, and nothing behind it, and has said goodbye;
from then on it takes nothing, makes no call and stays as it is. -/
theorem shutdown_final {moves : List Move} (hp : (new server own limit).isProper moves = true)
    (hc : ((new server own limit).run moves).worker.thread ≠ .crashed) {d : Desk σ}
    (hd : (new server own limit).run moves = d) :
    (new server own limit).starts moves ≤ 1 ∧
    (∀ f, d.worker.start = .error f → f = .workerAlreadyStarted ∧ d.apply .start = d) ∧
    (.start ∉ moves → d.apply .stop = d ∧ d.worker.start.isOk = true ∧ d.worker.calls = []) ∧
    ∀ before m after, moves = before ++ m :: after → m = .stop ∨ m = .drop →
      ((new server own limit).run before).worker.thread ≠ .unstarted →
      d.worker.isPending = false →
      ∃ served, d.Over limit own server served ∧
        (((new server own limit).run before).worker.running = true →
          served = ((new server own limit).run before).accepted) ∧
        ∀ later, (∃ owner held,
            (d.run later).worker = { d.worker with owner := owner, held := held }) ∧
          (d.run later).Over limit own server served ∧
          (d.run later).worker.start = .error .workerAlreadyStarted ∧
          ∀ message, (d.run later).worker.enqueue message = .error .workerStopped ∧
            (d.run later).apply (.send message) = d.run later := by
  subst hd
  have hi := inService_of_reached ⟨moves, rfl⟩ hc
  have ht := tended_run hp hc
  refine ⟨starts_le_one _ _, fun f hf => ?_, fun hm => ?_, ?_⟩
  · by_cases hu : ((new server own limit).run moves).worker.thread = .unstarted
    · simp [Worker.start, hu] at hf
    · have hs := start_of_started hu
      exact ⟨Except.error.inj (hf.symm.trans hs), by rw [apply, hs]⟩
  · have hu : ((new server own limit).run moves).worker.thread = .unstarted :=
      unstarted_run rfl hm
    have hr : ((new server own limit).run moves).worker.running = false := by
      by_contra hn
      obtain ⟨-, hserv, -⟩ := ht.running (by simpa using hn)
      cases hu.symm.trans hserv
    exact ⟨stop_of_not_running hr, by simp [Worker.start, hu, Except.isOk, Except.toBool],
      calls_of_unstarted hi ht hu⟩
  · rintro before m after rfl hm hs hpen
    rw [isProper_append, Bool.and_eq_true] at hp
    rw [run_append, run_cons] at hc hi ht hpen ⊢
    have hc₀ : ((new server own limit).run before).worker.thread ≠ .crashed := fun h =>
      hc (run_crashed _ (m :: after) h)
    have ht₀ := tended_run hp.1 hc₀
    generalize (new server own limit).run before = d₀ at *
    obtain ⟨hs', hr⟩ := running_run (started_apply hs m) (running_of_end ht₀ hm) after hc
    have hserved := fun hrun => beforeQuit_accepted ht₀ hrun hm after
    generalize (d₀.apply m).run after = d at *
    have he : d.worker.thread = .ended := (ht.stopped hs' hr).resolve_left (by simp [hpen])
    have hover := over_of_ended hi he hr
    refine ⟨_, hover, hserved, fun later => ?_⟩
    obtain ⟨hw, ha⟩ := run_of_ended he hr later
    have hlate : (d.run later).worker.thread = .ended := by
      obtain ⟨owner, held, hw⟩ := hw
      rw [hw]
      exact he
    exact ⟨hw, hover.of_frame hw ha, start_of_started (by simp [hlate]), refused_of_ended hlate⟩

theorem shutdown_of_rehearsed :
    (new rehearsalScript .anonymous Worker.defaultLimit).isProper rehearsal = true ∧
    rehearsed.worker.thread ≠ .crashed ∧
    ∃ served, rehearsed.Over Worker.defaultLimit .anonymous rehearsalScript served ∧
      served = ((new rehearsalScript .anonymous Worker.defaultLimit).run
        (rehearsal.take 6)).accepted := by
  have hp : (new rehearsalScript .anonymous Worker.defaultLimit).isProper rehearsal = true := by
    decide +kernel
  have hc : rehearsed.worker.thread ≠ .crashed := by decide +kernel
  obtain ⟨-, -, -, hend⟩ := shutdown_final hp hc rfl
  obtain ⟨served, hover, hserved, -⟩ := hend (rehearsal.take 6) .stop (rehearsal.drop 7) rfl
    (.inl rfl) (by decide +kernel) (by decide +kernel)
  exact ⟨hp, hc, served, hover, hserved (by decide +kernel)⟩

end Desk
end LinkTest
