import Mathlib.Data.List.Induction
import LinkTest.Proofs.Worker.Service

/-!
# Owners of workers

An owner does nothing with its worker while it waits for the thread, nor after letting go of it, and
no handle sends `quit`; a schedule that keeps to this is proper. A worker is started once at most.
In a proper schedule without a crash one that is running serves and was not sent `quit`, and one
that was started and is not running has ended or is waited for.
-/

namespace LinkTest

namespace Worker

variable {σ : Type}

theorem isPending_release (w : Worker σ) : w.release.1.isPending = false := by
  unfold release
  split
  · rfl
  · rfl
  · next hs hl => exact decide_eq_false (not_or.2 ⟨hs, hl⟩)

variable [Server σ]

theorem isPending_step_of_quit (stamps : Nat → Stamp) {w : Worker σ} {rest : List Message}
    (ho : w.isOpen = true) (hq : w.queue = .quit :: rest) :
    (w.step stamps).1.isPending = false := by
  rw [step_fst stamps ho hq]
  exact isPending_release _

/-- A thread that was started never becomes one that was not. -/
theorem step_started (stamps : Nat → Stamp) {w : Worker σ} (h : w.thread ≠ .unstarted) :
    (w.step stamps).1.thread ≠ .unstarted := by
  by_cases hc : (w.step stamps).1.thread = .crashed
  · simp [hc]
  · cases ho : w.isOpen with
    | false => rwa [step_of_closed stamps w ho]
    | true =>
      cases hq : w.queue with
      | nil => rwa [step_of_empty stamps w hq]
      | cons m rest =>
        cases hm : m.isQuit with
        | true =>
          obtain rfl := Message.eq_quit_of_isQuit hm
          obtain ⟨⟨owner, hs⟩, -⟩ := step_of_quit stamps ho hq
          simp [hs]
        | false =>
          obtain ⟨⟨server, session, calls, hs⟩, -, -⟩ := step_of_message stamps ho hq hm hc
          rwa [hs]

end Worker

namespace Desk

variable {σ : Type} [Server σ]

/-- Whether a move can be made at all. -/
def admits (d : Desk σ) : Move → Bool
  | .start | .stop | .drop => d.worker.owner = .present
  | .send m => !m.isQuit
  | _ => true

/-- Whether each move of a schedule can be made when its turn comes. -/
def isProper (d : Desk σ) : List Move → Bool
  | [] => true
  | m :: rest => d.admits m && (d.apply m).isProper rest

theorem run_append (d : Desk σ) (before after : List Move) :
    d.run (before ++ after) = (d.run before).run after := List.foldl_append

theorem run_cons (d : Desk σ) (m : Move) (rest : List Move) :
    d.run (m :: rest) = (d.apply m).run rest := rfl

theorem isProper_append (d : Desk σ) (before after : List Move) :
    d.isProper (before ++ after) = (d.isProper before && (d.run before).isProper after) := by
  induction before generalizing d with
  | nil => rfl
  | cons m rest ih =>
    rw [List.cons_append, isProper, isProper, ih, Bool.and_assoc]
    rfl

/-! ## Starting -/

/-- Whether a move starts the worker. -/
def begins (d : Desk σ) : Move → Bool
  | .start => d.worker.start.isOk
  | _ => false

/-- How many moves of a schedule start the worker. -/
def starts (d : Desk σ) : List Move → Nat
  | [] => 0
  | m :: rest => (if d.begins m then 1 else 0) + (d.apply m).starts rest

omit [Server σ] in
theorem start_of_started {d : Desk σ} (h : d.worker.thread ≠ .unstarted) :
    d.worker.start = .error .workerAlreadyStarted := by
  simp [Worker.start, h]

theorem started_apply {d : Desk σ} (h : d.worker.thread ≠ .unstarted) (m : Move) :
    (d.apply m).worker.thread ≠ .unstarted := by
  cases m with
  | start => simpa [apply, start_of_started h] using h
  | send m =>
    simp only [apply, send, Worker.enqueue]
    split
    · next hw =>
      split at hw
      · obtain rfl := Except.ok.inj hw
        exact h
      · cases hw
    · exact h
  | hold =>
    simp only [apply]
    split <;> exact h
  | resume => exact h
  | stop =>
    obtain ⟨owner, running, hw⟩ := d.worker.stop_fst
    simpa [apply, hw] using h
  | drop =>
    obtain ⟨owner, running, hw⟩ := d.worker.drop_eq
    simpa [apply, hw] using h
  | take stamps =>
    simp only [apply, take]
    split
    · exact Worker.step_started stamps h
    · exact h
  | carry =>
    simp only [apply, carry]
    split <;> exact h

theorem starts_of_started {d : Desk σ} (h : d.worker.thread ≠ .unstarted) (moves : List Move) :
    d.starts moves = 0 := by
  induction moves generalizing d with
  | nil => rfl
  | cons m rest ih =>
    have hb : d.begins m = false := by
      cases m with
      | start =>
        rw [begins, start_of_started h]
        rfl
      | _ => rfl
    rw [starts, hb, ih (started_apply h m)]
    rfl

theorem starts_le_one (d : Desk σ) (moves : List Move) : d.starts moves ≤ 1 := by
  induction moves generalizing d with
  | nil => exact Nat.zero_le 1
  | cons m rest ih =>
    rw [starts]
    cases hb : d.begins m with
    | false =>
      rw [if_neg Bool.false_ne_true, Nat.zero_add]
      exact ih _
    | true =>
      have hs : (d.apply m).worker.thread ≠ .unstarted := by
        cases m with
        | start =>
          by_cases hu : d.worker.thread = .unstarted
          · simp [apply, Worker.start, hu]
          · rw [begins, start_of_started hu] at hb
            cases hb
        | _ => cases hb
      exact Nat.le_of_eq (by rw [if_pos rfl, starts_of_started hs])

/-! ## Stopping -/

theorem stop_of_running {d : Desk σ} (hr : d.worker.running = true)
    (ho : d.worker.isOpen = true) : d.apply .stop = { d with
      worker := { d.worker with
        running := false, owner := .stopping, queue := d.worker.queue ++ [.quit] }
      accepted := d.accepted ++ [.quit] } := by
  simp [apply, Worker.stop, Worker.farewell, hr, ho]

theorem drop_of_running {d : Desk σ} (hr : d.worker.running = true)
    (ho : d.worker.isOpen = true) : d.apply .drop = { d with
      worker := { d.worker with
        running := false, owner := .leaving, queue := d.worker.queue ++ [.quit] }
      accepted := d.accepted ++ [.quit] } := by
  simp [apply, Worker.drop, Worker.farewell, hr, ho]

theorem stop_of_not_running {d : Desk σ} (hr : d.worker.running = false) : d.apply .stop = d := by
  simp [apply, Worker.stop, Worker.farewell, hr]

theorem drop_of_not_running {d : Desk σ} (hr : d.worker.running = false) :
    d.apply .drop = { d with worker := { d.worker with owner := .gone } } := by
  simp [apply, Worker.drop, Worker.farewell, hr]

/-- What a proper schedule keeps: a worker that is running serves, and `quit` was not sent; one that
was started and is not running has ended, or its owner waits for that. -/
structure Tended (d : Desk σ) : Prop where
  fresh : d.worker.thread = .unstarted → d.accepted = []
  running : d.worker.running = true →
    d.worker.owner = .present ∧ d.worker.thread = .serving ∧ hasQuit d.accepted = false
  waiting : d.worker.isPending = true → d.worker.running = false ∧ d.worker.thread = .serving
  stopped : d.worker.thread ≠ .unstarted → d.worker.running = false →
    d.worker.isPending = true ∨ d.worker.thread = .ended

omit [Server σ] in
theorem tended_new (server : σ) (own : Credentials) (limit : Span) :
    (new server own limit).Tended where
  fresh _ := rfl
  running h := by simp [new, Worker.new] at h
  waiting h := by simp [new, Worker.new, Worker.isPending] at h
  stopped h := absurd rfl h

omit [Server σ] in
/-- A change that concerns neither the owner nor the thread, by which a message may be accepted. -/
theorem Tended.of_frame {d d' : Desk σ} (h : d.Tended)
    (ho : d'.worker.owner = d.worker.owner) (hr : d'.worker.running = d.worker.running)
    (ht : d'.worker.thread = d.worker.thread)
    (ha : d'.accepted = d.accepted ∨
      d.worker.thread = .serving ∧ ∃ m, m.isQuit = false ∧ d'.accepted = d.accepted ++ [m]) :
    d'.Tended := by
  have hp : d'.worker.isPending = d.worker.isPending := by simp only [Worker.isPending, ho]
  refine ⟨fun hu => ?_, fun hrun => ?_, fun hpen => ?_, fun hs hrun => ?_⟩
  · rw [ht] at hu
    rcases ha with ha | ⟨hs, -⟩
    · rw [ha, h.fresh hu]
    · rw [hu] at hs
      cases hs
  · rw [hr] at hrun
    obtain ⟨hpres, hserv, hq⟩ := h.running hrun
    refine ⟨ho.trans hpres, ht.trans hserv, ?_⟩
    rcases ha with ha | ⟨-, m, hm, ha⟩
    · rw [ha, hq]
    · rw [ha, hasQuit_append, hq]
      simp [hasQuit, hm]
  · rw [hp] at hpen
    rw [hr, ht]
    exact h.waiting hpen
  · rw [ht] at hs
    rw [hr] at hrun
    rw [hp, ht]
    exact h.stopped hs hrun

theorem Tended.start {d : Desk σ} (h : d.Tended) (hd : d.worker.owner = .present) :
    (d.apply .start).Tended := by
  by_cases hu : d.worker.thread = .unstarted
  · simp only [apply, Worker.start, hu, if_true]
    refine ⟨fun hn => ?_, fun _ => ⟨hd, rfl, ?_⟩, fun hp => ?_, fun _ hr => by cases hr⟩
    · cases hn
    · rw [h.fresh hu]
      rfl
    · simp [Worker.isPending, hd] at hp
  · simpa [apply, start_of_started hu] using h

omit [Server σ] in
/-- The owner of a worker that runs stops it, and waits for its thread. -/
theorem Tended.end_running {d : Desk σ} (h : d.Tended) (hr : d.worker.running = true)
    {owner : Owner} (ho : owner = .stopping ∨ owner = .leaving) (queue : List Message)
    (accepted : List Message) :
    { d with
      worker := { d.worker with running := false, owner := owner, queue := queue }
      accepted := accepted }.Tended := by
  obtain ⟨-, hserv, -⟩ := h.running hr
  have hpend : ∀ w : Worker σ, w.owner = owner → w.isPending = true := by
    intro w hw
    simpa [Worker.isPending, hw] using ho
  refine ⟨fun hu => ?_, nofun, fun _ => ⟨rfl, hserv⟩, fun _ _ => .inl (hpend _ rfl)⟩
  rw [hserv] at hu
  cases hu

theorem Tended.stop {d : Desk σ} (h : d.Tended) : (d.apply .stop).Tended := by
  cases hr : d.worker.running with
  | true =>
    rw [stop_of_running hr (d.worker.isOpen_iff.2 (h.running hr).2.1)]
    exact h.end_running hr (.inl rfl) _ _
  | false =>
    rw [stop_of_not_running hr]
    exact h

theorem Tended.drop {d : Desk σ} (h : d.Tended) (hd : d.worker.owner = .present) :
    (d.apply .drop).Tended := by
  cases hr : d.worker.running with
  | true =>
    rw [drop_of_running hr (d.worker.isOpen_iff.2 (h.running hr).2.1)]
    exact h.end_running hr (.inr rfl) _ _
  | false =>
    rw [drop_of_not_running hr]
    have hp : ¬ d.worker.isPending = true := by simp [Worker.isPending, hd]
    refine ⟨h.fresh, fun hrun => ?_, fun hpen => ?_, fun hs _ => ?_⟩
    · rw [hr] at hrun
      cases hrun
    · simp [Worker.isPending] at hpen
    · exact .inr ((h.stopped hs hr).resolve_left hp)

theorem Tended.take {server : σ} {own : Credentials} {limit : Span} {d : Desk σ} (h : d.Tended)
    (hi : InService limit own server d) (stamps : Nat → Stamp)
    (hc : (d.apply (.take stamps)).worker.thread ≠ .crashed) : (d.apply (.take stamps)).Tended := by
  simp only [apply, Desk.take] at hc ⊢
  split at hc
  · next hg =>
    rw [if_pos hg]
    cases ho : d.worker.isOpen with
    | false =>
      rw [Worker.step_of_closed stamps _ ho]
      exact h.of_frame rfl rfl rfl (.inl rfl)
    | true =>
      cases hq : d.worker.queue with
      | nil =>
        rw [Worker.step_of_empty stamps _ hq]
        exact h.of_frame rfl rfl rfl (.inl rfl)
      | cons m rest =>
        cases hm : m.isQuit with
        | false =>
          obtain ⟨⟨server', session, calls, hs⟩, -, -⟩ := Worker.step_of_message stamps ho hq hm hc
          rw [hs]
          exact h.of_frame rfl rfl rfl (.inl rfl)
        | true =>
          obtain rfl := Message.eq_quit_of_isQuit hm
          -- `quit` is in the queue only when the worker was stopped.
          obtain ⟨tr, -, -, ha, -⟩ := hi.story
          have hquit : hasQuit d.accepted = true := by
            rw [← ha, hq, hasQuit_append]
            simp [hasQuit, Message.isQuit]
          have hr : d.worker.running = false := by
            by_contra hn
            obtain ⟨-, -, hq'⟩ := h.running (by simpa using hn)
            rw [hquit] at hq'
            cases hq'
          have hp := Worker.isPending_step_of_quit stamps ho hq
          obtain ⟨⟨owner, hs⟩, -⟩ := Worker.step_of_quit stamps ho hq
          rw [hs] at hp ⊢
          refine ⟨fun hn => ?_, fun hrun => ?_, fun hpen => ?_, fun _ _ => .inr rfl⟩
          · cases hn
          · cases hr.symm.trans hrun
          · cases hp.symm.trans hpen
  · next hg =>
    rw [if_neg hg]
    exact h

theorem Tended.apply {server : σ} {own : Credentials} {limit : Span} {d : Desk σ} (h : d.Tended)
    (hi : InService limit own server d) {m : Move} (hm : d.admits m = true)
    (hc : (d.apply m).worker.thread ≠ .crashed) : (d.apply m).Tended := by
  cases m with
  | start => exact h.start (by simpa [admits] using hm)
  | send m =>
    simp only [Desk.apply, send, Worker.enqueue]
    cases ho : d.worker.isOpen with
    | false => simpa using h
    | true =>
      exact h.of_frame rfl rfl rfl
        (.inr ⟨d.worker.isOpen_iff.1 ho, m, by simpa [admits] using hm, rfl⟩)
  | hold =>
    simp only [Desk.apply]
    split
    · exact h.of_frame rfl rfl rfl (.inl rfl)
    · exact h
  | resume => exact h.of_frame rfl rfl rfl (.inl rfl)
  | stop => exact h.stop
  | drop => exact h.drop (by simpa [admits] using hm)
  | take stamps => exact h.take hi stamps hc
  | carry =>
    simp only [Desk.apply, carry]
    split
    · exact h
    · exact h.of_frame rfl rfl rfl (.inl rfl)

theorem tended_run {server : σ} {own : Credentials} {limit : Span} {moves : List Move}
    (hp : (new server own limit).isProper moves = true)
    (hc : ((new server own limit).run moves).worker.thread ≠ .crashed) :
    ((new server own limit).run moves).Tended := by
  induction moves using List.reverseRecOn with
  | nil => exact tended_new server own limit
  | append_singleton moves m ih =>
    rw [isProper_append, Bool.and_eq_true] at hp
    obtain ⟨hp', hm⟩ := hp
    rw [isProper, isProper, Bool.and_true] at hm
    rw [run_append] at hc ⊢
    have hc' : ((new server own limit).run moves).worker.thread ≠ .crashed := fun h =>
      hc (run_crashed _ [m] h)
    exact (ih hp' hc').apply (inService_of_reached ⟨moves, rfl⟩ hc') hm hc

end Desk
end LinkTest
