import LinkTest.Proofs.Worker.Account

/-!
# Schedules of one worker

A desk is a worker together with what its thread has still to carry out of the message that it
took last, the messages that were accepted and the replies that were handed over. A schedule is
any list of moves: messages are sent by whoever has a handle, the worker is started, held, let go
on, stopped and dropped, its thread takes the oldest message, and carries out one effect. What a
recipient sends back from inside a reply is a message sent after that effect, and other holders of
a handle send theirs before, between and after the effects. A call that takes the thread down is
not part of a schedule without crashes.
-/

namespace LinkTest

structure Desk (σ : Type) where
  worker : Worker σ
  /-- The effects of the message taken last that were not carried out yet. -/
  pending : List Effect
  /-- The messages for which there was room in the queue, oldest first. -/
  accepted : List Message
  /-- The replies handed over, oldest first. -/
  replies : List (ReplyTo × Reply)

namespace Worker

variable {σ : Type}

/-- What a stop sends: `quit`, if the worker runs and its thread is there to take it. -/
def farewell (w : Worker σ) : List Message := if w.running && w.isOpen then [.quit] else []

theorem stop_fst (w : Worker σ) : ∃ owner running, w.stop.1 =
    { w with owner := owner, running := running, queue := w.queue ++ w.farewell } := by
  unfold stop farewell
  by_cases hr : w.running
  · by_cases ho : w.isOpen
    · exact ⟨.stopping, false, by simp [hr, ho]⟩
    · exact ⟨w.owner, false, by simp [hr, ho]⟩
  · refine ⟨w.owner, w.running, ?_⟩
    rw [if_neg hr, if_neg (by simp [hr]), List.append_nil]

theorem drop_eq (w : Worker σ) : ∃ owner running, w.drop =
    { w with owner := owner, running := running, queue := w.queue ++ w.farewell } := by
  unfold drop farewell
  by_cases hr : w.running
  · by_cases ho : w.isOpen
    · exact ⟨.leaving, false, by simp [hr, ho]⟩
    · exact ⟨.gone, false, by simp [hr, ho]⟩
  · refine ⟨.gone, w.running, ?_⟩
    rw [if_neg hr, if_neg (by simp [hr]), List.append_nil]

theorem farewell_of_closed (w : Worker σ) (h : w.isOpen = false) : w.farewell = [] := by
  simp [farewell, h]

end Worker

namespace Desk

variable {σ : Type}

inductive Move
  | start
  /-- Someone who has a handle sends a message. -/
  | send (m : Message)
  | hold
  | resume
  | stop
  | drop
  /-- The thread takes the oldest message; these stamps are at hand for records. -/
  | take (stamps : Nat → Stamp)
  /-- The thread carries out the next effect. -/
  | carry

/-- A worker that was just made. -/
def new (server : σ) (own : Credentials) (limit : Span) : Desk σ :=
  ⟨.new server own limit, [], [], []⟩

/-- Sends a message, which is accepted unless the worker refuses it. -/
def send (m : Message) (d : Desk σ) : Desk σ :=
  match d.worker.enqueue m with
  | .ok w => { d with worker := w, accepted := d.accepted ++ [m] }
  | .error _ => d

/-- Carries out the next effect: a reply is handed over. -/
def carry (d : Desk σ) : Desk σ :=
  match d.pending with
  | [] => d
  | e :: rest => { d with pending := rest, replies := d.replies ++ e.reply?.toList }

variable [Server σ]

/-- Takes the oldest message once the one before is done with, if the worker is not held. -/
def take (stamps : Nat → Stamp) (d : Desk σ) : Desk σ :=
  if d.pending.isEmpty && !d.worker.held then
    { d with worker := (d.worker.step stamps).1, pending := (d.worker.step stamps).2 }
  else d

def apply (d : Desk σ) : Move → Desk σ
  | .start =>
    match d.worker.start with
    | .ok w => { d with worker := w }
    | .error _ => d
  | .send m => d.send m
  | .hold => if d.worker.isOpen then { d with worker := { d.worker with held := true } } else d
  | .resume => { d with worker := { d.worker with held := false } }
  | .stop =>
    { d with worker := d.worker.stop.1, accepted := d.accepted ++ d.worker.farewell }
  | .drop => { d with worker := d.worker.drop, accepted := d.accepted ++ d.worker.farewell }
  | .take stamps => d.take stamps
  | .carry => d.carry

def run (d : Desk σ) (moves : List Move) : Desk σ := moves.foldl apply d

/-- The desks to which some schedule of a new worker leads. -/
def Reached (server : σ) (own : Credentials) (limit : Span) (d : Desk σ) : Prop :=
  ∃ moves, (new server own limit).run moves = d

/-! ## Crashes are final -/

theorem apply_crashed (d : Desk σ) (m : Move) (h : d.worker.thread = .crashed) :
    (d.apply m).worker.thread = .crashed := by
  have ho : d.worker.isOpen = false := by simp [Worker.isOpen, h]
  cases m with
  | start => simp [apply, Worker.start, h]
  | send m => simp [apply, send, Worker.enqueue, ho, h]
  | hold => simp [apply, ho, h]
  | resume => exact h
  | stop =>
    obtain ⟨owner, running, hw⟩ := d.worker.stop_fst
    simp [apply, hw, h]
  | drop =>
    obtain ⟨owner, running, hw⟩ := d.worker.drop_eq
    simp [apply, hw, h]
  | take stamps =>
    simp only [apply, take, Worker.step_of_closed _ _ ho]
    split <;> exact h
  | carry =>
    simp only [apply, carry]
    split <;> exact h

theorem run_crashed (d : Desk σ) (moves : List Move) (h : d.worker.thread = .crashed) :
    (d.run moves).worker.thread = .crashed := by
  induction moves generalizing d with
  | nil => exact h
  | cons m rest ih => exact ih _ (d.apply_crashed m h)

/-- What every move without a crash keeps, a schedule without a crash keeps. -/
theorem run_induction {P : Desk σ → Prop}
    (step : ∀ d m, P d → (d.apply m).worker.thread ≠ .crashed → P (d.apply m))
    (d : Desk σ) (moves : List Move) (hd : P d)
    (h : (d.run moves).worker.thread ≠ .crashed) : P (d.run moves) := by
  induction moves generalizing d with
  | nil => exact hd
  | cons m rest ih =>
    have hm : (d.apply m).worker.thread ≠ .crashed := fun hc =>
      h ((d.apply m).run_crashed rest hc)
    exact ih _ (step d m hd hm) h

end Desk
end LinkTest
