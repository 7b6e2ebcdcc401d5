import LinkTest.Proofs.Worker.Service

/-!
# The replies of a worker

Main statement: whatever the schedule, each recipient sees the answers to the messages that named
it, in the order in which these were accepted and nothing else. A request is answered with exactly
one record, behind a notice of the start if and only if it found a session before `quit`; an upload
is answered once; and behind `quit` there are rejections only. A message that was refused has left
no trace.
-/

namespace LinkTest

namespace Reply

def isFinished : Reply → Bool
  | .finished _ => true
  | _ => false

/-- Whether a reply is the end of an upload. -/
def isUploadEnd : Reply → Bool
  | .reported _ => true
  | .reportFailed _ => true
  | _ => false

end Reply

namespace Message

/-- Whether a message asks for a test whose replies go to `t`. -/
def requestsFor (t : ReplyTo) : Message → Bool
  | .requestTest u => u = t
  | _ => false

/-- Whether a message asks for an upload whose reply goes to `t`. -/
def uploadsFor (t : ReplyTo) : Message → Bool
  | .report _ (some u) => u = t
  | _ => false

end Message

namespace Desk

variable {σ : Type}

/-- The replies that a recipient was handed. -/
def seenBy (t : ReplyTo) (d : Desk σ) : List Reply := (d.replies.filter (·.1 = t)).map Prod.snd

/-- The replies to a recipient that are due of the message taken last. -/
def owedTo (t : ReplyTo) (d : Desk σ) : List Reply :=
  ((repliesOf d.pending).filter (·.1 = t)).map Prod.snd

end Desk

/-- The ends of tests and of uploads in one answer, as a recipient sees them. -/
theorem Worker.Answered.counts {session : Session} {m : Message} {b : List Reply}
    (h : Worker.Answered session m b) (t : ReplyTo) :
    (if m.replyTo? = some t then b else []).countP Reply.isFinished =
      (if m.requestsFor t then 1 else 0) ∧
    (if m.replyTo? = some t then b else []).countP Reply.isUploadEnd =
      (if m.uploadsFor t then 1 else 0) := by
  cases m with
  | login c => simp [Message.replyTo?, Message.requestsFor, Message.uploadsFor]
  | requestTest u =>
    by_cases hu : u = t
    · cases session with
      | active token =>
        obtain ⟨r, rfl⟩ := h
        simp [Message.replyTo?, Message.requestsFor, Message.uploadsFor, hu, Reply.isFinished,
          Reply.isUploadEnd]
      | loggedOut =>
        obtain ⟨r, -, rfl⟩ := h
        simp [Message.replyTo?, Message.requestsFor, Message.uploadsFor, hu, Reply.isFinished,
          Reply.isUploadEnd]
      | failed reason =>
        obtain ⟨r, -, rfl⟩ := h
        simp [Message.replyTo?, Message.requestsFor, Message.uploadsFor, hu, Reply.isFinished,
          Reply.isUploadEnd]
    · simp [Message.replyTo?, Message.requestsFor, Message.uploadsFor, hu]
  | report r u =>
    cases u with
    | none => simp [Message.replyTo?, Message.requestsFor, Message.uploadsFor]
    | some u =>
      by_cases hu : u = t
      · rcases h with ⟨receipt, rfl⟩ | ⟨reason, rfl⟩ <;>
          simp [Message.replyTo?, Message.requestsFor, Message.uploadsFor, hu, Reply.isFinished,
            Reply.isUploadEnd]
      · simp [Message.replyTo?, Message.requestsFor, Message.uploadsFor, hu]
  | quit => simp [Message.replyTo?, Message.requestsFor, Message.uploadsFor]

/-- A rejection has the form of an answer that found no session. -/
theorem Worker.answered_rejectionReplies (stamp : Stamp) (m : Message) :
    Worker.Answered .loggedOut m (Worker.rejectionReplies stamp m) := by
  cases m with
  | login c => rfl
  | requestTest t => exact ⟨_, rfl, rfl⟩
  | report r t =>
    cases t with
    | none => rfl
    | some t => exact .inr ⟨_, rfl⟩
  | quit => rfl

variable {σ : Type} [Server σ] {limit : Span} {own : Credentials} {server : σ}

theorem Due.answered {before : List Message} {m : Message} {b : List Reply}
    (h : Due limit own server before m b) : ∃ session, Worker.Answered session m b := by
  cases hq : hasQuit before with
  | false =>
    obtain ⟨stamp, -, ha⟩ := h.served hq
    exact ⟨_, ha⟩
  | true =>
    obtain ⟨stamp, rfl⟩ := h.rejected hq
    exact ⟨_, Worker.answered_rejectionReplies stamp m⟩

theorem Faithful.answered {tr : Transcript} (h : Faithful limit own server tr) :
    ∀ p ∈ tr, ∃ session, Worker.Answered session p.1 p.2 := by
  intro p hp
  obtain ⟨before, rest, rfl⟩ := List.append_of_mem hp
  exact (h before p.1 p.2 rest rfl).answered

/-- A recipient is told of as many ends as the messages that named it. -/
theorem Transcript.counts (t : ReplyTo) {tr : Transcript}
    (h : ∀ p ∈ tr, ∃ session, Worker.Answered session p.1 p.2) :
    (tr.seenBy t).countP Reply.isFinished = tr.messages.countP (Message.requestsFor t) ∧
    (tr.seenBy t).countP Reply.isUploadEnd = tr.messages.countP (Message.uploadsFor t) := by
  induction tr with
  | nil => exact ⟨rfl, rfl⟩
  | cons p rest ih =>
    obtain ⟨session, hp⟩ := h p List.mem_cons_self
    obtain ⟨hf, hu⟩ := hp.counts t
    obtain ⟨ihf, ihu⟩ := ih fun q hq => h q (List.mem_cons_of_mem p hq)
    simp only [Transcript.seenBy, Transcript.messages] at ihf ihu ⊢
    rw [List.flatMap_cons, List.map_cons, List.countP_append, List.countP_append,
      List.countP_cons, List.countP_cons, hf, hu, ihf, ihu]
    exact ⟨Nat.add_comm _ _, Nat.add_comm _ _⟩

omit [Server σ] in
/-- The only refusal there is, and what a refused message leaves. -/
theorem Desk.send_of_refused {d : Desk σ} {m : Message} {f : Failure}
    (h : d.worker.enqueue m = .error f) : f = .workerStopped ∧ d.send m = d := by
  unfold Worker.enqueue at h
  split at h
  · cases h
  · next ho => exact ⟨(Except.error.inj h).symm, by simp [Desk.send, Worker.enqueue, ho]⟩

omit [Server σ] in
theorem Desk.owedTo_of_idle {d : Desk σ} (h : d.pending = []) (t : ReplyTo) : d.owedTo t = [] := by
  simp [Desk.owedTo, h]

/-- Each recipient sees the answers to the messages accepted that named it, in their order; those
of the message taken last are seen or owed, and those of the queue are to come. -/
theorem seenBy_eq_answers {d : Desk σ} (hd : d.Reached server own limit)
    (h : d.worker.thread ≠ .crashed) :
    (∃ tr : Transcript, Faithful limit own server tr ∧
      tr.messages ++ d.worker.queue = d.accepted ∧
      (∀ t, d.seenBy t ++ d.owedTo t = tr.seenBy t ∧
        (tr.seenBy t).countP Reply.isFinished = tr.messages.countP (Message.requestsFor t) ∧
        (tr.seenBy t).countP Reply.isUploadEnd = tr.messages.countP (Message.uploadsFor t)) ∧
      (d.worker.queue = [] → d.pending = [] →
        tr.messages = d.accepted ∧ ∀ t, d.seenBy t = tr.seenBy t)) ∧
    ∀ m f, d.worker.enqueue m = .error f → f = .workerStopped ∧ d.send m = d := by
  obtain ⟨tr, hf, hr, ha, -⟩ := (inService_of_reached hd h).story
  have hseen : ∀ t, d.seenBy t ++ d.owedTo t = tr.seenBy t := by
    intro t
    rw [← Transcript.filter_replies, ← hr, List.filter_append, List.map_append]
    rfl
  refine ⟨⟨tr, hf, ha, fun t => ⟨hseen t, Transcript.counts t hf.answered⟩, ?_⟩, ?_⟩
  · intro hq hp
    rw [hq, List.append_nil] at ha
    refine ⟨ha, fun t => ?_⟩
    rw [← hseen t, Desk.owedTo_of_idle hp, List.append_nil]
  · intro m f hm
    exact Desk.send_of_refused hm

theorem replies_of_rehearsed :
    Desk.rehearsed.worker.thread ≠ .crashed ∧
    ∃ tr : Transcript,
      tr.messages ++ Desk.rehearsed.worker.queue = Desk.rehearsed.accepted ∧
      ∀ t, Desk.rehearsed.seenBy t ++ Desk.rehearsed.owedTo t = tr.seenBy t := by
  have h : Desk.rehearsed.worker.thread ≠ .crashed := by decide +kernel
  obtain ⟨⟨tr, -, ha, hs, -⟩, -⟩ := seenBy_eq_answers ⟨Desk.rehearsal, rfl⟩ h
  exact ⟨h, tr, ha, fun t => (hs t).1⟩

end LinkTest
