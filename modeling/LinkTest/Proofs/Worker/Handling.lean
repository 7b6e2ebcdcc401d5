import LinkTest.Worker

/-!
# What a worker makes of one message

Handling a message other than `quit` changes the server, the session and the calls, and leaves the
queue to itself unless the call takes the thread down. Which replies come of it is decided by the
session that was found. Handling `quit` empties the queue and answers each message in it with a
rejection. The notes among the effects play no part here.
-/

namespace LinkTest

/-- The reply that an effect hands over, with its recipient. -/
def Effect.reply? : Effect → Option (ReplyTo × Reply)
  | .reply t r => some (t, r)
  | .note _ => none

/-- The replies among some effects, in their order. -/
def repliesOf (effects : List Effect) : List (ReplyTo × Reply) := effects.filterMap Effect.reply?

@[simp] theorem repliesOf_nil : repliesOf [] = [] := rfl

@[simp] theorem repliesOf_reply (t : ReplyTo) (reply : Reply) (rest : List Effect) :
    repliesOf (.reply t reply :: rest) = (t, reply) :: repliesOf rest := rfl

@[simp] theorem repliesOf_note (n : Note) (rest : List Effect) :
    repliesOf (.note n :: rest) = repliesOf rest := rfl

@[simp] theorem repliesOf_append (es fs : List Effect) :
    repliesOf (es ++ fs) = repliesOf es ++ repliesOf fs := List.filterMap_append

@[simp] theorem repliesOf_map_note (ns : List Note) : repliesOf (ns.map .note) = [] := by
  induction ns with
  | nil => rfl
  | cons n rest ih => exact ih

namespace Message

/-- Whether a message is the one that ends a worker. -/
def isQuit : Message → Bool
  | .quit => true
  | _ => false

theorem eq_quit_of_isQuit {m : Message} (h : m.isQuit = true) : m = .quit := by
  cases m with
  | quit => rfl
  | _ => cases h

/-- Who is to be answered. -/
def replyTo? : Message → Option ReplyTo
  | .requestTest t => some t
  | .report _ t => t
  | _ => none

end Message

namespace Worker

@[simp] theorem repliesOf_workerNote (level : LogLevel) (text : String) (rest : List Effect) :
    repliesOf (note level text :: rest) = repliesOf rest := rfl

@[simp] theorem repliesOf_answered (r : Record) (t : ReplyTo) :
    repliesOf (answered r t) = [(t, .finished r)] := rfl

variable {σ : Type}

/-! ## Frame lemmas -/

/-- Whoever waits for the thread is told of it, and nothing else changes. -/
theorem release_fst (w : Worker σ) : ∃ owner, w.release.1 = { w with owner := owner } := by
  unfold release
  split
  · exact ⟨.present, rfl⟩
  · exact ⟨.gone, rfl⟩
  · exact ⟨w.owner, rfl⟩

@[simp] theorem repliesOf_release (w : Worker σ) : repliesOf w.release.2 = [] := by
  unfold release
  split <;> simp

@[simp] theorem release_thread (w : Worker σ) : w.release.1.thread = w.thread := by
  obtain ⟨owner, h⟩ := w.release_fst
  rw [h]

@[simp] theorem crash_thread (w : Worker σ) : w.crash.1.thread = .crashed := by
  simp [crash]

theorem isOpen_iff (w : Worker σ) : w.isOpen = true ↔ w.thread = .serving := by
  simp [isOpen]

/-! ## Rejections -/

/-- What a message behind `quit` is answered with. -/
def rejectionReplies (stamp : Stamp) : Message → List Reply
  | .requestTest _ => [.finished (.failed stamp rejection)]
  | .report _ (some _) => [.reportFailed rejection]
  | _ => []

/-- The replies to the recipient of a message. -/
def addressed (m : Message) (answer : List Reply) : List (ReplyTo × Reply) :=
  m.replyTo?.toList.flatMap fun t => answer.map (t, ·)

theorem repliesOf_reject (stamp : Stamp) (m : Message) :
    repliesOf (reject stamp m) = addressed m (rejectionReplies stamp m) := by
  cases m with
  | login _ => rfl
  | requestTest _ => rfl
  | report _ t => cases t <;> rfl
  | quit => rfl

/-- The rejections of a whole queue, each message with a stamp of its own. -/
def rejections (stamps : Nat → Stamp) (queue : List Message) : List (ReplyTo × Reply) :=
  (queue.mapIdx fun i m => addressed m (rejectionReplies (stamps i) m)).flatten

theorem repliesOf_rejects (stamps : Nat → Stamp) (queue : List Message) :
    repliesOf (queue.mapIdx fun i m => reject (stamps i) m).flatten = rejections stamps queue := by
  induction queue generalizing stamps with
  | nil => rfl
  | cons m rest ih =>
    simp only [rejections, List.mapIdx_cons, List.flatten_cons, repliesOf_append, repliesOf_reject]
    rw [ih fun i => stamps (i + 1)]
    rfl

variable [Server σ]

/-- The end of a worker: the queue is answered, the farewell is the last call. -/
theorem finish_spec (stamps : Nat → Stamp) (w : Worker σ) :
    (∃ owner, (w.finish stamps).1 = { w with
      owner := owner
      server := Server.disconnect w.server
      calls := w.calls ++ [Call.disconnect]
      session := .loggedOut
      thread := .ended
      queue := [] }) ∧
    repliesOf (w.finish stamps).2 = rejections stamps w.queue := by
  constructor
  · exact release_fst _
  · simp only [finish, repliesOf_append, repliesOf_rejects, repliesOf_workerNote,
      repliesOf_release, List.append_nil]

/-! ## Messages before the end -/

/-- The record of a test that has been made, whatever came of it. -/
def testRecord (stamp : Stamp) : Except Failure Record → Record
  | .ok r => r
  | .error f => .failed stamp ("test exchange failed: " ++ f.message)

def uploadReply : Except Failure Receipt → Reply
  | .ok receipt => .reported receipt
  | .error f => .reportFailed f.message

/-- What a message is answered with by a worker that has this server and this session. -/
def answer (limit : Span) (stamp : Stamp) (server : σ) : Session → Message → List Reply
  | .loggedOut, .requestTest _ => [.finished (.failed stamp Failure.notLoggedIn.message)]
  | .failed reason, .requestTest _ => [.finished (.failed stamp ("login failed: " ++ reason))]
  | .active token, .requestTest _ =>
    .started :: (((Server.test limit token server).1.result? limit).map
      (Reply.finished ∘ testRecord stamp)).toList
  | session, .report r (some _) =>
    if r.isValid then
      match session with
      | .active token =>
        (((Server.report limit token r server).1.result? limit).map uploadReply).toList
      | _ => [.reportFailed Failure.notLoggedIn.message]
    else [.reportFailed uploadRefusal]
  | _, _ => []

theorem logIn_spec (c : Credentials) (w : Worker σ) (h : (w.logIn c).1.thread ≠ .crashed) :
    ∃ result, (Server.login w.limit c w.server).1.result? w.limit = some result ∧
      (w.logIn c).1 = { w with
        server := (Server.login w.limit c w.server).2
        calls := w.calls ++ [Call.login c]
        session := match result with
          | .ok token => .active token
          | .error f => .failed f.message } ∧
      repliesOf (w.logIn c).2 = [] := by
  rcases hr : (Server.login w.limit c w.server).1.result? w.limit with _ | result
  · simp [logIn, hr] at h
  · refine ⟨result, rfl, ?_⟩
    cases result with
    | ok token => simp [logIn, hr]
    | error f => simp [logIn, hr]

theorem makeTest_spec (stamp : Stamp) (t : ReplyTo) (w : Worker σ)
    (h : (w.makeTest stamp t).1.thread ≠ .crashed) :
    (w.makeTest stamp t).1 = (match w.session with
      | .active token => { w with
          server := (Server.test w.limit token w.server).2
          calls := w.calls ++ [Call.test token] }
      | _ => w) ∧
    repliesOf (w.makeTest stamp t).2 =
      (answer w.limit stamp w.server w.session (.requestTest t)).map (t, ·) := by
  unfold makeTest at h ⊢
  cases hs : w.session with
  | loggedOut => simp [answer]
  | failed reason => simp [answer]
  | active token =>
    rcases hr : (Server.test w.limit token w.server).1.result? w.limit with _ | result
    · simp [hs, hr] at h
    · cases result with
      | ok r => simp [hr, answer, testRecord]
      | error f => simp [hr, answer, testRecord]

theorem upload_spec (stamp : Stamp) (r : Record) (t : Option ReplyTo) (w : Worker σ)
    (h : (w.upload r t).1.thread ≠ .crashed) :
    (w.upload r t).1 = (if r.isValid then
      match w.session with
      | .active token => { w with
          server := (Server.report w.limit token r w.server).2
          calls := w.calls ++ [Call.report token r] }
      | _ => w
    else w) ∧
    repliesOf (w.upload r t).2 =
      addressed (.report r t) (answer w.limit stamp w.server w.session (.report r t)) := by
  unfold upload at h ⊢
  cases hv : r.isValid with
  | false => cases t <;> simp [answer, hv, addressed, Message.replyTo?]
  | true =>
    cases hs : w.session with
    | loggedOut => cases t <;> simp [answer, hv, addressed, Message.replyTo?]
    | failed reason => cases t <;> simp [answer, hv, addressed, Message.replyTo?]
    | active token =>
      rcases hr : (Server.report w.limit token r w.server).1.result? w.limit with _ | result
      · simp [hv, hs, hr] at h
      · cases result with
        | ok receipt => cases t <;> simp [hr, answer, hv, addressed, Message.replyTo?, uploadReply]
        | error f => cases t <;> simp [hr, answer, hv, addressed, Message.replyTo?, uploadReply]

/-- The form of an answer: a request ends with exactly one record, which follows exactly one notice
of the start if there was a session and holds no measurements if there was none; an upload is
answered once. -/
def Answered (session : Session) : Message → List Reply → Prop
  | .requestTest _, b =>
    match session with
    | .active _ => ∃ r, b = [.started, .finished r]
    | _ => ∃ r, r.isValid = false ∧ b = [.finished r]
  | .report _ (some _), b =>
    (∃ receipt, b = [.reported receipt]) ∨ ∃ reason, b = [.reportFailed reason]
  | _, b => b = []

theorem answered_requestTest (stamp : Stamp) (t : ReplyTo) (w : Worker σ)
    (h : (w.makeTest stamp t).1.thread ≠ .crashed) :
    Answered w.session (.requestTest t)
      (answer w.limit stamp w.server w.session (.requestTest t)) := by
  cases hs : w.session with
  | loggedOut => exact ⟨_, rfl, rfl⟩
  | failed reason => exact ⟨_, rfl, rfl⟩
  | active token =>
    rcases hr : (Server.test w.limit token w.server).1.result? w.limit with _ | result
    · simp [makeTest, hs, hr] at h
    · exact ⟨testRecord stamp result, by simp [answer, hr]⟩

theorem answered_report (stamp : Stamp) (r : Record) (t : Option ReplyTo) (w : Worker σ)
    (h : (w.upload r t).1.thread ≠ .crashed) :
    Answered w.session (.report r t) (answer w.limit stamp w.server w.session (.report r t)) := by
  cases t with
  | none => cases w.session <;> rfl
  | some t =>
    cases hv : r.isValid with
    | false => exact .inr ⟨uploadRefusal, by simp [answer, hv]⟩
    | true =>
      cases hs : w.session with
      | loggedOut => exact .inr ⟨Failure.notLoggedIn.message, by simp [answer, hv]⟩
      | failed reason => exact .inr ⟨Failure.notLoggedIn.message, by simp [answer, hv]⟩
      | active token =>
        rcases hr : (Server.report w.limit token r w.server).1.result? w.limit with _ | result
        · simp [upload, hv, hs, hr] at h
        · cases result with
          | ok receipt => exact .inl ⟨receipt, by simp [answer, hv, hr, uploadReply]⟩
          | error f => exact .inr ⟨f.message, by simp [answer, hv, hr, uploadReply]⟩

/-- One message before the end: what the handling leaves alone, and the replies. -/
theorem handle_spec (stamps : Nat → Stamp) (m : Message) (w : Worker σ) (hm : m.isQuit = false)
    (h : (w.handle stamps m).1.thread ≠ .crashed) :
    (∃ server session calls, (w.handle stamps m).1 =
      { w with server := server, session := session, calls := calls }) ∧
    repliesOf (w.handle stamps m).2 =
      addressed m (answer w.limit (stamps 0) w.server w.session m) ∧
    Answered w.session m (answer w.limit (stamps 0) w.server w.session m) := by
  cases m with
  | login c =>
    obtain ⟨result, -, hw, hr⟩ := logIn_spec _ w h
    exact ⟨⟨_, _, _, hw⟩, hr, by cases w.session <;> rfl⟩
  | requestTest t =>
    obtain ⟨hw, hr⟩ := makeTest_spec _ t w h
    refine ⟨?_, ?_, answered_requestTest _ t w h⟩
    · rw [handle, hw]
      split
      · exact ⟨_, w.session, _, rfl⟩
      · exact ⟨w.server, w.session, w.calls, rfl⟩
    · rw [handle, hr]
      simp [addressed, Message.replyTo?]
  | report r t =>
    obtain ⟨hw, hr⟩ := upload_spec (stamps 0) r t w h
    refine ⟨?_, hr, answered_report _ r t w h⟩
    rw [handle, hw]
    split
    · split
      · exact ⟨_, w.session, _, rfl⟩
      · exact ⟨w.server, w.session, w.calls, rfl⟩
    · exact ⟨w.server, w.session, w.calls, rfl⟩
  | quit => cases hm

/-! ## Steps -/

theorem step_of_closed (stamps : Nat → Stamp) (w : Worker σ) (h : w.isOpen = false) :
    w.step stamps = (w, []) := by
  simp [step, h]

theorem step_of_empty (stamps : Nat → Stamp) (w : Worker σ) (h : w.queue = []) :
    w.step stamps = (w, []) := by
  simp [step, h]

theorem step_fst (stamps : Nat → Stamp) {w : Worker σ} {m : Message} {rest : List Message}
    (ho : w.isOpen = true) (hq : w.queue = m :: rest) :
    (w.step stamps).1 = ({ w with queue := rest }.handle stamps m).1 := by
  simp [step, ho, hq]

theorem repliesOf_step (stamps : Nat → Stamp) {w : Worker σ} {m : Message} {rest : List Message}
    (ho : w.isOpen = true) (hq : w.queue = m :: rest) :
    repliesOf (w.step stamps).2 = repliesOf ({ w with queue := rest }.handle stamps m).2 := by
  simp [step, ho, hq]

/-- Taking a message before the end. -/
theorem step_of_message (stamps : Nat → Stamp) {w : Worker σ} {m : Message} {rest : List Message}
    (ho : w.isOpen = true) (hq : w.queue = m :: rest) (hm : m.isQuit = false)
    (h : (w.step stamps).1.thread ≠ .crashed) :
    (∃ server session calls, (w.step stamps).1 =
      { w with queue := rest, server := server, session := session, calls := calls }) ∧
    repliesOf (w.step stamps).2 = addressed m (answer w.limit (stamps 0) w.server w.session m) ∧
    Answered w.session m (answer w.limit (stamps 0) w.server w.session m) := by
  rw [step_fst stamps ho hq] at h ⊢
  rw [repliesOf_step stamps ho hq]
  exact handle_spec stamps m { w with queue := rest } hm h

/-- Taking `quit`. -/
theorem step_of_quit (stamps : Nat → Stamp) {w : Worker σ} {rest : List Message}
    (ho : w.isOpen = true) (hq : w.queue = .quit :: rest) :
    (∃ owner, (w.step stamps).1 = { w with
      owner := owner
      server := Server.disconnect w.server
      calls := w.calls ++ [Call.disconnect]
      session := .loggedOut
      thread := .ended
      queue := [] }) ∧
    repliesOf (w.step stamps).2 = rejections stamps rest := by
  rw [step_fst stamps ho hq, repliesOf_step stamps ho hq]
  exact finish_spec stamps { w with queue := rest }

/-- What is left in the queue after a message was taken. -/
theorem queue_step (stamps : Nat → Stamp) {w : Worker σ} {m : Message} {rest : List Message}
    (ho : w.isOpen = true) (hq : w.queue = m :: rest) (h : (w.step stamps).1.thread ≠ .crashed) :
    (w.step stamps).1.queue = if m.isQuit then [] else rest := by
  cases hm : m.isQuit with
  | true =>
    obtain rfl := Message.eq_quit_of_isQuit hm
    obtain ⟨⟨owner, hs⟩, -⟩ := step_of_quit stamps ho hq
    rw [hs, if_pos rfl]
  | false =>
    obtain ⟨⟨server, session, calls, hs⟩, -, -⟩ := step_of_message stamps ho hq hm h
    rw [hs, if_neg Bool.false_ne_true]

end Worker
end LinkTest
