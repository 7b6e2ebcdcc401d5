import LinkTest.Event
import LinkTest.Proofs.Worker.Taking

/-!
# What becomes of an upload

A record that a run sends off to be uploaded waits in a queue, is the subject of one call to the
server or of none, and comes back to the run as a receipt or as a refusal. So one thing is due at a
time, and a step of the worker turns it into the next.
-/

namespace LinkTest

/-- One thing that is noted about the record of a run. -/
inductive Filing
  /-- The run was announced to be completed with this record. -/
  | completed (run : RunId) (r : Record)
  /-- The run was announced to have failed. -/
  | failed (run : RunId) (reason : String)
  /-- The record came to the end of the queue of this worker, to be uploaded. -/
  | sent (run : RunId) (r : Record) (worker : Nat)
  /-- The call that uploads the record has ended in this way. -/
  | called (run : RunId) (r : Record) (outcome : Outcome Receipt)
  /-- The receipt was announced. -/
  | announced (run : RunId) (receipt : Receipt)
  /-- The run was told that nothing was uploaded. -/
  | denied (run : RunId) (reason : String)

namespace Filing

def run : Filing → RunId
  | completed run _ => run
  | failed run _ => run
  | sent run _ _ => run
  | called run _ _ => run
  | announced run _ => run
  | denied run _ => run

/-- The event by which it was made known. -/
def event? : Filing → Option Event
  | completed _ r => some (.testCompleted r)
  | failed _ reason => some (.testFailed reason)
  | announced _ receipt => some (.reportRouter receipt)
  | _ => none

/-- What an event says of the run in whose course it was published. -/
def ofEvent (run : RunId) : Event → Option Filing
  | .testCompleted r => some (completed run r)
  | .testFailed reason => some (failed run reason)
  | .reportRouter receipt => some (announced run receipt)
  | .phaseChanged _ _ => none

end Filing

/-- The record that a message asks to be uploaded on behalf of a run. -/
def Message.upload? : Message → Option (RunId × Record)
  | .report r (some (.run run)) => some (run, r)
  | _ => none

theorem Message.eq_report_of_upload? {m : Message} {run : RunId} {r : Record}
    (h : m.upload? = some (run, r)) : m = .report r (some (.run run)) := by
  cases m with
  | report s t =>
    cases t with
    | none => cases h
    | some t =>
      cases t with
      | target id kind => cases h
      | run other =>
        cases h
        rfl
  | _ => cases h

/-- What is still due to a run that has sent off its record. -/
inductive Errand
  | upload (r : Record)
  | receipt (receipt : Receipt)
  | refusal (reason : String)

namespace Errand

/-- What a reply brings to a run. -/
def ofReply (run : RunId) : ReplyTo × Reply → Option Errand
  | (.run of, .reported x) => if of = run then some (receipt x) else none
  | (.run of, .reportFailed reason) => if of = run then some (refusal reason) else none
  | _ => none

def ofMessage (run : RunId) (m : Message) : Option Errand :=
  m.upload?.bind fun (of, r) => if of = run then some (upload r) else none

def ofEffects (run : RunId) (effects : List Effect) : List Errand :=
  (repliesOf effects).filterMap (ofReply run)

def ofQueue (run : RunId) (queue : List Message) : List Errand := queue.filterMap (ofMessage run)

@[simp] theorem ofQueue_nil (run : RunId) : ofQueue run [] = [] := rfl

theorem ofQueue_cons (run : RunId) (m : Message) (rest : List Message) :
    ofQueue run (m :: rest) = (ofMessage run m).toList ++ ofQueue run rest := by
  rw [ofQueue, List.filterMap_cons]
  cases ofMessage run m <;> rfl

@[simp] theorem ofQueue_append (run : RunId) (before after : List Message) :
    ofQueue run (before ++ after) = ofQueue run before ++ ofQueue run after :=
  List.filterMap_append

@[simp] theorem ofEffects_append (run : RunId) (before after : List Effect) :
    ofEffects run (before ++ after) = ofEffects run before ++ ofEffects run after := by
  simp [ofEffects]

theorem ofQueue_of_upload? (run : RunId) {ms : List Message} (h : ∀ m ∈ ms, m.upload? = none) :
    ofQueue run ms = [] :=
  List.filterMap_eq_nil_iff.2 fun m hm => by rw [ofMessage, h m hm]; rfl

theorem exists_of_ofMessage {run : RunId} {m : Message} {d : Errand}
    (h : ofMessage run m = some d) :
    ∃ r, m = .report r (some (.run run)) ∧ d = upload r := by
  obtain ⟨⟨of, r⟩, hm, h⟩ := Option.bind_eq_some_iff.1 h
  obtain ⟨rfl, rfl⟩ : of = run ∧ upload r = d := by simpa using h
  exact ⟨r, Message.eq_report_of_upload? hm, rfl⟩

theorem exists_of_mem_ofQueue {run : RunId} {queue : List Message} {d : Errand}
    (h : d ∈ ofQueue run queue) : ∃ r, d = upload r := by
  obtain ⟨m, -, hm⟩ := List.mem_filterMap.1 h
  obtain ⟨r, -, hd⟩ := exists_of_ofMessage hm
  exact ⟨r, hd⟩

end Errand

/-- How far an upload that was sent off has come: what was noted of it since, and what is still
due. -/
inductive Progress (run : RunId) (r : Record) : List Filing → Option Errand → Prop
  | waiting : Progress run r [] (some (.upload r))
  /-- No call was made: there was no session, or the worker has ended. -/
  | turnedAway (reason : String) : Progress run r [] (some (.refusal reason))
  | accepted (receipt : Receipt) :
    Progress run r [.called run r (.ended (.ok receipt))] (some (.receipt receipt))
  /-- The call has failed, or it was given up at the limit. -/
  | failed {limit : Span} {outcome : Outcome Receipt} {f : Failure}
    (h : outcome.result? limit = some (.error f)) :
    Progress run r [.called run r outcome] (some (.refusal f.message))
  | announced {noted : List Filing} {receipt : Receipt}
    (h : Progress run r noted (some (.receipt receipt))) :
    Progress run r (noted ++ [.announced run receipt]) none
  | denied {noted : List Filing} {reason : String}
    (h : Progress run r noted (some (.refusal reason))) :
    Progress run r (noted ++ [.denied run reason]) none

/-! ## Steps of a worker -/

theorem Outcome.eq_ended_of_result? {α : Type} {limit : Span} {outcome : Outcome α} {x : α}
    (h : outcome.result? limit = some (.ok x)) : outcome = .ended (.ok x) := by
  cases outcome with
  | ended e =>
    obtain rfl : e = .ok x := Option.some.inj h
    rfl
  | overdue => cases h
  | crashed => cases h

namespace Worker

variable {σ : Type} [Server σ]

/-- The upload that a worker makes for a run when it takes its oldest message, and how the call
ends. -/
def upload? (w : Worker σ) : Option (RunId × Record × Outcome Receipt) :=
  if w.isOpen then
    match w.queue, w.session with
    | .report r (some (.run run)) :: _, .active token =>
      if r.isValid then some (run, r, (Server.report w.limit token r w.server).1) else none
    | _, _ => none
  else none

/-- What is noted of this about one run. -/
def uploadsFor (run : RunId) (w : Worker σ) : List Filing :=
  w.upload?.toList.filterMap fun (of, r, outcome) =>
    if of = run then some (.called of r outcome) else none

theorem exists_of_upload? {w : Worker σ} {run : RunId} {r : Record} {outcome : Outcome Receipt}
    (h : w.upload? = some (run, r, outcome)) :
    ∃ rest token, w.isOpen = true ∧ w.queue = .report r (some (.run run)) :: rest ∧
      w.session = .active token ∧ r.isValid = true ∧
      outcome = (Server.report w.limit token r w.server).1 := by
  unfold upload? at h
  split at h
  · next ho =>
    split at h
    · next s of rest token hq hs =>
      split at h
      · next hr =>
        obtain ⟨rfl, rfl, rfl⟩ : of = run ∧ s = r ∧ _ = outcome := by simpa using h
        exact ⟨rest, token, ho, hq, hs, hr, rfl⟩
      · cases h
    · cases h
  · cases h

theorem uploadsFor_eq_nil {run : RunId} {w : Worker σ}
    (h : ∀ r rest, w.isOpen = true → w.queue ≠ .report r (some (.run run)) :: rest) :
    w.uploadsFor run = [] := by
  unfold uploadsFor
  cases hu : w.upload? with
  | none => rfl
  | some x =>
    obtain ⟨of, r, outcome⟩ := x
    obtain ⟨rest, token, ho, hq, -⟩ := exists_of_upload? hu
    have hne : of ≠ run := by
      rintro rfl
      exact h r rest ho hq
    simp [hne]

theorem upload?_of_uploadsFor {run : RunId} {r : Record} {outcome : Outcome Receipt} {w : Worker σ}
    (h : w.uploadsFor run = [.called run r outcome]) : w.upload? = some (run, r, outcome) := by
  unfold uploadsFor at h
  cases hu : w.upload? with
  | none => simp [hu] at h
  | some x =>
    obtain ⟨of, s, result⟩ := x
    by_cases hof : of = run
    · obtain ⟨rfl, rfl⟩ : s = r ∧ result = outcome := by simpa [hu, hof] using h
      rw [hof]
    · simp [hu, hof] at h

theorem uploadsFor_of_report {run : RunId} {r : Record} {rest : List Message} {w : Worker σ}
    (ho : w.isOpen = true) (hq : w.queue = .report r (some (.run run)) :: rest) :
    w.uploadsFor run = match w.session with
      | .active token =>
        if r.isValid then [.called run r (Server.report w.limit token r w.server).1] else []
      | _ => [] := by
  unfold uploadsFor upload?
  rw [hq, if_pos ho]
  cases w.session with
  | active token => cases hv : r.isValid <;> simp [hv]
  | _ => rfl

end Worker

namespace Errand

variable {σ : Type} [Server σ]

omit [Server σ] in
/-- Uploads behind `quit` are refused. -/
theorem ofReply_rejections (run : RunId) (stamps : Nat → Stamp) (queue : List Message) :
    (Worker.rejections stamps queue).filterMap (ofReply run) =
      (ofQueue run queue).map fun _ => refusal Worker.rejection := by
  induction queue generalizing stamps with
  | nil => rfl
  | cons m rest ih =>
    have hcons : Worker.rejections stamps (m :: rest) =
        Worker.addressed m (Worker.rejectionReplies (stamps 0) m) ++
          Worker.rejections (fun i => stamps (i + 1)) rest := by
      simp only [Worker.rejections, List.mapIdx_cons, List.flatten_cons]
    rw [hcons, ofQueue_cons, List.filterMap_append, List.map_append, ih]
    congr 1
    cases m with
    | login c => rfl
    | requestTest t => cases t <;> rfl
    | report r t =>
      cases t with
      | none => rfl
      | some t =>
        cases t with
        | target id kind => rfl
        | run of =>
          by_cases hof : of = run <;>
            simp [Worker.addressed, Message.replyTo?, Worker.rejectionReplies, ofReply, ofMessage,
              Message.upload?, hof]
    | quit => rfl

/-- Other messages bring the run nothing of this kind. -/
theorem ofReply_addressed {run : RunId} {session : Session} {m : Message} {answer : List Reply}
    (hm : ofMessage run m = none) (h : Worker.Answered session m answer) :
    (Worker.addressed m answer).filterMap (ofReply run) = [] := by
  cases m with
  | login c => rfl
  | requestTest t =>
    cases session with
    | active token =>
      obtain ⟨r, rfl⟩ := h
      cases t <;> rfl
    | loggedOut =>
      obtain ⟨r, -, rfl⟩ := h
      cases t <;> rfl
    | failed reason =>
      obtain ⟨r, -, rfl⟩ := h
      cases t <;> rfl
  | report r t =>
    cases t with
    | none => rfl
    | some t =>
      cases t with
      | target id kind => rcases h with ⟨receipt, rfl⟩ | ⟨reason, rfl⟩ <;> rfl
      | run of =>
        have hof : of ≠ run := by
          rintro rfl
          simp [ofMessage, Message.upload?] at hm
        rcases h with ⟨receipt, rfl⟩ | ⟨reason, rfl⟩ <;>
          simp [Worker.addressed, Message.replyTo?, ofReply, hof]
  | quit => rfl

/-- A request for an upload that is taken turns into a call and its outcome, or into a refusal. -/
theorem progress_of_report {run : RunId} {r : Record} {rest : List Message} (stamps : Nat → Stamp)
    {w : Worker σ} (ho : w.isOpen = true) (hq : w.queue = .report r (some (.run run)) :: rest)
    (hc : (w.step stamps).1.thread ≠ .crashed) :
    ∃ d, (Worker.addressed (.report r (some (.run run)))
        (Worker.answer w.limit (stamps 0) w.server w.session
          (.report r (some (.run run))))).filterMap (ofReply run) = [d] ∧
      Progress run r (w.uploadsFor run) (some d) := by
  rw [Worker.uploadsFor_of_report ho hq]
  cases hv : r.isValid with
  | false =>
    refine ⟨.refusal Worker.uploadRefusal, ?_, ?_⟩
    · simp [Worker.answer, hv, Worker.addressed, Message.replyTo?, ofReply]
    · cases w.session <;> exact .turnedAway _
  | true =>
    cases hs : w.session with
    | active token =>
      rcases hr : (Server.report w.limit token r w.server).1.result? w.limit with _ | (f | receipt)
      · rw [Worker.step_fst stamps ho hq] at hc
        simp [Worker.handle, Worker.upload, hv, hs, hr] at hc
      · refine ⟨.refusal f.message, ?_, .failed hr⟩
        simp [Worker.answer, hv, hr, Worker.uploadReply, Worker.addressed, Message.replyTo?,
          ofReply]
      · refine ⟨.receipt receipt, ?_, ?_⟩
        · simp [Worker.answer, hv, hr, Worker.uploadReply, Worker.addressed, Message.replyTo?,
            ofReply]
        · obtain hend := Outcome.eq_ended_of_result? hr
          simp only [hend, if_true]
          exact .accepted receipt
    | loggedOut =>
      refine ⟨.refusal Failure.notLoggedIn.message, ?_, .turnedAway _⟩
      simp [Worker.answer, hv, Worker.addressed, Message.replyTo?, ofReply]
    | failed reason =>
      refine ⟨.refusal Failure.notLoggedIn.message, ?_, .turnedAway _⟩
      simp [Worker.answer, hv, Worker.addressed, Message.replyTo?, ofReply]

/-- What is due of a worker turns into what is due next, and this is noted of it. -/
structure Forwarded (run : RunId) (due due' : List Errand) (noted : List Filing) : Prop where
  idle : due = [] → due' = [] ∧ noted = []
  owed : ∀ r, due = [.upload r] → ∃ d, due' = [d] ∧ Progress run r noted (some d)

theorem Forwarded.same (run : RunId) (due : List Errand) : Forwarded run due due [] :=
  ⟨fun h => ⟨h, rfl⟩, fun r h => ⟨.upload r, h, .waiting⟩⟩

/-- Behind `quit` every upload is refused. -/
theorem forwarded_of_quit {run : RunId} (stamps : Nat → Stamp) {w : Worker σ} {rest : List Message}
    (ho : w.isOpen = true) (hq : w.queue = .quit :: rest)
    (hc : (w.step stamps).1.thread ≠ .crashed) :
    Forwarded run (ofQueue run (.quit :: rest))
      (ofEffects run (w.step stamps).2 ++ ofQueue run (w.step stamps).1.queue) [] := by
  have hrest : ofQueue run (.quit :: rest) = ofQueue run rest := rfl
  rw [ofEffects, (Worker.step_of_quit stamps ho hq).2, ofReply_rejections,
    Worker.queue_step stamps ho hq hc, hrest]
  refine ⟨fun h => ⟨?_, rfl⟩, fun r h => ⟨.refusal Worker.rejection, ?_, .turnedAway _⟩⟩
  · rw [h]
    rfl
  · rw [h]
    rfl

theorem forwarded_of_message {run : RunId} (stamps : Nat → Stamp) {w : Worker σ} {m : Message}
    {rest : List Message} (ho : w.isOpen = true) (hq : w.queue = m :: rest) (hm : m.isQuit = false)
    (hc : (w.step stamps).1.thread ≠ .crashed) :
    Forwarded run ((ofMessage run m).toList ++ ofQueue run rest)
      (ofEffects run (w.step stamps).2 ++ ofQueue run (w.step stamps).1.queue)
      (w.uploadsFor run) := by
  obtain ⟨-, hr, ha⟩ := Worker.step_of_message stamps ho hq hm hc
  rw [ofEffects, hr, Worker.queue_step stamps ho hq hc, hm, if_neg Bool.false_ne_true]
  cases hd : ofMessage run m with
  | none =>
    have hnone : w.uploadsFor run = [] := by
      refine Worker.uploadsFor_eq_nil fun r _ _ h => ?_
      rw [hq] at h
      obtain rfl : m = .report r (some (.run run)) := (List.cons.inj h).1
      simp [ofMessage, Message.upload?] at hd
    rw [ofReply_addressed hd ha, hnone]
    exact .same run _
  | some d =>
    obtain ⟨r, rfl, rfl⟩ := exists_of_ofMessage hd
    refine ⟨fun h => by simp at h, fun s h => ?_⟩
    obtain ⟨rfl, hrest⟩ : r = s ∧ ofQueue run rest = [] := by simpa using h
    obtain ⟨d, hd, hp⟩ := progress_of_report stamps ho hq hc
    exact ⟨d, by rw [hd, hrest]; rfl, hp⟩

theorem forwarded_step (run : RunId) (stamps : Nat → Stamp) (w : Worker σ)
    (hc : (w.step stamps).1.thread ≠ .crashed) :
    Forwarded run (ofQueue run w.queue)
      (ofEffects run (w.step stamps).2 ++ ofQueue run (w.step stamps).1.queue)
      (w.uploadsFor run) := by
  cases ho : w.isOpen with
  | false =>
    have hnone : w.uploadsFor run = [] :=
      Worker.uploadsFor_eq_nil fun _ _ h => by rw [ho] at h; cases h
    rw [w.step_of_closed stamps ho, hnone]
    exact .same run _
  | true =>
    cases hq : w.queue with
    | nil =>
      have hnone : w.uploadsFor run = [] :=
        Worker.uploadsFor_eq_nil fun _ _ _ h => by rw [hq] at h; cases h
      rw [w.step_of_empty stamps hq, hq, hnone]
      exact .same run _
    | cons m rest =>
      cases hm : m.isQuit with
      | true =>
        obtain rfl := Message.eq_quit_of_isQuit hm
        have hnone : w.uploadsFor run = [] :=
          Worker.uploadsFor_eq_nil fun _ _ _ h => by rw [hq] at h; cases h
        rw [hnone]
        exact forwarded_of_quit stamps ho hq hc
      | false =>
        rw [ofQueue_cons]
        exact forwarded_of_message stamps ho hq hm hc

/-- A run is told of a receipt only if the server has returned it for an upload of the run. -/
theorem upload?_of_receipt {run : RunId} (stamps : Nat → Stamp) {w : Worker σ} {x : Receipt}
    (h : receipt x ∈ ofEffects run (w.step stamps).2) :
    ∃ r, w.upload? = some (run, r, .ended (.ok x)) := by
  cases ho : w.isOpen with
  | false => simp [w.step_of_closed stamps ho, ofEffects] at h
  | true =>
    cases hq : w.queue with
    | nil => simp [w.step_of_empty stamps hq, ofEffects] at h
    | cons m rest =>
      by_cases hc : (w.step stamps).1.thread = .crashed
      · obtain ⟨⟨t, reply⟩, hr, hx⟩ := List.mem_filterMap.1 h
        obtain rfl : reply = .started := (Worker.step_of_crash stamps ho hc).2 t reply hr
        cases t <;> cases hx
      cases hm : m.isQuit with
      | true =>
        obtain rfl := Message.eq_quit_of_isQuit hm
        rw [ofEffects, (Worker.step_of_quit stamps ho hq).2, ofReply_rejections] at h
        simp at h
      | false =>
        obtain ⟨-, hr, ha⟩ := Worker.step_of_message stamps ho hq hm hc
        rw [ofEffects, hr] at h
        cases hd : ofMessage run m with
        | none =>
          rw [ofReply_addressed hd ha] at h
          cases h
        | some d =>
          obtain ⟨r, rfl, rfl⟩ := exists_of_ofMessage hd
          obtain ⟨d, hd, hp⟩ := progress_of_report stamps ho hq hc
          rw [hd] at h
          obtain rfl := List.mem_singleton.1 h
          refine ⟨r, Worker.upload?_of_uploadsFor ?_⟩
          generalize w.uploadsFor run = noted at hp
          cases hp
          rfl

end Errand
end LinkTest
