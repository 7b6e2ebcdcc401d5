import LinkTest.Proofs.Worker.Desk
import LinkTest.Server.Scripted

/-!
# The service of a worker

In every schedule without a crash a worker does what its account says. The messages accepted are
those taken and then those in the queue. The calls and the session are those of the account of the
messages that came before the first `quit`, until the farewell ends both. Each message taken is due
one answer, decided by the session that it found or, behind `quit`, by its kind alone, and the
replies handed over or pending are these answers in the order of the messages.
-/

namespace LinkTest

/-- Messages with their answers, oldest first. -/
abbrev Transcript := List (Message × List Reply)

namespace Transcript

def messages (tr : Transcript) : List Message := tr.map Prod.fst

def replies (tr : Transcript) : List (ReplyTo × Reply) :=
  tr.flatMap fun p => Worker.addressed p.1 p.2

/-- What a recipient sees of it. -/
def seenBy (t : ReplyTo) (tr : Transcript) : List Reply :=
  tr.flatMap fun p => if p.1.replyTo? = some t then p.2 else []

@[simp] theorem messages_append (tr us : Transcript) :
    messages (tr ++ us) = messages tr ++ messages us := List.map_append

@[simp] theorem replies_append (tr us : Transcript) :
    replies (tr ++ us) = replies tr ++ replies us := List.flatMap_append

theorem filter_addressed (t : ReplyTo) (m : Message) (b : List Reply) :
    ((Worker.addressed m b).filter (·.1 = t)).map Prod.snd =
      if m.replyTo? = some t then b else [] := by
  unfold Worker.addressed
  cases h : m.replyTo? with
  | none => simp
  | some u =>
    by_cases hu : u = t
    · subst hu
      simp [List.filter_map, Function.comp_def]
    · simp [List.filter_map, Function.comp_def, hu]

/-- The replies to one recipient are the answers to the messages that named it. -/
theorem filter_replies (t : ReplyTo) (tr : Transcript) :
    ((replies tr).filter (·.1 = t)).map Prod.snd = seenBy t tr := by
  induction tr with
  | nil => rfl
  | cons p rest ih =>
    simp only [replies, seenBy, List.flatMap_cons, List.filter_append, List.map_append,
      filter_addressed] at ih ⊢
    rw [ih]

/-- A queue that is rejected, each message with a stamp of its own. -/
def rejected (stamps : Nat → Stamp) (queue : List Message) : Transcript :=
  queue.mapIdx fun i m => (m, Worker.rejectionReplies (stamps i) m)

theorem rejected_cons (stamps : Nat → Stamp) (m : Message) (rest : List Message) :
    rejected stamps (m :: rest) =
      (m, Worker.rejectionReplies (stamps 0) m) :: rejected (fun i => stamps (i + 1)) rest :=
  List.mapIdx_cons

theorem messages_rejected (stamps : Nat → Stamp) (queue : List Message) :
    messages (rejected stamps queue) = queue := by
  induction queue generalizing stamps with
  | nil => rfl
  | cons m rest ih => rw [rejected_cons, messages, List.map_cons, ← messages, ih]

theorem replies_rejected (stamps : Nat → Stamp) (queue : List Message) :
    replies (rejected stamps queue) = Worker.rejections stamps queue := by
  induction queue generalizing stamps with
  | nil => rfl
  | cons m rest ih =>
    rw [rejected_cons, replies, List.flatMap_cons, ← replies, ih]
    simp [Worker.rejections, List.mapIdx_cons]

end Transcript

/-- Whether the message that ends a worker is among some. -/
def hasQuit (ms : List Message) : Bool := ms.any Message.isQuit

/-- The messages before the first `quit`. -/
def beforeQuit (ms : List Message) : List Message := ms.takeWhile fun m => !m.isQuit

theorem hasQuit_append (ms ns : List Message) : hasQuit (ms ++ ns) = (hasQuit ms || hasQuit ns) :=
  List.any_append

theorem beforeQuit_of_hasQuit_eq_false {ms : List Message} (h : hasQuit ms = false)
    (ns : List Message) : beforeQuit (ms ++ ns) = ms ++ beforeQuit ns := by
  apply List.takeWhile_append_of_pos
  intro m hm
  simpa using List.any_eq_false.1 h m hm

theorem beforeQuit_eq_self {ms : List Message} (h : hasQuit ms = false) : beforeQuit ms = ms := by
  simpa [beforeQuit] using beforeQuit_of_hasQuit_eq_false h []

section Answers

variable {σ : Type} [Server σ] (limit : Span) (own : Credentials) (server : σ)

/-- The answer that a message is due which stands behind the messages `before`. -/
structure Due (before : List Message) (m : Message) (b : List Reply) : Prop where
  served : hasQuit before = false → ∃ stamp,
    b = Worker.answer limit stamp (Account.after limit own server before).server
      (Account.after limit own server before).session m ∧
    Worker.Answered (Account.after limit own server before).session m b
  rejected : hasQuit before = true → ∃ stamp, b = Worker.rejectionReplies stamp m

/-- A transcript in which every message has the answer that it is due. -/
def Faithful (tr : Transcript) : Prop :=
  ∀ (before : Transcript) m b rest, tr = before ++ (m, b) :: rest →
    Due limit own server before.messages m b

variable {limit own server}

theorem faithful_nil : Faithful limit own server [] := by
  intro before m b rest h
  simp at h

theorem Faithful.concat {tr : Transcript} (h : Faithful limit own server tr) {m : Message}
    {b : List Reply} (hd : Due limit own server tr.messages m b) :
    Faithful limit own server (tr ++ [(m, b)]) := by
  intro before m' b' rest he
  rcases List.eq_nil_or_concat rest with rfl | ⟨rest', p, rfl⟩
  · obtain ⟨rfl, hp⟩ := List.append_inj' he rfl
    simp only [List.cons.injEq, Prod.mk.injEq, and_true] at hp
    obtain ⟨rfl, rfl⟩ := hp
    exact hd
  · have hr : tr ++ [(m, b)] = (before ++ (m', b') :: rest') ++ [p] := by
      simpa [List.concat_eq_append] using he
    exact h before m' b' rest' (List.append_inj' hr rfl).1

/-- Rejections are what the messages behind `quit` are due. -/
theorem Faithful.reject {tr : Transcript} (h : Faithful limit own server tr)
    (hq : hasQuit tr.messages = true) (stamps : Nat → Stamp) (queue : List Message) :
    Faithful limit own server (tr ++ Transcript.rejected stamps queue) := by
  induction queue generalizing tr stamps with
  | nil => simpa [Transcript.rejected] using h
  | cons m rest ih =>
    have hm : Faithful limit own server (tr ++ [(m, Worker.rejectionReplies (stamps 0) m)]) :=
      h.concat ⟨fun hf => by simp [hq] at hf, fun _ => ⟨stamps 0, rfl⟩⟩
    have hr := ih hm (by simp [hasQuit_append, hq]) fun i => stamps (i + 1)
    simpa [Transcript.rejected_cons, List.append_assoc] using hr

/-! ## What every move keeps -/

/-- The state that the messages taken have left, before and after the first `quit`. -/
structure Settled (limit : Span) (own : Credentials) (server : σ) (taken : List Message)
    (w : Worker σ) : Prop where
  going : hasQuit taken = false →
    w.thread ≠ .ended ∧ (Account.after limit own server taken).Agrees w
  closed : hasQuit taken = true → w.thread = .ended ∧ w.queue = [] ∧ w.session = .loggedOut ∧
    w.calls = (Account.after limit own server (beforeQuit taken)).calls ++ [.disconnect]

theorem Settled.hasQuit_eq_false {taken : List Message} {w : Worker σ}
    (hs : Settled limit own server taken w) (ho : w.thread = .serving) : hasQuit taken = false := by
  cases hn : hasQuit taken with
  | false => rfl
  | true =>
    have he := (hs.closed hn).1
    simp [ho] at he

/-- A desk at which every message taken was given what it is due. -/
structure InService (limit : Span) (own : Credentials) (server : σ) (d : Desk σ) : Prop where
  sameLimit : d.worker.limit = limit
  sameOwn : d.worker.credentials = own
  story : ∃ tr : Transcript, Faithful limit own server tr ∧
    d.replies ++ repliesOf d.pending = tr.replies ∧
    tr.messages ++ d.worker.queue = d.accepted ∧
    Settled limit own server tr.messages d.worker

theorem inService_new : InService limit own server (.new server own limit) where
  sameLimit := rfl
  sameOwn := rfl
  story := ⟨[], faithful_nil, rfl, rfl,
    fun _ => ⟨by simp [Desk.new, Worker.new], Account.agrees_opened server own limit⟩,
    fun h => by simp [Transcript.messages, hasQuit] at h⟩

/-- Moves other than those of the thread add messages at most. -/
theorem InService.of_frame {d : Desk σ} (h : InService limit own server d) (w : Worker σ)
    (accepted ms : List Message) (hw : ∃ thread owner running held, w = { d.worker with
      thread := thread, owner := owner, running := running, held := held,
      queue := d.worker.queue ++ ms })
    (hacc : accepted = d.accepted ++ ms)
    (ht : w.thread = .ended ↔ d.worker.thread = .ended)
    (hm : d.worker.thread = .ended → ms = []) :
    InService limit own server { d with worker := w, accepted := accepted } := by
  obtain ⟨thread, owner, running, held, rfl⟩ := hw
  subst hacc
  obtain ⟨tr, hf, hr, ha, hs⟩ := h.story
  refine ⟨h.sameLimit, h.sameOwn, tr, hf, hr, by rw [← ha, List.append_assoc], ?_, ?_⟩
  · intro hn
    obtain ⟨he, hg⟩ := hs.going hn
    exact ⟨fun hc => he (ht.1 hc), hg.server, hg.session, hg.calls⟩
  · intro hn
    obtain ⟨he, hq, hl, hc⟩ := hs.closed hn
    exact ⟨ht.2 he, by simp [hq, hm he], hl, hc⟩

/-- One message before `quit`: its answer is the one that it is due. -/
theorem InService.take_message {d : Desk σ} (h : InService limit own server d)
    (stamps : Nat → Stamp) {m : Message} {rest : List Message} (hm : m.isQuit = false)
    (ho : d.worker.isOpen = true) (hq : d.worker.queue = m :: rest) (hp : d.pending = [])
    (hc : (d.worker.step stamps).1.thread ≠ .crashed) :
    InService limit own server
      { d with worker := (d.worker.step stamps).1, pending := (d.worker.step stamps).2 } := by
  obtain ⟨tr, hf, hr, ha, hs⟩ := h.story
  have hopen : d.worker.thread = .serving := d.worker.isOpen_iff.1 ho
  have hnq : hasQuit tr.messages = false := hs.hasQuit_eq_false hopen
  obtain ⟨-, hg⟩ := hs.going hnq
  obtain ⟨⟨server', session', calls', hw⟩, hreplies, hanswered⟩ :=
    Worker.step_of_message stamps ho hq hm hc
  have hagree := hg.step stamps ho hq hm hc
  rw [h.sameLimit, hg.server, hg.session] at hreplies hanswered
  rw [h.sameLimit, h.sameOwn] at hagree
  have hnq' : hasQuit (tr.messages ++ [m]) = false := by
    rw [hasQuit_append, hnq]
    simp [hasQuit, hm]
  refine ⟨by rw [hw]; exact h.sameLimit, by rw [hw]; exact h.sameOwn, tr ++ [(m, _)],
    hf.concat ⟨fun _ => ⟨stamps 0, rfl, hanswered⟩, fun ht => by simp [hnq] at ht⟩, ?_, ?_, ?_, ?_⟩
  · rw [hp, repliesOf_nil, List.append_nil] at hr
    simp [hr, hreplies, Transcript.replies]
  · rw [hw, ← ha, hq]
    simp [Transcript.messages]
  · intro _
    refine ⟨by rw [hw]; simp [hopen], ?_⟩
    rw [Transcript.messages_append]
    exact (Account.after_concat limit own server tr.messages m).symm ▸ hagree
  · intro hn
    rw [Transcript.messages_append] at hn
    exact absurd hn (by simpa [Transcript.messages] using hnq')

/-- The first `quit`: all that stands behind it is rejected. -/
theorem InService.take_quit {d : Desk σ} (h : InService limit own server d)
    (stamps : Nat → Stamp) {rest : List Message} (ho : d.worker.isOpen = true)
    (hq : d.worker.queue = .quit :: rest) (hp : d.pending = []) :
    InService limit own server
      { d with worker := (d.worker.step stamps).1, pending := (d.worker.step stamps).2 } := by
  obtain ⟨tr, hf, hr, ha, hs⟩ := h.story
  have hopen : d.worker.thread = .serving := d.worker.isOpen_iff.1 ho
  have hnq : hasQuit tr.messages = false := hs.hasQuit_eq_false hopen
  obtain ⟨-, hg⟩ := hs.going hnq
  obtain ⟨⟨owner, hw⟩, hreplies⟩ := Worker.step_of_quit stamps ho hq
  -- `quit` itself is due nothing, and it is the first of its kind.
  have hquit : Faithful limit own server (tr ++ [(.quit, [])]) :=
    hf.concat ⟨fun _ => ⟨default, by cases Account.session _ <;> rfl,
      by cases Account.session _ <;> rfl⟩, fun ht => by simp [hnq] at ht⟩
  have hlast : hasQuit (Transcript.messages (tr ++ [(.quit, [])])) = true := by
    rw [Transcript.messages_append, hasQuit_append]
    simp [Transcript.messages, hasQuit, Message.isQuit]
  have hmessages : Transcript.messages (tr ++ [(.quit, [])] ++ Transcript.rejected stamps rest) =
      tr.messages ++ .quit :: rest := by
    rw [Transcript.messages_append, Transcript.messages_append, Transcript.messages_rejected]
    simp [Transcript.messages]
  refine ⟨by rw [hw]; exact h.sameLimit, by rw [hw]; exact h.sameOwn, _,
    hquit.reject hlast stamps rest, ?_, ?_, ?_, ?_⟩
  · rw [hp, repliesOf_nil, List.append_nil] at hr
    rw [hr, hreplies, Transcript.replies_append, Transcript.replies_append,
      Transcript.replies_rejected]
    simp [Transcript.replies, Worker.addressed]
  · rw [hmessages, hw, ← ha, hq, List.append_nil]
  · intro hn
    rw [Transcript.messages_append, hasQuit_append, hlast, Bool.true_or] at hn
    cases hn
  · intro _
    rw [hmessages, beforeQuit_of_hasQuit_eq_false hnq, hw]
    exact ⟨rfl, rfl, rfl, by simp [hg.calls, beforeQuit, Message.isQuit]⟩

theorem InService.take {d : Desk σ} (h : InService limit own server d) (stamps : Nat → Stamp)
    (hc : (d.take stamps).worker.thread ≠ .crashed) : InService limit own server (d.take stamps) := by
  unfold Desk.take at hc ⊢
  split at hc
  · next hg =>
    simp only [if_pos hg]
    have hp : d.pending = [] := by
      simp only [Bool.and_eq_true, List.isEmpty_iff] at hg
      exact hg.1
    cases ho : d.worker.isOpen with
    | false => rwa [Worker.step_of_closed stamps _ ho, ← hp]
    | true =>
      cases hq : d.worker.queue with
      | nil => rwa [Worker.step_of_empty stamps _ hq, ← hp]
      | cons m rest =>
        cases hm : m.isQuit with
        | false => exact h.take_message stamps hm ho hq hp hc
        | true =>
          obtain rfl := Message.eq_quit_of_isQuit hm
          exact h.take_quit stamps ho hq hp
  · next hg => rwa [if_neg hg]

theorem InService.carry {d : Desk σ} (h : InService limit own server d) :
    InService limit own server d.carry := by
  unfold Desk.carry
  split
  · exact h
  · next e rest hp =>
    obtain ⟨tr, hf, hr, ha, hs⟩ := h.story
    refine ⟨h.sameLimit, h.sameOwn, tr, hf, ?_, ha, hs⟩
    rw [← hr, hp]
    cases e with
    | note n => simp [Effect.reply?]
    | reply t b => simp [Effect.reply?]

theorem InService.apply {d : Desk σ} (h : InService limit own server d) (m : Desk.Move)
    (hc : (d.apply m).worker.thread ≠ .crashed) : InService limit own server (d.apply m) := by
  cases m with
  | start =>
    simp only [Desk.apply, Worker.start]
    by_cases hu : d.worker.thread = .unstarted
    · simp only [hu, if_true]
      exact h.of_frame _ _ [] ⟨.serving, d.worker.owner, true, d.worker.held, by simp⟩ (by simp)
        (by simp [hu]) fun _ => rfl
    · simpa [hu] using h
  | send m =>
    simp only [Desk.apply, Desk.send, Worker.enqueue]
    cases ho : d.worker.isOpen with
    | false => simpa using h
    | true =>
      have hopen := d.worker.isOpen_iff.1 ho
      exact h.of_frame _ _ [m] ⟨d.worker.thread, d.worker.owner, d.worker.running, d.worker.held,
        rfl⟩ rfl Iff.rfl fun he => by simp [hopen] at he
  | hold =>
    simp only [Desk.apply]
    split
    · exact h.of_frame _ _ [] ⟨d.worker.thread, d.worker.owner, d.worker.running, true, by simp⟩
        (by simp) Iff.rfl fun _ => rfl
    · exact h
  | resume =>
    exact h.of_frame _ _ [] ⟨d.worker.thread, d.worker.owner, d.worker.running, false, by simp⟩
      (by simp) Iff.rfl fun _ => rfl
  | stop =>
    obtain ⟨owner, running, hw⟩ := d.worker.stop_fst
    exact h.of_frame _ _ d.worker.farewell ⟨d.worker.thread, owner, running, d.worker.held, hw⟩
      rfl (by rw [hw]) fun he => d.worker.farewell_of_closed (by simp [Worker.isOpen, he])
  | drop =>
    obtain ⟨owner, running, hw⟩ := d.worker.drop_eq
    exact h.of_frame _ _ d.worker.farewell ⟨d.worker.thread, owner, running, d.worker.held, hw⟩
      rfl (by rw [hw]) fun he => d.worker.farewell_of_closed (by simp [Worker.isOpen, he])
  | take stamps => exact h.take stamps hc
  | carry => exact h.carry

/-- Every schedule without a crash leaves a desk at which each message taken got what it is due. -/
theorem inService_of_reached {d : Desk σ} (hd : d.Reached server own limit)
    (h : d.worker.thread ≠ .crashed) : InService limit own server d := by
  obtain ⟨moves, rfl⟩ := hd
  exact Desk.run_induction (fun _ m hd hc => hd.apply m hc) _ moves inService_new h

end Answers

namespace Desk

/-- The first login succeeds, the second is overdue. -/
def rehearsalScript : Script := ⟨[.ended (.ok ⟨"first"⟩), .overdue], [], [], default⟩

/-- A held worker is sent two tests with a login before each, and an upload behind `quit`. Once it
is let go on, another test is asked for from inside a reply. -/
def rehearsal : List Move :=
  let stamps : Nat → Stamp := fun _ => default
  let t : ReplyTo := .target 0 .callback
  [.start, .hold, .send (.login none), .send (.requestTest t), .send (.login (some ⟨"ann", "s"⟩)),
    .send (.requestTest t), .stop, .send (.report (Script.defaultRecord default) (some t)),
    .resume, .take stamps, .carry, .carry, .take stamps, .carry, .carry, .send (.requestTest t),
    .carry, .carry, .take stamps, .carry, .carry, .take stamps, .carry, .carry, .carry,
    .take stamps, .carry, .carry, .carry, .carry, .carry, .carry]

def rehearsed : Desk Script :=
  (new rehearsalScript .anonymous Worker.defaultLimit).run rehearsal

end Desk
end LinkTest
