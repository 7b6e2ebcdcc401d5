import LinkTest.Proofs.Station.Operations

/-!
# What is owed to a run

A run that is on its way is owed something: first the test that it asked for, then perhaps the
notice of the start, last the record. The test is owed by a message in a queue, the rest by effects
that are still to be carried out, and a step of a worker turns the one into the other.
-/

namespace LinkTest

/-- What is still owed to a run. -/
inductive Debt
  | test (run : RunId)
  | start (run : RunId)
  | record (run : RunId) (r : Record)

namespace Debt

/-- What a reply pays. -/
def ofReply : ReplyTo × Reply → Option Debt
  | (.run run, .started) => some (.start run)
  | (.run run, .finished r) => some (.record run r)
  | _ => none

def ofEffect (e : Effect) : Option Debt := e.reply?.bind ofReply

/-- What is owed by effects that are still to be carried out. -/
def ofEffects (effects : List Effect) : List Debt := effects.filterMap ofEffect

/-- What is owed by messages that are still to be taken. -/
def ofQueue (queue : List Message) : List Debt := queue.filterMap fun m => m.run?.map test

theorem ofEffects_eq (effects : List Effect) :
    ofEffects effects = (repliesOf effects).filterMap ofReply := by
  rw [repliesOf, List.filterMap_filterMap]
  rfl

@[simp] theorem ofEffects_nil : ofEffects [] = [] := rfl

@[simp] theorem ofQueue_nil : ofQueue [] = [] := rfl

theorem ofEffects_cons (e : Effect) (rest : List Effect) :
    ofEffects (e :: rest) = (ofEffect e).toList ++ ofEffects rest := by
  rw [ofEffects, List.filterMap_cons]
  cases ofEffect e <;> rfl

theorem ofQueue_cons (m : Message) (rest : List Message) :
    ofQueue (m :: rest) = (m.run?.map test).toList ++ ofQueue rest := by
  rw [ofQueue, List.filterMap_cons]
  cases m.run? <;> rfl

@[simp] theorem ofQueue_append (before after : List Message) :
    ofQueue (before ++ after) = ofQueue before ++ ofQueue after := List.filterMap_append

theorem ofQueue_of_run? {ms : List Message} (h : ∀ m ∈ ms, m.run? = none) : ofQueue ms = [] := by
  induction ms with
  | nil => rfl
  | cons m rest ih =>
    rw [ofQueue_cons, h m List.mem_cons_self, ih fun x hx => h x (List.mem_cons_of_mem _ hx)]
    rfl

/-- What is owed to a run in a phase in which it is on its way. -/
inductive Stage : Phase → RunId → List Debt → Prop
  | asked (run : RunId) : Stage .preparing run [.test run]
  | refused (run : RunId) (r : Record) (h : r.isValid = false) :
    Stage .preparing run [.record run r]
  | accepted (run : RunId) (r : Record) : Stage .preparing run [.start run, .record run r]
  | tested (run : RunId) (r : Record) : Stage .testing run [.record run r]

theorem Stage.isUnderWay {p : Phase} {run : RunId} {ds : List Debt} (h : Stage p run ds) :
    p.isUnderWay = true := by
  cases h <;> rfl

theorem Stage.ne_nil {p : Phase} {run : RunId} {ds : List Debt} (h : Stage p run ds) :
    ds ≠ [] := by
  cases h <;> simp

/-- Only a test is owed by a queue. -/
theorem Stage.of_queue {p : Phase} {run : RunId} {queue : List Message}
    (h : Stage p run (ofQueue queue)) : p = .preparing ∧ ofQueue queue = [.test run] := by
  have hq : ∀ d ∈ ofQueue queue, ∃ run, d = .test run := by
    intro d hd
    obtain ⟨m, -, hm⟩ := List.mem_filterMap.1 hd
    obtain ⟨run, -, rfl⟩ := Option.map_eq_some_iff.1 hm
    exact ⟨run, rfl⟩
  generalize ofQueue queue = ds at h hq
  cases h with
  | asked => exact ⟨rfl, rfl⟩
  | refused => simp at hq
  | accepted => simp at hq
  | tested => simp at hq

theorem Stage.of_start {p : Phase} {run other : RunId} {ds : List Debt}
    (h : Stage p run (.start other :: ds)) :
    p = .preparing ∧ other = run ∧ ∃ r, ds = [.record run r] := by
  cases h with
  | accepted _ r => exact ⟨rfl, rfl, r, rfl⟩

/-- A valid record is owed by a test that has begun. -/
theorem Stage.of_record {p : Phase} {run other : RunId} {r : Record} {ds : List Debt}
    (h : Stage p run (.record other r :: ds)) :
    other = run ∧ ds = [] ∧ (r.isValid = true → p = .testing) := by
  cases h with
  | refused _ _ hr => exact ⟨rfl, rfl, fun hv => by simp [hr] at hv⟩
  | tested => exact ⟨rfl, rfl, fun _ => rfl⟩

theorem eq_of_ofEffect {e : Effect} {d : Debt} (h : ofEffect e = some d) :
    (∃ run, e = .reply (.run run) .started ∧ d = .start run) ∨
      ∃ run r, e = .reply (.run run) (.finished r) ∧ d = .record run r := by
  cases e with
  | note n => cases h
  | reply t reply =>
    cases t with
    | target id kind => cases h
    | run run =>
      cases reply with
      | started => exact .inl ⟨run, rfl, (Option.some.inj h).symm⟩
      | finished r => exact .inr ⟨run, r, rfl, (Option.some.inj h).symm⟩
      | reported receipt => cases h
      | reportFailed reason => cases h

/-! ## Steps of a worker -/

theorem ofReply_addressed {session : Session} {m : Message} {b : List Reply}
    (hm : m.run? = none) (h : Worker.Answered session m b) :
    (Worker.addressed m b).filterMap ofReply = [] := by
  cases m with
  | login c => rfl
  | requestTest t =>
    cases t with
    | target id kind =>
      simp only [Worker.addressed, Message.replyTo?, Option.toList_some, List.flatMap_cons,
        List.flatMap_nil, List.append_nil, List.filterMap_map]
      exact List.filterMap_eq_nil_iff.2 fun _ _ => rfl
    | run run => cases hm
  | report r t =>
    cases t with
    | none => rfl
    | some t =>
      cases t with
      | target id kind => rcases h with ⟨receipt, rfl⟩ | ⟨reason, rfl⟩ <;> rfl
      | run run => rcases h with ⟨receipt, rfl⟩ | ⟨reason, rfl⟩ <;> rfl
  | quit => rfl

/-- A request that is taken is answered in one of two ways. -/
theorem stage_addressed {session : Session} {run : RunId} {b : List Reply}
    (h : Worker.Answered session (.requestTest (.run run)) b) :
    Stage .preparing run
      ((Worker.addressed (.requestTest (.run run)) b).filterMap ofReply) := by
  cases session with
  | loggedOut =>
    obtain ⟨r, hr, rfl⟩ := h
    exact .refused run r hr
  | failed reason =>
    obtain ⟨r, hr, rfl⟩ := h
    exact .refused run r hr
  | active token =>
    obtain ⟨r, rfl⟩ := h
    exact .accepted run r

theorem ofReply_rejections_cons (stamps : Nat → Stamp) (m : Message) (rest : List Message) :
    (Worker.rejections stamps (m :: rest)).filterMap ofReply =
      (m.run?.map fun run => record run (.failed (stamps 0) Worker.rejection)).toList ++
        (Worker.rejections (fun i => stamps (i + 1)) rest).filterMap ofReply := by
  simp only [Worker.rejections, List.mapIdx_cons, List.flatten_cons, List.filterMap_append]
  congr 1
  cases m with
  | login c => rfl
  | requestTest t => cases t <;> rfl
  | report r t =>
    cases t with
    | none => rfl
    | some t => cases t <;> rfl
  | quit => rfl

theorem ofReply_rejections (stamps : Nat → Stamp) {queue : List Message}
    (h : ofQueue queue = []) : (Worker.rejections stamps queue).filterMap ofReply = [] := by
  induction queue generalizing stamps with
  | nil => rfl
  | cons m rest ih =>
    rw [ofQueue_cons, List.append_eq_nil_iff] at h
    have hm : m.run? = none := by
      cases hr : m.run? with
      | none => rfl
      | some run => simp [hr] at h
    rw [ofReply_rejections_cons, hm, ih _ h.2]
    rfl

/-- A request behind `quit` is answered with a record that says so. -/
theorem stage_rejections (stamps : Nat → Stamp) {queue : List Message} {run : RunId}
    (h : ofQueue queue = [.test run]) :
    Stage .preparing run ((Worker.rejections stamps queue).filterMap ofReply) := by
  induction queue generalizing stamps with
  | nil => cases h
  | cons m rest ih =>
    rw [ofQueue_cons] at h
    rw [ofReply_rejections_cons]
    cases hr : m.run? with
    | none =>
      rw [hr] at h
      exact ih _ h
    | some other =>
      rw [hr] at h
      obtain ⟨rfl, hrest⟩ : other = run ∧ ofQueue rest = [] := by simpa using h
      rw [ofReply_rejections _ hrest]
      exact .refused other _ rfl

variable {σ : Type} [Server σ]

/-- A step turns what is owed by the queue into what is owed next. -/
theorem step_spec (stamps : Nat → Stamp) (w : Worker σ) (hw : w.Shut)
    (hc : (w.step stamps).1.thread ≠ .crashed) :
    (w.step stamps).1.Shut ∧
      (ofQueue w.queue = [] →
        ofEffects (w.step stamps).2 ++ ofQueue (w.step stamps).1.queue = []) ∧
      ∀ run, ofQueue w.queue = [.test run] →
        Stage .preparing run
          (ofEffects (w.step stamps).2 ++ ofQueue (w.step stamps).1.queue) := by
  cases ho : w.isOpen with
  | false =>
    rw [w.step_of_closed stamps ho]
    refine ⟨hw, id, fun run h => ?_⟩
    rw [h]
    exact .asked run
  | true =>
    cases hq : w.queue with
    | nil =>
      rw [w.step_of_empty stamps hq, hq]
      exact ⟨hw, id, fun run h => by cases h⟩
    | cons m rest =>
      cases hm : m.isQuit with
      | true =>
        obtain rfl := Message.eq_quit_of_isQuit hm
        obtain ⟨⟨owner, hs⟩, hr⟩ := Worker.step_of_quit stamps ho hq
        rw [ofEffects_eq, hr, hs]
        simp only [ofQueue_cons, ofQueue_nil, List.append_nil]
        exact ⟨fun _ => rfl, fun h => ofReply_rejections stamps h,
          fun run h => stage_rejections stamps h⟩
      | false =>
        obtain ⟨⟨server, session, calls, hs⟩, hr, ha⟩ := Worker.step_of_message stamps ho hq hm hc
        rw [ofEffects_eq, hr, hs]
        simp only [ofQueue_cons]
        refine ⟨fun hn => absurd (w.isOpen_iff.1 ho) hn, ?_⟩
        cases hrun : m.run? with
        | none =>
          rw [ofReply_addressed hrun ha]
          refine ⟨id, fun run h => ?_⟩
          have hrest : ofQueue rest = [.test run] := h
          rw [hrest]
          exact .asked run
        | some other =>
          obtain rfl := Message.eq_requestTest_of_run? hrun
          refine ⟨fun h => by simp at h, fun run h => ?_⟩
          obtain ⟨rfl, hrest⟩ : other = run ∧ ofQueue rest = [] := by simpa using h
          rw [hrest, List.append_nil]
          exact stage_addressed ha

end Debt
end LinkTest
