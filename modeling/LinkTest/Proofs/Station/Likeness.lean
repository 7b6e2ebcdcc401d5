import Mathlib.Data.List.Forall2
import LinkTest.Proofs.Station.Transcript

/-!
# Stations that are alike

Two stations may differ in what their workers hold, in their targets and in their logs. How they do,
a likeness says. If it outlasts what owners do to workers, what is sent to them and what is logged,
then each operation of the station answers the same at both and leaves them alike. Only the steps of
threads and the hand-over of replies to targets need a word of their own.
-/

namespace LinkTest

theorem forall₂_getElem? {α β : Type} {R : α → β → Prop} {l : List α} {l' : List β}
    (h : List.Forall₂ R l l') (i : Nat) : Option.Rel R l[i]? l'[i]? := by
  induction h generalizing i with
  | nil => exact .none
  | cons hd _ ih =>
    cases i with
    | zero => exact .some hd
    | succ i => exact ih i

theorem forall₂_set {α β : Type} {R : α → β → Prop} {l : List α} {l' : List β}
    (h : List.Forall₂ R l l') (i : Nat) {a : α} {b : β} (hab : R a b) :
    List.Forall₂ R (l.set i a) (l'.set i b) := by
  induction h generalizing i with
  | nil => exact .nil
  | cons hd ht ih =>
    cases i with
    | zero => exact .cons hab ht
    | succ i => exact .cons hd (ih i)

theorem forall₂_modify {α β : Type} {R : α → β → Prop} {l : List α} {l' : List β}
    (h : List.Forall₂ R l l') (i : Nat) {f : α → α} {g : β → β}
    (hfg : ∀ a b, R a b → R (f a) (g b)) : List.Forall₂ R (l.modify i f) (l'.modify i g) := by
  induction h generalizing i with
  | nil => cases i <;> exact .nil
  | cons hd ht ih =>
    cases i with
    | zero => exact .cons (hfg _ _ hd) ht
    | succ i => exact .cons hd (ih i)

/-! ## Workers between their steps -/

/-- How a worker stands with its thread and with its owner. -/
structure Standing where
  thread : Thread
  owner : Owner
  running : Bool
  held : Bool

namespace Worker

variable {σ : Type}

def standing (w : Worker σ) : Standing := ⟨w.thread, w.owner, w.running, w.held⟩

/-- The worker with another standing, which depends on the one before. -/
def stand (w : Worker σ) (f : Standing → Standing) : Worker σ :=
  { w with
    thread := (f w.standing).thread
    owner := (f w.standing).owner
    running := (f w.standing).running
    held := (f w.standing).held }

/-- The worker with one more message in its queue. -/
def post (w : Worker σ) (m : Message) : Worker σ := { w with queue := w.queue ++ [m] }

end Worker

/-- How two stations may differ, such that it makes no difference to others. -/
structure Likeness (σ : Type) where
  worker : Worker σ → Worker σ → Prop
  message : Message → Message → Prop
  targets : List Target → List Target → Prop
  log : Log → Log → Prop
  worker_refl : ∀ w, worker w w
  message_refl : ∀ m, message m m
  kind_eq : ∀ {m m'}, message m m' → m.kind = m'.kind
  standing_eq : ∀ {w w'}, worker w w' → w.standing = w'.standing
  /-- As many messages wait. -/
  length_eq : ∀ {w w'}, worker w w' → w.queue.length = w'.queue.length
  stand : ∀ {w w'}, worker w w' → ∀ f, worker (w.stand f) (w'.stand f)
  post : ∀ {w w' m m'}, worker w w' → message m m' → worker (w.post m) (w'.post m')
  note : ∀ {l l'}, log l l' → ∀ n, log (l.add n) (l'.add n)
  setLevel : ∀ {l l'}, log l l' → ∀ level, log { l with level := level } { l' with level := level }
  addTarget : ∀ {ts ts'}, targets ts ts' → ts.length = ts'.length ∧
    ∀ t, targets (ts ++ [t]) (ts' ++ [t])
  dropTarget : ∀ {s t : Station σ}, targets s.targets t.targets →
    ∀ id, targets (s.dropTarget id).targets (t.dropTarget id).targets
  deposit : ∀ {s t : Station σ}, targets s.targets t.targets → log s.log t.log →
    ∀ id reply, targets (s.deposit id reply).targets (t.deposit id reply).targets ∧
      log (s.deposit id reply).log (t.deposit id reply).log

namespace Likeness

variable {σ : Type} (L : Likeness σ) {w w' : Worker σ}

theorem thread_eq (h : L.worker w w') : w.thread = w'.thread :=
  congrArg Standing.thread (L.standing_eq h)

theorem isOpen_eq (h : L.worker w w') : w.isOpen = w'.isOpen := by
  rw [Worker.isOpen, Worker.isOpen, L.thread_eq h]

theorem running_eq (h : L.worker w w') : w.running = w'.running :=
  congrArg Standing.running (L.standing_eq h)

theorem held_eq (h : L.worker w w') : w.held = w'.held :=
  congrArg Standing.held (L.standing_eq h)

theorem stop (h : L.worker w w') : L.worker w.stop.1 w'.stop.1 ∧ w.stop.2 = w'.stop.2 := by
  have hrunning := L.running_eq h
  have hopen := L.isOpen_eq h
  unfold Worker.stop
  by_cases hr : w.running = true
  · rw [if_pos hr, if_pos (hrunning.symm.trans hr)]
    by_cases ho : w.isOpen = true
    · rw [if_pos ho, if_pos (hopen.symm.trans ho)]
      have hleft := L.stand h ({ · with running := false, owner := .stopping })
      exact ⟨L.post hleft (L.message_refl .quit), rfl⟩
    · rw [if_neg ho, if_neg fun h => ho (hopen.trans h)]
      exact ⟨L.stand h ({ · with running := false }),
        congrArg Worker.stopNotes (L.thread_eq h)⟩
  · rw [if_neg hr, if_neg fun h => hr (hrunning.trans h)]
    exact ⟨h, rfl⟩

theorem drop (h : L.worker w w') : L.worker w.drop w'.drop := by
  have hrunning := L.running_eq h
  have hopen := L.isOpen_eq h
  unfold Worker.drop
  by_cases hr : w.running = true
  · rw [if_pos hr, if_pos (hrunning.symm.trans hr)]
    by_cases ho : w.isOpen = true
    · rw [if_pos ho, if_pos (hopen.symm.trans ho)]
      have hleft := L.stand h ({ · with running := false, owner := .leaving })
      exact L.post hleft (L.message_refl .quit)
    · rw [if_neg ho, if_neg fun h => ho (hopen.trans h)]
      exact L.stand h ({ · with running := false, owner := .gone })
  · rw [if_neg hr, if_neg fun h => hr (hrunning.trans h)]
    exact L.stand h ({ · with owner := .gone })

end Likeness

namespace Station

variable {σ : Type} {L : Likeness σ}

/-- The stations are the same but for what the likeness allows. -/
inductive Alike (L : Likeness σ) (s : Station σ) : Station σ → Prop
  | intro {ws : List (Worker σ)} {ts : List Target} {l : Log}
    (hw : List.Forall₂ L.worker s.workers ws) (ht : L.targets s.targets ts)
    (hl : L.log s.log l) : Alike L s { s with workers := ws, targets := ts, log := l }

/-- Both stations give the same answer and are left alike. -/
structure Agree {α : Type} (L : Likeness σ) (x y : α × Station σ) : Prop where
  answer : x.1 = y.1
  alike : x.2.Alike L y.2

/-- Where both stations go on after an answer, they go on from the same one. -/
@[elab_as_elim]
theorem Agree.elim {α : Type} {motive : α × Station σ → α × Station σ → Prop}
    {x y : α × Station σ} (h : Agree L x y)
    (pair : ∀ a s t, s.Alike L t → motive (a, s) (a, t)) : motive x y := by
  obtain ⟨a, s⟩ := x
  obtain ⟨b, t⟩ := y
  obtain rfl : a = b := h.answer
  exact pair a s t h.alike

theorem Alike.agree {α : Type} {s t : Station σ} (h : s.Alike L t) (a : α) :
    Agree L (a, s) (a, t) := ⟨rfl, h⟩

theorem Alike.note {s t : Station σ} (h : s.Alike L t) (n : Note) :
    (s.note n).Alike L (t.note n) := by
  cases h with
  | intro hw ht hl => exact .intro (s := s.note n) hw ht (L.note hl n)

theorem Alike.notes {s t : Station σ} (h : s.Alike L t) (ns : List Note) :
    (s.notes ns).Alike L (t.notes ns) := by
  induction ns generalizing s t with
  | nil => exact h
  | cons n rest ih => exact ih (h.note n)

theorem Alike.setWorker {s t : Station σ} (h : s.Alike L t) (id : Nat) {w w' : Worker σ}
    (hw : L.worker w w') : (s.setWorker id w).Alike L (t.setWorker id w') := by
  cases h with
  | intro hws ht hl => exact .intro (s := s.setWorker id w) (forall₂_set hws id hw) ht hl

theorem Alike.worker?_cases {s t : Station σ} (h : s.Alike L t) (id : Nat) :
    (s.worker? id = none ∧ t.worker? id = none) ∨
      ∃ w w', s.worker? id = some w ∧ t.worker? id = some w' ∧ L.worker w w' := by
  cases h with
  | @intro ws ts l hw ht hl =>
    have hrel : Option.Rel L.worker (s.worker? id) (ws[id]?) := forall₂_getElem? hw id
    change (s.worker? id = none ∧ ws[id]? = none) ∨
      ∃ w w', s.worker? id = some w ∧ ws[id]? = some w' ∧ L.worker w w'
    generalize s.worker? id = x at hrel ⊢
    generalize ws[id]? = y at hrel ⊢
    cases hrel with
    | none => exact .inl ⟨rfl, rfl⟩
    | some h => exact .inr ⟨_, _, rfl, rfl, h⟩

/-! ## Events and phases -/

theorem Alike.publish {s t : Station σ} (h : s.Alike L t) (thread : String) (e : Event) :
    Agree L (s.publish thread e) (t.publish thread e) := by
  cases h with
  | intro hw ht hl =>
    exact ⟨rfl, .intro (s := s.announce thread e) hw ht (L.note hl _)⟩

theorem Alike.announceMove {s t : Station σ} (h : s.Alike L t) (thread : String)
    (source target : Phase) :
    (s.announceMove thread source target).Alike L (t.announceMove thread source target) :=
  (h.publish thread _).alike

theorem Alike.settleMove {s t : Station σ} (h : s.Alike L t) (thread : String)
    (attempt : Except Failure Lifecycle) (refused : List Note) :
    Agree L (s.settleMove thread attempt refused) (t.settleMove thread attempt refused) := by
  cases attempt with
  | error f => exact (h.notes refused).agree _
  | ok l =>
    cases h with
    | intro hw ht hl =>
      exact ⟨rfl, .intro (s := (s.settleMove thread (.ok l) refused).2) hw ht (L.note hl _)⟩

theorem Alike.lifecycle_eq {s t : Station σ} (h : s.Alike L t) : s.lifecycle = t.lifecycle := by
  cases h with
  | intro => rfl

theorem Alike.bound_eq {s t : Station σ} (h : s.Alike L t) : s.bound = t.bound := by
  cases h with
  | intro => rfl

theorem Alike.current_eq {s t : Station σ} (h : s.Alike L t) : s.current = t.current := by
  cases h with
  | intro => rfl

theorem Alike.transition {s t : Station σ} (h : s.Alike L t) (thread : String) (p : Phase) :
    Agree L (s.transition thread p) (t.transition thread p) := by
  rw [Station.transition, Station.transition, ← h.lifecycle_eq]
  exact h.settleMove thread _ _

theorem Alike.complete {s t : Station σ} (h : s.Alike L t) (thread : String) (r : Record) :
    Agree L (s.complete thread r) (t.complete thread r) := by
  rw [Station.complete, Station.complete, ← h.lifecycle_eq]
  exact h.settleMove thread _ _

theorem Alike.abort {s t : Station σ} (h : s.Alike L t) (thread : String) :
    Agree L (s.abort thread) (t.abort thread) := by
  rw [Station.abort, Station.abort, ← h.lifecycle_eq]
  exact h.settleMove thread _ _

theorem Alike.acknowledge {s t : Station σ} (h : s.Alike L t) (thread : String) :
    Agree L (s.acknowledge thread) (t.acknowledge thread) := by
  rw [Station.acknowledge, Station.acknowledge, ← h.lifecycle_eq]
  exact h.settleMove thread _ _

theorem Alike.beginRun {s t : Station σ} (h : s.Alike L t) : Agree L s.beginRun t.beginRun := by
  rw [Station.beginRun, Station.beginRun, ← h.lifecycle_eq]
  cases s.lifecycle.beginRun with
  | none => exact (h.note _).agree _
  | some l =>
    cases h with
    | intro hw ht hl =>
      refine ⟨rfl, ?_⟩
      exact .intro (s := { s with lifecycle := l }.note (moveNote caller .idle .preparing))
        hw ht (L.note hl _)

theorem Alike.operate {s t : Station σ} (h : s.Alike L t) (thread : String)
    (o : Lifecycle.Operation) : Agree L (s.operate thread o) (t.operate thread o) := by
  cases o with
  | beginRun => exact h.beginRun
  | transition p =>
    exact ⟨congrArg Except.isOk (h.transition thread p).answer, (h.transition thread p).alike⟩
  | complete r =>
    exact ⟨congrArg Except.isOk (h.complete thread r).answer, (h.complete thread r).alike⟩
  | abort => exact ⟨congrArg Except.isOk (h.abort thread).answer, (h.abort thread).alike⟩
  | acknowledge =>
    exact ⟨congrArg Except.isOk (h.acknowledge thread).answer, (h.acknowledge thread).alike⟩
  | clearLatest =>
    cases h with
    | intro hw ht hl => exact ⟨rfl, .intro (s := s.clearLatest) hw ht hl⟩

/-! ## Workers and their owners -/

theorem Alike.startWorker {s t : Station σ} (h : s.Alike L t) (id : Nat) :
    Agree L (s.startWorker id) (t.startWorker id) := by
  rcases h.worker?_cases id with ⟨hs, ht⟩ | ⟨w, w', hs, ht, hw⟩
  · simp only [Station.startWorker, hs, ht]
    exact h.agree _
  · simp only [Station.startWorker, hs, ht, Worker.start]
    by_cases hu : w.thread = .unstarted
    · rw [if_pos hu, if_pos (L.thread_eq hw ▸ hu)]
      have hstarted := L.stand hw ({ · with thread := .serving, running := true })
      exact ((h.setWorker id hstarted).note _).agree _
    · rw [if_neg hu, if_neg (L.thread_eq hw ▸ hu)]
      exact h.agree _

theorem Alike.stopWorker {s t : Station σ} (h : s.Alike L t) (id : Nat) :
    (s.stopWorker id).Alike L (t.stopWorker id) := by
  rcases h.worker?_cases id with ⟨hs, ht⟩ | ⟨w, w', hs, ht, hw⟩
  · simp only [Station.stopWorker, hs, ht]
    exact h
  · simp only [Station.stopWorker, hs, ht, ← (L.stop hw).2]
    exact (h.setWorker id (L.stop hw).1).notes _

theorem Alike.dropWorker {s t : Station σ} (h : s.Alike L t) (id : Nat) :
    (s.dropWorker id).Alike L (t.dropWorker id) := by
  rcases h.worker?_cases id with ⟨hs, ht⟩ | ⟨w, w', hs, ht, hw⟩
  · simp only [Station.dropWorker, hs, ht]
    exact h
  · simp only [Station.dropWorker, hs, ht]
    exact h.setWorker id (L.drop hw)

theorem Alike.hold {s t : Station σ} (h : s.Alike L t) (id : Nat) :
    Agree L (s.hold id) (t.hold id) := by
  rcases h.worker?_cases id with ⟨hs, ht⟩ | ⟨w, w', hs, ht, hw⟩
  · simp only [Station.hold, hs, ht]
    exact h.agree _
  · simp only [Station.hold, hs, ht, ← L.isOpen_eq hw, ← L.held_eq hw]
    by_cases ho : w.isOpen
    · rw [if_pos ho, if_pos ho]
      exact (h.setWorker id (L.stand hw ({ · with held := true }))).agree _
    · rw [if_neg ho, if_neg ho]
      exact h.agree _

theorem Alike.resume {s t : Station σ} (h : s.Alike L t) (id : Nat) :
    (s.resume id).Alike L (t.resume id) := by
  cases h with
  | intro hw ht hl =>
    refine .intro (s := s.resume id) (forall₂_modify hw id fun w w' hww => ?_) ht hl
    exact L.stand hww ({ · with held := false })

theorem Alike.addWorker {s t : Station σ} (h : s.Alike L t) {w w' : Worker σ}
    (hw : L.worker w w') : Agree L (s.addWorker w) (t.addWorker w') := by
  cases h with
  | intro hws ht hl =>
    refine ⟨hws.length_eq, .intro (s := (s.addWorker w).2) ?_ ht hl⟩
    exact List.rel_append hws (.cons hw .nil)

theorem Alike.send {s t : Station σ} (h : s.Alike L t) (thread : String) (id : Nat)
    {m m' : Message} (hm : L.message m m') :
    Agree L (s.send thread id m) (t.send thread id m') := by
  rcases h.worker?_cases id with ⟨hs, ht⟩ | ⟨w, w', hs, ht, hw⟩
  · simp only [Station.send, hs, ht]
    exact h.agree _
  · have ho' := L.isOpen_eq hw
    cases ho : w.isOpen with
    | true =>
      simp only [Station.send, hs, ht, Worker.enqueue, ho, ← ho', if_true, Worker.enqueueNote,
        L.kind_eq hm]
      exact ((h.setWorker id (L.post hw hm)).note _).agree _
    | false =>
      simp only [Station.send, hs, ht, Worker.enqueue, ho, ← ho', Bool.false_eq_true, if_false,
        Worker.enqueueNote, L.kind_eq hm]
      exact (h.note _).agree _

/-! ## Runs -/

theorem Alike.giveUp {s t : Station σ} (h : s.Alike L t) (thread : String) :
    Agree L (s.giveUp thread) (t.giveUp thread) := by
  have hend : Station.Alike L { s with current := none } { t with current := none } := by
    cases h with
    | intro hw ht hl => exact .intro (s := { s with current := none }) hw ht hl
  simp only [Station.giveUp]
  refine (hend.abort thread).elim fun a s' t' hk => ?_
  cases a with
  | ok source => exact (hk.announceMove thread source .idle).agree _
  | error f => exact hk.agree _

theorem Alike.sendRun {s t : Station σ} (h : s.Alike L t) (id : Nat) (run : RunId) :
    Agree L (s.sendRun id run) (t.sendRun id run) := by
  simp only [Station.sendRun]
  refine (h.send caller id (L.message_refl (.login none))).elim fun a s' t' hk => ?_
  cases a with
  | ok u => exact hk.send caller id (L.message_refl _)
  | error f => exact hk.agree _

theorem Alike.begun_eq {s t : Station σ} (h : s.Alike L t) : s.begun = t.begun := by
  cases h with
  | intro => rfl

theorem Alike.startTest {s t : Station σ} (h : s.Alike L t) :
    Agree L s.startTest t.startTest := by
  simp only [Station.startTest, ← h.bound_eq]
  cases s.bound with
  | none => exact h.agree _
  | some id =>
    dsimp only
    refine h.beginRun.elim fun a s' t' hk => ?_
    cases a with
    | false =>
      dsimp only
      rw [← hk.lifecycle_eq]
      exact (hk.note _).agree _
    | true =>
      dsimp only
      rw [← hk.begun_eq]
      have hbegun : Station.Alike L
          { s' with current := some ⟨s'.begun⟩, begun := s'.begun + 1 }
          { t' with current := some ⟨s'.begun⟩, begun := s'.begun + 1 } := by
        cases hk with
        | intro hw ht hl =>
          exact .intro (s := { s' with current := some ⟨s'.begun⟩, begun := s'.begun + 1 }) hw ht hl
      have hannounced := (hbegun.note (.main .info ("Run " ++ RunId.text ⟨s'.begun⟩ ++
        " started"))).announceMove caller .idle .preparing
      refine (hannounced.sendRun id ⟨s'.begun⟩).elim fun a s'' t'' hk => ?_
      cases a with
      | ok u => exact hk.agree _
      | error f => exact ((hk.note _).giveUp caller).alike.agree _

theorem Alike.acknowledgeResults {s t : Station σ} (h : s.Alike L t) :
    Agree L s.acknowledgeResults t.acknowledgeResults := by
  simp only [Station.acknowledgeResults]
  refine (h.acknowledge caller).elim fun a s' t' hk => ?_
  cases a with
  | ok source => exact (hk.announceMove caller _ _).agree _
  | error f => exact (hk.note _).agree _

/-! ## Replies to runs -/

theorem Alike.submit {s t : Station σ} (h : s.Alike L t) (run : RunId) (r : Record) :
    (s.submit run r).Alike L (t.submit run r) := by
  simp only [Station.submit, ← h.bound_eq]
  cases s.bound with
  | none => exact h
  | some id =>
    dsimp only
    refine (h.send Worker.threadName id (L.message_refl (.report r (some (.run run))))).elim
      fun a s' t' hk => ?_
    cases a with
    | ok u => exact hk
    | error f => exact hk.note _

theorem Alike.enterTesting {s t : Station σ} (h : s.Alike L t) (run : RunId) :
    (s.enterTesting run).Alike L (t.enterTesting run) := by
  simp only [Station.enterTesting]
  refine (h.transition Worker.threadName .testing).elim fun a s' t' hk => ?_
  cases a with
  | ok source => exact hk.announceMove _ _ _
  | error f => exact hk.note _

theorem Alike.concludeRun {s t : Station σ} (h : s.Alike L t) (run : RunId) (r : Record) :
    (s.concludeRun run r).Alike L (t.concludeRun run r) := by
  simp only [Station.concludeRun]
  by_cases hr : r.isValid = true
  · rw [if_pos hr, if_pos hr]
    refine (h.complete Worker.threadName r).elim fun a s' t' hk => ?_
    cases a with
    | ok source =>
      exact (((hk.note _).announceMove _ _ _).publish _ _).alike.submit run r
    | error f => exact hk.note _
  · rw [if_neg hr, if_neg hr]
    have hnoted := h.note (runNote .warn run (" failed: " ++ r.reason))
    refine (hnoted.giveUp Worker.threadName).elim fun a s' t' hk => ?_
    cases a with
    | ok source => exact (hk.publish _ _).alike
    | error f => exact ((hk.note _).publish _ _).alike

theorem Alike.onReply {s t : Station σ} (h : s.Alike L t) (run : RunId) (reply : Reply) :
    (s.onReply run reply).Alike L (t.onReply run reply) := by
  cases reply with
  | started =>
    simp only [Station.onReply, ← h.current_eq]
    split
    · exact h.enterTesting run
    · exact h.note _
  | finished r =>
    simp only [Station.onReply, ← h.current_eq]
    split
    · exact h.concludeRun run r
    · exact h.note _
  | reported receipt => exact ((h.note _).publish _ _).alike
  | reportFailed reason => exact h.note _

/-! ## Effects -/

/-- The hand-over of a reply to a target concerns the targets and the log alone. -/
theorem deposit_frame (id : Nat) (reply : Reply) (s : Station σ) :
    s.deposit id reply = { s with
      targets := (s.deposit id reply).targets
      log := (s.deposit id reply).log } := by
  unfold deposit
  split <;> rfl

theorem Alike.deposit {s t : Station σ} (h : s.Alike L t) (id : Nat) (reply : Reply) :
    (s.deposit id reply).Alike L (t.deposit id reply) := by
  cases h with
  | @intro ws ts l hw ht hl =>
    obtain ⟨ht', hl'⟩ :=
      L.deposit (t := { s with workers := ws, targets := ts, log := l }) ht hl id reply
    rw [deposit_frame, deposit_frame id reply { s with workers := ws, targets := ts, log := l }]
    exact .intro (s := { s with
      targets := (s.deposit id reply).targets, log := (s.deposit id reply).log }) hw ht' hl'

theorem Alike.perform {s t : Station σ} (h : s.Alike L t) (e : Effect) :
    (s.perform e).Alike L (t.perform e) := by
  cases e with
  | note n => exact h.note n
  | reply recipient reply =>
    cases recipient with
    | target id kind => exact h.deposit id reply
    | run run => exact h.onReply run reply

/-! ## The bus and the rest -/

theorem Alike.subscribe {s t : Station σ} (h : s.Alike L t) (kinds : List EventKind) :
    Agree L (s.subscribe kinds) (t.subscribe kinds) := by
  cases h with
  | intro hw ht hl =>
    exact ⟨rfl, .intro (s := (s.subscribe kinds).2) hw ht (L.note hl _)⟩

theorem Alike.unsubscribe {s t : Station σ} (h : s.Alike L t) (id : Nat) :
    (s.unsubscribe id).Alike L (t.unsubscribe id) := by
  cases h with
  | intro hw ht hl => exact .intro (s := s.unsubscribe id) hw ht (L.note hl _)

theorem Alike.letGo {s t : Station σ} (h : s.Alike L t) (id : Nat) :
    (s.letGo id).Alike L (t.letGo id) := by
  cases h with
  | intro hw ht hl => exact .intro (s := s.letGo id) hw ht hl

theorem Alike.receive {s t : Station σ} (h : s.Alike L t) (id : Nat) :
    Agree L (s.receive id) (t.receive id) := by
  cases h with
  | intro hw ht hl => exact ⟨rfl, .intro (s := (s.receive id).2) hw ht hl⟩

theorem Alike.drain {s t : Station σ} (h : s.Alike L t) (id : Nat) :
    Agree L (s.drain id) (t.drain id) := by
  cases h with
  | intro hw ht hl => exact ⟨rfl, .intro (s := (s.drain id).2) hw ht hl⟩

theorem Alike.bind {s t : Station σ} (h : s.Alike L t) (id : Nat) :
    (s.bind id).Alike L (t.bind id) := by
  cases h with
  | intro hw ht hl => exact .intro (s := s.bind id) hw ht (L.note hl _)

theorem Alike.clearLatest {s t : Station σ} (h : s.Alike L t) :
    s.clearLatest.Alike L t.clearLatest := by
  cases h with
  | intro hw ht hl => exact .intro (s := s.clearLatest) hw ht hl

theorem Alike.setLevel {s t : Station σ} (h : s.Alike L t) (level : LogLevel) :
    (s.setLevel level).Alike L (t.setLevel level) := by
  cases h with
  | intro hw ht hl => exact .intro (s := s.setLevel level) hw ht (L.setLevel hl level)

theorem Alike.addTarget {s t : Station σ} (h : s.Alike L t) (kind : TargetKind) :
    Agree L (s.addTarget kind) (t.addTarget kind) := by
  cases h with
  | intro hw ht hl =>
    obtain ⟨hlength, hadd⟩ := L.addTarget ht
    exact ⟨hlength, .intro (s := (s.addTarget kind).2) hw (hadd _) hl⟩

theorem Alike.dropTarget {s t : Station σ} (h : s.Alike L t) (id : Nat) :
    (s.dropTarget id).Alike L (t.dropTarget id) := by
  cases h with
  | @intro ws ts l hw ht hl =>
    have hdropped := L.dropTarget (t := { s with workers := ws, targets := ts, log := l }) ht id
    exact .intro (s := s.dropTarget id) hw hdropped hl

end Station

namespace Scene

variable {σ : Type} {L : Likeness σ}

/-- Two scenes with stations that are alike, of which the same effects are still to be carried out
and the same events were received. -/
structure Alike (L : Likeness σ) (c d : Scene σ) : Prop where
  station : c.station.Alike L d.station
  pending : c.pending = d.pending
  received : c.received = d.received

theorem Alike.onto {c d : Scene σ} (h : c.Alike L d) {s t : Station σ} (hst : s.Alike L t) :
    Alike L { c with station := s } { d with station := t } := ⟨hst, h.pending, h.received⟩

theorem Alike.carry {c d : Scene σ} (h : c.Alike L d) (id : Nat) :
    (c.carry id).Alike L (d.carry id) := by
  cases hp : c.pending id with
  | nil =>
    simp only [Scene.carry, hp, ← h.pending]
    exact h
  | cons e rest =>
    simp only [Scene.carry, hp, ← h.pending]
    exact ⟨h.station.perform e, rfl, h.received⟩

/-- Actions that differ at most in the worker that comes in, or in the message that is sent. -/
inductive Deed.Alike (L : Likeness σ) : Deed σ → Deed σ → Prop
  | same (a : Deed σ) : Deed.Alike L a a
  | hire {server server' : σ} {own own' : Credentials} {limit : Span}
    (h : L.worker (.new server own limit) (.new server' own' limit)) :
    Deed.Alike L (.move (.addWorker server own limit))
      (.move (.addWorker server' own' limit))
  | login (id : Nat) {c c' : Option Credentials} (h : L.message (.login c) (.login c')) :
    Deed.Alike L (.move (.login id c)) (.move (.login id c'))

/-- What someone does, with the answer, is the same for both. -/
structure Agree (L : Likeness σ) (c d : Scene σ) (a b : Deed σ) [Server σ] : Prop where
  answer : c.answer a = d.answer b
  alike : (c.act a).Alike L (d.act b)

variable [Server σ]

/-- The worker's step at hand leaves both alike and has the same effects. -/
def StepAlike (L : Likeness σ) (id : Nat) (c d : Scene σ) : Prop :=
  ∀ w w' stamps, c.station.worker? id = some w → d.station.worker? id = some w' →
    c.pending id = [] → w.held = false → L.worker w w' →
      L.worker (w.step stamps).1 (w'.step stamps).1 ∧ (w.step stamps).2 = (w'.step stamps).2

theorem Alike.take {c d : Scene σ} (h : c.Alike L d) {id : Nat} (hstep : StepAlike L id c d) :
    (c.take id).Alike L (d.take id) := by
  rcases h.station.worker?_cases id with ⟨hs, ht⟩ | ⟨w, w', hs, ht, hw⟩
  · simp only [Scene.take, hs, ht]
    exact h
  · have hheld := L.held_eq hw
    by_cases hf : c.pending id = [] ∧ w.held = false
    · obtain ⟨c₀, p, r⟩ := c
      obtain ⟨d₀, p', r'⟩ := d
      obtain ⟨hstation, rfl, rfl⟩ := h
      have hp : p id = [] := hf.1
      cases hstation with
      | intro hws hts hl =>
        simp only [Scene.take, hs, ht, hp, ← hheld, hf.2, List.isEmpty_nil, Bool.not_false,
          Bool.and_self, if_true, ← L.length_eq hw]
        obtain ⟨hnext, heffects⟩ := hstep w w' (fun n => c₀.stamps (c₀.stamped + n)) hs ht hf.1
          hf.2 hw
        refine ⟨?_, congrArg (Function.update p id) heffects, rfl⟩
        exact .intro (s := { c₀ with
            stamped := c₀.stamped + 1 + w.queue.length
            workers := c₀.workers.set id (w.step fun n => c₀.stamps (c₀.stamped + n)).1 })
          (forall₂_set hws id hnext) hts hl
    · have hfree : ¬((c.pending id).isEmpty && !w.held) = true := by simpa using hf
      simp only [Scene.take, hs, ht, ← h.pending, ← hheld, if_neg hfree]
      exact h

theorem Alike.move {c d : Scene σ} (h : c.Alike L d) (m : Move σ)
    (hstep : ∀ id, m = .take id → StepAlike L id c d) :
    Agree L c d (.move m) (.move m) := by
  cases m with
  | addWorker server own limit =>
    have hk := h.station.addWorker (L.worker_refl (.new server own limit))
    exact ⟨congrArg Answer.number hk.answer, h.onto hk.alike⟩
  | startWorker id =>
    have hk := h.station.startWorker id
    exact ⟨congrArg Answer.done hk.answer, h.onto hk.alike⟩
  | stopWorker id => exact ⟨rfl, h.onto (h.station.stopWorker id)⟩
  | dropWorker id => exact ⟨rfl, h.onto (h.station.dropWorker id)⟩
  | hold id =>
    have hk := h.station.hold id
    exact ⟨congrArg Answer.decided hk.answer, h.onto hk.alike⟩
  | resume id => exact ⟨rfl, h.onto (h.station.resume id)⟩
  | login id credentials =>
    have hk := h.station.send Station.caller id (L.message_refl (.login credentials))
    exact ⟨congrArg Answer.done hk.answer, h.onto hk.alike⟩
  | requestTest id target kind =>
    have hk := h.station.send Station.caller id
      (L.message_refl (.requestTest (.target target kind)))
    exact ⟨congrArg Answer.done hk.answer, h.onto hk.alike⟩
  | report id r t =>
    have hk := h.station.send Station.caller id
      (L.message_refl (.report r (t.map fun p => .target p.1 p.2)))
    exact ⟨congrArg Answer.done hk.answer, h.onto hk.alike⟩
  | addTarget kind =>
    have hk := h.station.addTarget kind
    exact ⟨congrArg Answer.number hk.answer, h.onto hk.alike⟩
  | dropTarget id => exact ⟨rfl, h.onto (h.station.dropTarget id)⟩
  | bind id => exact ⟨rfl, h.onto (h.station.bind id)⟩
  | startTest =>
    have hk := h.station.startTest
    exact ⟨congrArg Answer.decided hk.answer, h.onto hk.alike⟩
  | acknowledge =>
    have hk := h.station.acknowledgeResults
    exact ⟨congrArg (Answer.decided <| .ok ·) hk.answer, h.onto hk.alike⟩
  | clearLatest => exact ⟨rfl, h.onto h.station.clearLatest⟩
  | setLevel level => exact ⟨rfl, h.onto (h.station.setLevel level)⟩
  | subscribe kinds =>
    have hk := h.station.subscribe kinds
    exact ⟨congrArg Answer.number hk.answer, h.onto hk.alike⟩
  | unsubscribe id => exact ⟨rfl, h.onto (h.station.unsubscribe id)⟩
  | letGo id => exact ⟨rfl, h.onto (h.station.letGo id)⟩
  | receive id =>
    have hk := h.station.receive id
    refine ⟨congrArg (Answer.events <| Option.toList ·) hk.answer, hk.alike, h.pending, ?_⟩
    simp only [Scene.act, Scene.act, Scene.apply, h.received, hk.answer]
  | drain id =>
    have hk := h.station.drain id
    refine ⟨congrArg Answer.events hk.answer, hk.alike, h.pending, ?_⟩
    simp only [Scene.act, Scene.act, Scene.apply, h.received, hk.answer]
  | take id => exact ⟨rfl, h.take (hstep id rfl)⟩
  | carry id => exact ⟨rfl, h.carry id⟩

theorem Alike.operate {c d : Scene σ} (h : c.Alike L d) (thread : String)
    (o : Lifecycle.Operation) :
    Agree L c d (.operate thread o) (.operate thread o) := by
  refine ⟨?_, h.onto (h.station.operate thread o).alike⟩
  cases o with
  | beginRun => exact congrArg (Answer.decided <| .ok ·) h.station.beginRun.answer
  | transition p => exact congrArg Answer.left (h.station.transition thread p).answer
  | complete r =>
    exact congrArg (Answer.done <| ·.map fun _ => ()) (h.station.complete thread r).answer
  | abort => exact congrArg Answer.left (h.station.abort thread).answer
  | acknowledge =>
    exact congrArg (Answer.done <| ·.map fun _ => ()) (h.station.acknowledge thread).answer
  | clearLatest => rfl

/-- All that can be done to two scenes that are alike comes to the same, provided that the steps of
their workers do. -/
theorem Alike.act {c d : Scene σ} (h : c.Alike L d) {a b : Deed σ} (hab : a.Alike L b)
    (hstep : ∀ id, a = .move (.take id) → StepAlike L id c d) : Agree L c d a b := by
  cases hab with
  | hire hw =>
    have hk := h.station.addWorker hw
    exact ⟨congrArg Answer.number hk.answer, h.onto hk.alike⟩
  | login id hm =>
    have hk := h.station.send Station.caller id hm
    exact ⟨congrArg Answer.done hk.answer, h.onto hk.alike⟩
  | same =>
    cases a with
    | move m => exact h.move m fun id hm => hstep id (by rw [hm])
    | operate thread o => exact h.operate thread o
    | publish thread e =>
      have hk := h.station.publish thread e
      exact ⟨congrArg Answer.number hk.answer, h.onto hk.alike⟩

end Scene
end LinkTest
