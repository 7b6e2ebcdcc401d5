import LinkTest.Proofs.Command.Course
import LinkTest.Proofs.Command.Trial

/-!
# The report of a test

Whichever of the two threads has the next turn, what the caller has shown in the end is the report
of the one run: all its changes of phase up to the outcome, and then either the record, with the
upload if it was confirmed in time, or the reason why there is none.
-/

namespace LinkTest.Command

open Bench (isOutcome)

namespace Stage

def rank : Stage → Nat
  | awaiting => 6
  | lingering => 5
  | acknowledging => 4
  | unsubscribing => 3
  | stopping => 2
  | joining => 1
  | finished => 0

/-- Whether the caller holds the subscription. -/
def isHolding (s : Stage) : Bool := 3 ≤ s.rank

/-- Whether the caller has told the worker to end. -/
def hasTold (s : Stage) : Bool := s.rank ≤ 1

end Stage

variable {σ : Type} [Server σ]

namespace Brief

/-- The line about the upload, if the caller hears of it in time. -/
def uploadLine (b : Brief σ) (k : Terms σ) (since : Span) : String :=
  match b.receipt? with
  | some receipt =>
    if (k.clock b.afterReport).nanos ≤ since.nanos + k.config.exchangeTimeout.nanos then
      (Event.reportRouter receipt).describe ++ "\n"
    else ""
  | none => ""

/-- What is shown in the end. -/
def report (b : Brief σ) (k : Terms σ) (greeting : String) (since : Span) : Output :=
  match b.verdict with
  | .ok r => ⟨shown k.json r, greeting ++ telling b.preface ++ b.uploadLine k since⟩
  | .error reason => ⟨"", greeting ++ telling b.preface ++ renderFailure reason⟩

/-! ## The events of a run -/

variable {b : Brief σ} {p : Place}

theorem isOutcome_of_mem_opening {e : Event} (h : e ∈ b.opening) : isOutcome e = false := by
  unfold opening at h
  split at h <;> simp only [List.mem_cons, List.not_mem_nil, or_false] at h
  · rcases h with rfl | rfl <;> rfl
  · subst h
    rfl

theorem isOutcome_of_mem_preface {e : Event} (h : e ∈ b.preface) : isOutcome e = false := by
  rcases List.mem_append.1 h with h | h
  · exact isOutcome_of_mem_opening h
  · rw [List.mem_singleton.1 h, closing]
    split <;> rfl

theorem isOutcome_outcome (b : Brief σ) : isOutcome b.outcome = true := by
  unfold outcome
  split <;> rfl

theorem isOutcome_of_undecided {e : Event} (hp : p.isDecided = false) (h : e ∈ b.eventsAt p) :
    isOutcome e = false := by
  cases p with
  | examined => exact isOutcome_of_mem_opening h
  | asked => rw [List.mem_singleton.1 h]; rfl
  | admitted => rw [List.mem_singleton.1 h]; rfl
  | begun => rw [List.mem_singleton.1 h]; rfl
  | _ => cases hp

theorem exists_eventsAt_of_decided (b : Brief σ) (hp : p.isDecided = true) :
    ∃ later, b.eventsAt p = b.preface ++ b.outcome :: later := by
  cases p <;> first | exact ⟨_, rfl⟩ | cases hp

end Brief

/-- The first outcome among some events, what comes before it and what comes after it. -/
theorem eq_of_first_outcome {before before' after after' : List Event} {e e' : Event}
    (hb : ∀ x ∈ before, isOutcome x = false) (hb' : ∀ x ∈ before', isOutcome x = false)
    (he : isOutcome e = true) (he' : isOutcome e' = true)
    (h : before ++ e :: after = before' ++ e' :: after') :
    before = before' ∧ e = e' ∧ after = after' := by
  induction before generalizing before' with
  | nil =>
    cases before' with
    | nil => exact ⟨rfl, List.cons.inj h⟩
    | cons x rest =>
      rw [(List.cons.inj h).1, hb' x List.mem_cons_self] at he
      cases he
  | cons x rest ih =>
    cases before' with
    | nil =>
      rw [← (List.cons.inj h).1, hb x List.mem_cons_self] at he'
      cases he'
    | cons x' rest' =>
      obtain ⟨rfl, ht⟩ := List.cons.inj h
      obtain ⟨rfl, hea⟩ := ih (fun y hy => hb y (List.mem_cons_of_mem _ hy))
        (fun y hy => hb' y (List.mem_cons_of_mem _ hy)) ht
      exact ⟨rfl, hea⟩

namespace Trial

/-! ## The worker's side of a trial -/

/-- The worker of a trial stands at a place, and the bus serves nobody but the caller. -/
structure Holds (b : Brief σ) (p : Place) (acknowledged told held : Bool) (t : Trial σ) :
    Prop where
  stands : b.Stands p acknowledged told t.scene.station (t.scene.pending 0)
  bus : t.scene.station.bus = .sole t.waiting held

variable {b : Brief σ} {k : Terms σ} {p : Place} {acknowledged told held : Bool} {t t' : Trial σ}

theorem Holds.worker (h : Holds b p acknowledged told held t) :
    t.scene.station.worker? 0 = some (b.workerAt p told) := by
  rw [Station.worker?, h.stands.workers]
  rfl

theorem Holds.now (h : Holds b p acknowledged told held t) (k : Terms σ) :
    t.now k = k.clock (b.serverAt p) := by
  rw [Trial.now, h.worker]
  rfl

/-- The worker rests in the end only, or once it is done with the run and not told to end. -/
theorem Holds.isBusy (h : Holds b p acknowledged told held t) (hp : p ≠ .ended)
    (hd : p = .done → told = true) : t.isBusy = true := by
  rw [Trial.isBusy, h.worker, Option.any_some, Bool.or_eq_true, Bool.not_eq_true',
    List.isEmpty_eq_false_iff]
  have hne : ¬b.Owes p [] → t.scene.pending 0 ≠ [] := fun ho he => by
    have hs := h.stands.owes
    rw [he] at hs
    exact ho hs
  cases p with
  | asked => exact .inr rfl
  | admitted => exact .inr rfl
  | begun => exact .inl (hne fun ⟨_, hr, _⟩ => List.cons_ne_nil _ _ hr.symm)
  | examined => exact .inl (hne fun ⟨_, hr, _⟩ => List.cons_ne_nil _ _ hr.symm)
  | completed =>
    obtain ⟨r, hv⟩ := h.stands.admits
    exact .inr (by simp [Station.isReady, Brief.workerAt, Brief.queueAt, hv, Except.toOption,
      Worker.isOpen])
  | uploaded =>
    refine .inl (hne fun ho => ?_)
    cases hr : b.receipt? with
    | some receipt => simp [Brief.Owes, hr] at ho
    | none => simp [Brief.Owes, hr] at ho
  | done =>
    obtain rfl := hd rfl
    exact .inr rfl
  | ended => exact absurd rfl hp

/-- What a turn of the thread does. -/
structure Worked (b : Brief σ) (k : Terms σ) (p p' : Place) (acknowledged told held : Bool)
    (t t' : Trial σ) (news : List Event) : Prop where
  holds : Holds b p' acknowledged told held t'
  caller : t' = { t with scene := t'.scene }
  received : t'.scene.received = t.scene.received
  waiting : t'.waiting = t.waiting ++ if held then news else []
  events : b.eventsAt p' = b.eventsAt p ++ news
  lighter : news.length + 3 * p'.rank < 3 * p.rank ∨ news.length + 3 * p'.rank ≤ 3 * p.rank ∧
    (t'.scene.pending 0).length < (t.scene.pending 0).length
  /-- If time passes, the caller misses no event by it. -/
  timely : b.serverAt p' = b.serverAt p ∨
    p'.isDecided = p.isDecided ∧ (t.waiting = [] ∨ t'.isPatient k = true)

/-- What is published comes to the caller as long as it holds the subscription. -/
theorem holds_of_bus {s : Scene σ} {p' : Place} (news : List Event)
    (h : t.scene.station.bus = .sole t.waiting held)
    (hs : b.Stands p' acknowledged told s.station (s.pending 0))
    (hb : s.station.bus = t.scene.station.bus.publishAll news) :
    Holds b p' acknowledged told held { t with scene := s } ∧
      waiting { t with scene := s } = t.waiting ++ if held then news else [] := by
  have hb' : s.station.bus = .sole (t.waiting ++ if held then news else []) held := by
    rw [hb, h]
    cases held with
    | true => exact Bus.publishAll_sole_held _ _
    | false =>
      rw [Bus.publishAll_sole_released, if_neg Bool.false_ne_true, List.append_nil]
  have hw : waiting { t with scene := s } = t.waiting ++ if held then news else [] := by
    rw [waiting, hb', Bus.pendingOf_sole]
  exact ⟨⟨hs, by rw [hw]; exact hb'⟩, hw⟩

theorem Holds.exists_worked (hs : Server.Steadfast σ) (h : Holds b p acknowledged told held t)
    (ht : t.threadTurn k = some t') :
    ∃ p' news, Worked b k p p' acknowledged told held t t' news := by
  unfold threadTurn at ht
  cases hp : t.scene.pending 0 with
  | nil =>
    rw [hp, List.isEmpty_nil, if_pos rfl] at ht
    split at ht
    · next hc =>
      obtain rfl := Option.some.inj ht
      simp only [Bool.and_eq_true, Bool.or_eq_true, List.isEmpty_iff] at hc
      have hr : Station.isReady (b.workerAt p told) = true := by
        have hb := hc.1
        rw [Trial.isBusy, h.worker, hp] at hb
        exact hb
      obtain ⟨p', hlt, hd, he, hst, hbus, hrec⟩ := h.stands.exists_taken hs hp hr
      obtain ⟨hh, hw⟩ := holds_of_bus [] h.bus hst hbus
      exact ⟨p', [], hh, rfl, hrec, hw, he.trans (List.append_nil _).symm,
        .inl (by simp only [List.length_nil]; omega), .inr ⟨hd, hc.2⟩⟩
    · cases ht
  | cons e rest =>
    rw [hp, List.isEmpty_cons, if_neg Bool.false_ne_true] at ht
    obtain rfl := Option.some.inj ht
    have hst := h.stands
    rw [hp] at hst
    obtain ⟨p', news, hc⟩ := hst.exists_carried
    have hcarry := Scene.carry_of_cons hp
    have hpend : (t.scene.apply (.carry 0)).pending 0 = rest := by
      rw [hcarry]
      exact Function.update_self 0 rest t.scene.pending
    obtain ⟨hh, hw⟩ := holds_of_bus (s := t.scene.apply (.carry 0)) news h.bus
      (by rw [hpend, hcarry]; exact hc.stands) (by rw [hcarry]; exact hc.bus)
    refine ⟨p', news, hh, rfl, by rw [move, hcarry], hw, hc.events, .inr ⟨hc.weight, ?_⟩,
      .inl hc.server⟩
    rw [move, hpend, hp]
    exact Nat.lt_succ_self rest.length

/-! ## The caller's side of a trial -/

/-- All is shown that will be shown. -/
structure Tells (b : Brief σ) (k : Terms σ) (greeting : String) (t : Trial σ) : Prop where
  success : t.success = true ↔ ∃ r, b.verdict = .ok r
  output : t.output = b.report k greeting t.since
  /-- The record was shown as soon as it was there, or as soon as it was uploaded. -/
  since : ∀ r, b.verdict = .ok r →
    t.since = k.clock b.afterTest ∨ t.since = k.clock b.afterReport

/-- The caller waits for the outcome: what it has heard it has shown. -/
structure Awaiting (b : Brief σ) (k : Terms σ) (greeting : String) (p : Place) (t : Trial σ) :
    Prop where
  stage : t.stage = .awaiting
  holds : Holds b p false false true t
  heard : t.scene.received 0 ++ t.waiting = b.eventsAt p
  before : ∀ e ∈ t.scene.received 0, isOutcome e = false
  success : t.success = false
  output : t.output = ⟨"", greeting ++ telling (t.scene.received 0)⟩
  time : (k.clock (b.serverAt p)).nanos < k.deadline.nanos

/-- The caller has shown the record and waits for the upload. -/
structure Lingering (b : Brief σ) (k : Terms σ) (greeting : String) (r : Record) (p : Place)
    (t : Trial σ) : Prop where
  stage : t.stage = .lingering
  holds : Holds b p false false true t
  verdict : b.verdict = .ok r
  decided : p.isDecided = true
  heard : b.preface ++ b.outcome :: t.waiting = b.eventsAt p
  success : t.success = true
  output : t.output = ⟨shown k.json r, greeting ++ telling b.preface⟩
  since : t.since = k.clock b.afterTest ∨ t.since = k.clock b.afterReport
  fresh : p = .completed → t.since = k.clock b.afterTest

/-- The caller has shown all, and the results are not acknowledged yet. -/
structure Acknowledging (b : Brief σ) (k : Terms σ) (greeting : String) (r : Record) (p : Place)
    (t : Trial σ) : Prop where
  stage : t.stage = .acknowledging
  holds : Holds b p false false true t
  verdict : b.verdict = .ok r
  late : p.isLate = true
  tells : Tells b k greeting t

/-- The caller takes everything down. -/
structure Closing (b : Brief σ) (k : Terms σ) (greeting : String) (acknowledged : Bool) (p : Place)
    (t : Trial σ) : Prop where
  stage : t.stage.rank ≤ 3
  holds : Holds b p acknowledged t.stage.hasTold t.stage.isHolding t
  idle : acknowledged = true ∨ ∃ reason, b.verdict = .error reason
  late : p.isLate = true
  tells : Tells b k greeting t
  finished : t.stage = .finished → t.isBusy = false

/-- What is known of a trial by the stage of the caller and the place of the worker. -/
inductive Follows (b : Brief σ) (k : Terms σ) (greeting : String) (p : Place) (t : Trial σ) : Prop
  | awaiting (h : Awaiting b k greeting p t)
  | lingering {r : Record} (h : Lingering b k greeting r p t)
  | acknowledging {r : Record} (h : Acknowledging b k greeting r p t)
  | closing {acknowledged : Bool} (h : Closing b k greeting acknowledged p t)

variable {greeting : String} {p' : Place} {news : List Event} {r : Record}

theorem Follows.of_awaiting (h : Follows b k greeting p t) (hs : t.stage = .awaiting) :
    Awaiting b k greeting p t := by
  cases h with
  | awaiting h => exact h
  | lingering h => rw [h.stage] at hs; cases hs
  | acknowledging h => rw [h.stage] at hs; cases hs
  | closing h =>
    have hr := h.stage
    rw [hs] at hr
    exact absurd hr (by decide)

theorem Follows.of_lingering (h : Follows b k greeting p t) (hs : t.stage = .lingering) :
    ∃ r, Lingering b k greeting r p t := by
  cases h with
  | awaiting h => rw [h.stage] at hs; cases hs
  | lingering h => exact ⟨_, h⟩
  | acknowledging h => rw [h.stage] at hs; cases hs
  | closing h =>
    have hr := h.stage
    rw [hs] at hr
    exact absurd hr (by decide)

theorem Follows.of_closing (h : Follows b k greeting p t) (hs : t.stage.rank ≤ 3) :
    ∃ acknowledged, Closing b k greeting acknowledged p t := by
  cases h with
  | awaiting h => rw [h.stage] at hs; exact absurd hs (by decide)
  | lingering h => rw [h.stage] at hs; exact absurd hs (by decide)
  | acknowledging h => rw [h.stage] at hs; exact absurd hs (by decide)
  | closing h => exact ⟨_, h⟩

/-! ## Turns of the thread -/

theorem Worked.rank_le (h : Worked b k p p' acknowledged told held t t' news) :
    p'.rank ≤ p.rank := by
  have := h.lighter
  omega

theorem Worked.rank_lt (h : Worked b k p p' acknowledged told held t t' news)
    (hp : t.scene.pending 0 = []) : p'.rank < p.rank := by
  rcases h.lighter with hl | ⟨-, hl⟩
  · omega
  · rw [hp] at hl
    cases hl

theorem Worked.stage (h : Worked b k p p' acknowledged told held t t' news) :
    t'.stage = t.stage := by
  rw [h.caller]

theorem Tells.worked (h : Tells b k greeting t)
    (hw : Worked b k p p' acknowledged told held t t' news) : Tells b k greeting t' := by
  rw [hw.caller]
  exact ⟨h.success, h.output, h.since⟩

/-- As long as the outcome is awaited and nothing waits to be received, it is not decided. -/
theorem Awaiting.undecided (h : Awaiting b k greeting p t) (hw : t.waiting = []) :
    p.isDecided = false := by
  cases hp : p.isDecided with
  | false => rfl
  | true =>
    obtain ⟨later, he⟩ := b.exists_eventsAt_of_decided hp
    have hheard := h.heard
    rw [hw, List.append_nil, he] at hheard
    have hb := h.before b.outcome (by rw [hheard]; simp)
    rw [b.isOutcome_outcome] at hb
    cases hb

/-- The clock does not reach the deadline before the outcome is decided. -/
def Timely (b : Brief σ) (k : Terms σ) : Prop :=
  ∀ p : Place, p.isDecided = false → (k.clock (b.serverAt p)).nanos < k.deadline.nanos

theorem Awaiting.worked (h : Awaiting b k greeting p t) (hd : Timely b k)
    (hw : Worked b k p p' false false true t t' news) : Awaiting b k greeting p' t' where
  stage := hw.stage.trans h.stage
  holds := hw.holds
  heard := by
    rw [hw.received, hw.waiting, hw.events, ← h.heard, if_pos rfl, List.append_assoc]
  before := by
    rw [hw.received]
    exact h.before
  success := (congrArg Trial.success hw.caller).trans h.success
  output := by
    rw [hw.received]
    exact (congrArg Trial.output hw.caller).trans h.output
  time := by
    rcases hw.timely with he | ⟨hdec, hwt | hpt⟩
    · rw [he]
      exact h.time
    · exact hd p' (hdec.trans (h.undecided hwt))
    · rw [isPatient, hw.stage.trans h.stage, hw.holds.now] at hpt
      exact of_decide_eq_true hpt

theorem Lingering.worked (h : Lingering b k greeting r p t)
    (hw : Worked b k p p' false false true t t' news) : Lingering b k greeting r p' t' where
  stage := hw.stage.trans h.stage
  holds := hw.holds
  verdict := h.verdict
  decided := Place.isDecided_of_rank_le hw.rank_le h.decided
  heard := by
    rw [hw.waiting, hw.events, ← h.heard, if_pos rfl, List.append_assoc, List.cons_append]
  success := (congrArg Trial.success hw.caller).trans h.success
  output := (congrArg Trial.output hw.caller).trans h.output
  since := by
    rw [congrArg Trial.since hw.caller]
    exact h.since
  fresh := by
    rintro rfl
    have hd := h.decided
    have hr := hw.rank_le
    rw [congrArg Trial.since hw.caller]
    refine h.fresh ?_
    cases p <;> simp [Place.isDecided, Place.rank] at hd hr ⊢

theorem Acknowledging.worked (h : Acknowledging b k greeting r p t)
    (hw : Worked b k p p' false false true t t' news) : Acknowledging b k greeting r p' t' :=
  ⟨hw.stage.trans h.stage, hw.holds, h.verdict, Place.isLate_of_rank_le hw.rank_le h.late,
    h.tells.worked hw⟩

theorem Closing.worked (h : Closing b k greeting acknowledged p t) (ho : t.stage ≠ .finished)
    (hw : Worked b k p p' acknowledged t.stage.hasTold t.stage.isHolding t t' news) :
    Closing b k greeting acknowledged p' t' where
  stage := by
    rw [hw.stage]
    exact h.stage
  holds := by
    rw [hw.stage]
    exact hw.holds
  idle := h.idle
  late := Place.isLate_of_rank_le hw.rank_le h.late
  tells := h.tells.worked hw
  finished he := absurd (hw.stage.symm.trans he) ho

/-! ## Turns of the caller -/

/-- The oldest event is received. -/
theorem Holds.receive {e : Event} {rest : List Event} (h : Holds b p acknowledged told held t)
    (hw : t.waiting = e :: rest) :
    Holds b p acknowledged told held (t.move (.receive 0)) ∧
      (t.move (.receive 0)).waiting = rest ∧
      (t.move (.receive 0)).scene.received 0 = t.scene.received 0 ++ [e] := by
  have hr : t.scene.station.receive 0 =
      (some e, t.scene.station.wired (.sole rest held) t.scene.station.log) := by
    rw [Station.receive, h.bus, hw]
    rfl
  have hm : t.move (.receive 0) = { t with scene := { t.scene with
      station := t.scene.station.wired (.sole rest held) t.scene.station.log
      received := Function.update t.scene.received 0 (t.scene.received 0 ++ [e]) } } := by
    simp only [move, Scene.apply, hr, Option.toList_some]
  rw [hm]
  exact ⟨⟨h.stands.wired _ _, rfl⟩, rfl,
    Function.update_self 0 (t.scene.received 0 ++ [e]) t.scene.received⟩

/-- What is left to do besides the messages of the worker. -/
def rest (t : Trial σ) : Nat := 2 * t.stage.rank + t.waiting.length

theorem Awaiting.hear_progress {e : Event} {later : List Event} (h : Awaiting b k greeting p t)
    (hw : t.waiting = e :: later) (he : isOutcome e = false) :
    Awaiting b k greeting p ((t.move (.receive 0)).hear k e) := by
  obtain ⟨hh, hwait, hrec⟩ := h.holds.receive hw
  rw [hear_of_not_outcome he]
  refine ⟨h.stage, ⟨hh.stands, hh.bus⟩, ?_, ?_, h.success, ?_, h.time⟩
  · change (t.move (.receive 0)).scene.received 0 ++ (t.move (.receive 0)).waiting = _
    rw [hrec, hwait, ← h.heard, hw, List.append_assoc, List.singleton_append]
  · intro x hx
    change x ∈ (t.move (.receive 0)).scene.received 0 at hx
    rw [hrec] at hx
    rcases List.mem_append.1 hx with hx | hx
    · exact h.before x hx
    · rw [List.mem_singleton.1 hx]
      exact he
  · change Output.mk t.output.out (t.output.err ++ (e.describe ++ "\n")) =
      ⟨"", greeting ++ telling ((t.move (.receive 0)).scene.received 0)⟩
    rw [hrec, h.output, telling_append, telling_singleton, String.append_assoc]

/-- The outcome is received behind the changes of phase and nothing else. -/
theorem Awaiting.first_outcome {e : Event} {later : List Event} (h : Awaiting b k greeting p t)
    (hw : t.waiting = e :: later) (he : isOutcome e = true) :
    e = b.outcome ∧ p.isDecided = true ∧ t.scene.received 0 = b.preface := by
  have hheard := h.heard
  rw [hw] at hheard
  cases hp : p.isDecided with
  | false =>
    rw [Brief.isOutcome_of_undecided hp (by rw [← hheard]; simp)] at he
    cases he
  | true =>
    obtain ⟨later', hev⟩ := b.exists_eventsAt_of_decided hp
    obtain ⟨hrec, he, -⟩ := eq_of_first_outcome h.before
      (fun x => Brief.isOutcome_of_mem_preface) he b.isOutcome_outcome (hheard.trans hev)
    exact ⟨he, rfl, hrec⟩

theorem Awaiting.hear_success {later : List Event} (h : Awaiting b k greeting p t)
    (hw : t.waiting = .testCompleted r :: later) :
    Lingering b k greeting r p ((t.move (.receive 0)).hear k (.testCompleted r)) := by
  obtain ⟨hh, hwait, -⟩ := h.holds.receive hw
  obtain ⟨he, hp, hrec⟩ := h.first_outcome hw rfl
  have hv : b.verdict = .ok r := by
    unfold Brief.outcome at he
    split at he
    · next r' hv =>
      obtain rfl := Event.testCompleted.inj he
      exact hv
    · cases he
  have hnow : (t.move (.receive 0)).now k = k.clock (b.serverAt p) := hh.now k
  refine ⟨rfl, ⟨hh.stands, hh.bus⟩, hv, hp, ?_, rfl, ?_, ?_, ?_⟩
  · change b.preface ++ b.outcome :: (t.move (.receive 0)).waiting = b.eventsAt p
    rw [hwait, ← he, ← hrec, ← h.heard, hw]
  · change Output.mk (shown k.json r) t.output.err = ⟨shown k.json r, greeting ++ telling b.preface⟩
    rw [h.output, hrec]
  · change (t.move (.receive 0)).now k = _ ∨ (t.move (.receive 0)).now k = _
    rw [hnow]
    cases p with
    | completed => exact .inl rfl
    | uploaded => exact .inr rfl
    | done => exact .inr rfl
    | ended => exact absurd (h.holds.stands.ended rfl) Bool.false_ne_true
    | _ => cases hp
  · rintro rfl
    exact hnow

theorem Awaiting.hear_failure {reason : String} {later : List Event}
    (h : Awaiting b k greeting p t) (hw : t.waiting = .testFailed reason :: later) :
    Closing b k greeting false p ((t.move (.receive 0)).hear k (.testFailed reason)) := by
  obtain ⟨hh, hwait, -⟩ := h.holds.receive hw
  obtain ⟨he, hp, hrec⟩ := h.first_outcome hw rfl
  have hv : b.verdict = .error reason := by
    unfold Brief.outcome at he
    split at he
    · cases he
    · next reason' hv =>
      obtain rfl := Event.testFailed.inj he
      exact hv
  have hok : ∀ r, b.verdict ≠ .ok r := fun r hr => by
    rw [hv] at hr
    cases hr
  refine ⟨Nat.le_refl 3, ⟨hh.stands, hh.bus⟩, .inr ⟨reason, hv⟩, ?_, ⟨?_, ?_, ?_⟩, nofun⟩
  · cases p with
    | completed =>
      obtain ⟨r, hr⟩ := h.holds.stands.admits
      exact absurd hr (hok r)
    | uploaded => rfl
    | done => rfl
    | ended => rfl
    | _ => cases hp
  · change t.success = true ↔ _
    rw [h.success]
    exact ⟨nofun, fun ⟨r, hr⟩ => absurd hr (hok r)⟩
  · change Output.mk t.output.out (t.output.err ++ renderFailure reason) = b.report k greeting _
    rw [h.output, hrec, Brief.report, hv]
  · exact fun r hr => absurd hr (hok r)

/-- Whatever the caller does while it awaits the outcome. -/
theorem Awaiting.called (h : Awaiting b k greeting p t) (ht : t.callerTurn k = some t') :
    Follows b k greeting p t' ∧ t'.rest < t.rest := by
  simp only [callerTurn, h.stage] at ht
  obtain ⟨o, ho, rfl⟩ := Option.map_eq_some_iff.1 ht
  cases o with
  | none =>
    rcases of_heard?_none ho with hp | ⟨hw, hb⟩
    · rw [isPatient, h.stage, h.holds.now] at hp
      exact absurd h.time (of_decide_eq_false hp)
    · have hd := h.undecided hw
      rw [h.holds.isBusy (by rintro rfl; cases hd) (by rintro rfl; cases hd)] at hb
      cases hb
  | some e =>
    obtain ⟨-, later, hw⟩ := exists_of_heard?_event ho
    obtain ⟨-, hwait, -⟩ := h.holds.receive hw
    have hlen : ∀ t'' : Trial σ, t''.waiting = later → t''.stage.rank ≤ t.stage.rank →
        t''.rest < t.rest := by
      intro t'' hw'' hs
      simp only [Trial.rest, hw'', hw, List.length_cons]
      omega
    rw [awaited, h.stage] at *
    cases he : isOutcome e with
    | false =>
      have hp := h.hear_progress hw he
      refine ⟨.awaiting hp, hlen _ ?_ (Nat.le_of_eq ?_)⟩
      · rw [hear_of_not_outcome he]
        exact hwait
      · rw [hp.stage]
    | true =>
      cases e with
      | testCompleted r =>
        exact ⟨.lingering (h.hear_success hw),
          hlen _ hwait (by decide : Stage.lingering.rank ≤ Stage.awaiting.rank)⟩
      | testFailed reason =>
        exact ⟨.closing (h.hear_failure hw),
          hlen _ hwait (by decide : Stage.unsubscribing.rank ≤ Stage.awaiting.rank)⟩
      | _ => cases he

theorem Lingering.serverAt (h : Lingering b k greeting r p t) (hp : p ≠ .completed) :
    b.serverAt p = b.afterReport := by
  have hd := h.decided
  cases p with
  | completed => exact absurd rfl hp
  | uploaded => rfl
  | done => rfl
  | ended => exact absurd (h.holds.stands.ended rfl) Bool.false_ne_true
  | _ => cases hd

theorem Lingering.late (h : Lingering b k greeting r p t) (hp : p ≠ .completed) :
    p.isLate = true := by
  have hd := h.decided
  cases p with
  | completed => exact absurd rfl hp
  | uploaded | done | ended => rfl
  | _ => cases hd

/-- All that can wait for the caller now is the receipt. -/
theorem Lingering.waiting_eq (h : Lingering b k greeting r p t) :
    t.waiting = if p = .done then b.receipt?.toList.map .reportRouter else [] := by
  have hd := h.decided
  have hheard := h.heard
  cases p with
  | completed | uploaded | done =>
    simpa [Brief.eventsAt] using hheard
  | ended => exact absurd (h.holds.stands.ended rfl) Bool.false_ne_true
  | _ => cases hd

theorem Lingering.acknowledging (h : Lingering b k greeting r p t) (hp : p ≠ .completed)
    (hs : t'.stage = .acknowledging) (hh : Holds b p false false true t')
    (hsuc : t'.success = t.success) (hsince : t'.since = t.since)
    (ho : t'.output = ⟨t.output.out, t.output.err ++ b.uploadLine k t.since⟩) :
    Acknowledging b k greeting r p t' := by
  refine ⟨hs, hh, h.verdict, h.late hp, ⟨?_, ?_, fun r' _ => ?_⟩⟩
  · rw [hsuc, h.success]
    exact ⟨fun _ => ⟨r, h.verdict⟩, fun _ => rfl⟩
  · rw [ho, h.output, hsince, Brief.report, h.verdict]
  · rw [hsince]
    exact h.since

theorem Lingering.isPatient_eq (h : Lingering b k greeting r p t) :
    t.isPatient k = decide
      ((k.clock (b.serverAt p)).nanos ≤ t.since.nanos + k.config.exchangeTimeout.nanos) := by
  rw [isPatient, h.stage, h.holds.now]

/-- A wait that ends without an event has lasted until the upload was made. -/
theorem Lingering.heard_nothing (h : Lingering b k greeting r p t)
    (ho : t.heard? k = some none) : p ≠ .completed ∧ b.uploadLine k t.since = "" := by
  have hdone : t.isBusy = false → p = .done := fun hb => by
    by_contra hp
    rw [h.holds.isBusy (fun he => Bool.false_ne_true (h.holds.stands.ended he))
      fun he => absurd he hp] at hb
    cases hb
  have hp : p ≠ .completed := by
    rintro rfl
    rcases of_heard?_none ho with hpt | ⟨-, hb⟩
    · rw [h.isPatient_eq, h.fresh rfl] at hpt
      exact absurd (Nat.le_add_right _ _) (of_decide_eq_false hpt)
    · cases hdone hb
  refine ⟨hp, ?_⟩
  unfold Brief.uploadLine
  split
  · next receipt hr =>
    rcases of_heard?_none ho with hpt | ⟨hw, hb⟩
    · rw [h.isPatient_eq, h.serverAt hp] at hpt
      exact if_neg (of_decide_eq_false hpt)
    · rw [h.waiting_eq, if_pos (hdone hb), hr] at hw
      cases hw
  · rfl

/-- The event that ends a wait is the receipt, and it is there in time. -/
theorem Lingering.heard_event {e : Event} (h : Lingering b k greeting r p t)
    (ho : t.heard? k = some (some e)) :
    p ≠ .completed ∧ b.uploadLine k t.since = e.describe ++ "\n" := by
  obtain ⟨hpt, later, hw⟩ := exists_of_heard?_event ho
  rw [h.waiting_eq] at hw
  split at hw
  · next hp =>
    have hne : p ≠ .completed := by
      rw [hp]
      nofun
    cases hr : b.receipt? with
    | none =>
      rw [hr] at hw
      cases hw
    | some receipt =>
      rw [hr] at hw
      obtain ⟨rfl, -⟩ := List.cons.inj hw
      rw [h.isPatient_eq, h.serverAt hne] at hpt
      exact ⟨hne, by rw [Brief.uploadLine, hr]; exact if_pos (of_decide_eq_true hpt)⟩
  · cases hw

theorem Lingering.called (h : Lingering b k greeting r p t) (ht : t.callerTurn k = some t') :
    Acknowledging b k greeting r p t' ∧ t'.rest < t.rest := by
  simp only [callerTurn, h.stage] at ht
  obtain ⟨o, ho, rfl⟩ := Option.map_eq_some_iff.1 ht
  cases o with
  | none =>
    obtain ⟨hp, hu⟩ := h.heard_nothing ho
    refine ⟨h.acknowledging hp rfl ⟨h.holds.stands, h.holds.bus⟩ rfl rfl ?_, ?_⟩
    · rw [hu, String.append_empty]
      rfl
    · change 2 * Stage.acknowledging.rank + t.waiting.length < 2 * t.stage.rank + t.waiting.length
      rw [h.stage]
      exact Nat.add_lt_add_right (by decide) _
  | some e =>
    obtain ⟨hp, hu⟩ := h.heard_event ho
    obtain ⟨-, later, hw⟩ := exists_of_heard?_event ho
    obtain ⟨hh, hwait, -⟩ := h.holds.receive hw
    refine ⟨h.acknowledging hp rfl ⟨hh.stands, hh.bus⟩ rfl rfl ?_, ?_⟩
    · rw [hu]
      rfl
    · change 2 * Stage.acknowledging.rank + (t.move (.receive 0)).waiting.length <
        2 * t.stage.rank + t.waiting.length
      rw [hwait, h.stage, hw, List.length_cons]
      exact Nat.add_lt_add_of_lt_of_le (by decide) (Nat.le_succ _)

theorem Acknowledging.called (h : Acknowledging b k greeting r p t)
    (ht : t.callerTurn k = some t') :
    Closing b k greeting true p t' ∧ t'.rest < t.rest := by
  simp only [callerTurn, h.stage] at ht
  obtain rfl := Option.some.inj ht
  obtain ⟨hst, hbus⟩ := h.holds.stands.acknowledge h.verdict (Place.isDecided_of_isLate h.late)
  obtain ⟨hh, hw⟩ := holds_of_bus (s := (t.move .acknowledge).scene) _ h.holds.bus hst hbus
  refine ⟨⟨Nat.le_refl 3, ⟨hh.stands, hh.bus⟩, .inl rfl, h.late,
    ⟨h.tells.success, h.tells.output, h.tells.since⟩, fun h => (by cases h)⟩, ?_⟩
  change 2 * Stage.unsubscribing.rank +
    (waiting { t with scene := (t.move .acknowledge).scene }).length <
      2 * t.stage.rank + t.waiting.length
  rw [hw, h.stage, List.length_append]
  simp only [Stage.rank, if_true, List.length_singleton]
  omega

theorem Closing.proceed {s : Scene σ} {stage : Stage} {later : Trial σ}
    (h : Closing b k greeting acknowledged p t) (hs : stage.rank < t.stage.rank)
    (hl : later = { t with scene := s, stage := stage })
    (hst : b.Stands p acknowledged stage.hasTold s.station (s.pending 0))
    (hb : s.station.bus = .sole t.waiting stage.isHolding)
    (ho : stage = .finished → later.isBusy = false) :
    Closing b k greeting acknowledged p later ∧ later.rest < t.rest := by
  have hw : later.waiting = t.waiting := by
    rw [hl, waiting, hb, Bus.pendingOf_sole]
  have hstage : later.stage = stage := by rw [hl]
  refine ⟨⟨?_, ⟨?_, ?_⟩, h.idle, h.late, ?_, fun he => ho (hstage.symm.trans he)⟩, ?_⟩
  · rw [hstage]
    exact Nat.le_trans (Nat.le_of_lt hs) h.stage
  · rw [hstage, hl]
    exact hst
  · rw [hw, hstage, hl]
    exact hb
  · rw [hl]
    exact ⟨h.tells.success, h.tells.output, h.tells.since⟩
  · rw [Trial.rest, Trial.rest, hw, hstage]
    omega

theorem Closing.called (h : Closing b k greeting acknowledged p t)
    (ht : t.callerTurn k = some t') :
    Closing b k greeting acknowledged p t' ∧ t'.rest < t.rest := by
  have hst := h.holds.stands
  have hbus := h.holds.bus
  have hstage := h.stage
  cases hs : t.stage <;> rw [hs] at hst hbus hstage <;> simp only [callerTurn, hs] at ht
  case unsubscribing =>
    obtain rfl := Option.some.inj ht
    have hb : t.scene.station.bus.unsubscribe 0 = .sole t.waiting false := by
      rw [show t.scene.station.bus = .sole t.waiting true from hbus, Bus.unsubscribe_sole]
    exact h.proceed (by rw [hs]; decide) rfl
      (hst.wired _ (t.scene.station.unsubscribe 0).log) hb (absurd · (by decide))
  case stopping =>
    obtain rfl := Option.some.inj ht
    obtain ⟨hst', hb⟩ := Brief.Stands.stop hst h.late
    exact h.proceed (by rw [hs]; decide) rfl hst' (hb.trans hbus) (absurd · (by decide))
  case joining =>
    split at ht
    · cases ht
    · next hb =>
      obtain rfl := Option.some.inj ht
      exact h.proceed (by rw [hs]; decide) rfl hst hbus fun _ =>
        Bool.eq_false_iff.2 hb
  case finished => cases ht
  all_goals exact absurd hstage (by decide)

/-! ## Whole trials -/

theorem Worked.rest_le (h : Worked b k p p' acknowledged told held t t' news) :
    t'.rest ≤ t.rest + news.length := by
  rw [Trial.rest, Trial.rest, h.stage, h.waiting, List.length_append]
  split
  · omega
  · rw [List.length_nil]
    omega

/-- How much is left to do, the effects of the message taken last aside. -/
def weight (p : Place) (t : Trial σ) : Nat := 3 * p.rank + t.rest

/-- Every turn leaves less to do. -/
def Nearer (p p' : Place) (t t' : Trial σ) : Prop :=
  t'.weight p' < t.weight p ∨ t'.weight p' ≤ t.weight p ∧
    (t'.scene.pending 0).length < (t.scene.pending 0).length

theorem Worked.nearer (h : Worked b k p p' acknowledged told held t t' news) :
    Nearer p p' t t' := by
  have hr := h.rest_le
  unfold Nearer weight
  rcases h.lighter with hl | ⟨hl, hp⟩
  · exact .inl (by omega)
  · exact .inr ⟨by omega, hp⟩

omit [Server σ] in
theorem nearer_of_rest_lt (p : Place) (h : t'.rest < t.rest) : Nearer p p t t' :=
  .inl (Nat.add_lt_add_left h _)

theorem Follows.exists_worked (hs : Server.Steadfast σ) (hd : Timely b k)
    (h : Follows b k greeting p t) (ho : t.stage ≠ .finished) (ht : t.threadTurn k = some t') :
    ∃ p' acknowledged told held news, Worked b k p p' acknowledged told held t t' news ∧
      Follows b k greeting p' t' := by
  cases h with
  | awaiting h =>
    obtain ⟨p', news, hw⟩ := h.holds.exists_worked hs ht
    exact ⟨p', _, _, _, news, hw, .awaiting (h.worked hd hw)⟩
  | lingering h =>
    obtain ⟨p', news, hw⟩ := h.holds.exists_worked hs ht
    exact ⟨p', _, _, _, news, hw, .lingering (h.worked hw)⟩
  | acknowledging h =>
    obtain ⟨p', news, hw⟩ := h.holds.exists_worked hs ht
    exact ⟨p', _, _, _, news, hw, .acknowledging (h.worked hw)⟩
  | closing h =>
    obtain ⟨p', news, hw⟩ := h.holds.exists_worked hs ht
    exact ⟨p', _, _, _, news, hw, .closing (h.worked ho hw)⟩

theorem Follows.called (h : Follows b k greeting p t) (ht : t.callerTurn k = some t') :
    Follows b k greeting p t' ∧ Nearer p p t t' := by
  cases h with
  | awaiting h => exact ⟨(h.called ht).1, nearer_of_rest_lt p (h.called ht).2⟩
  | lingering h => exact ⟨.acknowledging (h.called ht).1, nearer_of_rest_lt p (h.called ht).2⟩
  | acknowledging h => exact ⟨.closing (h.called ht).1, nearer_of_rest_lt p (h.called ht).2⟩
  | closing h => exact ⟨.closing (h.called ht).1, nearer_of_rest_lt p (h.called ht).2⟩

/-- A turn of either thread. -/
theorem Follows.turned (hs : Server.Steadfast σ) (hd : Timely b k)
    (h : Follows b k greeting p t) {a : Actor} (ht : t.turn k a = some t') :
    ∃ p', Follows b k greeting p' t' ∧ Nearer p p' t t' := by
  unfold turn at ht
  split at ht
  · cases ht
  · next ho =>
    cases a with
    | thread =>
      obtain ⟨p', _, _, _, news, hw, h'⟩ := h.exists_worked hs hd ho ht
      exact ⟨p', h', hw.nearer⟩
    | caller => exact ⟨p, h.called ht⟩

/-- What can be said of a trial that is over. -/
structure Reported (b : Brief σ) (k : Terms σ) (greeting : String) (t : Trial σ) : Prop where
  success : t.success = true ↔ ∃ token r,
    b.loggedIn = .ok token ∧ b.tested token = .ok r ∧ r.isValid = true
  output : t.output = b.report k greeting t.since
  since : ∀ r, b.verdict = .ok r →
    t.since = k.clock b.afterTest ∨ t.since = k.clock b.afterReport
  latest : t.scene.station.lifecycle.latest = b.verdict.toOption
  idle : t.scene.phase = .idle
  /-- The worker has ended, and its last call was the farewell. -/
  worker : ∃ w, t.scene.station.workers = [w] ∧ w.thread = .ended ∧ w.session = .loggedOut ∧
    w.server = Server.disconnect b.afterReport ∧
    w.calls = .login b.own :: b.testCall ++ b.reportCall ++ [.disconnect]
  unsubscribed : t.scene.station.bus.subscriberCount = 0

theorem exists_verdict_ok_iff (b : Brief σ) : (∃ r, b.verdict = .ok r) ↔ ∃ token r,
    b.loggedIn = .ok token ∧ b.tested token = .ok r ∧ r.isValid = true := by
  constructor
  · rintro ⟨r, hv⟩
    obtain ⟨token, h⟩ := Brief.exists_of_verdict_ok hv
    exact ⟨token, r, h⟩
  · rintro ⟨token, r, hl, ht, hr⟩
    exact ⟨r, by simp [Brief.verdict, hl, ht, hr]⟩

theorem Closing.reported (h : Closing b k greeting acknowledged p t) (ho : t.stage = .finished) :
    Reported b k greeting t := by
  have hhold := h.holds
  rw [ho] at hhold
  have hp : p = .ended := by
    by_contra hp
    have hb := h.finished ho
    rw [hhold.isBusy hp fun _ => rfl] at hb
    cases hb
  subst hp
  have hst := hhold.stands
  refine ⟨h.tells.success.trans (exists_verdict_ok_iff b), h.tells.output, h.tells.since,
    hst.latest, ?_, ⟨_, hst.workers, rfl, rfl, rfl, rfl⟩, ?_⟩
  · rw [Scene.phase, hst.phase]
    rcases h.idle with rfl | ⟨reason, hv⟩
    · rfl
    · simp [Brief.phaseAt, hv]
  · rw [hhold.bus]
    exact Bus.subscriberCount_sole_released _

/-- Whichever thread has the next turn, a trial comes to its end, and what is shown is the report of
the run. -/
theorem Follows.ends (hs : Server.Steadfast σ) (hd : Timely b k) {p : Place} {t : Trial σ}
    (h : Follows b k greeting p t) : Ends k (Reported b k greeting) t := by
  by_cases ho : t.stage = .finished
  · obtain ⟨_, h⟩ := h.of_closing (by rw [ho]; decide)
    exact .finished ho (h.reported ho)
  · refine .turn (exists_turn k ho) fun a t' ht => ?_
    obtain ⟨p', h', hn⟩ := h.turned hs hd ht
    exact h'.ends hs hd
termination_by (t.weight p, (t.scene.pending 0).length)
decreasing_by
  rcases hn with hw | ⟨hw, hl⟩
  · exact Prod.Lex.left _ _ hw
  · rcases Nat.lt_or_eq_of_le hw with hw | hw
    · exact Prod.Lex.left _ _ hw
    · rw [hw]
      exact Prod.Lex.right _ hl

/-- All is set up for the run: its worker is the only one, bound and at work, nothing was begun, and
the bus serves nobody but the caller. -/
structure Ready (b : Brief σ) (s : Station σ) : Prop where
  bound : s.bound = some 0
  lifecycle : s.lifecycle = .start
  begun : s.begun = 0
  bus : s.bus = .sole [] true
  workers : s.workers = [{ Worker.new b.server b.own b.limit with
    thread := .serving, running := true }]

/-- The run can be started, and then its outcome is awaited. -/
theorem Ready.exists_awaiting {s : Station σ} (h : Ready b s) (hd : Timely b k)
    (greeting : String) : ∃ s', s.startTest = (.ok true, s') ∧
      Awaiting b k greeting .asked (.start greeting s') := by
  have hget : s.worker? 0 = some { Worker.new b.server b.own b.limit with
      thread := .serving, running := true } := by
    rw [Station.worker?, h.workers]
    rfl
  obtain ⟨log, hs⟩ := Station.startTest_of_open h.bound (by rw [h.lifecycle]; rfl) hget rfl
  have hbus : s.bus.publishAll [.phaseChanged .idle .preparing] =
      .sole [.phaseChanged .idle .preparing] true := by
    rw [h.bus, Bus.publishAll_sole_held, List.nil_append]
  rw [h.begun, h.lifecycle, h.workers, hbus] at hs
  refine ⟨_, hs, rfl, ⟨⟨trivial, rfl, rfl, h.bound, fun _ => rfl, rfl, rfl,
      (absurd · Bool.false_ne_true), (absurd · Bool.false_ne_true), (absurd · (by decide))⟩, rfl⟩,
    rfl, fun _ he => absurd he List.not_mem_nil, rfl, ?_, hd .asked rfl⟩
  change Output.mk "" greeting = ⟨"", greeting ++ telling []⟩
  rw [show telling [] = "" from rfl, String.append_empty]

/-- Whatever the server is and whatever its clock shows, if each of its calls ends and the outcome is
there before the deadline, a run that is started is awaited and comes to its end, whichever thread
has the next turn. What is shown then is the report of the run; an upload that is acknowledged too
late is not part of it. -/
theorem Ready.ends {s : Station σ} (h : Ready b s) (hs : Server.Steadfast σ) (hd : Timely b k)
    (greeting : String) : ∃ s', s.startTest = (.ok true, s') ∧
      Awaiting b k greeting .asked (.start greeting s') ∧
      Ends k (Reported b k greeting) (.start greeting s') := by
  obtain ⟨s', hstart, hawaiting⟩ := h.exists_awaiting hd greeting
  exact ⟨s', hstart, hawaiting, (Follows.awaiting hawaiting).ends hs hd⟩

end Trial
end LinkTest.Command
