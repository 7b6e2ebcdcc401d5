import LinkTest.Proofs.Client.Timing
import LinkTest.Proofs.Command.Report

/-!
# Tests that report their own run

The command that makes one test starts a run on a station of its own, tells what happens until the
outcome is there, shows what it was and takes the station down. In a bench the worker has a turn
when the caller would have to wait; this is one of the orders in which the two threads of a trial can
take their turns. So what holds in the end of every trial holds of the test that is made: if the
outcome comes before the deadline, it is successful if and only if there is a valid record, and what
it has shown is the report of its one run.
-/

namespace LinkTest.Command

open Bench (isOutcome)

namespace Trial

section

variable {σ : Type} [Server σ] {b : Brief σ} {k : Terms σ} {greeting : String} {p : Place}
  {t t' : Trial σ}

/-- The same trial after its thread has carried out all that is left of its last message. -/
def carried (t : Trial σ) : Trial σ := { t with scene := t.scene.run (t.scene.leftover 0) }

/-- What the thread carries out alone. -/
theorem Follows.exists_carried (hs : Server.Steadfast σ) (hd : Timely b k)
    (h : Follows b k greeting p t) (ho : t.stage ≠ .finished) :
    Leads k t t.carried ∧ ∃ p', Follows b k greeting p' t.carried ∧ p'.rank ≤ p.rank := by
  unfold carried Scene.leftover
  generalize hp : t.scene.pending 0 = effects
  induction effects generalizing t p with
  | nil => exact ⟨.refl t, p, h, Nat.le_refl _⟩
  | cons e rest ih =>
    have ht : t.threadTurn k = some (t.move (.carry 0)) := by
      rw [threadTurn, hp, List.isEmpty_cons, if_neg Bool.false_ne_true]
    obtain ⟨p₁, _, _, _, news, hw, h₁⟩ := h.exists_worked hs hd ho ht
    have hp₁ : (t.move (.carry 0)).scene.pending 0 = rest := by
      rw [move, Scene.carry_of_cons hp]
      exact Function.update_self 0 rest t.scene.pending
    obtain ⟨hl, p', h', hr⟩ := ih h₁ ho hp₁
    exact ⟨.turn (a := .thread) ((if_neg ho).trans ht) hl, p', h', Nat.le_trans hr hw.rank_le⟩

/-- The same trial after its thread has taken a message and carried out all that comes of it. -/
def stepped (t : Trial σ) : Trial σ :=
  { t with scene := { t.scene with station := t.scene.station.step 0 } }

/-- What the thread makes of a message alone. -/
theorem Follows.exists_stepped (hs : Server.Steadfast σ) (hd : Timely b k)
    (h : Follows b k greeting p t) (ho : t.stage ≠ .finished) (hp : t.scene.pending 0 = [])
    (hb : t.isBusy = true) (hw : t.waiting = [] ∨ (t.move (.take 0)).isPatient k = true) :
    Leads k t t.stepped ∧ ∃ p', Follows b k greeting p' t.stepped ∧ p'.rank < p.rank := by
  have ht : t.threadTurn k = some (t.move (.take 0)) := by
    rw [threadTurn, hp, List.isEmpty_nil, if_pos rfl]
    exact if_pos (by simpa [hb] using hw)
  obtain ⟨p₁, _, _, _, news, hw₁, h₁⟩ := h.exists_worked hs hd ho ht
  obtain ⟨hl, p', h', hr⟩ := h₁.exists_carried hs hd ho
  have hheld : ∀ w, t.scene.station.worker? 0 = some w → w.held = false := by
    intro w hw
    rw [isBusy, hp, hw] at hb
    cases hh : w.held with
    | false => rfl
    | true => simp [Station.isReady, hh] at hb
  have he : (t.move (.take 0)).carried = t.stepped := by
    have hturn := t.scene.run_turn 0 hp hheld
    exact congrArg (fun s => { t with scene := s }) hturn
  rw [he] at hl h'
  exact ⟨.turn (a := .thread) ((if_neg ho).trans ht) hl, p', h',
    Nat.lt_of_le_of_lt hr (hw₁.rank_lt hp)⟩

/-- An outcome is the fourth event at the latest. -/
theorem Awaiting.length_le (h : Awaiting b k greeting p t) :
    (t.scene.received 0).length ≤ 3 := by
  have hopening : b.opening.length ≤ 2 := by
    unfold Brief.opening
    split <;> decide
  have hlen := congrArg List.length h.heard
  rw [List.length_append] at hlen
  cases hp : p.isDecided with
  | false =>
    have he : (b.eventsAt p).length ≤ 2 := by
      cases p with
      | asked | admitted | begun => exact (by decide : 1 ≤ 2)
      | examined => exact hopening
      | _ => cases hp
    omega
  | true =>
    obtain ⟨later, he⟩ := b.exists_eventsAt_of_decided hp
    have hheard := h.heard
    rw [he] at hheard
    by_contra hn
    have hpre : b.preface.length ≤ 3 := by
      rw [Brief.preface, List.length_append, List.length_singleton]
      omega
    obtain ⟨rest, hrest⟩ : b.preface ++ [b.outcome] <+: t.scene.received 0 := by
      refine List.prefix_of_prefix_length_le ⟨later, ?_⟩ ⟨t.waiting, hheard⟩ ?_
      · rw [List.append_assoc, List.singleton_append]
      · rw [List.length_append, List.length_singleton]
        omega
    have hb := h.before b.outcome (by rw [← hrest]; simp)
    rw [b.isOutcome_outcome] at hb
    cases hb

theorem Awaiting.isPatient (h : Awaiting b k greeting p t) : t.isPatient k = true := by
  rw [Trial.isPatient, h.stage, h.holds.now]
  exact decide_eq_true h.time

/-- The caller can receive an event that waits for it. -/
theorem Awaiting.turn_of_cons {e : Event} {later : List Event} (h : Awaiting b k greeting p t)
    (hw : t.waiting = e :: later) :
    t.turn k .caller = some ((t.move (.receive 0)).hear k e) := by
  have hh : t.heard? k = some (some e) := by
    rw [heard?, if_pos h.isPatient, hw]
  simp only [turn, callerTurn, h.stage, hh, Option.map_some, awaited]
  exact if_neg (by decide)

end

/-! ## Benches -/

/-- The bench of a trial. -/
def bench (t : Trial Remote) : Bench := ⟨t.scene.station, 0, 0⟩

variable {b : Brief Remote} {k : Terms Remote} {greeting : String} {p : Place}
  {t t' : Trial Remote}

theorem bench_receive_of_cons {e : Event} {later : List Event} (hw : t.waiting = e :: later) :
    t.bench.receive = (some e, (t.move (.receive 0)).bench) := by
  have hr : (t.scene.station.bus.receive 0).1 = some e := by
    rw [waiting, Bus.pendingOf] at hw
    rw [Bus.receive, hw]
  simp only [Bench.receive, bench, Station.receive, hr]
  rfl

theorem bench_receive_of_nil (hw : t.waiting = []) : t.bench.receive = (none, t.bench) := by
  have hr : t.scene.station.bus.receive 0 = (none, t.scene.station.bus) := by
    rw [waiting, Bus.pendingOf] at hw
    rw [Bus.receive, hw]
  simp only [Bench.receive, bench, Station.receive, hr]

theorem bench_isBusy (hp : t.scene.pending 0 = []) : t.bench.isBusy = t.isBusy := by
  rw [isBusy, hp]
  rfl

theorem bench_now (hk : k.clock = fun r => r.network.now) (t : Trial Remote) :
    t.bench.now = t.now k := by
  rw [Trial.now, hk, Bench.now, Bench.remote?, Option.map_map]
  rfl

/-! ### While the outcome is awaited -/

section

variable {e : Event} {later : List Event} {moment : Span}

theorem bench_awaitOutcome_of_outcome (ht : t.bench.now.nanos < moment.nanos)
    (hw : t.waiting = e :: later) (he : isOutcome e = true) (fuel : Nat) :
    t.bench.awaitOutcome moment (fuel + 1) = ([], some e, (t.move (.receive 0)).bench) := by
  simp only [Bench.awaitOutcome, if_pos ht, bench_receive_of_cons hw, he, if_true]

theorem bench_awaitOutcome_of_progress (ht : t.bench.now.nanos < moment.nanos)
    (hw : t.waiting = e :: later) (he : isOutcome e = false) {fuel : Nat} {es : List Event}
    {o : Option Event} {b' : Bench}
    (h : (t.move (.receive 0)).bench.awaitOutcome moment fuel = (es, o, b')) :
    t.bench.awaitOutcome moment (fuel + 1) = (e :: es, o, b') := by
  simp only [Bench.awaitOutcome, if_pos ht, bench_receive_of_cons hw, he,
    if_neg Bool.false_ne_true, h]

theorem bench_awaitOutcome_of_busy (ht : t.bench.now.nanos < moment.nanos) (hw : t.waiting = [])
    (hp : t.scene.pending 0 = []) (hb : t.isBusy = true) (fuel : Nat) :
    t.bench.awaitOutcome moment (fuel + 1) = t.stepped.bench.awaitOutcome moment fuel := by
  simp only [Bench.awaitOutcome, if_pos ht, bench_receive_of_nil hw, (bench_isBusy hp).trans hb,
    if_true]
  rfl

end

/-- What a bench finds out while the outcome is awaited is what a trial comes to by some turns. -/
theorem Awaiting.exists_awaitOutcome (hs : Server.Steadfast Remote) (hd : Timely b k)
    (hk : k.clock = fun r => r.network.now) (fuel : Nat) (h : Awaiting b k greeting p t)
    (hp : t.scene.pending 0 = []) (hf : p.rank + 4 ≤ fuel + (t.scene.received 0).length) :
    ∃ es e later t₁ p₁, Leads k t t₁ ∧ Awaiting b k greeting p₁ t₁ ∧ t₁.scene.pending 0 = [] ∧
      t₁.waiting = e :: later ∧ isOutcome e = true ∧
      t₁.output.err = t.output.err ++ telling es ∧
      t.bench.awaitOutcome k.deadline fuel = (es, some e, (t₁.move (.receive 0)).bench) := by
  induction fuel generalizing t p with
  | zero =>
    have := h.length_le
    omega
  | succ fuel ih =>
    have htime : t.bench.now.nanos < k.deadline.nanos := by
      rw [bench_now hk, h.holds.now]
      exact h.time
    cases hw : t.waiting with
    | cons e later =>
      cases he : isOutcome e with
      | true =>
        refine ⟨[], e, later, t, p, .refl t, h, hp, hw, he, ?_,
          bench_awaitOutcome_of_outcome htime hw he fuel⟩
        rw [show telling [] = "" from rfl, String.append_empty]
      | false =>
        obtain ⟨-, -, hrec⟩ := h.holds.receive hw
        have ht := h.turn_of_cons hw
        have hnext := h.hear_progress hw he
        rw [hear_of_not_outcome he] at ht hnext
        have hf' : p.rank + 4 ≤ fuel + ((t.move (.receive 0)).scene.received 0).length := by
          rw [hrec, List.length_append, List.length_singleton]
          omega
        obtain ⟨es, e', later', t₁, p₁, hl, h₁, hp₁, hw₁, he', ho, hb⟩ := ih hnext hp hf'
        refine ⟨e :: es, e', later', t₁, p₁, .turn ht hl, h₁, hp₁, hw₁, he', ?_,
          bench_awaitOutcome_of_progress htime hw he hb⟩
        rw [ho, ← List.singleton_append, telling_append, telling_singleton, ← String.append_assoc]
        rfl
    | nil =>
      have hu := h.undecided hw
      have hbusy := h.holds.isBusy (by rintro rfl; cases hu) (by rintro rfl; cases hu)
      have ho : t.stage ≠ .finished := by
        rw [h.stage]
        nofun
      obtain ⟨hl, p', h', hr⟩ :=
        (Follows.awaiting h).exists_stepped hs hd ho hp hbusy (.inl hw)
      have hnext : Awaiting b k greeting p' t.stepped := h'.of_awaiting h.stage
      obtain ⟨es, e', later', t₁, p₁, hl₁, h₁, hp₁, hw₁, he', ho, hb⟩ :=
        ih hnext hp (by change p'.rank + 4 ≤ fuel + (t.scene.received 0).length; omega)
      exact ⟨es, e', later', t₁, p₁, hl.trans hl₁, h₁, hp₁, hw₁, he', ho,
        (bench_awaitOutcome_of_busy htime hw hp hbusy fuel).trans hb⟩

/-! ### While the upload is awaited -/

section

variable {moment : Span}

theorem bench_awaitNext_of_late (ht : ¬t.bench.now.nanos ≤ moment.nanos) (fuel : Nat) :
    t.bench.awaitNext moment (fuel + 1) = (none, t.bench) := by
  simp only [Bench.awaitNext, if_neg ht]

theorem bench_awaitNext_of_cons {e : Event} {later : List Event}
    (ht : t.bench.now.nanos ≤ moment.nanos) (hw : t.waiting = e :: later) (fuel : Nat) :
    t.bench.awaitNext moment (fuel + 1) = (some e, (t.move (.receive 0)).bench) := by
  simp only [Bench.awaitNext, if_pos ht, bench_receive_of_cons hw]

theorem bench_awaitNext_of_idle (ht : t.bench.now.nanos ≤ moment.nanos) (hw : t.waiting = [])
    (hp : t.scene.pending 0 = []) (hb : t.isBusy = false) (fuel : Nat) :
    t.bench.awaitNext moment (fuel + 1) = (none, t.bench) := by
  simp only [Bench.awaitNext, if_pos ht, bench_receive_of_nil hw, (bench_isBusy hp).trans hb,
    if_neg Bool.false_ne_true]

theorem bench_awaitNext_of_busy (ht : t.bench.now.nanos ≤ moment.nanos) (hw : t.waiting = [])
    (hp : t.scene.pending 0 = []) (hb : t.isBusy = true) (fuel : Nat) :
    t.bench.awaitNext moment (fuel + 1) = t.stepped.bench.awaitNext moment fuel := by
  simp only [Bench.awaitNext, if_pos ht, bench_receive_of_nil hw, (bench_isBusy hp).trans hb,
    if_true]
  rfl

end

/-- Nothing is left to carry out, so the upload is still asked for or is over. -/
theorem Lingering.of_nothing_pending {r : Record} (h : Lingering b k greeting r p t)
    (hp : t.scene.pending 0 = []) : p = .completed ∨ p = .done := by
  have hd := h.decided
  have ho := h.holds.stands.owes
  rw [hp] at ho
  cases p with
  | completed => exact .inl rfl
  | done => exact .inr rfl
  | uploaded => cases hr : b.receipt? <;> simp [Brief.Owes, hr] at ho
  | ended => exact absurd (h.holds.stands.ended rfl) Bool.false_ne_true
  | _ => cases hd

/-- What a bench finds out meanwhile is what a trial comes to by some turns. -/
theorem Lingering.exists_awaitNext {r : Record} (hs : Server.Steadfast Remote) (hd : Timely b k)
    (hk : k.clock = fun r => r.network.now) (moment : Span) (fuel : Nat)
    (h : Lingering b k greeting r p t)
    (hm : moment.nanos = t.since.nanos + k.config.exchangeTimeout.nanos)
    (hp : t.scene.pending 0 = []) (hf : p.rank ≤ fuel) :
    ∃ o t₁ p₁, Leads k t t₁ ∧ Lingering b k greeting r p₁ t₁ ∧ t₁.scene.pending 0 = [] ∧
      t₁.heard? k = some o ∧ t₁.output = t.output ∧ t₁.since = t.since ∧
      t.bench.awaitNext moment fuel = (o, (t₁.lingered o).bench) := by
  induction fuel generalizing t p with
  | zero =>
    rcases h.of_nothing_pending hp with rfl | rfl <;> exact absurd hf (by decide)
  | succ fuel ih =>
    have hnow : (t.bench.now.nanos ≤ moment.nanos) ↔ t.isPatient k = true := by
      rw [bench_now hk, hm, Trial.isPatient, h.stage]
      exact decide_eq_true_iff.symm
    cases hpt : t.isPatient k with
    | false =>
      have hh : t.heard? k = some none := by rw [heard?, hpt]; rfl
      rw [hpt] at hnow
      exact ⟨none, t, p, .refl t, h, hp, hh, rfl, rfl,
        bench_awaitNext_of_late (mt hnow.1 Bool.false_ne_true) fuel⟩
    | true =>
      have hle := hnow.2 hpt
      cases hw : t.waiting with
      | cons e later =>
        have hh : t.heard? k = some (some e) := by rw [heard?, if_pos hpt, hw]
        exact ⟨some e, t, p, .refl t, h, hp, hh, rfl, rfl, bench_awaitNext_of_cons hle hw fuel⟩
      | nil =>
        cases hb : t.isBusy with
        | false =>
          have hh : t.heard? k = some none := by
            rw [heard?, if_pos hpt, hw]
            simp [hb]
          exact ⟨none, t, p, .refl t, h, hp, hh, rfl, rfl,
            bench_awaitNext_of_idle hle hw hp hb fuel⟩
        | true =>
          have ho : t.stage ≠ .finished := by
            rw [h.stage]
            decide
          obtain ⟨hl, p', h', hr⟩ :=
            (Follows.lingering h).exists_stepped hs hd ho hp hb (.inl hw)
          obtain ⟨r', hnext⟩ := h'.of_lingering h.stage
          obtain rfl : r = r' := Except.ok.inj (h.verdict.symm.trans hnext.verdict)
          obtain ⟨o, t₁, p₁, hl₁, h₁, hp₁, hh, hout, hsi, hres⟩ := ih hnext hm hp (by omega)
          exact ⟨o, t₁, p₁, hl.trans hl₁, h₁, hp₁, hh, hout, hsi,
            (bench_awaitNext_of_busy hle hw hp hb fuel).trans hres⟩

/-- Nothing is left to carry out, so all was done that was asked for. -/
theorem Closing.of_nothing_pending {acknowledged : Bool}
    (h : Closing b k greeting acknowledged p t) (hs : t.stage = .unsubscribing)
    (hp : t.scene.pending 0 = []) : p = .done := by
  have hl := h.late
  have ho := h.holds.stands.owes
  have he := h.holds.stands.ended
  rw [hp] at ho
  rw [hs] at he
  cases p with
  | done => rfl
  | uploaded => cases hr : b.receipt? <;> simp [Brief.Owes, hr] at ho
  | ended => exact absurd (he rfl) (by decide)
  | _ => cases hl

/-- The worker that was told to end has one message to take. -/
theorem settle_of_told {s : Station Remote} (h : s.workers = [b.workerAt .done true]) :
    s.settle = s.step 0 := by
  have hw : s.workload = 1 := by
    rw [Station.workload, h]
    rfl
  have hr : s.workers.findIdx? Station.isReady = some 0 := by
    rw [h]
    rfl
  rw [Station.settle, hw, Station.settleWithin, hr]
  rfl

/-- The worker ends, and then so does the trial. -/
theorem Closing.exists_joined {acknowledged : Bool} (hs : Server.Steadfast Remote)
    (hd : Timely b k) (h : Closing b k greeting acknowledged .done t) (hst : t.stage = .joining)
    (hp : t.scene.pending 0 = []) :
    Leads k t { t.stepped with stage := .finished } ∧
      t.scene.station.settle = t.scene.station.step 0 := by
  have hhold := h.holds
  rw [hst] at hhold
  have hbusy : t.isBusy = true := hhold.isBusy nofun fun _ => rfl
  have ho : t.stage ≠ .finished := by
    rw [hst]
    nofun
  obtain ⟨hl, p', h', hr⟩ := (Follows.closing h).exists_stepped hs hd ho hp hbusy
    (.inr (by simp only [Trial.isPatient, move, hst]))
  obtain ⟨_, hc⟩ := h'.of_closing h.stage
  have hp' : p' = .ended := by
    cases p' <;> simp [Place.rank] at hr ⊢
  subst hp'
  have hrest : t.stepped.isBusy = false := by
    rw [isBusy, hc.holds.worker]
    change (!(t.scene.pending 0).isEmpty || _) = false
    rw [hp]
    rfl
  have hlast : t.stepped.turn k .caller = some { t.stepped with stage := .finished } := by
    have hs' : t.stepped.stage = .joining := hst
    simp only [turn, callerTurn, hs', hrest]
    rfl
  exact ⟨hl.trans (.single hlast), settle_of_told hhold.stands.workers⟩

/-- Everything is taken down by turns of both threads. -/
theorem Closing.exists_takeDown {acknowledged : Bool} (hs : Server.Steadfast Remote)
    (hd : Timely b k) (h : Closing b k greeting acknowledged p t)
    (hst : t.stage = .unsubscribing) (hp : t.scene.pending 0 = []) :
    ∃ t₁, Leads k t t₁ ∧ t₁.stage = .finished ∧ t₁.success = t.success ∧ t₁.output = t.output ∧
      t.bench.takeDown = t₁.bench := by
  obtain rfl := h.of_nothing_pending hst hp
  have hu : t.callerTurn k = some { t.move (.unsubscribe 0) with stage := .stopping } := by
    simp only [callerTurn, hst]
  obtain ⟨hc, -⟩ := h.called hu
  obtain ⟨hc', -⟩ := hc.called rfl
  obtain ⟨hl, hset⟩ := hc'.exists_joined hs hd rfl hp
  refine ⟨_, .turn (a := .caller) ((if_neg ?_).trans hu)
    (.turn (a := .caller) ((if_neg fun h => (by cases h)).trans rfl) hl), rfl, rfl, rfl, ?_⟩
  · rw [hst]
    decide
  · exact congrArg (Bench.mk · 0 0) hset

/-- The measurements are shown by turns of both threads. -/
theorem Lingering.exists_present {r : Record} (hs : Server.Steadfast Remote) (hd : Timely b k)
    (hk : k.clock = fun r => r.network.now) (h : Lingering b k greeting r p t)
    (hm : t.since = t.bench.now) (hp : t.scene.pending 0 = []) :
    ∃ t₁ p₁ text, Leads k t t₁ ∧ Closing b k greeting true p₁ t₁ ∧ t₁.stage = .unsubscribing ∧
      t₁.scene.pending 0 = [] ∧ t₁.success = true ∧
      t₁.output = ⟨t.output.out, t.output.err ++ text⟩ ∧
      present k.config k.json r t.bench = (⟨shown k.json r, text⟩, t₁.bench) := by
  have hfuel : p.rank ≤ t.bench.turns := by
    rcases h.of_nothing_pending hp with rfl | rfl
    · have hw : t.scene.station.workload = 1 := by
        rw [Station.workload, h.holds.stands.workers]
        simp [Brief.workerAt, Brief.queueAt, h.verdict, Except.toOption, Station.weight]
      simp only [Place.rank, Bench.turns, bench, hw]
      omega
    · exact Nat.le_add_left 1 _
  obtain ⟨o, t₁, p₁, hl, h₁, hp₁, hh, hout, -, hres⟩ := h.exists_awaitNext hs hd hk
    (t.bench.after k.config.exchangeTimeout) t.bench.turns (by rw [hm]; rfl) hp hfuel
  have ht : t₁.callerTurn k = some (t₁.lingered o) := by
    simp only [callerTurn, h₁.stage, hh, Option.map_some]
  have ho : t₁.stage ≠ .finished := by
    rw [h₁.stage]
    decide
  obtain ⟨ha, -⟩ := h₁.called ht
  have ht' : (t₁.lingered o).callerTurn k =
      some { (t₁.lingered o).move .acknowledge with stage := .unsubscribing } := by
    simp only [callerTurn, ha.stage]
  have ho' : (t₁.lingered o).stage ≠ .finished := by
    rw [ha.stage]
    decide
  obtain ⟨hc, -⟩ := ha.called ht'
  have hpend : (t₁.lingered o).scene.pending 0 = [] := by
    cases o <;> exact hp₁
  have hsucc : (t₁.lingered o).success = true := by
    cases o <;> exact h₁.success
  have herr : (t₁.lingered o).output = ⟨t.output.out, t.output.err ++ telling o.toList⟩ := by
    rw [← hout]
    cases o with
    | none =>
      rw [show telling (none : Option Event).toList = "" from rfl, String.append_empty]
      rfl
    | some e =>
      rw [Option.toList_some, telling_singleton]
      rfl
  refine ⟨_, p₁, telling o.toList,
    hl.trans (.turn (a := .caller) ((if_neg ho).trans ht)
      (.single (a := .caller) ((if_neg ho').trans ht'))), hc, rfl, hpend, hsucc, herr, ?_⟩
  simp only [present, hres]
  rfl

/-- What a bench comes to from the start of a run to its end. -/
def concluded (k : Terms Remote) (b : Bench) : Bool × Output × Bench :=
  let (es, outcome, b) := b.awaitOutcome k.deadline b.turns
  let (success, output, b) := conclude k.config k.json outcome b
  (success, ⟨output.out, telling es ++ output.err⟩, b.takeDown)

/-- What a bench comes to is what a trial comes to by some turns. -/
theorem Awaiting.exists_concluded (hs : Server.Steadfast Remote) (hd : Timely b k)
    (hk : k.clock = fun r => r.network.now) (h : Awaiting b k greeting .asked t)
    (hp : t.scene.pending 0 = []) :
    ∃ t₁, Leads k t t₁ ∧ t₁.stage = .finished ∧ ∃ output,
      concluded k t.bench = (t₁.success, output, t₁.bench) ∧
      t₁.output = ⟨output.out, t.output.err ++ output.err⟩ := by
  have hfuel : Place.asked.rank + 4 ≤ t.bench.turns + (t.scene.received 0).length := by
    have hw : t.scene.station.workload = 3 := by
      rw [Station.workload, h.holds.stands.workers]
      rfl
    simp only [Place.rank, Bench.turns, bench, hw]
    omega
  obtain ⟨es, e, later, t₁, p₁, hl, h₁, hp₁, hw₁, he, herr, hres⟩ :=
    h.exists_awaitOutcome hs hd hk t.bench.turns hp hfuel
  have hturn := h₁.turn_of_cons hw₁
  cases e with
  | testCompleted r =>
    have h₂ := h₁.hear_success hw₁
    obtain ⟨t₃, p₃, text, hl₃, hc₃, hs₃, hp₃, hsuc₃, hout₃, hpres⟩ :=
      h₂.exists_present hs hd hk (bench_now hk _).symm hp₁
    obtain ⟨t₄, hl₄, ho₄, hsuc₄, hout₄, htake⟩ := hc₃.exists_takeDown hs hd hs₃ hp₃
    refine ⟨t₄, hl.trans (.turn hturn (hl₃.trans hl₄)), ho₄,
      ⟨shown k.json r, telling es ++ text⟩, ?_, ?_⟩
    · have hpres' : present k.config k.json r (t₁.move (.receive 0)).bench = _ := hpres
      simp only [concluded, hres, conclude, hpres', htake, hsuc₄, hsuc₃]
    · rw [hout₄, hout₃, ← String.append_assoc, ← herr]
      rfl
  | testFailed reason =>
    have h₂ := h₁.hear_failure hw₁
    obtain ⟨t₄, hl₄, ho₄, hsuc₄, hout₄, htake⟩ := h₂.exists_takeDown hs hd rfl hp₁
    refine ⟨t₄, hl.trans (.turn hturn hl₄), ho₄, ⟨"", telling es ++ renderFailure reason⟩, ?_, ?_⟩
    · have htake' : (t₁.move (.receive 0)).bench.takeDown = _ := htake
      have hsuc : t₄.success = false := hsuc₄.trans h₁.success
      simp only [concluded, hres, conclude, htake', hsuc]
    · rw [hout₄, ← String.append_assoc, ← herr]
      change Output.mk t₁.output.out (t₁.output.err ++ renderFailure reason) =
        ⟨"", t₁.output.err ++ renderFailure reason⟩
      rw [h₁.output]
  | _ => cases he

end Trial

/-! ## The test that is made -/

/-- What the run of a test depends on. -/
def Brief.ofConfig (c : Config) (limit : Span) (n : Network) (stamps : Nat → Stamp) :
    Brief Remote :=
  ⟨⟨.ofConfig c, n, stamps 0⟩, Bench.credentials c, limit⟩

/-- What the caller of a test goes by. -/
def Terms.ofConfig (c : Config) (json : Bool) (deadline : Span) (n : Network) : Terms Remote :=
  ⟨fun r => r.network.now, c, json, ⟨n.now.nanos + deadline.nanos⟩⟩

def greeting (c : Config) : String := "Testing against " ++ c.server ++ "\n"

variable (c : Config) (json : Bool) (limit deadline : Span) (n : Network) (stamps : Nat → Stamp)
  (log : Log)

/-- Everything is set up for the run. -/
theorem ready_setUp :
    Trial.Ready (.ofConfig c limit n stamps) (Bench.setUp c limit n stamps log).station where
  bound := rfl
  lifecycle := rfl
  begun := rfl
  bus := congrArg Prod.snd Bus.subscribe_all
  workers := rfl

/-- The test that is made starts the run and then does what the bench comes to. -/
theorem testWithin_eq {s : Station Remote}
    (hs : (Bench.setUp c limit n stamps log).station.startTest = (.ok true, s))
    (hn : Bench.now ⟨s, 0, 0⟩ = n.now) :
    testWithin limit deadline c json n stamps log =
      let (success, output, b) := Trial.concluded (.ofConfig c json deadline n) ⟨s, 0, 0⟩
      ⟨.ok success, ⟨output.out, greeting c ++ output.err⟩,
        (b.remote?.map Remote.network).getD n, b.station.log⟩ := by
  have hb : { Bench.setUp c limit n stamps log with station := s } = ⟨s, 0, 0⟩ := rfl
  have hafter : Bench.after ⟨s, 0, 0⟩ deadline = (Terms.ofConfig c json deadline n).deadline := by
    rw [Bench.after, hn]
    rfl
  have hgreeting : greeting c = "Testing against " ++ c.server ++ "\n" := rfl
  simp only [testWithin, hs, hb, hafter, Trial.concluded, hgreeting, String.append_assoc]
  rfl

theorem steadfast_remote : Server.Steadfast Remote where
  login _ c r := (Remote.punctual_login _ c r).ends
  test _ t r := (Remote.punctual_test _ t r).ends
  report _ t record r := (Remote.punctual_report _ t record r).ends

/-- The clock goes on from call to call. -/
theorem Brief.now_le (b : Brief Remote) :
    b.server.network.now.nanos ≤ b.afterLogin.network.now.nanos ∧
      b.afterLogin.network.now.nanos ≤ b.afterTest.network.now.nanos := by
  constructor
  · exact ((Remote.punctual_login _ b.own b.server).elapses (Nat.le_add_right _ _)).1
  · unfold Brief.afterTest
    split
    · next token _ =>
      exact ((Remote.punctual_test _ token b.afterLogin).elapses (Nat.le_add_right _ _)).1
    · exact Nat.le_refl _

/-- An outcome that is there before the deadline is not waited for in vain. -/
theorem timely_of_lt {b : Brief Remote} {k : Terms Remote} (hk : k.clock = fun r => r.network.now)
    (h : b.afterTest.network.now.nanos < k.deadline.nanos) : Trial.Timely b k := by
  obtain ⟨hl, ht⟩ := b.now_le
  intro p hp
  rw [hk]
  cases p with
  | asked => exact Nat.lt_of_le_of_lt (Nat.le_trans hl ht) h
  | admitted => exact Nat.lt_of_le_of_lt ht h
  | begun => exact h
  | examined => exact h
  | _ => cases hp

/-- If no limit of time is beyond what can be reckoned with, and the outcome is there before the
deadline, then the two threads come to an end whatever turns they take, and each such end is a
report of the run; the test that is made comes to one of them. -/
theorem report_of_test (hl : callLimit? c = some limit) (hd : deadline? c = some deadline)
    (ht : (Brief.ofConfig c limit n stamps).afterTest.network.now.nanos <
      n.now.nanos + deadline.nanos) :
    ∃ s, (Bench.setUp c limit n stamps log).station.startTest = (.ok true, s) ∧
      Trial.Ends (.ofConfig c json deadline n)
        (Trial.Reported (.ofConfig c limit n stamps) (.ofConfig c json deadline n) (greeting c))
        (.start (greeting c) s) ∧
      ∃ t, Trial.Leads (.ofConfig c json deadline n) (.start (greeting c) s) t ∧
        t.stage = .finished ∧
        Trial.Reported (.ofConfig c limit n stamps) (.ofConfig c json deadline n) (greeting c) t ∧
        test? c json n stamps log = some ⟨.ok t.success, t.output,
          (Brief.ofConfig c limit n stamps).afterReport.network, t.scene.station.log⟩ := by
  have htimely : Trial.Timely (.ofConfig c limit n stamps) (.ofConfig c json deadline n) :=
    timely_of_lt rfl ht
  obtain ⟨s, hs, hstart, hends⟩ :=
    (ready_setUp c limit n stamps log).ends steadfast_remote htimely (greeting c)
  obtain ⟨t, hleads, hover, output, hcon, hout⟩ :=
    hstart.exists_concluded steadfast_remote htimely rfl rfl
  have hrep := hends.of_leads hleads hover
  refine ⟨s, hs, hends, t, hleads, hover, hrep, ?_⟩
  have hnow : Bench.now ⟨s, 0, 0⟩ = n.now :=
    (Trial.bench_now (k := .ofConfig c json deadline n) rfl (.start (greeting c) s)).trans
      (hstart.holds.now _)
  have hcon' : Trial.concluded (.ofConfig c json deadline n) ⟨s, 0, 0⟩ = _ := hcon
  obtain ⟨w, hw, -, -, hserver, -⟩ := hrep.worker
  have hnet : (t.bench.remote?.map Remote.network).getD n =
      (Brief.ofConfig c limit n stamps).afterReport.network := by
    rw [Bench.remote?, Trial.bench, Station.worker?, hw]
    change w.server.network = _
    rw [hserver]
    rfl
  rw [test?, hl, Option.bind_some, hd, Option.map_some,
    testWithin_eq c json limit deadline n stamps log hs hnow, hcon', hout, ← hnet]
  rfl

def answerTurn (line : String) : Turn := ⟨(line ++ "\n").toUTF8.toList, .waiting, none⟩

/-- A server on this host that lets everybody in, wants nothing measured but its own throughput and
takes any record. -/
def friendlyNetwork : Network where
  hosts := []
  serverPlans := [.accepted [
    answerTurn "\x7b\"ok\":true,\"session\":\"s\"\x7d",
    answerTurn ("\x7b\"ok\":true,\"config\":\x7b\"set_id\":7,\"result_id\":8," ++
      "\"throughput_server\":\"127.0.0.1\",\"port\":40002,\"timeout_secs\":1," ++
      "\"valid_domains\":[],\"invalid_domains\":[]\x7d\x7d"),
    answerTurn "\x7b\"ok\":true\x7d"]]
  targetPlans := []
  otherTarget := .accepted 1000 .waiting
  now := .zero
  requests := []
  probes := 0

def friendlyConfig : Config :=
  { Config.default with server := "127.0.0.1:40001", probe := ⟨1, 100⟩ }

def friendlyBrief : Brief Remote :=
  .ofConfig friendlyConfig ⟨40100000000⟩ friendlyNetwork fun _ => default

theorem report_of_friendly : friendlyBrief.receipt? = some ⟨7, 8⟩ ∧
    ∃ t : Trial Remote, t.success = true ∧ t.scene.phase = .idle ∧
      test? friendlyConfig false friendlyNetwork (fun _ => default) .empty =
        some ⟨.ok true, t.output, friendlyBrief.afterReport.network, t.scene.station.log⟩ := by
  -- Both are read off one evaluation of the run.
  have hruns : friendlyBrief.receipt? = some ⟨7, 8⟩ ∧
      friendlyBrief.afterTest.network.now.nanos < friendlyNetwork.now.nanos + 80200000000 := by
    decide +kernel
  obtain ⟨hreceipt, htime⟩ := hruns
  obtain ⟨_, -, -, t, -, -, h, ht⟩ := report_of_test friendlyConfig false ⟨40100000000⟩
    ⟨80200000000⟩ friendlyNetwork (fun _ => default) .empty (by decide +kernel)
    (by decide +kernel) htime
  have hs : t.success = true := by
    refine h.success.2 ((Trial.exists_verdict_ok_iff friendlyBrief).1 ?_)
    cases hr : friendlyBrief.verdict with
    | ok r => exact ⟨r, rfl⟩
    | error reason =>
      rw [friendlyBrief.receipt?_of_error hr] at hreceipt
      cases hreceipt
  rw [hs] at ht
  exact ⟨hreceipt, t, hs, h.idle, ht⟩

end LinkTest.Command
