import LinkTest.Proofs.Station.InFlight

/-!
# Runs come to an end

The worker that owes something to a run brings it to its end by its own moves alone, however many
messages stand before the request and whatever has been sent behind it. Each message taken brings
the request forward by one place, unless it is `quit`, by which the request is answered at once.
-/

namespace LinkTest.Scene

variable {σ : Type}

/-- Whether a move is the worker's own: it is let go on, takes a message, carries out an effect. -/
def Move.isOf (id : Nat) : Move σ → Bool
  | .resume i | .take i | .carry i => i = id
  | _ => false

variable [Server σ]

/-! ## What a worker's own moves do to others -/

theorem debts_of_isOf {m : Move σ} {id j : Nat} (hm : m.isOf id = true) (hj : j ≠ id)
    (c : Scene σ) : (c.apply m).debts j = c.debts j := by
  cases m with
  | resume i =>
    have ha := aside_of_not_driving (m := .resume i) rfl c
    rw [debts, debts, ha.pending, ha.staffed.ofQueue]
  | take i =>
    obtain rfl : i = id := by simpa [Move.isOf] using hm
    rcases c.take_eq i with ht | ⟨w, stamps, stamped, hw, hp, ht⟩
    · simp only [apply, ht]
    · simp only [apply, ht, debts, Function.update_of_ne hj, Station.queueOf_set_ne _ hj]
  | carry i =>
    obtain rfl : i = id := by simpa [Move.isOf] using hm
    cases hp : c.pending i with
    | nil => simp only [apply, carry, hp]
    | cons e rest => rw [debts_carry hp j, if_neg hj, List.nil_append]
  | _ => cases hm

/-- No other worker owes anything to a run. -/
def Alone (c : Scene σ) (id : Nat) : Prop := ∀ j, j ≠ id → c.debts j = []

theorem Alone.run {c : Scene σ} {id : Nat} (h : c.Alone id) {moves : List (Move σ)}
    (hm : ∀ m ∈ moves, m.isOf id = true) : (c.run moves).Alone id := by
  induction moves generalizing c with
  | nil => exact h
  | cons m rest ih =>
    refine ih (fun j hj => ?_) fun x hx => hm x (List.mem_cons_of_mem _ hx)
    rw [debts_of_isOf (hm m List.mem_cons_self) hj, h j hj]

/-- The run that is on its way, if there is one, can be brought to its end by this worker. -/
def Ends (c : Scene σ) (id : Nat) : Prop :=
  ∃ moves, (∀ m ∈ moves, m.isOf id = true) ∧
    ((c.run moves).CrashFree → (c.run moves).phase.isUnderWay = false)

theorem Ends.of_run {c : Scene σ} {id : Nat} {first : List (Move σ)}
    (hf : ∀ m ∈ first, m.isOf id = true)
    (h : (c.run first).CrashFree → (c.run first).Ends id) : c.Ends id := by
  by_cases hc : (c.run first).CrashFree
  · obtain ⟨moves, hm, he⟩ := h hc
    refine ⟨first ++ moves, List.forall_mem_append.2 ⟨hf, hm⟩, ?_⟩
    rw [run_append]
    exact he
  · exact ⟨first, hf, fun hn => absurd hn hc⟩

/-! ## Carrying out what is left -/

omit [Server σ] in
theorem isOf_leftover (c : Scene σ) (id : Nat) : ∀ m ∈ c.leftover id, m.isOf id = true := by
  intro m hm
  rw [(List.mem_replicate.1 hm).2]
  exact decide_eq_true rfl

omit [Server σ] in
/-- Effects add messages at the end of a queue at most, and no request of a run. -/
theorem queueOf_foldl_perform (s : Station σ) (effects : List Effect) (id : Nat) :
    ∃ ms, Station.queueOf (effects.foldl Station.perform s).workers id =
      Station.queueOf s.workers id ++ ms ∧ Debt.ofQueue ms = [] := by
  induction effects generalizing s with
  | nil => exact ⟨[], (List.append_nil _).symm, rfl⟩
  | cons e rest ih =>
    obtain ⟨ms, hms, hm⟩ := (s.staffed_perform e).queueOf_append id
    obtain ⟨later, hq, hl⟩ := ih (s.perform e)
    refine ⟨ms ++ later, ?_, by rw [Debt.ofQueue_append, hm, hl, List.append_nil]⟩
    rw [List.foldl_cons, hq, hms, List.append_assoc]

theorem queueOf_run_leftover (c : Scene σ) (id : Nat) :
    (c.run (c.leftover id)).pending id = [] ∧
      ∃ ms, Station.queueOf (c.run (c.leftover id)).station.workers id =
        Station.queueOf c.station.workers id ++ ms ∧ Debt.ofQueue ms = [] := by
  rw [run_leftover]
  exact ⟨Function.update_self id [] c.pending, queueOf_foldl_perform c.station (c.pending id) id⟩

theorem Sound.ends_of_queue {c : Scene σ} (h : c.Sound) {id : Nat} (ha : c.Alone id)
    (hq : Debt.ofQueue (Station.queueOf c.station.workers id) = []) : c.Ends id := by
  refine ⟨c.leftover id, c.isOf_leftover id, fun hc => ?_⟩
  obtain ⟨hp, ms, hms, hm⟩ := c.queueOf_run_leftover id
  have hother := ha.run (c.isOf_leftover id)
  have hs := h.run _ hc
  generalize c.run (c.leftover id) = c' at hp hms hother hs ⊢
  by_contra hn
  obtain ⟨j, run, -, hstage, -⟩ := hs.flow.of_isUnderWay (by simpa using hn)
  refine hstage.ne_nil ?_
  by_cases hj : j = id
  · rw [hj, debts, hp, hms, Debt.ofQueue_append, hq, hm]
    rfl
  · exact hother j hj

/-! ## Taking what stands before the request -/

/-- A worker that is let go on takes a message, and the others move up. -/
theorem Sound.queueOf_take {c : Scene σ} (h : c.Sound) {id : Nat} (hp : c.pending id = [])
    {m : Message} {rest : List Message}
    (hq : Station.queueOf c.station.workers id = m :: rest)
    (hc : (c.run [.resume id, .take id]).CrashFree) :
    Station.queueOf (c.run [.resume id, .take id]).station.workers id =
      if m.isQuit then [] else rest := by
  cases hw : c.station.worker? id with
  | none =>
    have hn : Station.queueOf c.station.workers id = [] := by
      rw [Station.queueOf, show c.station.workers[id]? = none from hw]
      rfl
    rw [hn] at hq
    cases hq
  | some w =>
    rw [Station.queueOf_eq hw] at hq
    have ho : w.isOpen = true := by
      rw [Worker.isOpen_iff]
      by_contra hs
      rw [h.shut w (List.mem_of_getElem? hw) hs] at hq
      cases hq
    have hw' : (c.apply (.resume id)).station.worker? id = some { w with held := false } := by
      have hget : c.station.workers[id]? = some w := hw
      simp [Scene.apply, Station.resume, Station.worker?, hget]
    obtain ⟨stamps, stamped, ht⟩ := take_of_free hw' hp rfl
    have hid := Station.mem_workers_of_worker? hw'
    have hrun : c.run [.resume id, .take id] = (c.apply (.resume id)).take id := rfl
    rw [hrun, ht] at hc ⊢
    rw [Station.queueOf_set_self _ hid]
    exact Worker.queue_step stamps (w := { w with held := false }) ho hq
      (hc _ (List.mem_iff_getElem?.2 ⟨id, by simp [hid]⟩))

/-- It is enough to look at the scenes to which one turn of the worker leads. -/
theorem Sound.ends_of_turn {c : Scene σ} (h : c.Sound) {id : Nat} (ha : c.Alone id) {m : Message}
    {rest : List Message} (hq : Station.queueOf c.station.workers id = m :: rest)
    (next : ∀ (c' : Scene σ) (ms : List Message), c'.Sound → c'.Alone id → Debt.ofQueue ms = [] →
      Station.queueOf c'.station.workers id = (if m.isQuit then [] else rest ++ ms) →
      c'.Ends id) : c.Ends id := by
  refine .of_run (c.isOf_leftover id) fun hc => ?_
  obtain ⟨hp, ms, hms, hm⟩ := c.queueOf_run_leftover id
  have ha' := ha.run (c.isOf_leftover id)
  have hs := h.run _ hc
  generalize c.run (c.leftover id) = c' at hp hms ha' hs ⊢
  rw [hq, List.cons_append] at hms
  have hown : ∀ x ∈ [Move.resume id, .take id], Move.isOf (σ := σ) id x = true := by
    simp [Move.isOf]
  exact .of_run hown fun hc' =>
    next _ ms (hs.run _ hc') (ha'.run hown) hm (hs.queueOf_take hp hms hc')

/-- A request in a queue is one message, behind others and before others. -/
theorem exists_of_ofQueue {queue : List Message} {run : RunId}
    (h : Debt.ofQueue queue = [.test run]) : ∃ before after,
    queue = before ++ .requestTest (.run run) :: after ∧ Debt.ofQueue after = [] := by
  obtain ⟨before, m, after, rfl, -, hm, ha⟩ := List.filterMap_eq_cons_iff.1 h
  obtain ⟨other, hr, ho⟩ := Option.map_eq_some_iff.1 hm
  obtain rfl : other = run := by simpa using ho
  obtain rfl := Message.eq_requestTest_of_run? hr
  exact ⟨before, after, rfl, ha⟩

/-- The induction is on the messages before the request; what comes in stands behind it. -/
theorem Sound.ends_of_request {c : Scene σ} (h : c.Sound) {id : Nat} (ha : c.Alone id)
    {run : RunId} {before after : List Message}
    (hq : Station.queueOf c.station.workers id = before ++ .requestTest (.run run) :: after)
    (hafter : Debt.ofQueue after = []) : c.Ends id := by
  induction before generalizing c after with
  | nil =>
    refine h.ends_of_turn ha hq fun c' ms hs ha' hms hq' => hs.ends_of_queue ha' ?_
    rw [hq', if_neg (by simp [Message.isQuit]), Debt.ofQueue_append, hafter, hms]
    rfl
  | cons m rest ih =>
    rw [List.cons_append] at hq
    refine h.ends_of_turn ha hq fun c' ms hs ha' hms hq' => ?_
    cases hm : m.isQuit with
    | true =>
      refine hs.ends_of_queue ha' ?_
      rw [hq', if_pos hm]
      rfl
    | false =>
      rw [if_neg (by simp [hm]), List.append_assoc, List.cons_append] at hq'
      exact ih hs ha' hq' (by rw [Debt.ofQueue_append, hafter, hms, List.append_nil])

/-- The worker that alone may owe something to a run can bring the run to its end. -/
theorem Sound.ends {c : Scene σ} (h : c.Sound) {id : Nat} (ha : c.Alone id) : c.Ends id := by
  refine .of_run (c.isOf_leftover id) fun hc => ?_
  obtain ⟨hp, -⟩ := c.queueOf_run_leftover id
  have ha' := ha.run (c.isOf_leftover id)
  have hs := h.run _ hc
  generalize c.run (c.leftover id) = c' at hp ha' hs ⊢
  by_cases hq : Debt.ofQueue (Station.queueOf c'.station.workers id) = []
  · exact hs.ends_of_queue ha' hq
  · have hd : c'.debts id = Debt.ofQueue (Station.queueOf c'.station.workers id) := by
      rw [debts, hp]
      rfl
    obtain ⟨run, -, hstage, -⟩ := hs.flow.of_ne_nil (hd ▸ hq)
    rw [hd] at hstage
    obtain ⟨before, after, hb, hafter⟩ := exists_of_ofQueue hstage.of_queue.2
    exact hs.ends_of_request ha' hb hafter

/-- From any scene, moves of one worker and an acknowledgement lead to an idle pipeline. -/
theorem Sound.exists_idle {c : Scene σ} (h : c.Sound) : ∃ id moves,
    (∀ m ∈ moves, m.isOf id = true ∨ m = .acknowledge) ∧
      ((c.run moves).CrashFree → (c.run moves).phase = .idle) := by
  obtain ⟨id, ha⟩ : ∃ id, c.Alone id := by
    cases hp : c.phase.isUnderWay with
    | true =>
      obtain ⟨id, run, -, -, ho⟩ := h.flow.of_isUnderWay hp
      exact ⟨id, ho⟩
    | false => exact ⟨0, fun j _ => h.flow.eq_nil hp j⟩
  obtain ⟨moves, hm, he⟩ := h.ends ha
  refine ⟨id, moves ++ [.acknowledge], List.forall_mem_append.2 ⟨?_, ?_⟩, fun hc => ?_⟩
  · exact fun m hx => .inl (hm m hx)
  · exact fun m hx => .inr (List.mem_singleton.1 hx)
  · rw [run_append] at hc ⊢
    have hend := he (crashFree_of_run hc)
    generalize c.run moves = c' at hend ⊢
    change (c'.apply .acknowledge).phase = .idle
    by_cases hp : c'.station.lifecycle.phase = .completed
    · obtain ⟨log, hack⟩ := Station.acknowledgeResults_of_completed hp
      simp only [Scene.apply, phase, hack]
      rfl
    · obtain ⟨log, hack⟩ := Station.acknowledgeResults_of_not_completed hp
      simp only [Scene.apply, phase, hack] at hend ⊢
      cases hl : c'.station.lifecycle.phase with
      | idle => rfl
      | completed => exact absurd hl hp
      | preparing =>
        rw [hl] at hend
        cases hend
      | testing =>
        rw [hl] at hend
        cases hend

/-- At most one run is on its way, and it can always be brought to its end: in every scene that a
schedule without crashes reaches, a run is prepared or tested exactly if it is the current one and
the only test that a run waits for is its own, asked of a worker that is still at work. At other
times no run waits for a test, and so none does once all workers have done all they had to do. Some
moves of one worker and an acknowledgement always free the pipeline, which then takes the next
run. -/
theorem one_run_at_a_time {c : Scene σ} (hr : c.Reached) (h : c.CrashFree) :
    ((c.phase = .preparing ∨ c.phase = .testing) ↔ ∃ run id,
      c.station.current = some run ∧ c.inFlight = [(id, run)] ∧ c.isAtWork id = true) ∧
    ((c.phase = .idle ∨ c.phase = .completed) → c.inFlight = []) ∧
    ((∀ id, c.pending id = [] ∧ Station.queueOf c.station.workers id = []) →
      c.phase = .idle ∨ c.phase = .completed) ∧
    (∃ id moves, (∀ m ∈ moves, m.isOf id = true ∨ m = .acknowledge) ∧
      ((c.run moves).CrashFree → (c.run moves).phase = .idle)) ∧
    (c.phase = .idle → c.station.startTest.1 ≠ .ok false) := by
  have hs := sound_of_reached hr h
  rw [← Phase.isUnderWay_iff, ← Phase.isUnderWay_eq_false_iff]
  refine ⟨⟨fun hp => ?_, ?_⟩, hs.inFlight_eq_nil, fun hq => ?_, hs.exists_idle, fun hp => ?_⟩
  · obtain ⟨id, run, hcur, hi, hw⟩ := hs.inFlight_eq hp
    exact ⟨run, id, hcur, hi, hw⟩
  · rintro ⟨run, id, -, hi, -⟩
    by_contra hn
    rw [hs.inFlight_eq_nil (by simpa using hn)] at hi
    cases hi
  · by_contra hn
    obtain ⟨id, run, -, hstage, -⟩ := hs.flow.of_isUnderWay (by simpa using hn)
    refine hstage.ne_nil ?_
    rw [debts, (hq id).1, (hq id).2]
    rfl
  · have hb := c.station.beginning_startTest
    generalize c.station.startTest = x at hb
    cases hb with
    | unbound => simp
    | busy hn => exact absurd hp hn
    | reached => simp
    | unreached => simp

/-- The fourth run of the rehearsal waits for its test on the second worker. -/
theorem one_run_of_rehearsed : rehearsed.Reached ∧ rehearsed.CrashFree ∧
    rehearsed.phase = .preparing ∧ ∃ run id, rehearsed.station.current = some run ∧
      rehearsed.inFlight = [(id, run)] ∧ rehearsed.isAtWork id = true := by
  have hr : rehearsed.Reached := ⟨fun _ => default, .subscribe EventKind.all :: rehearsal, rfl⟩
  have h : rehearsed.CrashFree := by decide +kernel
  have hp : rehearsed.phase = .preparing := by decide +kernel
  exact ⟨hr, h, hp, (one_run_at_a_time hr h).1.1 (.inl hp)⟩

end LinkTest.Scene
