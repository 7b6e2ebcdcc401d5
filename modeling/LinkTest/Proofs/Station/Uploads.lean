import LinkTest.Proofs.Station.Dispatch
import LinkTest.Proofs.Station.Filing
import LinkTest.Proofs.Station.Records

/-!
# Accounting for uploads

A ledger notes what becomes of the record of each run: when it is announced, to which worker it is
sent, how the call for it ends, and what the run is told of that. What the ledger says of one run is
its docket, and whatever the docket leaves open is due of exactly one worker.
-/

namespace LinkTest

/-- Only runs send off their records. -/
theorem Message.upload?_of_forRun? {m : Message} (h : m.forRun? = none) : m.upload? = none := by
  cases m with
  | report r t =>
    cases t with
    | none => rfl
    | some t =>
      cases t with
      | target id kind => rfl
      | run run => cases h
  | _ => rfl

/-- The record that a worker is to upload from the moment in which it is sent to it. -/
def Errand.ofSent (run : RunId) (id : Nat) : Filing → Option Errand
  | .sent of r worker => if of = run ∧ worker = id then some (upload r) else none
  | _ => none

namespace Scene

variable {σ : Type}

/-- What a worker has still to see to for an upload of a run. -/
def errands (c : Scene σ) (run : RunId) (id : Nat) : List Errand :=
  Errand.ofEffects run (c.pending id) ++ Errand.ofQueue run (Station.queueOf c.station.workers id)

/-- What the ledger says of one run. -/
def docketOf (run : RunId) (es : List Filing) : List Filing := es.filter fun f => f.run = run

@[simp] theorem docketOf_append (run : RunId) (es fs : List Filing) :
    docketOf run (es ++ fs) = docketOf run es ++ docketOf run fs := List.filter_append es fs

theorem docketOf_eq_self {run : RunId} {es : List Filing} (h : ∀ f ∈ es, f.run = run) :
    docketOf run es = es :=
  List.filter_eq_self.2 fun f hf => decide_eq_true (h f hf)

theorem docketOf_eq_nil {run : RunId} {es : List Filing} (h : ∀ f ∈ es, f.run ≠ run) :
    docketOf run es = [] :=
  List.filter_eq_nil_iff.2 fun f hf => by simpa using h f hf

/-! ## The ledger -/

/-- The worker that takes its oldest message when it is its turn: one that is there, is not held and
is done with the message before. -/
def taker? (c : Scene σ) (id : Nat) : Option (Worker σ) :=
  (c.station.worker? id).filter fun w => (c.pending id).isEmpty && !w.held

theorem taker?_eq_some_iff {c : Scene σ} {id : Nat} {w : Worker σ} : c.taker? id = some w ↔
    c.station.worker? id = some w ∧ c.pending id = [] ∧ w.held = false := by
  simp [taker?, Option.filter_eq_some_iff]

variable [Server σ]

theorem take_cases (id : Nat) (c : Scene σ) : c.taker? id = none ∧ c.take id = c ∨
    ∃ w stamps stamped, c.taker? id = some w ∧ c.take id = { c with
      station := { c.station with
        stamped := stamped
        workers := c.station.workers.set id (w.step stamps).1 }
      pending := Function.update c.pending id (w.step stamps).2 } := by
  cases ht : c.taker? id with
  | none =>
    refine .inl ⟨rfl, ?_⟩
    unfold take
    cases hw : c.station.worker? id with
    | none => rfl
    | some w =>
      refine if_neg fun hf => ?_
      have hf : c.pending id = [] ∧ w.held = false := by simpa using hf
      rw [taker?_eq_some_iff.2 ⟨hw, hf⟩] at ht
      cases ht
  | some w =>
    obtain ⟨hw, hp, hh⟩ := taker?_eq_some_iff.1 ht
    obtain ⟨stamps, stamped, h⟩ := take_of_free hw hp hh
    exact .inr ⟨w, stamps, stamped, rfl, h⟩

/-- The upload that is made for a run in a move, and how the call ends. -/
def uploaded? (c : Scene σ) : Move σ → Option (RunId × Record × Outcome Receipt)
  | .take id => (c.taker? id).bind Worker.upload?
  | _ => none

def called (c : Scene σ) (m : Move σ) : List Filing :=
  (c.uploaded? m).toList.map fun (run, r, outcome) => .called run r outcome

/-- What a run is told, and what is announced of it then. -/
def told (c : Scene σ) : Move σ → List Filing
  | .carry id =>
    match c.pending id with
    | .reply (.run run) (.reportFailed reason) :: _ => [.denied run reason]
    | .reply (.run run) _ :: _ => (c.published (.carry id)).filterMap (Filing.ofEvent run)
    | _ => []
  | _ => []

/-- The records that come to the end of some queue. -/
def sentOff (c : Scene σ) (m : Move σ) : List Filing :=
  (List.range (c.apply m).station.workers.length).flatMap fun id =>
    (c.posted m id).filterMap fun x => x.upload?.map fun (run, r) => .sent run r id

def filings (c : Scene σ) (m : Move σ) : List Filing := c.called m ++ c.told m ++ c.sentOff m

/-- The ledger of a schedule. -/
def filed (c : Scene σ) : List (Move σ) → List Filing
  | [] => []
  | m :: rest => c.filings m ++ (c.apply m).filed rest

theorem filed_concat (c : Scene σ) (moves : List (Move σ)) (m : Move σ) :
    c.filed (moves ++ [m]) = c.filed moves ++ (c.run moves).filings m := by
  induction moves generalizing c with
  | nil => simp [filed]
  | cons m' rest ih => simp only [List.cons_append, filed, run_cons, ih, List.append_assoc]

/-! ## What a move notes -/

/-- A move that publishes these events and changes neither the lifecycle nor the current run. -/
structure Calm (c : Scene σ) (m : Move σ) (news : List Event) : Prop where
  published : c.published m = news
  lifecycle : (c.apply m).station.lifecycle = c.station.lifecycle
  current : (c.apply m).station.current = c.station.current

/-- The upload of a run is sent to the worker that is bound. It is refused if that one is not
open. -/
inductive Dispatched (c : Scene σ) (run : RunId) (r : Record) : List Filing → Prop
  | sent {id : Nat} {w : Worker σ} (hb : c.station.bound = some id)
    (hw : c.station.worker? id = some w) (ho : w.isOpen = true) :
    Dispatched c run r [.sent run r id]
  | refused {id : Nat} (hb : c.station.bound = some id)
    (hw : ∀ w, c.station.worker? id = some w → w.isOpen = false) : Dispatched c run r []

/-- All that can be noted of a move, and how it changes what is due. -/
inductive Filed (c : Scene σ) : Move σ → List Filing → Prop
  | quiet {m : Move σ} (hn : ∀ e ∈ c.published m, e.kind = .phaseChanged)
    (hd : ∀ run j, (c.apply m).errands run j = c.errands run j) : Filed c m []
  /-- Whatever message is taken, and however a call ends. -/
  | taken (id : Nat) (h : Calm c (.take id) []) : Filed c (.take id) (c.called (.take id))
  /-- The phase, the latest record and the events are the same whether or not the upload is
  refused. -/
  | completed {id : Nat} {run : RunId} {r : Record} {rest : List Effect} {sent : List Filing}
    (hp : c.pending id = .reply (.run run) (.finished r) :: rest) (hr : r.isValid = true)
    (hn : c.published (.carry id) = [.phaseChanged .testing .completed, .testCompleted r])
    (hl : (c.apply (.carry id)).station.lifecycle =
      { c.station.lifecycle.enter .completed with latest := some r })
    (hc : (c.apply (.carry id)).station.current = some run) (hs : Dispatched c run r sent)
    (hd : ∀ other j, (c.apply (.carry id)).errands other j =
      c.errands other j ++ sent.filterMap (Errand.ofSent other j)) :
    Filed c (.carry id) (.completed run r :: sent)
  | failed {id : Nat} {run : RunId} {r : Record} {rest : List Effect}
    (hp : c.pending id = .reply (.run run) (.finished r) :: rest) (hr : r.isValid = false)
    (hn : (c.published (.carry id)).filter (·.kind ≠ .phaseChanged) = [.testFailed r.reason])
    (hd : ∀ other j, (c.apply (.carry id)).errands other j = c.errands other j) :
    Filed c (.carry id) [.failed run r.reason]
  | announced {id : Nat} {run : RunId} {receipt : Receipt} {rest : List Effect}
    (hp : c.pending id = .reply (.run run) (.reported receipt) :: rest)
    (h : Calm c (.carry id) [.reportRouter receipt])
    (hd : ∀ other j, c.errands other j =
      (if other = run ∧ j = id then [.receipt receipt] else []) ++
        (c.apply (.carry id)).errands other j) : Filed c (.carry id) [.announced run receipt]
  | denied {id : Nat} {run : RunId} {reason : String} {rest : List Effect}
    (hp : c.pending id = .reply (.run run) (.reportFailed reason) :: rest)
    (h : Calm c (.carry id) [])
    (hd : ∀ other j, c.errands other j =
      (if other = run ∧ j = id then [.refusal reason] else []) ++
        (c.apply (.carry id)).errands other j) : Filed c (.carry id) [.denied run reason]

/-! ## Queues and effects -/

/-- What a move takes off the effects of a worker and adds to its queue. -/
theorem errands_apply {c : Scene σ} {m : Move σ} {j : Nat} {done : List Effect} {ms : List Message}
    (hp : c.pending j = done ++ (c.apply m).pending j)
    (hq : Station.queueOf (c.apply m).station.workers j =
      Station.queueOf c.station.workers j ++ ms) (run : RunId) :
    c.errands run j ++ Errand.ofQueue run ms =
      Errand.ofEffects run done ++ (c.apply m).errands run j := by
  simp only [errands, hp, hq, Errand.ofEffects_append, Errand.ofQueue_append, List.append_assoc]

theorem sentOff_of_upload? {c : Scene σ} {m : Move σ}
    (h : ∀ j, ∀ x ∈ c.posted m j, x.upload? = none) : c.sentOff m = [] := by
  refine List.flatMap_eq_nil_iff.2 fun j _ => List.filterMap_eq_nil_iff.2 fun x hx => ?_
  rw [h j x hx]
  rfl

theorem sentOff_of_one {c : Scene σ} {m : Move σ} {id : Nat} {run : RunId} {r : Record}
    (hid : id < (c.apply m).station.workers.length)
    (h : ∀ j, c.posted m j = if j = id then [.report r (some (.run run))] else []) :
    c.sentOff m = [.sent run r id] := by
  have hother : ∀ j, j ≠ id →
      ((c.posted m j).filterMap fun x => x.upload?.map fun (run, r) => Filing.sent run r j) = [] :=
    fun j hj => by rw [h j, if_neg hj]; rfl
  rw [sentOff, flatMap_range hother, if_pos hid, h id, if_pos rfl]
  rfl

/-- A move in which no upload is sent, and after which the same is due. -/
theorem Filed.of_quiet {c : Scene σ} {m : Move σ} (hc : c.called m = []) (ht : c.told m = [])
    (hn : ∀ e ∈ c.published m, e.kind = .phaseChanged)
    (hq : ∀ j, ∃ ms, Station.queueOf (c.apply m).station.workers j =
      Station.queueOf c.station.workers j ++ ms ∧ ∀ x ∈ ms, x.upload? = none)
    (hp : ∀ j, ∃ done, c.pending j = done ++ (c.apply m).pending j ∧
      ∀ run, Errand.ofEffects run done = []) : Filed c m (c.filings m) := by
  have hs : c.sentOff m = [] := sentOff_of_upload? fun j x hx => by
    obtain ⟨ms, hq, hms⟩ := hq j
    rw [posted_of_append hq] at hx
    exact hms x hx
  rw [filings, hc, ht, hs]
  refine .quiet hn fun run j => ?_
  obtain ⟨ms, hq, hms⟩ := hq j
  obtain ⟨done, hp, hdone⟩ := hp j
  have hd := errands_apply hp hq run
  rw [Errand.ofQueue_of_upload? run hms, hdone, List.append_nil, List.nil_append] at hd
  exact hd.symm

theorem filed_of_not_driving {m : Move σ} (hm : m.isDriving = false) (c : Scene σ) :
    Filed c m (c.filings m) := by
  refine .of_quiet ?_ ?_ ?_ (fun j => ?_) fun j => ⟨[], ?_, fun _ => rfl⟩
  · cases m <;> first | rfl | cases hm
  · cases m <;> first | rfl | cases hm
  · rw [published_of_not_driving hm]
    simp
  · obtain ⟨ms, hq, hms⟩ := (beside_of_not_driving hm c).handed.queueOf_append j
    exact ⟨ms, hq, fun x hx => Message.upload?_of_forRun? (hms x hx)⟩
  · rw [(aside_of_not_driving hm c).pending]
    rfl

/-- What a caller does to runs sends no upload. -/
theorem filed_of_call {m : Move σ} (hm : m = .startTest ∨ m = .acknowledge) (c : Scene σ) :
    Filed c m (c.filings m) := by
  have hl : m.isListening = false := by rcases hm with rfl | rfl <;> rfl
  have hcalled : c.called m = [] := by rcases hm with rfl | rfl <;> rfl
  have htold : c.told m = [] := by rcases hm with rfl | rfl <;> rfl
  have hpend : (c.apply m).pending = c.pending := by rcases hm with rfl | rfl <;> rfl
  obtain ⟨news, c', log, hn, h, hc⟩ := c.made hl
  have hfiled : (∀ e ∈ news, e.kind = .phaseChanged) → (∀ j, ∃ ms,
      Station.queueOf c'.station.workers j = Station.queueOf c.station.workers j ++ ms ∧
        ∀ x ∈ ms, x.upload? = none) → Filed c m (c.filings m) := by
    intro he hq
    refine .of_quiet hcalled htold (hn ▸ he) (by rw [hc]; exact hq) fun j => ⟨[], ?_, fun _ => rfl⟩
    rw [hpend]
    rfl
  have hkept : ∀ j, ∃ ms, Station.queueOf c.station.workers j =
      Station.queueOf c.station.workers j ++ ms ∧ ∀ x ∈ ms, x.upload? = none :=
    fun j => ⟨[], by simp⟩
  cases h with
  | aside ha => rcases hm with rfl | rfl <;> cases ha
  | taken => simp at hm
  | waited => simp at hm
  | carried => simp at hm
  | refused => exact hfiled (by simp) hkept
  | unreached => exact hfiled (by simp [Event.kind]) hkept
  | acknowledged => exact hfiled (by simp [Event.kind]) hkept
  | reached hb hp hw ho =>
    refine hfiled (by simp [Event.kind]) fun j => ⟨_, Station.queueOf_set hw rfl j, ?_⟩
    split <;> simp [Message.upload?]

theorem filed_take (id : Nat) (c : Scene σ) : Filed c (.take id) (c.filings (.take id)) := by
  have hs : c.sentOff (.take id) = [] := sentOff_of_upload? fun j x hx => by
    rw [posted_take] at hx
    cases hx
  have hcalm : Calm c (.take id) [] := by
    obtain ⟨-, -, hl, hcur⟩ := c.take_frame id
    refine ⟨?_, hl, hcur⟩
    obtain ⟨news, c', log, hn, h, -⟩ := c.made (m := .take id) rfl
    rw [hn]
    cases h with
    | aside hm => rfl
    | refused => rfl
    | taken => rfl
  rw [filings, hs, List.append_nil]
  exact (List.append_nil (c.called (.take id))).symm ▸ .taken id hcalm

theorem pending_carry {c : Scene σ} {id : Nat} {e : Effect} {rest : List Effect}
    (hp : c.pending id = e :: rest) (j : Nat) :
    c.pending j = (if j = id then [e] else []) ++ (c.apply (.carry id)).pending j := by
  rw [carry_of_cons hp]
  by_cases hj : j = id
  · subst hj
    simp [hp]
  · simp [hj]

/-- The next effect of a worker, if it sends nothing and tells no run what has become of an
upload. -/
theorem filed_carry_of_quiet {c : Scene σ} {id : Nat} {e : Effect} {rest : List Effect}
    (hp : c.pending id = e :: rest) {news : List Event} {t : Station σ}
    (h : ∀ b log, ∃ log', (c.station.wired b log).perform e = t.wired (b.publishAll news) log')
    (he : ∀ run, Errand.ofEffects run [e] = []) (hw : t.workers = c.station.workers)
    (hn : ∀ x ∈ news, x.kind = .phaseChanged) : Filed c (.carry id) (c.filings (.carry id)) := by
  obtain ⟨hpub, log, hc⟩ := carried hp h
  have hnone : ∀ run, news.filterMap (Filing.ofEvent run) = [] := fun run =>
    List.filterMap_eq_nil_iff.2 fun x hx => by
      have hk := hn x hx
      cases x with
      | phaseChanged => rfl
      | _ => cases hk
  refine .of_quiet rfl ?_ (hpub ▸ hn) (fun j => ⟨[], ?_, by simp⟩) fun j =>
    ⟨_, pending_carry hp j, ?_⟩
  · simp only [told, hp, hpub]
    cases e with
    | note n => rfl
    | reply recipient reply =>
      cases recipient with
      | target k kind => rfl
      | run run =>
        cases reply with
        | reportFailed reason => simpa [Errand.ofEffects, Errand.ofReply] using he run
        | _ => exact hnone run
  · rw [hc, List.append_nil]
    exact congrArg (Station.queueOf · j) hw
  · intro run
    split
    · exact he run
    · rfl

/-- A run is told what has become of its upload, and at most this is announced. -/
theorem settled_carry {c : Scene σ} {id : Nat} {run : RunId} {reply : Reply} {rest : List Effect}
    (d : Errand) (news : List Event) (hp : c.pending id = .reply (.run run) reply :: rest)
    (h : ∀ b log, ∃ log', (c.station.wired b log).perform (.reply (.run run) reply) =
      c.station.wired (b.publishAll news) log')
    (hd : ∀ other, Errand.ofReply other (.run run, reply) = if run = other then some d else none) :
    c.sentOff (.carry id) = [] ∧ Calm c (.carry id) news ∧
      ∀ other j, c.errands other j = (if other = run ∧ j = id then [d] else []) ++
        (c.apply (.carry id)).errands other j := by
  obtain ⟨hpub, log, hc⟩ := carried hp h
  have hq : ∀ j, Station.queueOf (c.apply (.carry id)).station.workers j =
      Station.queueOf c.station.workers j ++ [] := fun j => by
    rw [hc, List.append_nil]
    rfl
  refine ⟨sentOff_of_upload? fun j x hx => ?_, ⟨hpub, by rw [hc]; rfl, by rw [hc]; rfl⟩,
    fun other j => ?_⟩
  · rw [posted_of_append (hq j)] at hx
    cases hx
  · have herrands := errands_apply (pending_carry hp j) (hq j) other
    rw [Errand.ofQueue_nil, List.append_nil] at herrands
    rw [herrands]
    congr 1
    by_cases hj : j = id
    · by_cases hrun : run = other
      · subst hrun
        simp [hj, Errand.ofEffects, hd]
      · simp [hj, hrun, Ne.symm hrun, Errand.ofEffects, hd]
    · simp [hj, Errand.ofEffects]

theorem filed_carry_finished {c : Scene σ} {id : Nat} {run : RunId} {r : Record}
    {rest : List Effect} (hp : c.pending id = .reply (.run run) (.finished r) :: rest)
    (hr : r.isValid = true) (hcur : c.station.current = some run) (hph : c.phase = .testing)
    (workers : List (Worker σ)) (ms : Nat → List Message) (sent : List Filing)
    (hs : ∀ t : Station σ, t.bound = c.station.bound → t.workers = c.station.workers →
      ∃ log, t.submit run r = { t with workers := workers, log := log })
    (hq : ∀ j, Station.queueOf workers j = Station.queueOf c.station.workers j ++ ms j)
    (hms : ∀ other j, Errand.ofQueue other (ms j) = sent.filterMap (Errand.ofSent other j))
    (hsent : (∀ j, c.posted (.carry id) j = ms j) →
      (c.apply (.carry id)).station.workers = workers → c.sentOff (.carry id) = sent)
    (hd : Dispatched c run r sent) : Filed c (.carry id) (c.filings (.carry id)) := by
  obtain ⟨hpub, log, hc⟩ := carried (t := { c.station with
      lifecycle := { c.station.lifecycle.enter .completed with latest := some r }
      workers := workers }) hp fun b log =>
    Station.onReply_finished_of_testing (s := c.station.wired b log) hcur hph hr fun t => hs t
  have htold : c.told (.carry id) = [.completed run r] := by
    simp only [told, hp, hpub]
    rfl
  have hall : c.filings (.carry id) = .completed run r :: sent := by
    have hs := hsent (fun j => posted_of_append (by rw [hc]; exact hq j)) (by rw [hc]; rfl)
    rw [filings, htold, hs]
    rfl
  rw [hall]
  refine .completed hp hr hpub (by rw [hc]; rfl) (by rw [hc]; exact hcur) hd fun other j => ?_
  have herrands := errands_apply (pending_carry hp j) (by rw [hc]; exact hq j) other
  rw [hms] at herrands
  rw [herrands]
  split <;> simp [Errand.ofEffects, Errand.ofReply]

theorem filed_carry_of_testing {c : Scene σ} {id : Nat} {run : RunId} {r : Record}
    {rest : List Effect} (hp : c.pending id = .reply (.run run) (.finished r) :: rest)
    (hr : r.isValid = true) (hcur : c.station.current = some run) (hph : c.phase = .testing)
    {k : Nat} (hb : c.station.bound = some k) : Filed c (.carry id) (c.filings (.carry id)) := by
  rcases c.station.open_or_closed k with ⟨w, hw, ho⟩ | hclosed
  · refine filed_carry_finished hp hr hcur hph
      (c.station.workers.set k { w with queue := w.queue ++ [.report r (some (.run run))] })
      (fun j => if j = k then [.report r (some (.run run))] else []) [.sent run r k]
      (fun t ht hws => ?_) (Station.queueOf_set hw rfl)
      (fun other j => ?_) (fun hposted hws => ?_) (.sent hb hw ho)
    · rw [← hws]
      exact Station.submit_of_open run r (ht.trans hb) (by rw [Station.worker?, hws]; exact hw) ho
    · by_cases hj : j = k
      · by_cases hrun : run = other
        · simp [hj, hrun, Errand.ofSent, Errand.ofQueue, Errand.ofMessage, Message.upload?]
        · simp [hj, hrun, Errand.ofSent, Errand.ofQueue, Errand.ofMessage, Message.upload?]
      · simp [hj, Ne.symm hj, Errand.ofSent]
    · refine sentOff_of_one ?_ hposted
      rw [hws, List.length_set]
      exact Station.mem_workers_of_worker? hw
  · refine filed_carry_finished hp hr hcur hph c.station.workers (fun _ => []) []
      (fun t ht hws => ?_) (fun j => (List.append_nil _).symm) (fun other j => rfl)
      (fun hposted _ => sentOff_of_upload? (by simp [hposted])) (.refused hb hclosed)
    rw [← hws]
    refine Station.submit_of_closed run r fun i w hi hw => ?_
    obtain rfl : k = i := Option.some.inj (hb.symm.trans (ht.symm.trans hi))
    rw [Station.worker?, hws] at hw
    exact hclosed w hw

theorem filed_carry_of_invalid {c : Scene σ} {id : Nat} {run : RunId} {r : Record}
    {rest : List Effect} (hp : c.pending id = .reply (.run run) (.finished r) :: rest)
    (hr : r.isValid = false) {news : List Event} {t : Station σ}
    (h : ∀ b log, ∃ log', (c.station.wired b log).perform (.reply (.run run) (.finished r)) =
      t.wired (b.publishAll news) log')
    (hw : t.workers = c.station.workers)
    (hf : news.filterMap (Filing.ofEvent run) = [.failed run r.reason])
    (hn : news.filter (·.kind ≠ .phaseChanged) = [.testFailed r.reason]) :
    Filed c (.carry id) (c.filings (.carry id)) := by
  obtain ⟨hpub, log, hc⟩ := carried hp h
  have hq : ∀ j, Station.queueOf (c.apply (.carry id)).station.workers j =
      Station.queueOf c.station.workers j ++ [] := fun j => by
    rw [hc, List.append_nil]
    exact congrArg (Station.queueOf · j) hw
  have hs : c.sentOff (.carry id) = [] := sentOff_of_upload? fun j x hx => by
    rw [posted_of_append (hq j)] at hx
    cases hx
  have htold : c.told (.carry id) = [.failed run r.reason] := by
    simp only [told, hp, hpub]
    exact hf
  have hall : c.filings (.carry id) = [.failed run r.reason] := by
    rw [filings, htold, hs]
    rfl
  rw [hall]
  refine .failed hp hr (hpub ▸ hn) fun other j => ?_
  have herrands := errands_apply (pending_carry hp j) (hq j) other
  rw [Errand.ofQueue_nil, List.append_nil] at herrands
  rw [herrands]
  split <;> simp [Errand.ofEffects, Errand.ofReply]

theorem filed_carry_of_nil {c : Scene σ} {id : Nat} (hp : c.pending id = []) :
    Filed c (.carry id) (c.filings (.carry id)) := by
  have hc : c.apply (.carry id) = c := by simp only [apply, carry, hp]
  refine .of_quiet rfl (by simp only [told, hp]) ?_ (fun j => ⟨[], by simp [hc]⟩) fun j =>
    ⟨[], by simp [hc], fun _ => rfl⟩
  obtain ⟨news, c', log, hn, h, -⟩ := c.made (m := .carry id) rfl
  rw [hn]
  cases h with
  | aside => simp
  | refused => simp
  | waited => simp
  | carried hp' =>
    rw [hp] at hp'
    cases hp'

/-- A run is told something, whether or not it still waits for it. -/
theorem filed_carry_of_reply {c : Scene σ} {id : Nat} {run : RunId} {reply : Reply}
    {rest : List Effect} {news : List Event} {t : Station σ}
    (hb : ∀ run, c.station.current = some run → ∃ k, c.station.bound = some k)
    (hp : c.pending id = .reply (.run run) reply :: rest)
    (hr : c.station.Replied run reply news t)
    (ht : ∀ b log, ∃ log', (c.station.wired b log).perform (.reply (.run run) reply) =
      t.wired (b.publishAll news) log') : Filed c (.carry id) (c.filings (.carry id)) := by
  cases reply with
  | started =>
    cases hr with
    | ignored => exact filed_carry_of_quiet hp ht (fun _ => rfl) rfl (by simp)
    | begun => exact filed_carry_of_quiet hp ht (fun _ => rfl) rfl (by simp [Event.kind])
  | reported receipt =>
    obtain ⟨hs, hcalm, hd⟩ := settled_carry (.receipt receipt) [.reportRouter receipt] hp
      (fun b log => ⟨_, rfl⟩) fun _ => rfl
    have htold : c.told (.carry id) = [.announced run receipt] := by
      simp only [told, hp, hcalm.published]
      rfl
    rw [filings, htold, hs]
    exact .announced hp hcalm hd
  | reportFailed reason =>
    obtain ⟨hs, hcalm, hd⟩ := settled_carry (.refusal reason) [] hp
      (fun b log => ⟨_, rfl⟩) fun _ => rfl
    have htold : c.told (.carry id) = [.denied run reason] := by simp only [told, hp]
    rw [filings, htold, hs]
    exact .denied hp hcalm hd
  | finished r =>
    by_cases hend : c.station.current = some run ∧ c.phase = .testing ∧ r.isValid = true
    · obtain ⟨hcur, hph, hv⟩ := hend
      obtain ⟨k, hk⟩ := hb run hcur
      exact filed_carry_of_testing hp hv hcur hph hk
    · cases hr with
      | ignored => exact filed_carry_of_quiet hp ht (fun _ => rfl) rfl (by simp)
      | completed hcur hph hv => exact absurd ⟨hcur, hph, hv⟩ hend
      | failed hcur hph hv => exact filed_carry_of_invalid hp hv ht rfl rfl (by simp [Event.kind])
      | stray hcur hph hv => exact filed_carry_of_invalid hp hv ht rfl rfl (by simp [Event.kind])

theorem filed_carry {c : Scene σ}
    (hb : ∀ run, c.station.current = some run → ∃ k, c.station.bound = some k) (id : Nat) :
    Filed c (.carry id) (c.filings (.carry id)) := by
  cases hp : c.pending id with
  | nil => exact filed_carry_of_nil hp
  | cons e rest =>
    obtain ⟨news, t, h, ht⟩ := c.station.performed e
    cases h with
    | noted n => exact filed_carry_of_quiet hp ht (fun _ => rfl) rfl (by simp)
    | deposited k kind reply targets =>
      exact filed_carry_of_quiet hp ht (fun _ => rfl) rfl (by simp)
    | replied hr => exact filed_carry_of_reply hb hp hr ht

theorem filed_apply {c : Scene σ}
    (hb : ∀ run, c.station.current = some run → ∃ k, c.station.bound = some k) (m : Move σ) :
    Filed c m (c.filings m) := by
  cases hm : m.isDriving with
  | false => exact filed_of_not_driving hm c
  | true =>
    cases m with
    | startTest => exact filed_of_call (.inl rfl) c
    | acknowledge => exact filed_of_call (.inr rfl) c
    | take id => exact filed_take id c
    | carry id => exact filed_carry hb id
    | _ => cases hm

end Scene
end LinkTest
