import LinkTest.Command.Run
import LinkTest.Proofs.Bus.Orderly
import LinkTest.Proofs.Station.Scene

/-!
# The two threads of a test

While a test is made two threads are at work: that of the worker, and that of the caller, who tells
what happens, waits for the outcome and then for the upload, and takes everything down. A trial is
what both have come to. Each turn of it is one step of one of them: the worker takes a message, or
carries out one effect, and the caller receives one event, or does one thing of what is left for it
to do. Which of them has the next turn is not laid down. Time passes in the calls of the worker. It
does not run past the moment up to which the caller waits while an event is there to be received.
-/

namespace LinkTest.Command

/-- How far the caller has come. -/
inductive Stage
  /-- It waits for the outcome. -/
  | awaiting
  /-- It has shown the measurements and waits for the upload. -/
  | lingering
  | acknowledging
  | unsubscribing
  | stopping
  /-- It waits for the worker's thread to end. -/
  | joining
  | finished
deriving DecidableEq, Repr

/-- What a caller goes by. -/
structure Terms (σ : Type) where
  /-- The moment that it is for a server. -/
  clock : σ → Span
  config : Config
  json : Bool
  /-- Up to when the outcome is waited for. -/
  deadline : Span

structure Trial (σ : Type) where
  scene : Scene σ
  stage : Stage
  success : Bool
  output : Output
  /-- When the measurements were shown, if they were. -/
  since : Span

/-- Who has a turn. -/
inductive Actor
  | thread
  | caller

/-- The measurements as they are shown. -/
def shown (json : Bool) (r : Record) : String :=
  if json then r.renderJson ++ "\n" else r.renderTable

theorem telling_append (es fs : List Event) : telling (es ++ fs) = telling es ++ telling fs := by
  simp [telling]

theorem telling_singleton (e : Event) : telling [e] = e.describe ++ "\n" := by
  simp [telling]

namespace Trial

variable {σ : Type}

/-- A run has been started, and nothing was heard of it yet. -/
def start (greeting : String) (s : Station σ) : Trial σ :=
  ⟨⟨s, fun _ => [], fun _ => []⟩, .awaiting, false, ⟨"", greeting⟩, .zero⟩

def now (k : Terms σ) (t : Trial σ) : Span :=
  ((t.scene.station.worker? 0).map fun w => k.clock w.server).getD .zero

/-- The events that can be received. -/
def waiting (t : Trial σ) : List Event := t.scene.station.bus.pendingOf 0

/-- Whether the thread has something to do. -/
def isBusy (t : Trial σ) : Bool :=
  !(t.scene.pending 0).isEmpty || (t.scene.station.worker? 0).any Station.isReady

/-- Whether the time of the caller's wait, if it waits, is not over. -/
def isPatient (k : Terms σ) (t : Trial σ) : Bool :=
  match t.stage with
  | .awaiting => (t.now k).nanos < k.deadline.nanos
  | .lingering => (t.now k).nanos ≤ t.since.nanos + k.config.exchangeTimeout.nanos
  | _ => true

/-- What comes of a wait: an event, or that there was none. Nothing as long as there may be one. -/
def heard? (k : Terms σ) (t : Trial σ) : Option (Option Event) :=
  if t.isPatient k then
    match t.waiting with
    | e :: _ => some (some e)
    | [] => if t.isBusy then none else some none
  else some none

/-- Says something to the second output. -/
def say (text : String) (t : Trial σ) : Trial σ :=
  { t with output := { t.output with err := t.output.err ++ text } }

/-- What is done about an event while the outcome is awaited. -/
def hear (k : Terms σ) (t : Trial σ) : Event → Trial σ
  | .testCompleted r =>
    { t with
      stage := .lingering
      success := true
      since := t.now k
      output := { t.output with out := shown k.json r } }
  | .testFailed reason => { t.say (renderFailure reason) with stage := .unsubscribing }
  | e => t.say (e.describe ++ "\n")

variable {k : Terms σ} {t : Trial σ}

theorem exists_of_heard?_event {e : Event} (h : t.heard? k = some (some e)) :
    t.isPatient k = true ∧ ∃ rest, t.waiting = e :: rest := by
  unfold heard? at h
  split at h
  · next hp =>
    split at h
    · next e' rest hw =>
      obtain rfl : e' = e := by simpa using h
      exact ⟨hp, rest, hw⟩
    · split at h <;> cases h
  · cases h

theorem of_heard?_none (h : t.heard? k = some none) :
    t.isPatient k = false ∨ t.waiting = [] ∧ t.isBusy = false := by
  unfold heard? at h
  split at h
  · split at h
    · cases h
    · next hw =>
      split at h
      · cases h
      · next hb => exact .inr ⟨hw, by simpa using hb⟩
  · next hp => exact .inl (by simpa using hp)

theorem of_heard?_eq_none (h : t.heard? k = none) : t.waiting = [] ∧ t.isBusy = true := by
  unfold heard? at h
  split at h
  · split at h
    · cases h
    · next hw =>
      split at h
      · next hb => exact ⟨hw, hb⟩
      · cases h
  · cases h

theorem hear_of_not_outcome {e : Event} (h : Bench.isOutcome e = false) (k : Terms σ)
    (t : Trial σ) : t.hear k e = t.say (e.describe ++ "\n") := by
  cases e <;> first | rfl | cases h

variable [Server σ]

def move (m : Scene.Move σ) (t : Trial σ) : Trial σ := { t with scene := t.scene.apply m }

def threadTurn (k : Terms σ) (t : Trial σ) : Option (Trial σ) :=
  if (t.scene.pending 0).isEmpty then
    if t.isBusy && (t.waiting.isEmpty || (t.move (.take 0)).isPatient k) then
      some (t.move (.take 0))
    else none
  else some (t.move (.carry 0))

/-- What comes of the wait for the outcome. -/
def awaited (k : Terms σ) (t : Trial σ) : Option Event → Trial σ
  | some e => (t.move (.receive 0)).hear k e
  | none => { t.say (renderFailure lateReason) with stage := .unsubscribing }

/-- What comes of the wait for the upload. -/
def lingered (t : Trial σ) : Option Event → Trial σ
  | some e => { (t.move (.receive 0)).say (e.describe ++ "\n") with stage := .acknowledging }
  | none => { t with stage := .acknowledging }

def callerTurn (k : Terms σ) (t : Trial σ) : Option (Trial σ) :=
  match t.stage with
  | .awaiting => (t.heard? k).map (t.awaited k)
  | .lingering => (t.heard? k).map t.lingered
  | .acknowledging => some { t.move .acknowledge with stage := .unsubscribing }
  | .unsubscribing => some { t.move (.unsubscribe 0) with stage := .stopping }
  | .stopping => some { t.move (.stopWorker 0) with stage := .joining }
  | .joining => if t.isBusy then none else some { t with stage := .finished }
  | .finished => none

/-- The turn of one of the two, if it can do something. -/
def turn (k : Terms σ) (t : Trial σ) (a : Actor) : Option (Trial σ) :=
  if t.stage = .finished then none
  else
    match a with
    | .thread => t.threadTurn k
    | .caller => t.callerTurn k

/-- Some turns lead from one trial to another. -/
inductive Leads (k : Terms σ) : Trial σ → Trial σ → Prop
  | refl (t : Trial σ) : Leads k t t
  | turn {t t' t'' : Trial σ} {a : Actor} (h : t.turn k a = some t') (hl : Leads k t' t'') :
    Leads k t t''

/-- Whatever turns are taken, there is always one that can be taken until the trial is over, it is
over after finitely many, and then this can be said of it. -/
inductive Ends (k : Terms σ) (P : Trial σ → Prop) : Trial σ → Prop
  | finished {t : Trial σ} (hs : t.stage = .finished) (hp : P t) : Ends k P t
  | turn {t : Trial σ} (able : ∃ a t', t.turn k a = some t')
    (h : ∀ a t', t.turn k a = some t' → Ends k P t') : Ends k P t

variable {t' t'' : Trial σ}

theorem Leads.trans (h : Leads k t t') (h' : Leads k t' t'') : Leads k t t'' := by
  induction h with
  | refl => exact h'
  | turn ht _ ih => exact .turn ht (ih h')

theorem Leads.single {a : Actor} (h : t.turn k a = some t') : Leads k t t' := .turn h (.refl t')

theorem turn_of_finished (h : t.stage = .finished) (a : Actor) : t.turn k a = none := if_pos h

theorem exists_threadTurn (hb : t.isBusy = true)
    (hw : t.waiting = [] ∨ (t.move (.take 0)).isPatient k = true) :
    ∃ t', t.threadTurn k = some t' := by
  unfold threadTurn
  split
  · exact ⟨_, if_pos (by simpa [hb] using hw)⟩
  · exact ⟨_, rfl⟩

/-- One of the two threads can take a turn until the trial is over. -/
theorem exists_turn (k : Terms σ) (ho : t.stage ≠ .finished) : ∃ a t', t.turn k a = some t' := by
  have hthread : (∃ t', t.threadTurn k = some t') → ∃ a t', t.turn k a = some t' :=
    fun ⟨t', ht⟩ => ⟨.thread, t', (if_neg ho).trans ht⟩
  have hcaller : (∃ t', t.callerTurn k = some t') → ∃ a t', t.turn k a = some t' :=
    fun ⟨t', ht⟩ => ⟨.caller, t', (if_neg ho).trans ht⟩
  have hwait : (∀ o, t.heard? k = some o → ∃ t', t.callerTurn k = some t') →
      ∃ a t', t.turn k a = some t' := fun hc => by
    cases hh : t.heard? k with
    | some o => exact hcaller (hc o hh)
    | none =>
      obtain ⟨hw, hb⟩ := of_heard?_eq_none hh
      exact hthread (exists_threadTurn hb (.inl hw))
  cases hs : t.stage with
  | awaiting =>
    exact hwait fun o hh => ⟨t.awaited k o, by simp only [callerTurn, hs, hh, Option.map_some]⟩
  | lingering =>
    exact hwait fun o hh => ⟨t.lingered o, by simp only [callerTurn, hs, hh, Option.map_some]⟩
  | acknowledging =>
    exact hcaller ⟨{ t.move .acknowledge with stage := .unsubscribing },
      by simp only [callerTurn, hs]⟩
  | unsubscribing =>
    exact hcaller ⟨{ t.move (.unsubscribe 0) with stage := .stopping },
      by simp only [callerTurn, hs]⟩
  | stopping =>
    exact hcaller ⟨{ t.move (.stopWorker 0) with stage := .joining },
      by simp only [callerTurn, hs]⟩
  | joining =>
    cases hb : t.isBusy with
    | true => exact hthread (exists_threadTurn hb (.inr (by simp only [isPatient, move, hs])))
    | false =>
      exact hcaller ⟨{ t with stage := .finished },
        by simp only [callerTurn, hs, hb, if_neg Bool.false_ne_true]⟩
  | finished => exact absurd hs ho

/-- What is said of every end holds of each end that turns lead to. -/
theorem Ends.of_leads {P : Trial σ → Prop} (h : Ends k P t) (hl : Leads k t t')
    (ho : t'.stage = .finished) : P t' := by
  induction hl with
  | refl t =>
    cases h with
    | finished hs hp => exact hp
    | turn able h =>
      obtain ⟨a, t', ht⟩ := able
      rw [turn_of_finished ho] at ht
      cases ht
  | @turn t t' t'' a ht _ ih =>
    cases h with
    | finished hs hp =>
      rw [turn_of_finished hs] at ht
      cases ht
    | turn able h => exact ih (h a t' ht) ho

end Trial
end LinkTest.Command
