import LinkTest.Proofs.Station.Publishing

/-!
# The course of one run

A worker that makes one run, and nothing else, goes through the same few places whatever is done
beside it. At each of them all of its state is known, and so is what it still has to hand over and
what it has published; each of its turns leaves it where it is or leads to a later place.
-/

namespace LinkTest

/-- The result of a call that ends. -/
def Outcome.verdict {α : Type} (limit : Span) (o : Outcome α) : Except Failure α :=
  (o.result? limit).getD (.error (.timeout limit))

theorem Outcome.result?_eq_verdict {α : Type} (limit : Span) {o : Outcome α} (h : o ≠ .crashed) :
    o.result? limit = some (o.verdict limit) := by
  cases o with
  | crashed => exact absurd rfl h
  | _ => rfl

/-- Every call of such a server ends, by itself or at its limit. -/
structure Server.Steadfast (σ : Type) [Server σ] : Prop where
  login : ∀ limit c (s : σ), (Server.login limit c s).1 ≠ .crashed
  test : ∀ limit t (s : σ), (Server.test limit t s).1 ≠ .crashed
  report : ∀ limit t r (s : σ), (Server.report limit t r s).1 ≠ .crashed

namespace Command

/-- The one run that is made. -/
def theRun : RunId := ⟨0⟩

/-- What a run depends on: the server as it is found, the credentials that it is given and how long
each call may take. -/
structure Brief (σ : Type) where
  server : σ
  own : Credentials
  limit : Span

namespace Brief

variable {σ : Type} [Server σ]

/-! ## What the calls come to -/

def loggedIn (b : Brief σ) : Except Failure SessionToken :=
  (Server.login b.limit b.own b.server).1.verdict b.limit

def afterLogin (b : Brief σ) : σ := (Server.login b.limit b.own b.server).2

def tested (b : Brief σ) (token : SessionToken) : Except Failure Record :=
  (Server.test b.limit token b.afterLogin).1.verdict b.limit

/-- The server once the test was made, if it was. -/
def afterTest (b : Brief σ) : σ :=
  match b.loggedIn with
  | .ok token => (Server.test b.limit token b.afterLogin).2
  | .error _ => b.afterLogin

/-- The valid record that the run comes to, or the reason why there is none. -/
def verdict (b : Brief σ) : Except String Record :=
  match b.loggedIn with
  | .ok token =>
    match b.tested token with
    | .ok r => if r.isValid then .ok r else .error r.reason
    | .error f => .error ("test exchange failed: " ++ f.message)
  | .error f => .error ("login failed: " ++ f.message)

def reported (b : Brief σ) (token : SessionToken) (r : Record) : Except Failure Receipt :=
  (Server.report b.limit token r b.afterTest).1.verdict b.limit

/-- The receipt for the record, if there is one. -/
def receipt? (b : Brief σ) : Option Receipt :=
  match b.loggedIn, b.verdict with
  | .ok token, .ok r => (b.reported token r).toOption
  | _, _ => none

/-- The server once the record was uploaded, if it was. -/
def afterReport (b : Brief σ) : σ :=
  match b.loggedIn, b.verdict with
  | .ok token, .ok r => (Server.report b.limit token r b.afterTest).2
  | _, _ => b.afterTest

def testCall (b : Brief σ) : List Call :=
  match b.loggedIn with
  | .ok token => [.test token]
  | .error _ => []

def reportCall (b : Brief σ) : List Call :=
  match b.loggedIn, b.verdict with
  | .ok token, .ok r => [.report token r]
  | _, _ => []

/-! ## What is published -/

/-- The phase from which the outcome is decided. -/
def lastPhase (b : Brief σ) : Phase :=
  match b.loggedIn with
  | .ok _ => .testing
  | .error _ => .preparing

/-- The changes of phase up to the end of the test. -/
def opening (b : Brief σ) : List Event :=
  match b.loggedIn with
  | .ok _ => [.phaseChanged .idle .preparing, .phaseChanged .preparing .testing]
  | .error _ => [.phaseChanged .idle .preparing]

/-- The change of phase that comes with the outcome. -/
def closing (b : Brief σ) : Event :=
  match b.verdict with
  | .ok _ => .phaseChanged .testing .completed
  | .error _ => .phaseChanged b.lastPhase .idle

def outcome (b : Brief σ) : Event :=
  match b.verdict with
  | .ok r => .testCompleted r
  | .error reason => .testFailed reason

/-- All changes of phase up to the outcome. -/
def preface (b : Brief σ) : List Event := b.opening ++ [b.closing]

end Brief

/-! ## Places -/

/-- How far the worker has come with the run. -/
inductive Place
  /-- Login and test are asked for. -/
  | asked
  | admitted
  /-- The test was made, and it was not said that it had begun. -/
  | begun
  /-- The record is to be handed over. -/
  | examined
  /-- There is a valid record, which is to be uploaded. -/
  | completed
  /-- The upload was made, and it was not said what has come of it. -/
  | uploaded
  /-- Nothing is left to do for the run. -/
  | done
  /-- The worker has ended. -/
  | ended
deriving DecidableEq, Repr

namespace Place

def rank : Place → Nat
  | asked => 7
  | admitted => 6
  | begun => 5
  | examined => 4
  | completed => 3
  | uploaded => 2
  | done => 1
  | ended => 0

/-- Whether the outcome is published. -/
def isDecided (p : Place) : Bool := p.rank ≤ 3

/-- Whether all calls of the run were made. -/
def isLate (p : Place) : Bool := p.rank ≤ 2

theorem isDecided_of_rank_le {p p' : Place} (h : p'.rank ≤ p.rank) (hd : p.isDecided = true) :
    p'.isDecided = true :=
  decide_eq_true (Nat.le_trans h (of_decide_eq_true hd))

theorem isLate_of_rank_le {p p' : Place} (h : p'.rank ≤ p.rank) (hl : p.isLate = true) :
    p'.isLate = true :=
  decide_eq_true (Nat.le_trans h (of_decide_eq_true hl))

theorem isDecided_of_isLate {p : Place} (h : p.isLate = true) : p.isDecided = true :=
  decide_eq_true (Nat.le_succ_of_le (of_decide_eq_true h))

end Place

namespace Brief

variable {σ : Type} [Server σ]

/-! ## What is known at each place -/

def serverAt (b : Brief σ) : Place → σ
  | .asked => b.server
  | .admitted => b.afterLogin
  | .begun | .examined | .completed => b.afterTest
  | .uploaded | .done => b.afterReport
  | .ended => Server.disconnect b.afterReport

def sessionAt (b : Brief σ) : Place → Session
  | .asked | .ended => .loggedOut
  | _ =>
    match b.loggedIn with
    | .ok token => .active token
    | .error f => .failed f.message

def phaseAt (b : Brief σ) : Place → Phase
  | .asked | .admitted | .begun => .preparing
  | .examined => b.lastPhase
  | _ =>
    match b.verdict with
    | .ok _ => .completed
    | .error _ => .idle

def latestAt (b : Brief σ) (p : Place) : Option Record :=
  if p.isDecided then b.verdict.toOption else none

/-- All that was published. -/
def eventsAt (b : Brief σ) : Place → List Event
  | .asked | .admitted | .begun => [.phaseChanged .idle .preparing]
  | .examined => b.opening
  | .completed | .uploaded => b.preface ++ [b.outcome]
  | .done | .ended => b.preface ++ b.outcome :: b.receipt?.toList.map .reportRouter

/-- The messages of the run that are not taken. -/
def queueAt (b : Brief σ) : Place → List Message
  | .asked => [.login none, .requestTest (.run theRun)]
  | .admitted => [.requestTest (.run theRun)]
  | .completed => b.verdict.toOption.toList.map fun r => .report r (some (.run theRun))
  | _ => []

/-- The calls that were made for the run. -/
def callsAt (b : Brief σ) : Place → List Call
  | .asked => []
  | .admitted => [.login b.own]
  | .begun | .examined | .completed => .login b.own :: b.testCall
  | .uploaded | .done => .login b.own :: b.testCall ++ b.reportCall
  | .ended => .login b.own :: b.testCall ++ b.reportCall ++ [.disconnect]

/-- The worker, which was perhaps told to end. -/
def workerAt (b : Brief σ) (p : Place) (told : Bool) : Worker σ where
  server := b.serverAt p
  credentials := b.own
  limit := b.limit
  session := b.sessionAt p
  thread := if p = .ended then .ended else .serving
  owner := if told && p ≠ .ended then .stopping else .present
  running := !told
  queue := b.queueAt p ++ if told && p ≠ .ended then [.quit] else []
  held := false
  calls := b.callsAt p

/-- Whether a record is that of the run, its stamp aside. -/
def Finds (b : Brief σ) (r : Record) : Prop :=
  b.verdict = if r.isValid then .ok r else .error r.reason

/-- Whether some replies are those that are to be handed over. -/
def Owes (b : Brief σ) : Place → List (ReplyTo × Reply) → Prop
  | .begun, l => ∃ r, l = [(.run theRun, .started), (.run theRun, .finished r)] ∧ b.Finds r
  | .examined, l => ∃ r, l = [(.run theRun, .finished r)] ∧ b.Finds r
  | .uploaded, l => match b.receipt? with
    | some receipt => l = [(.run theRun, .reported receipt)]
    | none => ∃ reason, l = [(.run theRun, .reportFailed reason)]
  | _, l => l = []

/-- Whether the run can come to the place. -/
def Admits (b : Brief σ) : Place → Prop
  | .begun => ∃ token, b.loggedIn = .ok token
  | .completed | .uploaded => ∃ r, b.verdict = .ok r
  | _ => True

/-- A station whose worker has come to a place, and what the worker has still to carry out. The
results were perhaps acknowledged, and the worker was perhaps told to end. -/
structure Stands (b : Brief σ) (p : Place) (acknowledged told : Bool) (s : Station σ)
    (pending : List Effect) : Prop where
  admits : b.Admits p
  workers : s.workers = [b.workerAt p told]
  owes : b.Owes p (repliesOf pending)
  bound : s.bound = some 0
  current : p.isDecided = false → s.current = some theRun
  phase : s.lifecycle.phase = if acknowledged then .idle else b.phaseAt p
  latest : s.lifecycle.latest = b.latestAt p
  decided : acknowledged = true → p.isDecided = true
  late : told = true → p.isLate = true
  ended : p = .ended → told = true

variable {b : Brief σ} {p : Place} {acknowledged told : Bool} {r : Record}

theorem exists_of_verdict_ok (h : b.verdict = .ok r) :
    ∃ token, b.loggedIn = .ok token ∧ b.tested token = .ok r ∧ r.isValid = true := by
  unfold verdict at h
  split at h
  · next token hl =>
    split at h
    · next r' ht =>
      split at h
      · next hv =>
        obtain rfl := Except.ok.inj h
        exact ⟨token, hl, ht, hv⟩
      · cases h
    · cases h
  · cases h

/-- A valid record is itself the verdict. -/
theorem Finds.of_valid (h : b.Finds r) (hv : r.isValid = true) : b.verdict = .ok r := by
  rw [h, if_pos hv]

theorem Finds.of_invalid (h : b.Finds r) (hv : r.isValid = false) :
    b.verdict = .error r.reason := by
  rw [h, if_neg (by rw [hv]; exact Bool.false_ne_true)]

theorem finds_failed (stamp : Stamp) {reason : String} (h : b.verdict = .error reason) :
    b.Finds (.failed stamp reason) := h

theorem phaseAt_of_decided (b : Brief σ) (hd : p.isDecided = true) :
    b.phaseAt p = match b.verdict with
      | .ok _ => .completed
      | .error _ => .idle := by
  cases p <;> first | rfl | cases hd

theorem afterReport_of_error (b : Brief σ) {reason : String} (h : b.verdict = .error reason) :
    b.afterReport = b.afterTest := by
  cases hl : b.loggedIn <;> simp [afterReport, hl, h]

theorem reportCall_of_error (b : Brief σ) {reason : String} (h : b.verdict = .error reason) :
    b.reportCall = [] := by
  cases hl : b.loggedIn <;> simp [reportCall, hl, h]

theorem receipt?_of_error (b : Brief σ) {reason : String} (h : b.verdict = .error reason) :
    b.receipt? = none := by
  cases hl : b.loggedIn <;> simp [receipt?, hl, h]

/-! ## Taking a message -/

/-- What a message makes of the worker. -/
structure Advance (b : Brief σ) (p p' : Place) (told : Bool) (next : Worker σ × List Effect) :
    Prop where
  worker : next.1 = b.workerAt p' told
  owes : b.Owes p' (repliesOf next.2)
  admits : b.Admits p'
  later : p'.rank < p.rank
  events : b.eventsAt p' = b.eventsAt p
  phase : b.phaseAt p' = b.phaseAt p
  decided : p'.isDecided = p.isDecided
  ended : p' = .ended → told = true

theorem Advance.of_handle {p' : Place} {stamps : Nat → Stamp} {m : Message} {rest : List Message}
    (ho : (b.workerAt p told).isOpen = true) (hq : (b.workerAt p told).queue = m :: rest)
    (h : b.Advance p p' told ({ b.workerAt p told with queue := rest }.handle stamps m)) :
    b.Advance p p' told ((b.workerAt p told).step stamps) :=
  { h with
    worker := (Worker.step_fst stamps ho hq).trans h.worker
    owes := by
      rw [Worker.repliesOf_step stamps ho hq]
      exact h.owes }

theorem advance_asked (hs : Server.Steadfast σ) (b : Brief σ) (stamps : Nat → Stamp) :
    b.Advance .asked .admitted false ((b.workerAt .asked false).step stamps) := by
  have hr : (Server.login b.limit b.own b.server).1.result? b.limit = some b.loggedIn :=
    Outcome.result?_eq_verdict b.limit (hs.login _ _ _)
  refine .of_handle rfl rfl ⟨?_, ?_, trivial, by decide, rfl, rfl, rfl, nofun⟩
  · cases hl : b.loggedIn <;> rw [hl] at hr <;>
      simp [Worker.handle, Worker.logIn, workerAt, serverAt, queueAt, sessionAt, callsAt, hr,
        afterLogin, hl]
  · cases hl : b.loggedIn <;> rw [hl] at hr <;>
      simp [Worker.handle, Worker.logIn, workerAt, serverAt, hr, Owes]

theorem advance_admitted (hs : Server.Steadfast σ) (b : Brief σ) (stamps : Nat → Stamp) :
    ∃ p', b.Advance .admitted p' false ((b.workerAt .admitted false).step stamps) := by
  cases hl : b.loggedIn with
  | ok token =>
    have hr : (Server.test b.limit token b.afterLogin).1.result? b.limit = some (b.tested token) :=
      Outcome.result?_eq_verdict b.limit (hs.test _ _ _)
    refine ⟨.begun, .of_handle rfl rfl
      ⟨?_, ?_, ⟨token, hl⟩, by decide, rfl, rfl, rfl, (absurd · (by decide))⟩⟩
    · cases ht : b.tested token <;> rw [ht] at hr <;>
        simp [Worker.handle, Worker.makeTest, workerAt, serverAt, queueAt, sessionAt, callsAt, hr,
          afterTest, hl, testCall]
    · cases ht : b.tested token with
      | ok r =>
        rw [ht] at hr
        exact ⟨r, by simp [Worker.handle, Worker.makeTest, workerAt, serverAt, sessionAt, hl, hr],
          by simp [Finds, verdict, hl, ht]⟩
      | error f =>
        rw [ht] at hr
        exact ⟨.failed (stamps 0) ("test exchange failed: " ++ f.message),
          by simp [Worker.handle, Worker.makeTest, workerAt, serverAt, sessionAt, hl, hr],
          finds_failed _ (by simp [verdict, hl, ht])⟩
  | error f =>
    refine ⟨.examined, .of_handle rfl rfl ⟨?_, ?_, trivial, by decide,
      by simp [eventsAt, opening, hl], by simp [phaseAt, lastPhase, hl], rfl, (absurd · (by decide))⟩⟩
    · simp [Worker.handle, Worker.makeTest, workerAt, serverAt, queueAt, sessionAt, callsAt,
        afterTest, hl, testCall]
    · exact ⟨.failed (stamps 0) ("login failed: " ++ f.message),
        by simp [Worker.handle, Worker.makeTest, workerAt, sessionAt, hl],
        finds_failed _ (by simp [verdict, hl])⟩

theorem advance_completed (hs : Server.Steadfast σ) (hv : b.verdict = .ok r)
    (stamps : Nat → Stamp) :
    b.Advance .completed .uploaded false ((b.workerAt .completed false).step stamps) := by
  obtain ⟨token, hl, -, hr⟩ := exists_of_verdict_ok hv
  have hu : (Server.report b.limit token r b.afterTest).1.result? b.limit =
      some (b.reported token r) := Outcome.result?_eq_verdict b.limit (hs.report _ _ _ _)
  have hq : (b.workerAt .completed false).queue = [.report r (some (.run theRun))] := by
    simp [workerAt, queueAt, hv, Except.toOption]
  refine .of_handle rfl hq ⟨?_, ?_, ⟨r, hv⟩, by decide, rfl, rfl, rfl, nofun⟩
  · cases ht : b.reported token r <;> rw [ht] at hu <;>
      simp [Worker.handle, Worker.upload, workerAt, serverAt, queueAt, sessionAt, callsAt, hu, hr,
        afterReport, hl, hv, reportCall]
  · cases ht : b.reported token r <;> rw [ht] at hu <;>
      simp [Worker.handle, Worker.upload, workerAt, serverAt, sessionAt, hu, hr, hl, hv, Owes,
        receipt?, ht, Except.toOption]

theorem advance_done (b : Brief σ) (stamps : Nat → Stamp) :
    b.Advance .done .ended true ((b.workerAt .done true).step stamps) := by
  refine .of_handle rfl rfl ⟨?_, ?_, trivial, by decide, rfl, rfl, rfl, fun _ => rfl⟩
  · simp [Worker.handle, Worker.finish, Worker.release, workerAt, serverAt, queueAt, sessionAt,
      callsAt]
  · simp [Worker.handle, Worker.finish, Worker.release, workerAt, queueAt, Owes]

/-- A worker that has something to take advances by taking it. -/
theorem exists_advance (hs : Server.Steadfast σ) (ha : b.Admits p)
    (hl : told = true → p.isLate = true) (ho : b.Owes p [])
    (hr : Station.isReady (b.workerAt p told) = true) (stamps : Nat → Stamp) :
    ∃ p', b.Advance p p' told ((b.workerAt p told).step stamps) := by
  have hfalse : p.isLate = false → told = false := fun hp => by
    cases told with
    | false => rfl
    | true => rw [hl rfl] at hp; cases hp
  cases p with
  | asked =>
    obtain rfl := hfalse rfl
    exact ⟨_, advance_asked hs b stamps⟩
  | admitted =>
    obtain rfl := hfalse rfl
    exact advance_admitted hs b stamps
  | begun => obtain ⟨r, hr, -⟩ := ho; cases hr
  | examined => obtain ⟨r, hr, -⟩ := ho; cases hr
  | completed =>
    obtain rfl := hfalse rfl
    obtain ⟨r, hv⟩ := ha
    exact ⟨_, advance_completed hs hv stamps⟩
  | uploaded =>
    cases hr : b.receipt? with
    | some receipt => simp [Owes, hr] at ho
    | none => simp [Owes, hr] at ho
  | done =>
    cases told with
    | true => exact ⟨_, advance_done b stamps⟩
    | false => simp [Station.isReady, workerAt, queueAt] at hr
  | ended => simp [Station.isReady, workerAt, Worker.isOpen] at hr

/-! ## Carrying out an effect -/

variable {p' : Place} {s s' : Station σ} {rest : List Effect} {news : List Event}

/-- What an effect makes of the station. -/
structure Carried (b : Brief σ) (p p' : Place) (acknowledged told : Bool) (s s' : Station σ)
    (rest : List Effect) (news : List Event) : Prop where
  stands : b.Stands p' acknowledged told s' rest
  bus : s'.bus = s.bus.publishAll news
  events : b.eventsAt p' = b.eventsAt p ++ news
  server : b.serverAt p' = b.serverAt p
  weight : news.length + 3 * p'.rank ≤ 3 * p.rank

theorem carried_note {n : Note} (h : b.Stands p acknowledged told s (.note n :: rest)) :
    b.Carried p p acknowledged told s (s.note n) rest [] :=
  ⟨⟨h.admits, h.workers, h.owes, h.bound, h.current, h.phase, h.latest, h.decided, h.late,
    h.ended⟩, rfl,     (List.append_nil _).symm, rfl, Nat.le_of_eq (Nat.zero_add _)⟩

theorem Stands.eq_false_of_undecided {pending : List Effect}
    (h : b.Stands p acknowledged told s pending) (hp : p.isDecided = false) :
    acknowledged = false ∧ told = false := by
  constructor
  · cases acknowledged with
    | false => rfl
    | true =>
      rw [h.decided rfl] at hp
      cases hp
  · cases told with
    | false => rfl
    | true =>
      have hl := h.late rfl
      cases p <;> cases hp <;> cases hl

theorem exists_carried_begun {t : ReplyTo} {reply : Reply}
    (h : b.Stands .begun acknowledged told s (.reply t reply :: rest)) :
    ∃ news,
      b.Carried .begun .examined acknowledged told s (s.perform (.reply t reply)) rest news := by
  obtain ⟨rfl, rfl⟩ := h.eq_false_of_undecided rfl
  obtain ⟨token, hl⟩ := h.admits
  obtain ⟨r, ho, hr⟩ := h.owes
  simp only [repliesOf_reply, List.cons.injEq, Prod.mk.injEq] at ho
  obtain ⟨⟨rfl, rfl⟩, ho⟩ := ho
  obtain ⟨log, hs⟩ := Station.onReply_started (h.current rfl) h.phase
  refine ⟨[.phaseChanged .preparing .testing], ?_⟩
  rw [Station.perform, hs]
  refine ⟨⟨trivial, h.workers, ⟨r, ho, hr⟩, h.bound, h.current, ?_, h.latest, nofun, nofun,
    nofun⟩, rfl, ?_, rfl, by simp [Place.rank]⟩
  · simp [phaseAt, lastPhase, hl, Lifecycle.enter]
  · simp [eventsAt, opening, hl]

/-- Where the outcome is decided the station need not know of a run any more. -/
theorem stands_of_decided {pending : List Effect} (hdecided : p.isDecided = true)
    (hrunning : p ≠ .ended) (hadmits : b.Admits p) (hworkers : s.workers = [b.workerAt p false])
    (howes : b.Owes p (repliesOf pending)) (hbound : s.bound = some 0)
    (hphase : s.lifecycle.phase = b.phaseAt p) (hlatest : s.lifecycle.latest = b.latestAt p) :
    b.Stands p false false s pending where
  admits := hadmits
  workers := hworkers
  owes := howes
  bound := hbound
  current hundecided := absurd (hundecided.symm.trans hdecided) Bool.false_ne_true
  phase := hphase
  latest := hlatest
  decided _ := hdecided
  late htold := absurd htold Bool.false_ne_true
  ended hended := absurd hended hrunning

theorem exists_carried_examined {t : ReplyTo} {reply : Reply}
    (h : b.Stands .examined acknowledged told s (.reply t reply :: rest)) :
    ∃ p' news,
      b.Carried .examined p' acknowledged told s (s.perform (.reply t reply)) rest news := by
  obtain ⟨rfl, rfl⟩ := h.eq_false_of_undecided rfl
  obtain ⟨r, ho, hr⟩ := h.owes
  simp only [repliesOf_reply, List.cons.injEq, Prod.mk.injEq] at ho
  obtain ⟨⟨rfl, rfl⟩, ho⟩ := ho
  have hph : s.lifecycle.phase = b.lastPhase := h.phase
  cases hv : r.isValid with
  | true =>
    have hok := hr.of_valid hv
    obtain ⟨token, hl, -, -⟩ := exists_of_verdict_ok hok
    have hlast : b.lastPhase = .testing := by simp [lastPhase, hl]
    have hsub : ∀ t : Station σ, t.bound = s.bound → t.workers = s.workers →
        ∃ log, t.submit theRun r =
          { t with workers := [b.workerAt .completed false], log := log } := by
      intro t hb hw
      have hget : t.worker? 0 = some (b.workerAt .examined false) := by
        rw [Station.worker?, hw, h.workers]
        rfl
      obtain ⟨log, hs⟩ := Station.submit_of_open theRun r (hb.trans h.bound) hget rfl
      refine ⟨log, ?_⟩
      rw [hs, hw, h.workers]
      simp [workerAt, queueAt, hok, Except.toOption, serverAt, sessionAt, callsAt]
    obtain ⟨log, hs⟩ :=
      Station.onReply_finished_of_testing (h.current rfl) (hph.trans hlast) hv hsub
    refine ⟨.completed, [.phaseChanged .testing .completed, .testCompleted r], ?_⟩
    rw [Station.perform, hs]
    refine ⟨stands_of_decided rfl (by decide) ⟨r, hok⟩ rfl ho h.bound ?_ ?_, rfl, ?_, rfl,
      by simp [Place.rank]⟩
    · simp [phaseAt, hok, Lifecycle.enter]
    · simp [latestAt, hok, Place.isDecided, Place.rank, Except.toOption]
    · simp [eventsAt, preface, closing, outcome, hok]
  | false =>
    have herr := hr.of_invalid hv
    have hu : s.lifecycle.phase.isUnderWay = true := by
      rw [hph, lastPhase]
      split <;> rfl
    obtain ⟨log, hs⟩ := Station.onReply_finished_of_invalid (h.current rfl) hu hv
    refine ⟨.done, [.phaseChanged b.lastPhase .idle, .testFailed r.reason], ?_⟩
    rw [Station.perform, hs, hph]
    refine ⟨stands_of_decided rfl (by decide) trivial ?_ ho h.bound ?_ ?_, rfl, ?_,
      b.afterReport_of_error herr, by simp [Place.rank]⟩
    · rw [h.workers]
      simp [workerAt, queueAt, serverAt, sessionAt, callsAt, b.afterReport_of_error herr,
        b.reportCall_of_error herr]
    · simp [phaseAt, herr, Lifecycle.enter]
    · simp [latestAt, herr, Place.isDecided, Place.rank, Except.toOption, Lifecycle.enter, h.latest]
    · simp [eventsAt, preface, closing, outcome, herr, b.receipt?_of_error herr]

theorem exists_carried_uploaded {t : ReplyTo} {reply : Reply}
    (h : b.Stands .uploaded acknowledged told s (.reply t reply :: rest)) :
    ∃ news, b.Carried .uploaded .done acknowledged told s (s.perform (.reply t reply)) rest
      news := by
  have hstands : ∀ (bus : Bus) (log : Log), repliesOf rest = [] →
      b.Stands .done acknowledged told { s with bus := bus, log := log } rest :=
    fun bus log ho => ⟨trivial, h.workers, ho, h.bound, nofun, h.phase, h.latest, h.decided,
      fun _ => rfl, nofun⟩
  have ho := h.owes
  cases hr : b.receipt? with
  | some receipt =>
    simp only [Owes, hr, repliesOf_reply, List.cons.injEq, Prod.mk.injEq] at ho
    obtain ⟨⟨rfl, rfl⟩, ho⟩ := ho
    exact ⟨[.reportRouter receipt], hstands _ _ ho, rfl, by simp [eventsAt, hr], rfl,
      by simp [Place.rank]⟩
  | none =>
    simp only [Owes, hr, repliesOf_reply, List.cons.injEq, Prod.mk.injEq] at ho
    obtain ⟨reason, ⟨rfl, rfl⟩, ho⟩ := ho
    exact ⟨[], hstands _ _ ho, rfl, by simp [eventsAt, hr], rfl, by simp [Place.rank]⟩

/-- Whatever is carried out next, the worker comes to a place of its course. -/
theorem Stands.exists_carried {e : Effect} (h : b.Stands p acknowledged told s (e :: rest)) :
    ∃ p' news, b.Carried p p' acknowledged told s (s.perform e) rest news := by
  cases e with
  | note n => exact ⟨p, [], carried_note h⟩
  | reply t reply =>
    cases p with
    | begun => exact ⟨_, exists_carried_begun h⟩
    | examined => exact exists_carried_examined h
    | uploaded => exact ⟨_, exists_carried_uploaded h⟩
    | _ => exact absurd h.owes (List.cons_ne_nil _ _)

/-! ## The station around the worker -/

/-- The worker takes its next message. -/
theorem Stands.exists_taken (hs : Server.Steadfast σ) {c : Scene σ}
    (h : b.Stands p acknowledged told c.station (c.pending 0)) (hp : c.pending 0 = [])
    (hr : Station.isReady (b.workerAt p told) = true) :
    ∃ p', p'.rank < p.rank ∧ p'.isDecided = p.isDecided ∧ b.eventsAt p' = b.eventsAt p ∧
      b.Stands p' acknowledged told (c.take 0).station ((c.take 0).pending 0) ∧
      (c.take 0).station.bus = c.station.bus ∧ (c.take 0).received = c.received := by
  have hw : c.station.worker? 0 = some (b.workerAt p told) := by
    rw [Station.worker?, h.workers]
    rfl
  have ho := h.owes
  rw [hp] at ho
  obtain ⟨stamps, stamped, ht⟩ := Scene.take_of_free hw hp rfl
  obtain ⟨p', ha⟩ := exists_advance hs h.admits h.late ho hr stamps
  refine ⟨p', ha.later, ha.decided, ha.events, ?_, by rw [ht], by rw [ht]⟩
  rw [ht]
  refine ⟨ha.admits, ?_, ?_, h.bound, fun hd => h.current (ha.decided.symm.trans hd), ?_, ?_,
    fun hk => ha.decided.trans (h.decided hk),
    fun hk => Place.isLate_of_rank_le (Nat.le_of_lt ha.later) (h.late hk), ha.ended⟩
  · simp only [h.workers, ha.worker, List.set_cons_zero]
  · simpa using ha.owes
  · rw [ha.phase]
    exact h.phase
  · rw [latestAt, ha.decided]
    exact h.latest

/-- Who listens does not matter to the worker. -/
theorem Stands.wired {pending : List Effect} (h : b.Stands p acknowledged told s pending)
    (bus : Bus) (log : Log) :
    b.Stands p acknowledged told (s.wired bus log) pending :=
  ⟨h.admits, h.workers, h.owes, h.bound, h.current, h.phase, h.latest, h.decided, h.late, h.ended⟩

/-- The results are acknowledged. -/
theorem Stands.acknowledge {pending : List Effect} (h : b.Stands p false told s pending)
    (hv : b.verdict = .ok r) (hd : p.isDecided = true) :
    b.Stands p true told s.acknowledgeResults.2 pending ∧
      s.acknowledgeResults.2.bus = s.bus.publishAll [.phaseChanged .completed .idle] := by
  have hph : s.lifecycle.phase = .completed := by
    rw [h.phase, if_neg Bool.false_ne_true, phaseAt_of_decided b hd, hv]
  obtain ⟨log, ha⟩ := Station.acknowledgeResults_of_completed hph
  rw [ha]
  exact ⟨⟨h.admits, h.workers, h.owes, h.bound, h.current, rfl, h.latest, fun _ => hd, h.late,
    h.ended⟩, rfl⟩

/-- The worker is told to end. -/
theorem Stands.stop {pending : List Effect} (h : b.Stands p acknowledged false s pending)
    (hl : p.isLate = true) :
    b.Stands p acknowledged true (s.stopWorker 0) pending ∧ (s.stopWorker 0).bus = s.bus := by
  have hp : p ≠ .ended := fun he => Bool.false_ne_true (h.ended he)
  have hw : s.worker? 0 = some (b.workerAt p false) := by
    rw [Station.worker?, h.workers]
    rfl
  have hstop : (b.workerAt p false).stop = (b.workerAt p true, []) := by
    simp [Worker.stop, workerAt, Worker.isOpen, hp]
  simp only [Station.stopWorker, hw, hstop]
  refine ⟨⟨h.admits, ?_, h.owes, h.bound, h.current, h.phase, h.latest, h.decided, fun _ => hl,
    fun _ => rfl⟩, rfl⟩
  simp only [Station.notes, Station.setWorker, h.workers, List.set_cons_zero]

end Brief
end Command
end LinkTest
