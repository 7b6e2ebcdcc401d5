import LinkTest.Proofs.Station.Sections
import LinkTest.Proofs.Station.Supplies
import LinkTest.Proofs.Station.Uploads

/-!
# Schedules of sections

In an ensemble several callers and the threads of all workers are in the midst of their operations.
A move of it is one section, so that any other thread may act between two sections of an operation.
Moves that a station makes under one lock are those of a scene, and every schedule of a scene is a
schedule of an ensemble in which no operation is interrupted.
-/

namespace LinkTest

open Station (Visit Duty)

structure Ensemble (σ : Type) where
  scene : Scene σ
  /-- What each caller has still to do. -/
  visits : Nat → Option Visit
  /-- What the thread of each worker has still to do with the effect that it took up. -/
  duties : Nat → Option Duty

namespace Ensemble

inductive Move (σ : Type)
  /-- A move under one lock that drives no run. -/
  | aside (m : Scene.Move σ)
  | startTest (k : Nat)
  | acknowledge (k : Nat)
  /-- The caller does the next section. -/
  | proceed (k : Nat)
  /-- The thread of the worker takes the oldest message. -/
  | take (id : Nat)
  /-- The thread of the worker does the next section, or it takes up the next effect. -/
  | carry (id : Nat)

variable {σ : Type}

/-- A scene in which nobody is in the midst of anything. -/
def of (c : Scene σ) : Ensemble σ := ⟨c, fun _ => none, fun _ => none⟩

def start (stamps : Nat → Stamp) : Ensemble σ := of (.start stamps)

/-- A caller who is not in the midst of a visit begins one. -/
def enter (k : Nat) (v : Visit) (e : Ensemble σ) : Ensemble σ :=
  match e.visits k with
  | none => { e with visits := Function.update e.visits k (some v) }
  | some _ => e

def proceed (k : Nat) (e : Ensemble σ) : Ensemble σ :=
  match e.visits k with
  | none => e
  | some v =>
    let (next, station) := v.step e.scene.station
    { e with
      scene := { e.scene with station := station }
      visits := Function.update e.visits k next.getLeft? }

def carry (id : Nat) (e : Ensemble σ) : Ensemble σ :=
  match e.duties id, e.scene.pending id with
  | some d, _ =>
    let (next, station) := d.step e.scene.station
    { e with
      scene := { e.scene with station := station }
      duties := Function.update e.duties id next }
  | none, [] => e
  | none, x :: rest =>
    { e with
      scene := { e.scene with pending := Function.update e.scene.pending id rest }
      duties := Function.update e.duties id (some (.carry x)) }

variable [Server σ]

def apply (e : Ensemble σ) : Move σ → Ensemble σ
  | .aside m => if m.isDriving then e else { e with scene := e.scene.apply m }
  | .startTest k => e.enter k .start
  | .acknowledge k => e.enter k .acknowledge
  | .proceed k => e.proceed k
  | .take id => if (e.duties id).isSome then e else { e with scene := e.scene.take id }
  | .carry id => e.carry id

def run (e : Ensemble σ) (moves : List (Move σ)) : Ensemble σ := moves.foldl apply e

@[simp] theorem run_nil (e : Ensemble σ) : e.run [] = e := rfl

@[simp] theorem run_cons (e : Ensemble σ) (m : Move σ) (rest : List (Move σ)) :
    e.run (m :: rest) = (e.apply m).run rest := rfl

@[simp] theorem run_append (e : Ensemble σ) (before after : List (Move σ)) :
    e.run (before ++ after) = (e.run before).run after := List.foldl_append

/-! ## Whole operations as schedules -/

theorem exists_run_of_visit {v : Visit} {s : Station σ} {p : Except Failure Bool × Station σ}
    (h : Visit.Leads v s p) {e : Ensemble σ} {k : Nat} (hv : e.visits k = some v)
    (hs : e.scene.station = s) :
    ∃ moves : List (Move σ), e.run moves = { e with
      scene := { e.scene with station := p.2 }
      visits := Function.update e.visits k none } := by
  induction h generalizing e with
  | @last v s s' answer h =>
    refine ⟨[.proceed k], ?_⟩
    simp only [run_cons, run_nil, apply, proceed, hv, hs, h, Sum.getLeft?_inr]
  | @next v v' s s' p h _ ih =>
    obtain ⟨moves, hm⟩ := ih (e := e.apply (.proceed k))
      (by simp [apply, proceed, hv, hs, h]) (by simp [apply, proceed, hv, hs, h])
    refine ⟨.proceed k :: moves, ?_⟩
    rw [run_cons, hm]
    simp [apply, proceed, hv, hs, h]

theorem exists_run_of_duty {d : Duty} {s s' : Station σ} (h : Duty.Leads d s s')
    {e : Ensemble σ} {id : Nat} (hd : e.duties id = some d) (hs : e.scene.station = s) :
    ∃ moves : List (Move σ), e.run moves = { e with
      scene := { e.scene with station := s' }
      duties := Function.update e.duties id none } := by
  induction h generalizing e with
  | @last d s s' h =>
    refine ⟨[.carry id], ?_⟩
    simp only [run_cons, run_nil, apply, carry, hd, hs, h]
  | @next d d' s s' s'' h _ ih =>
    obtain ⟨moves, hm⟩ := ih (e := e.apply (.carry id))
      (by simp [apply, carry, hd, hs, h]) (by simp [apply, carry, hd, hs, h])
    refine ⟨.carry id :: moves, ?_⟩
    rw [run_cons, hm]
    simp [apply, carry, hd, hs, h]

/-- Each move of a scene is its sections, one after the other. -/
theorem exists_run_of_move (c : Scene σ) (m : Scene.Move σ) :
    ∃ moves : List (Move σ), (of c).run moves = of (c.apply m) := by
  cases hm : m.isDriving with
  | false => exact ⟨[.aside m], by simp [apply, of, hm]⟩
  | true =>
    cases m with
    | startTest =>
      have hv : ((of c).apply (.startTest 0)).visits 0 = some .start := by simp [apply, enter, of]
      obtain ⟨moves, h⟩ := exists_run_of_visit (Visit.leads_start c.station) hv rfl
      refine ⟨.startTest 0 :: moves, ?_⟩
      rw [run_cons, h]
      simp [apply, enter, of, Scene.apply]
    | acknowledge =>
      have hv : ((of c).apply (.acknowledge 0)).visits 0 = some .acknowledge := by
        simp [apply, enter, of]
      obtain ⟨moves, h⟩ := exists_run_of_visit (Visit.leads_acknowledge c.station) hv rfl
      refine ⟨.acknowledge 0 :: moves, ?_⟩
      rw [run_cons, h]
      simp [apply, enter, of, Scene.apply]
    | take id => exact ⟨[.take id], by simp [apply, of, Scene.apply]⟩
    | carry id =>
      cases hp : c.pending id with
      | nil => exact ⟨[], by simp [of, Scene.apply, Scene.carry, hp]⟩
      | cons x rest =>
        have hd : ((of c).apply (.carry id)).duties id = some (.carry x) := by
          simp [apply, carry, of, hp]
        have hs : ((of c).apply (.carry id)).scene.station = c.station := by
          simp [apply, carry, of, hp]
        obtain ⟨moves, h⟩ := exists_run_of_duty (Duty.leads_carry x c.station) hd hs
        refine ⟨.carry id :: moves, ?_⟩
        rw [run_cons, h, Scene.carry_of_cons hp]
        simp [apply, carry, of, hp]
    | _ => cases hm

/-- Each schedule of a scene is the schedule of an ensemble in which nothing is interrupted. -/
theorem exists_run_of_schedule (c : Scene σ) (schedule : List (Scene.Move σ)) :
    ∃ moves : List (Move σ), (of c).run moves = of (c.run schedule) := by
  induction schedule generalizing c with
  | nil => exact ⟨[], rfl⟩
  | cons m rest ih =>
    obtain ⟨first, hf⟩ := exists_run_of_move c m
    obtain ⟨later, hl⟩ := ih (c.apply m)
    exact ⟨first ++ later, by rw [run_append, hf, hl, Scene.run_cons]⟩

/-! ## What one move does -/

omit [Server σ] in
def wired (b : Bus) (log : Log) (e : Ensemble σ) : Ensemble σ :=
  { e with scene := e.scene.wired b log }

/-- The events that a move publishes: what one who listens from just before it would hear of it. -/
def published (e : Ensemble σ) (m : Move σ) : List Event :=
  ((e.wired Scene.tap .empty).apply m).scene.station.bus.pendingOf 0

/-- All that can come of a move, up to the bus and the log. -/
inductive Made (e : Ensemble σ) : Move σ → List Event → Ensemble σ → Prop
  | aside {m : Scene.Move σ} (hm : m.isDriving = false) :
    Made e (.aside m) [] { e with scene := e.scene.apply m }
  | waited (m : Move σ) : Made e m [] e
  | entered {m : Move σ} {k : Nat} {v : Visit}
    (hm : m = .startTest k ∧ v = .start ∨ m = .acknowledge k ∧ v = .acknowledge)
    (hv : e.visits k = none) :
    Made e m [] { e with visits := Function.update e.visits k (some v) }
  | proceeded {k : Nat} {v : Visit} {news : List Event} {next : Visit ⊕ Except Failure Bool}
    {t : Station σ} (hv : e.visits k = some v) (h : v.Made e.scene.station news next t) :
    Made e (.proceed k) news { e with
      scene := { e.scene with station := t }
      visits := Function.update e.visits k next.getLeft? }
  | taken {id : Nat} {w : Worker σ} (hd : e.duties id = none) (hw : e.scene.taker? id = some w) :
    Made e (.take id) [] { e with scene := e.scene.take id }
  | takenUp {id : Nat} {x : Effect} {rest : List Effect} (hd : e.duties id = none)
    (hp : e.scene.pending id = x :: rest) :
    Made e (.carry id) [] { e with
      scene := { e.scene with pending := Function.update e.scene.pending id rest }
      duties := Function.update e.duties id (some (.carry x)) }
  | carried {id : Nat} {d : Duty} {news : List Event} {next : Option Duty} {t : Station σ}
    (hd : e.duties id = some d) (h : d.Made e.scene.station news next t) :
    Made e (.carry id) news { e with
      scene := { e.scene with station := t }
      duties := Function.update e.duties id next }

theorem made_proceed (k : Nat) (e : Ensemble σ) : ∃ news e', Made e (.proceed k) news e' ∧
    ∀ b log, ∃ log', (e.wired b log).proceed k = e'.wired (b.publishAll news) log' := by
  cases hv : e.visits k with
  | none =>
    refine ⟨[], e, .waited _, fun b log => ⟨log, ?_⟩⟩
    simp only [proceed, wired, hv]
    rfl
  | some v =>
    obtain ⟨news, next, t, h, hstep⟩ := v.made e.scene.station
    refine ⟨news, _, .proceeded hv h, fun b log => ?_⟩
    obtain ⟨log', hs⟩ := hstep b log
    refine ⟨log', ?_⟩
    simp only [proceed, wired, hv, Scene.wired, hs]

theorem made_carry (id : Nat) (e : Ensemble σ) : ∃ news e', Made e (.carry id) news e' ∧
    ∀ b log, ∃ log', (e.wired b log).carry id = e'.wired (b.publishAll news) log' := by
  cases hd : e.duties id with
  | some d =>
    obtain ⟨news, next, t, h, hstep⟩ := d.made e.scene.station
    refine ⟨news, _, .carried hd h, fun b log => ?_⟩
    obtain ⟨log', hs⟩ := hstep b log
    refine ⟨log', ?_⟩
    simp only [carry, wired, hd, Scene.wired, hs]
  | none =>
    cases hp : e.scene.pending id with
    | nil =>
      refine ⟨[], e, .waited _, fun b log => ⟨log, ?_⟩⟩
      simp only [carry, wired, hd, Scene.wired, hp]
      rfl
    | cons x rest =>
      refine ⟨[], _, .takenUp hd hp, fun b log => ⟨log, ?_⟩⟩
      simp only [carry, wired, hd, Scene.wired, hp]
      rfl

theorem made_enter {m : Move σ} {k : Nat} {v : Visit} (e : Ensemble σ)
    (hm : m = .startTest k ∧ v = .start ∨ m = .acknowledge k ∧ v = .acknowledge) :
    ∃ news e', Made e m news e' ∧
      ∀ b log, ∃ log', (e.wired b log).enter k v = e'.wired (b.publishAll news) log' := by
  cases hv : e.visits k with
  | none =>
    refine ⟨[], _, .entered hm hv, fun b log => ⟨log, ?_⟩⟩
    simp only [enter, wired, hv]
    rfl
  | some v' =>
    refine ⟨[], e, .waited m, fun b log => ⟨log, ?_⟩⟩
    simp only [enter, wired, hv]
    rfl

theorem made_take (id : Nat) (e : Ensemble σ) : ∃ news e', Made e (.take id) news e' ∧
    ∀ b log, ∃ log', (e.wired b log).apply (.take id) = e'.wired (b.publishAll news) log' := by
  have hwired : ∀ b log, (e.scene.wired b log).take id = (e.scene.take id).wired b log :=
    e.scene.take_wired id
  cases hd : e.duties id with
  | some d =>
    refine ⟨[], e, .waited _, fun b log => ⟨log, ?_⟩⟩
    simp only [apply, wired, hd, Option.isSome_some, if_true]
    rfl
  | none =>
    rcases Scene.take_cases id e.scene with ⟨-, ht⟩ | ⟨w, -, -, hw, -⟩
    · refine ⟨[], e, .waited _, fun b log => ⟨log, ?_⟩⟩
      simp only [apply, wired, hd, hwired, ht]
      rfl
    · refine ⟨[], _, .taken hd hw, fun b log => ⟨log, ?_⟩⟩
      simp only [apply, wired, hd, hwired]
      rfl

/-- What a move has made, and the events that it publishes. -/
theorem made (m : Move σ) (e : Ensemble σ) : ∃ news e' b log,
    Made e m news e' ∧ e.published m = news ∧ e.apply m = e'.wired b log := by
  have hheard : ∀ {news : List Event} {e' : Ensemble σ},
      (∀ b log, ∃ log', (e.wired b log).apply m = e'.wired (b.publishAll news) log') →
      e.published m = news ∧ ∃ log, e.apply m =
        e'.wired (e.scene.station.bus.publishAll news) log := by
    intro news e' h
    obtain ⟨log', htap⟩ := h Scene.tap .empty
    refine ⟨?_, h e.scene.station.bus e.scene.station.log⟩
    rw [published, htap]
    exact Scene.pendingOf_tap news
  have hmade : (∃ news e', Made e m news e' ∧
      ∀ b log, ∃ log', (e.wired b log).apply m = e'.wired (b.publishAll news) log') →
      ∃ news e' b log, Made e m news e' ∧ e.published m = news ∧ e.apply m = e'.wired b log := by
    rintro ⟨news, e', h, he⟩
    obtain ⟨hn, log, ha⟩ := hheard he
    exact ⟨news, e', _, log, h, hn, ha⟩
  cases m with
  | startTest k => exact hmade (e.made_enter (.inl ⟨rfl, rfl⟩))
  | acknowledge k => exact hmade (e.made_enter (.inr ⟨rfl, rfl⟩))
  | proceed k => exact hmade (e.made_proceed k)
  | take id => exact hmade (e.made_take id)
  | carry id => exact hmade (e.made_carry id)
  | aside m =>
    cases hm : m.isDriving with
    | true =>
      refine hmade ⟨[], e, .waited _, fun b log => ⟨log, ?_⟩⟩
      simp only [apply, hm, if_true]
      rfl
    | false =>
      -- Subscriptions change the bus, and so the bus is the one that is left.
      have hpub : e.published (.aside m) = [] := by
        simp only [published, apply, hm, Bool.false_eq_true, if_false]
        exact Scene.published_of_not_driving hm e.scene
      have happly : e.apply (.aside m) = { e with scene := e.scene.apply m } := by
        simp only [apply, hm, Bool.false_eq_true, if_false]
      exact ⟨[], _, (e.scene.apply m).station.bus, (e.scene.apply m).station.log, .aside hm, hpub,
        happly⟩

/-! ## Where messages come from -/

/-- Why a message comes to the end of the queue of a worker. -/
inductive Sends (e : Ensemble σ) : Move σ → Nat → Message → Prop
  | handed {m : Scene.Move σ} {id : Nat} {x : Message} (h : m.message? = some (id, x)) :
    Sends e (.aside m) id x
  | login {k id : Nat} {run : RunId} (hv : e.visits k = some (.login id run)) :
    Sends e (.proceed k) id (.login none)
  | request {k id : Nat} {run : RunId} (hv : e.visits k = some (.request id run)) :
    Sends e (.proceed k) id (.requestTest (.run run))
  | upload {k id : Nat} {run : RunId} {r : Record} (hd : e.duties k = some (.upload id run r)) :
    Sends e (.carry k) id (.report r (some (.run run)))

/-- What becomes of workers in a move in which no message is taken. -/
theorem supplied_apply {e : Ensemble σ} {m : Move σ} (hm : ∀ id, m ≠ .take id) :
    Supplied e.scene.station.workers (fun w => ∃ m', m = .aside m' ∧ m'.Hires w) (Sends e m)
      (e.apply m).scene.station.workers := by
  obtain ⟨news, e', b, log, hmade, -, he⟩ := e.made m
  rw [he]
  cases hmade with
  | @aside m hd =>
    exact (Scene.supplied_of_not_driving hd e.scene).mono (fun _ h => ⟨m, rfl, h⟩)
      fun _ _ h => .handed h
  | taken => exact absurd rfl (hm _)
  | proceeded hv h =>
    cases h with
    | loggedIn run hw ho => exact .sent hw rfl rfl (by simpa using .login hv)
    | requested run hw ho => exact .sent hw rfl rfl (by simpa using .request hv)
    | _ => exact .same
  | carried hd h =>
    cases h with
    | submitted run r hw ho => exact .sent hw rfl rfl (by simpa using .upload hd)
    | _ => exact .same
  | _ => exact .same

/-- A worker that is there after a move in which no message is taken was there before, or it was
added just now. -/
theorem worker_of_supplied {e : Ensemble σ} {m : Move σ} (hm : ∀ id, m ≠ .take id) {id : Nat}
    {w' : Worker σ} (hw' : (e.apply m).scene.station.worker? id = some w') :
    (∃ w ms, e.scene.station.worker? id = some w ∧ w'.server = w.server ∧
      w'.queue = w.queue ++ ms ∧ ∀ x ∈ ms, Sends e m id x) ∨
    ∃ server own limit, m = .aside (.addWorker server own limit) ∧ w' = .new server own limit ∧
      e.scene.station.worker? id = none := by
  refine ((supplied_apply hm).of_getElem? hw').imp_right ?_
  rintro ⟨⟨_, rfl, server, own, limit, rfl, rfl⟩, hnone⟩
  exact ⟨server, own, limit, rfl, rfl, hnone⟩

end Ensemble
end LinkTest
