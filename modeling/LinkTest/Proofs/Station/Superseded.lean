import LinkTest.Proofs.Lifecycle.History
import LinkTest.Proofs.Station.Publishing

/-!
# Runs that were superseded

Others than runs may change the lifecycle and publish events as well: they may end the run that is
on its way, and the next one may begin while the request of the first is still queued. A run that is not the current one
any more never is again, and what is replied to it then changes nothing. What becomes of its upload
is announced all the same, and that is all that comes of it.
-/

namespace LinkTest

namespace Station

variable {σ : Type}

/-- An operation that the lifecycle is asked for concerns nothing else. -/
theorem operate_frame (thread : String) (o : Lifecycle.Operation) (s : Station σ) :
    ∃ lifecycle log, (s.operate thread o).2 = { s with lifecycle := lifecycle, log := log } := by
  have hsettle : ∀ (attempt : Except Failure Lifecycle) (refused : List Note),
      ∃ lifecycle log, (s.settleMove thread attempt refused).2 =
        { s with lifecycle := lifecycle, log := log } := by
    intro attempt refused
    cases attempt <;> exact ⟨_, _, rfl⟩
  cases o with
  | beginRun =>
    simp only [operate, beginRun]
    split <;> exact ⟨_, _, rfl⟩
  | transition p => exact hsettle _ _
  | complete r => exact hsettle _ _
  | abort => exact hsettle _ _
  | acknowledge => exact hsettle _ _
  | clearLatest => exact ⟨_, s.log, rfl⟩

end Station

namespace Scene

variable {σ : Type} [Server σ]

/-- A move, or what someone else does: ask the lifecycle for an operation, or publish an event. -/
inductive Deed (σ : Type)
  | move (m : Move σ)
  | operate (thread : String) (o : Lifecycle.Operation)
  | publish (thread : String) (e : Event)

def act (c : Scene σ) : Deed σ → Scene σ
  | .move m => c.apply m
  | .operate thread o => { c with station := (c.station.operate thread o).2 }
  | .publish thread e => { c with station := c.station.announce thread e }

def actAll (c : Scene σ) (deeds : List (Deed σ)) : Scene σ := deeds.foldl act c

@[simp] theorem actAll_nil (c : Scene σ) : c.actAll [] = c := rfl

@[simp] theorem actAll_cons (c : Scene σ) (d : Deed σ) (rest : List (Deed σ)) :
    c.actAll (d :: rest) = (c.act d).actAll rest := rfl

@[simp] theorem actAll_append (c : Scene σ) (before after : List (Deed σ)) :
    c.actAll (before ++ after) = (c.actAll before).actAll after := List.foldl_append

/-! ## The current run -/

/-- All that can happen to the current run: it is the same, it is over, or a new one begins, whose
number none has had before. -/
inductive Succeeded (c c' : Scene σ) : Prop
  | same (hc : c'.station.current = c.station.current) (hb : c.station.begun ≤ c'.station.begun)
  | ended (hc : c'.station.current = none) (hb : c.station.begun ≤ c'.station.begun)
  | next (hc : c'.station.current = some ⟨c.station.begun⟩)
    (hb : c.station.begun < c'.station.begun)

theorem succeeded_apply (m : Move σ) (c : Scene σ) : Succeeded c (c.apply m) := by
  cases hm : m.isDriving with
  | false => exact .same (aside_of_not_driving hm c).current (frame_apply m c).2
  | true =>
    obtain ⟨news, c', log, -, h, hc⟩ := c.made (Move.isListening_of_isDriving hm)
    rw [hc]
    cases h with
    | aside h => cases hm.symm.trans h
    | taken id =>
      obtain ⟨-, hb, -, hcur⟩ := c.take_frame id
      exact .same hcur (Nat.le_of_eq hb.symm)
    | refused => exact .same rfl (Nat.le_refl _)
    | reached => exact .next rfl (Nat.lt_succ_self _)
    | unreached => exact .ended rfl (Nat.le_succ _)
    | acknowledged => exact .same rfl (Nat.le_refl _)
    | waited => exact .same rfl (Nat.le_refl _)
    | carried hp h =>
      cases h with
      | noted => exact .same rfl (Nat.le_refl _)
      | deposited => exact .same rfl (Nat.le_refl _)
      | replied h =>
        cases h with
        | failed => exact .ended rfl (Nat.le_refl _)
        | stray => exact .ended rfl (Nat.le_refl _)
        | _ => exact .same rfl (Nat.le_refl _)

theorem succeeded_act (d : Deed σ) (c : Scene σ) : Succeeded c (c.act d) := by
  cases d with
  | move m => exact c.succeeded_apply m
  | operate thread o =>
    obtain ⟨lifecycle, log, h⟩ := c.station.operate_frame thread o
    rw [act, h]
    exact .same rfl (Nat.le_refl _)
  | publish thread e => exact .same rfl (Nat.le_refl _)

/-- A run that was begun and is not the current one. -/
def Past (run : RunId) (c : Scene σ) : Prop :=
  run.number < c.station.begun ∧ c.station.current ≠ some run

theorem Past.act {run : RunId} {c : Scene σ} (h : c.Past run) (d : Deed σ) :
    (c.act d).Past run := by
  obtain ⟨hb, hc⟩ := h
  cases succeeded_act d c with
  | same hc' hb' => exact ⟨Nat.lt_of_lt_of_le hb hb', by rwa [hc']⟩
  | ended hc' hb' => exact ⟨Nat.lt_of_lt_of_le hb hb', by simp [hc']⟩
  | next hc' hb' =>
    refine ⟨Nat.lt_trans hb hb', fun he => ?_⟩
    obtain rfl : (⟨c.station.begun⟩ : RunId) = run := Option.some.inj (hc'.symm.trans he)
    exact Nat.lt_irrefl _ hb

theorem Past.actAll {run : RunId} {c : Scene σ} (h : c.Past run) (deeds : List (Deed σ)) :
    (c.actAll deeds).Past run := by
  induction deeds generalizing c with
  | nil => exact h
  | cons d rest ih => exact ih (h.act d)

/-- The current run was begun. -/
theorem lt_begun_actAll {c : Scene σ}
    (h : ∀ run, c.station.current = some run → run.number < c.station.begun)
    (deeds : List (Deed σ)) (run : RunId)
    (hc : (c.actAll deeds).station.current = some run) :
    run.number < (c.actAll deeds).station.begun := by
  induction deeds generalizing c with
  | nil => exact h run hc
  | cons d rest ih =>
    refine ih (fun run hrun => ?_) hc
    cases succeeded_act d c with
    | same hc' hb' => exact Nat.lt_of_lt_of_le (h run (hc'.symm.trans hrun)) hb'
    | ended hc' => cases hc'.symm.trans hrun
    | next hc' hb' =>
      obtain rfl := Option.some.inj (hc'.symm.trans hrun)
      exact hb'

/-! ## Replies -/

/-- Carrying out the next effect of a worker publishes these events, and beside the bus and the log
it changes nothing: neither the lifecycle nor the current run, and no message is sent to a
worker. -/
def OnlyPublishes (c : Scene σ) (id : Nat) (rest : List Effect) (news : List Event) : Prop :=
  c.published (.carry id) = news ∧ ∃ log, c.apply (.carry id) = { c with
    station := c.station.wired (c.station.bus.publishAll news) log
    pending := Function.update c.pending id rest }

/-- What is said of runs and replies at every moment. -/
structure Inert (c : Scene σ) : Prop where
  /-- Only runs that were begun are ever the current one. -/
  begun : ∀ run, c.station.current = some run → run.number < c.station.begun
  /-- A run that was begun and is not the current one never will be again. -/
  final : ∀ run, run.number < c.station.begun → c.station.current ≠ some run →
    ∀ later, (c.actAll later).station.current ≠ some run
  /-- What is replied about the test of another run than the current one is without effect. -/
  stale : ∀ id run reply rest, c.pending id = .reply (.run run) reply :: rest →
    (reply = .started ∨ ∃ r, reply = .finished r) → c.station.current ≠ some run →
    c.OnlyPublishes id rest []
  /-- An upload of any run is announced, once and with its receipt. -/
  reported : ∀ id run receipt rest,
    c.pending id = .reply (.run run) (.reported receipt) :: rest →
    c.OnlyPublishes id rest [.reportRouter receipt]
  /-- An upload that has failed, of any run, is not. -/
  reportFailed : ∀ id run reason rest,
    c.pending id = .reply (.run run) (.reportFailed reason) :: rest → c.OnlyPublishes id rest []

/-- Whatever happens, and whoever changes the lifecycle or publishes events. -/
theorem inert_of_deeds (stamps : Nat → Stamp) (deeds : List (Deed σ)) :
    ((start stamps).actAll deeds).Inert where
  begun := lt_begun_actAll (fun run h => by cases h) deeds
  final _ hb hc later := (Past.actAll ⟨hb, hc⟩ later).2
  stale _ _ _ _ hp hr hc := carried hp fun b log =>
    Station.onReply_of_stale (s := Station.wired b log _) hc hr
  reported _ _ _ _ hp := carried hp fun _ _ => ⟨_, rfl⟩
  reportFailed _ _ _ _ hp := carried hp fun _ _ => ⟨_, rfl⟩

/-- A run is aborted while its request is queued, and another one begins before the worker takes the
request of the first: the replies come when the second is the current one. -/
example :
    let hire : Move Script := .addWorker rehearsalScript .anonymous Worker.defaultLimit
    let begin : List (Deed Script) := [.move hire, .move (.startWorker 0), .move (.bind 0),
      .move .startTest, .operate "other" .abort, .move .startTest]
    let turn : List (Deed Script) := [.move (.take 0), .move (.carry 0), .move (.carry 0)]
    let next : List (Deed Script) := [.move (.take 0), .move (.carry 0)]
    let c := (start fun _ => default).actAll (begin ++ turn ++ next)
    ((c.pending 0).filterMap Effect.reply?).map Prod.fst = [.run ⟨0⟩, .run ⟨0⟩] ∧
      c.station.current = some ⟨1⟩ := by
  decide +kernel

end Scene
end LinkTest
