import LinkTest.Proofs.Station.Flight

/-!
# One run at a time

The phase says exactly whether a test that a run has asked for is still unanswered. There is never
more than one, and its worker, once let go on, brings the run to its end by its own moves alone.
-/

namespace LinkTest

/-- The run that an effect tells of the end of its test. -/
def Effect.concluded? : Effect → Option RunId
  | .reply (.run run) (.finished _) => some run
  | _ => none

/-- The run that waits for its test, if that is what is owed. -/
def Debt.run? : Debt → Option RunId
  | .test run => some run
  | .start _ => none
  | .record run _ => some run

theorem Debt.Stage.filterMap_run? {p : Phase} {run : RunId} {ds : List Debt}
    (h : Debt.Stage p run ds) : ds.filterMap Debt.run? = [run] := by
  cases h <;> rfl

namespace Scene

variable {σ : Type}

/-- The runs whose tests a worker has still to answer: those it is answering, then those queued. -/
def unanswered (c : Scene σ) (id : Nat) : List RunId :=
  (c.pending id).filterMap Effect.concluded? ++
    (Station.queueOf c.station.workers id).filterMap Message.run?

/-- All unanswered tests of runs, with the workers that were asked for them. -/
def inFlight (c : Scene σ) : List (Nat × RunId) :=
  (List.range c.station.workers.length).flatMap fun id => (c.unanswered id).map (id, ·)

/-- Whether the thread of a worker has still something to do. -/
def isAtWork (c : Scene σ) (id : Nat) : Bool :=
  (c.station.worker? id).any Worker.isOpen || !(c.pending id).isEmpty

theorem unanswered_eq (c : Scene σ) (id : Nat) :
    c.unanswered id = (c.debts id).filterMap Debt.run? := by
  rw [unanswered, debts, List.filterMap_append, Debt.ofEffects, Debt.ofQueue,
    List.filterMap_filterMap, List.filterMap_filterMap]
  congr 2
  · funext e
    cases e with
    | note n => rfl
    | reply t reply =>
      cases t with
      | target id kind => rfl
      | run run => cases reply <;> rfl
  · funext m
    cases hm : m.run? <;> simp [Debt.run?]

/-- A list of numbers of which at most one matters. -/
theorem flatMap_range {α : Type} {f : Nat → List α} {id : Nat} (h : ∀ j, j ≠ id → f j = [])
    (n : Nat) : (List.range n).flatMap f = if id < n then f id else [] := by
  induction n with
  | zero => rfl
  | succ n ih =>
    rw [List.range_succ, List.flatMap_append, ih, List.flatMap_cons, List.flatMap_nil,
      List.append_nil]
    by_cases hn : n = id
    · subst hn
      simp
    · rw [h n hn, List.append_nil]
      have hlt : id < n + 1 ↔ id < n := by omega
      simp only [hlt]

theorem Sound.lt_of_debts {c : Scene σ} (h : c.Sound) {id : Nat} (hd : c.debts id ≠ []) :
    id < c.station.workers.length := by
  by_contra hn
  have hle : c.station.workers.length ≤ id := Nat.le_of_not_lt hn
  refine hd ?_
  rw [debts, h.away id hle, Station.queueOf, List.getElem?_eq_none hle]
  rfl

theorem Sound.isAtWork {c : Scene σ} (h : c.Sound) {id : Nat} (hd : c.debts id ≠ []) :
    c.isAtWork id = true := by
  have hid := h.lt_of_debts hd
  have hw : c.station.worker? id = some c.station.workers[id] := List.getElem?_eq_getElem hid
  by_cases hp : c.pending id = []
  · have hq : c.station.workers[id].queue ≠ [] := by
      intro hq
      refine hd ?_
      rw [debts, hp, Station.queueOf_eq hw, hq]
      rfl
    have ho : c.station.workers[id].isOpen = true := by
      rw [Worker.isOpen_iff]
      by_contra hs
      exact hq (h.shut _ (List.getElem_mem hid) hs)
    simp [Scene.isAtWork, hw, ho]
  · simp [Scene.isAtWork, hp]

theorem Sound.inFlight_eq_nil {c : Scene σ} (h : c.Sound) (hp : c.phase.isUnderWay = false) :
    c.inFlight = [] := by
  refine List.flatMap_eq_nil_iff.2 fun id _ => ?_
  rw [unanswered_eq, h.flow.eq_nil hp id]
  rfl

theorem Sound.inFlight_eq {c : Scene σ} (h : c.Sound) (hp : c.phase.isUnderWay = true) :
    ∃ id run, c.station.current = some run ∧ c.inFlight = [(id, run)] ∧
      c.isAtWork id = true := by
  obtain ⟨id, run, hcur, hs, ho⟩ := h.flow.of_isUnderWay hp
  refine ⟨id, run, hcur, ?_, h.isAtWork hs.ne_nil⟩
  have hother : ∀ j, j ≠ id → (c.unanswered j).map (j, ·) = [] := fun j hj => by
    rw [unanswered_eq, ho j hj]
    rfl
  rw [inFlight, flatMap_range hother, if_pos (h.lt_of_debts hs.ne_nil), unanswered_eq,
    hs.filterMap_run?]
  rfl

end Scene
end LinkTest
