import LinkTest.Proofs.Station.Custody

/-!
# Each run is tested once

The request of a run is made by the caller who has begun it, and it is taken once. So no run is
tested twice, in any order in which the sections of all operations are done.
-/

namespace LinkTest

open Station (Visit Duty)

/-- A caller has a run to ask for since before, or it has begun just now. -/
theorem Station.Visit.Made.run? {σ : Type} {s t : Station σ} {v u : Visit} {news : List Event}
    {run : RunId} (h : v.Made s news (.inl u) t) (hu : u.run? = some run) :
    v.run? = some run ∨ (∃ id, v = .enlist id) ∧ run = ⟨s.begun⟩ := by
  generalize hn : Sum.inl u = n at h
  cases h with
  | enlisted id =>
    cases hn
    exact .inr ⟨⟨id, rfl⟩, (Option.some.inj hu).symm⟩
  | _ => cases hn <;> first | exact .inl hu | cases hu

namespace Ensemble

variable {σ : Type} [Server σ] {e : Ensemble σ}

/-- The worker that would take its oldest message now. -/
def taker? (e : Ensemble σ) (id : Nat) : Option (Worker σ) :=
  if (e.duties id).isSome then none else e.scene.taker? id

omit [Server σ] in
theorem taker?_eq_some_iff {id : Nat} {w : Worker σ} :
    e.taker? id = some w ↔ e.duties id = none ∧ e.scene.taker? id = some w := by
  unfold taker?
  cases e.duties id <;> simp

theorem apply_take_of_taker? {id : Nat} (h : e.taker? id = none) : e.apply (.take id) = e := by
  unfold taker? at h
  unfold apply
  split at h
  · next hd => exact if_pos hd
  · next hd =>
    rcases Scene.take_cases id e.scene with ⟨-, ht⟩ | ⟨w, -, -, hw, -⟩
    · exact (if_neg hd).trans (by rw [ht])
    · cases h.symm.trans hw

/-- The test of a run that is made in a move, and how it ends. -/
def tested? (e : Ensemble σ) : Move σ → Option (RunId × Outcome Record)
  | .take id => (e.taker? id).bind Worker.test?
  | _ => none

end Ensemble
end LinkTest
