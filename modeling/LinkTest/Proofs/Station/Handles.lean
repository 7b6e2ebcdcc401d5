import Mathlib.Data.List.Basic
import LinkTest.Proofs.Station.Scene

/-!
# Owners and holders of handles

A move that does not drive a run makes no call, sends no message on behalf of a run, and leaves the
lifecycle and the count of runs as they are, but for the latest record, which may be cleared. The
worker that makes the runs changes when another one is bound, and at no other time.
-/

namespace LinkTest

/-- The run on whose behalf a message is sent, if it says so. -/
def Message.forRun? : Message → Option RunId
  | .requestTest (.run run) => some run
  | .report _ (some (.run run)) => some run
  | _ => none

namespace Station

variable {σ : Type}

/-- What becomes of the workers by what others than runs do: none makes a call, and what is sent is
not sent on behalf of a run. -/
inductive Handed (ws : List (Worker σ)) : List (Worker σ) → Prop
  | same : Handed ws ws
  | hired (server : σ) (own : Credentials) (limit : Span) :
    Handed ws (ws ++ [.new server own limit])
  | handed {id : Nat} {w w' : Worker σ} {ms : List Message} (hw : ws[id]? = some w)
    (hc : w'.calls = w.calls) (hq : w'.queue = w.queue ++ ms)
    (hm : ∀ m ∈ ms, m.forRun? = none) : Handed ws (ws.set id w')

/-- A change of one worker that concerns neither its queue nor its calls. -/
theorem Handed.of_frame {ws : List (Worker σ)} {id : Nat} {w w' : Worker σ}
    (hw : ws[id]? = some w) (hc : w'.calls = w.calls) (hq : w'.queue = w.queue) :
    Handed ws (ws.set id w') :=
  .handed hw hc (hq.trans (List.append_nil _).symm) (by simp)

theorem Handed.of_farewell {ws : List (Worker σ)} {id : Nat} {w w' : Worker σ}
    (hw : ws[id]? = some w)
    (h : ∃ owner running,
      w' = { w with owner := owner, running := running, queue := w.queue ++ w.farewell }) :
    Handed ws (ws.set id w') := by
  obtain ⟨owner, running, rfl⟩ := h
  refine .handed hw rfl rfl fun m hm => ?_
  unfold Worker.farewell at hm
  split at hm
  · rw [List.mem_singleton.1 hm]
    rfl
  · cases hm

theorem handed_startWorker (id : Nat) (s : Station σ) :
    Handed s.workers (s.startWorker id).2.workers := by
  unfold startWorker Worker.start
  split
  · exact .same
  · next w hw =>
    by_cases hu : w.thread = .unstarted
    · simp only [hu, if_true]
      exact .of_frame hw rfl rfl
    · simp only [hu, if_false]
      exact .same

theorem handed_stopWorker (id : Nat) (s : Station σ) :
    Handed s.workers (s.stopWorker id).workers := by
  unfold stopWorker
  split
  · exact .same
  · next w hw => exact .of_farewell hw w.stop_fst

theorem handed_dropWorker (id : Nat) (s : Station σ) :
    Handed s.workers (s.dropWorker id).workers := by
  unfold dropWorker
  split
  · exact .same
  · next w hw => exact .of_farewell hw w.drop_eq

theorem handed_hold (id : Nat) (s : Station σ) : Handed s.workers (s.hold id).2.workers := by
  unfold hold
  split
  · exact .same
  · next w hw =>
    split
    · exact .of_frame hw rfl rfl
    · exact .same

theorem handed_resume (id : Nat) (s : Station σ) : Handed s.workers (s.resume id).workers := by
  simp only [resume, List.modify_eq_set_getElem?]
  cases hw : s.workers[id]? with
  | none => exact .same
  | some w => exact .of_frame hw rfl rfl

theorem handed_send (thread : String) (id : Nat) {m : Message} (hm : m.forRun? = none)
    (s : Station σ) : Handed s.workers (s.send thread id m).2.workers := by
  unfold send Worker.enqueue
  split
  · exact .same
  · next w hw =>
    by_cases ho : w.isOpen
    · simp only [ho, if_true]
      exact .handed hw rfl rfl (by simpa using hm)
    · simp only [ho]
      exact .same

end Station

namespace Scene

variable {σ : Type} [Server σ]

/-- The worker that a move binds. -/
def Move.binds? : Move σ → Option Nat
  | .bind id => some id
  | _ => none

/-- Whether a move clears the latest record. -/
def Move.clears : Move σ → Bool
  | .clearLatest => true
  | _ => false

/-- What a move that does not drive a run does to the lifecycle, the binding and the workers. -/
structure Beside (m : Move σ) (c : Scene σ) : Prop where
  lifecycle : (c.apply m).station.lifecycle =
    if m.clears then c.station.lifecycle.clearLatest else c.station.lifecycle
  bound : (c.apply m).station.bound = m.binds?.or c.station.bound
  begun : (c.apply m).station.begun = c.station.begun
  handed : Station.Handed c.station.workers (c.apply m).station.workers

/-- Moves that concern the workers alone. -/
theorem Beside.of_spec {m : Move σ} {c : Scene σ} (hk : m.clears = false) (hb : m.binds? = none)
    (h : ∃ workers log, (c.apply m).station = { c.station with workers := workers, log := log } ∧
      Station.Staffed c.station.workers workers)
    (hh : Station.Handed c.station.workers (c.apply m).station.workers) : Beside m c := by
  obtain ⟨workers, log, h, -⟩ := h
  refine ⟨?_, ?_, ?_, hh⟩
  · rw [h, hk]
    rfl
  · rw [h, hb]
    rfl
  · rw [h]

theorem beside_of_not_driving {m : Move σ} (hm : m.isDriving = false) (c : Scene σ) :
    Beside m c := by
  cases m with
  | addWorker server own limit => exact ⟨rfl, rfl, rfl, .hired server own limit⟩
  | startWorker id =>
    exact .of_spec rfl rfl (c.station.startWorker_spec id) (c.station.handed_startWorker id)
  | stopWorker id =>
    exact .of_spec rfl rfl (c.station.stopWorker_spec id) (c.station.handed_stopWorker id)
  | dropWorker id =>
    exact .of_spec rfl rfl (c.station.dropWorker_spec id) (c.station.handed_dropWorker id)
  | hold id => exact .of_spec rfl rfl (c.station.hold_spec id) (c.station.handed_hold id)
  | resume id => exact .of_spec rfl rfl (c.station.resume_spec id) (c.station.handed_resume id)
  | login id credentials =>
    exact .of_spec rfl rfl (c.station.send_spec _ id rfl) (c.station.handed_send _ id rfl)
  | requestTest id target kind =>
    exact .of_spec rfl rfl (c.station.send_spec _ id rfl) (c.station.handed_send _ id rfl)
  | report id r t =>
    exact .of_spec rfl rfl (c.station.send_spec _ id rfl)
      (c.station.handed_send _ id (by cases t <;> rfl))
  | addTarget kind => exact ⟨rfl, rfl, rfl, .same⟩
  | dropTarget id => exact ⟨rfl, rfl, rfl, .same⟩
  | bind id => exact ⟨rfl, rfl, rfl, .same⟩
  | clearLatest => exact ⟨rfl, rfl, rfl, .same⟩
  | setLevel level => exact ⟨rfl, rfl, rfl, .same⟩
  | subscribe kinds => exact ⟨rfl, rfl, rfl, .same⟩
  | unsubscribe id => exact ⟨rfl, rfl, rfl, .same⟩
  | letGo id => exact ⟨rfl, rfl, rfl, .same⟩
  | receive id => exact ⟨rfl, rfl, rfl, .same⟩
  | drain id => exact ⟨rfl, rfl, rfl, .same⟩
  | startTest => cases hm
  | acknowledge => cases hm
  | take id => cases hm
  | carry id => cases hm

end Scene
end LinkTest
