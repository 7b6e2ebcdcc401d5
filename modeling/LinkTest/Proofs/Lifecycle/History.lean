import Mathlib.Data.List.Chain
import LinkTest.Station.Basic

/-!
# The history of a lifecycle

Anyone may ask a lifecycle for its operations, in any order. One that succeeds enters one phase, along
an edge; one that is refused leaves everything as it was. However long this goes on, the history is
the end of the list of all phases that were entered.
-/

namespace LinkTest

namespace Lifecycle

/-! ## Ends of lists -/

variable {α : Type}

theorem length_lastOf (n : Nat) (l : List α) : (lastOf n l).length = min n l.length := by
  rw [lastOf, List.length_drop]
  omega

/-- A list has no more last elements than it has elements. -/
theorem lastOf_min (n : Nat) (l : List α) : lastOf (min n l.length) l = lastOf n l := by
  rw [lastOf, lastOf]
  congr 1
  omega

/-- What was left out before does not come back. -/
theorem lastOf_lastOf_append (n : Nat) (l : List α) {x : α} :
    lastOf n (lastOf n l ++ [x]) = lastOf n (l ++ [x]) := by
  by_cases hn : l.length ≤ n
  · rw [lastOf, lastOf, lastOf, Nat.sub_eq_zero_of_le hn, List.drop_zero]
  · have hle : l.length - n ≤ l.length := Nat.sub_le _ _
    have happ : lastOf n l ++ [x] = (l ++ [x]).drop (l.length - n) :=
      (List.drop_append_of_le_length hle).symm
    rw [happ, lastOf, lastOf, List.drop_drop]
    congr 1
    simp only [List.length_drop, List.length_append, List.length_singleton]
    omega

theorem getLast?_lastOf {n : Nat} (hn : n ≠ 0) (l : List α) :
    (lastOf n l).getLast? = l.getLast? := by
  rw [lastOf, List.getLast?_drop]
  split
  · next h =>
    have hl : l = [] := List.eq_nil_of_length_eq_zero (by omega)
    rw [hl]
    rfl
  · rfl

/-! ## Operations -/

inductive Operation
  | beginRun
  | transition (target : Phase)
  | complete (record : Record)
  | abort
  | acknowledge
  | clearLatest

/-- The phase that an operation enters if it succeeds. -/
def Operation.target? : Operation → Option Phase
  | beginRun => some .preparing
  | transition p => some p
  | complete _ => some .completed
  | abort => some .idle
  | acknowledge => some .idle
  | clearLatest => none

/-- What an operation does to the latest record if it succeeds. -/
def Operation.stored (o : Operation) (latest : Option Record) : Option Record :=
  match o with
  | complete r => some r
  | clearLatest => none
  | _ => latest

/-- What an operation does, and whether it reports success. -/
inductive Operated (l : Lifecycle) : Operation → Bool → Lifecycle → Prop
  | entered {o : Operation} {p : Phase} (ho : o.target? = some p) (he : l.phase.mayEnter p = true) :
    Operated l o true
      ⟨p, o.stored l.latest, lastOf historyLimit (l.history ++ [p])⟩
  | cleared : Operated l .clearLatest true ⟨l.phase, none, l.history⟩
  | refused {o : Operation} (ho : o.target?.isSome = true) : Operated l o false l

theorem transition_eq_ok {l l' : Lifecycle} {p : Phase} (h : l.transition p = .ok l') :
    l.phase.mayEnter p = true ∧ l' = l.enter p := by
  unfold transition at h
  split at h
  · next he => exact ⟨he, (Except.ok.inj h).symm⟩
  · cases h

theorem complete_eq_ok {l l' : Lifecycle} {r : Record} (h : l.complete r = .ok l') :
    l.phase.mayEnter .completed = true ∧ l' = { l.enter .completed with latest := some r } := by
  unfold complete at h
  split at h
  · cases ht : l.transition .completed with
    | error f =>
      rw [ht] at h
      cases h
    | ok m =>
      obtain ⟨he, rfl⟩ := transition_eq_ok ht
      rw [ht] at h
      exact ⟨he, (Except.ok.inj h).symm⟩
  · cases h

theorem abort_eq_ok {l l' : Lifecycle} (h : l.abort = .ok l') :
    l.phase.mayEnter .idle = true ∧ l' = l.enter .idle := by
  unfold abort at h
  split at h
  · exact transition_eq_ok h
  · exact transition_eq_ok h
  · cases h

theorem acknowledge_eq_ok {l l' : Lifecycle} (h : l.acknowledge = .ok l') :
    l.phase.mayEnter .idle = true ∧ l' = l.enter .idle := by
  unfold acknowledge at h
  split at h
  · exact transition_eq_ok h
  · cases h

end Lifecycle

namespace Station

open Lifecycle

variable {σ : Type}

/-- Asks the lifecycle for an operation, and answers whether it succeeds. -/
def operate (thread : String) (s : Station σ) : Operation → Bool × Station σ
  | .beginRun => s.beginRun
  | .transition p => ((s.transition thread p).1.isOk, (s.transition thread p).2)
  | .complete r => ((s.complete thread r).1.isOk, (s.complete thread r).2)
  | .abort => ((s.abort thread).1.isOk, (s.abort thread).2)
  | .acknowledge => ((s.acknowledge thread).1.isOk, (s.acknowledge thread).2)
  | .clearLatest => (true, s.clearLatest)

theorem operated_settleMove (thread : String) {attempt : Except Failure Lifecycle}
    (refused : List Note) {s : Station σ} {o : Operation} {p : Phase} (ho : o.target? = some p)
    (h : ∀ l, attempt = .ok l → s.lifecycle.phase.mayEnter p = true ∧
      l = ⟨p, o.stored s.lifecycle.latest, lastOf historyLimit (s.lifecycle.history ++ [p])⟩) :
    Operated s.lifecycle o (s.settleMove thread attempt refused).1.isOk
      (s.settleMove thread attempt refused).2.lifecycle := by
  cases attempt with
  | error f => exact .refused (by rw [ho]; rfl)
  | ok l =>
    obtain ⟨he, rfl⟩ := h l rfl
    exact .entered ho he

/-- Whatever is asked for, in whatever state. -/
theorem operated (thread : String) (o : Operation) (s : Station σ) :
    Operated s.lifecycle o (s.operate thread o).1 (s.operate thread o).2.lifecycle := by
  cases o with
  | beginRun =>
    simp only [operate, beginRun, Lifecycle.beginRun]
    by_cases hp : s.lifecycle.phase = .idle
    · rw [if_pos hp]
      exact .entered rfl (by rw [hp]; rfl)
    · rw [if_neg hp]
      exact .refused rfl
  | transition p => exact operated_settleMove thread _ rfl fun l hl => transition_eq_ok hl
  | complete r => exact operated_settleMove thread _ rfl fun l hl => complete_eq_ok hl
  | abort => exact operated_settleMove thread _ rfl fun l hl => abort_eq_ok hl
  | acknowledge => exact operated_settleMove thread _ rfl fun l hl => acknowledge_eq_ok hl
  | clearLatest => exact .cleared

/-! ## Sequences of operations -/

/-- Asks for one operation after the other, each on a thread. -/
def operateAll (s : Station σ) (os : List (String × Operation)) : Station σ :=
  os.foldl (fun s (thread, o) => (s.operate thread o).2) s

/-- The phases in which the operations that enter one and succeed leave the lifecycle. -/
def trace (s : Station σ) : List (String × Operation) → List Phase
  | [] => []
  | (thread, o) :: rest =>
    (if (s.operate thread o).1 && o.target?.isSome then [(s.operate thread o).2.lifecycle.phase]
      else []) ++ (s.operate thread o).2.trace rest

/-- How a lifecycle remembers the phases that it has been in. -/
structure Recalled (l : Lifecycle) (phases : List Phase) : Prop where
  history : l.history = lastOf historyLimit phases
  phase : phases.getLast? = some l.phase
  edges : phases.IsChain fun p q => p.mayEnter q = true

theorem Recalled.entered {l : Lifecycle} {phases : List Phase} (h : Recalled l phases) {p : Phase}
    (he : l.phase.mayEnter p = true) (latest : Option Record) :
    Recalled ⟨p, latest, lastOf historyLimit (l.history ++ [p])⟩ (phases ++ [p]) where
  history := by rw [h.history, lastOf_lastOf_append]
  phase := List.getLast?_concat
  edges := by
    refine h.edges.append (List.isChain_singleton p) fun x hx y hy => ?_
    obtain rfl : l.phase = x := Option.some.inj (h.phase.symm.trans hx)
    obtain rfl : p = y := Option.some.inj hy
    exact he

theorem Recalled.operateAll {s : Station σ} {phases : List Phase}
    (h : Recalled s.lifecycle phases) (os : List (String × Operation)) :
    Recalled (s.operateAll os).lifecycle (phases ++ s.trace os) := by
  induction os generalizing s phases with
  | nil => rwa [trace, List.append_nil]
  | cons x rest ih =>
    obtain ⟨thread, o⟩ := x
    have hop := s.operated thread o
    rw [trace, ← List.append_assoc]
    refine ih ?_
    generalize (s.operate thread o).1 = ok at hop ⊢
    generalize (s.operate thread o).2.lifecycle = l at hop ⊢
    cases hop with
    | entered ho he =>
      rw [ho]
      exact h.entered he _
    | cleared =>
      rw [show phases ++ (if true && Operation.clearLatest.target?.isSome then [s.lifecycle.phase]
        else []) = phases from List.append_nil phases]
      exact ⟨h.history, h.phase, h.edges⟩
    | refused ho =>
      rw [Bool.false_and, if_neg Bool.false_ne_true, List.append_nil]
      exact h

/-- A lifecycle that has just begun may be asked for anything in any order. Each further operation
that succeeds enters the one phase that it is for, along an edge, and adds this phase to the history,
unless it is the one that clears the latest record and moves nothing; each one that is refused
leaves the lifecycle as it was. The history is the end of the list of all phases from the first one
on: all of it as long as there is room. -/
theorem history_of_operations (s : Station σ) (h : s.lifecycle = .start)
    (os : List (String × Operation)) :
    let l := (s.operateAll os).lifecycle
    let trace := s.trace os
    (∀ thread o, Operated l o ((s.operateAll os).operate thread o).1
      ((s.operateAll os).operate thread o).2.lifecycle) ∧
    l.history = lastOf (min historyLimit (1 + trace.length)) (.idle :: trace) ∧
    l.history ≠ [] ∧ l.history.length ≤ historyLimit ∧ l.history.getLast? = some l.phase ∧
    l.history.IsChain (fun p q => p.mayEnter q = true) := by
  intro l trace
  have hstart : Recalled s.lifecycle [.idle] := by
    rw [h]
    exact ⟨rfl, rfl, List.isChain_singleton _⟩
  have hall : Recalled l (.idle :: trace) := hstart.operateAll os
  have hlast : l.history.getLast? = some l.phase := by
    rw [hall.history, getLast?_lastOf (by decide), hall.phase]
  refine ⟨fun thread o => (s.operateAll os).operated thread o, ?_, ?_, ?_, hlast, ?_⟩
  · rw [hall.history, ← lastOf_min, List.length_cons, Nat.add_comm]
  · intro hnil
    rw [hnil] at hlast
    cases hlast
  · rw [hall.history, length_lastOf]
    exact Nat.min_le_left _ _
  · rw [hall.history]
    exact hall.edges.drop _

/-- Runs that are begun and aborted until the history has no room for all their phases. -/
theorem history_of_many_runs :
    let s : Station Unit := .start fun _ => default
    let os := (List.replicate 20 [("main", Operation.beginRun), ("main", .abort)]).flatten
    s.lifecycle = .start ∧ (s.trace os).length = 40 ∧
      (s.operateAll os).lifecycle.history =
        lastOf (min historyLimit (1 + (s.trace os).length)) (.idle :: s.trace os) :=
  ⟨rfl, by decide +kernel, (history_of_operations _ rfl _).2.1⟩

end Station
end LinkTest
