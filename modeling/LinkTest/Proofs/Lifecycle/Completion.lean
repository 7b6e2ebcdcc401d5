import LinkTest.Proofs.Lifecycle.History

/-!
# Lifecycles that are completed

Two operations enter the phase `completed`: the one that brings the record of the run, and a plain
transition, which brings none. Whichever it was, before it the run was claimed and its test began,
and nothing has succeeded since. So a completed lifecycle holds the valid record of this very run if
one was brought, and otherwise what an earlier run has left.
-/

namespace LinkTest

namespace Lifecycle

theorem Operation.eq_transition_of_target? {o : Operation} (h : o.target? = some .testing) :
    o = .transition .testing := by
  cases o with
  | transition p => rw [Option.some.inj h]
  | _ => cases h

/-- The record that operations leave which have all succeeded. -/
def recordOf (done : List Operation) : Option Record :=
  done.foldl (fun latest o => o.stored latest) none

@[simp] theorem recordOf_concat (done : List Operation) (o : Operation) :
    recordOf (done ++ [o]) = o.stored (recordOf done) := by
  rw [recordOf, List.foldl_append]
  rfl

/-- The operations since the pipeline was claimed last. -/
def sinceClaim (done : List Operation) : List Operation :=
  (done.reverse.takeWhile fun o => o.target? ≠ some .preparing).reverse

/-- How operations that have all succeeded lead to a phase, back to the claim of the run if there is
one. -/
inductive Way : Phase → List Operation → Prop
  | idle (done : List Operation) : Way .idle done
  | preparing (before : List Operation) {claim : Operation}
    (hc : claim.target? = some .preparing) : Way .preparing (before ++ [claim])
  | testing (before : List Operation) {claim : Operation}
    (hc : claim.target? = some .preparing) : Way .testing (before ++ [claim, .transition .testing])
  | completed (before : List Operation) {claim last : Operation}
    (hc : claim.target? = some .preparing) (hl : last.target? = some .completed) :
    Way .completed (before ++ [claim, .transition .testing, last])

theorem Way.enter {p q : Phase} {done : List Operation} {o : Operation} (h : Way p done)
    (he : p.mayEnter q = true) (ho : o.target? = some q) : Way q (done ++ [o]) := by
  cases h with
  | idle =>
    cases q with
    | preparing => exact .preparing done ho
    | _ => cases he
  | preparing before hc =>
    cases q with
    | idle => exact .idle _
    | testing =>
      obtain rfl := Operation.eq_transition_of_target? ho
      rw [List.append_assoc]
      exact .testing before hc
    | _ => cases he
  | testing before hc =>
    cases q with
    | idle => exact .idle _
    | completed =>
      rw [List.append_assoc]
      exact .completed before hc ho
    | _ => cases he
  | completed =>
    cases q with
    | idle => exact .idle _
    | _ => cases he

end Lifecycle

namespace Station

open Lifecycle

variable {σ : Type}

/-- The operations that succeed, in their order. -/
def successes (s : Station σ) : List (String × Operation) → List Operation
  | [] => []
  | (thread, o) :: rest =>
    (if (s.operate thread o).1 then [o] else []) ++ (s.operate thread o).2.successes rest

/-- What a lifecycle owes to the operations that have succeeded, none of which has cleared it. -/
structure Earned (l : Lifecycle) (done : List Operation) : Prop where
  latest : l.latest = recordOf done
  valid : ∀ r, .complete r ∈ done → r.isValid = true
  way : Way l.phase done

/-- An invalid record does not complete a run. -/
theorem isValid_of_operate {s : Station σ} {thread : String} {r : Record}
    (h : (s.operate thread (.complete r)).1 = true) : r.isValid = true := by
  by_contra hr
  have hrefused : s.lifecycle.complete r =
      .error (.invalidRecord "cannot complete a run with an invalid record") := if_neg hr
  rw [operate, complete, hrefused] at h
  cases h

theorem Earned.operate {s : Station σ} {done : List Operation} (h : Earned s.lifecycle done)
    (thread : String) {o : Operation} (ho : o ≠ .clearLatest) :
    Earned (s.operate thread o).2.lifecycle
      (done ++ if (s.operate thread o).1 then [o] else []) := by
  have hvalid : ∀ r, o = .complete r → (s.operate thread o).1 = true → r.isValid = true := by
    rintro r rfl hok
    exact isValid_of_operate hok
  have hop := s.operated thread o
  generalize (s.operate thread o).1 = ok at hop hvalid ⊢
  generalize (s.operate thread o).2.lifecycle = l at hop ⊢
  cases hop with
  | entered hp he =>
    refine ⟨?_, fun r hr => ?_, h.way.enter he hp⟩
    · rw [if_pos rfl, recordOf_concat, h.latest]
    · rcases List.mem_append.1 hr with hr | hr
      · exact h.valid r hr
      · exact hvalid r (List.mem_singleton.1 hr).symm rfl
  | cleared => exact absurd rfl ho
  | refused => rwa [if_neg Bool.false_ne_true, List.append_nil]

theorem Earned.operateAll {s : Station σ} {done : List Operation} (h : Earned s.lifecycle done)
    {os : List (String × Operation)} (hos : ∀ x ∈ os, x.2 ≠ .clearLatest) :
    Earned (s.operateAll os).lifecycle (done ++ s.successes os) := by
  induction os generalizing s done with
  | nil => rwa [successes, List.append_nil]
  | cons x rest ih =>
    obtain ⟨thread, o⟩ := x
    obtain ⟨ho, hrest⟩ := List.forall_mem_cons.1 hos
    rw [successes, ← List.append_assoc]
    exact ih (h.operate thread ho) hrest

/-- A lifecycle that has just begun may be asked for anything but to clear its record. Whenever it
is completed, the last three operations that have succeeded are the claim of the run, the beginning
of its test and the one that has completed it. If this one has brought a record, the record is valid
and the latest; if it is a plain transition, the latest is what there was when the run was claimed.
-/
theorem latest_of_completed (s : Station σ) (h : s.lifecycle = .start)
    (os : List (String × Operation)) (hos : ∀ x ∈ os, x.2 ≠ .clearLatest)
    (hp : (s.operateAll os).lifecycle.phase = .completed) :
    ∃ before claim last, s.successes os = before ++ [claim, .transition .testing, last] ∧
      claim.target? = some .preparing ∧
      ((∃ r, last = .complete r ∧ r.isValid = true ∧
          (s.operateAll os).lifecycle.latest = some r) ∨
        (last = .transition .completed ∧
          (s.operateAll os).lifecycle.latest = recordOf before)) := by
  have hstart : Earned s.lifecycle [] := by
    rw [h]
    exact ⟨rfl, fun r hr => (List.not_mem_nil hr).elim, .idle []⟩
  obtain ⟨hlatest, hvalid, hway⟩ := hstart.operateAll hos
  rw [List.nil_append] at hlatest hvalid hway
  rw [hp] at hway
  generalize s.successes os = done at hlatest hvalid hway ⊢
  cases hway with
  | @completed before claim last hc hl =>
    have hthrough : recordOf (before ++ [claim, .transition .testing, last]) =
        last.stored (claim.stored (recordOf before)) := by
      rw [recordOf, List.foldl_append]
      rfl
    refine ⟨before, claim, last, rfl, hc, ?_⟩
    rw [hlatest, hthrough]
    cases last with
    | complete r => exact .inl ⟨r, rfl, hvalid r (by simp), rfl⟩
    | transition p =>
      obtain rfl : p = .completed := Option.some.inj hl
      refine .inr ⟨rfl, ?_⟩
      cases claim with
      | beginRun => rfl
      | transition p => rfl
      | _ => cases hc
    | _ => cases hl

/-- A run is completed with a record and seen, and the next one is declared completed. -/
def declared (r : Record) : List (String × Operation) :=
  [.beginRun, .transition .testing, .complete r, .acknowledge, .beginRun, .transition .testing,
    .transition .completed].map ("main", ·)

theorem latest_of_declared :
    let s : Station Unit := .start fun _ => default
    let os := declared (Record.measured default (.ofList [
      ("latency_ms", .number (.ofNat 42)), ("throughput_mbps", .number (.ofNat 87))]))
    s.lifecycle = .start ∧ (∀ x ∈ os, x.2 ≠ .clearLatest) ∧
      (s.operateAll os).lifecycle.phase = .completed ∧
      ∃ before claim last, s.successes os = before ++ [claim, .transition .testing, last] ∧
        claim.target? = some .preparing ∧
        ((∃ r, last = .complete r ∧ r.isValid = true ∧
            (s.operateAll os).lifecycle.latest = some r) ∨
          (last = .transition .completed ∧
            (s.operateAll os).lifecycle.latest = recordOf before)) := by
  intro s os
  have hos : ∀ x ∈ os, x.2 ≠ .clearLatest := by simp [os, declared]
  have hp : (s.operateAll os).lifecycle.phase = .completed := by decide +kernel
  exact ⟨rfl, hos, hp, latest_of_completed s rfl os hos hp⟩

/-- A lifecycle that is completed does not always hold a record of the run. -/
theorem not_available_of_completed : ¬ ∀ os : List (String × Operation),
    (∀ x ∈ os, x.2 ≠ .clearLatest) →
    let s : Station Unit := .start fun _ => default
    (s.operateAll os).lifecycle.phase = .completed →
    ∃ r, (s.operateAll os).lifecycle.latest = some r ∧ r.isValid = true ∧
      .complete r ∈ sinceClaim (s.successes os) := by
  intro h
  obtain ⟨r, hr, -⟩ := h
    ([.beginRun, .transition .testing, .transition .completed].map ("main", ·)) (by simp) rfl
  cases hr

end Station
end LinkTest
