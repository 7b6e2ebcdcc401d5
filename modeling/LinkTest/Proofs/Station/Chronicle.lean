import Mathlib.Data.List.Induction
import LinkTest.Proofs.Station.Requests
import LinkTest.Proofs.Station.Stream

/-!
# The chronicle of a schedule

A chronicle notes, in their order, how the calls for the tests of runs have ended, which events were
published in the course of which run, and when the latest record was cleared. It is kept beside the
schedule and not by the station.
-/

namespace LinkTest.Scene

variable {σ : Type}

inductive Entry
  /-- A call for the test of this run has ended in this way. -/
  | tested (run : RunId) (outcome : Outcome Record)
  /-- This event was published while this was the current run. -/
  | published (current : Option RunId) (e : Event)
  | cleared

namespace Entry

def isCleared : Entry → Bool
  | cleared => true
  | _ => false

/-- The record with which a run was announced to be completed. -/
def completed? : Entry → Option Record
  | published _ (.testCompleted r) => some r
  | _ => none

def event? : Entry → Option Event
  | published _ e => some e
  | _ => none

def outcome? (run : RunId) : Entry → Option (Outcome Record)
  | tested run' outcome => if run' = run then some outcome else none
  | _ => none

end Entry

/-- The record that was announced last, if the latest one was not cleared since then. -/
def latestOf (es : List Entry) : Option Record :=
  (es.reverse.takeWhile (!·.isCleared)).findSome? Entry.completed?

/-- How the calls for the test of a run have ended, the oldest first. -/
def testsOf (run : RunId) (es : List Entry) : List (Outcome Record) :=
  es.filterMap (Entry.outcome? run)

@[simp] theorem testsOf_append (run : RunId) (es fs : List Entry) :
    testsOf run (es ++ fs) = testsOf run es ++ testsOf run fs := List.filterMap_append

/-- Entries that say nothing of completed runs or of clearing. -/
theorem latestOf_append {es fs : List Entry}
    (h : ∀ e ∈ fs, e.completed? = none ∧ e.isCleared = false) :
    latestOf (es ++ fs) = latestOf es := by
  have hkept : ∀ e ∈ fs.reverse, (!e.isCleared) = true := fun e he => by
    rw [(h e (List.mem_reverse.1 he)).2]
    rfl
  have hnone : fs.reverse.findSome? Entry.completed? = none :=
    List.findSome?_eq_none_iff.2 fun e he => (h e (List.mem_reverse.1 he)).1
  rw [latestOf, List.reverse_append, List.takeWhile_append_of_pos hkept, List.findSome?_append,
    hnone]
  rfl

theorem latestOf_concat_completed (es : List Entry) (current : Option RunId) (r : Record) :
    latestOf (es ++ [.published current (.testCompleted r)]) = some r := by
  rw [latestOf, List.reverse_append]
  rfl

theorem latestOf_concat_cleared (es : List Entry) : latestOf (es ++ [.cleared]) = none := by
  rw [latestOf, List.reverse_append]
  rfl

/-- What the latest record is after a completed run that no other has followed. -/
theorem latestOf_of_completed {before after : List Entry} {current : Option RunId} {r : Record}
    (h : ∀ e ∈ after, e.completed? = none) :
    latestOf (before ++ .published current (.testCompleted r) :: after) =
      if after.any Entry.isCleared then none else some r := by
  induction after using List.reverseRecOn with
  | nil => exact latestOf_concat_completed before current r
  | append_singleton after e ih =>
    have hafter := ih fun e he => h e (List.mem_append_left _ he)
    have he : e.completed? = none := h e (by simp)
    rw [← List.cons_append, ← List.append_assoc, List.any_append]
    cases hc : e.isCleared with
    | true =>
      obtain rfl : e = .cleared := by
        cases e with
        | cleared => rfl
        | _ => cases hc
      rw [latestOf_concat_cleared, List.any_cons, hc, Bool.true_or, Bool.or_true, if_pos rfl]
    | false =>
      rw [latestOf_append (by simp [hc, he]), hafter]
      simp [hc]

/-- The latest record is one that was announced. -/
theorem mem_of_latestOf {es : List Entry} {r : Record} (h : latestOf es = some r) :
    ∃ current, .published current (.testCompleted r) ∈ es := by
  obtain ⟨e, he, hr⟩ := List.exists_of_findSome?_eq_some h
  have hmem : e ∈ es := List.mem_reverse.1 ((List.takeWhile_sublist _).subset he)
  cases e with
  | published current news =>
    cases news with
    | testCompleted s =>
      obtain rfl : s = r := Option.some.inj hr
      exact ⟨current, hmem⟩
    | _ => cases hr
  | _ => cases hr

/-! ## Entries of moves -/

variable [Server σ]

/-- The call for the test of a run that is made in a move, and how it ends. -/
def tested? (c : Scene σ) : Move σ → Option (RunId × Outcome Record)
  | .take id =>
    match c.station.worker? id with
    | none => none
    | some w => if (c.pending id).isEmpty && !w.held then w.test? else none
  | _ => none

def entries (c : Scene σ) (m : Move σ) : List Entry :=
  (c.tested? m).toList.map (fun (run, outcome) => .tested run outcome) ++
    (c.published m).map (.published c.station.current) ++
    if m.clears then [.cleared] else []

/-- What is noted of a schedule. -/
def chronicle (c : Scene σ) : List (Move σ) → List Entry
  | [] => []
  | m :: rest => c.entries m ++ (c.apply m).chronicle rest

theorem chronicle_append (c : Scene σ) (before after : List (Move σ)) :
    c.chronicle (before ++ after) = c.chronicle before ++ (c.run before).chronicle after := by
  induction before generalizing c with
  | nil => rfl
  | cons m rest ih => simp only [List.cons_append, chronicle, run_cons, ih, List.append_assoc]

theorem chronicle_concat (c : Scene σ) (moves : List (Move σ)) (m : Move σ) :
    c.chronicle (moves ++ [m]) = c.chronicle moves ++ (c.run moves).entries m := by
  rw [chronicle_append, chronicle, chronicle, List.append_nil]

theorem testsOf_entries (run : RunId) (c : Scene σ) (m : Move σ) :
    testsOf run (c.entries m) =
      ((c.tested? m).toList.map (fun (run, outcome) => Entry.tested run outcome)).filterMap
        (Entry.outcome? run) := by
  have hpub : ∀ es : List Event, (es.map (Entry.published c.station.current)).filterMap
      (Entry.outcome? run) = [] := by
    intro es
    rw [List.filterMap_map, List.filterMap_eq_nil_iff]
    exact fun _ _ => rfl
  rw [testsOf, entries, List.filterMap_append, List.filterMap_append, hpub]
  split <;> simp [Entry.outcome?]

theorem mem_entries {c : Scene σ} {m : Move σ} {e : Entry} (h : e ∈ c.entries m) :
    (∃ run outcome, e = .tested run outcome) ∨
      (∃ news ∈ c.published m, e = .published c.station.current news) ∨
      e = .cleared ∧ m.clears = true := by
  simp only [entries, List.mem_append, List.mem_map] at h
  rcases h with (⟨⟨run, outcome⟩, -, rfl⟩ | ⟨news, hn, rfl⟩) | h
  · exact .inl ⟨run, outcome, rfl⟩
  · exact .inr (.inl ⟨news, hn, rfl⟩)
  · split at h
    · next hk => exact .inr (.inr ⟨List.mem_singleton.1 h, hk⟩)
    · cases h

theorem completed?_entries {c : Scene σ} {m : Move σ}
    (hn : ∀ e ∈ c.published m, e.kind ≠ .testCompleted) :
    ∀ e ∈ c.entries m, e.completed? = none := by
  intro e he
  rcases mem_entries he with ⟨run, outcome, rfl⟩ | ⟨news, hnews, rfl⟩ | ⟨rfl, -⟩
  · rfl
  · cases news with
    | testCompleted r => exact absurd rfl (hn _ hnews)
    | _ => rfl
  · rfl

theorem isCleared_entries {c : Scene σ} {m : Move σ} (hk : m.clears = false) :
    ∀ e ∈ c.entries m, e.isCleared = false := by
  intro e he
  rcases mem_entries he with ⟨run, outcome, rfl⟩ | ⟨news, -, rfl⟩ | ⟨-, hk'⟩
  · rfl
  · rfl
  · rw [hk] at hk'
    cases hk'

theorem entries_of_clears {c : Scene σ} {m : Move σ} (hk : m.clears = true) :
    c.entries m = [.cleared] := by
  cases m with
  | clearLatest =>
    rw [entries, published_of_not_driving rfl]
    rfl
  | _ => cases hk

theorem entries_carry (c : Scene σ) (id : Nat) :
    c.entries (.carry id) = (c.published (.carry id)).map (.published c.station.current) :=
  List.append_nil _

/-! ## The chronicle and the bus -/

theorem received_of_made {c c' : Scene σ} {m : Move σ} {news : List Event}
    (hl : m.isListening = false) (h : Made c m news c') : c'.received = c.received := by
  cases h with
  | aside hm => exact ((aside_of_not_driving hm c).bus hl).2
  | taken id =>
    rcases c.take_eq id with ht | ⟨w, stamps, stamped, -, -, ht⟩ <;> rw [apply, ht]
  | _ => rfl

/-- What a move publishes is heard by whoever watches the bus. -/
theorem heard_apply_published {c : Scene σ} {m : Move σ} {id : Nat} (hk : m.keeps id = true)
    (hw : c.station.bus.Watched id) : (c.apply m).station.bus.Watched id ∧
      (c.apply m).heard id = c.heard id ++ c.published m := by
  cases hl : m.isListening with
  | true =>
    rw [published_of_isListening hl, List.append_nil]
    exact heard_of_isListening hl hk hw
  | false =>
    obtain ⟨news, c', log, hn, h, hc⟩ := c.made hl
    obtain ⟨hw', hp⟩ := hw.publishAll news
    rw [hc, hn]
    refine ⟨hw', ?_⟩
    calc (c'.wired (c.station.bus.publishAll news) log).heard id
        = c'.received id ++ (c.station.bus.publishAll news).pendingOf id := rfl
      _ = c.received id ++ (c.station.bus.pendingOf id ++ news) := by
          rw [received_of_made hl h, hp]
      _ = c.heard id ++ news := (List.append_assoc _ _ _).symm

theorem events_entries (c : Scene σ) (m : Move σ) :
    (c.entries m).filterMap Entry.event? = c.published m := by
  have htested : ((c.tested? m).toList.map fun (run, outcome) =>
      Entry.tested run outcome).filterMap Entry.event? = [] := by
    rw [List.filterMap_map, List.filterMap_eq_nil_iff]
    exact fun _ _ => rfl
  have hpublished : ((c.published m).map (Entry.published c.station.current)).filterMap
      Entry.event? = c.published m := by
    rw [List.filterMap_map]
    exact List.filterMap_some
  rw [entries, List.filterMap_append, List.filterMap_append, htested, hpublished, List.nil_append]
  split <;> simp [Entry.event?]

/-- The events of the chronicle are those that a watching subscription hears. -/
theorem heard_run {c : Scene σ} {id : Nat} (hw : c.station.bus.Watched id) {moves : List (Move σ)}
    (hk : ∀ m ∈ moves, m.keeps id = true) :
    (c.run moves).heard id = c.heard id ++ (c.chronicle moves).filterMap Entry.event? := by
  induction moves generalizing c with
  | nil => exact (List.append_nil _).symm
  | cons m rest ih =>
    obtain ⟨hw', hh⟩ := heard_apply_published (hk m List.mem_cons_self) hw
    rw [run_cons, ih hw' fun x hx => hk x (List.mem_cons_of_mem m hx), hh, chronicle,
      List.filterMap_append, events_entries, List.append_assoc]

end LinkTest.Scene
