import LinkTest.Proofs.Station.Examination

/-!
# Records from the server to the store

The record that is announced when a run is completed is the one that the server has returned from
the test of the run, and there was one such test. The latest record is the one announced last,
unless it was cleared. No invalid record is announced, kept or uploaded. All this holds whatever the
server does, crashes included.
-/

namespace LinkTest.Scene

variable {σ : Type} [Server σ]

/-! ## The lifecycle -/

/-- What a move does to the lifecycle, the current run and the latest record, and what it
publishes. -/
inductive Chapter (c : Scene σ) (m : Move σ) (news : List Event) (c' : Scene σ) : Prop
  | still (hk : m.clears = false) (hn : ∀ e ∈ news, e.kind = .reportRouter)
    (hl : c'.station.lifecycle = c.station.lifecycle)
    (hc : c'.station.current = c.station.current)
  | cleared (hk : m.clears = true) (hn : news = [])
    (hl : c'.station.lifecycle = c.station.lifecycle.clearLatest)
    (hc : c'.station.current = c.station.current)
  | turned (hk : m.clears = false) (hn : ∀ e ∈ news, e.kind ≠ .testCompleted)
    (hl : c'.station.lifecycle.latest = c.station.lifecycle.latest) (hp : c'.phase ≠ .completed)
  | completed {id : Nat} {run : RunId} {r : Record} {rest : List Effect} (hm : m = .carry id)
    (hpend : c.pending id = .reply (.run run) (.finished r) :: rest) (hr : r.isValid = true)
    (hc : c.station.current = some run)
    (hn : news = [.phaseChanged .testing .completed, .testCompleted r])
    (hl : c'.station.lifecycle.latest = some r) (hc' : c'.station.current = some run)
  | stray {id : Nat} {run : RunId} {r : Record} {rest : List Effect} (hk : m.clears = false)
    (hpend : c.pending id = .reply (.run run) (.finished r) :: rest)
    (hc : c.station.current = some run) (hn : ∀ e ∈ news, e.kind ≠ .testCompleted)
    (hl : c'.station.lifecycle = c.station.lifecycle)

theorem chapter_apply (m : Move σ) (c : Scene σ) : Chapter c m (c.published m) (c.apply m) := by
  cases hm : m.isDriving with
  | false =>
    have hb := beside_of_not_driving hm c
    have hl := hb.lifecycle
    rw [published_of_not_driving hm c]
    cases hk : m.clears with
    | true =>
      rw [hk, if_pos rfl] at hl
      exact .cleared hk rfl hl (aside_of_not_driving hm c).current
    | false =>
      rw [hk, if_neg Bool.false_ne_true] at hl
      exact .still hk (by simp) hl (aside_of_not_driving hm c).current
  | true =>
    have hk : m.clears = false := by cases m <;> first | rfl | cases hm
    obtain ⟨news, c', log, hn, h, hc⟩ := c.made (Move.isListening_of_isDriving hm)
    rw [hn, hc]
    cases h with
    | aside h => cases hm.symm.trans h
    | taken id =>
      obtain ⟨-, -, hl, hcur⟩ := c.take_frame id
      exact .still hk (by simp) hl hcur
    | refused m h => exact .still hk (by simp) rfl rfl
    | reached => exact .turned hk (by simp [Event.kind]) rfl nofun
    | unreached => exact .turned hk (by simp [Event.kind]) rfl nofun
    | acknowledged => exact .turned hk (by simp [Event.kind]) rfl nofun
    | waited => exact .still hk (by simp) rfl rfl
    | carried hp h =>
      cases h with
      | noted => exact .still hk (by simp) rfl rfl
      | deposited => exact .still hk (by simp) rfl rfl
      | replied h =>
        cases h with
        | ignored => exact .still hk (by simp) rfl rfl
        | uploaded => exact .still hk (by simp [Event.kind]) rfl rfl
        | begun => exact .turned hk (by simp [Event.kind]) rfl nofun
        | failed => exact .turned hk (by simp [Event.kind]) rfl nofun
        | completed hcur hph hr hw => exact .completed rfl hp hr hcur rfl rfl hcur
        | stray hcur hph hr => exact .stray hk hp hcur (by simp [Event.kind]) rfl

/-! ## Announcements -/

/-- The latest record is the one announced last. -/
theorem latest_apply {c : Scene σ} {es : List Entry}
    (h : c.station.lifecycle.latest = latestOf es) (m : Move σ) :
    (c.apply m).station.lifecycle.latest = latestOf (es ++ c.entries m) := by
  have hquiet : m.clears = false → (∀ e ∈ c.published m, e.kind ≠ .testCompleted) →
      latestOf (es ++ c.entries m) = c.station.lifecycle.latest := fun hk hn => by
    rw [latestOf_append fun e he => ⟨completed?_entries hn e he, isCleared_entries hk e he⟩, h]
  cases chapter_apply m c with
  | still hk hn hl =>
    rw [hquiet hk fun e he => by simp [hn e he], hl]
  | cleared hk hn hl =>
    rw [entries_of_clears hk, latestOf_concat_cleared, hl]
    rfl
  | turned hk hn hl => rw [hquiet hk hn, hl]
  | stray hk _ _ hn hl => rw [hquiet hk hn, hl]
  | completed hm _ _ _ hn hl =>
    subst hm
    rw [entries_carry, hn, hl, List.map_cons, List.map_singleton, List.append_cons,
      latestOf_concat_completed]

/-- Each record that was announced is valid and is what the test of the run that was current had
returned. -/
def Genuine (es : List Entry) : Prop :=
  ∀ before current r after, es = before ++ .published current (.testCompleted r) :: after →
    r.isValid = true ∧ ∃ run, current = some run ∧ testsOf run before = [.ended (.ok r)]

omit [Server σ] in
theorem Genuine.append {es fs : List Entry} (h : Genuine es)
    (hf : ∀ a current r b, fs = a ++ .published current (.testCompleted r) :: b →
      r.isValid = true ∧ ∃ run, current = some run ∧ testsOf run (es ++ a) = [.ended (.ok r)]) :
    Genuine (es ++ fs) := by
  intro before current r after he
  rcases List.append_eq_append_iff.1 he with ⟨a, rfl, hfs⟩ | ⟨c, rfl, hc⟩
  · exact hf a current r after hfs
  · cases c with
    | nil => simpa using hf [] current r after hc.symm
    | cons e rest =>
      rw [List.cons_append, List.cons.injEq] at hc
      obtain ⟨rfl, -⟩ := hc
      exact h before current r rest rfl

theorem Genuine.apply {c : Scene σ} {es : List Entry} (h : Genuine es) (hx : c.Examined es)
    (m : Move σ) : Genuine (es ++ c.entries m) := by
  refine h.append fun a current r b hf => ?_
  obtain ⟨e, he, hk⟩ : ∃ e ∈ c.published m, e.kind = .testCompleted := by
    by_contra hn
    have hnone := completed?_entries (fun e he hk => hn ⟨e, he, hk⟩)
      (.published current (.testCompleted r)) (by rw [hf]; simp)
    cases hnone
  cases chapter_apply m c with
  | still _ hn =>
    rw [hn e he] at hk
    cases hk
  | cleared _ hn =>
    rw [hn] at he
    cases he
  | turned _ hn => exact absurd hk (hn e he)
  | stray _ _ _ hn => exact absurd hk (hn e he)
  | @completed id run s rest hm hpend hr hc hn =>
    subst hm
    have howed := hx.owed id run s (by simp [hpend]) hr
    rw [entries_carry, hn, hc] at hf
    -- The record is announced after the change of the phase.
    cases a with
    | nil => simp at hf
    | cons f a =>
      cases a with
      | nil =>
        obtain ⟨rfl, ⟨rfl, rfl⟩, -⟩ : Entry.published (some run) (.phaseChanged .testing .completed)
            = f ∧ (some run = current ∧ s = r) ∧ b = [] := by simpa using hf
        refine ⟨hr, run, rfl, ?_⟩
        rw [testsOf_append, howed]
        rfl
      | cons g a => simp at hf

/-! ## Runs that are over -/

/-- A run has been completed with this record, and nothing but uploads was announced since. -/
structure Done (c : Scene σ) (es : List Entry) (run : RunId) (r : Record)
    (before after : List Entry) : Prop where
  split : es = before ++ .published (some run) (.testCompleted r) :: after
  quiet : ∀ current e, .published current e ∈ after → e.kind = .reportRouter
  current : c.station.current = some run
  begun : run.number < c.station.begun
  answered : ∀ id, run ∉ c.unanswered id

omit [Server σ] in
theorem mem_unanswered {c : Scene σ} {id : Nat} {run : RunId} {r : Record} {rest : List Effect}
    (hp : c.pending id = .reply (.run run) (.finished r) :: rest) : run ∈ c.unanswered id := by
  rw [unanswered, hp]
  exact List.mem_cons_self

/-- A run that was begun and has its answer never waits for one again. -/
theorem not_mem_unanswered_apply {c : Scene σ} {run : RunId} (hb : run.number < c.station.begun)
    (ha : ∀ id, run ∉ c.unanswered id) (m : Move σ) (id : Nat) :
    run ∉ (c.apply m).unanswered id := by
  intro hr
  cases requested_apply m c with
  | gone _ hu => exact ha id ((hu id).subset hr)
  | made k _ hu =>
    rw [hu, List.mem_append] at hr
    rcases hr with hr | hr
    · exact ha id hr
    · split at hr
      · rw [List.mem_singleton.1 hr] at hb
        exact Nat.lt_irrefl _ hb
      · cases hr

/-- A run that was told of the end of its test has no request left. -/
theorem Numbered.answered {c : Scene σ} (h : c.Numbered) {id : Nat} {run : RunId} {r : Record}
    {rest : List Effect} (hp : c.pending id = .reply (.run run) (.finished r) :: rest) (j : Nat) :
    run ∉ (c.apply (.carry id)).unanswered j := by
  have hsplit : c.unanswered j =
      (if j = id then [run] else []) ++ (c.apply (.carry id)).unanswered j := by
    rw [unanswered_eq, unanswered_eq, debts_carry hp j, List.filterMap_append]
    congr 1
    split <;> rfl
  intro hj
  by_cases hji : j = id
  · have hdup := h.nodup j
    rw [hsplit, if_pos hji, List.singleton_append, List.nodup_cons] at hdup
    exact hdup.1 hj
  · refine hji (h.apart j id run ?_ (mem_unanswered hp))
    rw [hsplit]
    exact List.mem_append_right _ hj

theorem Done.append {c : Scene σ} {es : List Entry} {run : RunId} {r : Record}
    {before after : List Entry} (h : c.Done es run r before after) {m : Move σ}
    (hc : (c.apply m).station.current = c.station.current)
    (hn : ∀ e ∈ c.published m, e.kind = .reportRouter) :
    (c.apply m).Done (es ++ c.entries m) run r before (after ++ c.entries m) where
  split := by rw [h.split, List.append_assoc, List.cons_append]
  quiet current e he := by
    rcases List.mem_append.1 he with he | he
    · exact h.quiet current e he
    · rcases mem_entries he with ⟨_, _, he⟩ | ⟨news, hnews, he⟩ | ⟨he, -⟩
      · cases he
      · obtain ⟨-, rfl⟩ : current = c.station.current ∧ e = news := by simpa using he
        exact hn e hnews
      · cases he
  current := hc.trans h.current
  begun := Nat.lt_of_lt_of_le h.begun (frame_apply m c).2
  answered := not_mem_unanswered_apply h.begun h.answered m

omit [Server σ] in
/-- What the latest record is while the run is the last one that was completed. -/
theorem Done.latestOf_eq {c : Scene σ} {es : List Entry} {run : RunId} {r : Record}
    {before after : List Entry} (h : c.Done es run r before after) :
    latestOf es = if after.any Entry.isCleared then none else some r := by
  rw [h.split]
  refine latestOf_of_completed fun e he => ?_
  cases e with
  | published current news =>
    have hk := h.quiet current news he
    cases news with
    | testCompleted s => cases hk
    | _ => rfl
  | _ => rfl

/-- While a run is shown as completed, it is the one that was completed last. -/
def Shown (c : Scene σ) (es : List Entry) : Prop :=
  c.phase = .completed → ∃ run r before after, c.Done es run r before after

theorem Shown.apply {c : Scene σ} {es : List Entry} (h : c.Shown es) (hn : c.Numbered)
    (m : Move σ) : (c.apply m).Shown (es ++ c.entries m) := by
  intro hp
  cases chapter_apply m c with
  | still hk hnews hl hc =>
    obtain ⟨run, r, before, after, hd⟩ := h ((congrArg Lifecycle.phase hl).symm.trans hp)
    exact ⟨run, r, before, _, hd.append hc hnews⟩
  | cleared hk hnews hl hc =>
    obtain ⟨run, r, before, after, hd⟩ := h ((congrArg Lifecycle.phase hl).symm.trans hp)
    exact ⟨run, r, before, _, hd.append hc (by simp [hnews])⟩
  | turned _ _ _ hne => exact absurd hp hne
  | stray _ hpend hc hnews hl =>
    -- The run that is shown has no request left, so this reply cannot be to it.
    obtain ⟨run, r, before, after, hd⟩ := h ((congrArg Lifecycle.phase hl).symm.trans hp)
    obtain rfl := Option.some.inj (hc.symm.trans hd.current)
    exact absurd (mem_unanswered hpend) (hd.answered _)
  | @completed id run r rest hm hpend hr hc hnews hl hc' =>
    subst hm
    refine ⟨run, r, es ++ [.published (some run) (.phaseChanged .testing .completed)], [], ?_, ?_,
      hc', ?_, hn.answered hpend⟩
    · rw [entries_carry, hnews, hc, List.append_assoc]
      rfl
    · simp
    · exact Nat.lt_of_lt_of_le (hn.begun id run (mem_unanswered hpend)) (frame_apply _ c).2

/-! ## Uploads -/

omit [Server σ] in
theorem uploadsValid_handed {ws ws' : List (Worker σ)} (h : Station.Handed ws ws')
    (hu : ∀ w ∈ ws, w.UploadsValid) : ∀ w ∈ ws', w.UploadsValid := by
  cases h with
  | same => exact hu
  | hired server own limit =>
    intro w hw token r hr
    rcases List.mem_append.1 hw with hw | hw
    · exact hu w hw token r hr
    · rw [List.mem_singleton.1 hw] at hr
      cases hr
  | handed hw hc hq hm => exact Station.forall_set hu ((hu _ (List.mem_of_getElem? hw)).of_calls hc)

/-- Whatever comes of a move, it uploads no invalid record. -/
theorem uploadsValid_apply {c : Scene σ} (h : ∀ w ∈ c.station.workers, w.UploadsValid)
    (m : Move σ) : ∀ w ∈ (c.apply m).station.workers, w.UploadsValid := by
  cases hm : m.isDriving with
  | false => exact uploadsValid_handed (beside_of_not_driving hm c).handed h
  | true =>
    -- A run sends messages, but only their worker makes calls for them.
    have hkept : ∀ {id : Nat} {w w' : Worker σ}, c.station.worker? id = some w →
        w'.calls = w.calls → ∀ v ∈ c.station.workers.set id w', v.UploadsValid :=
      fun hw hc => Station.forall_set h ((h _ (List.mem_of_getElem? hw)).of_calls hc)
    obtain ⟨news, c', log, -, hmade, hc⟩ := c.made (Move.isListening_of_isDriving hm)
    rw [hc]
    cases hmade with
    | aside hn => cases hm.symm.trans hn
    | taken id =>
      rcases c.take_eq id with ht | ⟨w, stamps, stamped, hw, -, ht⟩
      · rw [apply, ht]
        exact h
      · rw [apply, ht]
        exact Station.forall_set h ((h w (List.mem_of_getElem? hw)).step stamps)
    | refused => exact h
    | reached hb hp hw ho => exact hkept hw rfl
    | unreached => exact h
    | acknowledged => exact h
    | waited => exact h
    | carried hp hdone =>
      cases hdone with
      | noted => exact h
      | deposited => exact h
      | replied hreply =>
        cases hreply with
        | completed hcur hph hr hs =>
          cases hs with
          | nowhere => exact h
          | sent hb hw ho => exact hkept hw rfl
        | _ => exact h

/-! ## The whole schedule -/

/-- What is kept by every move. -/
structure Kept (c : Scene σ) (es : List Entry) : Prop where
  numbered : c.Numbered
  examined : c.Examined es
  genuine : Genuine es
  latest : c.station.lifecycle.latest = latestOf es
  shown : c.Shown es
  uploads : ∀ w ∈ c.station.workers, w.UploadsValid

omit [Server σ] in
theorem kept_start (stamps : Nat → Stamp) : (start stamps : Scene σ).Kept [] where
  numbered := numbered_start stamps
  examined := ⟨by simp [testsOf], by simp [testsOf], by simp [testsOf], by simp [start]⟩
  genuine := by
    intro before current r after he
    simp at he
  latest := rfl
  shown := nofun
  uploads := by simp [start, Station.start]

theorem Kept.apply {c : Scene σ} {es : List Entry} (h : c.Kept es) (m : Move σ) :
    (c.apply m).Kept (es ++ c.entries m) where
  numbered := h.numbered.apply m
  examined := h.examined.apply h.numbered m
  genuine := h.genuine.apply h.examined m
  latest := latest_apply h.latest m
  shown := h.shown.apply h.numbered m
  uploads := uploadsValid_apply h.uploads m

theorem kept_run (stamps : Nat → Stamp) (moves : List (Move σ)) :
    ((start stamps).run moves).Kept ((start stamps).chronicle moves) := by
  induction moves using List.reverseRecOn with
  | nil => exact kept_start stamps
  | append_singleton moves m ih =>
    rw [run_append, run_cons, run_nil, chronicle_concat]
    exact ih.apply m

/-- What is always true of the records, told by the chronicle. -/
structure Intact (c : Scene σ) (es : List Entry) : Prop where
  /-- An announced record is valid and is what the only test of the run that was current has
  returned; it had done so by then. -/
  announced : ∀ before current r after,
    es = before ++ .published current (.testCompleted r) :: after →
      r.isValid = true ∧ ∃ run, current = some run ∧
        testsOf run before = [.ended (.ok r)] ∧ testsOf run es = [.ended (.ok r)]
  /-- The latest record is the one announced last, or none if it was cleared or there is none. -/
  latest : c.station.lifecycle.latest = latestOf es
  /-- While the phase is `completed`, the current run is the one announced last to be completed,
  and nothing but uploads was announced since. Its record is the latest one unless this was cleared
  since. -/
  shown : c.phase = .completed → ∃ run r before after, c.station.current = some run ∧
    es = before ++ .published (some run) (.testCompleted r) :: after ∧
    (∀ current e, .published current e ∈ after → e.kind = .reportRouter) ∧
    c.station.lifecycle.latest = if after.any Entry.isCleared then none else some r
  stored : ∀ r, c.station.lifecycle.latest = some r → r.isValid = true
  uploaded : ∀ w ∈ c.station.workers, ∀ token r, .report token r ∈ w.calls → r.isValid = true

/-- No schedule damages a record on its way, whatever the server answers. -/
theorem intact_run (stamps : Nat → Stamp) (moves : List (Move σ)) :
    ((start stamps).run moves).Intact ((start stamps).chronicle moves) := by
  have h := kept_run stamps moves
  refine ⟨?_, h.latest, ?_, ?_, h.uploads⟩
  · intro before current r after he
    obtain ⟨hr, run, hc, ht⟩ := h.genuine before current r after he
    refine ⟨hr, run, hc, ht, ?_⟩
    have honce := h.examined.once run
    have hall := congrArg (testsOf run) he
    rw [testsOf_append, ht] at hall
    rw [hall, List.length_append, List.length_singleton] at honce
    have hnone : testsOf run (.published current (.testCompleted r) :: after) = [] :=
      List.eq_nil_of_length_eq_zero (by omega)
    rw [hall, hnone, List.append_nil]
  · intro hp
    obtain ⟨run, r, before, after, hd⟩ := h.shown hp
    exact ⟨run, r, before, after, hd.current, hd.split, hd.quiet, h.latest.trans hd.latestOf_eq⟩
  · intro r hr
    obtain ⟨current, hmem⟩ := mem_of_latestOf (h.latest.symm.trans hr)
    obtain ⟨before, after, he⟩ := List.append_of_mem hmem
    exact (h.genuine before current r after he).1

/-- Of the four runs of the rehearsal, one is announced to be completed. -/
example :
    (((start fun _ => default).chronicle rehearsal).filterMap Entry.completed?).length = 1 := by
  decide +kernel

end LinkTest.Scene
