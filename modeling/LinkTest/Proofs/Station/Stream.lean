import LinkTest.Proofs.Station.Flight

/-!
# The stream of events

What a subscription to all kinds hears tells the whole story of the lifecycle. The phase changes
are linked, each beginning where the one before has ended, and end in the current phase. With the
uploads left out, the events come in blocks, one for each run, of which the last may be still under
way.
-/

namespace LinkTest

namespace Event

/-- The phases left and entered, if that is what an event announces. -/
def move? : Event → Option (Phase × Phase)
  | .phaseChanged source target => some (source, target)
  | _ => none

def isUpload : Event → Bool
  | .reportRouter _ => true
  | _ => false

/-- The events about runs, those about uploads left out. -/
def aboutRuns (es : List Event) : List Event := es.filter (!·.isUpload)

@[simp] theorem aboutRuns_append (es fs : List Event) :
    aboutRuns (es ++ fs) = aboutRuns es ++ aboutRuns fs := List.filter_append es fs

end Event

/-- Each phase is left for the next one, from the first to the last. -/
def Linked : Phase → List (Phase × Phase) → Phase → Prop
  | p, [], q => p = q
  | p, (source, target) :: rest, q => source = p ∧ Linked target rest q

theorem Linked.append {p q r : Phase} {before after : List (Phase × Phase)}
    (h : Linked p before q) (h' : Linked q after r) : Linked p (before ++ after) r := by
  induction before generalizing p with
  | nil =>
    obtain rfl : p = q := h
    exact h'
  | cons move rest ih => exact ⟨h.1, ih h.2⟩

namespace Scene

/-- All that is told of one run. -/
inductive Block : List Event → Prop
  /-- It did not reach the worker. -/
  | lost : Block lost
  /-- It ended before its test began. -/
  | refused (reason : String) :
    Block [.phaseChanged .idle .preparing, .phaseChanged .preparing .idle, .testFailed reason]
  | failed (reason : String) :
    Block [.phaseChanged .idle .preparing, .phaseChanged .preparing .testing,
      .phaseChanged .testing .idle, .testFailed reason]
  | completed (r : Record) (h : r.isValid = true) :
    Block [.phaseChanged .idle .preparing, .phaseChanged .preparing .testing,
      .phaseChanged .testing .completed, .testCompleted r, .phaseChanged .completed .idle]

/-- What has been told of a run by the time that it is in a phase. -/
inductive Opening : Phase → List Event → Prop
  | idle : Opening .idle []
  | preparing : Opening .preparing [.phaseChanged .idle .preparing]
  | testing :
    Opening .testing [.phaseChanged .idle .preparing, .phaseChanged .preparing .testing]
  | completed (r : Record) (h : r.isValid = true) :
    Opening .completed [.phaseChanged .idle .preparing, .phaseChanged .preparing .testing,
      .phaseChanged .testing .completed, .testCompleted r]

/-- An opening is what a block begins with. -/
theorem Opening.exists_block {p : Phase} {es : List Event} (h : Opening p es) :
    ∃ b, Block b ∧ es <+: b := by
  cases h with
  | idle => exact ⟨lost, .lost, List.nil_prefix⟩
  | preparing => exact ⟨lost, .lost, [_], rfl⟩
  | testing => exact ⟨_, .failed "", [_, _], rfl⟩
  | completed r h => exact ⟨_, .completed r h, [_], rfl⟩

/-- Blocks, and then the opening of one in the current phase. -/
def Told (p : Phase) (es : List Event) : Prop :=
  ∃ (blocks : List (List Event)) (opening : List Event),
    (∀ b ∈ blocks, Block b) ∧ Opening p opening ∧
    Event.aboutRuns es = blocks.flatten ++ opening

theorem Told.still {p : Phase} {es news : List Event} (h : Told p es)
    (hn : Event.aboutRuns news = []) : Told p (es ++ news) := by
  obtain ⟨blocks, opening, hb, ho, he⟩ := h
  exact ⟨blocks, opening, hb, ho, by rw [Event.aboutRuns_append, hn, List.append_nil, he]⟩

/-- The story of the run goes on. -/
theorem Told.go_on {p q : Phase} {es news : List Event} (h : Told p es)
    (hn : ∀ opening, Opening p opening → Opening q (opening ++ news))
    (hr : Event.aboutRuns news = news) : Told q (es ++ news) := by
  obtain ⟨blocks, opening, hb, ho, he⟩ := h
  exact ⟨blocks, opening ++ news, hb, hn opening ho, by
    rw [Event.aboutRuns_append, hr, he, List.append_assoc]⟩

/-- The story of the run comes to its end. -/
theorem Told.close {p : Phase} {es news : List Event} (h : Told p es)
    (hn : ∀ opening, Opening p opening → Block (opening ++ news))
    (hr : Event.aboutRuns news = news) : Told .idle (es ++ news) := by
  obtain ⟨blocks, opening, hb, ho, he⟩ := h
  have hlast : ∀ b ∈ [opening ++ news], Block b := by
    intro b hx
    rw [List.mem_singleton.1 hx]
    exact hn opening ho
  refine ⟨blocks ++ [opening ++ news], [], List.forall_mem_append.2 ⟨hb, hlast⟩, .idle, ?_⟩
  rw [Event.aboutRuns_append, hr, he]
  simp

theorem Told.turn {p q : Phase} {es news : List Event} (h : Told p es) (ht : Turn p news q) :
    Told q (es ++ news) := by
  cases ht with
  | still => exact h.still rfl
  | uploaded _ receipt => exact h.still rfl
  | begun =>
    refine h.go_on (fun opening ho => ?_) rfl
    cases ho
    exact .preparing
  | unreached =>
    refine h.close (fun opening ho => ?_) rfl
    cases ho
    exact .lost
  | tested =>
    refine h.go_on (fun opening ho => ?_) rfl
    cases ho
    exact .testing
  | completed r hr =>
    refine h.go_on (fun opening ho => ?_) rfl
    cases ho
    exact .completed r hr
  | failed _ reason hp =>
    refine h.close (fun opening ho => ?_) rfl
    cases ho with
    | idle => cases hp
    | preparing => exact .refused reason
    | testing => exact .failed reason
    | completed => cases hp
  | acknowledged =>
    refine h.close (fun opening ho => ?_) rfl
    cases ho with
    | completed r hr => exact .completed r hr

/-- Every move announces how it has changed the phase. -/
theorem Turn.linked {p q : Phase} {news : List Event} (h : Turn p news q) :
    Linked p (news.filterMap Event.move?) q := by
  cases h with
  | still => rfl
  | uploaded => rfl
  | begun => exact ⟨rfl, rfl⟩
  | unreached => exact ⟨rfl, rfl, rfl⟩
  | tested => exact ⟨rfl, rfl⟩
  | completed => exact ⟨rfl, rfl⟩
  | failed => exact ⟨rfl, rfl⟩
  | acknowledged => exact ⟨rfl, rfl⟩

/-! ## What is heard -/

variable {σ : Type}

/-- Whether a move leaves a subscription in the hands that it is in. -/
def Move.keeps (id : Nat) : Move σ → Bool
  | .unsubscribe i | .letGo i => i != id
  | _ => true

variable [Server σ]

/-- A move about subscriptions publishes nothing, and what others do with theirs does not show. -/
theorem heard_of_isListening {m : Move σ} {id : Nat} {c : Scene σ} (hl : m.isListening = true)
    (hk : m.keeps id = true) (hw : c.station.bus.Watched id) :
    (c.apply m).station.bus.Watched id ∧ (c.apply m).heard id = c.heard id := by
  cases m with
  | subscribe kinds =>
    obtain ⟨hw', hp⟩ := hw.subscribe kinds
    exact ⟨hw', congrArg (c.received id ++ ·) hp⟩
  | unsubscribe i =>
    have hi : i ≠ id := by simpa [Move.keeps] using hk
    obtain ⟨hw', hp⟩ := hw.unsubscribe hi
    exact ⟨hw', congrArg (c.received id ++ ·) hp⟩
  | letGo i =>
    have hi : i ≠ id := by simpa [Move.keeps] using hk
    obtain ⟨hw', hp⟩ := hw.modify hi Subscription.release
    exact ⟨hw', congrArg (c.received id ++ ·) hp⟩
  | receive i =>
    obtain ⟨hw', hp⟩ := hw.receive i
    refine ⟨hw', ?_⟩
    by_cases hi : i = id
    · subst hi
      rw [if_pos rfl] at hp
      simp [heard, Scene.apply, Station.receive, hp]
    · rw [if_neg hi, List.nil_append] at hp
      simp [heard, Scene.apply, Station.receive, hp, Function.update_of_ne (Ne.symm hi)]
  | drain i =>
    obtain ⟨hw', hp⟩ := hw.drain i
    refine ⟨hw', ?_⟩
    by_cases hi : i = id
    · subst hi
      rw [if_pos rfl] at hp
      simp [heard, Scene.apply, Station.drain, hp]
    · rw [if_neg hi, List.nil_append] at hp
      simp [heard, Scene.apply, Station.drain, hp, Function.update_of_ne (Ne.symm hi)]
  | _ => cases hl

/-- What a watching subscription hears of a move. -/
theorem Sound.heard_apply {c : Scene σ} (h : c.Sound) {m : Move σ} {id : Nat}
    (hk : m.keeps id = true) (hw : c.station.bus.Watched id) (hc : (c.apply m).CrashFree) :
    ∃ news, (c.apply m).station.bus.Watched id ∧ (c.apply m).heard id = c.heard id ++ news ∧
      Turn c.phase news (c.apply m).phase ∧
      (news = lost ↔ m = .startTest ∧ c.station.startTest.1 = .error .workerStopped) := by
  cases hm : m.isDriving with
  | true =>
    obtain ⟨news, hd⟩ := h.driven hm hc
    obtain ⟨hw', hp⟩ := hw.publishAll news
    rw [← hd.bus] at hw' hp
    refine ⟨news, hw', ?_, hd.turn, hd.lost_iff⟩
    rw [heard, hd.received, hp, heard, List.append_assoc]
  | false =>
    have ha := aside_of_not_driving hm c
    have hstart : m ≠ .startTest := by
      rintro rfl
      cases hm
    obtain ⟨hw', hh⟩ : (c.apply m).station.bus.Watched id ∧
        (c.apply m).heard id = c.heard id := by
      cases hl : m.isListening with
      | true => exact heard_of_isListening hl hk hw
      | false =>
        obtain ⟨hb, hr⟩ := ha.bus hl
        rw [heard, hb, hr]
        exact ⟨hw, rfl⟩
    refine ⟨[], hw', by rw [hh, List.append_nil], ?_, by simp [lost, hstart]⟩
    rw [ha.phase]
    exact .still _

/-- The whole story has been heard from the start. -/
structure Followed (id : Nat) (c : Scene σ) : Prop where
  sound : c.Sound
  watched : c.station.bus.Watched id
  linked : Linked .idle ((c.heard id).filterMap Event.move?) c.phase
  told : Told c.phase (c.heard id)

theorem Followed.apply {c : Scene σ} {id : Nat} (h : c.Followed id) {m : Move σ}
    (hk : m.keeps id = true) (hc : (c.apply m).CrashFree) : (c.apply m).Followed id := by
  obtain ⟨news, hw, hh, ht, -⟩ := h.sound.heard_apply hk h.watched hc
  refine ⟨h.sound.apply m hc, hw, ?_, ?_⟩
  · rw [hh, List.filterMap_append]
    exact h.linked.append ht.linked
  · rw [hh]
    exact h.told.turn ht

theorem Followed.run {c : Scene σ} {id : Nat} (h : c.Followed id) {moves : List (Move σ)}
    (hk : ∀ m ∈ moves, m.keeps id = true) (hc : (c.run moves).CrashFree) :
    (c.run moves).Followed id := by
  induction moves generalizing c with
  | nil => exact h
  | cons m rest ih =>
    have hm := h.apply (hk m List.mem_cons_self) (crashFree_of_run hc)
    exact ih hm (fun x hx => hk x (List.mem_cons_of_mem _ hx)) hc

theorem followed_start (stamps : Nat → Stamp) {asked : List EventKind} (h : ∀ k, k ∈ asked) :
    ((start stamps : Scene σ).apply (.subscribe asked)).Followed 0 where
  sound := (sound_start stamps).apply _ (by simp [CrashFree, Station.Uncrashed, Scene.apply,
    Station.subscribe, Station.note, start, Station.start])
  watched := Bus.watched_subscribe_all h
  linked := rfl
  told := ⟨[], [], by simp, .idle, rfl⟩

/-- A subscription to all kinds that is made at the start and kept hears of every change of the
phase and of every run. The phase changes are linked and lead from `idle` to the current phase. The
events other than uploads are a prefix of blocks put together; they consist of whole blocks and of
what has been told of a run by the time that it is in the current phase. The block of a run that
did not reach its worker is heard when starting it has failed, and at no other time. -/
theorem stream_eq_blocks (stamps : Nat → Stamp) {asked : List EventKind}
    (hall : ∀ k, k ∈ asked) {moves : List (Move σ)} (hk : ∀ m ∈ moves, m.keeps 0 = true)
    {c : Scene σ} (hc : (start stamps).run (.subscribe asked :: moves) = c) (h : c.CrashFree) :
    Linked .idle ((c.heard 0).filterMap Event.move?) c.phase ∧
    (∃ blocks : List (List Event), (∀ b ∈ blocks, Block b) ∧
      Event.aboutRuns (c.heard 0) <+: blocks.flatten) ∧
    (∃ (blocks : List (List Event)) (opening : List Event), (∀ b ∈ blocks, Block b) ∧
      Opening c.phase opening ∧ Event.aboutRuns (c.heard 0) = blocks.flatten ++ opening) ∧
    ∀ m : Move σ, m.keeps 0 = true → (c.apply m).CrashFree →
      ((c.apply m).heard 0 = c.heard 0 ++ lost ↔
        m = .startTest ∧ c.station.startTest.1 = .error .workerStopped) := by
  have hf : c.Followed 0 := by
    rw [← hc, run_cons] at h ⊢
    exact (followed_start stamps hall).run hk h
  obtain ⟨blocks, opening, hb, ho, he⟩ := hf.told
  refine ⟨hf.linked, ?_, ⟨blocks, opening, hb, ho, he⟩, fun m hm hcm => ?_⟩
  · obtain ⟨b, hblock, hpre⟩ := ho.exists_block
    have hlast : ∀ x ∈ [b], Block x := by
      intro x hx
      rw [List.mem_singleton.1 hx]
      exact hblock
    refine ⟨blocks ++ [b], List.forall_mem_append.2 ⟨hb, hlast⟩, ?_⟩
    rw [he, List.flatten_append, List.flatten_singleton]
    exact (List.prefix_append_right_inj blocks.flatten).2 hpre
  · obtain ⟨news, -, hh, -, hl⟩ := hf.sound.heard_apply hm hf.watched hcm
    rw [hh, List.append_cancel_left_eq, hl]

/-- What is heard in the rehearsal: a run completed, one failed, one lost, and one begun. -/
theorem stream_of_rehearsed : (∀ m ∈ rehearsal, m.keeps 0 = true) ∧ rehearsed.CrashFree ∧
    Linked .idle ((rehearsed.heard 0).filterMap Event.move?) rehearsed.phase ∧
    ∃ blocks : List (List Event), (∀ b ∈ blocks, Block b) ∧
      Event.aboutRuns (rehearsed.heard 0) <+: blocks.flatten := by
  have hall : ∀ k, k ∈ EventKind.all := fun k => by cases k <;> decide
  have hk : ∀ m ∈ rehearsal, m.keeps 0 = true := by decide +kernel
  have h : rehearsed.CrashFree := by decide +kernel
  obtain ⟨hl, hb, -⟩ := stream_eq_blocks (fun _ => default) hall hk rfl h
  exact ⟨hk, h, hl, hb⟩

end Scene
end LinkTest
