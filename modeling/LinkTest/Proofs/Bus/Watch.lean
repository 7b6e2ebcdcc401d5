import LinkTest.Bus

/-!
# Watching the bus

A subscription to all kinds that is held and never given back is handed every event that is
published, once and in the order of publishing. What others do with their subscriptions does not
show in it.
-/

namespace LinkTest.Bus

/-- Publishes some events one after the other. -/
def publishAll (b : Bus) (es : List Event) : Bus := es.foldl (fun b e => (b.publish e).2) b

@[simp] theorem publishAll_nil (b : Bus) : b.publishAll [] = b := rfl

@[simp] theorem publishAll_cons (b : Bus) (e : Event) (rest : List Event) :
    b.publishAll (e :: rest) = (b.publish e).2.publishAll rest := rfl

/-- The events that wait in a subscription. -/
def pendingOf (b : Bus) (id : Nat) : List Event :=
  ((b.subscriptions[id]?).map Subscription.pending).getD []

/-- A subscription that is held and listed under every kind. -/
structure Watched (b : Bus) (id : Nat) : Prop where
  held : ∃ u, b.subscriptions[id]? = some u ∧ u.held = true
  listed : ∀ k, id ∈ b.listed k

theorem Watched.mem_served {b : Bus} {id : Nat} (h : b.Watched id) (k : EventKind) :
    id ∈ b.served k := by
  obtain ⟨u, hu, hh⟩ := h.held
  rw [served, List.mem_filter]
  exact ⟨h.listed k, by simp [isHeld, hu, hh]⟩

/-- A watching subscription is handed what is published. -/
theorem Watched.publish {b : Bus} {id : Nat} (h : b.Watched id) (e : Event) :
    (b.publish e).2.Watched id ∧ (b.publish e).2.pendingOf id = b.pendingOf id ++ [e] := by
  obtain ⟨u, hu, hh⟩ := h.held
  have hs := h.mem_served e.kind
  refine ⟨⟨⟨u.deliver e, ?_, hh⟩, ?_⟩, ?_⟩
  · simp [Bus.publish, hu, hs]
  · intro k
    by_cases hk : k = e.kind
    · subst hk
      have hl := h.listed e.kind
      cases ht : b.topics e.kind with
      | none => simp [Bus.listed, ht] at hl
      | some ids => simpa [Bus.listed, Bus.publish, ht] using hs
    · simpa [Bus.listed, Bus.publish, hk] using h.listed k
  · simp [pendingOf, Bus.publish, hu, hs, Subscription.deliver]

theorem Watched.publishAll {b : Bus} {id : Nat} (h : b.Watched id) (es : List Event) :
    (b.publishAll es).Watched id ∧ (b.publishAll es).pendingOf id = b.pendingOf id ++ es := by
  induction es generalizing b with
  | nil => exact ⟨h, by simp⟩
  | cons e rest ih =>
    obtain ⟨hw, hp⟩ := h.publish e
    obtain ⟨hw', hp'⟩ := ih hw
    exact ⟨hw', by rw [publishAll_cons, hp', hp, List.append_assoc, List.singleton_append]⟩

/-- The first subscription, if it is one to all kinds, watches the bus. -/
theorem watched_subscribe_all {asked : List EventKind} (h : ∀ k, k ∈ asked) :
    (empty.subscribe asked).2.Watched 0 := by
  refine ⟨⟨_, rfl, rfl⟩, fun k => ?_⟩
  simp only [Bus.listed, Bus.subscribe, Subscription.mem_kindsOf, h k, if_true]
  exact List.mem_append_right _ List.mem_cons_self

theorem Watched.subscribe {b : Bus} {id : Nat} (h : b.Watched id) (asked : List EventKind) :
    (b.subscribe asked).2.Watched id ∧
      (b.subscribe asked).2.pendingOf id = b.pendingOf id := by
  obtain ⟨u, hu, hh⟩ := h.held
  have hid : id < b.subscriptions.length := (List.getElem?_eq_some_iff.1 hu).1
  have hget : (b.subscriptions ++ [⟨Subscription.kindsOf asked, [], true⟩])[id]? = some u := by
    rw [List.getElem?_append_left hid, hu]
  refine ⟨⟨⟨u, hget, hh⟩, fun k => ?_⟩, by simp only [pendingOf, Bus.subscribe, hget, hu]⟩
  have hl := h.listed k
  simp only [Bus.subscribe, Bus.listed] at hl ⊢
  split
  · exact List.mem_append_left _ hl
  · exact hl

/-- What happens to another subscription. -/
theorem Watched.modify {b : Bus} {id other : Nat} (h : b.Watched id) (ho : other ≠ id)
    (f : Subscription → Subscription) :
    { b with subscriptions := b.subscriptions.modify other f }.Watched id ∧
      { b with subscriptions := b.subscriptions.modify other f }.pendingOf id =
        b.pendingOf id := by
  obtain ⟨u, hu, hh⟩ := h.held
  have hget : (b.subscriptions.modify other f)[id]? = b.subscriptions[id]? := by
    simp [ho]
  exact ⟨⟨⟨u, hget.trans hu, hh⟩, h.listed⟩, by simp only [pendingOf, hget]⟩

theorem Watched.unsubscribe {b : Bus} {id other : Nat} (h : b.Watched id) (ho : other ≠ id) :
    (b.unsubscribe other).Watched id ∧ (b.unsubscribe other).pendingOf id = b.pendingOf id := by
  obtain ⟨hw, hp⟩ := h.modify ho Subscription.release
  refine ⟨⟨hw.held, fun k => ?_⟩, hp⟩
  have hl := h.listed k
  simp only [Bus.listed, Bus.unsubscribe] at hl ⊢
  split
  · cases ht : b.topics k with
    | none => simp [ht] at hl
    | some ids => simpa [ht, ho.symm] using hl
  · exact hl

/-- What is taken out of a watching subscription is what waited in it longest. -/
theorem Watched.receive {b : Bus} {id : Nat} (h : b.Watched id) (other : Nat) :
    (b.receive other).2.Watched id ∧
      (if other = id then (b.receive other).1.toList else []) ++ (b.receive other).2.pendingOf id =
        b.pendingOf id := by
  obtain ⟨u, hu, hh⟩ := h.held
  unfold Bus.receive
  by_cases ho : other = id
  · subst ho
    simp only [hu, Option.map_some, Option.getD_some]
    split
    · exact ⟨h, by simp⟩
    · next e rest hp =>
      refine ⟨⟨⟨{ u with pending := rest }, by simp [hu], hh⟩, h.listed⟩, ?_⟩
      simp [pendingOf, hu, hp]
  · split
    · exact ⟨h, by simp [ho]⟩
    · next e rest hp =>
      obtain ⟨hw, hp'⟩ := h.modify ho ({ · with pending := rest })
      exact ⟨hw, by simpa [ho] using hp'⟩

theorem Watched.drain {b : Bus} {id : Nat} (h : b.Watched id) (other : Nat) :
    (b.drain other).2.Watched id ∧
      (if other = id then (b.drain other).1 else []) ++ (b.drain other).2.pendingOf id =
        b.pendingOf id := by
  obtain ⟨u, hu, hh⟩ := h.held
  unfold Bus.drain
  by_cases ho : other = id
  · subst ho
    refine ⟨⟨⟨{ u with pending := [] }, by simp [hu], hh⟩, h.listed⟩, ?_⟩
    simp [pendingOf, hu]
  · obtain ⟨hw, hp'⟩ := h.modify ho ({ · with pending := [] })
    exact ⟨hw, by simpa [ho] using hp'⟩

/-! ## The only subscription -/

/-- A bus with one subscription to all kinds. -/
def sole (waiting : List Event) (held : Bool) : Bus :=
  ⟨[⟨Subscription.kindsOf EventKind.all, waiting, held⟩], fun _ => some (if held then [0] else [])⟩

theorem mem_kindsOf_all (k : EventKind) : k ∈ Subscription.kindsOf EventKind.all :=
  Subscription.mem_kindsOf.2 (by cases k <;> decide)

theorem subscribe_all : empty.subscribe EventKind.all = (0, sole [] true) := by
  simp [subscribe, sole, empty, listed, mem_kindsOf_all]

@[simp] theorem pendingOf_sole (waiting : List Event) (held : Bool) :
    (sole waiting held).pendingOf 0 = waiting := rfl

theorem publishAll_sole_held (waiting es : List Event) :
    (sole waiting true).publishAll es = sole (waiting ++ es) true := by
  induction es generalizing waiting with
  | nil => rw [List.append_nil]; rfl
  | cons e rest ih =>
    have hp : ((sole waiting true).publish e).2 = sole (waiting ++ [e]) true := by
      simp [publish, sole, served, listed, isHeld, Subscription.deliver]
    rw [publishAll_cons, hp, ih, List.append_assoc, List.singleton_append]

/-- Once it was given back, nothing comes in. -/
theorem publishAll_sole_released (waiting es : List Event) :
    (sole waiting false).publishAll es = sole waiting false := by
  induction es with
  | nil => rfl
  | cons e rest ih =>
    have hp : ((sole waiting false).publish e).2 = sole waiting false := by
      simp [publish, sole, served, listed]
    rw [publishAll_cons, hp, ih]

theorem unsubscribe_sole (waiting : List Event) :
    (sole waiting true).unsubscribe 0 = sole waiting false := by
  simp [unsubscribe, sole, release, Subscription.release, mem_kindsOf_all]

theorem subscriberCount_sole_released (waiting : List Event) :
    (sole waiting false).subscriberCount = 0 := by
  simp [subscriberCount, sole, listed]

end LinkTest.Bus
