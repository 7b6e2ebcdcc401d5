import LinkTest.Proofs.Bus.Watch

/-!
# The order of the topics

A topic lists numbers in the order of subscribing, each once. Whatever is listed has asked for the
kind, and whatever is held and has asked for it is listed; what was let go may be listed or not.
So an event reaches a subscription if and only if that one is held and has asked for its kind.
-/

namespace LinkTest

namespace Subscription

/-- Whether events of a kind are for a subscription. -/
def wants (k : EventKind) (u : Subscription) : Bool := u.held && u.kinds.contains k

/-- What a subscription is after an event, which it takes if the event is for it. -/
def offer (e : Event) (u : Subscription) : Subscription := if u.wants e.kind then u.deliver e else u

@[simp] theorem offer_kinds (e : Event) (u : Subscription) : (u.offer e).kinds = u.kinds := by
  unfold offer
  split <;> rfl

@[simp] theorem offer_pending (e : Event) (u : Subscription) :
    (u.offer e).pending = u.pending ++ if u.wants e.kind then [e] else [] := by
  unfold offer
  split <;> simp [deliver]

@[simp] theorem offer_held (e : Event) (u : Subscription) : (u.offer e).held = u.held := by
  unfold offer
  split <;> rfl

end Subscription

namespace Bus

structure Orderly (b : Bus) : Prop where
  sorted : ∀ k, (b.listed k).Pairwise (· < ·)
  asked : ∀ {k id}, id ∈ b.listed k → ∃ u, b.subscriptions[id]? = some u ∧ k ∈ u.kinds
  complete : ∀ {k id u}, b.subscriptions[id]? = some u → u.held = true → k ∈ u.kinds →
    id ∈ b.listed k

theorem orderly_empty : empty.Orderly where
  sorted k := List.Pairwise.nil
  asked h := by simp [listed, empty] at h
  complete h := by simp [empty] at h

theorem Orderly.mem_served {b : Bus} (h : b.Orderly) {k : EventKind} {id : Nat} :
    id ∈ b.served k ↔ ∃ u, b.subscriptions[id]? = some u ∧ u.wants k = true := by
  simp only [served, List.mem_filter, isHeld, Subscription.wants, Bool.and_eq_true,
    List.contains_iff_mem]
  constructor
  · rintro ⟨hl, hh⟩
    obtain ⟨u, hu, hk⟩ := h.asked hl
    rw [hu] at hh
    exact ⟨u, hu, hh, hk⟩
  · rintro ⟨u, hu, hh, hk⟩
    exact ⟨h.complete hu hh hk, by simp [hu, hh]⟩

/-- What an event does to one subscription, whatever the others are. -/
theorem Orderly.publish_getElem? {b : Bus} (h : b.Orderly) (e : Event) (id : Nat) :
    (b.publish e).2.subscriptions[id]? = (b.subscriptions[id]?).map (Subscription.offer e) := by
  simp only [publish, List.getElem?_mapIdx]
  cases hu : b.subscriptions[id]? with
  | none => rfl
  | some u =>
    have hs : id ∈ b.served e.kind ↔ u.wants e.kind = true := by
      rw [h.mem_served, hu]
      simp
    simp only [Option.map_some, Subscription.offer, hs]

/-- The places of a list at which something holds are as many as its elements that have it. -/
theorem countP_range {α : Type} (p : α → Bool) (l : List α) :
    (List.range l.length).countP (fun i => (l[i]?).any p) = l.countP p := by
  induction l with
  | nil => rfl
  | cons a rest ih =>
    rw [List.length_cons, List.range_succ_eq_map, List.countP_cons, List.countP_map,
      List.countP_cons]
    simpa [Function.comp_def] using ih

/-- An event is delivered to all subscriptions that want its kind, to each once. -/
theorem Orderly.publish_fst {b : Bus} (h : b.Orderly) (e : Event) :
    (b.publish e).1 = b.subscriptions.countP (Subscription.wants e.kind) := by
  have hnodup : (b.served e.kind).Nodup :=
    ((h.sorted e.kind).imp fun hlt => Nat.ne_of_lt hlt).filter b.isHeld
  have hperm : (b.served e.kind).Perm ((List.range b.subscriptions.length).filter fun id =>
      (b.subscriptions[id]?).any (Subscription.wants e.kind)) := by
    refine (List.perm_ext_iff_of_nodup hnodup (List.nodup_range.filter _)).2 fun id => ?_
    rw [h.mem_served, List.mem_filter, List.mem_range, Option.any_eq_true]
    constructor
    · rintro ⟨u, hu, hw⟩
      exact ⟨(List.getElem?_eq_some_iff.1 hu).1, u, hu, hw⟩
    · exact fun hw => hw.2
  rw [← countP_range, List.countP_eq_length_filter, ← hperm.length_eq]
  rfl

/-! ## What each operation keeps -/

/-- A new subscription comes last under each of its kinds. -/
theorem listed_subscribe (b : Bus) (asked : List EventKind) (k : EventKind) :
    (b.subscribe asked).2.listed k =
      if k ∈ Subscription.kindsOf asked then b.listed k ++ [b.subscriptions.length]
      else b.listed k := by
  by_cases hk : k ∈ Subscription.kindsOf asked <;> simp [listed, subscribe, hk]

theorem Orderly.subscribe {b : Bus} (h : b.Orderly) (asked : List EventKind) :
    (b.subscribe asked).2.Orderly := by
  have hold : ∀ {id : Nat} {u : Subscription}, b.subscriptions[id]? = some u →
      (b.subscribe asked).2.subscriptions[id]? = some u := by
    intro id u hu
    exact (List.getElem?_append_left (List.getElem?_eq_some_iff.1 hu).1).trans hu
  have hnew : (b.subscribe asked).2.subscriptions[b.subscriptions.length]? =
      some ⟨Subscription.kindsOf asked, [], true⟩ := by
    simp [Bus.subscribe]
  refine ⟨fun k => ?_, fun {k id} hid => ?_, fun {k id u} hu hh hk => ?_⟩
  · rw [listed_subscribe]
    split
    · refine List.pairwise_append.2 ⟨h.sorted k, List.pairwise_singleton _ _, ?_⟩
      intro id hid n hn
      obtain ⟨u, hu, -⟩ := h.asked hid
      rw [List.mem_singleton.1 hn]
      exact (List.getElem?_eq_some_iff.1 hu).1
    · exact h.sorted k
  · rw [listed_subscribe] at hid
    split at hid
    · next hk =>
      rcases List.mem_append.1 hid with hid | hid
      · obtain ⟨u, hu, hku⟩ := h.asked hid
        exact ⟨u, hold hu, hku⟩
      · rw [List.mem_singleton.1 hid]
        exact ⟨_, hnew, hk⟩
    · obtain ⟨u, hu, hku⟩ := h.asked hid
      exact ⟨u, hold hu, hku⟩
  · rw [listed_subscribe]
    by_cases hid : id < b.subscriptions.length
    · have hb : b.subscriptions[id]? = some u :=
        (List.getElem?_append_left hid).symm.trans hu
      split
      · exact List.mem_append_left _ (h.complete hb hh hk)
      · exact h.complete hb hh hk
    · have hlen : id = b.subscriptions.length := by
        have hlt := (List.getElem?_eq_some_iff.1 hu).1
        simp only [Bus.subscribe, List.length_append, List.length_singleton] at hlt
        omega
      subst hlen
      rw [hnew] at hu
      obtain rfl := Option.some.inj hu
      rw [if_pos hk]
      exact List.mem_append_right _ List.mem_cons_self

/-- A change of one subscription that asks for nothing else and is held no more than before. -/
theorem Orderly.modify {b : Bus} (h : b.Orderly) (id : Nat) {f : Subscription → Subscription}
    (hk : ∀ u, (f u).kinds = u.kinds) (hh : ∀ u, (f u).held = true → u.held = true) :
    { b with subscriptions := b.subscriptions.modify id f }.Orderly := by
  refine ⟨h.sorted, fun {k j} hj => ?_, fun {k j u} hu hheld hku => ?_⟩
  · obtain ⟨u, hu, hku⟩ := h.asked hj
    by_cases hij : id = j
    · exact ⟨f u, by simp [hij, hu], by rw [hk]; exact hku⟩
    · exact ⟨u, by simp [hij, hu], hku⟩
  · rw [List.getElem?_modify] at hu
    obtain ⟨v, hv, hvu⟩ := Option.map_eq_some_iff.1 hu
    by_cases hij : id = j
    · rw [if_pos hij] at hvu
      subst hvu
      exact h.complete hv (hh v hheld) (hk v ▸ hku)
    · rw [if_neg hij] at hvu
      subst hvu
      exact h.complete hv hheld hku

theorem Orderly.release {b : Bus} (h : b.Orderly) (id : Nat) : (b.release id).Orderly :=
  h.modify id (fun _ => rfl) nofun

/-- The topics may lose numbers of subscriptions that nobody holds. -/
theorem Orderly.of_sublist {b b' : Bus} (h : b.Orderly) (hs : b'.subscriptions = b.subscriptions)
    (hl : ∀ k, (b'.listed k).Sublist (b.listed k))
    (hh : ∀ k, ∀ id ∈ b.listed k, b.isHeld id = true → id ∈ b'.listed k) : b'.Orderly := by
  refine ⟨fun k => (h.sorted k).sublist (hl k), fun {k id} hid => ?_,
    fun {k id u} hu hheld hk => ?_⟩
  · rw [hs]
    exact h.asked ((hl k).subset hid)
  · rw [hs] at hu
    exact hh k id (h.complete hu hheld hk) (by simp [isHeld, hu, hheld])

theorem isHeld_release_self (b : Bus) (id : Nat) : (b.release id).isHeld id = false := by
  simp only [isHeld, release, List.getElem?_modify, if_true]
  cases b.subscriptions[id]? <;> rfl

/-- A subscription that is given back is listed under no kind any more, and all others are where
they were. -/
theorem Orderly.listed_unsubscribe {b : Bus} (h : b.Orderly) (id : Nat) (k : EventKind) :
    (b.unsubscribe id).listed k = (b.listed k).filter (· ≠ id) := by
  by_cases hk : k ∈ ((b.subscriptions[id]?).map Subscription.kinds).getD []
  · simp only [Bus.listed, Bus.unsubscribe, if_pos hk]
    cases b.topics k <;> rfl
  · -- It has not asked for the kind, so it was not listed.
    have hid : id ∉ b.listed k := fun hid => by
      obtain ⟨u, hu, hku⟩ := h.asked hid
      exact hk (by simpa [hu] using hku)
    have hl : (b.unsubscribe id).listed k = b.listed k := by
      simp only [Bus.listed, Bus.unsubscribe, if_neg hk]
    rw [hl, List.filter_eq_self.2]
    intro j hj
    exact decide_eq_true fun he => hid (he ▸ hj)

theorem Orderly.unsubscribe {b : Bus} (h : b.Orderly) (id : Nat) : (b.unsubscribe id).Orderly := by
  -- Nobody holds the subscription any more when its number is taken off the lists.
  refine (h.release id).of_sublist rfl (fun k => ?_) fun k j hj hheld => ?_
  · rw [h.listed_unsubscribe]
    exact List.filter_sublist
  · rw [h.listed_unsubscribe]
    refine List.mem_filter.2 ⟨hj, decide_eq_true ?_⟩
    rintro rfl
    rw [isHeld_release_self] at hheld
    cases hheld

theorem listed_publish (b : Bus) (e : Event) (k : EventKind) :
    (b.publish e).2.listed k = if k = e.kind then b.served k else b.listed k := by
  simp only [Bus.listed, Bus.publish]
  split
  · next hk =>
    subst hk
    cases ht : b.topics e.kind <;> simp [served, listed, ht]
  · rfl

theorem Orderly.publish {b : Bus} (h : b.Orderly) (e : Event) : (b.publish e).2.Orderly := by
  -- First the deliveries, which leave kinds and holders alone, then the clearing of the topic.
  have hdelivered : { b with subscriptions := (b.publish e).2.subscriptions }.Orderly := by
    refine ⟨h.sorted, fun {k id} hid => ?_, fun {k id u} hu hh hk => ?_⟩
    · obtain ⟨u, hu, hku⟩ := h.asked hid
      exact ⟨u.offer e, by rw [h.publish_getElem?, hu]; rfl, by rwa [u.offer_kinds]⟩
    · rw [h.publish_getElem?] at hu
      obtain ⟨v, hv, rfl⟩ := Option.map_eq_some_iff.1 hu
      rw [v.offer_kinds] at hk
      rw [v.offer_held] at hh
      exact h.complete hv hh hk
  refine hdelivered.of_sublist rfl (fun k => ?_) fun k id hid hheld => ?_
  · rw [listed_publish]
    split
    · exact List.filter_sublist
    · exact List.Sublist.refl _
  · rw [listed_publish]
    split
    · obtain ⟨u, hu, hh⟩ := Option.any_eq_true _ _ |>.1 hheld
      rw [h.publish_getElem?] at hu
      obtain ⟨v, hv, rfl⟩ := Option.map_eq_some_iff.1 hu
      rw [v.offer_held] at hh
      exact List.mem_filter.2 ⟨hid, by simp [isHeld, hv, hh]⟩
    · exact hid

end Bus
end LinkTest
