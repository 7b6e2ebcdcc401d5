import LinkTest.Proofs.Bus.Delivery

/-!
# The book of subscriptions

Beside the bus a book is kept, with one line for each subscription: which kinds were asked for, and
what has become of it. A subscription that was only let go is taken off its topics one by one, each
at the next event of that kind, so it is counted until the last of them has gone. The main statement
reads the topics, the count and what giving back and publishing do to the topics off the book.
-/

namespace LinkTest

namespace Subscription

/-- Kinds are kept in the order of their names, each once. -/
theorem kindsOf_pairwise (asked : List EventKind) :
    (kindsOf asked).Pairwise fun k l => k.name < l.name := by
  have h : EventKind.byName.Pairwise fun k l => k.name < l.name := by decide
  exact h.sublist List.filter_sublist

theorem kindsOf_nodup (asked : List EventKind) : (kindsOf asked).Nodup := by
  have h : EventKind.byName.Nodup := by decide
  exact h.sublist List.filter_sublist

theorem kindsOf_congr {asked asked' : List EventKind} (h : ∀ k, k ∈ asked ↔ k ∈ asked') :
    kindsOf asked = kindsOf asked' := by
  refine List.filter_congr fun k _ => ?_
  rw [Bool.eq_iff_iff, List.contains_iff_mem, List.contains_iff_mem]
  exact h k

end Subscription

namespace Audience

/-! ## The book -/

/-- What has become of a subscription. -/
inductive Standing
  | held
  /-- It was let go and not given back; events of these kinds were published since. -/
  | letGo (since : List EventKind)
  | returned

structure Line where
  asked : List EventKind
  standing : Standing

namespace Line

def isHeld (l : Line) : Bool :=
  match l.standing with
  | .held => true
  | _ => false

/-- Whether the subscription is listed under a kind. -/
def occupies (k : EventKind) (l : Line) : Bool :=
  match l.standing with
  | .held => l.asked.contains k
  | .letGo since => l.asked.contains k && !since.contains k
  | .returned => false

/-- Held, and for one kind at least. -/
def isServed (l : Line) : Bool := l.isHeld && !l.asked.isEmpty

/-- Let go and not given back, and for one kind at least of which no event was published since. -/
def lingers (l : Line) : Bool :=
  match l.standing with
  | .letGo since => l.asked.any fun k => !since.contains k
  | _ => false

def letGo (l : Line) : Line :=
  match l.standing with
  | .held => { l with standing := .letGo [] }
  | _ => l

def giveBack (l : Line) : Line := { l with standing := .returned }

/-- An event of a kind is published. -/
def pass (k : EventKind) (l : Line) : Line :=
  match l.standing with
  | .letGo since => { l with standing := .letGo (since ++ [k]) }
  | _ => l

/-- A subscription is counted as long as it is listed under any kind. -/
theorem any_occupies (l : Line) :
    EventKind.all.any (fun k => l.occupies k) = (l.isServed || l.lingers) := by
  obtain ⟨asked, standing⟩ := l
  have hall : ∀ k, k ∈ EventKind.all := fun k => by cases k <;> decide
  rw [Bool.eq_iff_iff, List.any_eq_true]
  cases standing with
  | held =>
    cases asked with
    | nil => simp [occupies, isServed, lingers]
    | cons k rest => exact ⟨fun _ => rfl, fun _ => ⟨k, hall k, by simp [occupies]⟩⟩
  | letGo since =>
    simp only [occupies, isServed, isHeld, lingers, Bool.false_and, Bool.false_or, List.any_eq_true,
      Bool.and_eq_true, List.contains_iff_mem]
    exact ⟨fun ⟨k, _, hk⟩ => ⟨k, hk⟩, fun ⟨k, hk⟩ => ⟨k, hall k, hk⟩⟩
  | returned => simp [occupies, isServed, isHeld, lingers]

theorem not_lingers_of_isServed {l : Line} (h : l.isServed = true) : l.lingers = false := by
  obtain ⟨asked, standing⟩ := l
  cases standing with
  | letGo since => cases h
  | _ => rfl

theorem countP_isServed_or_lingers (lines : List Line) :
    lines.countP (fun l => l.isServed || l.lingers) =
      lines.countP isServed + lines.countP lingers := by
  induction lines with
  | nil => rfl
  | cons l rest ih =>
    rw [List.countP_cons, List.countP_cons, List.countP_cons, ih]
    cases hs : l.isServed with
    | true =>
      simp only [not_lingers_of_isServed hs, Bool.or_false, if_true, Bool.false_eq_true, if_false]
      omega
    | false =>
      simp only [Bool.false_or, Bool.false_eq_true, if_false]
      omega

end Line

/-- What a move changes in the book. -/
def enter (lines : List Line) : Move → List Line
  | .subscribe asked => lines ++ [⟨asked, .held⟩]
  | .publish e => lines.map (Line.pass e.kind)
  | .unsubscribe id => lines.modify id Line.giveBack
  | .letGo id => lines.modify id Line.letGo
  | .receive _ | .drain _ => lines

def book (moves : List Move) : List Line := moves.foldl enter []

/-- The numbers of the subscriptions that some moves make, in their order. -/
def numbers (a : Audience) : List Move → List Nat
  | [] => []
  | .subscribe asked :: rest =>
    (a.bus.subscribe asked).1 :: (a.apply (.subscribe asked)).numbers rest
  | m :: rest => (a.apply m).numbers rest

/-! ## The bus as the book has it -/

structure Booked (b : Bus) (lines : List Line) : Prop where
  length : b.subscriptions.length = lines.length
  agrees : ∀ id : Nat, (b.subscriptions[id]?).map (fun u => (u.kinds, u.held)) =
    (lines[id]?).map fun l => (Subscription.kindsOf l.asked, l.isHeld)
  listed : ∀ k (id : Nat), id ∈ b.listed k ↔ (lines[id]?).any (Line.occupies k) = true

theorem booked_empty : Booked .empty [] where
  length := rfl
  agrees _ := rfl
  listed k id := by simp [Bus.listed, Bus.empty]

theorem Booked.isHeld {b : Bus} {lines : List Line} (h : Booked b lines) (id : Nat) :
    b.isHeld id = (lines[id]?).any Line.isHeld := by
  have ha := h.agrees id
  cases hl : lines[id]? with
  | none =>
    rw [hl, Option.map_none, Option.map_eq_none_iff] at ha
    simp [Bus.isHeld, ha]
  | some l =>
    rw [hl, Option.map_some, Option.map_eq_some_iff] at ha
    obtain ⟨u, hu, he⟩ := ha
    simpa [Bus.isHeld, hu] using congrArg Prod.snd he

/-- An event leaves under its kind those that are held, and under other kinds all. -/
theorem Line.occupies_pass (k j : EventKind) (l : Line) :
    (l.pass k).occupies j = (l.occupies j && (l.isHeld || decide (j ≠ k))) := by
  obtain ⟨asked, standing⟩ := l
  cases standing with
  | held => simp [pass, occupies, isHeld]
  | letGo since => simp [pass, occupies, isHeld, Bool.and_assoc]
  | returned => simp [pass, occupies]

theorem Booked.subscribe {b : Bus} {lines : List Line} (h : Booked b lines)
    (asked : List EventKind) : Booked (b.subscribe asked).2 (lines ++ [⟨asked, .held⟩]) where
  length := by simp [Bus.subscribe, h.length]
  agrees id := by
    simp only [Bus.subscribe]
    rcases Nat.lt_trichotomy id lines.length with hid | hid | hid
    · rw [List.getElem?_append_left hid, List.getElem?_append_left (h.length ▸ hid), h.agrees]
    · rw [hid, List.getElem?_concat_length, ← h.length, List.getElem?_concat_length]
      rfl
    · rw [List.getElem?_eq_none, List.getElem?_eq_none] <;>
        simp [h.length, Nat.succ_le_of_lt hid]
  listed k id := by
    rw [Bus.listed_subscribe]
    rcases Nat.lt_trichotomy id lines.length with hid | hid | hid
    · rw [List.getElem?_append_left hid, ← h.listed]
      split
      · simp [h.length, Nat.ne_of_lt hid]
      · rfl
    · have hnew : lines.length ∉ b.listed k := by simp [h.listed]
      rw [hid, List.getElem?_concat_length, h.length]
      by_cases hk : k ∈ asked <;>
        simp [Subscription.mem_kindsOf, hk, Line.occupies, hnew]
    · rw [List.getElem?_eq_none (by simp [Nat.succ_le_of_lt hid])]
      have hn : id ∉ b.listed k := by simp [h.listed, List.getElem?_eq_none (Nat.le_of_lt hid)]
      split <;> simp [hn, h.length, Nat.ne_of_gt hid]

theorem Booked.publish {b : Bus} {lines : List Line} (hb : b.Orderly) (h : Booked b lines)
    (e : Event) : Booked (b.publish e).2 (lines.map (Line.pass e.kind)) where
  length := by simp [Bus.publish, h.length]
  agrees id := by
    have hpass : ∀ l : Line, (l.pass e.kind).asked = l.asked ∧
        (l.pass e.kind).isHeld = l.isHeld := by
      rintro ⟨asked, standing⟩
      cases standing <;> exact ⟨rfl, rfl⟩
    rw [hb.publish_getElem?, List.getElem?_map, Option.map_map, Option.map_map]
    simpa [Function.comp_def, hpass] using h.agrees id
  listed k id := by
    have hl := h.listed k id
    have hh := h.isHeld id
    rw [Bus.listed_publish, List.getElem?_map]
    cases hid : lines[id]? with
    | none =>
      rw [hid] at hl
      split
      · next hk => simpa [Bus.served, ← hk] using fun hm => absurd (hl.1 hm) (by simp)
      · simpa using hl
    | some l =>
      rw [hid, Option.any_some] at hl hh
      rw [Option.map_some, Option.any_some, Line.occupies_pass, Bool.and_eq_true, ← hl]
      split
      · next hk => simp [Bus.served, ← hk, hh]
      · next hk => simp [hk]

/-- The line of a subscription that is let go or given back. -/
theorem Booked.modify {b b' : Bus} {lines : List Line} (h : Booked b lines) {id : Nat}
    {f : Line → Line} (hs : b'.subscriptions = b.subscriptions.modify id Subscription.release)
    (hf : ∀ l, (f l).asked = l.asked ∧ (f l).isHeld = false)
    (hl : ∀ k j, j ∈ b'.listed k ↔ ((lines.modify id f)[j]?).any (Line.occupies k) = true) :
    Booked b' (lines.modify id f) where
  length := by rw [hs, List.length_modify, List.length_modify, h.length]
  agrees j := by
    have ha := h.agrees j
    rw [hs, modify_getElem?, List.getElem?_modify]
    by_cases hj : id = j
    · have hk := congrArg (Option.map fun p : List EventKind × Bool => (p.1, false)) ha
      rw [if_pos hj]
      simp only [if_pos hj]
      simpa [Function.comp_def, Subscription.release, hf] using hk
    · rw [if_neg hj, ha]
      simp only [if_neg hj]
      exact congrArg (Option.map _) Option.map_id'.symm
  listed := hl

theorem Booked.release {b : Bus} {lines : List Line} (h : Booked b lines) (id : Nat) :
    Booked (b.release id) (lines.modify id Line.letGo) := by
  refine h.modify rfl (fun l => ?_) fun k j => ?_
  · obtain ⟨asked, standing⟩ := l
    cases standing <;> exact ⟨rfl, rfl⟩
  · have hgo : ∀ l : Line, l.letGo.occupies k = l.occupies k := by
      rintro ⟨asked, standing⟩
      cases standing <;> simp [Line.letGo, Line.occupies]
    rw [List.getElem?_modify]
    refine (h.listed k j).trans ?_
    split <;> cases lines[j]? <;> simp [hgo]

theorem Booked.unsubscribe {b : Bus} {lines : List Line} (hb : b.Orderly) (h : Booked b lines)
    (id : Nat) : Booked (b.unsubscribe id) (lines.modify id Line.giveBack) := by
  refine h.modify rfl (fun l => ⟨rfl, rfl⟩) fun k j => ?_
  rw [hb.listed_unsubscribe, List.mem_filter, h.listed, List.getElem?_modify]
  by_cases hj : id = j
  · cases lines[j]? <;> simp [hj, Line.giveBack, Line.occupies]
  · simp [hj, Ne.symm hj]

theorem Booked.apply {a : Audience} {lines : List Line} (ha : a.bus.Orderly)
    (h : Booked a.bus lines) (m : Move) : Booked (a.apply m).bus (enter lines m) := by
  have htaken : ∀ (id : Nat) (f : Subscription → Subscription),
      (∀ u, (f u).kinds = u.kinds ∧ (f u).held = u.held) →
      Booked { a.bus with subscriptions := a.bus.subscriptions.modify id f } lines := by
    intro id f hf
    refine ⟨by simpa using h.length, fun j => ?_, h.listed⟩
    rw [← h.agrees, modify_getElem?]
    split
    · simp [Function.comp_def, hf]
    · rfl
  cases m with
  | subscribe asked => exact h.subscribe asked
  | publish e => exact h.publish ha e
  | unsubscribe id => exact h.unsubscribe ha id
  | letGo id => exact h.release id
  | receive id =>
    simp only [Audience.apply, Bus.receive]
    split
    · exact h
    · exact htaken id _ fun _ => ⟨rfl, rfl⟩
  | drain id => exact htaken id _ fun _ => ⟨rfl, rfl⟩

theorem booked_run (moves : List Move) : Booked (opened.run moves).bus (book moves) := by
  suffices h : ∀ (a : Audience) (lines : List Line), a.bus.Orderly → Booked a.bus lines →
      Booked (a.run moves).bus (moves.foldl enter lines) from
    h opened [] Bus.orderly_empty booked_empty
  induction moves with
  | nil => exact fun _ _ _ h => h
  | cons m rest ih => exact fun a lines ha h => ih _ _ (orderly_apply ha m) (h.apply ha m)

theorem Booked.subscriberCount {b : Bus} {lines : List Line} (h : Booked b lines) :
    b.subscriberCount = lines.countP Line.isServed + lines.countP Line.lingers := by
  have hany : ∀ id : Nat, EventKind.all.any (fun k => (b.listed k).contains id) =
      (lines[id]?).any fun l => l.isServed || l.lingers := by
    intro id
    have hk : ∀ k, (b.listed k).contains id = (lines[id]?).any (Line.occupies k) := fun k => by
      rw [Bool.eq_iff_iff, List.contains_iff_mem, h.listed]
    simp only [hk]
    cases lines[id]? with
    | none => rfl
    | some l => exact l.any_occupies
  rw [← Line.countP_isServed_or_lingers, ← Bus.countP_range, Bus.subscriberCount,
    List.countP_eq_length_filter, h.length]
  simp only [hany]

/-! ## Numbers -/

/-- Numbers are given in their order. -/
theorem exists_numbers_eq (a : Audience) (moves : List Move) :
    ∃ k, a.numbers moves = List.range' a.bus.subscriptions.length k := by
  induction moves generalizing a with
  | nil => exact ⟨0, rfl⟩
  | cons m rest ih =>
    obtain ⟨k, hk⟩ := ih (a.apply m)
    have hlen := length_apply a m
    cases m with
    | subscribe asked =>
      refine ⟨k + 1, ?_⟩
      rw [numbers, hk, hlen, List.range'_succ]
      rfl
    | _ => exact ⟨k, hk.trans (by rw [hlen]; rfl)⟩

/-- However a bus is used, the book tells who is counted: whoever is held and has asked for
something, and whoever was let go and has asked for a kind of which no event was published since.
All subscriptions have numbers of their own, and no topic lists one twice. What a subscription is
for is kept without doubles and in the order of the names, whatever the order in which it was
asked. Giving one back takes it off all topics and nothing else off any; publishing takes off the
topic of the event exactly those who were let go. -/
theorem bookkeeping_exact (moves : List Move) :
    (opened.run moves).bus.subscriberCount =
      (book moves).countP Line.isServed + (book moves).countP Line.lingers ∧
    (opened.numbers moves).Nodup ∧
    (∀ k, ((opened.run moves).bus.listed k).Nodup) ∧
    (∀ (id : Nat) u, (opened.run moves).bus.subscriptions[id]? = some u → ∃ l,
      (book moves)[id]? = some l ∧ u.held = l.isHeld ∧ (∀ k, k ∈ u.kinds ↔ k ∈ l.asked) ∧
      u.kinds.Nodup ∧ u.kinds.Pairwise (fun k j => k.name < j.name) ∧
      ∀ asked, (∀ k, k ∈ asked ↔ k ∈ l.asked) → Subscription.kindsOf asked = u.kinds) ∧
    (∀ id k, ((opened.run moves).bus.unsubscribe id).listed k =
      ((opened.run moves).bus.listed k).filter (· ≠ id)) ∧
    ∀ e k, ((opened.run moves).bus.publish e).2.listed k =
      if k = e.kind then
        ((opened.run moves).bus.listed k).filter fun id => ((book moves)[id]?).any Line.isHeld
      else (opened.run moves).bus.listed k := by
  have horderly : (opened.run moves).bus.Orderly := orderly_run Bus.orderly_empty moves
  have hbook := booked_run moves
  refine ⟨hbook.subscriberCount, ?_, fun k => ?_, fun id u hu => ?_,
    horderly.listed_unsubscribe, fun e k => ?_⟩
  · obtain ⟨k, hk⟩ := opened.exists_numbers_eq moves
    rw [hk]
    exact List.nodup_range'
  · exact (horderly.sorted k).imp Nat.ne_of_lt
  · have ha := hbook.agrees id
    rw [hu, Option.map_some, eq_comm, Option.map_eq_some_iff] at ha
    obtain ⟨l, hl, he⟩ := ha
    obtain ⟨hk, hh⟩ := Prod.mk.inj he
    refine ⟨l, hl, hh.symm, fun k => ?_, ?_, ?_, fun asked h => ?_⟩
    · rw [← hk, Subscription.mem_kindsOf]
    · rw [← hk]
      exact Subscription.kindsOf_nodup l.asked
    · rw [← hk]
      exact Subscription.kindsOf_pairwise l.asked
    · rw [← hk]
      exact Subscription.kindsOf_congr h
  · rw [Bus.listed_publish]
    split
    · next hk =>
      subst hk
      rw [Bus.served, funext hbook.isHeld]
    · rfl

/-- One is let go and misses events of one of its two kinds only, so it is still counted; another
is given back, and a third has asked for nothing. -/
def neglect : List Move := [
  .subscribe [.testFailed, .phaseChanged, .testFailed],
  .subscribe EventKind.all,
  .subscribe [],
  .letGo 0,
  .publish (.testFailed "unheard"),
  .unsubscribe 1]

theorem bookkeeping_of_neglect : (opened.run neglect).bus.subscriberCount = 1 ∧
    ∃ u, (opened.run neglect).bus.subscriptions[0]? = some u ∧ u.held = false ∧
      u.kinds = [.phaseChanged, .testFailed] := by
  obtain ⟨hcount, -, -, hlines, -⟩ := bookkeeping_exact neglect
  have hu : (opened.run neglect).bus.subscriptions[0]? = some ⟨_, _, _⟩ := rfl
  obtain ⟨l, hl, hh, -, -, -, hk⟩ := hlines 0 _ hu
  have hline : (book neglect)[0]? = some ⟨[.testFailed, .phaseChanged, .testFailed], _⟩ := rfl
  obtain rfl := Option.some.inj (hl.symm.trans hline)
  have hasked : ∀ k, k ∈ [EventKind.phaseChanged, .testFailed] ↔
      k ∈ [EventKind.testFailed, .phaseChanged, .testFailed] := fun k => by cases k <;> decide
  exact ⟨hcount.trans rfl, _, hu, hh, (hk _ hasked).symm.trans rfl⟩

end Audience
end LinkTest
