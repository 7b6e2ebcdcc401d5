import Mathlib.Logic.Function.Basic
import LinkTest.Proofs.Bus.Orderly

/-!
# What listeners receive

A schedule of a bus is any list of moves: subscriptions come and go, events are published and
received. What a move does to one subscription is decided by the move and by that subscription
alone. Hence the main statement: what was received from a subscription that is still held, and what
waits in it, are the events of its kinds that were published since it was made, each once and in
their order; others that are given back or let go change nothing in it.
-/

namespace LinkTest

/-- A bus in use, with the events that were received from each subscription, oldest first. -/
structure Audience where
  bus : Bus
  received : Nat → List Event

namespace Audience

inductive Move
  | subscribe (asked : List EventKind)
  | publish (e : Event)
  | unsubscribe (id : Nat)
  /-- The subscription is let go without a word to the bus. -/
  | letGo (id : Nat)
  /-- The oldest event is taken out, if there is one by the end of the wait. -/
  | receive (id : Nat)
  | drain (id : Nat)

def opened : Audience := ⟨.empty, fun _ => []⟩

def apply (a : Audience) : Move → Audience
  | .subscribe asked => { a with bus := (a.bus.subscribe asked).2 }
  | .publish e => { a with bus := (a.bus.publish e).2 }
  | .unsubscribe id => { a with bus := a.bus.unsubscribe id }
  | .letGo id => { a with bus := a.bus.release id }
  | .receive id =>
    { bus := (a.bus.receive id).2
      received := Function.update a.received id (a.received id ++ (a.bus.receive id).1.toList) }
  | .drain id =>
    { bus := (a.bus.drain id).2
      received := Function.update a.received id (a.received id ++ (a.bus.drain id).1) }

def run (a : Audience) (moves : List Move) : Audience := moves.foldl apply a

@[simp] theorem run_nil (a : Audience) : a.run [] = a := rfl

@[simp] theorem run_cons (a : Audience) (m : Move) (rest : List Move) :
    a.run (m :: rest) = (a.apply m).run rest := rfl

@[simp] theorem run_append (a : Audience) (before after : List Move) :
    a.run (before ++ after) = (a.run before).run after := List.foldl_append

def Move.event? : Move → Option Event
  | .publish e => some e
  | _ => none

/-- The events that some moves publish, oldest first. -/
def published (moves : List Move) : List Event := moves.filterMap Move.event?

/-- Whether a subscription is not held any more after a move. -/
def Move.endsHold (id : Nat) : Move → Bool
  | .unsubscribe i | .letGo i => i = id
  | _ => false

/-! ## One subscription -/

/-- A subscription, if it was made already, and what was received from it. -/
structure Seat where
  subscription : Option Subscription
  received : List Event

def seat (a : Audience) (id : Nat) : Seat := ⟨a.bus.subscriptions[id]?, a.received id⟩

namespace Seat

/-- All that was ever delivered to it. -/
def heard (s : Seat) : List Event :=
  s.received ++ (s.subscription.map Subscription.pending).getD []

/-- The oldest event that waits is taken out. -/
def take (s : Seat) : Seat :=
  match (s.subscription.map Subscription.pending).getD [] with
  | [] => s
  | e :: rest =>
    { subscription := s.subscription.map ({ · with pending := rest })
      received := s.received ++ [e] }

/-- What a move does to the subscription `id` when `count` subscriptions were made before. -/
def after (count id : Nat) (s : Seat) : Move → Seat
  | .subscribe asked =>
    if id = count then { s with subscription := some ⟨Subscription.kindsOf asked, [], true⟩ } else s
  | .publish e => { s with subscription := s.subscription.map (Subscription.offer e) }
  | .unsubscribe i | .letGo i =>
    if i = id then { s with subscription := s.subscription.map Subscription.release } else s
  | .receive i => if i = id then s.take else s
  | .drain i =>
    if i = id then
      { subscription := s.subscription.map ({ · with pending := [] })
        received := s.heard }
    else s

/-- A subscription made before keeps its kinds, is held until it is given back or let go, and is
handed an event of its kinds as long as it is held. -/
theorem after_of_some {count id : Nat} {s : Seat} {u : Subscription}
    (hu : s.subscription = some u) (hid : id ≠ count) (m : Move) :
    ∃ v, (s.after count id m).subscription = some v ∧ v.kinds = u.kinds ∧
      v.held = (u.held && !m.endsHold id) ∧
      (u.held = true → (s.after count id m).heard =
        s.heard ++ m.event?.toList.filter fun e => u.kinds.contains e.kind) := by
  cases m with
  | subscribe asked =>
    refine ⟨u, ?_, rfl, by simp [Move.endsHold], fun _ => ?_⟩ <;>
      simp [after, hid, hu, Move.event?]
  | publish e =>
    refine ⟨u.offer e, by simp [after, hu], u.offer_kinds e, by simp [Move.endsHold], fun hh => ?_⟩
    by_cases hk : e.kind ∈ u.kinds <;>
      simp [after, heard, hu, Subscription.wants, hh, hk, Move.event?]
  | unsubscribe i =>
    by_cases hi : i = id
    · exact ⟨u.release, by simp [after, hi, hu], rfl,
        by simp [Subscription.release, Move.endsHold, hi],
        fun _ => by simp [after, heard, hi, hu, Subscription.release, Move.event?]⟩
    · exact ⟨u, by simp [after, hi, hu], rfl, by simp [Move.endsHold, hi],
        fun _ => by simp [after, hi, Move.event?]⟩
  | letGo i =>
    by_cases hi : i = id
    · exact ⟨u.release, by simp [after, hi, hu], rfl,
        by simp [Subscription.release, Move.endsHold, hi],
        fun _ => by simp [after, heard, hi, hu, Subscription.release, Move.event?]⟩
    · exact ⟨u, by simp [after, hi, hu], rfl, by simp [Move.endsHold, hi],
        fun _ => by simp [after, hi, Move.event?]⟩
  | receive i =>
    by_cases hi : i = id
    · cases hp : u.pending with
      | nil =>
        exact ⟨u, by simp [after, take, hi, hu, hp], rfl, by simp [Move.endsHold],
          fun _ => by simp [after, take, hi, hu, hp, Move.event?]⟩
      | cons e rest =>
        exact ⟨{ u with pending := rest }, by simp [after, take, hi, hu, hp], rfl,
          by simp [Move.endsHold], fun _ => by simp [after, take, heard, hi, hu, hp, Move.event?]⟩
    · exact ⟨u, by simp [after, hi, hu], rfl, by simp [Move.endsHold],
        fun _ => by simp [after, hi, Move.event?]⟩
  | drain i =>
    by_cases hi : i = id
    · exact ⟨{ u with pending := [] }, by simp [after, hu, hi], rfl, by simp [Move.endsHold],
        fun _ => by simp [after, heard, hu, hi, Move.event?]⟩
    · exact ⟨u, by simp [after, hu, hi], rfl, by simp [Move.endsHold],
        fun _ => by simp [after, hi, Move.event?]⟩

/-- From a subscription that was not made yet nothing is received. -/
theorem received_after_of_none {count id : Nat} {s : Seat} (hs : s.subscription = none) (m : Move) :
    (s.after count id m).received = s.received := by
  cases m with
  | subscribe asked =>
    simp only [after]
    split <;> rfl
  | publish e => rfl
  | unsubscribe i =>
    simp only [after]
    split <;> rfl
  | letGo i =>
    simp only [after]
    split <;> rfl
  | receive i => simp [after, take, hs]
  | drain i =>
    simp only [after]
    split
    · simp [heard, hs]
    · rfl

end Seat

/-! ## The bus as a whole -/

/-- How many subscriptions a move makes. -/
def Move.made : Move → Nat
  | .subscribe _ => 1
  | _ => 0

theorem length_apply (a : Audience) (m : Move) :
    (a.apply m).bus.subscriptions.length = a.bus.subscriptions.length + m.made := by
  cases m with
  | subscribe asked => simp [apply, Bus.subscribe, Move.made]
  | publish e => simp [apply, Bus.publish, Move.made]
  | unsubscribe id => simp [apply, Bus.unsubscribe, Bus.release, Move.made]
  | letGo id => simp [apply, Bus.release, Move.made]
  | receive id =>
    simp only [apply, Bus.receive]
    split <;> simp [Move.made]
  | drain id => simp [apply, Bus.drain, Move.made]

theorem orderly_apply {a : Audience} (h : a.bus.Orderly) (m : Move) : (a.apply m).bus.Orderly := by
  cases m with
  | subscribe asked => exact h.subscribe asked
  | publish e => exact h.publish e
  | unsubscribe id => exact h.unsubscribe id
  | letGo id => exact h.release id
  | receive id =>
    simp only [apply, Bus.receive]
    split
    · exact h
    · exact h.modify id (fun _ => rfl) fun _ hh => hh
  | drain id => exact h.modify id (fun _ => rfl) fun _ hh => hh

theorem orderly_run {a : Audience} (h : a.bus.Orderly) (moves : List Move) :
    (a.run moves).bus.Orderly := by
  induction moves generalizing a with
  | nil => exact h
  | cons m rest ih => exact ih (orderly_apply h m)

theorem modify_getElem? (b : Bus) (f : Subscription → Subscription) (i id : Nat) :
    (b.subscriptions.modify i f)[id]? =
      if i = id then (b.subscriptions[id]?).map f else b.subscriptions[id]? := by
  rw [List.getElem?_modify]
  split
  · rfl
  · exact Option.map_id'

/-- A move does to each subscription what that one and the move decide. -/
theorem seat_apply {a : Audience} (h : a.bus.Orderly) (m : Move) (id : Nat) :
    (a.apply m).seat id = (a.seat id).after a.bus.subscriptions.length id m := by
  cases m with
  | subscribe asked =>
    simp only [seat, apply, Seat.after, Bus.subscribe]
    by_cases hid : id = a.bus.subscriptions.length
    · simp [hid]
    · rw [if_neg hid]
      rcases Nat.lt_or_gt_of_ne hid with hlt | hgt
      · rw [List.getElem?_append_left hlt]
      · rw [List.getElem?_eq_none (Nat.le_of_lt hgt), List.getElem?_eq_none (by simp; omega)]
  | publish e => simp only [seat, apply, Seat.after, h.publish_getElem?]
  | unsubscribe i =>
    simp only [seat, apply, Seat.after, Bus.unsubscribe, Bus.release, modify_getElem?]
    split <;> rfl
  | letGo i =>
    simp only [seat, apply, Seat.after, Bus.release, modify_getElem?]
    split <;> rfl
  | receive i =>
    by_cases hi : i = id
    · subst hi
      simp only [seat, apply, Seat.after, Seat.take, Bus.receive, if_true]
      cases ((a.bus.subscriptions[i]?).map Subscription.pending).getD [] <;> simp
    · simp only [seat, apply, Seat.after, Bus.receive, if_neg hi,
        Function.update_of_ne (Ne.symm hi)]
      split
      · rfl
      · simp [hi]
  | drain i =>
    simp only [seat, apply, Seat.after, Bus.drain, modify_getElem?]
    by_cases hi : i = id
    · subst hi
      simp [Seat.heard]
    · simp [hi, Function.update_of_ne (Ne.symm hi)]

theorem seat_run_of_some {a : Audience} (h : a.bus.Orderly) {id : Nat} {u : Subscription}
    (hu : (a.seat id).subscription = some u) (moves : List Move) :
    ∃ v, ((a.run moves).seat id).subscription = some v ∧ v.kinds = u.kinds ∧
      v.held = (u.held && moves.all fun m => !m.endsHold id) ∧
      (v.held = true → ((a.run moves).seat id).heard =
        (a.seat id).heard ++ (published moves).filter fun e => u.kinds.contains e.kind) := by
  induction moves generalizing a u with
  | nil => exact ⟨u, hu, rfl, by simp, fun _ => by simp [published]⟩
  | cons m rest ih =>
    have hid : id ≠ a.bus.subscriptions.length :=
      Nat.ne_of_lt (List.getElem?_eq_some_iff.1 hu).1
    obtain ⟨v, hv, hk, hh, hheard⟩ := Seat.after_of_some hu hid m
    rw [← seat_apply h] at hv hheard
    obtain ⟨w, hw, hk', hh', hheard'⟩ := ih (orderly_apply h m) hv
    refine ⟨w, hw, hk'.trans hk, ?_, fun hheld => ?_⟩
    · rw [hh', hh, List.all_cons, Bool.and_assoc]
    · have hvheld : v.held = true := by
        rw [hh'] at hheld
        exact (Bool.and_eq_true_iff.1 hheld).1
      have huheld : u.held = true := by
        rw [hh] at hvheld
        exact (Bool.and_eq_true_iff.1 hvheld).1
      have hpub : published (m :: rest) = m.event?.toList ++ published rest := by
        rw [published, List.filterMap_cons]
        cases m.event? <;> rfl
      rw [run_cons, hheard' hheld, hheard huheld, hk, hpub, List.filter_append, List.append_assoc]

/-- Two uses of a bus that agree on one subscription go on agreeing on it. -/
theorem seat_run_congr {a b : Audience} (ha : a.bus.Orderly) (hb : b.bus.Orderly)
    (hl : a.bus.subscriptions.length = b.bus.subscriptions.length) {id : Nat}
    (hs : a.seat id = b.seat id) (moves : List Move) :
    (a.run moves).seat id = (b.run moves).seat id := by
  induction moves generalizing a b with
  | nil => exact hs
  | cons m rest ih =>
    refine ih (orderly_apply ha m) (orderly_apply hb m) ?_ ?_
    · rw [length_apply, length_apply, hl]
    · rw [seat_apply ha, seat_apply hb, hs, hl]

/-- A subscription that is made is held, is for the kinds asked for, and begins empty. -/
theorem seat_subscribe (a : Audience) (asked : List EventKind) :
    (a.apply (.subscribe asked)).seat a.bus.subscriptions.length =
      ⟨some ⟨Subscription.kindsOf asked, [], true⟩, a.received a.bus.subscriptions.length⟩ := by
  simp [seat, apply, Bus.subscribe]

/-- Nothing was received from a subscription that is not there yet. -/
theorem received_of_length_le {a : Audience} (h : a.bus.Orderly)
    (ha : ∀ id, a.bus.subscriptions.length ≤ id → a.received id = []) (moves : List Move) :
    ∀ id, (a.run moves).bus.subscriptions.length ≤ id → (a.run moves).received id = [] := by
  induction moves generalizing a with
  | nil => exact ha
  | cons m rest ih =>
    refine ih (orderly_apply h m) fun id hid => ?_
    have hle : a.bus.subscriptions.length ≤ id := by
      rw [length_apply] at hid
      omega
    have hr := congrArg Seat.received (seat_apply h m id)
    rw [Seat.received_after_of_none (List.getElem?_eq_none hle)] at hr
    exact hr.trans (ha id hle)

theorem seat_endsHold {a : Audience} (h : a.bus.Orderly) {m : Move} {other : Nat}
    (hm : m.endsHold other = true) {id : Nat} (hid : id ≠ other) :
    (a.apply m).seat id = a.seat id := by
  rw [seat_apply h]
  cases m with
  | unsubscribe i =>
    obtain rfl : i = other := by simpa [Move.endsHold] using hm
    exact if_neg (Ne.symm hid)
  | letGo i =>
    obtain rfl : i = other := by simpa [Move.endsHold] using hm
    exact if_neg (Ne.symm hid)
  | _ => cases hm

/-- Every subscription was made by a move. -/
theorem exists_subscribe (a : Audience) (moves : List Move) {id : Nat}
    (hle : a.bus.subscriptions.length ≤ id)
    (hlt : id < (a.run moves).bus.subscriptions.length) :
    ∃ before asked after, moves = before ++ .subscribe asked :: after ∧
      ((a.run before).bus.subscribe asked).1 = id := by
  induction moves generalizing a with
  | nil => exact absurd hlt (Nat.not_lt_of_le hle)
  | cons m rest ih =>
    by_cases hid : (a.apply m).bus.subscriptions.length ≤ id
    · obtain ⟨before, asked, after, rfl, hn⟩ := ih _ hid hlt
      exact ⟨m :: before, asked, after, rfl, hn⟩
    · rw [length_apply] at hid
      cases m with
      | subscribe asked =>
        refine ⟨[], asked, rest, rfl, ?_⟩
        simp only [Move.made] at hid
        change a.bus.subscriptions.length = id
        omega
      | _ => exact absurd hle hid

/-- A subscription that is made begins empty and with the kinds asked for; as long as it is held,
it is handed what is published of these kinds. -/
theorem seat_run_subscribe {a : Audience} (h : a.bus.Orderly)
    (hr : a.received a.bus.subscriptions.length = []) (asked : List EventKind)
    (after : List Move) :
    ∃ u, ((a.run (.subscribe asked :: after)).seat a.bus.subscriptions.length).subscription =
        some u ∧
      (∀ k, k ∈ u.kinds ↔ k ∈ asked) ∧
      (u.held = true ↔ ∀ m ∈ after, m.endsHold a.bus.subscriptions.length = false) ∧
      (u.held = true →
        ((a.run (.subscribe asked :: after)).seat a.bus.subscriptions.length).heard =
          (published after).filter fun e => asked.contains e.kind) := by
  have hseat := a.seat_subscribe asked
  have hsub : ((a.apply (.subscribe asked)).seat a.bus.subscriptions.length).subscription =
      some ⟨Subscription.kindsOf asked, [], true⟩ := by rw [hseat]
  obtain ⟨u, hu, hk, hh, hheard⟩ := seat_run_of_some (orderly_apply h (.subscribe asked)) hsub after
  have hmem : ∀ k, k ∈ u.kinds ↔ k ∈ asked := by
    intro k
    rw [hk]
    exact Subscription.mem_kindsOf
  refine ⟨u, hu, hmem, ?_, fun hheld => ?_⟩
  · rw [hh]
    simp
  · rw [run_cons, hheard hheld, hseat]
    simp [Seat.heard, hr, Subscription.mem_kindsOf]

/-- Whatever is done with a bus: each subscription made is held until it is given back or let go,
and as long as it is held, what was received from it and what waits in it are the events of its
kinds that were published since it was made. There are no other subscriptions, and an event is
delivered to as many as are held and are for its kind. Giving one subscription back, or letting it
go, changes nothing in any other, then or later. -/
theorem delivery_exact (moves : List Move) :
    (∀ before asked after id, moves = before ++ .subscribe asked :: after →
      ((opened.run before).bus.subscribe asked).1 = id →
      ∃ u, (opened.run moves).bus.subscriptions[id]? = some u ∧
        (∀ k, k ∈ u.kinds ↔ k ∈ asked) ∧
        (u.held = true ↔ ∀ m ∈ after, m.endsHold id = false) ∧
        (u.held = true → (opened.run moves).received id ++ u.pending =
          (published after).filter fun e => asked.contains e.kind)) ∧
    (∀ id, id < (opened.run moves).bus.subscriptions.length →
      ∃ before asked after, moves = before ++ .subscribe asked :: after ∧
        ((opened.run before).bus.subscribe asked).1 = id) ∧
    (∀ e, ((opened.run moves).bus.publish e).1 =
      (opened.run moves).bus.subscriptions.countP fun u => u.held && u.kinds.contains e.kind) ∧
    ∀ m other later id, m.endsHold other = true → id ≠ other →
      (((opened.run moves).apply m).run later).seat id = ((opened.run moves).run later).seat id := by
  have horderly : ∀ ms, (opened.run ms).bus.Orderly := orderly_run Bus.orderly_empty
  refine ⟨?_, ?_, (horderly moves).publish_fst, ?_⟩
  · rintro before asked after id rfl rfl
    have hr := received_of_length_le (a := opened) Bus.orderly_empty (fun _ _ => rfl) before _
      (Nat.le_refl _)
    obtain ⟨u, hu, hk, hh, hheard⟩ := seat_run_subscribe (horderly before) hr asked after
    rw [← run_append] at hu hheard
    refine ⟨u, hu, hk, hh, fun hheld => ?_⟩
    rw [← hheard hheld, Seat.heard, hu]
    rfl
  · exact fun id hid => exists_subscribe opened moves (Nat.zero_le _) hid
  · intro m other later id hm hid
    refine seat_run_congr (orderly_apply (horderly moves) m) (horderly moves) ?_
      (seat_endsHold (horderly moves) hm hid) later
    rw [length_apply]
    cases m with
    | subscribe asked => cases hm
    | _ => rfl

/-- Two subscriptions, one of which asks for a kind twice, and one of which is let go. -/
def rehearsal : List Move := [
  .publish (.testFailed "early"),
  .subscribe [.testFailed, .phaseChanged, .testFailed],
  .subscribe EventKind.all,
  .publish (.phaseChanged .idle .preparing),
  .receive 0,
  .letGo 1,
  .publish (.reportRouter ⟨1, 2⟩),
  .publish (.testFailed "late")]

theorem delivery_of_rehearsal : ((opened.run rehearsal).bus.publish (.testFailed "again")).1 = 1 ∧
    ∃ u, (opened.run rehearsal).bus.subscriptions[0]? = some u ∧ u.held = true ∧
      (opened.run rehearsal).received 0 ++ u.pending =
        [.phaseChanged .idle .preparing, .testFailed "late"] := by
  obtain ⟨hseats, -, hcount, -⟩ := delivery_exact rehearsal
  obtain ⟨u, hu, -, hh, hheard⟩ := hseats [.publish (.testFailed "early")]
    [.testFailed, .phaseChanged, .testFailed] _ 0 rfl rfl
  have hheld : u.held = true := hh.2 (by decide)
  exact ⟨(hcount _).trans rfl, u, hu, hheld, (hheard hheld).trans rfl⟩

end Audience
end LinkTest
