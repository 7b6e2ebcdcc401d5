import LinkTest.Event

/-!
# The event bus

Subscriptions are numbered in the order in which they were made. A topic lists the subscriptions
that are served with events of one kind; it comes into being with its first subscriber. Giving a
subscription back removes it from its topics. One that is only let go stays listed until the next
event of a kind is due to it.
-/

namespace LinkTest

structure Subscription where
  kinds : List EventKind
  /-- The events that were delivered and not yet received, oldest first. -/
  pending : List Event
  /-- Whether someone can still receive from it. -/
  held : Bool

structure Bus where
  /-- All subscriptions ever made; the place of one is its number. -/
  subscriptions : List Subscription
  /-- The numbers listed under each kind, in the order of subscribing. -/
  topics : EventKind → Option (List Nat)

namespace Subscription

/-- The kinds asked for, each once, in the order of their names. -/
def kindsOf (asked : List EventKind) : List EventKind := EventKind.byName.filter (asked.contains ·)

theorem mem_kindsOf {k : EventKind} {asked : List EventKind} : k ∈ kindsOf asked ↔ k ∈ asked := by
  simp [kindsOf, EventKind.mem_byName]

def deliver (e : Event) (u : Subscription) : Subscription := { u with pending := u.pending ++ [e] }

def release (u : Subscription) : Subscription := { u with held := false }

/-- The text that names a subscription by its number. -/
def label (id : Nat) : String := "SubscriberId(" ++ toString id ++ ")"

end Subscription

namespace Bus

def empty : Bus := ⟨[], fun _ => none⟩

def isHeld (b : Bus) (id : Nat) : Bool := (b.subscriptions[id]?).any Subscription.held

/-- The subscriptions listed for a kind. -/
def listed (b : Bus) (k : EventKind) : List Nat := (b.topics k).getD []

/-- The subscriptions that an event of the kind reaches. -/
def served (b : Bus) (k : EventKind) : List Nat := (b.listed k).filter b.isHeld

/-- Subscribes to the kinds and answers the number of the subscription. -/
def subscribe (b : Bus) (asked : List EventKind) : Nat × Bus :=
  let id := b.subscriptions.length
  let kinds := Subscription.kindsOf asked
  (id, {
    subscriptions := b.subscriptions ++ [⟨kinds, [], true⟩]
    topics := fun k => if k ∈ kinds then some (b.listed k ++ [id]) else b.topics k })

/-- Lets a subscription go without a word to the bus. -/
def release (b : Bus) (id : Nat) : Bus :=
  { b with subscriptions := b.subscriptions.modify id .release }

/-- Gives a subscription back: it is not listed any more. -/
def unsubscribe (b : Bus) (id : Nat) : Bus :=
  let kinds := ((b.subscriptions[id]?).map Subscription.kinds).getD []
  { b.release id with
    topics := fun k => if k ∈ kinds then (b.topics k).map (·.filter (· ≠ id)) else b.topics k }

/-- Delivers an event to every held subscription of its kind and answers to how many. Those that
are held no more are taken off the list. -/
def publish (b : Bus) (e : Event) : Nat × Bus :=
  let served := b.served e.kind
  (served.length, {
    subscriptions := b.subscriptions.mapIdx fun id u => if id ∈ served then u.deliver e else u
    topics := fun k => if k = e.kind then (b.topics k).map fun _ => served else b.topics k })

/-- The oldest event that waits in a subscription. -/
def receive (b : Bus) (id : Nat) : Option Event × Bus :=
  match ((b.subscriptions[id]?).map Subscription.pending).getD [] with
  | [] => (none, b)
  | e :: r => (some e, { b with subscriptions := b.subscriptions.modify id ({ · with pending := r }) })

/-- All events that wait in a subscription. -/
def drain (b : Bus) (id : Nat) : List Event × Bus :=
  (((b.subscriptions[id]?).map Subscription.pending).getD [],
    { b with subscriptions := b.subscriptions.modify id ({ · with pending := [] }) })

/-- How many different subscriptions are listed. -/
def subscriberCount (b : Bus) : Nat :=
  ((List.range b.subscriptions.length).filter fun id =>
    EventKind.all.any fun k => (b.listed k).contains id).length

def describe (b : Bus) : String := "EventBus \x7b subscribers: " ++ toString b.subscriberCount ++ " \x7d"

end Bus
end LinkTest
