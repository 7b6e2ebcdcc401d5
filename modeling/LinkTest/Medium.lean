import LinkTest.Address
import LinkTest.Failure
import LinkTest.Span

/-!
# Networks that can be measured

Connecting, reading and looking up names is all that measurements do to a network. Each of them may
take its time, may fail, and may come out differently whenever it is done; a network is any state
that answers them.
-/

namespace LinkTest

/-- When something has to be given up that has a timer of its own: when the timer runs out, or at
the limit of the whole call if that comes before. -/
def dueBy (timer : Span) : Option Span → Span
  | none => timer
  | some limit => ⟨min timer.nanos limit.nanos⟩

/-- Whether it is the timer that something is given up for. Of a timer and a limit that run out
together the timer is heeded. -/
def heedsTimer (timer : Span) : Option Span → Bool
  | none => true
  | some limit => timer.nanos ≤ limit.nanos

/-- A network with connections of some kind. What is done is done until a moment at most, and there
is no answer if nothing has come of it by then. -/
class Medium (ν : Type) (Link : outParam Type) where
  /-- The moment that it is. -/
  now : ν → Span
  connect (address : String) (due : Span) : ν → Option (Except IoFault Link) × ν
  /-- Reads some bytes, so many at most, and answers how many there were; none are the end. -/
  read (most : Nat) (due : Span) (link : Link) : ν → Option (Except IoFault (Nat × Link)) × ν
  /-- Finds the addresses that a name stands for. -/
  lookup (host : String) (due : Span) : ν → Option (Except IoFault (List Ip)) × ν
  /-- How many bytes can be read on a connection until a moment, and no more. -/
  remaining (due : Span) (link : Link) : ν → Nat
  add_remaining_le : ∀ {most : Nat} {due : Span} {link link' : Link} {n n' : ν} {bytes : Nat},
    read most due link n = (some (.ok (bytes, link')), n') →
      bytes + remaining due link' n' ≤ remaining due link n

end LinkTest
