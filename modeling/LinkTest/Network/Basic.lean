import LinkTest.Medium
import LinkTest.Text.Utf8

/-!
# A network in memory

Names, a test server and a probe target behave as laid down in advance. Nothing takes time, save
for what never happens at all: that is waited for until a timer runs out, and the clock is put
forward to that moment.
-/

namespace LinkTest

/-- What follows when all bytes sent so far have been read. -/
inductive Tail
  /-- Nothing, for now. -/
  | waiting
  | ended
  | failed (fault : IoFault)
deriving DecidableEq, Repr

/-- What a server does about one request. -/
structure Turn where
  bytes : List UInt8
  tail : Tail
  /-- From now on nothing can be sent to it. -/
  writeFault : Option IoFault
deriving Repr

/-- What becomes of one connection to the test server. -/
inductive Plan
  | hanging
  | refused (fault : IoFault)
  | accepted (turns : List Turn)
deriving Repr

/-- What becomes of one connection to the probe target. -/
inductive TargetPlan
  | hanging
  | refused (fault : IoFault)
  | accepted (payload : Nat) (tail : Tail)
deriving Repr

/-- What a name is known to stand for. -/
inductive Lookup
  | found (ips : List Ip)
  | hanging
deriving Repr

/-- An open connection, seen from the side that opened it. -/
structure Connection where
  /-- Its place among the connections to the test server, if it is one. -/
  index : Option Nat
  /-- The bytes that have come and were not read. -/
  incoming : List UInt8
  tail : Tail
  turns : List Turn
  writeFault : Option IoFault
deriving Repr

structure Network where
  hosts : List (String × Lookup)
  /-- The plans for the connections to the test server, in their order. -/
  serverPlans : List Plan
  targetPlans : List TargetPlan
  /-- The plan for further connections to the probe target. -/
  otherTarget : TargetPlan
  /-- The moment that it is. -/
  now : Span
  /-- The requests that have reached the test server, by connection. -/
  requests : List (List String)
  /-- How many connections to the probe target were begun. -/
  probes : Nat

namespace Network

def serverPort : Nat := 40001

def targetPort : Nat := 40002

def unreachable : IoFault := .numbered 101

def refusal : IoFault := .numbered 111

def unknownName : IoFault :=
  .described "failed to lookup address information: Name or service not known"

def nulInName : IoFault := .described "file name contained an unexpected NUL byte"

def noAddress : IoFault := .described "could not resolve to any address"

/-! ## Waiting -/

/-- Time passes up to a moment, if it has not come yet. -/
def waitTill (due : Span) (n : Network) : Network :=
  { n with now := ⟨max n.now.nanos due.nanos⟩ }

/-- Waits for what never happens: until a timer runs out, unless the call has to be over before.
The answer is whether it was the timer. -/
def waitUntil (timer : Span) (limit : Option Span) (n : Network) : Bool × Network :=
  (heedsTimer timer limit, n.waitTill (dueBy timer limit))

/-- When a timer runs out that is started now. -/
def timer (n : Network) (s : Span) : Span := ⟨n.now.nanos + s.nanos⟩

/-! ## Names -/

/-- The addresses that a name stands for. -/
inductive Resolution
  | found (ips : List Ip)
  | failed (fault : IoFault)
  | hanging

def resolve (n : Network) (host : String) : Resolution :=
  match Ip.ofText? host with
  | some ip => .found [ip]
  | none =>
    if host.toList.contains '\x00' then .failed nulInName
    else
      match n.hosts.lookup host with
      | some (.found ips) => .found ips
      | some .hanging => .hanging
      | none => if host == "localhost" then .found [.v4 127 0 0 1] else .failed unknownName

/-! ## Connecting -/

/-- What comes of an attempt to connect. -/
inductive Dialled
  | connected (c : Connection)
  | failed (fault : IoFault)
  | hanging

def dialServer (n : Network) : Dialled × Network :=
  let index := n.requests.length
  let next := { n with requests := n.requests ++ [[]] }
  match n.serverPlans[index]? with
  | some .hanging => (.hanging, next)
  | some (.refused f) => (.failed f, next)
  | some (.accepted turns) => (.connected ⟨some index, [], .waiting, turns, none⟩, next)
  | none => (.connected ⟨some index, [], .waiting, [], none⟩, next)

def dialTarget (n : Network) : Dialled × Network :=
  let next := { n with probes := n.probes + 1 }
  match (n.targetPlans[n.probes]?).getD n.otherTarget with
  | .hanging => (.hanging, next)
  | .refused f => (.failed f, next)
  | .accepted payload tail => (.connected ⟨none, List.replicate payload 0, tail, [], none⟩, next)

/-- Tries one address. -/
def dial (n : Network) (ip : Ip) (port : Nat) : Dialled × Network :=
  if !ip.isLoopback then (.failed unreachable, n)
  else
    match ip with
    | .v4 _ _ _ _ =>
      if port = serverPort then n.dialServer
      else if port = targetPort then n.dialTarget
      else (.failed refusal, n)
    | .v6 _ => (.failed refusal, n)

/-- Tries one address after the other, until one does not fail. -/
def dialAll (port : Nat) : IoFault → List Ip → Network → Dialled × Network
  | last, [], n => (.failed last, n)
  | _, ip :: r, n =>
    match n.dial ip port with
    | (.failed f, n) => dialAll port f r n
    | other => other

def dialText (n : Network) (address : String) : Dialled × Network :=
  match Destination.ofText address with
  | .error flaw => (.failed (.described flaw.message), n)
  | .ok (.known ip port) => n.dial ip port
  | .ok (.named host port) =>
    match n.resolve host with
    | .found ips => dialAll port noAddress ips n
    | .failed f => (.failed f, n)
    | .hanging => (.hanging, n)

/-! ## Sending and reading -/

/-- Sends one request. The server takes it and makes its next move, unless its stream is over: then
the request is lost, and nobody notices. -/
def send (n : Network) (line : String) (c : Connection) : Except IoFault Connection × Network :=
  match c.writeFault with
  | some f => (.error f, n)
  | none =>
    match c.index, c.tail with
    | some i, .waiting =>
      let n := { n with requests := n.requests.modify i (· ++ [line]) }
      match c.turns with
      | [] => (.ok { c with tail := .ended }, n)
      | t :: rest =>
        (.ok { c with
          incoming := c.incoming ++ t.bytes
          tail := t.tail
          turns := rest
          writeFault := t.writeFault }, n)
    | _, _ => (.ok c, n)

end Network

namespace Connection

def newlineByte : UInt8 := 10

/-- What comes of an attempt to read a line. -/
inductive LineRead
  | line (bytes : List UInt8) (rest : Connection)
  | failed (fault : IoFault)
  | hanging

/-- The bytes up to the next end of a line, or up to the end of all. -/
def readLine (c : Connection) : LineRead :=
  let front := c.incoming.takeWhile (· ≠ newlineByte)
  match c.incoming.dropWhile (· ≠ newlineByte) with
  | b :: r => .line (front ++ [b]) { c with incoming := r }
  | [] =>
    match c.tail with
    | .waiting => .hanging
    | .ended => .line front { c with incoming := [] }
    | .failed f => .failed f

/-- Reads some of the bytes that have come, so many at most. -/
def readSome (most : Nat) (due : Span) (c : Connection) (n : Network) :
    Option (Except IoFault (Nat × Connection)) × Network :=
  match c.incoming, c.tail with
  | [], .waiting => (none, n.waitTill due)
  | [], .ended => (some (.ok (0, c)), n)
  | [], .failed f => (some (.error f), n)
  | b :: r, _ =>
    (some (.ok (((b :: r).take most).length, { c with incoming := (b :: r).drop most })), n)

theorem add_length_le_of_readSome {most : Nat} {due : Span} {c c' : Connection} {n n' : Network}
    {bytes : Nat} (h : readSome most due c n = (some (.ok (bytes, c')), n')) :
    bytes + c'.incoming.length ≤ c.incoming.length := by
  unfold readSome at h
  split at h
  · cases h
  · cases h
    exact Nat.le_of_eq (Nat.zero_add _)
  · cases h
  · next b r hin =>
    cases h
    exact Nat.le_of_eq (by rw [hin, ← List.length_append, List.take_append_drop])

end Connection

instance : Medium Network Connection where
  now n := n.now
  connect address due n :=
    match n.dialText address with
    | (.connected c, n) => (some (.ok c), n)
    | (.failed f, n) => (some (.error f), n)
    | (.hanging, n) => (none, n.waitTill due)
  read := Connection.readSome
  lookup host due n :=
    match n.resolve host with
    | .found ips => (some (.ok ips), n)
    | .failed f => (some (.error f), n)
    | .hanging => (none, n.waitTill due)
  remaining _ c _ := c.incoming.length
  add_remaining_le := Connection.add_length_le_of_readSome

end LinkTest
