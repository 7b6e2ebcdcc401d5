import LinkTest.Client.Wire
import LinkTest.Network.Basic
import LinkTest.Probe
import LinkTest.Record.Basic
import LinkTest.Server.Basic

/-!
# The client of a test server

One connection is opened when it is first needed and kept until the farewell. Whenever sending or
reading fails, or takes too long, it is dropped, and the next exchange opens another. A reply that
makes no sense, or a refusal, leaves it open. A call that is cut short at its limit leaves things
as they stand: the connection stays, and what was read of the unfinished line is lost.
-/

namespace LinkTest

structure Client where
  address : String
  /-- How long connecting may take, and how long the rest of an exchange. -/
  exchangeTimeout : Span
  probe : ProbeConfig
  connection : Option Connection
  /-- The settings of the latest test that could be made. -/
  settings : Option Settings

/-- A client in a network, and what it puts on the records of its tests. -/
structure Remote where
  client : Client
  network : Network
  stamp : Stamp

namespace Client

def new (address : String) (exchangeTimeout : Span) (probe : ProbeConfig) : Client :=
  ⟨address, exchangeTimeout, probe, none, none⟩

def ofConfig (c : Config) : Client := new c.server c.exchangeTimeout c.probe

end Client

namespace Remote

def closedByServer : Failure := .protocol "server closed the connection"

def setConnection (c : Option Connection) (r : Remote) : Remote :=
  { r with client := { r.client with connection := c } }

/-- The connection that is open, or a new one. -/
def connection (limit : Option Span) (r : Remote) : Outcome Connection × Remote :=
  match r.client.connection with
  | some c => (.ended (.ok c), r)
  | none =>
    match Probe.connect r.client.address r.client.exchangeTimeout limit r.network with
    | (none, n) => (.overdue, { r with network := n })
    | (some (.error f), n) => (.ended (.error f), { r with network := n })
    | (some (.ok c), n) => (.ended (.ok c), { r with network := n }.setConnection (some c))

/-- Reads the line that answers. -/
def awaitLine (limit : Option Span) (c : Connection) (r : Remote) : Outcome String × Remote :=
  match c.readLine with
  | .failed f => (.ended (.error (.io f)), r)
  | .line bytes rest =>
    if bytes.isEmpty then (.ended (.error closedByServer), r)
    else
      match Text.ofUtf8 bytes with
      | .ok s => (.ended (.ok s), r.setConnection (some rest))
      | .error flaw => (.ended (.error (.io (.described flaw.message))), r)
  | .hanging =>
    match r.network.waitUntil (r.network.timer r.client.exchangeTimeout) limit with
    | (true, n) => (.ended (.error (.timeout r.client.exchangeTimeout)), { r with network := n })
    | (false, n) => (.overdue, { r with network := n }.setConnection (some { c with incoming := [] }))

/-- Sends a line and reads the one that answers it. -/
def transfer (limit : Option Span) (line : String) (r : Remote) : Outcome String × Remote :=
  match r.connection limit with
  | (.ended (.ok c), r) =>
    match r.network.send line c with
    | (.error f, n) => (.ended (.error (.io f)), { r with network := n })
    | (.ok c, n) => awaitLine limit c ({ r with network := n }.setConnection (some c))
  | (.ended (.error f), r) => (.ended (.error f), r)
  | (.overdue, r) => (.overdue, r)
  | (.crashed, r) => (.crashed, r)

/-- A request and the response to it. Only a line that has been read keeps the connection. -/
def exchange (limit : Option Span) (q : Request) (r : Remote) : Outcome Response × Remote :=
  match r.transfer limit q.line with
  | (.ended (.ok line), r) => (.ended (Response.ofLine q line), r)
  | (.ended (.error f), r) => (.ended (.error f), r.setConnection none)
  | (.overdue, r) => (.overdue, r)
  | (.crashed, r) => (.crashed, r)

/-- Goes on with the response if there is one. -/
def andThen {α : Type} (answer : Outcome Response × Remote)
    (next : Response → Remote → Outcome α × Remote) : Outcome α × Remote :=
  match answer with
  | (.ended (.ok reply), r) => next reply r
  | (.ended (.error f), r) => (.ended (.error f), r)
  | (.overdue, r) => (.overdue, r)
  | (.crashed, r) => (.crashed, r)

/-! ## The calls -/

def login (limit : Option Span) (c : Credentials) (r : Remote) : Outcome SessionToken × Remote :=
  andThen (r.exchange limit (.login c)) fun reply r =>
    match reply.session with
    | some t => (.ended (.ok t), r)
    | none => (.ended (.error (.protocol "login reply without session")), r)

/-- Asks what to measure and measures it. The settings are kept only if that succeeds. -/
def test (limit : Option Span) (t : SessionToken) (r : Remote) : Outcome Record × Remote :=
  andThen (r.exchange limit (.getConfig t)) fun reply r =>
    match reply.settings with
    | none => (.ended (.error (.protocol "get_config reply without config")), r)
    | some s =>
      match Probe.run s r.client.probe limit r.network with
      | (none, n) => (.overdue, { r with network := n })
      | (some (.error f), n) => (.ended (.error f), { r with network := n })
      | (some (.ok m), n) =>
        (.ended (.ok (.measured r.stamp m)),
          { r with network := n, client := { r.client with settings := some s } })

/-- Uploads metrics under the numbers of the latest test. -/
def report (limit : Option Span) (t : SessionToken) (record : Record) (r : Remote) :
    Outcome Receipt × Remote :=
  match r.client.settings with
  | none => (.ended (.error (.protocol "no test settings to report against")), r)
  | some s =>
    andThen (r.exchange limit (.report t s.setId s.resultId record.metrics)) fun _ r =>
      (.ended (.ok ⟨s.setId, s.resultId⟩), r)

def disconnect (r : Remote) : Remote := r.setConnection none

/-- When a call has to be over that begins now. -/
def limitOf (limit : Span) (r : Remote) : Option Span := some (r.network.timer limit)

instance : Server Remote where
  login limit c r := r.login (r.limitOf limit) c
  test limit t r := r.test (r.limitOf limit) t
  report limit t record r := r.report (r.limitOf limit) t record
  disconnect := disconnect

end Remote
end LinkTest
