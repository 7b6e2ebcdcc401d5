import LinkTest.Client.Basic
import LinkTest.Proofs.Client.Dialling

/-!
# What an exchange hears

An exchange uses the connection that is held or opens one, sends its request, and reads. Either it
hears a line that is text, or there is one of seven reasons why it fails, and then it fails for that
reason and drops the connection, unless the call is given up before.
-/

namespace LinkTest

/-- A timer is waited for to its end, unless the call has a limit and is given up before. -/
theorem Network.waitUntil_cases (n : Network) (timer : Span) (limit : Option Span) :
    ∃ n', n.Later n' ∧ (n.waitUntil timer limit = (true, n') ∨
      limit ≠ none ∧ n.waitUntil timer limit = (false, n')) := by
  have hl := n.later_waitUntil timer limit
  cases hw : n.waitUntil timer limit with
  | mk heeded n' =>
    rw [hw] at hl
    cases heeded with
    | true => exact ⟨n', hl, .inl rfl⟩
    | false =>
      refine ⟨n', hl, .inr ⟨?_, rfl⟩⟩
      rintro rfl
      cases hw

namespace Remote

/-- The connection that an exchange uses, and the network as it is then. -/
inductive Uses (r : Remote) : Connection → Network → Prop
  | held {c : Connection} (h : r.client.connection = some c) : Uses r c r.network
  | opened {c : Connection} {n : Network} (h : r.client.connection = none)
    (hd : r.network.dialText r.client.address = (.connected c, n)) : Uses r c n

/-- The connection on which a request was sent, and the network as it is then. -/
inductive Asks (r : Remote) (q : Request) (c : Connection) (n : Network) : Prop
  | sent {c₀ : Connection} {n₀ : Network} (hu : r.Uses c₀ n₀)
    (hs : n₀.send q.line c₀ = (.ok c, n))

/-- These bytes are read as the reply to a request and are this line of text. The connection is left
as `rest` in the network `n`. -/
inductive Hears (r : Remote) (q : Request) (bytes : List UInt8) (line : String)
    (rest : Connection) (n : Network) : Prop
  | read {c : Connection} (ha : r.Asks q c n) (hr : c.readLine = .line bytes rest)
    (hne : bytes ≠ []) (ht : Text.ofUtf8 bytes = .ok line)

/-- Why no line is heard, if the call may take its time. -/
inductive Fails (r : Remote) (q : Request) : Failure → Prop
  | unreachable {f : IoFault} {n : Network} (h : r.client.connection = none)
    (hd : r.network.dialText r.client.address = (.failed f, n)) : Fails r q (.io f)
  | unanswered {n : Network} (h : r.client.connection = none)
    (hd : r.network.dialText r.client.address = (.hanging, n)) :
    Fails r q (.timeout r.client.exchangeTimeout)
  | unsent {c : Connection} {n n' : Network} {f : IoFault} (hu : r.Uses c n)
    (hs : n.send q.line c = (.error f, n')) : Fails r q (.io f)
  | unread {c : Connection} {n : Network} {f : IoFault} (ha : r.Asks q c n)
    (hr : c.readLine = .failed f) : Fails r q (.io f)
  | silent {c : Connection} {n : Network} (ha : r.Asks q c n) (hr : c.readLine = .hanging) :
    Fails r q (.timeout r.client.exchangeTimeout)
  | ended {c rest : Connection} {n : Network} (ha : r.Asks q c n)
    (hr : c.readLine = .line [] rest) : Fails r q closedByServer
  | garbled {c rest : Connection} {n : Network} {bytes : List UInt8} {flaw : Text.Utf8Flaw}
    (ha : r.Asks q c n) (hr : c.readLine = .line bytes rest) (hne : bytes ≠ [])
    (ht : Text.ofUtf8 bytes = .error flaw) : Fails r q (.io (.described flaw.message))

/-- The client with another connection, in another network. -/
def leave (r : Remote) (c : Option Connection) (n : Network) : Remote :=
  { r with network := n }.setConnection c

@[simp] theorem leave_connection (r : Remote) (c : Option Connection) (n : Network) :
    (r.leave c n).client.connection = c := rfl

@[simp] theorem leave_network (r : Remote) (c : Option Connection) (n : Network) :
    (r.leave c n).network = n := rfl

@[simp] theorem leave_settings (r : Remote) (c : Option Connection) (n : Network) :
    (r.leave c n).client.settings = r.client.settings := rfl

@[simp] theorem leave_exchangeTimeout (r : Remote) (c : Option Connection) (n : Network) :
    (r.leave c n).client.exchangeTimeout = r.client.exchangeTimeout := rfl

@[simp] theorem leave_probe (r : Remote) (c : Option Connection) (n : Network) :
    (r.leave c n).client.probe = r.client.probe := rfl

variable {r : Remote} {q : Request} {c : Connection} {n : Network}

theorem leave_self (h : r.client.connection = some c) : r.leave (some c) r.network = r := by
  obtain ⟨⟨_, _, _, _, _⟩, _, _⟩ := r
  obtain rfl := h
  rfl

theorem connection_of_uses (hu : r.Uses c n) (limit : Option Span) :
    r.connection limit = (.ended (.ok c), r.leave (some c) n) := by
  cases hu with
  | held h =>
    rw [leave_self h, connection]
    simp only [h]
  | opened h hd =>
    simp only [connection, h, Probe.connect_eq, hd]
    rfl

/-- An exchange whose request was sent goes on with reading. -/
theorem transfer_of_asks (ha : r.Asks q c n) (limit : Option Span) :
    r.transfer limit q.line = awaitLine limit c (r.leave (some c) n) := by
  cases ha with
  | sent hu hs =>
    rw [transfer, connection_of_uses hu]
    simp only [leave_network, hs]
    rfl

theorem exchange_of_hears {bytes : List UInt8} {line : String} {rest : Connection}
    (h : r.Hears q bytes line rest n) (limit : Option Span) :
    r.exchange limit q = (.ended (Response.ofLine q line), r.leave (some rest) n) := by
  cases h with
  | read ha hr hne ht =>
    have hb : bytes.isEmpty = false := by simpa using hne
    rw [exchange, transfer_of_asks ha]
    simp only [awaitLine, hr, hb, ht]
    rfl

/-- How an exchange is given up that does not come to its end within the limit of the call: while it
is connecting, or while it is waiting for the answer. What was read of it by then is lost. -/
inductive GivesUp (r : Remote) (q : Request) : Remote → Prop
  | connecting {n n' : Network} (h : r.client.connection = none)
    (hd : r.network.dialText r.client.address = (.hanging, n)) (hl : n.Later n') :
    GivesUp r q (r.leave none n')
  | waiting {c : Connection} {n n' : Network} (ha : r.Asks q c n) (hr : c.readLine = .hanging)
    (hl : n.Later n') : GivesUp r q (r.leave (some { c with incoming := [] }) n')

theorem leave_none (h : r.client.connection = none) (n : Network) :
    r.leave none n = { r with network := n } := by
  obtain ⟨⟨_, _, _, _, _⟩, _, _⟩ := r
  obtain rfl := h
  rfl

/-- Whatever it fails for, an exchange drops its connection, unless it is given up before. -/
theorem fails_or_givesUp {f : Failure} (h : r.Fails q f) (limit : Option Span) :
    (∃ n, r.exchange limit q = (.ended (.error f), r.leave none n)) ∨
      limit ≠ none ∧ ∃ r', r.GivesUp q r' ∧ r.exchange limit q = (.overdue, r') := by
  cases h with
  | unreachable h hd =>
    simp only [exchange, transfer, connection, h, Probe.connect_eq, hd]
    exact .inl ⟨_, rfl⟩
  | @unanswered n h hd =>
    obtain ⟨n', hl, hw | ⟨hn, hw⟩⟩ :=
      n.waitUntil_cases (n.timer r.client.exchangeTimeout) limit
    · simp only [exchange, transfer, connection, h, Probe.connect_eq, hd, hw]
      exact .inl ⟨n', rfl⟩
    · simp only [exchange, transfer, connection, h, Probe.connect_eq, hd, hw]
      exact .inr ⟨hn, _, .connecting h hd hl, by rw [leave_none h]⟩
  | @unsent c n n' f hu hs =>
    rw [exchange, transfer, connection_of_uses hu]
    simp only [leave_network, hs]
    exact .inl ⟨n', rfl⟩
  | unread ha hr =>
    rw [exchange, transfer_of_asks ha]
    simp only [awaitLine, hr]
    exact .inl ⟨_, rfl⟩
  | @silent c n ha hr =>
    obtain ⟨n', hl, hw | ⟨hn, hw⟩⟩ :=
      n.waitUntil_cases (n.timer r.client.exchangeTimeout) limit
    · rw [exchange, transfer_of_asks ha]
      simp only [awaitLine, hr, leave_network, leave_exchangeTimeout, hw]
      exact .inl ⟨n', rfl⟩
    · rw [exchange, transfer_of_asks ha]
      simp only [awaitLine, hr, leave_network, leave_exchangeTimeout, hw]
      exact .inr ⟨hn, _, .waiting ha hr hl, rfl⟩
  | ended ha hr =>
    rw [exchange, transfer_of_asks ha]
    simp only [awaitLine, hr, List.isEmpty_nil]
    exact .inl ⟨_, rfl⟩
  | garbled ha hr hne ht =>
    rename_i bytes _
    have hb : bytes.isEmpty = false := by simpa using hne
    rw [exchange, transfer_of_asks ha]
    simp only [awaitLine, hr, hb, ht]
    exact .inl ⟨_, rfl⟩

theorem exchange_of_fails {f : Failure} (h : r.Fails q f) :
    ∃ n, r.exchange none q = (.ended (.error f), r.leave none n) := by
  rcases fails_or_givesUp h none with he | ⟨hn, -⟩
  · exact he
  · exact absurd rfl hn

/-- What comes of the request once it was sent. -/
theorem hears_or_fails_of_asks (ha : r.Asks q c n) :
    (∃ bytes line rest, r.Hears q bytes line rest n) ∨ ∃ f, r.Fails q f := by
  cases hr : c.readLine with
  | hanging => exact .inr ⟨_, .silent ha hr⟩
  | failed f => exact .inr ⟨_, .unread ha hr⟩
  | line bytes rest =>
    by_cases hne : bytes = []
    · exact .inr ⟨_, .ended ha (hne ▸ hr)⟩
    · cases ht : Text.ofUtf8 bytes with
      | ok line => exact .inl ⟨bytes, line, rest, .read ha hr hne ht⟩
      | error flaw => exact .inr ⟨_, .garbled ha hr hne ht⟩

/-- What comes of an exchange that has a connection. -/
theorem hears_or_fails_of_uses (hu : r.Uses c n) (q : Request) :
    (∃ bytes line rest n, r.Hears q bytes line rest n) ∨ ∃ f, r.Fails q f := by
  cases hs : n.send q.line c with
  | mk sent n' =>
    cases sent with
    | error f => exact .inr ⟨_, .unsent hu hs⟩
    | ok c' =>
      rcases hears_or_fails_of_asks (.sent hu hs) with ⟨bytes, line, rest, h⟩ | h
      · exact .inl ⟨bytes, line, rest, n', h⟩
      · exact .inr h

/-- An exchange hears a line or fails. -/
theorem hears_or_fails (r : Remote) (q : Request) :
    (∃ bytes line rest n, r.Hears q bytes line rest n) ∨ ∃ f, r.Fails q f := by
  cases h : r.client.connection with
  | some c => exact hears_or_fails_of_uses (.held h) q
  | none =>
    cases hd : r.network.dialText r.client.address with
    | mk outcome n =>
      cases outcome with
      | connected c => exact hears_or_fails_of_uses (.opened h hd) q
      | failed f => exact .inr ⟨_, .unreachable h hd⟩
      | hanging => exact .inr ⟨_, .unanswered h hd⟩

end Remote
end LinkTest
