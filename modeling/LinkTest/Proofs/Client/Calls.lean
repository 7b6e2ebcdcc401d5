import LinkTest.Proofs.Client.Hearing

/-!
# Calls one after the other

All calls of a client have one form: a request, if there is one to make, and what is made of the
response. So what holds of an exchange is carried over to calls, and to sequences of calls, once.
-/

namespace LinkTest

/-- What a call yields that succeeds. -/
inductive Yield
  | session (token : SessionToken)
  | record (r : Record)
  | receipt (receipt : Receipt)
  | farewell

def Outcome.map {α β : Type} (f : α → β) : Outcome α → Outcome β
  | ended result => ended (result.map f)
  | overdue => overdue
  | crashed => crashed

namespace Remote

/-- One call, which may take so long if there is a limit at all. -/
def serve (timeout : Option Span) : Call → Remote → Outcome Yield × Remote
  | .login c, r =>
    let (outcome, r) := r.login (timeout.map r.network.timer) c
    (outcome.map .session, r)
  | .test t, r =>
    let (outcome, r) := r.test (timeout.map r.network.timer) t
    (outcome.map .record, r)
  | .report t record, r =>
    let (outcome, r) := r.report (timeout.map r.network.timer) t record
    (outcome.map .receipt, r)
  | .disconnect, r => (.ended (.ok .farewell), r.disconnect)

/-- The client after some calls. -/
def run (timeout : Option Span) (calls : List Call) (r : Remote) : Remote :=
  calls.foldl (fun r c => (r.serve timeout c).2) r

@[simp] theorem run_nil (timeout : Option Span) (r : Remote) : r.run timeout [] = r := rfl

@[simp] theorem run_cons (timeout : Option Span) (c : Call) (calls : List Call) (r : Remote) :
    r.run timeout (c :: calls) = (r.serve timeout c).2.run timeout calls := rfl

/-- The request of a call. There is none for a farewell, and none for an upload as long as no
settings are known. -/
def request? (r : Remote) : Call → Option Request
  | .login c => some (.login c)
  | .test t => some (.getConfig t)
  | .report t record =>
    r.client.settings.map fun s => .report t s.setId s.resultId record.metrics
  | .disconnect => none

/-- What a call makes of the response to its request. -/
def conclude (limit : Option Span) : Call → Response → Remote → Outcome Yield × Remote
  | .login _, reply, r =>
    match reply.session with
    | some t => (.ended (.ok (.session t)), r)
    | none => (.ended (.error (.protocol "login reply without session")), r)
  | .test _, reply, r =>
    match reply.settings with
    | none => (.ended (.error (.protocol "get_config reply without config")), r)
    | some s =>
      match Probe.run s r.client.probe limit r.network with
      | (none, n) => (.overdue, { r with network := n })
      | (some (.error f), n) => (.ended (.error f), { r with network := n })
      | (some (.ok m), n) =>
        (.ended (.ok (.record (.measured r.stamp m))),
          { r with network := n, client := { r.client with settings := some s } })
  | .report _ _, _, r =>
    match r.client.settings with
    | some s => (.ended (.ok (.receipt ⟨s.setId, s.resultId⟩)), r)
    | none => (.ended (.error (.protocol "no test settings to report against")), r)
  | .disconnect, _, r => (.ended (.ok .farewell), r)

variable {r : Remote} {c : Call} {q : Request}

/-- What no exchange changes: the settings that the client has, and the plans of the server. -/
structure Steady (r r' : Remote) : Prop where
  settings : r'.client.settings = r.client.settings
  plans : r'.network.serverPlans = r.network.serverPlans

theorem Steady.trans {r r' r'' : Remote} (h : Steady r r') (h' : Steady r' r'') : Steady r r'' :=
  ⟨h'.settings.trans h.settings, h'.plans.trans h.plans⟩

theorem steady_connection (limit : Option Span) (r : Remote) :
    Steady r (r.connection limit).2 := by
  unfold connection
  split
  · exact ⟨rfl, rfl⟩
  · have hl := (Probe.attempted_connect r.client.address r.client.exchangeTimeout limit r.network).1
    generalize Probe.connect r.client.address r.client.exchangeTimeout limit r.network = p at hl
    obtain ⟨_ | (f | c), n⟩ := p <;> exact ⟨rfl, hl.plans⟩

theorem plans_send (n : Network) (line : String) (c : Connection) :
    (n.send line c).2.serverPlans = n.serverPlans := by
  unfold Network.send
  split
  · rfl
  · split
    · dsimp only
      split <;> rfl
    · rfl

theorem steady_awaitLine (limit : Option Span) (c : Connection) (r : Remote) :
    Steady r (r.awaitLine limit c).2 := by
  unfold awaitLine
  split
  · exact ⟨rfl, rfl⟩
  · split
    · exact ⟨rfl, rfl⟩
    · split <;> exact ⟨rfl, rfl⟩
  · have hl := r.network.later_waitUntil (r.network.timer r.client.exchangeTimeout) limit
    generalize r.network.waitUntil (r.network.timer r.client.exchangeTimeout) limit = p at hl
    obtain ⟨_ | _, n⟩ := p <;> exact ⟨rfl, hl.plans⟩

theorem steady_transfer (limit : Option Span) (line : String) (r : Remote) :
    Steady r (r.transfer limit line).2 := by
  have hc := steady_connection limit r
  unfold transfer
  generalize r.connection limit = p at hc
  obtain ⟨outcome, r'⟩ := p
  cases outcome with
  | overdue => exact hc
  | crashed => exact hc
  | ended result =>
    cases result with
    | error f => exact hc
    | ok c =>
      have hs := plans_send r'.network line c
      dsimp only
      generalize r'.network.send line c = p at hs
      obtain ⟨sent, n⟩ := p
      have hn : n.serverPlans = r.network.serverPlans := hs.trans hc.plans
      cases sent with
      | error f => exact ⟨hc.settings, hn⟩
      | ok c' =>
        have hsent : Steady r ({ r' with network := n }.setConnection (some c')) :=
          ⟨hc.settings, hn⟩
        exact hsent.trans (steady_awaitLine _ _ _)

theorem steady_exchange (limit : Option Span) (q : Request) (r : Remote) :
    Steady r (r.exchange limit q).2 := by
  have ht := steady_transfer limit q.line r
  unfold exchange
  generalize r.transfer limit q.line = p at ht
  obtain ⟨outcome, r'⟩ := p
  cases outcome with
  | overdue => exact ht
  | crashed => exact ht
  | ended result =>
    cases result with
    | ok line => exact ht
    | error f => exact ht.trans ⟨rfl, rfl⟩

/-- A call is its request, and what is made of the response. -/
theorem serve_of_request? (hq : r.request? c = some q) (timeout : Option Span) :
    r.serve timeout c = andThen (r.exchange (timeout.map r.network.timer) q)
      (conclude (timeout.map r.network.timer) c) := by
  cases c with
  | disconnect => cases hq
  | login c =>
    obtain rfl := Option.some.inj hq
    simp only [serve, login]
    generalize r.exchange _ _ = p
    obtain ⟨(f | reply) | _ | _, r'⟩ := p
    · rfl
    · simp only [andThen, conclude]
      cases reply.session <;> rfl
    · rfl
    · rfl
  | test t =>
    obtain rfl := Option.some.inj hq
    simp only [serve, test]
    generalize r.exchange _ _ = p
    obtain ⟨(f | reply) | _ | _, r'⟩ := p
    · rfl
    · simp only [andThen, conclude]
      cases reply.settings with
      | none => rfl
      | some s =>
        dsimp only
        generalize Probe.run s _ _ r'.network = p
        obtain ⟨_ | (f | m), n⟩ := p <;> rfl
    · rfl
    · rfl
  | report t record =>
    obtain ⟨s, hset, rfl⟩ := Option.map_eq_some_iff.1 hq
    simp only [serve, report, hset]
    have hs := (steady_exchange (timeout.map r.network.timer)
      (.report t s.setId s.resultId record.metrics) r).settings
    generalize r.exchange _ _ = p at hs
    obtain ⟨(f | reply) | _ | _, r'⟩ := p
    · rfl
    · simp only [andThen, conclude]
      rw [hs, hset]
      rfl
    · rfl
    · rfl

/-- A call without a request changes nothing, except that a farewell drops the connection. -/
theorem serve_of_no_request (hq : r.request? c = none) (timeout : Option Span) :
    (r.serve timeout c).2 = r ∨ (r.serve timeout c).2 = r.disconnect := by
  cases c with
  | login c => cases hq
  | test t => cases hq
  | disconnect => exact .inr rfl
  | report t record =>
    have hset : r.client.settings = none := by simpa [request?] using hq
    left
    simp only [serve, report, hset]

/-- Whatever a call makes of the response, it asks nothing more of the server. -/
theorem conclude_spec (limit : Option Span) (c : Call) (reply : Response) (r : Remote) :
    r.network.Later (conclude limit c reply r).2.network ∧
      (conclude limit c reply r).2.client.connection = r.client.connection := by
  unfold conclude
  split
  · split <;> exact ⟨.refl _, rfl⟩
  · split
    · exact ⟨.refl _, rfl⟩
    · next s _ =>
      have hl := Probe.later_run s r.client.probe limit r.network
      generalize Probe.run s r.client.probe limit r.network = p at hl
      obtain ⟨_ | (f | m), n⟩ := p <;> exact ⟨hl, rfl⟩
  · split <;> exact ⟨.refl _, rfl⟩
  · exact ⟨.refl _, rfl⟩

theorem serve_of_hears {bytes : List UInt8} {line : String} {rest : Connection} {n : Network}
    (hq : r.request? c = some q) (h : r.Hears q bytes line rest n) (timeout : Option Span) :
    r.serve timeout c =
      match Response.ofLine q line with
      | .ok reply => conclude (timeout.map r.network.timer) c reply (r.leave (some rest) n)
      | .error f => (.ended (.error f), r.leave (some rest) n) := by
  rw [serve_of_request? hq, exchange_of_hears h]
  cases Response.ofLine q line <;> rfl

theorem serve_of_fails {f : Failure} (hq : r.request? c = some q) (h : r.Fails q f) :
    ∃ n, r.serve none c = (.ended (.error f), r.leave none n) := by
  obtain ⟨n, he⟩ := exchange_of_fails h
  exact ⟨n, by rw [serve_of_request? hq, Option.map_none, he]; rfl⟩

end Remote
end LinkTest
