import LinkTest.Proofs.Client.Calls
import LinkTest.Proofs.Client.Measuring

/-!
# What a call comes to

Calls that may take their time come to an end, in every sequence and whatever the network does. What
a call ends with, and whether the connection is kept, follows from what its exchange hears: a
refusal, a breach of the protocol, or a failure of the transport that is passed on as it is.
-/

namespace LinkTest

theorem Response.ofLine_eq_ok_iff {q : Request} {line : String} {reply : Response} :
    Response.ofLine q line = .ok reply ↔
      Json.decode Response.decoder line = .ok reply ∧ reply.accepted = true := by
  unfold Response.ofLine
  cases Json.decode Response.decoder line with
  | error m => exact ⟨nofun, nofun⟩
  | ok found =>
    cases ha : found.accepted with
    | false =>
      refine ⟨by simp [ha], fun h => ?_⟩
      obtain rfl := Except.ok.inj h.1
      cases ha.symm.trans h.2
    | true =>
      refine ⟨fun h => ?_, fun h => ?_⟩
      · obtain rfl : found = reply := by simpa [ha] using h
        exact ⟨rfl, ha⟩
      · simpa [ha] using h.1

/-! ## Attempts to connect -/

namespace Network

/-- How many connections were begun, to the test server and to the target of measurements. -/
def attempts (n : Network) : Nat := n.requests.length + n.probes

theorem attempts_waitUntil (n : Network) (timer : Span) (limit : Option Span) :
    (n.waitUntil timer limit).2.attempts = n.attempts :=
  rfl

theorem attempts_send (n : Network) (line : String) (c : Connection) :
    (n.send line c).2.attempts = n.attempts := by
  unfold send
  split
  · rfl
  · split
    · dsimp only
      split <;> simp [attempts]
    · rfl

end Network

namespace Remote

open Network

theorem attempts_awaitLine (limit : Option Span) (c : Connection) (r : Remote) :
    (r.awaitLine limit c).2.network.attempts = r.network.attempts := by
  have hw := r.network.attempts_waitUntil (r.network.timer r.client.exchangeTimeout) limit
  unfold awaitLine
  split
  · rfl
  · split
    · rfl
    · split <;> rfl
  · generalize r.network.waitUntil (r.network.timer r.client.exchangeTimeout) limit = p at hw
    obtain ⟨_ | _, n⟩ := p <;> exact hw

theorem attempts_connection (limit : Option Span) (r : Remote) :
    (r.connection limit).2.network.attempts =
      if r.client.connection.isSome then r.network.attempts
      else (r.network.dialText r.client.address).2.attempts := by
  unfold connection
  split
  · next c h => simp [h]
  · next h =>
    simp only [h, Option.isSome_none, Bool.false_eq_true, if_false, Probe.connect_eq]
    generalize r.network.dialText r.client.address = p
    obtain ⟨outcome, n⟩ := p
    cases outcome with
    | connected c => rfl
    | failed f => rfl
    | hanging =>
      have hw := n.attempts_waitUntil (n.timer r.client.exchangeTimeout) limit
      dsimp only
      generalize n.waitUntil (n.timer r.client.exchangeTimeout) limit = p at hw
      obtain ⟨_ | _, n⟩ := p <;> exact hw

/-- An exchange begins connections exactly if none is held, by one attempt to reach its address. -/
theorem attempts_exchange (limit : Option Span) (q : Request) (r : Remote) :
    (r.exchange limit q).2.network.attempts =
      if r.client.connection.isSome then r.network.attempts
      else (r.network.dialText r.client.address).2.attempts := by
  rw [← attempts_connection limit r]
  unfold exchange transfer
  generalize r.connection limit = p
  obtain ⟨(f | c) | _ | _, r'⟩ := p
  · rfl
  · have hs := r'.network.attempts_send q.line c
    dsimp only
    generalize r'.network.send q.line c = p at hs
    obtain ⟨f | c', n⟩ := p
    · exact hs
    · have ha := attempts_awaitLine limit c' ({ r' with network := n }.setConnection (some c'))
      dsimp only
      generalize awaitLine limit c' _ = p at ha
      obtain ⟨(f | line) | _ | _, r''⟩ := p <;> exact ha.trans hs
  · rfl
  · rfl

/-! ## What a call comes to -/

/-- The server agrees to a request with this response. -/
def Accepts (r : Remote) (q : Request) (reply : Response) (rest : Connection) (n : Network) :
    Prop :=
  ∃ bytes line, r.Hears q bytes line rest n ∧ Json.decode Response.decoder line = .ok reply ∧
    reply.accepted = true

/-- The server says no to the request of a call, for this reason. -/
inductive Refuses (r : Remote) (c : Call) : String → Prop
  | refused {q : Request} {bytes : List UInt8} {line : String} {rest : Connection} {n : Network}
    {reply : Response} (hq : r.request? c = some q) (h : r.Hears q bytes line rest n)
    (hd : Json.decode Response.decoder line = .ok reply) (hr : reply.accepted = false) :
    Refuses r c (reply.reason.getD (q.op ++ " rejected"))

/-- How a call goes against what client and server have agreed on. -/
inductive Breaches (r : Remote) : Call → String → Prop
  | closed {c : Call} {q : Request} {conn rest : Connection} {n : Network}
    (hq : r.request? c = some q) (ha : r.Asks q conn n) (hr : conn.readLine = .line [] rest) :
    Breaches r c "server closed the connection"
  | malformed {c : Call} {q : Request} {bytes : List UInt8} {line : String} {rest : Connection}
    {n : Network} {m : Mismatch} (hq : r.request? c = some q) (h : r.Hears q bytes line rest n)
    (hd : Json.decode Response.decoder line = .error m) :
    Breaches r c ("malformed " ++ q.op ++ " reply: " ++ m.message)
  | noSession {credentials : Credentials} {reply : Response} {rest : Connection} {n : Network}
    (ha : r.Accepts (.login credentials) reply rest n) (hs : reply.session = none) :
    Breaches r (.login credentials) "login reply without session"
  | noConfig {t : SessionToken} {reply : Response} {rest : Connection} {n : Network}
    (ha : r.Accepts (.getConfig t) reply rest n) (hs : reply.settings = none) :
    Breaches r (.test t) "get_config reply without config"
  | noSettings {t : SessionToken} {record : Record} (hs : r.client.settings = none) :
    Breaches r (.report t record) "no test settings to report against"

/-- A failure of the transport, in an exchange or in the measurements of a test. -/
inductive Passes (r : Remote) : Call → Failure → Prop
  | exchange {c : Call} {q : Request} {f : Failure} (hq : r.request? c = some q)
    (hf : r.Fails q f) (ht : f.isTransport = true) : Passes r c f
  | measurement {t : SessionToken} {reply : Response} {rest : Connection} {n : Network}
    {s : Settings} {f : Failure} (ha : r.Accepts (.getConfig t) reply rest n)
    (hs : reply.settings = some s)
    (hp : (Probe.run s r.client.probe none n).1 = some (.error f)) : Passes r (.test t) f

variable {r : Remote} {c : Call} {q : Request}

theorem Fails.transport_or_closed {f : Failure} (h : r.Fails q f) :
    f.isTransport = true ∨ ∃ conn rest n, r.Asks q conn n ∧ conn.readLine = .line [] rest ∧
      f = closedByServer := by
  cases h with
  | ended ha hr => exact .inr ⟨_, _, _, ha, hr, rfl⟩
  | _ => exact .inl rfl

theorem serve_of_accepts {reply : Response} {rest : Connection} {n : Network}
    (hq : r.request? c = some q) (h : r.Accepts q reply rest n) :
    r.serve none c = conclude none c reply (r.leave (some rest) n) := by
  obtain ⟨bytes, line, hh, hd, ha⟩ := h
  rw [serve_of_hears hq hh]
  simp only [Response.ofLine, hd, ha]
  rfl

theorem serve_of_refuses {reason : String} (h : r.Refuses c reason) :
    ∃ r', r.serve none c = (.ended (.error (.refused reason)), r') := by
  cases h with
  | refused hq h hd hr =>
    rw [serve_of_hears hq h]
    simp only [Response.ofLine, hd, hr]
    exact ⟨_, rfl⟩

theorem serve_of_breaches {reason : String} (h : r.Breaches c reason) :
    ∃ r', r.serve none c = (.ended (.error (.protocol reason)), r') := by
  cases h with
  | closed hq ha hr =>
    obtain ⟨n, he⟩ := serve_of_fails hq (.ended ha hr)
    exact ⟨_, he⟩
  | malformed hq h hd =>
    rw [serve_of_hears hq h]
    simp only [Response.ofLine, hd]
    exact ⟨_, rfl⟩
  | noSession ha hs =>
    rw [serve_of_accepts rfl ha]
    simp only [conclude, hs]
    exact ⟨_, rfl⟩
  | noConfig ha hs =>
    rw [serve_of_accepts rfl ha]
    simp only [conclude, hs]
    exact ⟨_, rfl⟩
  | noSettings hs =>
    simp only [serve, report, hs]
    exact ⟨_, rfl⟩

theorem serve_of_passes {f : Failure} (h : r.Passes c f) :
    ∃ r', r.serve none c = (.ended (.error f), r') := by
  cases h with
  | exchange hq hf =>
    obtain ⟨n, he⟩ := serve_of_fails hq hf
    exact ⟨_, he⟩
  | @measurement t reply rest n s f ha hs hp =>
    rw [serve_of_accepts rfl ha]
    simp only [conclude, hs, leave_network, leave_probe]
    generalize Probe.run s r.client.probe none n = p at hp
    obtain ⟨_, n'⟩ := p
    obtain rfl := hp
    exact ⟨_, rfl⟩

/-- A call that the server has agreed to, and that fails all the same. -/
theorem exists_of_conclude_error {reply : Response} {rest : Connection} {n : Network} {f : Failure}
    (hq : r.request? c = some q) (ha : r.Accepts q reply rest n)
    (h : (conclude none c reply (r.leave (some rest) n)).1 = .ended (.error f)) :
    (∃ reason, f = .protocol reason ∧ r.Breaches c reason) ∨
      (f.isTransport = true ∧ r.Passes c f) := by
  cases c with
  | disconnect => cases hq
  | login credentials =>
    obtain rfl := Option.some.inj hq
    cases hs : reply.session with
    | some t =>
      simp only [conclude, hs] at h
      cases h
    | none =>
      simp only [conclude, hs] at h
      obtain rfl := Except.error.inj (Outcome.ended.inj h)
      exact .inl ⟨_, rfl, .noSession ha hs⟩
  | test t =>
    obtain rfl := Option.some.inj hq
    cases hs : reply.settings with
    | none =>
      simp only [conclude, hs] at h
      obtain rfl := Except.error.inj (Outcome.ended.inj h)
      exact .inl ⟨_, rfl, .noConfig ha hs⟩
    | some s =>
      obtain ⟨result, n', hp, hf⟩ := Probe.over_run s r.client.probe n
      simp only [conclude, hs, leave_network, leave_probe, hp] at h
      cases result with
      | error g =>
        obtain rfl := Except.error.inj (Outcome.ended.inj h)
        exact .inr ⟨hf g rfl, .measurement ha hs (by rw [hp])⟩
      | ok m => cases h
  | report t record =>
    obtain ⟨s, hs, -⟩ := Option.map_eq_some_iff.1 hq
    simp only [conclude, leave_settings, hs] at h
    cases h

/-- What a call fails with is a refusal, a breach of the protocol, or passed on. -/
theorem exists_of_serve_error {f : Failure} (h : (r.serve none c).1 = .ended (.error f)) :
    (∃ reason, f = .refused reason ∧ r.Refuses c reason) ∨
      (∃ reason, f = .protocol reason ∧ r.Breaches c reason) ∨
      (f.isTransport = true ∧ r.Passes c f) := by
  cases hq : r.request? c with
  | none =>
    cases c with
    | login _ => cases hq
    | test _ => cases hq
    | disconnect => cases h
    | report t record =>
      have hs : r.client.settings = none := by simpa [request?] using hq
      simp only [serve, report, hs] at h
      obtain rfl := Except.error.inj (Outcome.ended.inj h)
      exact .inr (.inl ⟨_, rfl, .noSettings hs⟩)
  | some q =>
    rcases r.hears_or_fails q with ⟨bytes, line, rest, n, hh⟩ | ⟨g, hf⟩
    · cases hd : Json.decode Response.decoder line with
      | error m =>
        rw [serve_of_hears hq hh] at h
        simp only [Response.ofLine, hd] at h
        obtain rfl := Except.error.inj (Outcome.ended.inj h)
        exact .inr (.inl ⟨_, rfl, .malformed hq hh hd⟩)
      | ok reply =>
        cases hr : reply.accepted with
        | false =>
          rw [serve_of_hears hq hh] at h
          simp only [Response.ofLine, hd, hr] at h
          obtain rfl := Except.error.inj (Outcome.ended.inj h)
          exact .inl ⟨_, rfl, .refused hq hh hd hr⟩
        | true =>
          have ha : r.Accepts q reply rest n := ⟨bytes, line, hh, hd, hr⟩
          rw [serve_of_accepts hq ha] at h
          exact .inr (exists_of_conclude_error hq ha h)
    · obtain ⟨n, he⟩ := serve_of_fails hq hf
      rw [he] at h
      obtain rfl := Except.error.inj (Outcome.ended.inj h)
      rcases hf.transport_or_closed with ht | ⟨conn, rest, n, ha, hr, rfl⟩
      · exact .inr (.inr ⟨ht, .exchange hq hf ht⟩)
      · exact .inr (.inl ⟨_, rfl, .closed hq ha hr⟩)

theorem conclude_connection (limit : Option Span) (c : Call) (reply : Response) (r : Remote) :
    (conclude limit c reply r).2.client.connection = r.client.connection := by
  cases c with
  | login credentials => cases hs : reply.session <;> simp only [conclude, hs]
  | test t =>
    cases hs : reply.settings with
    | none => simp only [conclude, hs]
    | some s =>
      simp only [conclude, hs]
      generalize Probe.run s r.client.probe limit r.network = p
      obtain ⟨_ | (f | m), n⟩ := p <;> rfl
  | report t record => cases hs : r.client.settings <;> simp only [conclude, hs]
  | disconnect => rfl

/-- A call that makes a request keeps the connection exactly if a line was heard. -/
theorem connection_serve (hq : r.request? c = some q) :
    (r.serve none c).2.client.connection.isSome = true ↔
      ∃ bytes line rest n, r.Hears q bytes line rest n := by
  constructor
  · intro hc
    rcases r.hears_or_fails q with hh | ⟨f, hf⟩
    · exact hh
    · obtain ⟨n, he⟩ := serve_of_fails hq hf
      rw [he] at hc
      cases hc
  · rintro ⟨bytes, line, rest, n, hh⟩
    rw [serve_of_hears hq hh]
    cases Response.ofLine q line with
    | ok reply =>
      dsimp only
      rw [conclude_connection]
      rfl
    | error f => rfl

/-- What a call that the server has agreed to ends with, and the settings that it leaves: those of
the response if a test was made, and the old ones otherwise. -/
theorem ended_conclude {reply : Response} {rest : Connection} {n : Network}
    (hq : r.request? c = some q) :
    ∃ result r', conclude none c reply (r.leave (some rest) n) = (.ended result, r') ∧
      (∀ record, result = .ok (.record record) → ∃ t s, c = .test t ∧
        reply.settings = some s ∧ r'.client.settings = some s) ∧
      ((∀ record, result ≠ .ok (.record record)) → r'.client.settings = r.client.settings) := by
  cases c with
  | disconnect => cases hq
  | login credentials =>
    cases hs : reply.session with
    | none =>
      simp only [conclude, hs]
      exact ⟨_, _, rfl, fun _ h => (by cases h), fun _ => rfl⟩
    | some token =>
      simp only [conclude, hs]
      exact ⟨_, _, rfl, fun _ h => (by cases h), fun _ => rfl⟩
  | test t =>
    cases hs : reply.settings with
    | none =>
      simp only [conclude, hs]
      exact ⟨_, _, rfl, fun _ h => (by cases h), fun _ => rfl⟩
    | some s =>
      obtain ⟨result, n', hp, -⟩ := Probe.over_run s r.client.probe n
      simp only [conclude, hs, leave_network, leave_probe, hp]
      cases result with
      | error f => exact ⟨_, _, rfl, fun _ h => (by cases h), fun _ => rfl⟩
      | ok m => exact ⟨_, _, rfl, fun _ _ => ⟨t, s, rfl, rfl, rfl⟩, fun h => absurd rfl (h _)⟩
  | report t record =>
    obtain ⟨s, hs, -⟩ := Option.map_eq_some_iff.1 hq
    simp only [conclude, leave_settings, hs]
    exact ⟨_, _, rfl, fun _ h => (by cases h), fun _ => hs⟩

/-- A call comes to an end, and leaves the settings of the test that it has made, if it has. -/
theorem ended_serve (r : Remote) (c : Call) :
    ∃ result r', r.serve none c = (.ended result, r') ∧
      (∀ record, result = .ok (.record record) → ∃ t reply rest n s, c = .test t ∧
        r.Accepts (.getConfig t) reply rest n ∧ reply.settings = some s ∧
        r'.client.settings = some s) ∧
      ((∀ record, result ≠ .ok (.record record)) → r'.client.settings = r.client.settings) := by
  cases hq : r.request? c with
  | none =>
    cases c with
    | login _ => cases hq
    | test _ => cases hq
    | disconnect => exact ⟨_, _, rfl, fun _ h => (by cases h), fun _ => rfl⟩
    | report t record =>
      have hs : r.client.settings = none := by simpa [request?] using hq
      simp only [serve, report, hs]
      exact ⟨_, _, rfl, fun _ h => (by cases h), fun _ => hs⟩
  | some q =>
    rcases r.hears_or_fails q with ⟨bytes, line, rest, n, hh⟩ | ⟨g, hf⟩
    · have he := serve_of_hears hq hh none
      cases ho : Response.ofLine q line with
      | error f =>
        rw [ho] at he
        exact ⟨_, _, he, fun _ h => (by cases h), fun _ => rfl⟩
      | ok reply =>
        rw [ho] at he
        obtain ⟨hd, ha⟩ := Response.ofLine_eq_ok_iff.1 ho
        obtain ⟨result, r', hc, hmade, hkept⟩ := @ended_conclude _ _ _ reply rest n hq
        refine ⟨result, r', he.trans hc, fun record h => ?_, hkept⟩
        obtain ⟨t, s, rfl, hs, hset⟩ := hmade record h
        obtain rfl := Option.some.inj hq
        exact ⟨t, reply, rest, n, s, rfl, ⟨bytes, line, hh, hd, ha⟩, hs, hset⟩
    · obtain ⟨n, he⟩ := serve_of_fails hq hf
      exact ⟨_, _, he, fun _ h => (by cases h), fun _ => rfl⟩

theorem serve_refused_iff (r : Remote) (c : Call) (reason : String) :
    (∃ r', r.serve none c = (.ended (.error (.refused reason)), r')) ↔ r.Refuses c reason := by
  refine ⟨?_, serve_of_refuses⟩
  rintro ⟨r', he⟩
  rcases exists_of_serve_error (congrArg Prod.fst he) with ⟨_, hf, h⟩ | ⟨_, hf, -⟩ | ⟨hf, -⟩
  · obtain rfl := Failure.refused.inj hf
    exact h
  · cases hf
  · cases hf

theorem serve_protocol_iff (r : Remote) (c : Call) (reason : String) :
    (∃ r', r.serve none c = (.ended (.error (.protocol reason)), r')) ↔ r.Breaches c reason := by
  refine ⟨?_, serve_of_breaches⟩
  rintro ⟨r', he⟩
  rcases exists_of_serve_error (congrArg Prod.fst he) with ⟨_, hf, -⟩ | ⟨_, hf, h⟩ | ⟨hf, -⟩
  · cases hf
  · obtain rfl := Failure.protocol.inj hf
    exact h
  · cases hf

theorem serve_transport_iff (r : Remote) (c : Call) {f : Failure} (hf : f.isTransport = true) :
    (∃ r', r.serve none c = (.ended (.error f), r')) ↔ r.Passes c f := by
  refine ⟨?_, serve_of_passes⟩
  rintro ⟨r', he⟩
  rcases exists_of_serve_error (congrArg Prod.fst he) with ⟨_, rfl, -⟩ | ⟨_, rfl, -⟩ | ⟨-, h⟩
  · cases hf
  · cases hf
  · exact h

/-- How a call ends, what it does about the connection, and which settings are left. -/
structure Lawful (r : Remote) (c : Call) (result : Except Failure Yield) (r' : Remote) : Prop where
  /-- The exchange begins connections exactly if none is held, and then by one attempt. -/
  opened : ∀ q, r.request? c = some q → (r.exchange none q).2.network.attempts =
    if r.client.connection.isSome then r.network.attempts
    else (r.network.dialText r.client.address).2.attempts
  /-- Afterwards a connection is held exactly if a line was heard. -/
  kept : ∀ q, r.request? c = some q → (r'.client.connection.isSome = true ↔
    ∃ bytes line rest n, r.Hears q bytes line rest n)
  parted : c = .disconnect → r'.client.connection = none
  /-- An upload without settings touches nothing. -/
  idle : r.request? c = none → c ≠ .disconnect → r' = r
  refused : ∀ reason, result = .error (.refused reason) ↔ r.Refuses c reason
  breached : ∀ reason, result = .error (.protocol reason) ↔ r.Breaches c reason
  passed : ∀ f, f.isTransport = true → (result = .error f ↔ r.Passes c f)
  classified : ∀ f, result = .error f →
    (∃ reason, f = .refused reason) ∨ (∃ reason, f = .protocol reason) ∨ f.isTransport = true
  learned : ∀ record, result = .ok (.record record) → ∃ t reply rest n s, c = .test t ∧
    r.Accepts (.getConfig t) reply rest n ∧ reply.settings = some s ∧ r'.client.settings = some s
  remembered : (∀ record, result ≠ .ok (.record record)) → r'.client.settings = r.client.settings

theorem lawful_serve {result : Except Failure Yield} {r' : Remote}
    (h : r.serve none c = (.ended result, r')) : r.Lawful c result r' := by
  have hends : ∀ f : Failure, result = .error f ↔
      ∃ r'', r.serve none c = (.ended (.error f), r'') := by
    intro f
    constructor
    · rintro rfl
      exact ⟨r', h⟩
    · rintro ⟨r'', he⟩
      exact Outcome.ended.inj (congrArg Prod.fst (h.symm.trans he))
  obtain ⟨result', r'', he, hmade, hkept⟩ := r.ended_serve c
  obtain ⟨rfl, rfl⟩ : result = result' ∧ r' = r'' := by
    simpa using h.symm.trans he
  constructor
  case opened => exact fun q _ => attempts_exchange none q r
  case kept =>
    intro q hq
    rw [← connection_serve hq, h]
  case parted =>
    rintro rfl
    exact congrArg (fun p => p.2.client.connection) h.symm
  case idle =>
    intro hq hc
    cases c with
    | login _ => cases hq
    | test _ => cases hq
    | disconnect => exact absurd rfl hc
    | report t record =>
      have hs : r.client.settings = none := by simpa [request?] using hq
      simp only [serve, report, hs] at h
      exact (congrArg Prod.snd h).symm
  case refused => exact fun reason => (hends _).trans (serve_refused_iff r c reason)
  case breached => exact fun reason => (hends _).trans (serve_protocol_iff r c reason)
  case passed => exact fun f hf => (hends f).trans (serve_transport_iff r c hf)
  case classified =>
    intro f hf
    obtain ⟨r'', he⟩ := (hends f).1 hf
    rcases exists_of_serve_error (congrArg Prod.fst he) with ⟨reason, h, -⟩ | ⟨reason, h, -⟩ | ⟨h, -⟩
    · exact .inl ⟨reason, h⟩
    · exact .inr (.inl ⟨reason, h⟩)
    · exact .inr (.inr h)
  case learned => exact hmade
  case remembered => exact hkept

/-- Each call of a sequence comes to an end by these rules, whatever came before it. -/
theorem lawful_calls (r : Remote) (before : List Call) (c : Call) :
    ∃ result r', (r.run none before).serve none c = (.ended result, r') ∧
      r.run none (before ++ [c]) = r' ∧ (r.run none before).Lawful c result r' := by
  obtain ⟨result, r', he, -, -⟩ := (r.run none before).ended_serve c
  refine ⟨result, r', he, ?_, lawful_serve he⟩
  rw [run, List.foldl_append]
  exact congrArg Prod.snd he

end Remote
end LinkTest
