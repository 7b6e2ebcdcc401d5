import LinkTest.Proofs.Client.Exchange
import LinkTest.Proofs.Worker.Taking

/-!
# What a worker asks of a test server

A worker that owns a client sends one request at most when it takes a message. A test that succeeds
leaves the settings of its own response, and an upload goes under the settings that are there.
-/

namespace LinkTest

/-! ## Calls of a client -/

namespace Remote

open Network

/-- Whether a call that makes this request is given up after it was sent and before the response
was read. -/
def isTorn (limit : Option Span) (q : Request) (r : Remote) : Bool :=
  match r.exchange limit q with
  | (.overdue, r) => r.client.connection.isSome
  | _ => false

theorem Exchanged.inStep_of_whole {r : Remote} {limit : Option Span} {q : Request}
    (h : r.Exchanged q (r.exchange limit q).1 (r.exchange limit q).2)
    (hw : r.isTorn limit q = false) : (r.exchange limit q).2.InStep := by
  refine h.inStep fun ho => ?_
  unfold isTorn at hw
  generalize r.exchange limit q = p at ho hw
  obtain ⟨outcome, r'⟩ := p
  obtain rfl : outcome = .overdue := ho
  simpa using hw

/-- What a call that makes one request leaves. -/
structure Called (q : Request) (r r' : Remote) : Prop where
  sent : Sent q.line r.network r'.network
  inStep : r'.InStep

variable {r : Remote} {limit : Option Span}

theorem login_spec (h : r.InStep) (honce : r.network.AnswersOnce) (c : Credentials)
    (hw : r.isTorn limit (.login c) = false) :
    Called (.login c) r (r.login limit c).2 ∧
      (r.login limit c).2.client.settings = r.client.settings := by
  have he := exchanged_exchange h honce limit (.login c)
  have hs := he.inStep_of_whole hw
  unfold login
  generalize r.exchange limit (.login c) = p at he hs
  obtain ⟨outcome, r'⟩ := p
  cases outcome with
  | crashed => exact absurd rfl he.calm
  | overdue => exact ⟨⟨he.sent, hs⟩, he.settings⟩
  | ended result =>
    cases result with
    | error f => exact ⟨⟨he.sent, hs⟩, he.settings⟩
    | ok reply =>
      dsimp only [andThen]
      split <;> exact ⟨⟨he.sent, hs⟩, he.settings⟩

/-- A test that succeeds leaves the settings with which the server has answered its request. -/
theorem test_spec (h : r.InStep) (honce : r.network.AnswersOnce) (t : SessionToken)
    (hw : r.isTorn limit (.getConfig t) = false) :
    Called (.getConfig t) r (r.test limit t).2 ∧
      ∀ record, (r.test limit t).1 = .ended (.ok record) → ∃ i reply s,
        (r.test limit t).2.network.Answered i (r.network.linesOf i).length (.getConfig t) reply ∧
          reply.settings = some s ∧ (r.test limit t).2.client.settings = some s := by
  have he := exchanged_exchange h honce limit (.getConfig t)
  have hs := he.inStep_of_whole hw
  unfold test
  generalize r.exchange limit (.getConfig t) = p at he hs
  obtain ⟨outcome, r'⟩ := p
  cases outcome with
  | crashed => exact absurd rfl he.calm
  | overdue => exact ⟨⟨he.sent, hs⟩, nofun⟩
  | ended result =>
    cases result with
    | error f => exact ⟨⟨he.sent, hs⟩, nofun⟩
    | ok reply =>
      obtain ⟨i, ha⟩ := he.answered reply rfl
      dsimp only [andThen]
      split
      · exact ⟨⟨he.sent, hs⟩, nofun⟩
      · next s hreply =>
        have hl := Probe.later_run s r'.client.probe limit r'.network
        generalize Probe.run s r'.client.probe limit r'.network = p at hl
        have hlater : ∀ r'' : Remote, r''.client.connection = r'.client.connection →
            r''.network = p.2 → Sent (Request.getConfig t).line r.network r''.network ∧
              r''.InStep := by
          intro r'' hc hn
          refine ⟨hn ▸ he.sent.later hl, fun c hconn => ?_⟩
          rw [hn]
          exact (hs c (hc ▸ hconn)).later hl
        obtain ⟨_ | (f | m), n⟩ := p
        · obtain ⟨hsent, hstep⟩ := hlater { r' with network := n } rfl rfl
          exact ⟨⟨hsent, hstep⟩, nofun⟩
        · obtain ⟨hsent, hstep⟩ := hlater { r' with network := n } rfl rfl
          exact ⟨⟨hsent, hstep⟩, nofun⟩
        · obtain ⟨hsent, hstep⟩ := hlater { r' with
            network := n, client := { r'.client with settings := some s } } rfl rfl
          exact ⟨⟨hsent, hstep⟩, fun _ _ => ⟨i, reply, s, ha.later hl, hreply, rfl⟩⟩

/-- An upload goes under the settings that are there, and its receipt says so. -/
theorem report_spec (h : r.InStep) (honce : r.network.AnswersOnce) (t : SessionToken)
    (record : Record) {s : Settings} (hset : r.client.settings = some s)
    (hw : r.isTorn limit (.report t s.setId s.resultId record.metrics) = false) :
    Called (.report t s.setId s.resultId record.metrics) r (r.report limit t record).2 ∧
      (r.report limit t record).2.client.settings = r.client.settings ∧
      ∀ receipt, (r.report limit t record).1 = .ended (.ok receipt) →
        receipt = ⟨s.setId, s.resultId⟩ := by
  have he := exchanged_exchange h honce limit (.report t s.setId s.resultId record.metrics)
  have hs := he.inStep_of_whole hw
  simp only [report, hset]
  generalize r.exchange limit (.report t s.setId s.resultId record.metrics) = p at he hs
  obtain ⟨outcome, r'⟩ := p
  have hsettings := he.settings.trans hset
  cases outcome with
  | crashed => exact absurd rfl he.calm
  | overdue => exact ⟨⟨he.sent, hs⟩, hsettings, nofun⟩
  | ended result =>
    cases result with
    | error f => exact ⟨⟨he.sent, hs⟩, hsettings, nofun⟩
    | ok reply =>
      refine ⟨⟨he.sent, hs⟩, hsettings, fun receipt hr => ?_⟩
      simpa [andThen] using hr.symm

theorem report_of_no_settings (t : SessionToken) (record : Record)
    (hset : r.client.settings = none) :
    r.report limit t record =
      (.ended (.error (.protocol "no test settings to report against")), r) := by
  simp only [report, hset]

end Remote

/-! ## Steps of a worker -/

namespace Worker

section

variable {σ : Type} [Server σ]

omit [Server σ] in
@[simp] theorem crash_server (w : Worker σ) : w.crash.1.server = w.server := by
  obtain ⟨owner, h⟩ := { w with thread := Thread.crashed, queue := [] }.release_fst
  rw [crash, h]

theorem server_logIn (c : Credentials) (w : Worker σ) :
    (w.logIn c).1.server = (Server.login w.limit c w.server).2 := by
  rcases hr : (Server.login w.limit c w.server).1.result? w.limit with _ | (f | token) <;>
    simp [logIn, hr]

theorem makeTest_of_inactive (stamp : Stamp) (t : ReplyTo) {w : Worker σ}
    (h : ∀ token, w.session ≠ .active token) : (w.makeTest stamp t).1 = w := by
  unfold makeTest
  split
  · rfl
  · rfl
  · next token hs => exact absurd hs (h token)

theorem upload_of_inactive {r : Record} (t : Option ReplyTo) {w : Worker σ}
    (h : r.isValid = true → ∀ token, w.session ≠ .active token) : (w.upload r t).1 = w := by
  unfold upload
  dsimp only
  split
  · next hv =>
    split
    · next token hs => exact absurd hs (h hv token)
    · rfl
  · rfl

theorem server_makeTest (stamp : Stamp) (t : ReplyTo) {w : Worker σ} {token : SessionToken}
    (hs : w.session = .active token) :
    (w.makeTest stamp t).1.server = (Server.test w.limit token w.server).2 := by
  rcases hr : (Server.test w.limit token w.server).1.result? w.limit with _ | (f | r) <;>
    simp [makeTest, hs, hr]

theorem server_upload {r : Record} (t : Option ReplyTo) {w : Worker σ} {token : SessionToken}
    (hv : r.isValid = true) (hs : w.session = .active token) :
    (w.upload r t).1.server = (Server.report w.limit token r w.server).2 := by
  rcases hr : (Server.report w.limit token r w.server).1.result? w.limit with _ | (f | receipt) <;>
    simp [upload, hv, hs, hr]

end

/-- The request that a worker sends when it takes its oldest message. -/
def request? (w : Worker Remote) : Option Request :=
  if w.isOpen then
    match w.queue, w.session with
    | .login c :: _, _ => some (.login (c.getD w.credentials))
    | .requestTest _ :: _, .active token => some (.getConfig token)
    | .report r _ :: _, .active token =>
      if r.isValid then
        w.server.client.settings.map fun s => .report token s.setId s.resultId r.metrics
      else none
    | _, _ => none
  else none

/-- An upload goes under the numbers that are there. -/
theorem exists_of_request?_report {w : Worker Remote} {token : SessionToken} {setId resultId : Int}
    {metrics : Metrics} (h : w.request? = some (.report token setId resultId metrics)) :
    ∃ r t rest s, w.queue = .report r t :: rest ∧ w.server.client.settings = some s ∧
      setId = s.setId ∧ resultId = s.resultId ∧ metrics = r.metrics := by
  unfold request? at h
  split at h
  · split at h
    · cases h
    · cases h
    · next r t rest token' hq hs =>
      split at h
      · obtain ⟨s, hset, he⟩ := Option.map_eq_some_iff.1 h
        obtain ⟨-, rfl, rfl, rfl⟩ := Request.report.inj he
        exact ⟨r, t, rest, s, hq, hset, rfl, rfl, rfl⟩
      · cases h
    · cases h
  · cases h

/-- Whether the call that a worker makes when it takes its oldest message is given up between its
request and the response. -/
def isTorn (w : Worker Remote) : Bool :=
  w.request?.any fun q => w.server.isTorn (w.server.limitOf w.limit) q

theorem whole_of_request? {w : Worker Remote} (hw : w.isTorn = false) {q : Request}
    (hq : w.request? = some q) : w.server.isTorn (w.server.limitOf w.limit) q = false := by
  simpa [isTorn, hq] using hw

/-- The client is in step, and its server answers each request with one line at most. -/
structure Paced (w : Worker Remote) : Prop where
  inStep : w.server.InStep
  once : w.server.network.AnswersOnce

/-- What a step of a worker does to its client. -/
structure Asking (w w' : Worker Remote) : Prop where
  paced : w'.Paced
  /-- All that reaches the server is the request of this step. -/
  lines : ∀ i, ∃ sent, w'.server.network.linesOf i = w.server.network.linesOf i ++ sent ∧
    ∀ line ∈ sent, ∃ q, w.request? = some q ∧ line = q.line
  settings : (∀ t rest, w.queue ≠ .requestTest t :: rest) →
    w'.server.client.settings = w.server.client.settings

theorem Asking.of_server {w w' : Worker Remote} (h : w.Paced) (hs : w'.server = w.server) :
    Asking w w' where
  paced := ⟨hs ▸ h.inStep, hs ▸ h.once⟩
  lines i := ⟨[], by rw [hs, List.append_nil], by simp⟩
  settings _ := by rw [hs]

theorem Asking.of_called {q : Request} {w w' : Worker Remote} (h : w.Paced)
    (hq : w.request? = some q) (hc : Remote.Called q w.server w'.server)
    (hs : (∀ t rest, w.queue ≠ .requestTest t :: rest) →
      w'.server.client.settings = w.server.client.settings) : Asking w w' where
  paced := ⟨hc.inStep, h.once.of_plans hc.sent.plans⟩
  lines i := by
    obtain ⟨place, hl⟩ := hc.sent.lines
    refine ⟨_, hl i, fun line hline => ⟨q, hq, ?_⟩⟩
    split at hline
    · exact List.mem_singleton.1 hline
    · cases hline
  settings := hs

section

variable (stamps : Nat → Stamp) {w : Worker Remote} {rest : List Message}

theorem asking_login {c : Option Credentials} (h : w.Paced) (hw : w.isTorn = false)
    (ho : w.isOpen = true) (hq : w.queue = .login c :: rest) :
    Asking w ({ w with queue := rest }.handle stamps (.login c)).1 := by
  have hreq : w.request? = some (.login (c.getD w.credentials)) := by simp [request?, ho, hq]
  have hserver := server_logIn (c.getD w.credentials) { w with queue := rest }
  obtain ⟨hcalled, hset⟩ := Remote.login_spec h.inStep h.once _ (whole_of_request? hw hreq)
  exact .of_called h hreq (hserver ▸ hcalled) fun _ => hserver ▸ hset

theorem asking_requestTest {t : ReplyTo} (h : w.Paced) (hw : w.isTorn = false)
    (ho : w.isOpen = true) (hq : w.queue = .requestTest t :: rest) :
    Asking w ({ w with queue := rest }.handle stamps (.requestTest t)).1 := by
  by_cases hs : ∃ token, w.session = .active token
  · obtain ⟨token, hs⟩ := hs
    have hreq : w.request? = some (.getConfig token) := by simp [request?, ho, hq, hs]
    have hserver := server_makeTest (stamps 0) t (w := { w with queue := rest }) hs
    obtain ⟨hcalled, -⟩ := Remote.test_spec h.inStep h.once token (whole_of_request? hw hreq)
    exact .of_called h hreq (hserver ▸ hcalled) fun hn => absurd hq (hn t rest)
  · rw [handle, makeTest_of_inactive (stamps 0) t (w := { w with queue := rest })
      fun token ht => hs ⟨token, ht⟩]
    exact .of_server h rfl

theorem asking_report {r : Record} {t : Option ReplyTo} (h : w.Paced) (hw : w.isTorn = false)
    (ho : w.isOpen = true) (hq : w.queue = .report r t :: rest) :
    Asking w ({ w with queue := rest }.handle stamps (.report r t)).1 := by
  by_cases hs : r.isValid = true ∧ ∃ token, w.session = .active token
  · obtain ⟨hv, token, hs⟩ := hs
    have hserver := server_upload t (w := { w with queue := rest }) hv hs
    cases hset : w.server.client.settings with
    | none =>
      have hreport : Server.report w.limit token r w.server =
          (.ended (.error (.protocol "no test settings to report against")), w.server) :=
        Remote.report_of_no_settings token r hset
      rw [hreport] at hserver
      exact .of_server h hserver
    | some s =>
      have hreq : w.request? = some (.report token s.setId s.resultId r.metrics) := by
        simp [request?, ho, hq, hs, hv, hset]
      obtain ⟨hcalled, hkept, -⟩ :=
        Remote.report_spec h.inStep h.once token r hset (whole_of_request? hw hreq)
      exact .of_called h hreq (hserver ▸ hcalled) fun _ => hserver ▸ hkept
  · rw [handle, upload_of_inactive t (w := { w with queue := rest })
      fun hv token ht => hs ⟨hv, token, ht⟩]
    exact .of_server h rfl

theorem asking_quit (h : w.Paced) :
    Asking w ({ w with queue := rest }.handle stamps .quit).1 := by
  obtain ⟨⟨owner, hf⟩, -⟩ := finish_spec stamps { w with queue := rest }
  rw [handle, hf]
  exact {
    paced := ⟨fun _ hc => (by cases hc), h.once⟩
    lines := fun i => ⟨[], (List.append_nil _).symm, by simp⟩
    settings := fun _ => rfl }

/-- A step that is not cut short between a request and its response. -/
theorem asking_step (h : w.Paced) (hw : w.isTorn = false) : Asking w (w.step stamps).1 := by
  cases ho : w.isOpen with
  | false =>
    rw [w.step_of_closed stamps ho]
    exact .of_server h rfl
  | true =>
    cases hq : w.queue with
    | nil =>
      rw [w.step_of_empty stamps hq]
      exact .of_server h rfl
    | cons m rest =>
      rw [step_fst stamps ho hq]
      cases m with
      | login c => exact asking_login stamps h hw ho hq
      | requestTest t => exact asking_requestTest stamps h hw ho hq
      | report r t => exact asking_report stamps h hw ho hq
      | quit => exact asking_quit stamps h

/-- The test of a run that has succeeded leaves the settings with which the server has answered the
request of this test. -/
theorem settings_of_test? {run : RunId} {r : Record} (h : w.Paced) (hw : w.isTorn = false)
    (ht : w.test? = some (run, .ended (.ok r))) : ∃ token i reply s,
      w.session = .active token ∧
      (w.step stamps).1.server.network.Answered i (w.server.network.linesOf i).length
        (.getConfig token) reply ∧
      reply.settings = some s ∧ (w.step stamps).1.server.client.settings = some s := by
  obtain ⟨rest, token, ho, hq, hs, hend⟩ := exists_of_test? ht
  have hreq : w.request? = some (.getConfig token) := by simp [request?, ho, hq, hs]
  obtain ⟨-, hset⟩ := Remote.test_spec h.inStep h.once token (whole_of_request? hw hreq)
  obtain ⟨i, reply, s, ha, hr, hset⟩ := hset r hend.symm
  have hserver := server_makeTest (stamps 0) (.run run) (w := { w with queue := rest }) hs
  rw [step_fst stamps ho hq]
  exact ⟨token, i, reply, s, hs, hserver ▸ ha, hr, hserver ▸ hset⟩

end

end Worker
end LinkTest
