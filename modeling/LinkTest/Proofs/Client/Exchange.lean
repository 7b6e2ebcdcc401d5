import LinkTest.Client.Basic
import LinkTest.Proofs.Client.Dialling

/-!
# One exchange

With a server that answers each request with one line at most, a connection that is kept after an
exchange is in step again, unless the call was given up between the request and its response. So
the response to a request is what the server has made of that request, and of no other.
-/

namespace LinkTest

/-! ## Zeros are no response -/

theorem Text.exists_cons_of_ofUtf8 {bytes : List UInt8} {s : String}
    (h : Text.ofUtf8 (0 :: bytes) = .ok s) : ∃ cs, s.toList = '\x00' :: cs := by
  unfold Text.ofUtf8 at h
  split at h
  · next t ht =>
    obtain rfl : t = s := Except.ok.inj h
    unfold String.fromUTF8? at ht
    split at ht
    · next hv =>
      obtain rfl := Option.some.inj ht
      have hb : ['\x00'].utf8Encode ++ ⟨bytes.toArray⟩ =
          (String.fromUTF8 ⟨(0 :: bytes).toArray⟩ hv).toList.utf8Encode := by
        rw [String.utf8Encode_toList]
        rfl
      obtain ⟨cs, hcs⟩ := List.isPrefix_of_utf8Encode_append_eq_utf8Encode _ hb
      exact ⟨cs, hcs.symm⟩
    · cases ht
  · cases h

theorem Response.ofLine_of_nul (q : Request) {line : String} {cs : List Char}
    (h : line.toList = '\x00' :: cs) (reply : Response) : Response.ofLine q line ≠ .ok reply := by
  have hv : ∀ fuel, Json.value (fuel + 1) ('\x00' :: cs) =
      (.damaged .noValue (some .noValue), none) := fun _ => rfl
  have hread : Json.read line = ⟨.damaged .noValue (some .noValue), false⟩ := by
    simp only [Json.read, h]
    rw [hv]
  have hd : Json.decode Response.decoder line = .error (.fault .noValue) := by
    simp only [Json.decode, hread]
    rfl
  simp only [Response.ofLine, hd]
  exact nofun

/-! ## Requests on connections -/

/-- If no byte follows the end of a line, all that has come is read. -/
theorem Connection.readLine_of_once {c rest : Connection} {bytes : List UInt8}
    (h : newlineByte ∉ c.incoming.dropLast) (hr : c.readLine = .line bytes rest) :
    bytes = c.incoming ∧ rest = { c with incoming := [] } := by
  have hsplit := List.takeWhile_append_dropWhile (p := (· ≠ newlineByte)) (l := c.incoming)
  unfold Connection.readLine at hr
  dsimp only at hr
  split at hr
  · next b r hd =>
    obtain ⟨rfl, rfl⟩ := LineRead.line.inj hr
    have hb : b = newlineByte := by
      have hhead := List.head?_dropWhile_not (fun x => decide (x ≠ newlineByte)) c.incoming
      rw [hd] at hhead
      simpa using hhead
    rw [hd] at hsplit
    have hnil : r = [] := by
      cases r with
      | nil => rfl
      | cons a r =>
        refine absurd ?_ h
        rw [← hsplit, List.dropLast_append_of_ne_nil (List.cons_ne_nil _ _), List.mem_append, hb]
        exact .inr (by simp)
    rw [hnil] at hsplit ⊢
    exact ⟨hsplit, rfl⟩
  · next hd =>
    rw [hd, List.append_nil] at hsplit
    split at hr
    · cases hr
    · obtain ⟨rfl, rfl⟩ := LineRead.line.inj hr
      exact ⟨hsplit, rfl⟩
    · cases hr

namespace Network

/-- The server answers each request with one line at most: no byte follows the end of a line. -/
def AnswersOnce (n : Network) : Prop :=
  ∀ p ∈ n.serverPlans, ∀ t ∈ p.turns, Connection.newlineByte ∉ t.bytes.dropLast

instance (n : Network) : Decidable n.AnswersOnce :=
  inferInstanceAs (Decidable (∀ p ∈ n.serverPlans, ∀ t ∈ p.turns,
    Connection.newlineByte ∉ t.bytes.dropLast))

theorem AnswersOnce.of_plans {n n' : Network} (h : n.AnswersOnce)
    (hp : n'.serverPlans = n.serverPlans) : n'.AnswersOnce := by
  rw [AnswersOnce, hp]
  exact h

theorem AnswersOnce.of_mem {n : Network} (h : n.AnswersOnce) {i : Nat} {t : Turn}
    (ht : t ∈ n.turnsOf i) : Connection.newlineByte ∉ t.bytes.dropLast := by
  unfold turnsOf at ht
  cases hp : n.serverPlans[i]? with
  | none => simp [hp] at ht
  | some p =>
    rw [hp] at ht
    exact h p (List.mem_of_getElem? hp) t ht

/-- The `j`-th request on the connection `i` was this one, and this is the response that the server
has given to it. -/
def Answered (n : Network) (i j : Nat) (q : Request) (reply : Response) : Prop :=
  (n.linesOf i)[j]? = some q.line ∧ ∃ t line, (n.turnsOf i)[j]? = some t ∧
    Text.ofUtf8 t.bytes = .ok line ∧ Response.ofLine q line = .ok reply

theorem Answered.later {n n' : Network} {i j : Nat} {q : Request} {reply : Response}
    (h : n.Answered i j q reply) (hn : n.Later n') : n'.Answered i j q reply := by
  rw [Answered, hn.lines, hn.turns]
  exact h

theorem eq_of_send_error {n n' : Network} {c : Connection} {line : String} {f : IoFault}
    (h : n.send line c = (.error f, n')) : n = n' := by
  unfold send at h
  split at h
  · exact (Prod.mk.inj h).2
  · split at h
    · dsimp only at h
      split at h <;> cases h
    · cases h

/-- All that has reached the server is perhaps this one line. -/
structure Sent (line : String) (n n' : Network) : Prop where
  plans : n'.serverPlans = n.serverPlans
  lines : ∃ place : Option Nat, ∀ i,
    n'.linesOf i = n.linesOf i ++ if place = some i then [line] else []

theorem Later.sent {n n' : Network} (h : n.Later n') (line : String) : Sent line n n' :=
  ⟨h.plans, none, fun i => by simp [h.lines i]⟩

theorem Sent.later {n n' n'' : Network} {line : String} (h : Sent line n n')
    (hn : n'.Later n'') : Sent line n n'' := by
  obtain ⟨place, hl⟩ := h.lines
  exact ⟨hn.plans.trans h.plans, place, fun i => (hn.lines i).trans (hl i)⟩

theorem Later.sent_trans {n n' n'' : Network} {line : String} (hn : n.Later n')
    (h : Sent line n' n'') : Sent line n n'' := by
  obtain ⟨place, hl⟩ := h.lines
  exact ⟨h.plans.trans hn.plans, place, fun i => by rw [hl i, hn.lines i]⟩

/-- What a request that was sent leaves, and what a line is that is read then: it consists of zeros,
or it is what the server does about this request. -/
structure Asked (line : String) (n : Network) (c : Connection) (n' : Network) : Prop where
  sent : Sent line n n'
  read : ∀ bytes rest, c.readLine = .line bytes rest → bytes ≠ [] → n'.InStep rest ∧
    ((∀ b ∈ bytes, b = 0) ∨ ∃ (i : Nat) (t : Turn),
      (n'.linesOf i)[(n.linesOf i).length]? = some line ∧
      (n'.turnsOf i)[(n.linesOf i).length]? = some t ∧ t.bytes = bytes)

theorem linesOf_modify (n : Network) {i : Nat} (hi : i < n.requests.length) (line : String)
    (j : Nat) : linesOf { n with requests := n.requests.modify i (· ++ [line]) } j =
      n.linesOf j ++ if some i = some j then [line] else [] := by
  simp only [linesOf, List.getElem?_modify]
  by_cases hj : i = j
  · subst hj
    simp [List.getElem?_eq_getElem hi]
  · simp [hj]

/-- A request to a stream that is over is lost, and no line that is read then is a response. -/
theorem asked_of_lost {n : Network} {c : Connection} (h : n.InStep c) (line : String) :
    Asked line n c n := by
  refine ⟨(Later.refl n).sent line, fun bytes rest hr hne => ?_⟩
  cases h with
  | server hi hlt hin ht =>
    obtain ⟨rfl, -⟩ := Connection.readLine_of_once (by simp [hin]) hr
    exact absurd hin hne
  | target hi hz =>
    have hno : Connection.newlineByte ∉ c.incoming.dropLast := fun hm => by
      have hzero := hz _ (List.dropLast_subset _ hm)
      cases hzero
    obtain ⟨rfl, rfl⟩ := Connection.readLine_of_once hno hr
    exact ⟨.target hi nofun, .inl hz⟩

/-- The server takes a request and has no turn left: it ends the stream. -/
theorem asked_of_end {n : Network} {c : Connection} {k : Nat} (hlt : k < n.requests.length)
    (hin : c.incoming = []) (line : String) :
    Asked line n c { n with requests := n.requests.modify k (· ++ [line]) } := by
  refine ⟨⟨rfl, some k, n.linesOf_modify hlt line⟩, fun bytes rest hr hne => ?_⟩
  obtain ⟨rfl, -⟩ := Connection.readLine_of_once (by simp [hin]) hr
  exact absurd hin hne

/-- The server takes a request and makes its next turn, of which everything is read at once. -/
theorem asked_of_turn {n : Network} {c : Connection} {k : Nat} {t : Turn} (honce : n.AnswersOnce)
    (hlt : k < n.requests.length) (hi : c.index = some k) (hin : c.incoming = t.bytes)
    (ht : t :: c.turns = (n.turnsOf k).drop (n.linesOf k).length) (line : String) :
    Asked line n c { n with requests := n.requests.modify k (· ++ [line]) } := by
  have hlines := n.linesOf_modify hlt line
  have hturn : (n.turnsOf k)[(n.linesOf k).length]? = some t := by
    rw [← List.head?_drop, ← ht]
    rfl
  have hone := honce.of_mem (List.mem_of_getElem? hturn)
  refine ⟨⟨rfl, some k, hlines⟩, fun bytes rest hr hne => ?_⟩
  obtain ⟨rfl, rfl⟩ := Connection.readLine_of_once (hin ▸ hone) hr
  refine ⟨.server hi (by simpa using hlt) rfl ?_, .inr ⟨k, t, ?_, hturn, hin.symm⟩⟩
  · rw [hlines]
    change c.turns = (n.turnsOf k).drop _
    rw [if_pos rfl, List.length_append, ← List.drop_drop, ← ht]
    rfl
  · rw [hlines, if_pos rfl]
    simp

theorem asked_send {n n' : Network} {c c' : Connection} {line : String} (h : n.InStep c)
    (honce : n.AnswersOnce) (hs : n.send line c = (.ok c', n')) : Asked line n c' n' := by
  unfold send at hs
  split at hs
  · cases hs
  · split at hs
    · next i hidx htail =>
      cases h with
      | target hi => cases hi.symm.trans hidx
      | @server k hi hlt hin ht =>
        obtain rfl : k = i := Option.some.inj (hi.symm.trans hidx)
        dsimp only at hs
        split at hs
        · obtain ⟨rfl, rfl⟩ : _ = c' ∧ _ = n' := by simpa using hs
          refine asked_of_end hlt ?_ line
          exact hin
        · next t more hturns =>
          obtain ⟨rfl, rfl⟩ : _ = c' ∧ _ = n' := by simpa using hs
          rw [hturns] at ht
          refine asked_of_turn honce hlt ?_ ?_ ht line
          · exact hi
          · simp [hin]
    · next hnone =>
      obtain ⟨rfl, rfl⟩ : c = c' ∧ n = n' := by simpa using hs
      exact asked_of_lost h line

end Network

/-! ## Exchanges -/

namespace Remote

open Network

/-- The connection that is kept is in step. -/
def InStep (r : Remote) : Prop := ∀ c, r.client.connection = some c → r.network.InStep c

/-- What is opened, or was open before. -/
structure Connected (r : Remote) (outcome : Outcome Connection) (r' : Remote) : Prop where
  settings : r'.client.settings = r.client.settings
  later : r.network.Later r'.network
  opened : ∀ c, outcome = .ended (.ok c) → r'.network.InStep c
  closed : (∀ c, outcome ≠ .ended (.ok c)) → r'.client.connection = none
  calm : outcome ≠ .crashed

theorem connected_connection {r : Remote} (h : r.InStep) (limit : Option Span) :
    r.Connected (r.connection limit).1 (r.connection limit).2 := by
  unfold connection
  split
  · next c hc =>
    refine ⟨rfl, .refl _, fun c' hc' => ?_, fun hn => absurd rfl (hn c), nofun⟩
    obtain rfl : c = c' := by simpa using hc'
    exact h c hc
  · next hnone =>
    obtain ⟨hl, hs⟩ :=
      Probe.attempted_connect r.client.address r.client.exchangeTimeout limit r.network
    generalize Probe.connect r.client.address r.client.exchangeTimeout limit r.network = p at hl hs
    obtain ⟨_ | (f | c), n⟩ := p
    · exact ⟨rfl, hl, nofun, fun _ => hnone, nofun⟩
    · exact ⟨rfl, hl, nofun, fun _ => hnone, nofun⟩
    · refine ⟨rfl, hl, fun c' hc' => ?_, fun hn => absurd rfl (hn c), nofun⟩
      obtain rfl : c = c' := by simpa using hc'
      exact hs c rfl

/-- What comes of waiting for a line: the line that is read, no line at all, or a wait that was
given up and leaves the connection as it is. -/
inductive Awaited (c : Connection) (r : Remote) : Outcome String → Remote → Prop
  | read {bytes : List UInt8} {rest : Connection} {line : String}
    (hr : c.readLine = .line bytes rest) (hne : bytes ≠ []) (hs : Text.ofUtf8 bytes = .ok line) :
    Awaited c r (.ended (.ok line)) (r.setConnection (some rest))
  | failed (f : Failure) {r' : Remote} (hl : r.network.Later r'.network)
    (hs : r'.client.settings = r.client.settings) : Awaited c r (.ended (.error f)) r'
  | torn {r' : Remote} (hl : r.network.Later r'.network)
    (hs : r'.client.settings = r.client.settings) (hc : r'.client.connection ≠ none) :
    Awaited c r .overdue r'

theorem awaited_awaitLine (limit : Option Span) (c : Connection) (r : Remote) :
    Awaited c r (r.awaitLine limit c).1 (r.awaitLine limit c).2 := by
  unfold awaitLine
  split
  · exact .failed _ (.refl _) rfl
  · next bytes rest hr =>
    split
    · exact .failed _ (.refl _) rfl
    · next he =>
      split
      · next line hs => exact .read hr (by simpa using he) hs
      · exact .failed _ (.refl _) rfl
  · have hw := r.network.later_waitUntil (r.network.timer r.client.exchangeTimeout) limit
    generalize r.network.waitUntil (r.network.timer r.client.exchangeTimeout) limit = p at hw
    obtain ⟨_ | _, n⟩ := p
    · exact .torn hw rfl nofun
    · exact .failed _ hw rfl

/-- What an exchange leaves. -/
structure Exchanged (q : Request) (r : Remote) (outcome : Outcome Response) (r' : Remote) :
    Prop where
  settings : r'.client.settings = r.client.settings
  sent : Sent q.line r.network r'.network
  /-- Unless it was given up between the request and its response. -/
  inStep : (outcome = .overdue → r'.client.connection = none) → r'.InStep
  /-- The response that is returned is the one to the request that was sent just now. -/
  answered : ∀ reply, outcome = .ended (.ok reply) →
    ∃ i, r'.network.Answered i (r.network.linesOf i).length q reply
  calm : outcome ≠ .crashed

/-- The part of an exchange for which there is a connection. -/
theorem exchanged_of_awaited {q : Request} {r r' r'' : Remote} {n : Network} {c : Connection}
    {outcome : Outcome String} (hn : r.network.Later n) (ha : Asked q.line n c r'.network)
    (hs : r'.client.settings = r.client.settings) (hw : Awaited c r' outcome r'') :
    (∀ line, outcome = .ended (.ok line) → r.Exchanged q (.ended (Response.ofLine q line)) r'') ∧
    (∀ f, outcome = .ended (.error f) →
      r.Exchanged q (.ended (.error f)) (r''.setConnection none)) ∧
    (outcome = .overdue → r.Exchanged q .overdue r'') ∧ outcome ≠ .crashed := by
  have hsent := hn.sent_trans ha.sent
  cases hw with
  | @read bytes rest line hr hne hline =>
    refine ⟨fun line' hl => ?_, (fun _ h => nomatch h), nofun, nofun⟩
    obtain rfl : line = line' := by simpa using hl
    obtain ⟨hstep, hread⟩ := ha.read bytes rest hr hne
    refine ⟨hs, hsent, fun _ c' hc' => ?_, fun reply hreply => ?_, nofun⟩
    · obtain rfl : rest = c' := Option.some.inj hc'
      exact hstep
    · rcases hread with hzero | ⟨i, t, hl, ht, rfl⟩
      · cases bytes with
        | nil => exact absurd rfl hne
        | cons b bytes =>
          obtain rfl : b = 0 := hzero b List.mem_cons_self
          obtain ⟨cs, hcs⟩ := Text.exists_cons_of_ofUtf8 hline
          exact absurd (Outcome.ended.inj hreply) (Response.ofLine_of_nul q hcs reply)
      · rw [hn.lines] at hl ht
        exact ⟨i, hl, t, line, ht, hline, Outcome.ended.inj hreply⟩
  | failed f hl hsettings =>
    refine ⟨(fun _ h => nomatch h), fun f' hf => ?_, nofun, nofun⟩
    exact ⟨hsettings.trans hs, hsent.later hl, nofun, (fun _ h => nomatch h), nofun⟩
  | torn hl hsettings hc =>
    refine ⟨(fun _ h => nomatch h), (fun _ h => nomatch h), fun _ => ?_, nofun⟩
    exact ⟨hsettings.trans hs, hsent.later hl, fun h => absurd (h rfl) hc, (fun _ h => nomatch h),
      nofun⟩

theorem exchanged_exchange {r : Remote} (h : r.InStep) (honce : r.network.AnswersOnce)
    (limit : Option Span) (q : Request) :
    r.Exchanged q (r.exchange limit q).1 (r.exchange limit q).2 := by
  have hconn := connected_connection h limit
  unfold exchange transfer
  generalize r.connection limit = p at hconn
  obtain ⟨outcome, r₁⟩ := p
  have hidle := hconn.later.sent q.line
  cases outcome with
  | crashed => exact absurd rfl hconn.calm
  | overdue =>
    have hnone := hconn.closed nofun
    exact ⟨hconn.settings, hidle, fun _ c hc => (by rw [hnone] at hc; cases hc),
      (fun _ h => nomatch h), nofun⟩
  | ended result =>
    cases result with
    | error f => exact ⟨hconn.settings, hidle, nofun, (fun _ h => nomatch h), nofun⟩
    | ok c =>
      have hstep := hconn.opened c rfl
      dsimp only
      cases hsend : r₁.network.send q.line c with
      | mk result n =>
        cases result with
        | error f =>
          obtain rfl : r₁.network = n := eq_of_send_error hsend
          exact ⟨hconn.settings, hidle, nofun, (fun _ h => nomatch h), nofun⟩
        | ok c' =>
          have hasked : Asked q.line r₁.network c'
              ({ r₁ with network := n }.setConnection (some c')).network :=
            asked_send hstep (honce.of_plans hconn.later.plans) hsend
          have hw := awaited_awaitLine limit c' ({ r₁ with network := n }.setConnection (some c'))
          obtain ⟨hread, hfailed, htorn, hcalm⟩ :=
            exchanged_of_awaited hconn.later hasked hconn.settings hw
          dsimp only
          generalize awaitLine limit c' _ = p at hread hfailed htorn hcalm
          obtain ⟨outcome, r₂⟩ := p
          cases outcome with
          | crashed => exact absurd rfl hcalm
          | overdue => exact htorn rfl
          | ended result =>
            cases result with
            | error f => exact hfailed f rfl
            | ok line => exact hread line rfl

end Remote
end LinkTest
