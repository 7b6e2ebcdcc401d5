import LinkTest.Proofs.Client.Asking
import LinkTest.Proofs.Client.Lateness
import LinkTest.Proofs.Datum.Fields

/-!
# Calls that are given up

A call may be given up at any time. While it is connecting, this leaves no connection, and once the
response was read, the connection is in order. While it waits for the response, the connection is
kept, and the answer to its request is still to come. So a line is the answer to the request of the
exchange that reads it if no exchange on the connection was given up, and the answer to an earlier
one otherwise.
-/

namespace LinkTest.Remote

open Network

/-! ## Counting the exchanges -/

/-- The count of the exchanges on the connection that is held after a call. Without a connection
there is nothing to count. -/
def tallyAfter (timeout : Option Span) (c : Call) (r : Remote) (t : Tally) : Tally :=
  match (r.serve timeout c).2.client.connection, r.request? c with
  | none, _ => ⟨0, 0⟩
  | some _, none => t
  | some _, some q =>
    if r.isTorn (timeout.map r.network.timer) q then ⟨t.heard, t.torn + 1⟩
    else ⟨t.heard + 1, t.torn⟩

/-- The count after some calls. -/
def tally (timeout : Option Span) : List Call → Remote → Tally → Tally
  | [], _, t => t
  | c :: calls, r, t => tally timeout calls (r.serve timeout c).2 (r.tallyAfter timeout c t)

variable {r r' : Remote} {q : Request} {c : Connection} {n : Network}
  {answer : Nat → Nat → List UInt8} {t : Tally} {timeout : Option Span} {call : Call}

theorem tallyAfter_of_none (h : (r.serve timeout call).2.client.connection = none) (t : Tally) :
    r.tallyAfter timeout call t = ⟨0, 0⟩ := by
  rw [tallyAfter, h]

theorem tallyAfter_of_some (h : (r.serve timeout call).2.client.connection = some c)
    (hq : r.request? call = some q) (t : Tally) :
    r.tallyAfter timeout call t =
      if r.isTorn (timeout.map r.network.timer) q then ⟨t.heard, t.torn + 1⟩
      else ⟨t.heard + 1, t.torn⟩ := by
  rw [tallyAfter, h, hq]

/-! ## What a call leaves -/

/-- The server answers in turn, and the connection that is held stands where the count says. -/
structure Counts (r : Remote) (answer : Nat → Nat → List UInt8) (t : Tally) : Prop where
  inTurn : r.network.AnswersInTurn answer
  stands : ∀ c, r.client.connection = some c →
    ∃ lines, lines.length = t.asked ∧ r.network.Stands answer t lines c
  fresh : r.client.connection = none → t = ⟨0, 0⟩

theorem counts_of_none (h : r.network.AnswersInTurn answer) (hc : r.client.connection = none) :
    r.Counts answer ⟨0, 0⟩ where
  inTurn := h
  stands _ hs := by cases hc.symm.trans hs
  fresh _ := rfl

theorem counts_of_some (h : r.network.AnswersInTurn answer) (hc : r.client.connection = some c)
    {lines : List String} (hl : lines.length = t.asked) (hs : r.network.Stands answer t lines c) :
    r.Counts answer t where
  inTurn := h
  stands c' hc' := by
    obtain rfl := Option.some.inj (hc.symm.trans hc')
    exact ⟨lines, hl, hs⟩
  fresh hn := by cases hc.symm.trans hn

theorem stands_of_uses (h : r.Counts answer t) (hu : r.Uses c n) :
    n.AnswersInTurn answer ∧
      ∃ lines, lines.length = t.asked ∧ n.Stands answer t lines c := by
  cases hu with
  | held hc => exact ⟨h.inTurn, h.stands c hc⟩
  | opened hc hd =>
    have ha := r.network.attempted_dialText r.client.address
    rw [hd] at ha
    obtain rfl := h.fresh hc
    exact ⟨h.inTurn.of_plans ha.later.plans, [], rfl, stands_of_attempted ha rfl⟩

theorem stands_of_asks (h : r.Counts answer t) (ha : r.Asks q c n) :
    n.AnswersInTurn answer ∧
      ∃ lines, lines.length = t.asked ∧ n.Stands answer t (lines ++ [q.line]) c := by
  cases ha with
  | @sent c₀ n₀ hu hs =>
    obtain ⟨hn, lines, hl, hc⟩ := stands_of_uses h hu
    have hp := plans_send n₀ q.line c₀
    rw [hs] at hp
    exact ⟨hn.of_plans hp, lines, hl, hc.send hs⟩

theorem counts_of_hears {bytes : List UInt8} {line : String} {rest : Connection}
    (h : r.Counts answer t) (hh : r.Hears q bytes line rest n) :
    (r.leave (some rest) n).Counts answer ⟨t.heard + 1, t.torn⟩ := by
  cases hh with
  | read ha hr hne _ =>
    obtain ⟨hn, lines, hl, hs⟩ := stands_of_asks h ha
    refine counts_of_some hn rfl ?_ (hs.hear hn hr hne).1
    rw [List.length_append, hl]
    exact Nat.add_right_comm _ _ _

theorem Counts.later (h : r.Counts answer t) (hl : r.network.Later r'.network)
    (hc : r'.client.connection = r.client.connection) : r'.Counts answer t where
  inTurn := h.inTurn.of_plans hl.plans
  stands c hs := by
    obtain ⟨lines, hlines, hstands⟩ := h.stands c (hc ▸ hs)
    exact ⟨lines, hlines, hstands.later hl⟩
  fresh hn := h.fresh (hc ▸ hn)

/-- A call whose request is answered by a line. -/
theorem counts_of_serve_hears {bytes : List UInt8} {line : String} {rest : Connection}
    (h : r.Counts answer t) (hq : r.request? call = some q) (hh : r.Hears q bytes line rest n) :
    (r.serve timeout call).2.Counts answer (r.tallyAfter timeout call t) := by
  have hleft := counts_of_hears h hh
  have hkept : (r.leave (some rest) n).network.Later (r.serve timeout call).2.network ∧
      (r.serve timeout call).2.client.connection = some rest := by
    rw [serve_of_hears hq hh]
    split
    · exact conclude_spec _ _ _ _
    · exact ⟨.refl _, rfl⟩
  have htorn : r.isTorn (timeout.map r.network.timer) q = false := by
    rw [isTorn, exchange_of_hears hh]
  rw [tallyAfter_of_some hkept.2 hq, if_neg (by simp [htorn])]
  exact hleft.later hkept.1 hkept.2

/-- A call that is given up. -/
theorem counts_of_givesUp (h : r.Counts answer t) (hq : r.request? call = some q)
    (hp : ((r.serve timeout call).2.network).AnswersInTurn answer) (hg : r.GivesUp q r')
    (he : r.exchange (timeout.map r.network.timer) q = (.overdue, r')) :
    (r.serve timeout call).2.Counts answer (r.tallyAfter timeout call t) := by
  have hserve : r.serve timeout call = (.overdue, r') := by rw [serve_of_request? hq, he]; rfl
  cases hg with
  | connecting hc hd hl =>
    rw [tallyAfter_of_none (by rw [hserve]; rfl)]
    exact counts_of_none hp (by rw [hserve]; rfl)
  | @waiting c n n' ha hr hl =>
    obtain ⟨hn, lines, hlines, hs⟩ := stands_of_asks h ha
    have htorn : r.isTorn (timeout.map r.network.timer) q = true := by rw [isTorn, he]; rfl
    rw [tallyAfter_of_some (by rw [hserve]; rfl) hq, if_pos htorn]
    refine counts_of_some hp (by rw [hserve]; rfl) ?_ (by rw [hserve]; exact (hs.tear hr).later hl)
    rw [List.length_append, hlines]
    rfl

theorem plans_serve (timeout : Option Span) (call : Call) (r : Remote) :
    (r.serve timeout call).2.network.serverPlans = r.network.serverPlans := by
  cases hq : r.request? call with
  | none =>
    rcases serve_of_no_request hq timeout with h | h <;> rw [h]
    rfl
  | some q =>
    have hs := (steady_exchange (timeout.map r.network.timer) q r).plans
    rw [serve_of_request? hq]
    generalize r.exchange _ _ = p at hs
    obtain ⟨(f | reply) | _ | _, r'⟩ := p
    · exact hs
    · exact (conclude_spec _ _ _ _).1.plans.trans hs
    · exact hs
    · exact hs

theorem counts_serve (h : r.Counts answer t) (timeout : Option Span) (call : Call) :
    (r.serve timeout call).2.Counts answer (r.tallyAfter timeout call t) := by
  have hp := h.inTurn.of_plans (plans_serve timeout call r)
  have hdropped : (r.serve timeout call).2.client.connection = none →
      (r.serve timeout call).2.Counts answer (r.tallyAfter timeout call t) := by
    intro hnone
    rw [tallyAfter_of_none hnone]
    exact counts_of_none hp hnone
  cases hq : r.request? call with
  | none =>
    rcases serve_of_no_request hq timeout with hs | hs
    · cases hc : r.client.connection with
      | none => exact hdropped (by rw [hs]; exact hc)
      | some c =>
        have ht : r.tallyAfter timeout call t = t := by rw [tallyAfter, hs, hc, hq]
        rw [ht, hs]
        exact h
    · exact hdropped (by rw [hs]; rfl)
  | some q =>
    rcases hears_or_fails r q with ⟨bytes, line, rest, n, hh⟩ | ⟨f, hf⟩
    · exact counts_of_serve_hears h hq hh
    · rcases fails_or_givesUp hf (timeout.map r.network.timer) with ⟨n, he⟩ | ⟨-, r', hg, he⟩
      · refine hdropped ?_
        rw [serve_of_request? hq, he]
        rfl
      · exact counts_of_givesUp h hq hp hg he

theorem counts_run (h : r.Counts answer t) (timeout : Option Span) (calls : List Call) :
    (r.run timeout calls).Counts answer (r.tally timeout calls t) := by
  induction calls generalizing r t with
  | nil => exact h
  | cons call calls ih => exact ih (counts_serve h timeout call)

/-- Calls that have no limit are not given up. -/
theorem torn_tally {t : Tally} (h : t.torn = 0) (calls : List Call) (r : Remote) :
    (r.tally none calls t).torn = 0 := by
  induction calls generalizing r t with
  | nil => exact h
  | cons call calls ih =>
    refine ih ?_ _
    unfold tallyAfter
    split
    · rfl
    · exact h
    · next q _ hq =>
      have hwhole : r.isTorn (Option.map r.network.timer none) q = false := by
        rcases hears_or_fails r q with ⟨bytes, line, rest, n, hh⟩ | ⟨f, hf⟩
        · rw [isTorn, exchange_of_hears hh]
        · obtain ⟨n, he⟩ := exchange_of_fails hf
          rw [Option.map_none, isTorn, he]
      rw [hwhole]
      exact h

/-! ## Whose answer is read -/

/-- If an exchange of this request hears a line from the test server, this is the answer to the
request, which is the latest on its connection. -/
def HearsOwn (answer : Nat → Nat → List UInt8) (q : Request) (r : Remote) : Prop :=
  ∀ bytes line rest n i, r.Hears q bytes line rest n → rest.index = some i →
    ∃ before, n.linesOf i = before ++ [q.line] ∧ bytes <+: answer i before.length

/-- After all calls that a client was asked for, and whatever limit they had, an exchange parses the
line that it hears. The line is the answer to the exchange's own request if no call on its connection
was given up while it was waiting. Otherwise it is read from the answer to an earlier request: to the
one whose number is that of the lines heard so far, not that of the requests made. -/
theorem answer_of_calls (address : String) (exchangeTimeout : Span) (probe : ProbeConfig)
    (n : Network) (stamp : Stamp) (answer : Nat → Nat → List UInt8) (hn : n.AnswersInTurn answer)
    (timeout : Option Span) (calls : List Call) (q : Request) :
    let new : Remote := ⟨.new address exchangeTimeout probe, n, stamp⟩
    let r := new.run timeout calls
    let t := new.tally timeout calls ⟨0, 0⟩
    (t.torn = 0 → r.HearsOwn answer q) ∧ (timeout = none → t.torn = 0) ∧
      ∀ bytes line rest n i, r.Hears q bytes line rest n →
        (∀ limit, r.exchange limit q = (.ended (Response.ofLine q line), r.leave (some rest) n)) ∧
        (rest.index = some i → bytes <:+: answer i t.heard) := by
  intro new r t
  have hcounts : r.Counts answer t := counts_run (counts_of_none hn rfl) timeout calls
  have hread : ∀ {bytes line rest n i}, r.Hears q bytes line rest n → rest.index = some i →
      ∃ lines, lines.length = t.asked ∧ n.OfOldest answer t (lines ++ [q.line]) i bytes := by
    intro bytes line rest n i hh hi
    cases hh with
    | read ha hr hne _ =>
      obtain ⟨hn, lines, hl, hs⟩ := stands_of_asks hcounts ha
      obtain ⟨-, hindex, hold⟩ := hs.hear hn hr hne
      exact ⟨lines, hl, hold i (hindex ▸ hi)⟩
  refine ⟨fun h0 bytes line rest n i hh hi => ?_, ?_,
    fun bytes line rest n i hh => ⟨exchange_of_hears hh, fun hi => ?_⟩⟩
  · obtain ⟨lines, hl, hold⟩ := hread hh hi
    have hheard : lines.length = t.heard := by rw [hl, Tally.asked, h0, Nat.add_zero]
    refine ⟨lines, hold.own h0 (by simp [hheard]), ?_⟩
    rw [hheard]
    exact hold.whole h0
  · rintro rfl
    exact torn_tally rfl calls new
  · obtain ⟨lines, -, hold⟩ := hread hh hi
    exact hold.part

/-! ## A late server -/

deriving instance DecidableEq for Turn, Connection, Connection.LineRead

/-- The answer to a login. -/
def welcome (name : String) : List UInt8 :=
  ("\x7b\"ok\":true,\"session\":\"" ++ name ++ "\"\x7d\n").toUTF8.data.toList

def welcomes (_ : Nat) : Nat → List UInt8
  | 0 => welcome "alice"
  | 1 => welcome "bob"
  | _ => [Connection.newlineByte]

/-- A new client of a server that answers the first login only when it answers the second. -/
def lateRemote : Remote where
  client := .new "127.0.0.1:40001" (.ofSeconds 5) ⟨1, 100⟩
  network := {
    hosts := []
    serverPlans := [.accepted [⟨[], .waiting, none⟩,
      ⟨welcome "alice" ++ welcome "bob", .waiting, none⟩]]
    targetPlans := []
    otherTarget := .accepted 1 .ended
    now := .zero
    requests := []
    probes := 0 }
  stamp := default

theorem answersInTurn_lateRemote : lateRemote.network.AnswersInTurn welcomes where
  line _ j := by
    match j with
    | 0 => exact ⟨(welcome "alice").dropLast, by decide +kernel,
        show welcome "alice" = _ by decide +kernel⟩
    | 1 => exact ⟨(welcome "bob").dropLast, by decide +kernel,
        show welcome "bob" = _ by decide +kernel⟩
    | _ + 2 => exact ⟨[], by simp, rfl⟩
  inTurn i k := by
    match i, k with
    | 0, 0 => exact List.nil_prefix
    | 0, 1 => exact List.nil_prefix
    | 0, k + 2 =>
      have hall : lateRemote.network.sentFor 0 (k + 2) = answers welcomes 0 2 := by
        simp [sentFor, turnsOf, lateRemote, Plan.turns, answers, welcomes, List.range_succ]
      rw [hall]
      exact answers_isPrefix welcomes 0 (Nat.le_add_left 2 k)
    | i + 1, k =>
      have hnone : lateRemote.network.sentFor (i + 1) k = [] := by
        simp [sentFor, turnsOf, lateRemote]
      rw [hnone]
      exact List.nil_prefix

/-- The second login reads the answer to the first. -/
theorem exists_hears_lateRemote : ∃ line rest n,
    (lateRemote.run (some (.ofSeconds 1)) [.login ⟨"alice", ""⟩]).Hears (.login ⟨"bob", ""⟩)
      (welcome "alice") line rest n ∧
    rest.index = some 0 ∧
    n.linesOf 0 = [(Request.login ⟨"alice", ""⟩).line, (Request.login ⟨"bob", ""⟩).line] := by
  let r := lateRemote.run (some (.ofSeconds 1)) [.login ⟨"alice", ""⟩]
  let q : Request := .login ⟨"bob", ""⟩
  let late := welcome "alice" ++ welcome "bob"
  let kept : Connection := ⟨some 0, [], .waiting, [⟨late, .waiting, none⟩], none⟩
  let asked : Connection := ⟨some 0, late, .waiting, [], none⟩
  have hu : r.client.connection = some kept := by decide +kernel
  have hs : (r.network.send q.line kept).1.toOption = some asked := by decide +kernel
  have hr : asked.readLine = .line (welcome "alice")
      ⟨some 0, welcome "bob", .waiting, [], none⟩ := by decide +kernel
  have ht : (Text.ofUtf8 (welcome "alice")).toOption =
      some "\x7b\"ok\":true,\"session\":\"alice\"\x7d\n" := by decide +kernel
  exact ⟨_, _, (r.network.send q.line kept).2,
    .read (.sent (.held hu) (Prod.ext (eq_ok_of_toOption hs) rfl)) hr (by decide +kernel)
      (eq_ok_of_toOption ht), rfl, by decide +kernel⟩

/-- Alice's login is given up after a second, while the client would wait for five. What Bob's login
hears then belongs to Alice. If hers may take its time, Bob hears his own answer. -/
theorem answer_of_lateRemote :
    lateRemote.network.AnswersInTurn welcomes ∧
    (lateRemote.run none [.login ⟨"alice", ""⟩]).HearsOwn welcomes (.login ⟨"bob", ""⟩) ∧
    lateRemote.tally (some (.ofSeconds 1)) [.login ⟨"alice", ""⟩] ⟨0, 0⟩ = ⟨0, 1⟩ ∧
    ∃ line rest n, (lateRemote.run (some (.ofSeconds 1)) [.login ⟨"alice", ""⟩]).Hears
      (.login ⟨"bob", ""⟩) (welcome "alice") line rest n ∧ rest.index = some 0 ∧
      welcome "alice" <:+: welcomes 0 0 := by
  have ht : lateRemote.tally (some (.ofSeconds 1)) [.login ⟨"alice", ""⟩] ⟨0, 0⟩ = ⟨0, 1⟩ := by
    decide +kernel
  obtain ⟨hown, hwhole, -⟩ := answer_of_calls "127.0.0.1:40001" (.ofSeconds 5) ⟨1, 100⟩
    lateRemote.network default welcomes answersInTurn_lateRemote none [.login ⟨"alice", ""⟩]
    (.login ⟨"bob", ""⟩)
  obtain ⟨-, -, hread⟩ := answer_of_calls "127.0.0.1:40001" (.ofSeconds 5) ⟨1, 100⟩
    lateRemote.network default welcomes answersInTurn_lateRemote (some (.ofSeconds 1))
    [.login ⟨"alice", ""⟩] (.login ⟨"bob", ""⟩)
  obtain ⟨line, rest, n, hh, hi, -⟩ := exists_hears_lateRemote
  have hpart := (hread _ line rest n 0 hh).2 hi
  change welcome "alice" <:+: welcomes 0 (lateRemote.tally _ _ _).heard at hpart
  rw [ht] at hpart
  exact ⟨answersInTurn_lateRemote, hown (hwhole rfl), ht, line, rest, n, hh, hi, hpart⟩

/-- Bob's login hears the answer to Alice's, and yields her session. -/
theorem not_hearsOwn_of_given_up :
    lateRemote.network.AnswersInTurn welcomes ∧
    ¬ (lateRemote.run (some (.ofSeconds 1)) [.login ⟨"alice", ""⟩]).HearsOwn welcomes
      (.login ⟨"bob", ""⟩) ∧
    (((lateRemote.run (some (.ofSeconds 1)) [.login ⟨"alice", ""⟩]).login none
      ⟨"bob", ""⟩).1.result? .zero).bind Except.toOption = some ⟨"alice"⟩ := by
  refine ⟨answersInTurn_lateRemote, fun h => ?_, by decide +kernel⟩
  obtain ⟨line, rest, n, hh, hi, hlines⟩ := exists_hears_lateRemote
  obtain ⟨before, hbefore, hprefix⟩ := h _ _ _ _ _ hh hi
  have hlen : before.length = 1 := by
    have := congrArg List.length (hlines.symm.trans hbefore)
    simp at this
    omega
  rw [hlen] at hprefix
  exact absurd hprefix (by decide +kernel)

end LinkTest.Remote
