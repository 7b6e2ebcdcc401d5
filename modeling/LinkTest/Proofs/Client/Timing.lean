import LinkTest.Client.Basic
import LinkTest.Proofs.Client.Dialling

/-!
# The time of calls

A call that has a limit keeps to it: the clock goes on in the call, does not run past the limit, and
the call ends with a result or at its limit.
-/

namespace LinkTest

namespace Network

variable {n n' n'' : Network} {limit : Span}

/-- Between two states of a network the clock goes on, and not beyond the limit if it had not
passed it before. -/
def Elapses (limit : Span) (n n' : Network) : Prop :=
  n.now.nanos ≤ limit.nanos → n.now.nanos ≤ n'.now.nanos ∧ n'.now.nanos ≤ limit.nanos

theorem Elapses.of_now (h : n'.now = n.now) : Elapses limit n n' := fun hn =>
  ⟨Nat.le_of_eq (by rw [h]), by rw [h]; exact hn⟩

theorem Elapses.refl (n : Network) : Elapses limit n n := .of_now rfl

theorem Elapses.trans (h : Elapses limit n n') (h' : Elapses limit n' n'') :
    Elapses limit n n'' := fun hn =>
  ⟨Nat.le_trans (h hn).1 (h' (h hn).2).1, (h' (h hn).2).2⟩

/-- Waiting for a timer in a call with a limit. -/
theorem elapses_waitTill (n : Network) (timer limit : Span) :
    Elapses limit n (n.waitTill (dueBy timer (some limit))) := fun hn =>
  ⟨Nat.le_max_left _ _, Nat.max_le.2 ⟨hn, Nat.min_le_right _ _⟩⟩

theorem elapses_waitUntil (n : Network) (timer limit : Span) :
    Elapses limit n (n.waitUntil timer (some limit)).2 :=
  n.elapses_waitTill timer limit

/-! ## Connecting takes no time unless it hangs -/

@[simp] theorem now_dialText (n : Network) (address : String) :
    (n.dialText address).2.now = n.now :=
  (n.attempted_dialText address).now

@[simp] theorem now_send (n : Network) (line : String) (c : Connection) :
    (n.send line c).2.now = n.now := by
  unfold send
  split
  · rfl
  · split
    · dsimp only
      split <;> rfl
    · rfl

end Network

open Network

/-! ## Measurements -/

namespace Probe

/-- All that measurements do keeps to the limit. -/
theorem kept_elapses (limit : Span) : Kept (some limit) (Elapses limit) :=
  kept_of_dialText .refl .trans (fun n address => .of_now (n.now_dialText address))
    fun n timer => n.elapses_waitTill timer limit

theorem elapses_connect (limit : Span) (address : String) (within : Span) (n : Network) :
    Elapses limit n (connect address within (some limit) n).2 :=
  kept_attempt ((kept_elapses limit).connect address) within n

theorem elapses_run (limit : Span) (s : Settings) (config : ProbeConfig) (n : Network) :
    Elapses limit n (run s config (some limit) n).2 :=
  (kept_elapses limit).run s config n

end Probe

/-! ## Calls -/

namespace Remote

variable {α : Type} {limit : Span} {r : Remote}

/-- A call of a client that ends, and at its limit at the latest. -/
structure Punctual (limit : Span) (r : Remote) (answer : Outcome α × Remote) : Prop where
  ends : answer.1 ≠ .crashed
  elapses : Elapses limit r.network answer.2.network

theorem punctual_connection (limit : Span) (r : Remote) :
    Punctual limit r (r.connection (some limit)) := by
  unfold connection
  split
  · exact ⟨nofun, .refl _⟩
  · have hc := Probe.elapses_connect limit r.client.address r.client.exchangeTimeout
      r.network
    generalize Probe.connect r.client.address r.client.exchangeTimeout (some limit) r.network = p
      at hc
    obtain ⟨_ | (f | c), n⟩ := p <;> exact ⟨nofun, hc⟩

theorem punctual_awaitLine (limit : Span) (c : Connection) (r : Remote) :
    Punctual limit r (r.awaitLine (some limit) c) := by
  unfold awaitLine
  split
  · exact ⟨nofun, .refl _⟩
  · split
    · exact ⟨nofun, .refl _⟩
    · split <;> exact ⟨nofun, .refl _⟩
  · have hw := r.network.elapses_waitUntil (r.network.timer r.client.exchangeTimeout) limit
    generalize r.network.waitUntil (r.network.timer r.client.exchangeTimeout) (some limit) = p at hw
    obtain ⟨_ | _, n⟩ := p <;> exact ⟨nofun, hw⟩

theorem punctual_transfer (limit : Span) (line : String) (r : Remote) :
    Punctual limit r (r.transfer (some limit) line) := by
  have hc := punctual_connection limit r
  unfold transfer
  generalize r.connection (some limit) = p at hc
  obtain ⟨(f | c) | _ | _, r'⟩ := p
  · exact ⟨nofun, hc.elapses⟩
  · have hs := r'.network.now_send line c
    dsimp only
    generalize r'.network.send line c = p at hs
    obtain ⟨f | c', n⟩ := p
    · exact ⟨nofun, hc.elapses.trans (.of_now hs)⟩
    · have hl := punctual_awaitLine limit c' ({ r' with network := n }.setConnection (some c'))
      exact ⟨hl.ends, hc.elapses.trans (.trans (.of_now hs) hl.elapses)⟩
  · exact ⟨nofun, hc.elapses⟩
  · exact absurd rfl hc.ends

theorem punctual_exchange (limit : Span) (q : Request) (r : Remote) :
    Punctual limit r (r.exchange (some limit) q) := by
  have ht := punctual_transfer limit q.line r
  unfold exchange
  generalize r.transfer (some limit) q.line = p at ht
  obtain ⟨(f | line) | _ | _, r'⟩ := p
  · exact ⟨nofun, ht.elapses⟩
  · exact ⟨nofun, ht.elapses⟩
  · exact ⟨nofun, ht.elapses⟩
  · exact absurd rfl ht.ends

/-- What is made of a response is done in time if the response was. -/
theorem Punctual.andThen {answer : Outcome Response × Remote}
    {next : Response → Remote → Outcome α × Remote} (h : Punctual limit r answer)
    (hn : ∀ reply r', Punctual limit r' (next reply r')) :
    Punctual limit r (Remote.andThen answer next) := by
  obtain ⟨(f | reply) | _ | _, r'⟩ := answer
  · exact ⟨nofun, h.elapses⟩
  · exact ⟨(hn reply r').ends, h.elapses.trans (hn reply r').elapses⟩
  · exact ⟨nofun, h.elapses⟩
  · exact absurd rfl h.ends

theorem punctual_login (limit : Span) (c : Credentials) (r : Remote) :
    Punctual limit r (r.login (some limit) c) := by
  refine (punctual_exchange limit (.login c) r).andThen fun reply r' => ?_
  split <;> exact ⟨nofun, .refl _⟩

theorem punctual_test (limit : Span) (t : SessionToken) (r : Remote) :
    Punctual limit r (r.test (some limit) t) := by
  refine (punctual_exchange limit (.getConfig t) r).andThen fun reply r' => ?_
  split
  · exact ⟨nofun, .refl _⟩
  · next s _ =>
    have hr := Probe.elapses_run limit s r'.client.probe r'.network
    generalize Probe.run s r'.client.probe (some limit) r'.network = p at hr
    obtain ⟨_ | (f | m), n⟩ := p <;> exact ⟨nofun, hr⟩

theorem punctual_report (limit : Span) (t : SessionToken) (record : Record) (r : Remote) :
    Punctual limit r (r.report (some limit) t record) := by
  unfold report
  split
  · exact ⟨nofun, .refl _⟩
  · exact (punctual_exchange limit _ r).andThen fun _ r' => ⟨nofun, .refl _⟩

end Remote
end LinkTest
