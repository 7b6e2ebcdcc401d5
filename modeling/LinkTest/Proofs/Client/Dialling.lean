import LinkTest.Network.Basic
import LinkTest.Proofs.Probe.Frame

/-!
# What a network keeps

Connecting, waiting and measuring put no request on any connection that there is. A connection that
was just made is in step: nothing was asked, and nothing is left to be read but the zeros that the
target of measurements sends.
-/

namespace LinkTest

def Plan.turns : Plan → List Turn
  | accepted turns => turns
  | _ => []

namespace Network

/-- The requests that have reached the test server on one connection. -/
def linesOf (n : Network) (i : Nat) : List String := (n.requests[i]?).getD []

/-- What the test server does about the requests on one connection, in their order. -/
def turnsOf (n : Network) (i : Nat) : List Turn := ((n.serverPlans[i]?).map Plan.turns).getD []

/-- Time has passed and connections were begun, but no request has reached the server. -/
structure Later (n n' : Network) : Prop where
  plans : n'.serverPlans = n.serverPlans
  lines : ∀ i, n'.linesOf i = n.linesOf i
  count : n.requests.length ≤ n'.requests.length

theorem Later.refl (n : Network) : n.Later n := ⟨rfl, fun _ => rfl, Nat.le_refl _⟩

theorem Later.trans {n n' n'' : Network} (h : n.Later n') (h' : n'.Later n'') : n.Later n'' :=
  ⟨h'.plans.trans h.plans, fun i => (h'.lines i).trans (h.lines i), Nat.le_trans h.count h'.count⟩

theorem Later.turns {n n' : Network} (h : n.Later n') (i : Nat) : n'.turnsOf i = n.turnsOf i := by
  rw [turnsOf, turnsOf, h.plans]

theorem later_waitTill (n : Network) (due : Span) : n.Later (n.waitTill due) :=
  ⟨rfl, fun _ => rfl, Nat.le_refl _⟩

theorem later_waitUntil (n : Network) (timer : Span) (limit : Option Span) :
    n.Later (n.waitUntil timer limit).2 :=
  n.later_waitTill _

/-- On a connection to the server that is in step all that was sent is read, and the next turn is
the one about the next request. On one to the target of measurements there are only zeros. -/
inductive InStep (n : Network) (c : Connection) : Prop
  | server {i : Nat} (hi : c.index = some i) (hlt : i < n.requests.length) (hin : c.incoming = [])
    (ht : c.turns = (n.turnsOf i).drop (n.linesOf i).length)
  | target (hi : c.index = none) (hz : ∀ b ∈ c.incoming, b = 0)

theorem InStep.later {n n' : Network} {c : Connection} (h : n.InStep c) (hn : n.Later n') :
    n'.InStep c := by
  cases h with
  | server hi hlt hin ht =>
    refine .server hi (Nat.lt_of_lt_of_le hlt hn.count) hin ?_
    rw [hn.turns, hn.lines]
    exact ht
  | target hi hz => exact .target hi hz

/-! ## Connecting -/

/-- What an attempt to connect leaves. It takes no time to dial. -/
structure Attempted (n : Network) (outcome : Dialled) (n' : Network) : Prop where
  later : n.Later n'
  now : n'.now = n.now
  inStep : ∀ c, outcome = .connected c → n'.InStep c
  /-- Nothing was asked yet on a connection to the server. -/
  fresh : ∀ c i, outcome = .connected c → c.index = some i → n'.linesOf i = []

theorem Attempted.same (n : Network) {outcome : Dialled} (h : ∀ c, outcome ≠ .connected c) :
    n.Attempted outcome n :=
  ⟨.refl n, rfl, fun c hc => absurd hc (h c), fun c _ hc => absurd hc (h c)⟩

theorem attempted_dialServer (n : Network) : n.Attempted n.dialServer.1 n.dialServer.2 := by
  have hlines : ∀ i, ((n.requests ++ [[]])[i]?).getD [] = n.linesOf i := by
    intro i
    by_cases hi : i < n.requests.length
    · rw [List.getElem?_append_left hi, linesOf]
    · rw [List.getElem?_append_right (Nat.le_of_not_lt hi), linesOf,
        List.getElem?_eq_none (Nat.le_of_not_lt hi)]
      cases i - n.requests.length <;> rfl
  have hnext : n.Later { n with requests := n.requests ++ [[]] } := ⟨rfl, hlines, by simp⟩
  have hnew : n.linesOf n.requests.length = [] := by simp [linesOf]
  have hopened : ∀ turns, n.turnsOf n.requests.length = turns →
      n.Attempted (.connected ⟨some n.requests.length, [], .waiting, turns, none⟩)
        { n with requests := n.requests ++ [[]] } := by
    intro turns ht
    refine ⟨hnext, rfl, fun c hc => ?_, fun c i hc hi => ?_⟩
    · obtain rfl := Dialled.connected.inj hc
      refine .server rfl (by simp) rfl ?_
      rw [hnext.turns, hnext.lines, hnew, ht]
      rfl
    · obtain rfl := Dialled.connected.inj hc
      obtain rfl := Option.some.inj hi
      rw [hnext.lines, hnew]
  unfold dialServer
  dsimp only
  split
  · exact ⟨hnext, rfl, nofun, nofun⟩
  · exact ⟨hnext, rfl, nofun, nofun⟩
  · next turns hp => exact hopened turns (by rw [turnsOf, hp]; rfl)
  · next hp => exact hopened [] (by rw [turnsOf, hp]; rfl)

theorem attempted_dialTarget (n : Network) : n.Attempted n.dialTarget.1 n.dialTarget.2 := by
  have hnext : n.Later { n with probes := n.probes + 1 } := ⟨rfl, fun _ => rfl, Nat.le_refl _⟩
  unfold dialTarget
  dsimp only
  split
  · exact ⟨hnext, rfl, nofun, nofun⟩
  · exact ⟨hnext, rfl, nofun, nofun⟩
  · refine ⟨hnext, rfl, fun c hc => ?_, fun c i hc hi => ?_⟩
    · obtain rfl := Dialled.connected.inj hc
      exact .target rfl fun b hb => List.eq_of_mem_replicate hb
    · obtain rfl := Dialled.connected.inj hc
      cases hi

theorem attempted_dial (n : Network) (ip : Ip) (port : Nat) :
    n.Attempted (n.dial ip port).1 (n.dial ip port).2 := by
  unfold dial
  split
  · exact .same n nofun
  · split
    · split
      · exact n.attempted_dialServer
      · split
        · exact n.attempted_dialTarget
        · exact .same n nofun
    · exact .same n nofun

theorem attempted_dialAll (port : Nat) (last : IoFault) (ips : List Ip) (n : Network) :
    n.Attempted (dialAll port last ips n).1 (dialAll port last ips n).2 := by
  induction ips generalizing last n with
  | nil => exact .same n nofun
  | cons ip rest ih =>
    have hd := n.attempted_dial ip port
    unfold dialAll
    generalize n.dial ip port = p at hd
    obtain ⟨outcome, n'⟩ := p
    cases outcome with
    | failed f =>
      obtain ⟨hl, ht, hs, hf⟩ := ih f n'
      exact ⟨hd.later.trans hl, ht.trans hd.now, hs, hf⟩
    | connected c => exact hd
    | hanging => exact hd

theorem attempted_dialText (n : Network) (address : String) :
    n.Attempted (n.dialText address).1 (n.dialText address).2 := by
  unfold dialText
  split
  · exact .same n nofun
  · exact n.attempted_dial _ _
  · split
    · exact attempted_dialAll _ _ _ n
    · exact .same n nofun
    · exact .same n nofun

end Network

/-! ## Measuring -/

namespace Probe

open Network

/-- Connecting within a span goes as dialling does; if that does not end, a timer is waited for. -/
theorem connect_eq (address : String) (within : Span) (limit : Option Span) (n : Network) :
    connect address within limit n =
      match n.dialText address with
      | (.connected c, n) => (some (.ok c), n)
      | (.failed f, n) => (some (.error (.io f)), n)
      | (.hanging, n) =>
        match n.waitUntil (n.timer within) limit with
        | (true, n) => (some (.error (.timeout within)), n)
        | (false, n) => (none, n) := by
  have hd := (n.attempted_dialText address).now
  unfold connect attempt
  simp only [Medium.connect, Medium.now]
  generalize n.dialText address = p at hd
  obtain ⟨c | f | _, n'⟩ := p
  · rfl
  · rfl
  · dsimp only at hd
    dsimp only
    rw [timer, waitUntil, hd]
    split <;> next h => simp only [h]

theorem attempted_connect (address : String) (within : Span) (limit : Option Span) (n : Network) :
    n.Later (connect address within limit n).2 ∧
      ∀ c, (connect address within limit n).1 = some (.ok c) →
        (connect address within limit n).2.InStep c := by
  have hd := n.attempted_dialText address
  rw [connect_eq]
  generalize n.dialText address = p at hd
  obtain ⟨outcome, n'⟩ := p
  cases outcome with
  | connected c =>
    refine ⟨hd.later, fun c' hc => ?_⟩
    obtain rfl : c = c' := by simpa using hc
    exact hd.inStep c rfl
  | failed f => exact ⟨hd.later, nofun⟩
  | hanging =>
    have hw := n'.later_waitUntil (n'.timer within) limit
    dsimp only
    generalize n'.waitUntil (n'.timer within) limit = q at hw
    obtain ⟨heeded, n''⟩ := q
    cases heeded <;> exact ⟨hd.later.trans hw, nofun⟩

/-- A relation that dialling and waiting keep is kept by all that measurements do. -/
theorem kept_of_dialText {limit : Option Span} {R : Network → Network → Prop}
    (refl : ∀ n, R n n) (trans : ∀ {n n' n''}, R n n' → R n' n'' → R n n'')
    (dial : ∀ n address, R n (n.dialText address).2)
    (wait : ∀ n timer, R n (n.waitTill (dueBy timer limit))) : Kept limit R where
  refl := refl
  trans := trans
  connect address timer n := by
    have hd := dial n address
    simp only [Medium.connect]
    generalize n.dialText address = p at hd
    obtain ⟨c | f | _, n'⟩ := p
    · exact hd
    · exact hd
    · exact trans hd (wait n' timer)
  read most timer c n := by
    simp only [Medium.read, Connection.readSome]
    split
    · exact wait n timer
    · exact refl n
    · exact refl n
    · exact refl n
  lookup host timer n := by
    simp only [Medium.lookup]
    split
    · exact refl n
    · exact refl n
    · exact wait n timer

/-- Whatever is measured, nothing is asked of the test server. -/
theorem later_run (s : Settings) (config : ProbeConfig) (limit : Option Span) (n : Network) :
    n.Later (run s config limit n).2 := by
  have hkept : Kept limit Later :=
    kept_of_dialText .refl .trans (fun n address => (n.attempted_dialText address).later)
      fun n _ => n.later_waitTill _
  exact hkept.run s config n

end Probe
end LinkTest
