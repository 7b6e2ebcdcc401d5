import Mathlib.Algebra.GroupWithZero.Nat
import LinkTest.Network.Basic
import LinkTest.Proofs.Client.Measuring
import LinkTest.Proofs.Record.Entries

/-!
# What measurements come to

Whatever the network is, and however long everything takes in it, measurements fail exactly if no
attempt to connect has succeeded, if there is no connection to measure the throughput on, or if
reading from it fails. What becomes of names is counted, and names are counted as often as they are
listed. None of it depends on how the attempts are mixed.
-/

namespace LinkTest.Probe

variable {ν Link : Type} [Medium ν Link] {address : String} {within window deadline : Span}
  {limit : Option Span} {n n' n'' : ν}

/-! ## Latency -/

/-- An attempt to connect: how long it has taken, and what came of it. -/
structure Attempt (Link : Type) where
  taken : Span
  result : Except Failure Link

namespace Attempt

def succeeded (a : Attempt Link) : Bool := a.result.isOk

theorem succeeded_eq_false_iff {a : Attempt Link} :
    a.succeeded = false ↔ ∃ f, a.result = .error f := by
  obtain ⟨taken, result⟩ := a
  cases result <;> simp [succeeded, Except.isOk, Except.toBool]

end Attempt

/-- Attempts that are made one after the other. -/
inductive Attempts (address : String) (within : Span) (limit : Option Span) :
    ν → List (Attempt Link) → ν → Prop
  | nil (n : ν) : Attempts address within limit n [] n
  | cons {n n' n'' : ν} {r : Except Failure Link} {attempts : List (Attempt Link)}
    (first : connect address within limit n = (some r, n'))
    (rest : Attempts address within limit n' attempts n'') :
    Attempts address within limit n
      (⟨⟨(Medium.now n').nanos - (Medium.now n).nanos⟩, r⟩ :: attempts) n''

/-- What attempts come to, behind those that were made before. -/
def tally (s : Samples) (attempts : List (Attempt Link)) : Samples :=
  attempts.foldl (fun s a => s.add a.taken a.result) s

theorem sample_eq_some {k : Nat} {s s' : Samples}
    (h : sample address within limit k s n = (some s', n')) : ∃ attempts,
      attempts.length = k ∧ Attempts address within limit n attempts n' ∧ s' = tally s attempts := by
  induction k generalizing s n with
  | zero =>
    obtain ⟨rfl, rfl⟩ : s = s' ∧ n = n' := by simpa [sample] using h
    exact ⟨[], rfl, .nil n, rfl⟩
  | succ k ih =>
    unfold sample at h
    dsimp only at h
    split at h
    · cases h
    · next r n₁ hc =>
      obtain ⟨attempts, hlength, hmade, rfl⟩ := ih h
      exact ⟨_ :: attempts, congrArg (· + 1) hlength, .cons hc hmade, rfl⟩

theorem tally_succeeded (s : Samples) (attempts : List (Attempt Link)) :
    (tally s attempts).succeeded = s.succeeded + (attempts.filter (·.succeeded)).length := by
  induction attempts generalizing s with
  | nil => rfl
  | cons a attempts ih =>
    rw [tally, List.foldl_cons, ← tally, ih]
    obtain ⟨taken, _ | _⟩ := a
    · rfl
    · simp only [Samples.add, Attempt.succeeded, Except.isOk, Except.toBool, List.filter_cons,
        if_true, List.length_cons]
      omega

theorem tally_total (s : Samples) (attempts : List (Attempt Link)) : (tally s attempts).total.nanos =
    s.total.nanos + ((attempts.filter (·.succeeded)).map (·.taken.nanos)).sum := by
  induction attempts generalizing s with
  | nil => rfl
  | cons a attempts ih =>
    rw [tally, List.foldl_cons, ← tally, ih]
    obtain ⟨taken, _ | _⟩ := a
    · rfl
    · simp only [Samples.add, Attempt.succeeded, Except.isOk, Except.toBool, List.filter_cons,
        if_true, List.map_cons, List.sum_cons]
      omega

/-- The last of all attempts leaves its failure. -/
theorem tally_lastFailure (s : Samples) (attempts : List (Attempt Link)) {a : Attempt Link} {f : Failure}
    (hlast : attempts.getLast? = some a) (hf : a.result = .error f) :
    (tally s attempts).lastFailure = some f := by
  obtain ⟨before, rfl⟩ := List.getLast?_eq_some_iff.1 hlast
  rw [tally, List.foldl_append, List.foldl_cons, List.foldl_nil, hf]
  rfl

/-- The mean time of those attempts that have succeeded, in milliseconds. -/
def meanTime (attempts : List (Attempt Link)) : Binary64 :=
  mean ⟨((attempts.filter (·.succeeded)).map (·.taken.nanos)).sum⟩
    (attempts.filter (·.succeeded)).length

/-- What the latency of attempts is: the failure of the last one if none has succeeded. -/
inductive Latency (attempts : List (Attempt Link)) : Except Failure Binary64 → Prop
  | unreachable {a : Attempt Link} {f : Failure} (failed : ∀ b ∈ attempts, b.succeeded = false)
    (last : attempts.getLast? = some a) (reason : a.result = .error f) : Latency attempts (.error f)
  | measured {a : Attempt Link} (mem : a ∈ attempts) (ok : a.succeeded = true) :
    Latency attempts (.ok (meanTime attempts))

theorem latency_mean {attempts : List (Attempt Link)} (hne : attempts ≠ []) :
    Latency attempts ((tally .none attempts).mean within) := by
  have hcount := tally_succeeded .none attempts
  unfold Samples.mean
  split
  · next hzero =>
    have hfailed : ∀ b ∈ attempts, b.succeeded = false := by
      have hlength : (attempts.filter (·.succeeded)).length = 0 := by
        rw [hzero] at hcount
        exact (Nat.eq_zero_of_add_eq_zero hcount.symm).2
      simpa [List.filter_eq_nil_iff] using List.eq_nil_of_length_eq_zero hlength
    have hlast := List.getLast?_eq_some_getLast hne
    obtain ⟨f, hf⟩ := Attempt.succeeded_eq_false_iff.1 (hfailed _ (List.mem_of_getLast? hlast))
    rw [tally_lastFailure _ _ hlast hf]
    exact .unreachable hfailed hlast hf
  · next hpos =>
    have hsome : attempts.filter (·.succeeded) ≠ [] := fun hnil => by
      rw [hnil] at hcount
      exact hpos hcount
    obtain ⟨a, ha⟩ := List.exists_mem_of_ne_nil _ hsome
    obtain ⟨hmem, hok⟩ := List.mem_filter.1 ha
    have htotal : (tally .none attempts).total =
        ⟨((attempts.filter (·.succeeded)).map (·.taken.nanos)).sum⟩ := by
      refine (Span.mk.injEq _ _).mpr ((tally_total .none attempts).trans (Nat.zero_add _))
    rw [hcount, htotal, Samples.none, Nat.zero_add]
    exact .measured hmem hok

theorem latency_eq_some {k : Nat} {r : Except Failure Binary64}
    (h : latency address k within limit n = (some r, n')) : ∃ attempts,
      attempts.length = max k 1 ∧ Attempts address within limit n attempts n' ∧
        Latency attempts r := by
  unfold latency at h
  split at h
  · cases h
  · next s n₁ hs =>
    obtain ⟨rfl, rfl⟩ : s.mean within = r ∧ n₁ = n' := by simpa using h
    obtain ⟨attempts, hlength, hmade, rfl⟩ := sample_eq_some hs
    refine ⟨attempts, hlength, hmade, latency_mean ?_⟩
    rintro rfl
    rw [List.length_nil] at hlength
    omega

/-! ## Throughput -/

/-- More fuel than there are bytes left makes no difference. -/
theorem drainFuel_eq {fuel fuel' bytes : Nat} {c : Link}
    (h : Medium.remaining (dueBy deadline limit) c n < fuel)
    (h' : Medium.remaining (dueBy deadline limit) c n < fuel') :
    drainFuel deadline limit fuel bytes c n = drainFuel deadline limit fuel' bytes c n := by
  induction fuel generalizing fuel' bytes c n with
  | zero => exact absurd h (Nat.not_lt_zero _)
  | succ fuel ih =>
    obtain ⟨fuel', rfl⟩ := Nat.exists_eq_add_one_of_ne_zero (Nat.ne_zero_of_lt h')
    unfold drainFuel
    split
    · rfl
    · rfl
    · next k c' n₁ hr =>
      have hle := Medium.add_remaining_le hr
      exact ih (by omega) (by omega)
    · rfl

/-- One turn of the loop: a piece is read, and the loop goes on with what was read until then. -/
theorem drain_eq (deadline : Span) (limit : Option Span) (bytes : Nat) (c : Link) (n : ν) :
    drain deadline limit bytes c n =
      match Medium.read bufferSize (dueBy deadline limit) c n with
      | (some (.error f), n) => (some (.error (.io f)), n)
      | (some (.ok (0, _)), n) => (some (.ok bytes), n)
      | (some (.ok (k + 1, c)), n) => drain deadline limit (bytes + (k + 1)) c n
      | (none, n) => if heedsTimer deadline limit then (some (.ok bytes), n) else (none, n) := by
  rw [drain, drainFuel]
  generalize hr : Medium.read bufferSize (dueBy deadline limit) c n = p
  obtain ⟨_ | (f | ⟨_ | k, c'⟩), n'⟩ := p
  · rfl
  · rfl
  · rfl
  · have hle := Medium.add_remaining_le hr
    exact drainFuel_eq (by omega) (Nat.lt_succ_self _)

/-- A connection is read piece by piece until it ends, until reading fails or until the deadline
has come. -/
inductive Reads (deadline : Span) (limit : Option Span) :
    Link → ν → List Nat → Option IoFault → ν → Prop
  | ended {c c' : Link} {n n' : ν}
    (h : Medium.read bufferSize (dueBy deadline limit) c n = (some (.ok (0, c')), n')) :
    Reads deadline limit c n [] none n'
  | failed {c : Link} {n n' : ν} {f : IoFault}
    (h : Medium.read bufferSize (dueBy deadline limit) c n = (some (.error f), n')) :
    Reads deadline limit c n [] (some f) n'
  | elapsed {c : Link} {n n' : ν}
    (h : Medium.read bufferSize (dueBy deadline limit) c n = (none, n'))
    (heeded : heedsTimer deadline limit = true) : Reads deadline limit c n [] none n'
  | piece {c c' : Link} {n n' n'' : ν} {k : Nat} {pieces : List Nat} {fault : Option IoFault}
    (h : Medium.read bufferSize (dueBy deadline limit) c n = (some (.ok (k + 1, c')), n'))
    (rest : Reads deadline limit c' n' pieces fault n'') :
    Reads deadline limit c n ((k + 1) :: pieces) fault n''

/-- What reading comes to: the failure if there was one, or all the bytes that were read. -/
def readResult (bytes : Nat) : Option IoFault → Except Failure Nat
  | some f => .error (.io f)
  | none => .ok bytes

theorem drain_eq_some {bytes : Nat} {c : Link} {r : Except Failure Nat}
    (h : drain deadline limit bytes c n = (some r, n')) : ∃ pieces fault,
      Reads deadline limit c n pieces fault n' ∧ r = readResult (bytes + pieces.sum) fault := by
  -- every piece leaves less to be read
  induction hk : Medium.remaining (dueBy deadline limit) c n using Nat.strongRecOn
    generalizing bytes c n with
  | _ remaining ih =>
    rw [drain_eq] at h
    split at h
    · next f n₁ hr =>
      obtain ⟨rfl, rfl⟩ : .error (.io f) = r ∧ n₁ = n' := by simpa using h
      exact ⟨[], some f, .failed hr, rfl⟩
    · next c' n₁ hr =>
      obtain ⟨rfl, rfl⟩ : .ok bytes = r ∧ n₁ = n' := by simpa using h
      exact ⟨[], none, .ended hr, rfl⟩
    · next k c' n₁ hr =>
      have hle := Medium.add_remaining_le hr
      obtain ⟨pieces, fault, hread, rfl⟩ := ih _ (by omega) h rfl
      refine ⟨(k + 1) :: pieces, fault, .piece hr hread, ?_⟩
      rw [List.sum_cons, Nat.add_assoc]
    · next n₁ hr =>
      split at h
      · next hheeded =>
        obtain ⟨rfl, rfl⟩ : .ok bytes = r ∧ n₁ = n' := by simpa using h
        exact ⟨[], none, .elapsed hr hheeded, rfl⟩
      · cases h

/-- How the connection for the throughput was read. -/
structure Reading where
  /-- The sizes of the pieces. -/
  pieces : List Nat
  fault : Option IoFault
  taken : Span

/-- What the throughput is: the failure to connect or to read, if there is one. -/
inductive Throughput (window within : Span) (limit : Option Span) (address : String) (n : ν) :
    Except Failure Link → Option Reading → Except Failure Binary64 → ν → Prop
  | unlinked {n₁ : ν} {f : Failure} (linked : connect address within limit n = (some (.error f), n₁)) :
    Throughput window within limit address n (.error f) none (.error f) n₁
  | broken {n₁ n₂ : ν} {c : Link} {pieces : List Nat} {f : IoFault}
    (linked : connect address within limit n = (some (.ok c), n₁))
    (read : Reads ⟨(Medium.now n₁).nanos + window.nanos⟩ limit c n₁ pieces (some f) n₂) :
    Throughput window within limit address n (.ok c)
      (some ⟨pieces, some f, ⟨(Medium.now n₂).nanos - (Medium.now n₁).nanos⟩⟩) (.error (.io f)) n₂
  | measured {n₁ n₂ : ν} {c : Link} {pieces : List Nat}
    (linked : connect address within limit n = (some (.ok c), n₁))
    (read : Reads ⟨(Medium.now n₁).nanos + window.nanos⟩ limit c n₁ pieces none n₂) :
    Throughput window within limit address n (.ok c)
      (some ⟨pieces, none, ⟨(Medium.now n₂).nanos - (Medium.now n₁).nanos⟩⟩)
      (.ok (rate pieces.sum ⟨(Medium.now n₂).nanos - (Medium.now n₁).nanos⟩)) n₂

theorem throughput_eq_some {r : Except Failure Binary64}
    (h : throughput address window within limit n = (some r, n')) : ∃ link reading,
      Throughput window within limit address n link reading r n' := by
  unfold throughput at h
  split at h
  · cases h
  · next f n₁ hc =>
    obtain ⟨rfl, rfl⟩ : .error f = r ∧ n₁ = n' := by simpa using h
    exact ⟨_, _, .unlinked hc⟩
  · next c n₁ hc =>
    dsimp only at h
    split at h
    · cases h
    · next f n₂ hd =>
      obtain ⟨rfl, rfl⟩ : .error f = r ∧ n₂ = n' := by simpa using h
      obtain ⟨pieces, fault, hread, hr⟩ := drain_eq_some hd
      cases fault with
      | none => cases hr
      | some f => cases hr; exact ⟨_, _, .broken hc hread⟩
    · next bytes n₂ hd =>
      obtain ⟨rfl, rfl⟩ :
          .ok (rate bytes ⟨(Medium.now n₂).nanos - (Medium.now n₁).nanos⟩) = r ∧ n₂ = n' := by
        simpa using h
      obtain ⟨pieces, fault, hread, hr⟩ := drain_eq_some hd
      cases fault with
      | some f => cases hr
      | none =>
        rw [Nat.zero_add] at hr
        cases hr
        exact ⟨_, _, .measured hc hread⟩

/-! ## Names -/

/-- Names that are looked up one after the other, each with what has come of it. -/
inductive Lookups (within : Span) (limit : Option Span) :
    List String → ν → List (Except Failure (List Ip)) → ν → Prop
  | nil (n : ν) : Lookups within limit [] n [] n
  | cons {host : String} {hosts : List String} {n n' n'' : ν} {found : Except Failure (List Ip)}
    {founds : List (Except Failure (List Ip))}
    (first : lookup host within limit n = (some found, n'))
    (rest : Lookups within limit hosts n' founds n'') :
    Lookups within limit (host :: hosts) n (found :: founds) n''

theorem Lookups.length_eq {hosts : List String} {founds : List (Except Failure (List Ip))}
    (h : Lookups within limit hosts n founds n') : founds.length = hosts.length := by
  induction h with
  | nil n => rfl
  | cons _ _ ih => exact congrArg (· + 1) ih

/-- Names are counted that stand for an address, each as often as it is listed. -/
theorem countResolving_eq_some {hosts : List String} {k : Nat}
    (h : countResolving within limit hosts n = (some k, n')) : ∃ founds,
      Lookups within limit hosts n founds n' ∧ k = founds.countP resolves := by
  induction hosts generalizing n k with
  | nil =>
    obtain ⟨rfl, rfl⟩ : 0 = k ∧ n = n' := by simpa [countResolving] using h
    exact ⟨[], .nil n, rfl⟩
  | cons host rest ih =>
    unfold countResolving at h
    split at h
    · cases h
    · next found n₁ hl =>
      split at h
      · cases h
      · next j n₂ hj =>
        obtain ⟨rfl, rfl⟩ : (if resolves found = true then j + 1 else j) = k ∧ n₂ = n' := by
          simpa using h
        obtain ⟨founds, hlookups, rfl⟩ := ih hj
        refine ⟨found :: founds, .cons hl hlookups, ?_⟩
        rw [List.countP_cons]
        split <;> rfl

/-- The names that are not found are those that are left. -/
theorem length_sub_countP (founds : List (Except Failure (List Ip))) :
    founds.length - founds.countP resolves = founds.countP fun found => !resolves found := by
  rw [List.length_eq_countP_add_countP resolves, Nat.add_sub_cancel_left]
  exact List.countP_congr fun found _ => by simp

/-! ## All together -/

/-- How the measurements of a run have gone. -/
structure Course (Link : Type) where
  /-- The attempts that the latency is taken from. -/
  attempts : List (Attempt Link)
  /-- The connection that the throughput is measured on, if it came to that. -/
  link : Option (Except Failure Link)
  /-- How it was read, if there was one. -/
  reading : Option Reading
  /-- What has come of looking up the names that should be found, and of those that should not. -/
  valid : List (Except Failure (List Ip))
  invalid : List (Except Failure (List Ip))

/-- As many attempts are made as are configured, one at least. Once one of them has succeeded, there
is another connection to be made. Once that could be read, all names are looked up. -/
inductive Course.Follows (s : Settings) (config : ProbeConfig) (limit : Option Span) (n : ν) :
    Course Link → ν → Prop
  | unreachable {attempts : List (Attempt Link)} {n₁ : ν}
    (number : attempts.length = max config.latencySamples 1)
    (made : Attempts s.target (stepLimit s) limit n attempts n₁)
    (failed : ∀ a ∈ attempts, a.succeeded = false) :
    Follows s config limit n ⟨attempts, none, none, [], []⟩ n₁
  | stopped {attempts : List (Attempt Link)} {n₁ n₂ : ν} {link : Except Failure Link}
    {reading : Option Reading} {f : Failure}
    (number : attempts.length = max config.latencySamples 1)
    (made : Attempts s.target (stepLimit s) limit n attempts n₁)
    (succeeded : ∃ a ∈ attempts, a.succeeded = true)
    (tried : Throughput config.throughputWindow (stepLimit s) limit s.target n₁ link reading
      (.error f) n₂) :
    Follows s config limit n ⟨attempts, some link, reading, [], []⟩ n₂
  | measured {attempts : List (Attempt Link)} {n₁ n₂ n₃ n₄ : ν} {link : Except Failure Link}
    {reading : Option Reading} {mbps : Binary64} {valid invalid : List (Except Failure (List Ip))}
    (number : attempts.length = max config.latencySamples 1)
    (made : Attempts s.target (stepLimit s) limit n attempts n₁)
    (succeeded : ∃ a ∈ attempts, a.succeeded = true)
    (read : Throughput config.throughputWindow (stepLimit s) limit s.target n₁ link reading
      (.ok mbps) n₂)
    (found : Lookups (stepLimit s) limit s.validDomains n₂ valid n₃)
    (missed : Lookups (stepLimit s) limit s.invalidDomains n₃ invalid n₄) :
    Follows s config limit n ⟨attempts, some link, reading, valid, invalid⟩ n₄

/-- What a course fails of. -/
inductive Course.Fails (c : Course Link) : Failure → Prop
  | unreachable {a : Attempt Link} {f : Failure} (failed : ∀ b ∈ c.attempts, b.succeeded = false)
    (last : c.attempts.getLast? = some a) (reason : a.result = .error f) : Fails c f
  | unlinked {f : Failure} (h : c.link = some (.error f)) : Fails c f
  | broken {r : Reading} {f : IoFault} (h : c.reading = some r) (fault : r.fault = some f) :
    Fails c (.io f)

/-- The metrics of a course: a latency and a throughput, and what has become of the names. -/
inductive Course.Measures (s : Settings) (c : Course Link) (m : Metrics) : Prop
  | intro {r : Reading} (read : c.reading = some r)
    (entries : m.entries = [
      ("dns_rejected", .number (.ofNat (c.invalid.countP fun found => !resolves found))),
      ("dns_resolved", .number (.ofNat (c.valid.countP resolves))),
      ("latency_ms", .number (meanTime c.attempts)),
      ("target", .text (s.throughputServer ++ ":" ++ toString s.port)),
      ("throughput_mbps", .number (rate r.pieces.sum r.taken))])

theorem entries_metrics (s : Settings) (latency throughput : Binary64) (resolved rejected : Nat) :
    (metrics s latency throughput resolved rejected).entries = [
      ("dns_rejected", .number (.ofNat rejected)), ("dns_resolved", .number (.ofNat resolved)),
      ("latency_ms", .number latency), ("target", .text s.target),
      ("throughput_mbps", .number throughput)] := by
  have hthroughput : "latency_ms" < "throughput_mbps" := by decide +kernel
  have hresolved : "dns_resolved" < "latency_ms" := by decide +kernel
  have hrejected : "dns_rejected" < "dns_resolved" := by decide +kernel
  have htarget : "target" < "throughput_mbps" := by decide +kernel
  have hlatency : "latency_ms" < "target" := by decide +kernel
  have hcounted : "dns_resolved" < "target" := String.lt_trans hresolved hlatency
  have hleft : "dns_rejected" < "target" := String.lt_trans hrejected hcounted
  change Metrics.insertEntry "target" _ (Metrics.insertEntry "dns_rejected" _
    (Metrics.insertEntry "dns_resolved" _ (Metrics.insertEntry "throughput_mbps" _
      [("latency_ms", _)]))) = _
  rw [Metrics.insertEntry_of_gt hthroughput, Metrics.insertEntry,
    Metrics.insertEntry_of_lt hresolved, Metrics.insertEntry_of_lt hrejected,
    Metrics.insertEntry_of_gt hleft, Metrics.insertEntry_of_gt hcounted,
    Metrics.insertEntry_of_gt hlatency, Metrics.insertEntry_of_lt htarget]

/-- Without a single success it is the last attempt that a course fails of. -/
theorem fails_iff_of_latency {attempts : List (Attempt Link)} {f g : Failure}
    (h : Latency attempts (.error f)) :
    f = g ↔ Course.Fails ⟨attempts, none, none, [], []⟩ g := by
  cases h with
  | @unreachable a _ failed last reason =>
    constructor
    · rintro rfl
      exact .unreachable failed last reason
    · intro hg
      cases hg with
      | @unreachable b _ _ last' reason' =>
        obtain rfl : a = b := Option.some.inj (last.symm.trans last')
        exact Except.error.inj (reason.symm.trans reason')
      | unlinked h => cases h
      | broken h _ => cases h

/-- After a success it is the connection for the throughput that a course fails of. -/
theorem fails_iff_of_throughput {attempts : List (Attempt Link)} {link : Except Failure Link}
    {reading : Option Reading} {r : Except Failure Binary64}
    (hs : ∃ a ∈ attempts, a.succeeded = true)
    (h : Throughput window within limit address n link reading r n')
    (valid invalid : List (Except Failure (List Ip))) (f : Failure) :
    r = .error f ↔ Course.Fails ⟨attempts, some link, reading, valid, invalid⟩ f := by
  constructor
  · rintro rfl
    cases h with
    | unlinked => exact .unlinked rfl
    | broken => exact .broken rfl rfl
  · intro hf
    cases hf with
    | unreachable failed _ _ =>
      obtain ⟨a, hmem, hok⟩ := hs
      cases (failed a hmem).symm.trans hok
    | unlinked hlink =>
      obtain rfl := Option.some.inj hlink
      cases h
      rfl
    | broken hread hfault =>
      obtain rfl : reading = some _ := hread
      cases h with
      | broken => rw [Option.some.inj hfault]
      | measured => cases hfault

variable {s : Settings} {config : ProbeConfig}

/-- Measurements that have come to an end have taken one of the courses, and what they have come to
is what it fails of or the metrics of it. -/
theorem course_of_run {result : Except Failure Metrics}
    (h : run s config limit n = (some result, n')) : ∃ course : Course Link,
      course.Follows s config limit n n' ∧ (∀ f, result = .error f ↔ course.Fails f) ∧
        ∀ m, result = .ok m → course.Measures s m := by
  unfold run at h
  dsimp only at h
  split at h
  · cases h
  · next f n₁ hl =>
    obtain ⟨rfl, rfl⟩ : .error f = result ∧ n₁ = n' := by simpa using h
    obtain ⟨attempts, hnumber, hmade, hlatency⟩ := latency_eq_some hl
    have hfails := fun g => fails_iff_of_latency (g := g) hlatency
    cases hlatency with
    | unreachable failed _ _ =>
      exact ⟨_, .unreachable hnumber hmade failed,
        fun g => ⟨fun hg => (hfails g).1 (Except.error.inj hg), fun hg => by rw [(hfails g).2 hg]⟩,
        nofun⟩
  · next ms n₁ hl =>
    obtain ⟨attempts, hnumber, hmade, hlatency⟩ := latency_eq_some hl
    cases hlatency with
    | measured hmem hok =>
      have hsome : ∃ a ∈ attempts, a.succeeded = true := ⟨_, hmem, hok⟩
      split at h
      · cases h
      · next f n₂ ht =>
        obtain ⟨rfl, rfl⟩ : .error f = result ∧ n₂ = n' := by simpa using h
        obtain ⟨link, reading, hthroughput⟩ := throughput_eq_some ht
        have hfails := fails_iff_of_throughput hsome hthroughput [] []
        refine ⟨_, .stopped hnumber hmade hsome hthroughput, fun g => ?_, nofun⟩
        rw [← hfails g, Except.error.injEq, Except.error.injEq]
      · next mbps n₂ ht =>
        obtain ⟨link, reading, hthroughput⟩ := throughput_eq_some ht
        split at h
        · cases h
        · next resolved n₃ hv =>
          obtain ⟨valid, hvalid, rfl⟩ := countResolving_eq_some hv
          split at h
          · cases h
          · next found n₄ hi =>
            obtain ⟨invalid, hinvalid, rfl⟩ := countResolving_eq_some hi
            obtain ⟨rfl, rfl⟩ : .ok _ = result ∧ n₄ = n' := by simpa using h
            have hfails := fails_iff_of_throughput hsome hthroughput valid invalid
            refine ⟨_, .measured hnumber hmade hsome hthroughput hvalid hinvalid, fun g => ?_,
              fun m hm => ?_⟩
            · rw [← hfails g]
              exact ⟨nofun, nofun⟩
            · obtain rfl := Except.ok.inj hm
              rw [← hinvalid.length_eq, length_sub_countP]
              cases hthroughput
              exact .intro rfl (entries_metrics _ _ _ _ _)

/-- Measurements come to an end if nothing cuts them short. They fail exactly if no attempt has
succeeded, and then of the last one, or of the connection for the throughput, or of reading from it.
Otherwise there are five metrics, among them the count of the names that were found and the count of
those that were not, which is never less than zero. -/
theorem outcome_of_run (s : Settings) (config : ProbeConfig) (n : ν) :
    (∃ result n', run s config none n = (some result, n')) ∧
    (∀ limit result n', run s config limit n = (some result, n') → ∃ course : Course Link,
      course.Follows s config limit n n' ∧ (∀ f, result = .error f ↔ course.Fails f) ∧
        ∀ m, result = .ok m → course.Measures s m) ∧
    ∀ limit (n' n'' : ν) found, countResolving (stepLimit s) limit s.invalidDomains n' =
      (some found, n'') → found ≤ s.invalidDomains.length := by
  refine ⟨?_, fun limit result n' => course_of_run, fun limit n' n'' found h => ?_⟩
  · obtain ⟨result, n', h, -⟩ := over_run s config n
    exact ⟨result, n', h⟩
  · obtain ⟨founds, hlookups, rfl⟩ := countResolving_eq_some h
    rw [← hlookups.length_eq]
    exact List.countP_le_length

/-- A network that does one thing after the other as laid down: how many nanoseconds the next
connection, the next piece or the next name takes, and what comes of it. -/
structure Script where
  now : Span
  connections : List (Nat × Except IoFault Unit)
  pieces : List (Nat × Except IoFault Nat)
  names : List (Nat × Except IoFault (List Ip))

namespace Script

/-- What comes of something that takes its time, and the moment when it is done or given up. -/
def outcome {α : Type} (s : Script) (due : Span) :
    Nat × Except IoFault α → Option (Except IoFault α) × Span
  | (taken, r) =>
    if s.now.nanos + taken ≤ due.nanos then (some r, ⟨s.now.nanos + taken⟩) else (none, due)

def connect (due : Span) (s : Script) : Option (Except IoFault Unit) × Script :=
  match s.connections with
  | [] => (none, { s with now := due })
  | c :: r => ((s.outcome due c).1, { s with now := (s.outcome due c).2, connections := r })

def read (due : Span) (s : Script) : Option (Except IoFault (Nat × Unit)) × Script :=
  match s.pieces with
  | [] => (none, { s with now := due })
  | p :: r =>
    ((s.outcome due p).1.map (·.map (·, ())), { s with now := (s.outcome due p).2, pieces := r })

def lookup (due : Span) (s : Script) : Option (Except IoFault (List Ip)) × Script :=
  match s.names with
  | [] => (none, { s with now := due })
  | n :: r => ((s.outcome due n).1, { s with now := (s.outcome due n).2, names := r })

/-- All the bytes that are laid down. -/
def bytes (s : Script) : Nat := (s.pieces.map fun p => p.2.toOption.getD 0).sum

theorem add_bytes_le_of_read {due : Span} {s s' : Script} {k : Nat}
    (h : s.read due = (some (.ok (k, ())), s')) : k + s'.bytes ≤ s.bytes := by
  obtain ⟨now, connections, _ | ⟨⟨taken, f | j⟩, r⟩, names⟩ := s
  · cases h
  · simp only [read, outcome] at h
    split at h <;> cases h
  · simp only [read, outcome] at h
    split at h <;> cases h
    exact Nat.le_refl _

instance : Medium Script Unit where
  now s := s.now
  connect _ := connect
  read _ due _ := read due
  lookup _ := lookup
  remaining _ _ := bytes
  add_remaining_le := add_bytes_le_of_read

end Script

/-- Orders that list a name twice, and among the names that should not be found one that is. -/
def sampleSettings : Settings :=
  ⟨1, 2, ["here", "here"], ["here", "empty", "nowhere"], "127.0.0.1", 40002, 0⟩

/-- A target that is not reached at first and then too late, and after that as further laid down.
It sends seven bytes in three tenths of a second. A name is found, then not, then found again. -/
def sampleScript (more : List (Nat × Except IoFault Unit)) : Script where
  now := .zero
  connections := (5000000, .error (.numbered 111)) :: (2000000000, .ok ()) :: more
  pieces := [(100000000, .ok 3), (200000000, .ok 4), (0, .ok 0)]
  names := [(1000000, .ok [.v4 127 0 0 1]), (1000000, .error Network.unknownName),
    (1000000, .ok [.v4 127 0 0 1]), (0, .ok [])]

/-- The connections that are made in the end. -/
def sampleReached : List (Nat × Except IoFault Unit) := [(3000000, .ok ()), (1000000, .ok ())]

/-- With mixed outcomes there are metrics; if all attempts fail, it is of the last. -/
theorem outcome_of_sampleScript :
    (∃ m course s', run sampleSettings ⟨3, 400⟩ none (sampleScript sampleReached) =
        (some (.ok m), s') ∧
      Course.Follows sampleSettings ⟨3, 400⟩ none (sampleScript sampleReached) course s' ∧
      course.Measures sampleSettings m ∧
      m.entries = [("dns_rejected", .number (.ofNat 2)), ("dns_resolved", .number (.ofNat 1)),
        ("latency_ms", .number (.ofNat 3)), ("target", .text "127.0.0.1:40002"),
        ("throughput_mbps",
          .number (.ofRatio false 1866666666666667 10000000000000000000))]) ∧
    ∃ course s', run sampleSettings ⟨2, 400⟩ none (sampleScript []) =
        (some (.error (.timeout (.ofSeconds 1))), s') ∧
      Course.Follows sampleSettings ⟨2, 400⟩ none (sampleScript []) course s' ∧
      course.Fails (.timeout (.ofSeconds 1)) := by
  constructor
  · have hrun : ∃ m s', run sampleSettings ⟨3, 400⟩ none (sampleScript sampleReached) =
        (some (.ok m), s') ∧
      m.entries = [("dns_rejected", .number (.ofNat 2)), ("dns_resolved", .number (.ofNat 1)),
        ("latency_ms", .number (.ofNat 3)), ("target", .text "127.0.0.1:40002"),
        ("throughput_mbps",
          .number (.ofRatio false 1866666666666667 10000000000000000000))] :=
      ⟨_, _, rfl, by decide +kernel⟩
    obtain ⟨m, s', hm, hentries⟩ := hrun
    obtain ⟨course, hfollows, -, hmeasures⟩ :=
      (outcome_of_run sampleSettings ⟨3, 400⟩ (sampleScript sampleReached)).2.1 none _ _ hm
    exact ⟨m, course, s', hm, hfollows, hmeasures m rfl, hentries⟩
  · have hrun : ∃ s', run sampleSettings ⟨2, 400⟩ none (sampleScript []) =
        (some (.error (.timeout (.ofSeconds 1))), s') := ⟨_, rfl⟩
    obtain ⟨s', hs⟩ := hrun
    obtain ⟨course, hfollows, hfails, -⟩ :=
      (outcome_of_run sampleSettings ⟨2, 400⟩ (sampleScript [])).2.1 none _ _ hs
    exact ⟨course, s', hs, hfollows, (hfails _).1 rfl⟩

end LinkTest.Probe
