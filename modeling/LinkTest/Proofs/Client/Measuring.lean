import LinkTest.Probe

/-!
# Measurements that may take their time

With no limit on them, measurements come to an end, whatever the network does, and only a failure of
the transport makes them fail.
-/

namespace LinkTest

/-- Whether the failure is one of the network itself, or of waiting for it. -/
def Failure.isTransport : Failure → Bool
  | io _ | timeout _ => true
  | _ => false

namespace Probe

variable {ν Link : Type} [Medium ν Link]

/-- A measurement is over, and if it has failed, then because of the network. -/
def Over {α : Type} (p : Timed ν (Except Failure α)) : Prop :=
  ∃ result n, p = (some result, n) ∧ ∀ f, result = .error f → f.isTransport = true

theorem over_ok {α : Type} (x : α) (n : ν) : Over (some (.ok x), n) := ⟨_, n, rfl, nofun⟩

theorem over_error {α : Type} {f : Failure} (hf : f.isTransport = true) (n : ν) :
    Over (α := α) (some (.error f), n) :=
  ⟨_, n, rfl, fun _ h => Except.error.inj h ▸ hf⟩

theorem over_attempt {α : Type} (within : Span)
    (act : Span → ν → Option (Except IoFault α) × ν) (n : ν) : Over (attempt within none act n) := by
  unfold attempt
  dsimp only
  split
  · exact over_ok _ _
  · exact over_error rfl _
  · exact over_error rfl _

theorem exists_sample (address : String) (within : Span) (k : Nat) (s : Samples) (n : ν)
    (hs : ∀ f, s.lastFailure = some f → f.isTransport = true) :
    ∃ s' n', sample address within none k s n = (some s', n') ∧
      ∀ f, s'.lastFailure = some f → f.isTransport = true := by
  induction k generalizing s n with
  | zero => exact ⟨s, n, rfl, hs⟩
  | succ k ih =>
    obtain ⟨result, n', hc, hf⟩ := over_attempt within (Medium.connect address) n
    simp only [sample, connect, hc]
    refine ih _ _ fun f hlast => ?_
    cases result with
    | ok c => exact hs f hlast
    | error g => exact hf f (congrArg Except.error (Option.some.inj hlast))

theorem over_latency (address : String) (samples : Nat) (within : Span) (n : ν) :
    Over (latency address samples within none n) := by
  obtain ⟨s, n', hs, hf⟩ := exists_sample address within (max samples 1) .none n nofun
  simp only [latency, hs, Samples.mean]
  split
  · refine over_error ?_ _
    cases hlast : s.lastFailure with
    | none => rfl
    | some f => exact hf f hlast
  · exact over_ok _ _

theorem over_drainFuel (deadline : Span) (fuel bytes : Nat) (c : Link) (n : ν) :
    Over (drainFuel deadline none fuel bytes c n) := by
  induction fuel generalizing bytes c n with
  | zero => exact over_ok _ _
  | succ fuel ih =>
    unfold drainFuel
    split
    · exact over_error rfl _
    · exact over_ok _ _
    · exact ih _ _ _
    · exact over_ok _ _

theorem over_throughput (address : String) (window within : Span) (n : ν) :
    Over (throughput address window within none n) := by
  obtain ⟨result, n', hc, hf⟩ := over_attempt within (Medium.connect address) n
  simp only [throughput, connect, hc]
  cases result with
  | error f => exact over_error (hf f rfl) _
  | ok c =>
    obtain ⟨result, n'', hd, hf⟩ := over_drainFuel ⟨(Medium.now n').nanos + window.nanos⟩
      (Medium.remaining (dueBy ⟨(Medium.now n').nanos + window.nanos⟩ none) c n' + 1) 0 c n'
    simp only [drain, hd]
    cases result with
    | error f => exact over_error (hf f rfl) _
    | ok bytes => exact over_ok _ _

theorem exists_countResolving (within : Span) (hosts : List String) (n : ν) :
    ∃ k n', countResolving within none hosts n = (some k, n') := by
  induction hosts generalizing n with
  | nil => exact ⟨_, _, rfl⟩
  | cons host rest ih =>
    obtain ⟨found, n', hl, -⟩ := over_attempt within (Medium.lookup host) n
    obtain ⟨k, n'', hk⟩ := ih n'
    simp only [countResolving, lookup, hl, hk]
    exact ⟨_, _, rfl⟩

theorem over_run (s : Settings) (config : ProbeConfig) (n : ν) :
    Over (run s config none n) := by
  obtain ⟨latency, n₁, hl, hlf⟩ := over_latency s.target config.latencySamples (stepLimit s) n
  unfold run
  simp only [hl]
  cases latency with
  | error f => exact over_error (hlf f rfl) _
  | ok ms =>
    obtain ⟨throughput, n₂, ht, htf⟩ :=
      over_throughput s.target config.throughputWindow (stepLimit s) n₁
    simp only [ht]
    cases throughput with
    | error f => exact over_error (htf f rfl) _
    | ok mbps =>
      obtain ⟨resolved, n₃, hr⟩ := exists_countResolving (stepLimit s) s.validDomains n₂
      obtain ⟨found, n₄, hi⟩ := exists_countResolving (stepLimit s) s.invalidDomains n₃
      simp only [hr, hi]
      exact over_ok _ _

end Probe

end LinkTest
