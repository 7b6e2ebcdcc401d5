import LinkTest.Probe

/-!
# What measurements keep

Measurements do nothing to a network but connect, read and look names up. A relation between its
states that each of these keeps, and that can be chained, is kept by all measurements together,
however often they do what.
-/

namespace LinkTest.Probe

variable {ν Link : Type} [Medium ν Link] {limit : Option Span} {R : ν → ν → Prop}

/-- A relation that can be chained and that is kept by whatever is done under a limit. -/
structure Kept (limit : Option Span) (R : ν → ν → Prop) : Prop where
  refl : ∀ n, R n n
  trans : ∀ {n n' n''}, R n n' → R n' n'' → R n n''
  connect : ∀ address timer n, R n (Medium.connect address (dueBy timer limit) n).2
  read : ∀ most timer (c : Link) n, R n (Medium.read most (dueBy timer limit) c n).2
  lookup : ∀ host timer n, R n (Medium.lookup host (dueBy timer limit) n).2

theorem kept_attempt {α : Type} {act : Span → ν → Option (Except IoFault α) × ν}
    (h : ∀ timer n, R n (act (dueBy timer limit) n).2) (within : Span) (n : ν) :
    R n (attempt within limit act n).2 := by
  have ha := h ⟨(Medium.now n).nanos + within.nanos⟩ n
  unfold attempt
  dsimp only
  generalize act (dueBy ⟨(Medium.now n).nanos + within.nanos⟩ limit) n = p at ha
  obtain ⟨_ | (f | a), n'⟩ := p
  · dsimp only
    split <;> exact ha
  · exact ha
  · exact ha

namespace Kept

theorem sample (h : Kept limit R) (address : String) (within : Span) (k : Nat) (s : Samples)
    (n : ν) : R n (Probe.sample address within limit k s n).2 := by
  induction k generalizing s n with
  | zero => exact h.refl n
  | succ k ih =>
    have hc : R n (Probe.connect address within limit n).2 :=
      kept_attempt (h.connect address) within n
    unfold Probe.sample
    dsimp only
    generalize Probe.connect address within limit n = p at hc
    obtain ⟨_ | r, n'⟩ := p
    · exact hc
    · exact h.trans hc (ih _ n')

theorem latency (h : Kept limit R) (address : String) (samples : Nat) (within : Span) (n : ν) :
    R n (Probe.latency address samples within limit n).2 := by
  have hs := h.sample address within (max samples 1) .none n
  unfold Probe.latency
  generalize Probe.sample address within limit (max samples 1) .none n = p at hs
  obtain ⟨_ | s, n'⟩ := p <;> exact hs

theorem drainFuel (h : Kept limit R) (deadline : Span) (fuel bytes : Nat) (c : Link) (n : ν) :
    R n (Probe.drainFuel deadline limit fuel bytes c n).2 := by
  induction fuel generalizing bytes c n with
  | zero => exact h.refl n
  | succ fuel ih =>
    have hr := h.read bufferSize deadline c n
    unfold Probe.drainFuel
    generalize Medium.read bufferSize (dueBy deadline limit) c n = p at hr
    obtain ⟨_ | (f | ⟨_ | k, c'⟩), n'⟩ := p
    · dsimp only
      split <;> exact hr
    · exact hr
    · exact hr
    · exact h.trans hr (ih _ c' n')

theorem throughput (h : Kept limit R) (address : String) (window within : Span) (n : ν) :
    R n (Probe.throughput address window within limit n).2 := by
  have hc : R n (Probe.connect address within limit n).2 :=
    kept_attempt (h.connect address) within n
  unfold Probe.throughput
  generalize Probe.connect address within limit n = p at hc
  obtain ⟨_ | (f | c), n'⟩ := p
  · exact hc
  · exact hc
  · have hd : R n' (drain ⟨(Medium.now n').nanos + window.nanos⟩ limit 0 c n').2 :=
      h.drainFuel _ _ _ c n'
    dsimp only
    generalize drain ⟨(Medium.now n').nanos + window.nanos⟩ limit 0 c n' = p at hd
    obtain ⟨_ | (f | bytes), n''⟩ := p <;> exact h.trans hc hd

theorem countResolving (h : Kept limit R) (within : Span) (hosts : List String) (n : ν) :
    R n (Probe.countResolving within limit hosts n).2 := by
  induction hosts generalizing n with
  | nil => exact h.refl n
  | cons host rest ih =>
    have hl : R n (Probe.lookup host within limit n).2 := kept_attempt (h.lookup host) within n
    unfold Probe.countResolving
    generalize Probe.lookup host within limit n = p at hl
    obtain ⟨_ | found, n'⟩ := p
    · exact hl
    · have hrest := h.trans hl (ih n')
      dsimp only
      generalize Probe.countResolving within limit rest n' = q at hrest
      obtain ⟨_ | k, n''⟩ := q <;> exact hrest

/-- All measurements together keep the relation. -/
theorem run (h : Kept limit R) (s : Settings) (config : ProbeConfig) (n : ν) :
    R n (Probe.run s config limit n).2 := by
  have hl := h.latency s.target config.latencySamples (stepLimit s) n
  unfold Probe.run
  dsimp only
  generalize Probe.latency s.target config.latencySamples (stepLimit s) limit n = p at hl
  obtain ⟨_ | (f | ms), n₁⟩ := p
  · exact hl
  · exact hl
  · have ht := h.trans hl (h.throughput s.target config.throughputWindow (stepLimit s) n₁)
    dsimp only
    generalize Probe.throughput s.target config.throughputWindow (stepLimit s) limit n₁ = p at ht
    obtain ⟨_ | (f | mbps), n₂⟩ := p
    · exact ht
    · exact ht
    · have hv := h.trans ht (h.countResolving (stepLimit s) s.validDomains n₂)
      dsimp only
      generalize Probe.countResolving (stepLimit s) limit s.validDomains n₂ = p at hv
      obtain ⟨_ | resolved, n₃⟩ := p
      · exact hv
      · have hi := h.trans hv (h.countResolving (stepLimit s) s.invalidDomains n₃)
        dsimp only
        generalize Probe.countResolving (stepLimit s) limit s.invalidDomains n₃ = p at hi
        obtain ⟨_ | found, n₄⟩ := p <;> exact hi

end Kept
end LinkTest.Probe
