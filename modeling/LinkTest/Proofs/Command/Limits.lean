import LinkTest.Command.Basic
import LinkTest.Proofs.Config.Saving

/-!
# The time that a test may take

The limit of a call and the deadline of a test are computed from a configuration that is taken as
it was read. They exist for all but the longest exchanges, and where the deadline does not exist the
command ends without having made a test. Where it does, it leaves both calls their time.
-/

namespace LinkTest

namespace Span

theorem checked_eq_some_iff {s t : Span} : s.checked = some t ↔ s.Fits ∧ s = t := by
  unfold checked
  split <;> simp_all

theorem times?_eq_some_iff {s t : Span} {n : Nat} :
    s.times? n = some t ↔ t.Fits ∧ t.nanos = n * s.nanos := by
  obtain ⟨nanos⟩ := t
  rw [times?, checked_eq_some_iff, Span.mk.injEq]
  constructor
  · rintro ⟨h, rfl⟩
    exact ⟨h, rfl⟩
  · rintro ⟨h, rfl⟩
    exact ⟨h, rfl⟩

theorem plus?_eq_some_iff {s t u : Span} :
    s.plus? t = some u ↔ u.Fits ∧ u.nanos = s.nanos + t.nanos := by
  obtain ⟨nanos⟩ := u
  rw [plus?, checked_eq_some_iff, Span.mk.injEq]
  constructor
  · rintro ⟨h, rfl⟩
    exact ⟨h, rfl⟩
  · rintro ⟨h, rfl⟩
    exact ⟨h, rfl⟩

/-- What is shorter than a span that can be kept can be kept. -/
theorem Fits.mono {s t : Span} (h : t.Fits) (hle : s.nanos ≤ t.nanos) : s.Fits :=
  Nat.lt_of_le_of_lt hle h

end Span

namespace Command

variable {c : Config}

/-- Four exchanges and one round of measurements. -/
def callTime (c : Config) : Span :=
  ⟨4 * c.exchangeTimeout.nanos + c.probe.throughputWindow.nanos⟩

/-- Two calls. -/
def testTime (c : Config) : Span := ⟨2 * (callTime c).nanos⟩

theorem callLimit?_eq_some_iff {s : Span} :
    callLimit? c = some s ↔ s.Fits ∧ s = callTime c := by
  obtain ⟨nanos⟩ := s
  simp only [callLimit?, Option.bind_eq_some_iff, Span.times?_eq_some_iff,
    Span.plus?_eq_some_iff, callTime, Span.mk.injEq]
  constructor
  · rintro ⟨t, ⟨-, ht⟩, hfits, hn⟩
    exact ⟨hfits, by omega⟩
  · rintro ⟨hfits, hn⟩
    -- The exchanges alone take no longer than the whole.
    have hle : 4 * c.exchangeTimeout.nanos ≤ nanos := by omega
    exact ⟨⟨4 * c.exchangeTimeout.nanos⟩, ⟨hfits.mono hle, rfl⟩, hfits, hn⟩

theorem deadline?_eq_some_iff {s : Span} :
    deadline? c = some s ↔ s.Fits ∧ s = testTime c := by
  obtain ⟨nanos⟩ := s
  simp only [deadline?, Option.bind_eq_some_iff, callLimit?_eq_some_iff, Span.times?_eq_some_iff,
    testTime, Span.mk.injEq]
  constructor
  · rintro ⟨t, ⟨-, rfl⟩, hfits, hn⟩
    exact ⟨hfits, hn⟩
  · rintro ⟨hfits, rfl⟩
    refine ⟨callTime c, ⟨hfits.mono ?_, rfl⟩, hfits, rfl⟩
    exact Nat.le_mul_of_pos_left _ (by decide)

theorem deadline?_of_fits (h : (testTime c).Fits) : deadline? c = some (testTime c) :=
  deadline?_eq_some_iff.2 ⟨h, rfl⟩

theorem deadline?_of_not_fits (h : ¬(testTime c).Fits) : deadline? c = none := by
  cases hd : deadline? c with
  | none => rfl
  | some d =>
    obtain ⟨hfits, rfl⟩ := deadline?_eq_some_iff.1 hd
    exact absurd hfits h

theorem callLimit?_of_fits (h : (testTime c).Fits) : callLimit? c = some (callTime c) :=
  callLimit?_eq_some_iff.2
    ⟨h.mono (Nat.le_mul_of_pos_left _ (by decide)), rfl⟩

/-- A test is made exactly if there is a deadline for it. -/
theorem test?_eq_none_iff {json : Bool} {n : Network} {stamps : Nat → Stamp} {log : Log} :
    test? c json n stamps log = none ↔ ¬(testTime c).Fits := by
  by_cases h : (testTime c).Fits
  · simp [test?, callLimit?_of_fits h, deadline?_of_fits h, h]
  · simp [test?, deadline?_of_not_fits h, h]

/-- The command breaks off exactly if there is none. -/
theorem exit_eq_overflow_iff {files : FileTree} {path : String}
    (hc : (Config.load files path).1 = .ok c) (server : Option String) (json : Bool)
    (w : Surroundings) (log : Log) :
    (runTest path server json w files log).exit = .overflow ↔ ¬(testTime c).Fits := by
  -- The address of the server plays no part in the times.
  have htest (log : Log) : test? { c with server := server.getD c.server } json w.network w.stamps
      log = none ↔ ¬(testTime c).Fits := test?_eq_none_iff
  simp only [runTest, hc]
  rw [← htest ((log.addAll (Config.load files path).2).add
    (startNote { c with server := server.getD c.server } json))]
  cases test? { c with server := server.getD c.server } json w.network w.stamps _ with
  | none => simp
  | some t =>
    simp only [reduceCtorEq, iff_false]
    split <;> simp

/-- The worker that is set up gives each of its calls the limit. -/
theorem limit_of_setUp (limit : Span) (n : Network) (stamps : Nat → Stamp) (log : Log) :
    ((Bench.setUp c limit n stamps log).station.worker? 0).map Worker.limit = some limit := rfl

/-- Exchanges of up to 999/1000 of an eighth of the longest span leave room for any window that can
be written down; those of an eighth leave none. -/
theorem fits_of_short (hwindow : c.probe.throughputWindowMillis < Nat.pow 2 63)
    (h : 1000 * c.exchangeTimeoutSeconds ≤ 999 * Nat.pow 2 61) : (testTime c).Fits := by
  change 2 * (4 * (1000000000 * c.exchangeTimeoutSeconds) +
    1000000 * c.probe.throughputWindowMillis) < Nat.pow 2 64 * 1000000000
  simp only [Nat.pow_eq, Nat.reducePow] at hwindow h ⊢
  omega

theorem not_fits_of_long (h : Nat.pow 2 61 ≤ c.exchangeTimeoutSeconds) : ¬(testTime c).Fits := by
  change ¬2 * (4 * (1000000000 * c.exchangeTimeoutSeconds) +
    1000000 * c.probe.throughputWindowMillis) < Nat.pow 2 64 * 1000000000
  simp only [Nat.pow_eq, Nat.reducePow] at h ⊢
  omega

/-- A configuration that was loaded has a limit for its calls and a deadline for its test if two
calls fit into the longest span, as they do if the exchanges are short enough, whatever the window.
The deadline is then the time of both calls. Otherwise, as with all exchanges that are too long, the
command breaks off. -/
theorem limits_of_load {files : FileTree} {path : String}
    (h : (Config.load files path).1 = .ok c) :
    ((testTime c).Fits → ∃ limit deadline, callLimit? c = some limit ∧ deadline? c = some deadline ∧
      limit.nanos = 4 * c.exchangeTimeout.nanos + c.probe.throughputWindow.nanos ∧
      deadline.nanos = limit.nanos + limit.nanos ∧
      ∀ n stamps log,
        ((Bench.setUp c limit n stamps log).station.worker? 0).map Worker.limit = some limit) ∧
    (¬(testTime c).Fits → deadline? c = none) ∧
    (1000 * c.exchangeTimeoutSeconds ≤ 999 * Nat.pow 2 61 → (testTime c).Fits) ∧
    (Nat.pow 2 61 ≤ c.exchangeTimeoutSeconds → ¬(testTime c).Fits) ∧
    ∀ server json w log,
      (runTest path server json w files log).exit = .overflow ↔ ¬(testTime c).Fits := by
  refine ⟨fun hfits => ?_, deadline?_of_not_fits, ?_, not_fits_of_long, exit_eq_overflow_iff h⟩
  · exact ⟨callTime c, testTime c, callLimit?_of_fits hfits, deadline?_of_fits hfits, rfl,
      Nat.two_mul _, limit_of_setUp _⟩
  · exact fits_of_short (Config.hasForm_of_load h).1.2

/-- A folder with one file, in which exchanges are given so many seconds. -/
def folderWith (seconds : String) : FileTree :=
  ⟨[(["link.toml"], .file ("exchange_timeout_secs = " ++ seconds ++ "\n").toUTF8)], []⟩

theorem limits_of_longest : ∃ c : Config,
    (Config.load (folderWith "2303537003804519727") "link.toml").1 = .ok c ∧
      c.exchangeTimeoutSeconds = 2303537003804519727 ∧
      ∃ limit deadline, callLimit? c = some limit ∧ deadline? c = some deadline ∧
        deadline.nanos = limit.nanos + limit.nanos := by
  have h : (Config.load (folderWith "2303537003804519727") "link.toml").1 =
      .ok { Config.default with exchangeTimeoutSeconds := 2303537003804519727 } :=
    eq_ok_of_toOption (by decide +kernel)
  obtain ⟨hall, -, hshort, -⟩ := limits_of_load h
  obtain ⟨limit, deadline, hl, hd, -, hsum, -⟩ := hall (hshort (by decide))
  exact ⟨_, h, rfl, limit, deadline, hl, hd, hsum⟩

/-- Not every configuration that is accepted can be worked with: this one is read, and no test can
be made with it. -/
theorem not_limited_of_load : ∃ c : Config,
    (Config.load (folderWith "2305843009213693952") "link.toml").1 = .ok c ∧
      deadline? c = none ∧ ∀ server json w log,
        (runTest "link.toml" server json w (folderWith "2305843009213693952") log).exit =
          .overflow := by
  have h : (Config.load (folderWith "2305843009213693952") "link.toml").1 =
      .ok { Config.default with exchangeTimeoutSeconds := 2305843009213693952 } :=
    eq_ok_of_toOption (by decide +kernel)
  have hlong : ¬(testTime { Config.default with
      exchangeTimeoutSeconds := 2305843009213693952 }).Fits := not_fits_of_long (by decide)
  exact ⟨_, h, deadline?_of_not_fits hlong,
    fun server json w log => (exit_eq_overflow_iff h server json w log).2 hlong⟩

end Command
end LinkTest
