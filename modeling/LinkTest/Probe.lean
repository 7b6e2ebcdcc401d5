import LinkTest.Binary64.Sum
import LinkTest.Config.Basic
import LinkTest.Medium
import LinkTest.Record.Metrics
import LinkTest.Settings

/-!
# Measurements

The latency is the mean time of the connections that could be made, the throughput what can be
read from the target within a window, and names are counted that can be looked up or cannot. Only
an unreachable target makes the measurements fail; what becomes of names is counted and never a
failure. All of it may be cut short by a limit.
-/

namespace LinkTest

/-- The time in seconds: its whole seconds and the rest of it, each rounded, and their sum. -/
def Span.inSeconds (s : Span) : Binary64 :=
  (Binary64.ofNat (s.nanos / 1000000000)).add
    ((Binary64.ofNat (s.nanos % 1000000000)).div (Binary64.ofNat 1000000000))

namespace Probe

variable {ν Link : Type} [Medium ν Link]

/-- The measurements are made in a network, some of them for nothing if the limit comes first. -/
abbrev Timed (ν α : Type) := Option α × ν

/-- Does what can be done within a span: what comes of it, or that it takes too long. -/
def attempt {α : Type} (within : Span) (limit : Option Span)
    (act : Span → ν → Option (Except IoFault α) × ν) (n : ν) : Timed ν (Except Failure α) :=
  let timer : Span := ⟨(Medium.now n).nanos + within.nanos⟩
  match act (dueBy timer limit) n with
  | (some (.ok a), n) => (some (.ok a), n)
  | (some (.error f), n) => (some (.error (.io f)), n)
  | (none, n) => if heedsTimer timer limit then (some (.error (.timeout within)), n) else (none, n)

/-- Connects within a span. -/
def connect (address : String) (within : Span) (limit : Option Span) (n : ν) :
    Timed ν (Except Failure Link) :=
  attempt within limit (Medium.connect address) n

/-- Looks a name up within a span. -/
def lookup (host : String) (within : Span) (limit : Option Span) (n : ν) :
    Timed ν (Except Failure (List Ip)) :=
  attempt within limit (Medium.lookup host) n

/-! ## Latency -/

/-- What the attempts have come to so far. -/
structure Samples where
  /-- The time that those that succeeded have taken. -/
  total : Span
  succeeded : Nat
  lastFailure : Option Failure

def Samples.none : Samples := ⟨.zero, 0, .none⟩

def Samples.add (s : Samples) (taken : Span) : Except Failure Link → Samples
  | .ok _ => { s with total := ⟨s.total.nanos + taken.nanos⟩, succeeded := s.succeeded + 1 }
  | .error f => { s with lastFailure := some f }

def sample (address : String) (within : Span) (limit : Option Span) :
    Nat → Samples → ν → Timed ν Samples
  | 0, s, n => (some s, n)
  | k + 1, s, n =>
    let start := Medium.now n
    match connect address within limit n with
    | (none, n) => (none, n)
    | (some r, n) =>
      sample address within limit k (s.add ⟨(Medium.now n).nanos - start.nanos⟩ r) n

/-- A total time over a number, in milliseconds. -/
def mean (total : Span) (number : Nat) : Binary64 :=
  (total.inSeconds.mul (.ofNat 1000)).div (.ofNat number)

/-- The mean in milliseconds, or the last failure if no attempt has succeeded. -/
def Samples.mean (within : Span) (s : Samples) : Except Failure Binary64 :=
  if s.succeeded = 0 then .error (s.lastFailure.getD (.timeout within))
  else .ok (Probe.mean s.total s.succeeded)

def latency (address : String) (samples : Nat) (within : Span) (limit : Option Span) (n : ν) :
    Timed ν (Except Failure Binary64) :=
  match sample address within limit (max samples 1) .none n with
  | (none, n) => (none, n)
  | (some s, n) => (some (s.mean within), n)

/-! ## Throughput -/

/-- How many bytes are read at once. -/
def bufferSize : Nat := 65536

/-- The shortest time that a rate is taken over, in seconds. -/
def leastSeconds : Binary64 := .ofRatio false 1 1000000

/-- Bytes in a time as millions of bits in a second. -/
def rate (bytes : Nat) (taken : Span) : Binary64 :=
  (((Binary64.ofNat bytes).mul (.ofNat 8)).div (taken.inSeconds.greater leastSeconds)).div
    (.ofNat 1000000)

/-- Reads until the target ends the stream or the deadline has come, as often as there is fuel:
how many bytes that were with those that had been read before. -/
def drainFuel (deadline : Span) (limit : Option Span) :
    Nat → Nat → Link → ν → Timed ν (Except Failure Nat)
  | 0, bytes, _, n => (some (.ok bytes), n)
  | fuel + 1, bytes, c, n =>
    match Medium.read bufferSize (dueBy deadline limit) c n with
    | (some (.error f), n) => (some (.error (.io f)), n)
    | (some (.ok (0, _)), n) => (some (.ok bytes), n)
    | (some (.ok (k + 1, c)), n) => drainFuel deadline limit fuel (bytes + (k + 1)) c n
    | (none, n) => if heedsTimer deadline limit then (some (.ok bytes), n) else (none, n)

/-- Reads until the target ends the stream or the deadline has come. Every turn but the last reads
a byte at least, so that there are no more turns than bytes and one. -/
def drain (deadline : Span) (limit : Option Span) (bytes : Nat) (c : Link) (n : ν) :
    Timed ν (Except Failure Nat) :=
  drainFuel deadline limit (Medium.remaining (dueBy deadline limit) c n + 1) bytes c n

def throughput (address : String) (window within : Span) (limit : Option Span) (n : ν) :
    Timed ν (Except Failure Binary64) :=
  match connect address within limit n with
  | (none, n) => (none, n)
  | (some (.error f), n) => (some (.error f), n)
  | (some (.ok c), n) =>
    let start := Medium.now n
    match drain ⟨start.nanos + window.nanos⟩ limit 0 c n with
    | (none, n) => (none, n)
    | (some (.error f), n) => (some (.error f), n)
    | (some (.ok bytes), n) =>
      (some (.ok (rate bytes ⟨(Medium.now n).nanos - start.nanos⟩)), n)

/-! ## Names -/

/-- Whether a name stands for one address at least, by what has become of looking it up. -/
def resolves : Except Failure (List Ip) → Bool
  | .ok ips => !ips.isEmpty
  | .error _ => false

/-- How many of the names resolve, each counted as often as it is listed. -/
def countResolving (within : Span) (limit : Option Span) : List String → ν → Timed ν Nat
  | [], n => (some 0, n)
  | host :: r, n =>
    match lookup host within limit n with
    | (none, n) => (none, n)
    | (some found, n) =>
      match countResolving within limit r n with
      | (none, n) => (none, n)
      | (some k, n) => (some (if resolves found then k + 1 else k), n)

/-! ## All together -/

/-- How long a single step may take. -/
def stepLimit (s : Settings) : Span := .ofSeconds (max s.timeoutSeconds 1)

def metrics (s : Settings) (latency throughput : Binary64) (resolved rejected : Nat) : Metrics :=
  .ofList [
    ("latency_ms", .number latency),
    ("throughput_mbps", .number throughput),
    ("dns_resolved", .number (.ofNat resolved)),
    ("dns_rejected", .number (.ofNat rejected)),
    ("target", .text s.target)]

/-- Takes every measurement that the settings ask for. -/
def run (s : Settings) (config : ProbeConfig) (limit : Option Span) (n : ν) :
    Timed ν (Except Failure Metrics) :=
  let within := stepLimit s
  match latency s.target config.latencySamples within limit n with
  | (none, n) => (none, n)
  | (some (.error f), n) => (some (.error f), n)
  | (some (.ok ms), n) =>
    match throughput s.target config.throughputWindow within limit n with
    | (none, n) => (none, n)
    | (some (.error f), n) => (some (.error f), n)
    | (some (.ok mbps), n) =>
      match countResolving within limit s.validDomains n with
      | (none, n) => (none, n)
      | (some resolved, n) =>
        match countResolving within limit s.invalidDomains n with
        | (none, n) => (none, n)
        | (some found, n) =>
          (some (.ok (metrics s ms mbps resolved (s.invalidDomains.length - found))), n)

end Probe
end LinkTest
