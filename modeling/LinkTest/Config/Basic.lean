import LinkTest.Datum.Decoder
import LinkTest.Span

/-! # The configuration -/

namespace LinkTest

/-- How the measurements of a run are taken. -/
structure ProbeConfig where
  latencySamples : Nat
  throughputWindowMillis : Nat
deriving DecidableEq, Repr, Inhabited

namespace ProbeConfig

def default : ProbeConfig := ⟨3, 2000⟩

def throughputWindow (p : ProbeConfig) : Span := .ofMillis p.throughputWindowMillis

def datum (p : ProbeConfig) : Datum :=
  .dict [
    ("latency_samples", .whole p.latencySamples),
    ("throughput_window_ms", .whole p.throughputWindowMillis)] .strict

def fields : List Decoder.Field := [
  .of "latency_samples" Decoder.unsigned32 .filled,
  .of "throughput_window_ms" Decoder.unsigned64 .filled]

def decoder : Decoder ProbeConfig := fun d => do
  let found ← Decoder.fields "ProbeConfig" fields d
  let samples ← found.getD "latency_samples" Decoder.unsigned32 default.latencySamples
  let window ← found.getD "throughput_window_ms" Decoder.unsigned64 default.throughputWindowMillis
  .ok ⟨samples, window⟩

end ProbeConfig

structure Config where
  server : String
  username : Option String
  token : Option String
  exchangeTimeoutSeconds : Nat
  probe : ProbeConfig
deriving DecidableEq, Repr, Inhabited

namespace Config

def default : Config := ⟨"127.0.0.1:5050", none, none, 10, .default⟩

def exchangeTimeout (c : Config) : Span := .ofSeconds c.exchangeTimeoutSeconds

private def orNull : Option String → Datum
  | some s => .text s
  | none => .null

def datum (c : Config) : Datum :=
  .dict [
    ("server", .text c.server),
    ("username", orNull c.username),
    ("token", orNull c.token),
    ("exchange_timeout_secs", .whole c.exchangeTimeoutSeconds),
    ("probe", c.probe.datum)] .strict

def fields : List Decoder.Field := [
  .of "server" Decoder.text .filled,
  .of "username" (Decoder.optional Decoder.text) .emptyInDict,
  .of "token" (Decoder.optional Decoder.text) .emptyInDict,
  .of "exchange_timeout_secs" Decoder.unsigned64 .filled,
  .of "probe" ProbeConfig.decoder .filled]

def decoder : Decoder Config := fun d => do
  let found ← Decoder.fields "Config" fields d
  let server ← found.getD "server" Decoder.text default.server
  let username ← found.getD "username" (Decoder.optional Decoder.text) none
  let token ← found.getD "token" (Decoder.optional Decoder.text) none
  let seconds ← found.getD "exchange_timeout_secs" Decoder.unsigned64 default.exchangeTimeoutSeconds
  let probe ← found.getD "probe" ProbeConfig.decoder default.probe
  .ok ⟨server, username, token, seconds, probe⟩

end Config
end LinkTest
