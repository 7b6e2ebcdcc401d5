import LinkTest.Datum.Decoder

/-! # What the server asks to be measured -/

namespace LinkTest

/-- The orders for one run. -/
structure Settings where
  setId : Int
  resultId : Int
  validDomains : List String
  invalidDomains : List String
  throughputServer : String
  port : Nat
  timeoutSeconds : Nat
deriving DecidableEq, Repr, Inhabited

namespace Settings

def defaultTimeoutSeconds : Nat := 5

/-- The host and port that are measured against. -/
def target (s : Settings) : String := s.throughputServer ++ ":" ++ toString s.port

private def texts (l : List String) : Datum := .list (l.map .text) .strict

def datum (s : Settings) : Datum :=
  .dict [
    ("set_id", .whole s.setId),
    ("result_id", .whole s.resultId),
    ("valid_domains", texts s.validDomains),
    ("invalid_domains", texts s.invalidDomains),
    ("throughput_server", .text s.throughputServer),
    ("port", .whole s.port),
    ("timeout_secs", .whole s.timeoutSeconds)] .strict

def fields : List Decoder.Field := [
  .of "set_id" Decoder.signed64 .refused,
  .of "result_id" Decoder.signed64 .refused,
  .of "valid_domains" (Decoder.listOf Decoder.text) .filled,
  .of "invalid_domains" (Decoder.listOf Decoder.text) .filled,
  .of "throughput_server" Decoder.text .refused,
  .of "port" Decoder.unsigned16 .refused,
  .of "timeout_secs" Decoder.unsigned64 .filled]

def decoder : Decoder Settings := fun d => do
  let found ← Decoder.fields "TestSettings" fields d
  let setId ← found.get "set_id" Decoder.signed64
  let resultId ← found.get "result_id" Decoder.signed64
  let validDomains ← found.getD "valid_domains" (Decoder.listOf Decoder.text) []
  let invalidDomains ← found.getD "invalid_domains" (Decoder.listOf Decoder.text) []
  let throughputServer ← found.get "throughput_server" Decoder.text
  let port ← found.get "port" Decoder.unsigned16
  let timeoutSeconds ← found.getD "timeout_secs" Decoder.unsigned64 defaultTimeoutSeconds
  .ok ⟨setId, resultId, validDomains, invalidDomains, throughputServer, port, timeoutSeconds⟩

end Settings
end LinkTest
