import LinkTest.Config.Basic
import LinkTest.Toml.Reader
import LinkTest.Toml.Writer

/-! # The configuration as TOML -/

namespace LinkTest.Config

def ofToml (s : String) : Except Failure Config := (Toml.decode decoder s).mapError .tomlRead

private def optionalLine (key : String) : Option String → String
  | some s => Toml.line key (Toml.quote s)
  | none => ""

/-- The configuration, one line for each setting that is given. Numbers of more than 63 bits have
no form. -/
def toToml (c : Config) : Except Failure String :=
  if Toml.Fits c.exchangeTimeoutSeconds ∧ Toml.Fits c.probe.throughputWindowMillis then
    .ok (Toml.line "server" (Toml.quote c.server) ++
      optionalLine "username" c.username ++
      optionalLine "token" c.token ++
      Toml.line "exchange_timeout_secs" (toString c.exchangeTimeoutSeconds) ++
      Toml.header "probe" ++
      Toml.line "latency_samples" (toString c.probe.latencySamples) ++
      Toml.line "throughput_window_ms" (toString c.probe.throughputWindowMillis))
  else .error .tomlWrite

end LinkTest.Config
