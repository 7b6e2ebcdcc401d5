import LinkTest.Config.Toml
import LinkTest.Proofs.Datum.Fields
import LinkTest.Proofs.Toml.Lines
import LinkTest.Proofs.Toml.Range

/-!
# Configurations as texts

A configuration whose numbers the notation has room for is written as a text that is read back as
that configuration; what is not given is left out of it. Every configuration that was read has
such numbers.
-/

namespace LinkTest

/-! ## What is read -/

namespace ProbeConfig

theorem decoder_eq_ok_iff {d : Datum} {p : ProbeConfig} : decoder d = .ok p ↔ ∃ found,
    Decoder.fields "ProbeConfig" fields d = .ok found ∧
    found.getD "latency_samples" Decoder.unsigned32 default.latencySamples =
      .ok p.latencySamples ∧
    found.getD "throughput_window_ms" Decoder.unsigned64 default.throughputWindowMillis =
      .ok p.throughputWindowMillis := by
  constructor
  · intro h
    obtain ⟨found, hfound, h⟩ := bind_eq_ok.1 h
    obtain ⟨samples, hsamples, h⟩ := bind_eq_ok.1 h
    obtain ⟨window, hwindow, h⟩ := bind_eq_ok.1 h
    obtain rfl := Except.ok.inj h
    exact ⟨found, hfound, hsamples, hwindow⟩
  · rintro ⟨found, hfound, hsamples, hwindow⟩
    exact bind_eq_ok.2 ⟨found, hfound, bind_eq_ok.2 ⟨_, hsamples, bind_eq_ok.2 ⟨_, hwindow, rfl⟩⟩⟩

end ProbeConfig

namespace Config

open Toml (Fits Narrow Spelled Statement States IsBareKey)

theorem decoder_eq_ok_iff {d : Datum} {c : Config} : decoder d = .ok c ↔ ∃ found,
    Decoder.fields "Config" fields d = .ok found ∧
    found.getD "server" Decoder.text default.server = .ok c.server ∧
    found.getD "username" (Decoder.optional Decoder.text) none = .ok c.username ∧
    found.getD "token" (Decoder.optional Decoder.text) none = .ok c.token ∧
    found.getD "exchange_timeout_secs" Decoder.unsigned64 default.exchangeTimeoutSeconds =
      .ok c.exchangeTimeoutSeconds ∧
    found.getD "probe" ProbeConfig.decoder default.probe = .ok c.probe := by
  constructor
  · intro h
    obtain ⟨found, hfound, h⟩ := bind_eq_ok.1 h
    obtain ⟨server, hserver, h⟩ := bind_eq_ok.1 h
    obtain ⟨username, husername, h⟩ := bind_eq_ok.1 h
    obtain ⟨token, htoken, h⟩ := bind_eq_ok.1 h
    obtain ⟨seconds, hseconds, h⟩ := bind_eq_ok.1 h
    obtain ⟨probe, hprobe, h⟩ := bind_eq_ok.1 h
    obtain rfl := Except.ok.inj h
    exact ⟨found, hfound, hserver, husername, htoken, hseconds, hprobe⟩
  · rintro ⟨found, hfound, hserver, husername, htoken, hseconds, hprobe⟩
    exact bind_eq_ok.2 ⟨found, hfound, bind_eq_ok.2 ⟨_, hserver, bind_eq_ok.2 ⟨_, husername,
      bind_eq_ok.2 ⟨_, htoken, bind_eq_ok.2 ⟨_, hseconds, bind_eq_ok.2 ⟨_, hprobe, rfl⟩⟩⟩⟩⟩⟩

/-- The numbers are of the widths that settings have. -/
structure InRange (c : Config) : Prop where
  seconds : c.exchangeTimeoutSeconds < Nat.pow 2 64
  samples : c.probe.latencySamples < Nat.pow 2 32
  window : c.probe.throughputWindowMillis < Nat.pow 2 64

/-- The notation has room for the numbers. -/
def HasForm (c : Config) : Prop :=
  Fits c.exchangeTimeoutSeconds ∧ Fits c.probe.throughputWindowMillis

instance (c : Config) : Decidable c.HasForm := inferInstanceAs (Decidable (_ ∧ _))

theorem narrow_of_mem_partsOf {d x : Datum} (h : Narrow d) (hx : x ∈ Decoder.partsOf d) :
    Narrow x := by
  cases h with
  | list h => exact h x hx
  | dict h =>
    obtain ⟨m, hm, rfl⟩ := List.mem_map.1 hx
    exact h m hm
  | _ => cases hx

/-- A number that is read from narrow data is the default or fits. -/
theorem fits_of_getD {type name : String} {fs : List Decoder.Field} {d : Datum} (hd : Narrow d)
    {found : Decoder.Found} (hfound : Decoder.fields type fs d = .ok found) {n k : Nat}
    (hk : Fits k) (h : found.getD name Decoder.unsigned64 k = .ok n) : Fits n := by
  rcases Decoder.getD_eq_ok_iff.1 h with ⟨-, rfl⟩ | ⟨x, hx, hn⟩
  · exact hk
  · obtain ⟨rfl, -⟩ := Decoder.natural_eq_ok_iff.1 hn
    have hnarrow := narrow_of_mem_partsOf hd (Decoder.mem_partsOf hfound hx)
    cases hnarrow with
    | whole hlt => exact Int.ofNat_lt.1 hlt

theorem samples_lt {d : Datum} {p : ProbeConfig} (h : ProbeConfig.decoder d = .ok p) :
    p.latencySamples < Nat.pow 2 32 := by
  obtain ⟨found, -, hsamples, -⟩ := ProbeConfig.decoder_eq_ok_iff.1 h
  rcases Decoder.getD_eq_ok_iff.1 hsamples with ⟨-, heq⟩ | ⟨x, -, hn⟩
  · rw [heq]
    decide
  · obtain ⟨-, hle⟩ := Decoder.natural_eq_ok_iff.1 hn
    omega

/-- Whatever is read as a configuration can be written again. -/
theorem hasForm_of_ofToml {s : String} {c : Config} (h : ofToml s = .ok c) :
    c.HasForm ∧ c.InRange := by
  have hfits : ∀ n, Fits n → n < Nat.pow 2 64 := fun n hn => Nat.lt_trans hn (by decide)
  have hdecode := mapError_eq_ok.1 h
  unfold Toml.decode at hdecode
  split at hdecode
  · cases hdecode
  · next d hd =>
    have hnarrow := Toml.narrow_read? hd
    obtain ⟨found, hfound, -, -, -, hseconds, hprobe⟩ :=
      decoder_eq_ok_iff.1 (mapError_eq_ok.1 hdecode)
    have hs : Fits c.exchangeTimeoutSeconds := fits_of_getD hnarrow hfound (by decide) hseconds
    rcases Decoder.getD_eq_ok_iff.1 hprobe with ⟨-, heq⟩ | ⟨x, hx, hp⟩
    · have hw : Fits c.probe.throughputWindowMillis := by rw [heq]; decide
      exact ⟨⟨hs, hw⟩, hfits _ hs, by rw [heq]; decide, hfits _ hw⟩
    · have hxnarrow := narrow_of_mem_partsOf hnarrow (Decoder.mem_partsOf hfound hx)
      obtain ⟨found', hfound', -, hwindow⟩ := ProbeConfig.decoder_eq_ok_iff.1 hp
      have hw : Fits c.probe.throughputWindowMillis :=
        fits_of_getD hxnarrow hfound' (by decide) hwindow
      exact ⟨⟨hs, hw⟩, hfits _ hs, samples_lt hp, hfits _ hw⟩

/-! ## What is written -/

/-- The members of a dictionary for a setting that may not be given. -/
def given (k : String) (o : Option String) : List (String × Datum) :=
  (o.map fun s => (k, Datum.text s)).toList

/-- The settings as they stand in a text, those that are not given left out. -/
def written (c : Config) : List (String × Datum) :=
  ("server", .text c.server) :: (given "username" c.username ++ given "token" c.token ++
    [("exchange_timeout_secs", .whole c.exchangeTimeoutSeconds), ("probe", c.probe.datum)])

/-- The statements that a written configuration is read as. -/
def statements (c : Config) : List Statement :=
  let optional (k : String) (o : Option String) : List Statement :=
    (o.map fun s => Statement.pair ⟨[], k⟩ (.text s)).toList
  .pair ⟨[], "server"⟩ (.text c.server) ::
    (optional "username" c.username ++ (optional "token" c.token ++ [
      .pair ⟨[], "exchange_timeout_secs"⟩ (.whole c.exchangeTimeoutSeconds),
      .header ⟨[], "probe"⟩,
      .pair ⟨[], "latency_samples"⟩ (.whole c.probe.latencySamples),
      .pair ⟨[], "throughput_window_ms"⟩ (.whole c.probe.throughputWindowMillis)]))

theorem build?_statements (c : Config) :
    ∃ n, Toml.build? c.statements = some n ∧ n.datum = .dict c.written .strict := by
  obtain ⟨server, username, token, seconds, probe⟩ := c
  cases username <;> cases token <;> exact ⟨_, rfl, rfl⟩

theorem toToml_of_hasForm {c : Config} (h : c.HasForm) : c.toToml = .ok
    (Toml.line "server" (Toml.quote c.server) ++
      (c.username.elim "" fun s => Toml.line "username" (Toml.quote s)) ++
      (c.token.elim "" fun s => Toml.line "token" (Toml.quote s)) ++
      Toml.line "exchange_timeout_secs" (toString c.exchangeTimeoutSeconds) ++
      Toml.header "probe" ++
      Toml.line "latency_samples" (toString c.probe.latencySamples) ++
      Toml.line "throughput_window_ms" (toString c.probe.throughputWindowMillis)) := by
  rw [toToml, if_pos (show _ ∧ _ from h)]
  obtain ⟨server, username, token, seconds, probe⟩ := c
  cases username <;> cases token <;> rfl

theorem toToml_of_not_hasForm {c : Config} (h : ¬c.HasForm) : c.toToml = .error .tomlWrite :=
  if_neg h

theorem spelled_quote (s : String) : Spelled (.text s) (Toml.quote s).toList := by
  rw [Toml.quote, String.toList_ofList]
  exact Toml.spelled_text s

theorem spelled_toString {n : Nat} (h : Fits n) : Spelled (.whole n) (toString n).toList := by
  rw [Json.toList_toString]
  exact Toml.spelled_number h

theorem states_optional {k : String} (hk : IsBareKey k) (o : Option String) {rest : List Char}
    {ss : List Statement} (h : States rest ss) :
    States ((o.elim "" fun s => Toml.line k (Toml.quote s)).toList ++ rest)
      ((o.map fun s => Statement.pair ⟨[], k⟩ (.text s)).toList ++ ss) := by
  cases o with
  | none => exact h
  | some s => exact .line hk (spelled_quote s) h

theorem states_toToml {c : Config} (hr : c.InRange) (hform : c.HasForm) :
    ∃ s, c.toToml = .ok s ∧ States s.toList c.statements ∧ s.toList.head? = some 's' := by
  have hsamples : Fits c.probe.latencySamples := Nat.lt_trans hr.samples (by decide)
  have hwindow := States.line (k := "throughput_window_ms") (by decide)
    (spelled_toString hform.2) Toml.states_nil
  have hprobe := States.header (k := "probe") (by decide)
    (.line (k := "latency_samples") (by decide) (spelled_toString hsamples) hwindow)
  have hseconds := States.line (k := "exchange_timeout_secs") (by decide)
    (spelled_toString hform.1) hprobe
  have hoptional := states_optional (k := "username") (by decide) c.username
    (states_optional (k := "token") (by decide) c.token hseconds)
  have hserver := States.line (k := "server") (by decide) (spelled_quote c.server) hoptional
  refine ⟨_, toToml_of_hasForm hform, ?_, ?_⟩
  · simpa [statements, String.toList_append, List.append_assoc] using hserver
  · simp [Toml.line, String.toList_append]

theorem read?_toToml {c : Config} (hr : c.InRange) (hform : c.HasForm) :
    ∃ s, c.toToml = .ok s ∧ Toml.read? s = some (.dict c.written .strict) := by
  obtain ⟨s, hs, hstates, hhead⟩ := states_toToml hr hform
  obtain ⟨n, hn, hdatum⟩ := build?_statements c
  refine ⟨s, hs, hdatum ▸ Toml.read?_of_states hstates ?_ hn⟩
  rw [hhead]
  decide

theorem unsigned64_whole {n : Nat} (h : n < Nat.pow 2 64) :
    Decoder.unsigned64 (.whole n) = .ok n := Decoder.natural_eq_ok_iff.2 ⟨rfl, by omega⟩

theorem unsigned32_whole {n : Nat} (h : n < Nat.pow 2 32) :
    Decoder.unsigned32 (.whole n) = .ok n := Decoder.natural_eq_ok_iff.2 ⟨rfl, by omega⟩

open Decoder (accepted_cons_of_known check_of_ok fields_of_accepted)

theorem decoder_probe {c : Config} (hr : c.InRange) :
    ProbeConfig.decoder c.probe.datum = .ok c.probe := by
  have hn : (ProbeConfig.fields.map (·.name)).Nodup := by decide
  have hsamples := unsigned32_whole hr.samples
  have hwindow := unsigned64_whole hr.window
  have haccepted : Decoder.Accepted ProbeConfig.fields [] [
      ("latency_samples", .whole c.probe.latencySamples),
      ("throughput_window_ms", .whole c.probe.throughputWindowMillis)] :=
    (accepted_cons_of_known hn rfl).2 ⟨by decide, check_of_ok hsamples,
      (accepted_cons_of_known hn rfl).2 ⟨by decide, check_of_ok hwindow, Decoder.accepted_nil⟩⟩
  exact ProbeConfig.decoder_eq_ok_iff.2
    ⟨_, fields_of_accepted hn (by decide) "ProbeConfig" haccepted, hsamples, hwindow⟩

theorem accepted_given {k : String} {o : Option String} {seen : List String}
    {members : List (String × Datum)}
    (hfind : fields.find? (·.name == k) =
      some (.of k (Decoder.optional Decoder.text) .emptyInDict)) (hseen : k ∉ seen)
    (h : Decoder.Accepted fields (k :: seen) members) :
    Decoder.Accepted fields seen (given k o ++ members) := by
  cases o with
  | none => exact h.of_cons
  | some s => exact (accepted_cons_of_known (by decide) hfind).2 ⟨hseen, check_of_ok rfl, h⟩

theorem decoder_written {c : Config} (hr : c.InRange) :
    decoder (.dict c.written .strict) = .ok c := by
  have hn : (fields.map (·.name)).Nodup := by decide
  have hserver : Decoder.text (.text c.server) = .ok c.server := rfl
  have hseconds := unsigned64_whole hr.seconds
  have hprobe := decoder_probe hr
  have hnumbers : Decoder.Accepted fields ["token", "username", "server"]
      [("exchange_timeout_secs", .whole c.exchangeTimeoutSeconds), ("probe", c.probe.datum)] :=
    (accepted_cons_of_known hn rfl).2 ⟨by decide, check_of_ok hseconds,
      (accepted_cons_of_known hn rfl).2 ⟨by decide, check_of_ok hprobe, Decoder.accepted_nil⟩⟩
  have haccepted : Decoder.Accepted fields [] c.written := by
    refine (accepted_cons_of_known hn rfl).2 ⟨by decide, check_of_ok hserver, ?_⟩
    rw [List.append_assoc]
    exact accepted_given rfl (by decide) (accepted_given rfl (by decide) hnumbers)
  refine decoder_eq_ok_iff.2 ⟨_, fields_of_accepted hn (by decide) "Config" haccepted, ?_⟩
  obtain ⟨server, username, token, seconds, probe⟩ := c
  cases username <;> cases token <;> exact ⟨hserver, rfl, rfl, hseconds, hprobe⟩

/-- A configuration that is written is read back as it was. -/
theorem ofToml_toToml {c : Config} (hr : c.InRange) (hform : c.HasForm) :
    ∃ s, c.toToml = .ok s ∧ ofToml s = .ok c := by
  obtain ⟨s, hs, hread⟩ := read?_toToml hr hform
  have hdecode : Toml.decode decoder s = .ok c := by
    rw [Toml.decode, hread]
    exact mapError_eq_ok.2 (decoder_written hr)
  exact ⟨s, hs, mapError_eq_ok.2 hdecode⟩

end Config
end LinkTest
