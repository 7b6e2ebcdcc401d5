import LinkTest.Credentials
import LinkTest.Json
import LinkTest.Proofs.Config.RoundTrip
import LinkTest.Proofs.Wire.Schema
import LinkTest.Receipt
import LinkTest.Settings

/-!
# The types that are written as JSON

Each of the types is read back from what is written for it. What a text is read as depends on what
it says: not on blanks, on the order of members, on members of other names, nor on defaults that
are given or left out. Numbers that are no whole ones or out of range are refused, and so are
records without a member that they need.
-/

namespace LinkTest.Wire

open Decoder (Parts)

/-! ## The members of records -/

namespace Slot

variable {α β : Type}

/-- A member that has to be there. -/
def needed (name : String) (codec : Codec β) (get : α → β) : Slot α where
  Value := β
  name := name
  codec := codec
  absence := .refused
  default := none
  get := get
  required := by simp
  default_proper := nofun

/-- A member with a default. -/
def defaulted (name : String) (codec : Codec β) (absence : {a : Decoder.Absence // a ≠ .refused})
    (default : {x : β // codec.Proper x}) (get : α → β) : Slot α where
  Value := β
  name := name
  codec := codec
  absence := absence
  default := some default
  get := get
  required := by simp [absence.2]
  default_proper _ h := Option.some.inj h ▸ default.2

variable {name : String} {codec : Codec β} {get : α → β} {found : Decoder.Found} {v : α}

theorem holds_needed_iff :
    (needed name codec get).Holds found v ↔ found.get name codec.decoder = .ok (get v) := by
  rw [Decoder.get_eq_ok_iff, Holds]
  simp [needed]

theorem holds_defaulted_iff {absence : {a : Decoder.Absence // a ≠ .refused}}
    {default : {x : β // codec.Proper x}} : (defaulted name codec absence default get).Holds found v ↔
      found.getD name codec.decoder default = .ok (get v) := by
  rw [Decoder.getD_eq_ok_iff, Holds]
  simp [defaulted, eq_comm, or_comm]

/-- It may be left out of a list, too. -/
def filled : {a : Decoder.Absence // a ≠ .refused} := ⟨.filled, nofun⟩

def emptyInDict : {a : Decoder.Absence // a ≠ .refused} := ⟨.emptyInDict, nofun⟩

end Slot

/-- A 64-bit number with a sign. -/
def signed64 : Codec Int :=
  .integer "i64" (-(Nat.pow 2 63)) (Nat.pow 2 63 - 1) (Int.le_refl _) (by decide)

def unsigned64 : Codec Nat := .natural "u64" (Nat.pow 2 64 - 1) (by decide)

def unsigned32 : Codec Nat := .natural "u32" (Nat.pow 2 32 - 1) (by decide)

def unsigned16 : Codec Nat := .natural "u16" (Nat.pow 2 16 - 1) (by decide)

theorem le_sub_one_iff {n bound : Nat} : (n : Int) ≤ bound - 1 ↔ n < bound := by
  omega

def optionalText : Codec (Option String) := .optional .text nofun

/-! ## The types -/

def settingsSlots : List (Slot Settings) := [
  .needed "set_id" signed64 (·.setId),
  .needed "result_id" signed64 (·.resultId),
  .defaulted "valid_domains" (.list .text) Slot.filled ⟨[], nofun⟩ (·.validDomains),
  .defaulted "invalid_domains" (.list .text) Slot.filled ⟨[], nofun⟩ (·.invalidDomains),
  .needed "throughput_server" .text (·.throughputServer),
  .needed "port" unsigned16 (·.port),
  .defaulted "timeout_secs" unsigned64 Slot.filled
    ⟨Settings.defaultTimeoutSeconds, le_sub_one_iff.2 (by decide)⟩ (·.timeoutSeconds)]

theorem settings_eq_ok_iff {d : Datum} {v : Settings} : Settings.decoder d = .ok v ↔ ∃ found,
    Decoder.fields "TestSettings" (settingsSlots.map (·.field)) d = .ok found ∧
      ∀ s ∈ settingsSlots, s.Holds found v := by
  simp only [settingsSlots, List.forall_mem_cons, Slot.holds_needed_iff, Slot.holds_defaulted_iff]
  constructor
  · intro h
    obtain ⟨found, hfound, h⟩ := bind_eq_ok.1 h
    obtain ⟨setId, hset, h⟩ := bind_eq_ok.1 h
    obtain ⟨resultId, hresult, h⟩ := bind_eq_ok.1 h
    obtain ⟨valid, hvalid, h⟩ := bind_eq_ok.1 h
    obtain ⟨invalid, hinvalid, h⟩ := bind_eq_ok.1 h
    obtain ⟨server, hserver, h⟩ := bind_eq_ok.1 h
    obtain ⟨port, hport, h⟩ := bind_eq_ok.1 h
    obtain ⟨seconds, hseconds, h⟩ := bind_eq_ok.1 h
    obtain rfl := Except.ok.inj h
    exact ⟨found, hfound, hset, hresult, hvalid, hinvalid, hserver, hport, hseconds, nofun⟩
  · rintro ⟨found, hfound, hset, hresult, hvalid, hinvalid, hserver, hport, hseconds, -⟩
    exact bind_eq_ok.2 ⟨found, hfound, bind_eq_ok.2 ⟨_, hset, bind_eq_ok.2 ⟨_, hresult,
      bind_eq_ok.2 ⟨_, hvalid, bind_eq_ok.2 ⟨_, hinvalid, bind_eq_ok.2 ⟨_, hserver,
        bind_eq_ok.2 ⟨_, hport, bind_eq_ok.2 ⟨_, hseconds, rfl⟩⟩⟩⟩⟩⟩⟩⟩

def settingsSchema : Schema Settings where
  type := "TestSettings"
  slots := settingsSlots
  decoder := Settings.decoder
  datum := Settings.datum
  nodup := by decide
  decoder_eq_ok_iff _ _ := settings_eq_ok_iff
  datum_eq _ := rfl

def receiptSlots : List (Slot Receipt) := [
  .needed "set_id" signed64 (·.setId),
  .needed "result_id" signed64 (·.resultId)]

theorem receipt_eq_ok_iff {d : Datum} {v : Receipt} : Receipt.decoder d = .ok v ↔ ∃ found,
    Decoder.fields "ReportReceipt" (receiptSlots.map (·.field)) d = .ok found ∧
      ∀ s ∈ receiptSlots, s.Holds found v := by
  simp only [receiptSlots, List.forall_mem_cons, Slot.holds_needed_iff]
  constructor
  · intro h
    obtain ⟨found, hfound, h⟩ := bind_eq_ok.1 h
    obtain ⟨setId, hset, h⟩ := bind_eq_ok.1 h
    obtain ⟨resultId, hresult, h⟩ := bind_eq_ok.1 h
    obtain rfl := Except.ok.inj h
    exact ⟨found, hfound, hset, hresult, nofun⟩
  · rintro ⟨found, hfound, hset, hresult, -⟩
    exact bind_eq_ok.2 ⟨found, hfound, bind_eq_ok.2 ⟨_, hset, bind_eq_ok.2 ⟨_, hresult, rfl⟩⟩⟩

def receiptSchema : Schema Receipt where
  type := "ReportReceipt"
  slots := receiptSlots
  decoder := Receipt.decoder
  datum := Receipt.datum
  nodup := by decide
  decoder_eq_ok_iff _ _ := receipt_eq_ok_iff
  datum_eq _ := rfl

def probeSlots : List (Slot ProbeConfig) := [
  .defaulted "latency_samples" unsigned32 Slot.filled
    ⟨ProbeConfig.default.latencySamples, le_sub_one_iff.2 (by decide)⟩ (·.latencySamples),
  .defaulted "throughput_window_ms" unsigned64 Slot.filled
    ⟨ProbeConfig.default.throughputWindowMillis, le_sub_one_iff.2 (by decide)⟩
    (·.throughputWindowMillis)]

def probeSchema : Schema ProbeConfig where
  type := "ProbeConfig"
  slots := probeSlots
  decoder := ProbeConfig.decoder
  datum := ProbeConfig.datum
  nodup := by decide
  decoder_eq_ok_iff d v := by
    rw [ProbeConfig.decoder_eq_ok_iff]
    simp only [probeSlots, List.forall_mem_cons, Slot.holds_defaulted_iff]
    exact exists_congr fun found => ⟨fun ⟨h, hs, hw⟩ => ⟨h, hs, hw, nofun⟩,
      fun ⟨h, hs, hw, _⟩ => ⟨h, hs, hw⟩⟩
  datum_eq _ := rfl

theorem proper_default_probe : probeSchema.codec.Proper ProbeConfig.default :=
  List.forall_mem_cons.2 ⟨le_sub_one_iff.2 (show 3 < Nat.pow 2 32 by decide),
    List.forall_mem_cons.2 ⟨le_sub_one_iff.2 (show 2000 < Nat.pow 2 64 by decide), nofun⟩⟩

def configSlots : List (Slot Config) := [
  .defaulted "server" .text Slot.filled ⟨Config.default.server, trivial⟩ (·.server),
  .defaulted "username" optionalText Slot.emptyInDict ⟨none, nofun⟩ (·.username),
  .defaulted "token" optionalText Slot.emptyInDict ⟨none, nofun⟩ (·.token),
  .defaulted "exchange_timeout_secs" unsigned64 Slot.filled
    ⟨Config.default.exchangeTimeoutSeconds, le_sub_one_iff.2 (by decide)⟩
    (·.exchangeTimeoutSeconds),
  .defaulted "probe" probeSchema.codec Slot.filled ⟨Config.default.probe, proper_default_probe⟩
    (·.probe)]

def configSchema : Schema Config where
  type := "Config"
  slots := configSlots
  decoder := Config.decoder
  datum := Config.datum
  nodup := by decide
  decoder_eq_ok_iff d v := by
    rw [Config.decoder_eq_ok_iff]
    simp only [configSlots, List.forall_mem_cons, Slot.holds_defaulted_iff]
    exact exists_congr fun found => ⟨fun ⟨h, hs, hu, ht, he, hp⟩ => ⟨h, hs, hu, ht, he, hp, nofun⟩,
      fun ⟨h, hs, hu, ht, he, hp, _⟩ => ⟨h, hs, hu, ht, he, hp⟩⟩
  datum_eq c := by
    obtain ⟨server, username, token, seconds, probe⟩ := c
    cases username <;> cases token <;> rfl

def tokenCodec : Codec SessionToken where
  decoder := SessionToken.decoder
  datum := SessionToken.datum
  Proper _ := True
  range := none
  decode _ _ := rfl
  steady _ _ := rfl
  proper _ _ _ := trivial
  not_cut d t h := by
    cases d with
    | text s => nofun
    | _ => cases h
  whole := nofun

/-! ## All of them -/

/-- A type that is written as JSON. -/
inductive Kind
  | settings
  | receipt
  | token
  | config
  | probe

namespace Kind

def Value : Kind → Type
  | settings => Settings
  | receipt => Receipt
  | token => SessionToken
  | config => Config
  | probe => ProbeConfig

def decoder : (k : Kind) → Decoder k.Value
  | settings => Settings.decoder
  | receipt => Receipt.decoder
  | token => SessionToken.decoder
  | config => Config.decoder
  | probe => ProbeConfig.decoder

def datum : (k : Kind) → k.Value → Datum
  | settings => Settings.datum
  | receipt => Receipt.datum
  | token => SessionToken.datum
  | config => Config.datum
  | probe => ProbeConfig.datum

def ofJson (k : Kind) (s : String) : Except Mismatch k.Value := Json.decode k.decoder s

def toJson (k : Kind) (v : k.Value) : String := Json.compact (k.datum v)

/-- A number of 64 bits, one of them for the sign. -/
def Signed64 (n : Int) : Prop := -(Nat.pow 2 63) ≤ n ∧ n ≤ Nat.pow 2 63 - 1

/-- The numbers have the widths that the type gives them. -/
def InRange : (k : Kind) → k.Value → Prop
  | settings, s => Signed64 s.setId ∧ Signed64 s.resultId ∧ s.port < Nat.pow 2 16 ∧
    s.timeoutSeconds < Nat.pow 2 64
  | receipt, r => Signed64 r.setId ∧ Signed64 r.resultId
  | token, _ => True
  | config, c => c.InRange
  | probe, p => p.latencySamples < Nat.pow 2 32 ∧ p.throughputWindowMillis < Nat.pow 2 64

/-- The names that members of a record can have. -/
def names : Kind → List String
  | settings => ["set_id", "result_id", "valid_domains", "invalid_domains", "throughput_server",
    "port", "timeout_secs"]
  | receipt => ["set_id", "result_id"]
  | token => []
  | config => ["server", "username", "token", "exchange_timeout_secs", "probe"]
  | probe => ["latency_samples", "throughput_window_ms"]

/-- The members that have to be there. -/
def needed : Kind → List String
  | settings => ["set_id", "result_id", "throughput_server", "port"]
  | receipt => ["set_id", "result_id"]
  | _ => []

/-- The members that are numbers, with the least and the greatest. -/
def numbers : Kind → List (String × Int × Int)
  | settings => [("set_id", -(Nat.pow 2 63), Nat.pow 2 63 - 1),
    ("result_id", -(Nat.pow 2 63), Nat.pow 2 63 - 1), ("port", 0, Nat.pow 2 16 - 1),
    ("timeout_secs", 0, Nat.pow 2 64 - 1)]
  | receipt => [("set_id", -(Nat.pow 2 63), Nat.pow 2 63 - 1),
    ("result_id", -(Nat.pow 2 63), Nat.pow 2 63 - 1)]
  | token => []
  | config => [("exchange_timeout_secs", 0, Nat.pow 2 64 - 1)]
  | probe => [("latency_samples", 0, Nat.pow 2 32 - 1),
    ("throughput_window_ms", 0, Nat.pow 2 64 - 1)]

/-- The members that can be left out, with what they are taken for. -/
def defaults : Kind → List (String × Datum)
  | settings => [("valid_domains", .list [] .strict), ("invalid_domains", .list [] .strict),
    ("timeout_secs", .whole 5)]
  | config => [("server", .text "127.0.0.1:5050"), ("username", .null), ("token", .null),
    ("exchange_timeout_secs", .whole 10),
    ("probe", .dict [("latency_samples", .whole 3), ("throughput_window_ms", .whole 2000)] .strict)]
  | probe => [("latency_samples", .whole 3), ("throughput_window_ms", .whole 2000)]
  | _ => []

/-- The same members in another order, with or without members of other names and with defaults
given or left out. -/
inductive Rephrased : Kind → Datum → Datum → Prop
  | refl {k : Kind} (d : Datum) : Rephrased k d d
  | symm {k : Kind} {d d' : Datum} (h : Rephrased k d d') : Rephrased k d' d
  | trans {k : Kind} {d d' d'' : Datum} (h : Rephrased k d d') (h' : Rephrased k d' d'') :
    Rephrased k d d''
  | order {k : Kind} {members members' : List (String × Datum)} {e : Ending}
    (h : members.Perm members') : Rephrased k (.dict members e) (.dict members' e)
  | unknown {k : Kind} {members : List (String × Datum)} {e : Ending} {name : String} {d : Datum}
    (hname : name ∉ k.names) (hd : d.skipFault = none) :
    Rephrased k (.dict members e) (.dict ((name, d) :: members) e)
  | default {k : Kind} {members : List (String × Datum)} {e : Ending} {name : String} {d : Datum}
    (hd : (name, d) ∈ k.defaults) (habsent : name ∉ members.map (·.1)) :
    Rephrased k (.dict members e) (.dict ((name, d) :: members) e)
  | probe {members : List (String × Datum)} {e : Ending} {d d' : Datum} (h : Rephrased probe d d') :
    Rephrased config (.dict (("probe", d) :: members) e) (.dict (("probe", d') :: members) e)

/-- The parts of a record: those that it needs are found, and its numbers are whole and in range. -/
structure HasParts (k : Kind) (d : Datum) (found : Decoder.Found) : Prop where
  parts : Parts k.names d found
  needed : ∀ name ∈ k.needed, (found name).isSome = true
  whole : ∀ name low high, (name, low, high) ∈ k.numbers → ∀ x, found name = some x →
    ∃ m, x = .whole m ∧ low ≤ m ∧ m ≤ high

/-- What a value can be read from. -/
def Sound : Kind → Datum → Prop
  | token, d => ∃ s, d = .text s
  | config, d => ∃ found, HasParts config d found ∧
    ∀ x, found "probe" = some x → ∃ inner, HasParts probe x inner
  | k, d => ∃ found, HasParts k d found

/-! ### The tables are those of the schemas -/

def codec : (k : Kind) → Codec k.Value
  | settings => settingsSchema.codec
  | receipt => receiptSchema.codec
  | token => tokenCodec
  | config => configSchema.codec
  | probe => probeSchema.codec

def schema? : (k : Kind) → Option (Schema k.Value)
  | settings => some settingsSchema
  | receipt => some receiptSchema
  | token => none
  | config => some configSchema
  | probe => some probeSchema

theorem decoder_codec (k : Kind) : k.codec.decoder = k.decoder := by
  cases k <;> rfl

theorem datum_codec (k : Kind) : k.codec.datum = k.datum := by
  cases k <;> rfl

theorem decoder_of_schema {k : Kind} {S : Schema k.Value} (h : k.schema? = some S) :
    S.decoder = k.decoder := by
  cases k <;> cases h <;> rfl

theorem tables_of_schema {k : Kind} {S : Schema k.Value} (h : k.schema? = some S) :
    S.names = k.names ∧ S.needed = k.needed ∧ S.numbers = k.numbers ∧ S.defaults = k.defaults := by
  cases k <;> cases h <;> exact ⟨rfl, rfl, rfl, rfl⟩

theorem proper_probe_iff (p : ProbeConfig) : probeSchema.codec.Proper p ↔
    p.latencySamples < Nat.pow 2 32 ∧ p.throughputWindowMillis < Nat.pow 2 64 := by
  change (∀ s ∈ probeSlots, s.codec.Proper (s.get p)) ↔ _
  simp only [probeSlots, List.forall_mem_cons]
  exact ⟨fun ⟨hs, hw, _⟩ => ⟨le_sub_one_iff.1 hs, le_sub_one_iff.1 hw⟩,
    fun ⟨hs, hw⟩ => ⟨le_sub_one_iff.2 hs, le_sub_one_iff.2 hw, nofun⟩⟩

theorem proper_iff_inRange (k : Kind) (v : k.Value) : k.codec.Proper v ↔ k.InRange v := by
  cases k with
  | settings =>
    change (∀ s ∈ settingsSlots, s.codec.Proper (s.get v)) ↔ _
    simp only [settingsSlots, List.forall_mem_cons]
    constructor
    · rintro ⟨hset, hresult, -, -, -, hport, hseconds, -⟩
      exact ⟨hset, hresult, le_sub_one_iff.1 hport, le_sub_one_iff.1 hseconds⟩
    · rintro ⟨hset, hresult, hport, hseconds⟩
      exact ⟨hset, hresult, fun _ _ => trivial, fun _ _ => trivial, trivial,
        le_sub_one_iff.2 hport, le_sub_one_iff.2 hseconds, nofun⟩
  | receipt =>
    change (∀ s ∈ receiptSlots, s.codec.Proper (s.get v)) ↔ _
    simp only [receiptSlots, List.forall_mem_cons]
    exact ⟨fun ⟨hset, hresult, _⟩ => ⟨hset, hresult⟩, fun ⟨hset, hresult⟩ => ⟨hset, hresult, nofun⟩⟩
  | token => exact Iff.rfl
  | config =>
    change (∀ s ∈ configSlots, s.codec.Proper (s.get v)) ↔ _
    simp only [configSlots, List.forall_mem_cons]
    constructor
    · rintro ⟨-, -, -, hseconds, hprobe, -⟩
      obtain ⟨hs, hw⟩ := (proper_probe_iff _).1 hprobe
      exact ⟨le_sub_one_iff.1 hseconds, hs, hw⟩
    · rintro ⟨hseconds, hs, hw⟩
      exact ⟨trivial, fun _ _ => trivial, fun _ _ => trivial, le_sub_one_iff.2 hseconds,
        (proper_probe_iff _).2 ⟨hs, hw⟩, nofun⟩
  | probe => exact proper_probe_iff v

/-! ### What is read -/

variable {k : Kind} {d d' : Datum} {v : k.Value}

theorem decoder_dict_congr {members members' : List (String × Datum)} {e : Ending}
    (h : ∀ S, k.schema? = some S →
      (S.decoder (.dict members e) = .ok v ↔ S.decoder (.dict members' e) = .ok v)) :
    k.decoder (.dict members e) = .ok v ↔ k.decoder (.dict members' e) = .ok v := by
  cases hS : k.schema? with
  | some S =>
    rw [← decoder_of_schema hS]
    exact h S hS
  | none =>
    cases k with
    | token => exact iff_of_false nofun nofun
    | _ => cases hS

/-- What is said in other words is read as the same value. -/
theorem decoder_rephrased (h : Rephrased k d d') (v : k.Value) :
    k.decoder d = .ok v ↔ k.decoder d' = .ok v := by
  induction h with
  | refl d => exact Iff.rfl
  | symm _ ih => exact (ih v).symm
  | trans _ _ ih ih' => exact (ih v).trans (ih' v)
  | order hperm => exact decoder_dict_congr fun S _ => Schema.decoder_perm hperm
  | unknown hname hd =>
    exact decoder_dict_congr fun S hS =>
      Schema.decoder_unknown ((tables_of_schema hS).1 ▸ hname) hd
  | default hd habsent =>
    exact decoder_dict_congr fun S hS =>
      Schema.decoder_default ((tables_of_schema hS).2.2.2 ▸ hd) habsent
  | probe _ ih =>
    have hs := List.mem_of_getElem? (show configSlots[4]? = some _ from rfl)
    exact Schema.decoder_part (S := configSchema) hs ih

theorem exists_hasParts {S : Schema k.Value} (hS : k.schema? = some S) (h : k.decoder d = .ok v) :
    ∃ found, HasParts k d found ∧ ∀ s ∈ S.slots, s.Holds found v := by
  obtain ⟨hnames, hneeded, hnumbers, -⟩ := tables_of_schema hS
  rw [← decoder_of_schema hS] at h
  obtain ⟨found, hparts, hholds⟩ := Schema.exists_parts h
  exact ⟨found, ⟨hnames ▸ hparts,
    fun _ hname => Schema.isSome_of_needed hholds (hneeded ▸ hname),
    fun _ _ _ hnumber _ hx => Schema.whole_of_mem_numbers hholds (hnumbers ▸ hnumber) hx⟩, hholds⟩

theorem sound_of_decoder (h : k.decoder d = .ok v) : k.Sound d := by
  cases k with
  | token =>
    cases d with
    | text s => exact ⟨s, rfl⟩
    | _ => cases h
  | config =>
    obtain ⟨found, hparts, hholds⟩ := exists_hasParts rfl h
    refine ⟨found, hparts, fun x hx => ?_⟩
    have hprobe := hholds _ (List.mem_of_getElem? (show configSlots[4]? = some _ from rfl))
    obtain ⟨inner, hinner, -⟩ := exists_hasParts (k := probe) rfl ((Slot.holds_of_found hx).1 hprobe)
    exact ⟨inner, hinner⟩
  | _ =>
    obtain ⟨found, hparts, -⟩ := exists_hasParts rfl h
    exact ⟨found, hparts⟩

theorem ofJson_eq_ok_iff {s : String} : k.ofJson s = .ok v ↔
    k.decoder (Json.read s).root = .ok v ∧ (Json.read s).trailing = false := by
  rw [ofJson, Json.decode, bind_eq_ok]
  constructor
  · rintro ⟨x, hx, h⟩
    split at h
    · cases h
    · next ht =>
      obtain rfl := Except.ok.inj h
      exact ⟨hx, by simpa using ht⟩
  · rintro ⟨hv, ht⟩
    exact ⟨v, hv, by rw [ht]; rfl⟩

theorem ofJson_toJson (h : k.InRange v) : k.ofJson (k.toJson v) = .ok v := by
  have hecho := k.codec.decode_echo ((proper_iff_inRange k v).2 h)
  rw [decoder_codec, datum_codec] at hecho
  rw [ofJson_eq_ok_iff, toJson, Json.read_compact]
  exact ⟨hecho, rfl⟩

theorem inRange_of_ofJson {s : String} (h : k.ofJson s = .ok v) : k.InRange v := by
  have hdecoder := (ofJson_eq_ok_iff.1 h).1
  rw [← decoder_codec] at hdecoder
  exact (proper_iff_inRange k v).1 (k.codec.proper _ v hdecoder)

/-- The same text with other blanks. -/
theorem ofJson_of_alike {s s' : String} (h : k.ofJson s = .ok v)
    (ha : Json.Alike s.toList s'.toList) : k.ofJson s' = .ok v := by
  obtain ⟨hdecoder, ht⟩ := ofJson_eq_ok_iff.1 h
  have hcut := k.codec.not_cut _ v (decoder_codec k ▸ hdecoder)
  rw [ofJson_eq_ok_iff, Json.read_of_alike ha hcut ht]
  exact ⟨hdecoder, ht⟩

theorem ofJson_of_rephrased {s s' : String} (h : k.ofJson s = .ok v)
    (hr : Rephrased k (Json.read s).root (Json.read s').root) (ht : (Json.read s').trailing = false) :
    k.ofJson s' = .ok v :=
  ofJson_eq_ok_iff.2 ⟨(decoder_rephrased hr v).1 (ofJson_eq_ok_iff.1 h).1, ht⟩

end Kind

open Kind (Rephrased)

/-- Every value of the types is read back from what is written for it. What is read from a text is
such a value. It is the same with other blanks, with the members in another order, with members of
other names and with defaults given or left out. A text is refused if it lacks a member that has to
be there or if a number in it is not whole or out of range; for numbers are read as whole ones only
where they are written without a fraction and a power and have no more than 64 bits. -/
theorem wire_types (k : Kind) :
    (∀ v, k.InRange v → k.ofJson (k.toJson v) = .ok v) ∧
    (∀ s v, k.ofJson s = .ok v →
      k.InRange v ∧ k.ofJson (k.toJson v) = .ok v ∧
      (∀ s', Json.Alike s.toList s'.toList → k.ofJson s' = .ok v) ∧
      ∀ s', Rephrased k (Json.read s).root (Json.read s').root →
        (Json.read s').trailing = false → k.ofJson s' = .ok v) ∧
    (∀ s, ¬k.Sound (Json.read s).root → ∃ e, k.ofJson s = .error e) ∧
    ∀ cs m rest, Json.number cs = (.whole m, rest) →
      ∃ n r, Json.numeral cs = .ok (n, r) ∧ rest = some r ∧ n.IsWhole m := by
  refine ⟨fun v hv => Kind.ofJson_toJson hv, fun s v h => ?_, fun s hs => ?_,
    fun cs m rest h => Json.isWhole_of_number h⟩
  · have hrange := Kind.inRange_of_ofJson h
    exact ⟨hrange, Kind.ofJson_toJson hrange, fun s' ha => Kind.ofJson_of_alike h ha,
      fun s' hr ht => Kind.ofJson_of_rephrased h hr ht⟩
  · cases h : k.ofJson s with
    | error e => exact ⟨e, rfl⟩
    | ok v => exact absurd (Kind.sound_of_decoder (Kind.ofJson_eq_ok_iff.1 h).1) hs

/-- Seven samples, and the default for the rest. -/
def sevenSamples : Datum := .dict [("latency_samples", .whole 7)] .strict

/-- The same with the default given, in another order and with a member of another name. -/
def rewordedSevenSamples : Datum :=
  .dict [("throughput_window_ms", .whole 2000), ("latency_samples", .whole 7), ("host", .text "b")]
    .strict

theorem wire_types_of_sevenSamples :
    let v : ProbeConfig := ⟨7, 2000⟩
    Kind.probe.InRange v ∧ Kind.probe.ofJson (Kind.probe.toJson v) = .ok v ∧
      Kind.probe.ofJson (Json.compact sevenSamples) = .ok v ∧
      Kind.probe.ofJson "\x7b \"latency_samples\" :7\x7d" = .ok v ∧
      Kind.probe.ofJson (Json.compact rewordedSevenSamples) = .ok v ∧
      (∃ e, Kind.receipt.ofJson (Json.compact sevenSamples) = .error e) ∧
      ∃ n r, Json.numeral ['7', ','] = .ok (n, r) ∧ some [','] = some r ∧ n.IsWhole 7 := by
  obtain ⟨hround, hread, -, hnumber⟩ := wire_types .probe
  have hdecode : Kind.probe.ofJson (Json.compact sevenSamples) = .ok (⟨7, 2000⟩ : ProbeConfig) := by
    have h : (Json.decode ProbeConfig.decoder (Json.compact sevenSamples)).toOption =
        some ⟨7, 2000⟩ := by decide +kernel
    exact eq_ok_of_toOption h
  obtain ⟨hrange, -, halike, hrephrased⟩ := hread _ _ hdecode
  have hsame : Json.Alike (Json.compact sevenSamples).toList
      "\x7b \"latency_samples\" :7\x7d".toList := by
    have htext : (Json.compact sevenSamples).toList = "\x7b\"latency_samples\":7\x7d".toList := by
      decide +kernel
    have hname : Json.Between "latency_samples".toList := Json.between_of_all (by decide +kernel)
    have hend : Json.Alike ['\x7d'] ['\x7d'] := .mark rfl .nil
    have hstops : Json.Stops ['\x7d'] := by
      rintro c ⟨⟩
      rfl
    have hvalue : Json.Alike ['7', '\x7d'] ['7', '\x7d'] :=
      .word (w := ['7']) rfl hstops hstops hend
    rw [htext]
    exact .mark rfl (.second rfl (.quoted hname (.second rfl (.mark rfl hvalue))))
  have hreworded : Rephrased .probe (Json.read (Json.compact sevenSamples)).root
      (Json.read (Json.compact rewordedSevenSamples)).root := by
    rw [Json.read_compact, Json.read_compact]
    simp only [sevenSamples, rewordedSevenSamples, Json.echo, Json.echoMembers]
    exact .trans (.unknown (show "host" ∉ Kind.probe.names by decide) rfl)
      (.trans (.default (.tail _ (.head _)) (by decide)) (.order (.cons _ (.swap _ _ _))))
  refine ⟨hrange, hround _ hrange, hdecode, halike _ hsame,
    hrephrased _ hreworded (by rw [Json.read_compact]), ?_, ?_⟩
  · refine (wire_types .receipt).2.2.1 _ ?_
    rw [Json.read_compact]
    rintro ⟨found, hparts, hneeded, -⟩
    cases hparts
    exact absurd (hneeded "set_id" (.head _)) (by decide)
  · exact hnumber ['7', ','] 7 (some [',']) rfl

end LinkTest.Wire
