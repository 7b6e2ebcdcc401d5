import LinkTest.Proofs.Datum.Fields
import LinkTest.Proofs.Record.Entries
import LinkTest.Record.Basic

/-!
# No forged records

However a record came about, a valid one has the measurements that are required, and an invalid one
has none. What is measured makes a valid record exactly if it has them; a text is read as a record
exactly if its parts are of the right kinds and keep to this.
-/

namespace LinkTest

/-! ## What is required of metrics -/

namespace Metrics

/-- There is a measurement of this name that is a finite number and not below zero. -/
def InRange (m : Metrics) (name : String) : Prop :=
  ∃ x, m.get? name = some (.number x) ∧ x.isFinite = true ∧ x.isBelowZero = false

def Passes (m : Metrics) : Prop := ∀ name ∈ required, m.InRange name

/-- What is wrong with a measurement of this name, and how it is said. -/
inductive Offends (m : Metrics) (name : String) : String → Prop
  | missing (h : m.get? name = none) : Offends m name ("missing metric '" ++ name ++ "'")
  | text {s : String} (h : m.get? name = some (.text s)) :
    Offends m name ("metric '" ++ name ++ "' is not numeric")
  | range {x : Binary64} (h : m.get? name = some (.number x))
    (hx : x.isFinite = false ∨ x.isBelowZero = true) :
    Offends m name ("metric '" ++ name ++ "' is out of range: " ++ x.plain)

/-- What is wrong with the first of the required measurements with which anything is. -/
inductive FirstOffends (m : Metrics) (reason : String) : Prop
  | after {name : String} {before rest : List String} (h : required = before ++ name :: rest)
    (hb : ∀ b ∈ before, m.InRange b) (ho : m.Offends name reason) : FirstOffends m reason

variable {m : Metrics} {name reason : String}

theorem flawOf_eq_some_iff : flawOf name (m.get? name) = some reason ↔ m.Offends name reason := by
  constructor
  · intro h
    cases hm : m.get? name with
    | none =>
      rw [hm] at h
      obtain rfl := Option.some.inj h
      exact .missing hm
    | some metric =>
      rw [hm] at h
      cases metric with
      | text s =>
        obtain rfl := Option.some.inj h
        exact .text hm
      | number x =>
        rw [flawOf] at h
        split at h
        · next hx =>
          obtain rfl := Option.some.inj h
          exact .range hm (by simpa using hx)
        · cases h
  · rintro (h | h | ⟨h, hx⟩)
    · rw [h, flawOf]
    · rw [h, flawOf]
    · rw [h, flawOf, if_pos (by simpa using hx)]

theorem flawOf_eq_none_iff : flawOf name (m.get? name) = none ↔ m.InRange name := by
  unfold InRange
  cases hm : m.get? name with
  | none => simp [flawOf]
  | some metric => cases metric <;> simp [flawOf]

theorem flaw?_eq_none_iff : m.flaw? = none ↔ m.Passes := by
  rw [flaw?, List.findSome?_eq_none_iff]
  exact forall₂_congr fun name _ => flawOf_eq_none_iff

theorem flaw?_eq_some_iff : m.flaw? = some reason ↔ m.FirstOffends reason := by
  rw [flaw?, List.findSome?_eq_some_iff]
  constructor
  · rintro ⟨before, name, rest, h, ho, hb⟩
    exact .after h (fun b hm => flawOf_eq_none_iff.1 (hb b hm)) (flawOf_eq_some_iff.1 ho)
  · rintro ⟨h, hb, ho⟩
    exact ⟨_, _, _, h, flawOf_eq_some_iff.2 ho, fun b hm => flawOf_eq_none_iff.2 (hb b hm)⟩

end Metrics

/-! ## What a text says -/

/-- The measurement that a value stands for: it may be any number or text. -/
def Metric.of? : Datum → Option Metric
  | .whole n => some (.number (Binary64.ofInt n))
  | .real x => some (.number x)
  | .text s => some (.text s)
  | _ => none

theorem Metric.readFault_eq_none {d : Datum} {x : Metric} (h : Metric.of? d = some x)
    (depth : Nat) : d.readFault depth = none := by
  cases d with
  | whole n => cases depth <;> rfl
  | real x => cases depth <;> rfl
  | text s => cases depth <;> rfl
  | _ => cases h

theorem Metric.decoder_eq_ok_iff {depth : Nat} {d : Datum} {x : Metric} :
    Metric.decoder depth d = .ok x ↔ Metric.of? d = some x := by
  constructor
  · intro h
    unfold Metric.decoder at h
    split at h
    · cases h
    · split at h
      · rw [← Except.ok.inj h]
        rfl
      · rw [← Except.ok.inj h]
        rfl
      · rw [← Except.ok.inj h]
        rfl
      · cases h
  · intro h
    have hf := readFault_eq_none h depth
    cases d with
    | whole n => rw [Metric.decoder, hf, ← Option.some.inj h]
    | real x => rw [Metric.decoder, hf, ← Option.some.inj h]
    | text s => rw [Metric.decoder, hf, ← Option.some.inj h]
    | _ => cases h

/-- Metrics as a dictionary of numbers and texts. Of two with one name the later counts. -/
inductive Metrics.Written : Datum → Metrics → Prop
  | dict {members : List (String × Datum)} {e : Ending} {m : Metrics} (closed : e.readFault = none)
    (fits : ∀ k d, (k, d) ∈ members → (Metric.of? d).isSome)
    (value : ∀ name, m.get? name = (members.reverse.lookup name).bind Metric.of?) :
    Written (.dict members e) m

theorem mapM_eq_ok_iff {depth : Nat} {members : List (String × Datum)}
    {values : List (String × Metric)} :
    members.mapM (fun (k, d) => do
      let x ← Metric.decoder depth d
      Except.ok (k, x)) = .ok values ↔
    members.map (fun e => (e.1, Metric.of? e.2)) = values.map fun e => (e.1, some e.2) := by
  induction members generalizing values with
  | nil => cases values <;> simp [pure, Except.pure]
  | cons e members ih =>
    rw [List.mapM_cons, bind_eq_ok]
    constructor
    · rintro ⟨v, hv, h⟩
      obtain ⟨x, hx, hv⟩ := bind_eq_ok.1 hv
      obtain rfl := Except.ok.inj hv
      obtain ⟨vs, hvs, h⟩ := bind_eq_ok.1 h
      obtain rfl := Except.ok.inj h
      rw [List.map_cons, List.map_cons, ih.1 hvs, Metric.decoder_eq_ok_iff.1 hx]
    · intro h
      cases values with
      | nil => cases h
      | cons v values =>
        obtain ⟨hv, hvs⟩ := List.cons.inj h
        obtain ⟨hk, hx⟩ := Prod.mk.inj hv
        refine ⟨(e.1, v.2), bind_eq_ok.2 ⟨v.2, Metric.decoder_eq_ok_iff.2 hx, rfl⟩,
          bind_eq_ok.2 ⟨values, ih.2 hvs, ?_⟩⟩
        rw [hk]
        rfl

theorem exists_values {members : List (String × Datum)}
    (h : ∀ k d, (k, d) ∈ members → (Metric.of? d).isSome) : ∃ values : List (String × Metric),
      members.map (fun e => (e.1, Metric.of? e.2)) = values.map fun e => (e.1, some e.2) := by
  induction members with
  | nil => exact ⟨[], rfl⟩
  | cons e members ih =>
    obtain ⟨values, hv⟩ := ih fun k d hm => h k d (List.mem_cons_of_mem _ hm)
    obtain ⟨x, hx⟩ := Option.isSome_iff_exists.1 (h e.1 e.2 List.mem_cons_self)
    exact ⟨(e.1, x) :: values, by rw [List.map_cons, List.map_cons, hv, hx]⟩

theorem Metrics.get?_of_members {members : List (String × Datum)}
    {values : List (String × Metric)}
    (h : members.map (fun e => (e.1, Metric.of? e.2)) = values.map fun e => (e.1, some e.2))
    (name : String) :
    (ofList values).get? name = (members.reverse.lookup name).bind Metric.of? := by
  have hl : (members.map fun e => (e.1, Metric.of? e.2)).reverse.lookup name =
      (values.map fun e => (e.1, some e.2)).reverse.lookup name := by rw [h]
  rw [← List.map_reverse, ← List.map_reverse, lookup_map, lookup_map] at hl
  rw [get?_ofList]
  cases hd : members.reverse.lookup name with
  | none =>
    rw [hd, Option.map_none, eq_comm, Option.map_eq_none_iff] at hl
    rw [hl, Option.bind_none]
  | some d =>
    rw [hd] at hl
    obtain ⟨x, hx, heq⟩ := Option.map_eq_some_iff.1 hl.symm
    rw [hx, Option.bind_some, heq]

theorem Metrics.decoder_eq_ok_iff {depth : Nat} {d : Datum} {m : Metrics} :
    Metrics.decoder depth d = .ok m ↔ Metrics.Written d m := by
  cases d with
  | dict members e =>
    constructor
    · intro h
      cases hl : Decoder.dictOf (Metric.decoder depth) (.dict members e) with
      | error f =>
        rw [Metrics.decoder, hl] at h
        cases h
      | ok values =>
        rw [Metrics.decoder, hl] at h
        obtain rfl : ofList values = m := Except.ok.inj h
        obtain ⟨values', hv, h'⟩ := bind_eq_ok.1 hl
        obtain ⟨_, hc, h'⟩ := bind_eq_ok.1 h'
        obtain rfl : values' = values := Except.ok.inj h'
        have hmap := mapM_eq_ok_iff.1 hv
        refine .dict (Decoder.closing_eq_ok_iff.1 hc) (fun k d hm => ?_) (get?_of_members hmap)
        have hm' : (k, Metric.of? d) ∈ members.map fun e => (e.1, Metric.of? e.2) :=
          List.mem_map.2 ⟨_, hm, rfl⟩
        rw [hmap, List.mem_map] at hm'
        obtain ⟨e, -, he⟩ := hm'
        rw [← (Prod.mk.inj he).2]
        rfl
    · rintro ⟨hc, hf, hv⟩
      obtain ⟨values, hmap⟩ := exists_values hf
      have hl : Decoder.dictOf (Metric.decoder depth) (.dict members e) = .ok values :=
        bind_eq_ok.2 ⟨values, mapM_eq_ok_iff.2 hmap,
          bind_eq_ok.2 ⟨(), Decoder.closing_eq_ok_iff.2 hc, rfl⟩⟩
      have hm : m = ofList values :=
        ext_get? fun name => (hv name).trans (get?_of_members hmap name).symm
      rw [Metrics.decoder, hl, hm]
      rfl
  | _ => exact ⟨nofun, nofun⟩

/-- Of two measurements with one name the later counts, of whatever kind the earlier is. -/
example : (Metrics.decoder 0 (.dict [("latency_ms", .text "slow"), ("latency_ms", .whole 42)]
    .strict)).toOption.map (·.entries) = some [("latency_ms", .number (.ofInt 42))] := by
  decide +kernel

namespace Record

/-- What a text says about a record. -/
structure Raw where
  id : Uuid
  valid : Bool
  time : Timestamp
  metrics : Metrics
  failure : Option String

def partNames : List String := ["id", "valid", "recorded_at", "metrics", "failure"]

/-- The parts of a text are of the right kinds. There may be no metrics and no failure, and the
failure may be `null`. -/
structure Raw.Shape (raw : Raw) (part : Decoder.Found) : Prop where
  id : ∃ s, part "id" = some (.text s) ∧ Uuid.ofText s = .ok raw.id
  valid : part "valid" = some (.boolean raw.valid)
  time : ∃ s, part "recorded_at" = some (.text s) ∧ Timestamp.ofText s = .ok raw.time
  metrics : (part "metrics" = none ∧ raw.metrics = .empty) ∨
    ∃ d, part "metrics" = some d ∧ Metrics.Written d raw.metrics
  failure : ((part "failure" = none ∨ part "failure" = some .null) ∧ raw.failure = none) ∨
    ∃ s, part "failure" = some (.text s) ∧ raw.failure = some s

/-- What is said to be valid passes, and what is said to be invalid has no metrics. -/
def Raw.Consistent (raw : Raw) : Prop :=
  (raw.valid = true ∧ raw.metrics.Passes) ∨ (raw.valid = false ∧ raw.metrics = .empty)

/-- The record has what the text says, but no failure if it is valid. -/
structure Raw.Makes (raw : Raw) (r : Record) : Prop where
  id : r.stamp.id = raw.id
  time : r.stamp.time = raw.time
  valid : r.isValid = raw.valid
  metrics : r.metrics = raw.metrics
  failure : r.failure = if raw.valid then none else raw.failure

/-- How a record comes about. -/
inductive Built : Record → Prop
  | measured (stamp : Stamp) (m : Metrics) : Built (.measured stamp m)
  | failed (stamp : Stamp) (reason : String) : Built (.failed stamp reason)
  | read {s : String} {r : Record} (h : ofJson s = .ok r) : Built r

theorem ofParts_eq_ok_iff {raw : Raw} {r : Record} :
    ofParts ⟨raw.id, raw.time⟩ raw.valid raw.metrics raw.failure = .ok r ↔
      raw.Consistent ∧ raw.Makes r := by
  obtain ⟨id, valid, time, m, failure⟩ := raw
  obtain ⟨⟨id', time'⟩, content⟩ := r
  unfold ofParts Raw.Consistent
  constructor
  · intro h
    cases valid with
    | true =>
      rw [if_pos rfl] at h
      split at h
      · next hm =>
        obtain ⟨⟨rfl, rfl⟩, rfl⟩ : (id = id' ∧ time = time') ∧ .ok m = content := by simpa using h
        exact ⟨.inl ⟨rfl, Metrics.flaw?_eq_none_iff.1 hm⟩, rfl, rfl, rfl, rfl, rfl⟩
      · cases h
    | false =>
      rw [if_neg nofun] at h
      split at h
      · next hm =>
        obtain ⟨⟨rfl, rfl⟩, rfl⟩ : (id = id' ∧ time = time') ∧ .error failure = content := by
          simpa using h
        have hempty : m = .empty := by
          obtain ⟨entries, _⟩ := m
          obtain rfl : entries = [] := List.isEmpty_iff.1 hm
          rfl
        exact ⟨.inr ⟨rfl, hempty⟩, rfl, rfl, rfl, hempty.symm, rfl⟩
      · cases h
  · rintro ⟨hc, rfl, rfl, hv, hm, hf⟩
    dsimp only at hc hv hm hf
    rcases hc with ⟨rfl, hp⟩ | ⟨rfl, rfl⟩
    · rw [if_pos rfl, Metrics.flaw?_eq_none_iff.2 hp]
      cases content with
      | ok m' => rw [show m' = m from hm]
      | error f => cases hv
    · rw [if_neg nofun]
      cases content with
      | ok m' => cases hv
      | error f => rw [show f = failure from hf]; rfl

theorem uuid_decoder_eq_ok_iff {d : Datum} {u : Uuid} :
    Uuid.decoder d = .ok u ↔ ∃ s, d = .text s ∧ Uuid.ofText s = .ok u := by
  cases d with
  | text s => simp [Uuid.decoder, mapError_eq_ok]
  | _ => simp [Uuid.decoder]

theorem timestamp_decoder_eq_ok_iff {d : Datum} {t : Timestamp} :
    Timestamp.decoder d = .ok t ↔ ∃ s, d = .text s ∧ Timestamp.ofText s = .ok t := by
  cases d with
  | text s => simp [Timestamp.decoder, mapError_eq_ok]
  | _ => simp [Timestamp.decoder]

/-- The parts of a datum can be read one by one exactly if they have the shape. -/
theorem shape_iff {part : Decoder.Found} {raw : Raw} :
    raw.Shape part ↔ part.get "id" Uuid.decoder = .ok raw.id ∧
      part.get "valid" Decoder.boolean = .ok raw.valid ∧
      part.get "recorded_at" Timestamp.decoder = .ok raw.time ∧
      part.getD "metrics" (Metrics.decoder metricDepth) .empty = .ok raw.metrics ∧
      part.getD "failure" (Decoder.optional Decoder.text) none = .ok raw.failure := by
  simp only [Decoder.get_eq_ok_iff, Decoder.getD_eq_ok_iff, uuid_decoder_eq_ok_iff,
    timestamp_decoder_eq_ok_iff, Decoder.boolean_eq_ok_iff, Metrics.decoder_eq_ok_iff,
    Decoder.optional_eq_ok_iff, Decoder.text_eq_ok_iff]
  constructor
  · rintro ⟨⟨s, hi, hs⟩, hv, ⟨s', ht, hs'⟩, hm, hf⟩
    refine ⟨⟨_, hi, s, rfl, hs⟩, ⟨_, hv, rfl⟩, ⟨_, ht, s', rfl, hs'⟩, hm, ?_⟩
    rcases hf with ⟨hf | hf, hn⟩ | ⟨s, hf, hs⟩
    · exact .inl ⟨hf, hn⟩
    · exact .inr ⟨_, hf, .inl ⟨rfl, hn⟩⟩
    · exact .inr ⟨_, hf, .inr ⟨nofun, s, rfl, hs⟩⟩
  · rintro ⟨⟨d, hi, s, rfl, hs⟩, ⟨d', hv, rfl⟩, ⟨d'', ht, s', rfl, hs'⟩, hm, hf⟩
    refine ⟨⟨s, hi, hs⟩, hv, ⟨s', ht, hs'⟩, hm, ?_⟩
    rcases hf with ⟨hf, hn⟩ | ⟨d, hf, ⟨rfl, hn⟩ | ⟨-, s, rfl, hs⟩⟩
    · exact .inl ⟨.inl hf, hn⟩
    · exact .inl ⟨.inr hf, hn⟩
    · exact .inr ⟨s, hf, hs⟩

theorem fit_of_shape {part : Decoder.Found} {raw : Raw} (h : raw.Shape part) :
    Decoder.Fit fields part := by
  obtain ⟨hid, hvalid, htime, hm, hf⟩ := shape_iff.1 h
  refine ⟨fun f hmem d hd => ?_, fun f hmem hne => ?_⟩
  · simp only [fields, List.mem_cons, List.not_mem_nil, or_false] at hmem
    rcases hmem with rfl | rfl | rfl | rfl | rfl
    · exact Decoder.check_of_get hid hd
    · exact Decoder.check_of_get hvalid hd
    · exact Decoder.check_of_get htime hd
    · exact Decoder.check_of_getD hm hd
    · exact Decoder.check_of_getD hf hd
  · simp only [fields, List.mem_cons, List.not_mem_nil, or_false] at hmem
    rcases hmem with rfl | rfl | rfl | rfl | rfl
    · exact Decoder.isSome_of_get hid
    · exact Decoder.isSome_of_get hvalid
    · exact Decoder.isSome_of_get htime
    · exact absurd rfl hne
    · exact absurd rfl hne

theorem decoder_eq_ok_iff {d : Datum} {r : Record} :
    decoder d = .ok r ↔ ∃ (part : Decoder.Found) (raw : Raw), Decoder.Parts partNames d part ∧
      raw.Shape part ∧ raw.Consistent ∧ raw.Makes r := by
  have hfields : ∀ part, Decoder.fields "RawRecord" fields d = .ok part ↔
      Decoder.Parts partNames d part ∧ Decoder.Fit fields part :=
    Decoder.fields_eq_ok_iff (by decide) (by simp [fields, Decoder.Field.of]) "RawRecord" d
  constructor
  · intro h
    obtain ⟨part, hp, h⟩ := bind_eq_ok.1 h
    obtain ⟨id, hid, h⟩ := bind_eq_ok.1 h
    obtain ⟨valid, hvalid, h⟩ := bind_eq_ok.1 h
    obtain ⟨time, htime, h⟩ := bind_eq_ok.1 h
    obtain ⟨m, hm, h⟩ := bind_eq_ok.1 h
    obtain ⟨failure, hfailure, h⟩ := bind_eq_ok.1 h
    have hparts : ofParts ⟨id, time⟩ valid m failure = .ok r := mapError_eq_ok.1 h
    exact ⟨part, ⟨id, valid, time, m, failure⟩, ((hfields part).1 hp).1,
      shape_iff.2 ⟨hid, hvalid, htime, hm, hfailure⟩, ofParts_eq_ok_iff.1 hparts⟩
  · rintro ⟨part, raw, hp, hs, hr⟩
    obtain ⟨hid, hvalid, htime, hm, hfailure⟩ := shape_iff.1 hs
    refine bind_eq_ok.2 ⟨part, (hfields part).2 ⟨hp, fit_of_shape hs⟩, bind_eq_ok.2 ⟨_, hid,
      bind_eq_ok.2 ⟨_, hvalid, bind_eq_ok.2 ⟨_, htime, bind_eq_ok.2 ⟨_, hm,
        bind_eq_ok.2 ⟨_, hfailure, ?_⟩⟩⟩⟩⟩⟩
    exact mapError_eq_ok.2 (ofParts_eq_ok_iff.2 hr)

/-- A text is read as a record exactly if nothing follows its value, the value has the parts of a
record, and these are consistent. -/
theorem ofJson_eq_ok_iff {s : String} {r : Record} :
    ofJson s = .ok r ↔ (Json.read s).trailing = false ∧
      ∃ (part : Decoder.Found) (raw : Raw), Decoder.Parts partNames (Json.read s).root part ∧
        raw.Shape part ∧ raw.Consistent ∧ raw.Makes r := by
  rw [← decoder_eq_ok_iff, ofJson, mapError_eq_ok, Json.decode, bind_eq_ok]
  constructor
  · rintro ⟨r', hr, h⟩
    split at h
    · cases h
    · next ht =>
      obtain rfl := Except.ok.inj h
      exact ⟨by simpa using ht, hr⟩
  · rintro ⟨ht, hr⟩
    exact ⟨r, hr, by rw [ht]; rfl⟩

theorem measured_cases (stamp : Stamp) (m : Metrics) :
    (m.Passes ∧ measured stamp m = ⟨stamp, .ok m⟩) ∨
      ∃ reason, m.FirstOffends reason ∧ measured stamp m = failed stamp reason := by
  unfold measured
  split
  · next h => exact .inl ⟨Metrics.flaw?_eq_none_iff.1 h, rfl⟩
  · next reason h => exact .inr ⟨reason, Metrics.flaw?_eq_some_iff.1 h, rfl⟩

/-- A record keeps to what it says about itself. -/
structure Honest (r : Record) : Prop where
  valid : r.isValid = true → r.metrics.Passes ∧ r.failure = none
  invalid : r.isValid = false → r.metrics = .empty

theorem honest_failed (stamp : Stamp) (reason : String) : (failed stamp reason).Honest :=
  ⟨nofun, fun _ => rfl⟩

theorem honest_measured (stamp : Stamp) (m : Metrics) : (measured stamp m).Honest := by
  rcases measured_cases stamp m with ⟨hp, h⟩ | ⟨reason, -, h⟩
  · rw [h]
    exact ⟨fun _ => ⟨hp, rfl⟩, nofun⟩
  · rw [h]
    exact honest_failed stamp reason

theorem Raw.Makes.honest {raw : Raw} {r : Record} (h : raw.Makes r) (hc : raw.Consistent) :
    r.Honest := by
  refine ⟨fun hv => ?_, fun hv => ?_⟩
  · rw [h.valid] at hv
    rcases hc with ⟨-, hp⟩ | ⟨hf, -⟩
    · rw [h.metrics, h.failure, if_pos hv]
      exact ⟨hp, rfl⟩
    · cases hv.symm.trans hf
  · rw [h.valid] at hv
    rcases hc with ⟨ht, -⟩ | ⟨-, hm⟩
    · cases hv.symm.trans ht
    · rw [h.metrics, hm]

theorem honest_of_built {r : Record} (h : Built r) : r.Honest := by
  cases h with
  | measured stamp m => exact honest_measured stamp m
  | failed stamp reason => exact honest_failed stamp reason
  | read h =>
    obtain ⟨-, part, raw, -, -, hc, hr⟩ := ofJson_eq_ok_iff.1 h
    exact hr.honest hc

/-- No record can be forged. However it came about, a valid one has the required measurements and no
failure, and an invalid one has no metrics. Measurements make a valid record, which keeps all of
them, exactly if the required ones are in range; otherwise the record names the first that is not.
A text is read as a record exactly if its parts have the right kinds and are consistent, and then
the record is the one that the text describes. -/
theorem built_iff_described :
    (∀ r, Built r → r.Honest) ∧
    (∀ stamp m, ((measured stamp m).isValid = true ↔ m.Passes) ∧
      (m.Passes → (measured stamp m).metrics = m) ∧
      (¬ m.Passes →
        ∃ reason, m.FirstOffends reason ∧ (measured stamp m).failure = some reason)) ∧
    ∀ s r, ofJson s = .ok r ↔ (Json.read s).trailing = false ∧
      ∃ (part : Decoder.Found) (raw : Raw), Decoder.Parts partNames (Json.read s).root part ∧
        raw.Shape part ∧ raw.Consistent ∧ raw.Makes r := by
  refine ⟨fun r => honest_of_built, fun stamp m => ?_, fun s r => ofJson_eq_ok_iff⟩
  rcases measured_cases stamp m with ⟨hp, h⟩ | ⟨reason, hf, h⟩
  · rw [h]
    exact ⟨⟨fun _ => hp, fun _ => rfl⟩, fun _ => rfl, fun hn => absurd hp hn⟩
  · have hn : ¬ m.Passes := fun hp => by
      rw [← Metrics.flaw?_eq_none_iff, Metrics.flaw?_eq_some_iff.2 hf] at hp
      cases hp
    rw [h]
    exact ⟨⟨nofun, fun hp => absurd hp hn⟩, fun hp => absurd hp hn, fun _ => ⟨reason, hf, rfl⟩⟩

end Record
end LinkTest
