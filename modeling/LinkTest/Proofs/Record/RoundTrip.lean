import LinkTest.Proofs.Json.Echo
import LinkTest.Proofs.Json.Finite
import LinkTest.Proofs.Record.Soundness
import LinkTest.Proofs.Stamp.Identifier
import LinkTest.Proofs.Stamp.Moment
import LinkTest.Record.Table

/-!
# Records are read back from their texts

A record that is written and read again is the same record, if all of its numbers are finite. One
with a number that is not finite can be written but not read. The indented text says what the
compact one says.
-/

namespace LinkTest

open Json (echo)

namespace Metrics

/-- All numbers among the measurements are finite. -/
def Finite (m : Metrics) : Prop := ∀ name x, m.get? name = some (.number x) → x.isFinite = true

/-- The text of each finite number among the measurements is read as that number. -/
def NumbersKept (m : Metrics) : Prop := ∀ name x, m.get? name = some (.number x) →
  x.isFinite = true → Metric.of? (Json.read (Json.real x)).root = some (.number x)

theorem echo_datum (m : Metrics) :
    echo m.datum = .dict (m.entries.map fun e => (e.1, echo e.2.datum)) .strict := by
  rw [datum, echo, Json.echoMembers_eq_map, List.map_map]
  rfl

theorem get?_eq_some_iff {m : Metrics} {name : String} {v : Metric} :
    m.get? name = some v ↔ (name, v) ∈ m.entries :=
  lookup_eq_some_iff (m.count_names name)

/-- A measurement is read back from its text. -/
theorem of?_echo_datum {m : Metrics} (hf : m.Finite) (hk : m.NumbersKept) {name : String}
    {v : Metric} (h : m.get? name = some v) : Metric.of? (echo v.datum) = some v := by
  cases v with
  | text s => rfl
  | number x =>
    have hx := hk name x h (hf name x h)
    have hread := Json.read_compact (.real x)
    rw [Json.compact] at hread
    rwa [hread] at hx

theorem written_echo {m : Metrics} (hf : m.Finite) (hk : m.NumbersKept) :
    Written (echo m.datum) m := by
  rw [echo_datum]
  refine .dict rfl (fun k d hm => ?_) fun name => ?_
  · obtain ⟨⟨k, v⟩, hv, heq⟩ := List.mem_map.1 hm
    obtain ⟨rfl, rfl⟩ := Prod.mk.inj heq
    rw [of?_echo_datum hf hk (get?_eq_some_iff.2 hv)]
    rfl
  · have hcount : ((m.entries.map fun e => (e.1, echo e.2.datum)).map (·.1)).count name ≤ 1 := by
      rw [List.map_map]
      exact m.count_names name
    rw [lookup_reverse hcount, lookup_map fun v : Metric => echo v.datum]
    change m.get? name = ((m.get? name).map _).bind _
    cases h : m.get? name with
    | none => rfl
    | some v => exact (of?_echo_datum hf hk h).symm

/-- What is read has been written with finite numbers only. -/
theorem finite_of_written {m m' : Metrics} (h : Written (echo m.datum) m') : m.Finite := by
  intro name x hx
  rw [echo_datum] at h
  cases h with
  | dict _ hfits _ =>
    have hsome := hfits name (echo (.real x))
      (List.mem_map.2 ⟨(name, .number x), get?_eq_some_iff.1 hx, rfl⟩)
    rw [echo] at hsome
    by_cases hf : x.isFinite = true
    · exact hf
    · rw [if_neg hf] at hsome
      cases hsome

theorem finite_of_allFinite {d : Datum} (hd : Json.AllFinite d) {m : Metrics} (h : Written d m) :
    m.Finite := by
  intro name x hx
  cases h with
  | @dict members _ _ _ _ hvalue =>
    cases hd with
    | dict hall =>
      rw [hvalue name] at hx
      obtain ⟨d, hlookup, hof⟩ := Option.bind_eq_some_iff.1 hx
      have hfinite := hall _ (List.mem_reverse.1 (mem_of_lookup hlookup))
      cases hfinite with
      | whole hn =>
        cases hof
        exact hn
      | real hr =>
        cases hof
        exact hr
      | _ => cases hof

end Metrics

namespace Record

/-- How a record comes about at a moment that exists. -/
inductive Dated : Record → Prop
  | measured {stamp : Stamp} (m : Metrics) (h : stamp.time.Valid) : Dated (.measured stamp m)
  | failed {stamp : Stamp} (reason : String) (h : stamp.time.Valid) : Dated (.failed stamp reason)
  | read {s : String} {r : Record} (h : ofJson s = .ok r) : Dated r

theorem Dated.built {r : Record} (h : Dated r) : Built r := by
  cases h with
  | measured m h => exact .measured _ m
  | failed reason h => exact .failed _ reason
  | read h => exact .read h

theorem Dated.valid_time {r : Record} (h : Dated r) : r.stamp.time.Valid := by
  cases h with
  | measured m h =>
    rcases measured_cases _ m with ⟨-, hm⟩ | ⟨_, -, hm⟩
    · rw [hm]
      exact h
    · rw [hm]
      exact h
  | failed reason h => exact h
  | read h =>
    obtain ⟨-, part, raw, -, hshape, -, hmakes⟩ := ofJson_eq_ok_iff.1 h
    obtain ⟨s, -, ht⟩ := hshape.time
    rw [hmakes.time]
    exact Timestamp.valid_of_ofText ht

/-- What a record's own text says. -/
def raw (r : Record) : Raw := ⟨r.stamp.id, r.isValid, r.stamp.time, r.metrics, r.failure⟩

/-- The members of a record's text. -/
def members (r : Record) : List (String × Datum) := [
  ("id", .text r.stamp.id.text), ("valid", .boolean r.isValid),
  ("recorded_at", .text r.stamp.time.text), ("metrics", echo r.metrics.datum),
  ("failure", match r.failure with
    | some s => .text s
    | none => .null)]

theorem echo_datum (r : Record) : echo r.datum = .dict r.members .strict := by
  unfold datum members
  rw [echo, Json.echoMembers_eq_map]
  cases r.failure <;> simp [echo]

theorem read_toJson (r : Record) : Json.read r.toJson = ⟨.dict r.members .strict, false⟩ := by
  rw [toJson, Json.read_compact, echo_datum]

/-- The indented text says the same. -/
theorem ofJson_renderJson (r : Record) : ofJson r.renderJson = ofJson r.toJson := by
  rw [ofJson, ofJson, Json.decode, Json.decode, renderJson, toJson, Json.read_pretty,
    Json.read_compact]

theorem parts_members (r : Record) :
    Decoder.Parts partNames (.dict r.members .strict) fun name => r.members.lookup name := by
  have hnames : r.members.map (·.1) = partNames := rfl
  refine .dict rfl (fun name _ => ?_) fun k d hm hk => ?_
  · rw [hnames]
    exact List.nodup_iff_count.1 (by decide) name
  · exact absurd (hnames ▸ List.mem_map_of_mem hm) hk

/-- What is read from a record's own text is the record. -/
theorem ofJson_toJson {r : Record} (hr : r.Honest) (ht : r.stamp.time.Valid)
    (hf : r.metrics.Finite) (hk : r.metrics.NumbersKept) : ofJson r.toJson = .ok r := by
  rw [ofJson_eq_ok_iff, read_toJson]
  refine ⟨rfl, _, r.raw, parts_members r, ⟨?_, rfl, ?_, ?_, ?_⟩, ?_, rfl, rfl, rfl, rfl, ?_⟩
  · exact ⟨_, rfl, r.stamp.id.ofText_text⟩
  · exact ⟨_, rfl, ht.ofText_text⟩
  · exact .inr ⟨_, rfl, Metrics.written_echo hf hk⟩
  · change (_ ∨ some _ = some Datum.null) ∧ r.failure = none ∨
      ∃ s, some _ = some (Datum.text s) ∧ r.failure = some s
    cases r.failure with
    | none => exact .inl ⟨.inr rfl, rfl⟩
    | some s => exact .inr ⟨s, rfl, rfl⟩
  · cases hv : r.isValid with
    | true => exact .inl ⟨hv, (hr.valid hv).1⟩
    | false => exact .inr ⟨hv, hr.invalid hv⟩
  · change r.failure = if r.isValid then none else r.failure
    cases hv : r.isValid with
    | true => exact (hr.valid hv).2
    | false => rfl

/-- A record with a number that is not finite is not read at all. -/
theorem finite_of_ofJson_toJson {r r' : Record} (h : ofJson r.toJson = .ok r') :
    r.metrics.Finite := by
  rw [ofJson_eq_ok_iff, read_toJson] at h
  obtain ⟨-, part, raw, hparts, hshape, -, -⟩ := h
  cases hparts with
  | dict _ _ _ =>
    rcases hshape.metrics with ⟨hnone, -⟩ | ⟨d, hd, hwritten⟩
    · cases hnone
    · obtain rfl : echo r.metrics.datum = d := Option.some.inj hd
      exact Metrics.finite_of_written hwritten

/-- All numbers of a record that is read are finite. -/
theorem finite_of_ofJson {s : String} {r : Record} (h : ofJson s = .ok r) : r.metrics.Finite := by
  obtain ⟨-, part, raw, hparts, hshape, -, hmakes⟩ := ofJson_eq_ok_iff.1 h
  have hall := Json.allFinite_read s
  rw [hmakes.metrics]
  rcases hshape.metrics with ⟨-, hempty⟩ | ⟨d, hd, hwritten⟩
  · rw [hempty]
    exact nofun
  · refine Metrics.finite_of_allFinite ?_ hwritten
    generalize (Json.read s).root = root at hparts hall
    cases hparts with
    | dict _ _ _ =>
      cases hall with
      | dict hmembers => exact hmembers _ (mem_of_lookup hd)
    | list _ _ =>
      cases hall with
      | list hitems => exact hitems d (List.of_mem_zip (mem_of_lookup hd)).2

/-- A record that is written is read as itself exactly if all of its numbers are finite, as far as
the text of each finite one is read as that number; otherwise it is not read at all. Indented it is
read the same way. What was read has finite numbers only, so it can always be written and read
again. -/
theorem ofJson_toJson_iff {r : Record} (h : Dated r) :
    (r.metrics.NumbersKept → (ofJson r.toJson = .ok r ↔ r.metrics.Finite)) ∧
    (¬ r.metrics.Finite → ∃ m, ofJson r.toJson = .error (.json m)) ∧
    ofJson r.renderJson = ofJson r.toJson ∧
    ∀ s, ofJson s = .ok r →
      r.metrics.Finite ∧ (r.metrics.NumbersKept → ofJson r.toJson = .ok r) := by
  have hback := ofJson_toJson (honest_of_built h.built) h.valid_time
  refine ⟨fun hk => ⟨finite_of_ofJson_toJson, fun hf => hback hf hk⟩, fun hf => ?_,
    ofJson_renderJson r, fun s hs => ?_⟩
  · cases hd : Json.decode decoder r.toJson with
    | ok r' =>
      have hr : ofJson r.toJson = .ok r' := by rw [ofJson, hd]; rfl
      exact absurd (finite_of_ofJson_toJson hr) hf
    | error m => exact ⟨m, by rw [ofJson, hd]; rfl⟩
  · have hf := finite_of_ofJson hs
    exact ⟨hf, hback hf⟩

/-- The first noon of the year 2000. -/
def sampleStamp : Stamp := ⟨⟨0x12#128⟩, ⟨(Timestamp.Date.mk 2000 1 1).toDays, 43200, 0⟩⟩

def sampleMetrics : Metrics := .ofList [
  ("latency_ms", .number (.ofNat 42)),
  ("throughput_mbps", .number (.ofDecimal false 875 (-1))),
  ("\"note\"\t", .text "line\nbreak \\ \x01")]

/-- A record is read back although its texts must be escaped; with an infinite measurement beside
the others it is not. -/
theorem ofJson_toJson_sample :
    ofJson (measured sampleStamp sampleMetrics).toJson =
      .ok (measured sampleStamp sampleMetrics) ∧
    ∃ m, ofJson (measured sampleStamp
      (sampleMetrics.insert "jitter" (.number (.infinite false)))).toJson = .error (.json m) := by
  have htime : sampleStamp.time.Valid := ⟨by decide +kernel, by decide, by decide⟩
  have hentries : (measured sampleStamp sampleMetrics).metrics.entries =
      [("\"note\"\t", .text "line\nbreak \\ \x01"), ("latency_ms", .number (.ofNat 42)),
        ("throughput_mbps", .number (.ofDecimal false 875 (-1)))] := by decide +kernel
  have hnumbers : ∀ name x, (measured sampleStamp sampleMetrics).metrics.get? name =
      some (.number x) → x = .ofNat 42 ∨ x = .ofDecimal false 875 (-1) := by
    intro name x hx
    rw [Metrics.get?_eq_some_iff, hentries] at hx
    simp only [List.mem_cons, Prod.mk.injEq, Metric.number.injEq, reduceCtorEq, and_false,
      List.not_mem_nil, or_false, false_or] at hx
    exact hx.imp And.right And.right
  refine ⟨((ofJson_toJson_iff (.measured _ htime)).1 fun name x hx _ => ?_).2 fun name x hx => ?_,
    (ofJson_toJson_iff (.measured _ htime)).2.1 fun hf => ?_⟩
  · rcases hnumbers name x hx with rfl | rfl <;> decide +kernel
  · rcases hnumbers name x hx with rfl | rfl <;> decide +kernel
  · exact absurd (hf "jitter" (.infinite false) (by decide +kernel)) nofun

end Record
end LinkTest
