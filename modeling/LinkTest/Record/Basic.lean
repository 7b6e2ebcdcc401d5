import LinkTest.Failure
import LinkTest.Json
import LinkTest.Record.Metrics
import LinkTest.Timestamp
import LinkTest.Uuid

/-! # Records of a test

A record is built once, at the end of a run. Either it holds measurements, the required ones
among them, or only the reason why there are none. -/

namespace LinkTest

/-- What is put on a record when it is built: a fresh identifier and the time. -/
structure Stamp where
  id : Uuid
  time : Timestamp
deriving DecidableEq, Repr, Inhabited

structure Record where
  stamp : Stamp
  /-- Measurements, or a reason for their absence, which may be unknown. -/
  content : Except (Option String) Metrics

namespace Record

def failed (stamp : Stamp) (reason : String) : Record := ⟨stamp, .error (some reason)⟩

/-- A record of the measurements if the required ones are there and in range; otherwise one that
says what is wrong first. -/
def measured (stamp : Stamp) (m : Metrics) : Record :=
  match m.flaw? with
  | none => ⟨stamp, .ok m⟩
  | some reason => failed stamp reason

def isValid (r : Record) : Bool :=
  match r.content with
  | .ok _ => true
  | .error _ => false

def metrics (r : Record) : Metrics :=
  match r.content with
  | .ok m => m
  | .error _ => .empty

def failure (r : Record) : Option String :=
  match r.content with
  | .ok _ => none
  | .error reason => reason

def metric? (r : Record) (name : String) : Option Metric := r.metrics.get? name

/-- The reason of a failed record in any case. -/
def reason (r : Record) : String := r.failure.getD "unknown failure"

def same (r s : Record) : Bool :=
  r.stamp == s.stamp && r.isValid == s.isValid && r.metrics.same s.metrics && r.failure == s.failure

/-- All of a record, for people. -/
def describe (r : Record) : String :=
  "ResultsRecord \x7b id: RecordId(" ++ r.stamp.id.text ++ "), valid: " ++ toString r.isValid ++
    ", recorded_at: " ++ r.stamp.time.text ++ ", metrics: " ++ r.metrics.describe ++
    ", failure: " ++ Text.optional (r.failure.map Text.quoted) ++ " \x7d"

/-! ## As JSON -/

def datum (r : Record) : Datum :=
  .dict [
    ("id", .text r.stamp.id.text),
    ("valid", .boolean r.isValid),
    ("recorded_at", .text r.stamp.time.text),
    ("metrics", r.metrics.datum),
    ("failure", match r.failure with
      | some s => .text s
      | none => .null)] .strict

/-- How many levels of lists and dictionaries may nest inside a record's measurement. -/
def metricDepth : Nat := Json.depthLimit - 2

def fields : List Decoder.Field := [
  .of "id" Uuid.decoder .refused,
  .of "valid" Decoder.boolean .refused,
  .of "recorded_at" Timestamp.decoder .refused,
  .of "metrics" (Metrics.decoder metricDepth) .filled,
  .of "failure" (Decoder.optional Decoder.text) .filled]

/-- The record that the parts of a text claim to be, if the claim holds. -/
def ofParts (stamp : Stamp) (valid : Bool) (m : Metrics) (failure : Option String) :
    Except Failure Record :=
  if valid then
    match m.flaw? with
    | none => .ok ⟨stamp, .ok m⟩
    | some reason => .error (.invalidRecord reason)
  else if m.isEmpty then .ok ⟨stamp, .error failure⟩
  else .error (.invalidRecord "invalid record must not carry metrics")

def decoder : Decoder Record := fun d => do
  let found ← Decoder.fields "RawRecord" fields d
  let id ← found.get "id" Uuid.decoder
  let valid ← found.get "valid" Decoder.boolean
  let time ← found.get "recorded_at" Timestamp.decoder
  let m ← found.getD "metrics" (Metrics.decoder metricDepth) .empty
  let failure ← found.getD "failure" (Decoder.optional Decoder.text) none
  (ofParts ⟨id, time⟩ valid m failure).mapError fun f => .rejected f.message

def toJson (r : Record) : String := Json.compact r.datum

def ofJson (s : String) : Except Failure Record := (Json.decode decoder s).mapError .json

end Record
end LinkTest
