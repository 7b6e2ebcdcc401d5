import LinkTest.Datum.Decoder
import LinkTest.Text.Quoted

/-! # Measurements by name

Metrics are kept in increasing order of their names, each name once. A record needs a latency and
a throughput, both finite and not below zero; anything else may stand beside them. -/

namespace LinkTest

/-- A single measurement. -/
inductive Metric
  | number (x : Binary64)
  | text (s : String)
deriving DecidableEq, Repr, Inhabited

namespace Metric

/-- Whole numbers below `10 ^ 15` without a point, other numbers with two places. -/
def display : Metric → String
  | number x =>
    if x.isWhole ∧ x.truncate.natAbs < Nat.pow 10 15 then toString x.truncate else x.fixed 2
  | text s => s

def describe : Metric → String
  | number x => "Number(" ++ x.describe ++ ")"
  | text s => "Text(" ++ Text.quoted s ++ ")"

def number? : Metric → Option Binary64
  | number x => some x
  | text _ => none

/-- Equality of numbers as numbers: no NaN equals another. -/
def same : Metric → Metric → Bool
  | number x, number y => x.sameNumber y
  | text s, text t => s == t
  | _, _ => false

def datum : Metric → Datum
  | number x => .real x
  | text s => .text s

/-- Any number or text. The value is read whole, with room for `depth` nested lists and
dictionaries, before its kind is looked at. -/
def decoder (depth : Nat) : Decoder Metric := fun d =>
  match d.readFault depth with
  | some f => .error (.fault f)
  | none =>
    match d with
    | .whole n => .ok (.number (Binary64.ofInt n))
    | .real x => .ok (.number x)
    | .text s => .ok (.text s)
    | _ => .error (.noAlternative "MetricValue")

end Metric

/-- Names in increasing order with their measurements. -/
structure Metrics where
  entries : List (String × Metric)
  sorted : entries.Pairwise (fun a b => a.1 < b.1) := by simp

namespace Metrics

/-- The entries with one measurement put in its place, replacing another of its name. -/
def insertEntry (name : String) (value : Metric) : List (String × Metric) → List (String × Metric)
  | [] => [(name, value)]
  | (k, v) :: r =>
    if name < k then (name, value) :: (k, v) :: r
    else if k < name then (k, v) :: insertEntry name value r
    else (name, value) :: r

theorem mem_insertEntry {name : String} {value : Metric} {e : String × Metric} :
    ∀ {l : List (String × Metric)}, e ∈ insertEntry name value l → e = (name, value) ∨ e ∈ l
  | [], h => by simpa [insertEntry] using h
  | (k, v) :: r, h => by
    unfold insertEntry at h
    split at h
    · simpa using h
    · split at h
      · rcases List.mem_cons.1 h with h | h
        · simp [h]
        · rcases mem_insertEntry h with h | h
          · exact .inl h
          · exact .inr (List.mem_cons_of_mem _ h)
      · rcases List.mem_cons.1 h with h | h
        · exact .inl h
        · exact .inr (List.mem_cons_of_mem _ h)

private theorem name_eq_of_not_lt {a b : String} (h : ¬a < b) (h' : ¬b < a) : a = b :=
  String.le_antisymm (String.not_lt.1 h') (String.not_lt.1 h)

theorem sorted_insertEntry (name : String) (value : Metric) :
    ∀ {l : List (String × Metric)}, l.Pairwise (fun a b => a.1 < b.1) →
      (insertEntry name value l).Pairwise (fun a b => a.1 < b.1)
  | [], _ => by simp [insertEntry]
  | (k, v) :: r, h => by
    obtain ⟨hk, hr⟩ := List.pairwise_cons.1 h
    unfold insertEntry
    split
    · rename_i hlt
      refine List.pairwise_cons.2 ⟨fun e he => ?_, h⟩
      rcases List.mem_cons.1 he with rfl | he
      · exact hlt
      · exact String.lt_trans hlt (hk e he)
    · split
      · rename_i hgt
        refine List.pairwise_cons.2 ⟨fun e he => ?_, sorted_insertEntry name value hr⟩
        rcases mem_insertEntry he with rfl | he
        · exact hgt
        · exact hk e he
      · rename_i h₁ h₂
        have hname : name = k := name_eq_of_not_lt h₁ h₂
        subst hname
        exact List.pairwise_cons.2 ⟨hk, hr⟩

def empty : Metrics := ⟨[], by simp⟩

def insert (m : Metrics) (name : String) (value : Metric) : Metrics :=
  ⟨insertEntry name value m.entries, sorted_insertEntry name value m.sorted⟩

/-- Measurements in any order; of two with one name the later wins. -/
def ofList (l : List (String × Metric)) : Metrics := l.foldl (fun m (k, v) => m.insert k v) empty

def get? (m : Metrics) (name : String) : Option Metric := m.entries.lookup name

def names (m : Metrics) : List String := m.entries.map (·.1)

def size (m : Metrics) : Nat := m.entries.length

def isEmpty (m : Metrics) : Bool := m.entries.isEmpty

def same (m n : Metrics) : Bool :=
  m.size == n.size &&
    (m.entries.zip n.entries).all fun (a, b) => a.1 == b.1 && a.2.same b.2

def datum (m : Metrics) : Datum := .dict (m.entries.map fun (k, v) => (k, v.datum)) .strict

/-- A dictionary of measurements that itself stands `depth` levels above the deepest that may be
read. -/
def decoder (depth : Nat) : Decoder Metrics := fun d =>
  (Decoder.dictOf (Metric.decoder depth) d).map ofList

/-! ## What a valid record needs -/

def required : List String := ["latency_ms", "throughput_mbps"]

/-- What is wrong with one required measurement. -/
def flawOf (name : String) : Option Metric → Option String
  | none => some ("missing metric '" ++ name ++ "'")
  | some (.text _) => some ("metric '" ++ name ++ "' is not numeric")
  | some (.number x) =>
    if !x.isFinite || x.isBelowZero then
      some ("metric '" ++ name ++ "' is out of range: " ++ x.plain)
    else none

/-- All measurements in their order, for people. -/
def describe (m : Metrics) : String :=
  "\x7b" ++ ", ".intercalate (m.entries.map fun e => Text.quoted e.1 ++ ": " ++ e.2.describe) ++
    "\x7d"

/-- The first thing wrong with the required measurements, in the order in which they are listed. -/
def flaw? (m : Metrics) : Option String := required.findSome? fun name => flawOf name (m.get? name)

end Metrics
end LinkTest
