/-!
# Digits

Numbers as rows of digits, the highest first, in bases up to sixteen; letters of either case stand
for the digits from ten on. The decimal digits written for a number read back as that number.
-/

namespace LinkTest.Text

/-- The value of a character that is a digit in the base. -/
def digitValue? (base : Nat) (c : Char) : Option Nat :=
  let n :=
    if '0' ≤ c ∧ c ≤ '9' then c.toNat - '0'.toNat
    else if 'a' ≤ c ∧ c ≤ 'f' then c.toNat - 'a'.toNat + 10
    else if 'A' ≤ c ∧ c ≤ 'F' then c.toNat - 'A'.toNat + 10
    else base
  if n < base then some n else none

def isDigitIn (base : Nat) (c : Char) : Bool := (digitValue? base c).isSome

/-- The value of a digit; what is none counts as zero. -/
def digitValue (base : Nat) (c : Char) : Nat := (digitValue? base c).getD 0

/-- The number that a row of digits stands for. -/
def numberIn (base : Nat) (ds : List Char) : Nat :=
  ds.foldl (fun n c => base * n + digitValue base c) 0

/-- The decimal digits of a number, with zeros in front up to a width. -/
def padded (width n : Nat) : List Char :=
  let ds := Nat.toDigits 10 n
  List.replicate (width - ds.length) '0' ++ ds

theorem numberIn_concat (base : Nat) (ds : List Char) (c : Char) :
    numberIn base (ds ++ [c]) = base * numberIn base ds + digitValue base c := by
  simp [numberIn]

theorem digitValue_digitChar {d : Nat} (h : d < 10) : digitValue 10 (Nat.digitChar d) = d := by
  have : ∀ d < 10, digitValue 10 (Nat.digitChar d) = d := by decide
  exact this d h

theorem numberIn_toDigits (n : Nat) : numberIn 10 (Nat.toDigits 10 n) = n := by
  induction n using Nat.strongRecOn with
  | ind n ih =>
    by_cases h : n < 10
    · rw [Nat.toDigits_of_lt_base h]
      simp [numberIn, digitValue_digitChar h]
    · have hq : 0 < n / 10 := by omega
      have hr : n % 10 < 10 := by omega
      have hn := Nat.toDigits_append_toDigits (by decide : 1 < 10) hq hr
      rw [Nat.toDigits_of_lt_base hr, Nat.div_add_mod] at hn
      rw [← hn, numberIn_concat, ih _ (by omega), digitValue_digitChar hr, Nat.div_add_mod]

theorem digitValue_lt {base : Nat} (hb : 0 < base) (c : Char) : digitValue base c < base := by
  have h : ∀ n, (if n < base then some n else none).getD 0 < base := by
    intro n
    split
    · next h => exact h
    · exact hb
  exact h _

theorem numberIn_lt {base : Nat} (hb : 0 < base) (ds : List Char) :
    numberIn base ds < Nat.pow base ds.length := by
  have hfold : ∀ n, ds.foldl (fun n c => base * n + digitValue base c) n <
      (n + 1) * base ^ ds.length := by
    induction ds with
    | nil => simp
    | cons c ds ih =>
      intro n
      have hc := digitValue_lt hb c
      calc (c :: ds).foldl _ n < (base * n + digitValue base c + 1) * base ^ ds.length := ih _
        _ ≤ (base * (n + 1)) * base ^ ds.length :=
          Nat.mul_le_mul_right _ (by rw [Nat.mul_add]; omega)
        _ = (n + 1) * base ^ (ds.length + 1) := by
          rw [Nat.pow_succ, Nat.mul_comm base, Nat.mul_assoc, Nat.mul_comm base]
  have h := hfold 0
  rwa [Nat.zero_add, Nat.one_mul] at h

/-! ## Rows of decimal digits -/

/-- A row of digits, at least one. -/
def IsDigits (ds : List Char) : Prop := ds ≠ [] ∧ ∀ c ∈ ds, c.isDigit = true

theorem isDigits_toDigits (n : Nat) : IsDigits (Nat.toDigits 10 n) :=
  ⟨List.ne_nil_of_length_pos Nat.length_toDigits_pos,
    fun _ hc => Nat.isDigit_of_mem_toDigits (by decide) (by decide) hc⟩

theorem isDigits_zero : IsDigits ['0'] := isDigits_toDigits 0

theorem isDigits_padded (width n : Nat) : IsDigits (padded width n) := by
  refine ⟨fun h => (isDigits_toDigits n).1 (List.append_eq_nil_iff.1 h).2, fun c hc => ?_⟩
  rcases List.mem_append.1 hc with hc | hc
  · rw [List.eq_of_mem_replicate hc]
    decide
  · exact (isDigits_toDigits n).2 c hc

theorem numberIn_padded (width n : Nat) : numberIn 10 (padded width n) = n := by
  have hzeros : ∀ (k : Nat) (ds : List Char),
      numberIn 10 (List.replicate k '0' ++ ds) = numberIn 10 ds := by
    intro k ds
    induction k with
    | zero => rfl
    | succ k ih => exact ih
  rw [padded, hzeros, numberIn_toDigits]

theorem length_padded {width n : Nat} (hw : 0 < width) (h : n < Nat.pow 10 width) :
    (padded width n).length = width := by
  have hle := (Nat.length_toDigits_le_iff (by decide : 1 < 10) hw).2 h
  rw [padded, List.length_append, List.length_replicate]
  omega

end LinkTest.Text
