import LinkTest.Proofs.Datum.Fields
import LinkTest.Proofs.Json.Echo

/-!
# Whole numbers in JSON text

A number is read as a whole one exactly if it is written without a fraction and a power and a
64-bit word has room for it. So whatever whole number of 64 bits is written is read back.
-/

namespace LinkTest.Json

open Text (numberIn digitValue)

/-! ## Digits that fit into a word -/

/-- The number that digits stand for behind others. -/
def continued (n : Nat) (ds : List Char) : Nat := ds.foldl (fun n c => 10 * n + digitValue 10 c) n

theorem le_continued (n : Nat) (ds : List Char) : n ≤ continued n ds := by
  induction ds generalizing n with
  | nil => exact Nat.le_refl n
  | cons c ds ih =>
    have := ih (10 * n + digitValue 10 c)
    change n ≤ continued (10 * n + digitValue 10 c) ds
    omega

/-- Nothing is dropped exactly if the number fits, and it is kept then. -/
theorem significandWhole_eq (n : Nat) (ds : List Char) (hn : n < Nat.pow 2 64) :
    (continued n ds < Nat.pow 2 64 → significandWhole n ds = (continued n ds, 0)) ∧
      (Nat.pow 2 64 ≤ continued n ds → (significandWhole n ds).2 ≠ 0) := by
  induction ds generalizing n with
  | nil => exact ⟨fun _ => rfl, fun h => absurd hn (Nat.not_lt.2 h)⟩
  | cons c ds ih =>
    have hle := le_continued (10 * n + digitValue 10 c) ds
    change (continued (10 * n + digitValue 10 c) ds < _ → _ =
      (continued (10 * n + digitValue 10 c) ds, 0)) ∧
      (_ ≤ continued (10 * n + digitValue 10 c) ds → _)
    rw [significandWhole]
    split
    · next hlt => exact ih _ hlt
    · next hge => exact ⟨fun h => absurd (Nat.lt_of_le_of_lt hle h) hge, fun _ => Nat.succ_ne_zero _⟩

namespace Numeral

/-- The whole number that stands before a fraction. -/
def wholeValue (n : Numeral) : Int := if n.negative then -(numberIn 10 n.whole : Int) else numberIn 10 n.whole

/-- The number is written as a whole one, and a 64-bit word has room for it. -/
structure IsWhole (n : Numeral) (m : Int) : Prop where
  fraction : n.fraction = none
  power : n.power = none
  value : m = n.wholeValue
  low : -(Nat.pow 2 63) ≤ m
  high : m < Nat.pow 2 64

variable {n : Numeral} {m : Int}

theorem datum_of_fits (hf : n.fraction = none) (hp : n.power = none)
    (hfits : numberIn 10 n.whole < Nat.pow 2 64) : n.datum =
      if !n.negative then .ok (.whole (numberIn 10 n.whole))
      else if numberIn 10 n.whole = 0 ∨ Nat.pow 2 63 < numberIn 10 n.whole then
        .ok (.real (Binary64.ofNat (numberIn 10 n.whole)).neg)
      else .ok (.whole (-(numberIn 10 n.whole : Int))) := by
  have hkept : significandWhole 0 n.whole = (numberIn 10 n.whole, 0) :=
    (significandWhole_eq 0 n.whole (by decide)).1 hfits
  unfold datum
  rw [hkept]
  dsimp only
  rw [if_pos ⟨by rw [hf]; rfl, by rw [hp]; rfl, rfl⟩]

/-- Any other number is read as a real one, if at all. -/
theorem datum_ne_whole (h : ¬(n.fraction = none ∧ n.power = none ∧
    numberIn 10 n.whole < Nat.pow 2 64)) : n.datum ≠ .ok (.whole m) := by
  have hdropped : ¬(n.fraction.isNone = true ∧ n.power.isNone = true ∧
      (significandWhole 0 n.whole).2 = 0) := by
    rintro ⟨hf, hp, hd⟩
    refine h ⟨Option.isNone_iff_eq_none.1 hf, Option.isNone_iff_eq_none.1 hp, ?_⟩
    exact Nat.not_le.1 fun hge => (significandWhole_eq 0 n.whole (by decide)).2 hge hd
  intro hwhole
  unfold datum at hwhole
  generalize significandWhole 0 n.whole = p at hwhole hdropped
  obtain ⟨w, dropped⟩ := p
  dsimp only at hwhole hdropped
  rw [if_neg hdropped] at hwhole
  generalize significandFraction w (n.fraction.getD []) = p at hwhole
  obtain ⟨v, kept⟩ := p
  dsimp only at hwhole
  have hreal : ∀ (sign : Binary64 → Binary64) (x : Except Fault Binary64),
      (x >>= fun x => Except.ok (Datum.real (sign x))) ≠ .ok (.whole m) := by
    intro sign x heq
    obtain ⟨_, -, heq⟩ := bind_eq_ok.1 heq
    cases heq
  split at hwhole
  · exact hreal _ _ hwhole
  · split at hwhole
    · split at hwhole
      · cases hwhole
      · cases hwhole
    · exact hreal _ _ hwhole

/-- A number is read as a whole one exactly if it is one, but for zero behind a minus. -/
theorem datum_eq_whole_iff : n.datum = .ok (.whole m) ↔
    n.IsWhole m ∧ (n.negative = true → m ≠ 0) := by
  have hlow : -(Nat.pow 2 63 : Int) = -9223372036854775808 := rfl
  have hhigh : ((Nat.pow 2 64 : Nat) : Int) = 18446744073709551616 := rfl
  have hpow : Nat.pow 2 63 = 9223372036854775808 := rfl
  have hvalue : n.wholeValue = if n.negative then -(numberIn 10 n.whole : Int)
    else numberIn 10 n.whole := rfl
  by_cases hfits : n.fraction = none ∧ n.power = none ∧ numberIn 10 n.whole < Nat.pow 2 64
  · obtain ⟨hf, hp, hlt⟩ := hfits
    rw [datum_of_fits hf hp hlt]
    cases hn : n.negative with
    | false =>
      rw [hn, if_neg nofun] at hvalue
      rw [if_pos (by decide)]
      constructor
      · intro h
        obtain rfl : (numberIn 10 n.whole : Int) = m := by simpa using h
        exact ⟨⟨hf, hp, hvalue.symm, by omega, by omega⟩, nofun⟩
      · rintro ⟨h, -⟩
        rw [h.value, hvalue]
    | true =>
      rw [hn, if_pos rfl] at hvalue
      rw [if_neg nofun]
      constructor
      · intro h
        split at h
        · cases h
        · next hne =>
          obtain rfl : -(numberIn 10 n.whole : Int) = m := by simpa using h
          exact ⟨⟨hf, hp, hvalue.symm, by omega, by omega⟩, fun _ => by omega⟩
      · rintro ⟨h, hzero⟩
        have hm := h.value
        have := h.low
        have := hzero rfl
        rw [hvalue] at hm
        rw [if_neg (by omega), hm]
  · refine ⟨fun h => absurd h (datum_ne_whole hfits), fun ⟨h, _⟩ => absurd ?_ hfits⟩
    have hm := h.value
    have := h.low
    have := h.high
    rw [hvalue] at hm
    refine ⟨h.fraction, h.power, ?_⟩
    split at hm <;> omega

end Numeral

/-- Only a whole number of 64 bits is read as such, and it is the one that the text says. -/
theorem isWhole_of_number {cs : List Char} {m : Int} {rest : Rest}
    (h : number cs = (.whole m, rest)) :
    ∃ n r, numeral cs = .ok (n, r) ∧ rest = some r ∧ n.IsWhole m := by
  unfold number at h
  split at h
  · cases h
  · next n r hn =>
    split at h
    · next d hd =>
      obtain ⟨rfl, rfl⟩ := Prod.mk.inj h
      exact ⟨n, r, hn, rfl, (Numeral.datum_eq_whole_iff.1 hd).1⟩
    · cases h

/-! ## Numbers that are written -/

/-- The numeral that a whole number is written as. -/
def wholeNumeral (m : Int) : Numeral := ⟨decide (m < 0), Nat.toDigits 10 m.natAbs, none, none⟩

theorem toList_toString_eq_spelled (m : Int) : (toString m).toList = (wholeNumeral m).spelled := by
  cases m with
  | ofNat k =>
    change (toString k).toList = _
    rw [toList_toString]
    simp [wholeNumeral, Numeral.spelled, Numeral.fractionText, Numeral.powerText]
  | negSucc k =>
    change ("-" ++ toString (k + 1)).toList = _
    rw [String.toList_append, toList_toString]
    simp [wholeNumeral, Numeral.spelled, Numeral.fractionText, Numeral.powerText]

theorem proper_wholeNumeral (m : Int) : (wholeNumeral m).Proper :=
  ⟨Text.isDigits_toDigits _, lead_toDigits _, nofun, nofun⟩

theorem wholeValue_wholeNumeral (m : Int) : (wholeNumeral m).wholeValue = m := by
  rw [Numeral.wholeValue, wholeNumeral]
  dsimp only
  rw [Text.numberIn_toDigits]
  by_cases h : m < 0
  · rw [if_pos (by simpa using h)]
    omega
  · rw [if_neg (by simpa using h)]
    omega

/-- A whole number of 64 bits is read back from what is written for it. -/
theorem echo_whole {m : Int} (hlow : -(Nat.pow 2 63) ≤ m) (hhigh : m < Nat.pow 2 64) :
    echo (.whole m) = .whole m := by
  have hnumeral := numeral_spelled (proper_wholeNumeral m) clear_nil
  have hdatum : (wholeNumeral m).datum = .ok (.whole m) :=
    Numeral.datum_eq_whole_iff.2 ⟨⟨rfl, rfl, (wholeValue_wholeNumeral m).symm, hlow, hhigh⟩, fun h hm => by
      subst hm
      cases h⟩
  rw [List.append_nil, ← toList_toString_eq_spelled] at hnumeral
  rw [echo, number, hnumeral]
  dsimp only
  rw [hdatum]

end LinkTest.Json
