import LinkTest.Json.Reader

/-!
# Numbers in JSON text

A number that is spelled as the grammar wants it is read whole, and what follows it is left. Both
whole and real numbers are written that way.
-/

namespace LinkTest.Json

open Text (IsDigits isDigits_zero isDigits_toDigits isDigits_padded)

/-- No number goes on here. -/
def Clear (rest : List Char) : Prop :=
  ∀ c, rest.head? = some c → c.isDigit = false ∧ c ≠ '.' ∧ c ≠ 'e' ∧ c ≠ 'E'

theorem clear_nil : Clear [] := nofun

theorem clear_cons {c : Char} (h : c.isDigit = false ∧ c ≠ '.' ∧ c ≠ 'e' ∧ c ≠ 'E')
    (r : List Char) : Clear (c :: r) := by
  intro d hd
  obtain rfl := Option.some.inj hd
  exact h

namespace Numeral

/-- How the fraction is spelled. -/
def fractionText : Option (List Char) → List Char
  | none => []
  | some ds => '.' :: ds

/-- How the power is spelled; its sign is always there. -/
def powerText : Option (Bool × List Char) → List Char
  | none => []
  | some (negative, ds) => 'e' :: (if negative then '-' else '+') :: ds

/-- How a number is spelled. -/
def spelled (n : Numeral) : List Char :=
  (if n.negative then ['-'] else []) ++ (n.whole ++ (fractionText n.fraction ++ powerText n.power))

/-- What the grammar of numbers asks for. -/
structure Proper (n : Numeral) : Prop where
  whole : IsDigits n.whole
  /-- A zero in front stands alone. -/
  lead : n.whole.head? = some '0' → n.whole = ['0']
  fraction : ∀ ds, n.fraction = some ds → IsDigits ds
  power : ∀ negative ds, n.power = some (negative, ds) → IsDigits ds

end Numeral

theorem takeWhile_digits {ds r : List Char} (hd : ∀ c ∈ ds, c.isDigit = true)
    (hr : ∀ c, r.head? = some c → c.isDigit = false) :
    (ds ++ r).takeWhile Char.isDigit = ds ∧ (ds ++ r).dropWhile Char.isDigit = r := by
  have hnone : r.takeWhile Char.isDigit = [] ∧ r.dropWhile Char.isDigit = r := by
    cases r with
    | nil => exact ⟨rfl, rfl⟩
    | cons c r => simp [hr c rfl]
  rw [List.takeWhile_append_of_pos hd, List.dropWhile_append_of_pos hd, hnone.1, hnone.2]
  exact ⟨List.append_nil _, rfl⟩

theorem wholePart_append {ds r : List Char} (h : IsDigits ds)
    (hl : ds.head? = some '0' → ds = ['0']) (hr : ∀ c, r.head? = some c → c.isDigit = false) : wholePart (ds ++ r) = .ok (ds, r) := by
  obtain ⟨ht, hdrop⟩ := takeWhile_digits h.2 hr
  unfold wholePart
  split
  · next c r' heq =>
    have hds : ds = ['0'] := hl (by
      cases ds with
      | nil => exact absurd rfl h.1
      | cons d ds => rw [(List.cons.inj heq).1]; rfl)
    rw [hds] at heq
    obtain rfl : r = c :: r' := (List.cons.inj heq).2
    rw [hr c rfl, hds]
    rfl
  · rw [ht, hdrop]
    simp [h.1]

theorem fractionPart_append {fraction : Option (List Char)} {r : List Char}
    (h : ∀ ds, fraction = some ds → IsDigits ds)
    (hr : ∀ c, r.head? = some c → c.isDigit = false ∧ c ≠ '.') :
    fractionPart (Numeral.fractionText fraction ++ r) = .ok (fraction, r) := by
  cases fraction with
  | none =>
    cases r with
    | nil => rfl
    | cons c r =>
      unfold fractionPart
      split
      · next r' heq => exact absurd (List.cons.inj heq).1 (hr c rfl).2
      · rfl
  | some ds =>
    obtain ⟨ht, hdrop⟩ := takeWhile_digits (h ds rfl).2 fun c hc => (hr c hc).1
    simp [Numeral.fractionText, fractionPart, ht, hdrop, (h ds rfl).1]

theorem powerPart_append {power : Option (Bool × List Char)} {r : List Char}
    (h : ∀ negative ds, power = some (negative, ds) → IsDigits ds) (hr : Clear r) :
    powerPart (Numeral.powerText power ++ r) = .ok (power, r) := by
  cases power with
  | none =>
    cases r with
    | nil => rfl
    | cons c r =>
      obtain ⟨-, -, he, hE⟩ := hr c rfl
      simp [Numeral.powerText, powerPart, he, hE]
  | some p =>
    obtain ⟨negative, ds⟩ := p
    obtain ⟨ht, hdrop⟩ := takeWhile_digits (h negative ds rfl).2 fun c hc => (hr c hc).1
    cases negative <;>
      simp [Numeral.powerText, powerPart, powerSign, ht, hdrop, (h _ ds rfl).1]

/-- A number that is spelled as it should be is read whole. -/
theorem numeral_spelled {n : Numeral} (h : n.Proper) {rest : List Char} (hr : Clear rest) :
    numeral (n.spelled ++ rest) = .ok (n, rest) := by
  obtain ⟨negative, whole, fraction, power⟩ := n
  obtain ⟨hwhole, hlead, hfraction, hpower⟩ := h
  have hp := powerPart_append hpower hr
  have hheadp : ∀ c, (Numeral.powerText power ++ rest).head? = some c →
      c.isDigit = false ∧ c ≠ '.' := by
    intro c hc
    cases power with
    | none => exact ⟨(hr c hc).1, (hr c hc).2.1⟩
    | some p =>
      obtain rfl : 'e' = c := Option.some.inj hc
      decide
  have hf := fractionPart_append hfraction hheadp
  have hheadf : ∀ c, (Numeral.fractionText fraction ++ (Numeral.powerText power ++ rest)).head? =
      some c → c.isDigit = false := by
    intro c hc
    cases fraction with
    | none => exact (hheadp c hc).1
    | some ds =>
      obtain rfl : '.' = c := Option.some.inj hc
      decide
  have hw := wholePart_append hwhole hlead hheadf
  dsimp only at hw hf hp
  unfold numeral
  cases negative with
  | true => simp [Numeral.spelled, hw, hf, hp, bind, Except.bind]
  | false =>
    have hminus : ∀ r, whole ++ (Numeral.fractionText fraction ++
        (Numeral.powerText power ++ rest)) ≠ '-' :: r := by
      intro r heq
      cases whole with
      | nil => exact hwhole.1 rfl
      | cons c whole =>
        have hc := hwhole.2 c List.mem_cons_self
        rw [(List.cons.inj heq).1] at hc
        cases hc
    simp [Numeral.spelled, hw, hf, hp, bind, Except.bind]

theorem spelled_head (n : Numeral) (h : n.Proper) :
    ∃ c r, n.spelled = c :: r ∧ (c = '-' ∨ c.isDigit = true) := by
  obtain ⟨negative, whole, fraction, power⟩ := n
  cases negative with
  | true => exact ⟨_, _, rfl, .inl rfl⟩
  | false =>
    cases whole with
    | nil => exact absurd rfl h.whole.1
    | cons c whole => exact ⟨c, _, rfl, .inr (h.whole.2 c List.mem_cons_self)⟩

/-! ## Numbers as they are written -/

/-- Only zero is written with a zero in front. -/
theorem lead_toDigits (n : Nat) (h : (Nat.toDigits 10 n).head? = some '0') :
    Nat.toDigits 10 n = ['0'] := by
  induction n using Nat.strongRecOn with
  | ind n ih =>
    by_cases hn : n < 10
    · rw [Nat.toDigits_of_lt_base hn] at h ⊢
      rw [Option.some.inj h]
    · rw [Nat.toDigits_of_base_le (by decide) (by omega)] at h ⊢
      have hhead : (Nat.toDigits 10 (n / 10)).head? = some '0' := by
        cases hd : Nat.toDigits 10 (n / 10) with
        | nil => exact absurd hd (isDigits_toDigits (n / 10)).1
        | cons c ds =>
          rw [hd] at h
          exact h
      have hzero := congrArg (Text.numberIn 10) (ih (n / 10) (by omega) hhead)
      rw [Text.numberIn_toDigits] at hzero
      have : Text.numberIn 10 ['0'] = 0 := rfl
      omega

/-- A text that is a number as it should be spelled. -/
def IsNumber (cs : List Char) : Prop := ∃ n : Numeral, n.Proper ∧ cs = n.spelled

theorem toList_toString (n : Nat) : (toString n).toList = Nat.toDigits 10 n := by
  rw [Nat.toString_eq_repr, Nat.repr, String.toList_ofList]

theorem isNumber_of_digits (negative : Bool) {whole : List Char} (fraction : Option (List Char))
    (power : Option (Bool × List Char)) (hw : IsDigits whole)
    (hl : whole.head? = some '0' → whole = ['0'])
    (hf : ∀ ds, fraction = some ds → IsDigits ds)
    (hp : ∀ negative ds, power = some (negative, ds) → IsDigits ds) :
    IsNumber ((if negative then ['-'] else []) ++
      (whole ++ (Numeral.fractionText fraction ++ Numeral.powerText power))) :=
  ⟨⟨negative, whole, fraction, power⟩, ⟨hw, hl, hf, hp⟩, rfl⟩

theorem isNumber_toString (n : Int) : IsNumber (toString n).toList := by
  have hnat : ∀ (negative : Bool) (k : Nat),
      IsNumber ((if negative then ['-'] else []) ++ Nat.toDigits 10 k) := by
    intro negative k
    have h := isNumber_of_digits negative none none (isDigits_toDigits k) (lead_toDigits k) nofun
      nofun
    rwa [Numeral.fractionText, Numeral.powerText, List.append_nil, List.append_nil] at h
  cases n with
  | ofNat k =>
    have h := hnat false k
    rw [← toList_toString] at h
    exact h
  | negSucc k =>
    have h := hnat true (k + 1)
    rw [← toList_toString] at h
    change IsNumber ("-" ++ toString (k + 1)).toList
    rw [String.toList_append]
    exact h

/-! ## Real numbers -/

theorem head?_take {ds : List Char} {k : Nat} (hk : 0 < k) : (ds.take k).head? = ds.head? := by
  cases ds with
  | nil => simp
  | cons c ds =>
    obtain ⟨k, rfl⟩ := Nat.exists_eq_succ_of_ne_zero (Nat.ne_of_gt hk)
    rfl

/-- Before the last places of padded digits there is no zero in front, unless it stands alone. -/
theorem lead_padded {places n : Nat} :
    let ds := Text.padded (places + 1) n
    (ds.take (ds.length - places)).head? = some '0' → ds.take (ds.length - places) = ['0'] := by
  intro ds h
  have hlen : ds.length = max (places + 1) (Nat.toDigits 10 n).length := by
    simp only [ds, Text.padded, List.length_append, List.length_replicate]
    omega
  rw [head?_take (by omega)] at h
  by_cases hshort : (Nat.toDigits 10 n).length ≤ places + 1
  · have hone : ds.length - places = 1 := by omega
    rw [hone]
    cases hds : ds with
    | nil =>
      rw [hds] at h
      cases h
    | cons c r =>
      rw [hds] at h
      rw [Option.some.inj h]
      rfl
  · have hds : ds = Nat.toDigits 10 n := by
      have hno : places + 1 - (Nat.toDigits 10 n).length = 0 := by omega
      simp only [ds, Text.padded, hno, List.replicate_zero, List.nil_append]
    rw [hds] at h
    rw [lead_toDigits n h] at hshort
    simp at hshort

/-- Digits that are cut before so many places, with at least one in front. -/
theorem isNumber_of_places (negative : Bool) {places : Nat} (hpos : 0 < places) (n : Nat) :
    let ds := Text.padded (places + 1) n
    IsNumber ((if negative then ['-'] else []) ++ (ds.take (ds.length - places) ++
      '.' :: ds.drop (ds.length - places))) := by
  intro ds
  have hds : IsDigits ds := isDigits_padded _ _
  have hlen : places + 1 ≤ ds.length := by
    simp only [ds, Text.padded, List.length_append, List.length_replicate]
    omega
  have hwhole : IsDigits (ds.take (ds.length - places)) :=
    ⟨List.ne_nil_of_length_pos (by rw [List.length_take]; omega),
      fun c hc => hds.2 c (List.mem_of_mem_take hc)⟩
  have hplaces : IsDigits (ds.drop (ds.length - places)) :=
    ⟨List.ne_nil_of_length_pos (by rw [List.length_drop]; omega),
      fun c hc => hds.2 c (List.mem_of_mem_drop hc)⟩
  have h := isNumber_of_digits negative (some (ds.drop (ds.length - places))) none hwhole
    lead_padded (fun _ he => Option.some.inj he ▸ hplaces) (by simp)
  rwa [Numeral.fractionText, Numeral.powerText, List.append_nil] at h

theorem isNumber_of_sign {negative : Bool} {sign t : String}
    (hs : sign.toList = if negative then ['-'] else [])
    (ht : IsNumber ((if negative then ['-'] else []) ++ t.toList)) :
    IsNumber (sign ++ t).toList := by
  rwa [String.toList_append, hs]

/-- The positional form, with a fraction in any case. -/
theorem isNumber_positional (negative : Bool) (d : Binary64.Decimal) :
    IsNumber ((if negative then ['-'] else []) ++
      (d.positional ++ if 0 ≤ d.exponent then ".0" else "").toList) := by
  unfold Binary64.Decimal.positional
  by_cases h : 0 ≤ d.exponent
  · rw [if_pos h, if_pos h, String.toList_append, toList_toString]
    exact isNumber_of_digits negative (some ['0']) none (isDigits_toDigits _) (lead_toDigits _)
      (fun _ he => Option.some.inj he ▸ isDigits_zero) nofun
  · rw [if_neg h, if_neg h]
    have hn := @isNumber_of_places negative (-d.exponent).toNat (by omega) d.digits
    simpa using hn

/-- The form with one digit before the point and a power of ten. -/
theorem isNumber_power (negative : Bool) (n : Nat) (order : Int) :
    let ds := Nat.toDigits 10 n
    IsNumber ((if negative then ['-'] else []) ++ (String.ofList (ds.take 1) ++
      ((if 1 < ds.length then "." ++ String.ofList (ds.drop 1) else "") ++
        ("e" ++ ((if order < 0 then "-" else "+") ++ toString order.natAbs)))).toList) := by
  intro ds
  have hds : IsDigits ds := isDigits_toDigits n
  have hwhole : IsDigits (ds.take 1) := by
    refine ⟨List.ne_nil_of_length_pos ?_, fun c hc => hds.2 c (List.mem_of_mem_take hc)⟩
    rw [List.length_take]
    have := List.length_pos_iff.2 hds.1
    omega
  have hlead : (ds.take 1).head? = some '0' → ds.take 1 = ['0'] := by
    intro h
    cases hd : ds with
    | nil => exact absurd hd hds.1
    | cons c r =>
      rw [hd] at h
      rw [Option.some.inj h]
      rfl
  have hpower : IsDigits (Nat.toDigits 10 order.natAbs) := isDigits_toDigits _
  have h := isNumber_of_digits negative (if 1 < ds.length then some (ds.drop 1) else none)
    (some (decide (order < 0), Nat.toDigits 10 order.natAbs)) hwhole hlead
    (fun ds' he => by
      split at he
      · next hlen =>
        obtain rfl := Option.some.inj he
        exact ⟨List.ne_nil_of_length_pos (by rw [List.length_drop]; omega),
          fun c hc => hds.2 c (List.mem_of_mem_drop hc)⟩
      · cases he)
    (fun _ _ he => (Prod.mk.inj (Option.some.inj he)).2 ▸ hpower)
  have htext : (String.ofList (ds.take 1) ++
      ((if 1 < ds.length then "." ++ String.ofList (ds.drop 1) else "") ++
        ("e" ++ ((if order < 0 then "-" else "+") ++ toString order.natAbs)))).toList =
      ds.take 1 ++ (Numeral.fractionText (if 1 < ds.length then some (ds.drop 1) else none) ++
        Numeral.powerText (some (decide (order < 0), Nat.toDigits 10 order.natAbs))) := by
    simp only [String.toList_append, String.toList_ofList, toList_toString]
    by_cases hlen : 1 < ds.length <;> by_cases ho : order < 0 <;>
      simp [hlen, ho, Numeral.fractionText, Numeral.powerText]
  rwa [htext]

/-- A finite number is written as JSON wants it. -/
theorem isNumber_scientific {x : Binary64} (h : x.isFinite = true) :
    IsNumber x.scientific.toList := by
  cases x with
  | nan => cases h
  | infinite s => cases h
  | finite s m e =>
    unfold Binary64.scientific Binary64.pointed
    dsimp only
    split
    · exact isNumber_of_sign (by cases s <;> rfl) (isNumber_of_digits s (some ['0']) none
        isDigits_zero (fun _ => rfl) (fun _ he => Option.some.inj he ▸ isDigits_zero) nofun)
    · split
      · rw [String.append_assoc]
        exact isNumber_of_sign (by cases s <;> rfl) (isNumber_positional s _)
      · simp only [String.append_assoc]
        exact isNumber_of_sign (by cases s <;> rfl) (isNumber_power s _ _)

end LinkTest.Json
