import LinkTest.Proofs.Binary64.Magnitude
import LinkTest.Proofs.Datum.Fields
import LinkTest.Proofs.Json.Passages

/-!
# Numbers that are read are finite

Whatever a JSON text says, no number in it is read as an infinity or as no number: one that is too
large is a fault of the text.
-/

namespace LinkTest.Json

open Binary64 (AtMost AtLeastOne)

theorem powerOfTen_eq_ofRatio {k : Nat} (h : k ≤ 308) :
    powerOfTen k = Binary64.ofRatio false (Nat.pow 10 k) 1 := by
  have hcount : Binary64.digitCount 1 = 1 := rfl
  have h0 : (-(k : Int)).toNat = 0 := by omega
  rw [powerOfTen, Binary64.ofDecimal, if_neg (by decide), hcount, if_neg (by omega),
    if_neg (by omega), Nat.one_mul, Int.toNat_natCast, h0]

theorem powerOfTen_atLeastOne {k : Nat} (h : k ≤ 308) : (powerOfTen k).AtLeastOne := by
  rcases Nat.lt_or_eq_of_le h with hlt | rfl
  · have hle : Nat.pow 10 k ≤ 1 * Nat.pow 2 1023 :=
      calc 10 ^ k ≤ 10 ^ 307 := Nat.pow_le_pow_right (by decide) (Nat.le_of_lt_succ hlt)
        _ ≤ 1 * Nat.pow 2 1023 := by decide +kernel
    rw [powerOfTen_eq_ofRatio h]
    exact Binary64.ofRatio_atLeastOne false Nat.one_pos (Nat.pow_pos (by decide))
      (Binary64.ofRatio_atMost false hle (Nat.le_refl _)).isFinite
  · -- The last power is beyond the bound that the powers before it keep to.
    decide +kernel

/-- Scaling yields a finite number if it does not fail. -/
theorem isFinite_scaleByPower {fuel : Nat} {f x : Binary64} {exponent : Int} (hf : f.AtMost 64)
    (h : scaleByPower fuel f exponent = .ok x) : x.isFinite = true := by
  induction fuel generalizing f exponent with
  | zero =>
    obtain rfl := Except.ok.inj h
    exact hf.isFinite
  | succ fuel ih =>
    unfold scaleByPower at h
    split at h
    · next he =>
      have hle : exponent.natAbs ≤ 308 := he
      split at h
      · dsimp only at h
        split at h
        · cases h
        · next hinf =>
          obtain rfl := Except.ok.inj h
          exact Binary64.isFinite_mul hf.isFinite
            (powerOfTen_atLeastOne (by omega)).isFinite (by simpa using hinf)
      · obtain rfl := Except.ok.inj h
        exact (Binary64.div_atMost hf (powerOfTen_atLeastOne hle) (by decide)).isFinite
    · split at h
      · obtain rfl := Except.ok.inj h
        exact hf.isFinite
      · split at h
        · cases h
        · exact ih (Binary64.div_atMost hf (powerOfTen_atLeastOne (by decide)) (by decide)) h

theorem significandWhole_lt {n : Nat} (h : n < Nat.pow 2 64) (cs : List Char) :
    (significandWhole n cs).1 < Nat.pow 2 64 := by
  induction cs generalizing n with
  | nil => exact h
  | cons c r ih =>
    unfold significandWhole
    split
    · next hlt => exact ih hlt
    · exact h

theorem significandFraction_lt {n : Nat} (h : n < Nat.pow 2 64) (cs : List Char) :
    (significandFraction n cs).1 < Nat.pow 2 64 := by
  induction cs generalizing n with
  | nil => exact h
  | cons c r ih =>
    unfold significandFraction
    split
    · next hlt => exact ih hlt
    · exact h

/-- All numbers in a datum are finite. -/
inductive AllFinite : Datum → Prop
  | null : AllFinite .null
  | boolean (b : Bool) : AllFinite (.boolean b)
  | text (s : String) : AllFinite (.text s)
  | damaged (f : Fault) (g : Option Fault) : AllFinite (.damaged f g)
  | whole {n : Int} (h : (Binary64.ofInt n).isFinite = true) : AllFinite (.whole n)
  | real {x : Binary64} (h : x.isFinite = true) : AllFinite (.real x)
  | list {items : List Datum} {e : Ending} (h : ∀ d ∈ items, AllFinite d) :
    AllFinite (.list items e)
  | dict {members : List (String × Datum)} {e : Ending} (h : ∀ m ∈ members, AllFinite m.2) :
    AllFinite (.dict members e)

/-- A significand that is scaled, with its sign. -/
theorem allFinite_scaled {m : Nat} (hm : m < Nat.pow 2 64) {negative : Bool} {e : Int} {d : Datum}
    (h : (scaleByPower 4 (Binary64.ofNat m) e >>= fun x =>
      Except.ok (Datum.real (if negative then x.neg else x))) = .ok d) : AllFinite d := by
  obtain ⟨x, hx, hd⟩ := bind_eq_ok.1 h
  obtain rfl := Except.ok.inj hd
  have hfinite := isFinite_scaleByPower (Binary64.ofNat_atMost (Nat.le_of_lt hm) (by decide)) hx
  refine .real ?_
  cases x with
  | finite s m e => cases negative <;> rfl
  | _ => cases hfinite

theorem allFinite_datum {n : Numeral} {d : Datum} (h : n.datum = .ok d) : AllFinite d := by
  have hw := significandWhole_lt (show 0 < Nat.pow 2 64 by decide) n.whole
  unfold Numeral.datum at h
  generalize significandWhole 0 n.whole = p at h hw
  obtain ⟨w, dropped⟩ := p
  dsimp only at h hw
  have hofNat : (Binary64.ofNat w).AtMost 64 :=
    Binary64.ofNat_atMost (Nat.le_of_lt hw) (by decide)
  split at h
  · split at h
    · obtain rfl := Except.ok.inj h
      exact .whole (Binary64.ofInt_atMost (k := 64) (by simpa using Nat.le_of_lt hw)
        (by decide)).isFinite
    · split at h
      · obtain rfl := Except.ok.inj h
        exact .real hofNat.neg.isFinite
      · obtain rfl := Except.ok.inj h
        exact .whole (Binary64.ofInt_atMost (k := 64) (by simpa using Nat.le_of_lt hw)
          (by decide)).isFinite
  · have hm := significandFraction_lt hw (n.fraction.getD [])
    generalize significandFraction w (n.fraction.getD []) = p at h hm
    obtain ⟨m, kept⟩ := p
    dsimp only at h hm
    split at h
    · exact allFinite_scaled hm h
    · split at h
      · split at h
        · cases h
        · obtain rfl := Except.ok.inj h
          exact .real rfl
      · exact allFinite_scaled hm h

/-! ## Whole texts -/

theorem allFinite_word (d : Datum) (hd : AllFinite d) (es r : List Char) :
    AllFinite (word d es r).1 := by
  induction es generalizing r with
  | nil => exact hd
  | cons e es ih =>
    cases r with
    | nil => exact .damaged _ _
    | cons c r =>
      unfold word
      split
      · exact ih r
      · exact .damaged _ _

theorem allFinite_number (cs : List Char) : AllFinite (number cs).1 := by
  unfold number
  split
  · exact .damaged _ _
  · next n r _ =>
    split
    · next hd => exact allFinite_datum hd
    · exact .damaged _ _

theorem allFinite_text (cs : List Char) : AllFinite (text cs).1 := by
  unfold text
  dsimp only
  split
  · exact .text _
  · exact .damaged _ _
  · exact .damaged _ _
  · exact .damaged _ _

/-- What one step of reading yields has finite numbers only. -/
structure FiniteAt (fuel : Nat) : Prop where
  value : ∀ cs, AllFinite (value fuel cs).1
  items : ∀ first cs, ∀ d ∈ (items fuel first cs).1, AllFinite d
  itemThen : ∀ cs, ∀ d ∈ (itemThen fuel cs).1, AllFinite d
  members : ∀ first cs, ∀ m ∈ (members fuel first cs).1, AllFinite m.2
  memberThen : ∀ cs, ∀ m ∈ (memberThen fuel cs).1, AllFinite m.2

theorem finiteAt_zero : FiniteAt 0 :=
  ⟨fun _ => .damaged _ _, fun _ _ => List.forall_mem_nil _, fun _ => List.forall_mem_nil _,
    fun _ _ => List.forall_mem_nil _, fun _ => List.forall_mem_nil _⟩

theorem allFinite_withKey (said : Except Fault String) {d : Datum} {ms : List (String × Datum)}
    (e : Ending) (hd : AllFinite d) (hms : ∀ m ∈ ms, AllFinite m.2) :
    ∀ m ∈ (withKey said d ms e).1, AllFinite m.2 := by
  cases said with
  | ok k => exact List.forall_mem_cons.2 ⟨hd, hms⟩
  | error f => exact List.forall_mem_nil _

theorem FiniteAt.colonThen {fuel : Nat} (h : FiniteAt fuel) (cs : List Char) :
    AllFinite (colonThen fuel cs).1 := by
  unfold Json.colonThen
  split
  · exact .damaged _ _
  · split
    · exact h.value _
    · exact .damaged _ _

theorem FiniteAt.moreMembers {fuel : Nat} (h : FiniteAt fuel) (rest : Rest) :
    ∀ m ∈ (moreMembers fuel rest).1, AllFinite m.2 := by
  cases rest with
  | none => exact List.forall_mem_nil _
  | some r => exact h.members false r

theorem finiteAt_succ {fuel : Nat} (h : FiniteAt fuel) : FiniteAt (fuel + 1) where
  value cs := by
    have hformed := formed_value fuel cs
    generalize Json.value (fuel + 1) cs = read at hformed ⊢
    cases hformed with
    | damaged f => exact .damaged _ _
    | list r => exact .list (h.items true r)
    | dict r => exact .dict (h.members true r)
    | text r => exact allFinite_text r
    | number r => exact allFinite_number r
    | null r => exact allFinite_word _ .null _ r
    | boolean b letters r => exact allFinite_word _ (.boolean b) _ r
  items first cs := by
    rcases items_cases fuel first cs with ⟨f, g, hbroken⟩ | ⟨r, hclose⟩ | ⟨next, hnext⟩
    · rw [hbroken]
      exact List.forall_mem_nil _
    · rw [items_closed hclose]
      exact List.forall_mem_nil _
    · rw [items_of_leads hnext]
      exact h.itemThen next
  itemThen cs := by
    unfold Json.itemThen
    have hv := h.value cs
    dsimp only
    split
    · exact fun d hd => List.mem_singleton.1 hd ▸ hv
    · exact List.forall_mem_cons.2 ⟨hv, h.items false _⟩
  members first cs := by
    rcases members_cases fuel first cs with ⟨f, g, hbroken⟩ | ⟨r, hclose⟩ | ⟨next, hnext⟩
    · rw [hbroken]
      exact List.forall_mem_nil _
    · rw [members_closed hclose]
      exact List.forall_mem_nil _
    · rw [members_of_leads hnext]
      exact h.memberThen next
  memberThen cs := by
    rcases memberThen_cases fuel cs with ⟨f, g, hbroken⟩ | ⟨said, rest, hkey⟩
    · rw [hbroken]
      exact List.forall_mem_nil _
    · rw [memberThen_of_key hkey]
      exact allFinite_withKey said _ (h.colonThen rest) (h.moreMembers _)

theorem finiteAt (fuel : Nat) : FiniteAt fuel := by
  induction fuel with
  | zero => exact finiteAt_zero
  | succ fuel ih => exact finiteAt_succ ih

/-- No number in a JSON text is read as one that is not finite. -/
theorem allFinite_read (s : String) : AllFinite (read s).root :=
  (finiteAt (4 * s.toList.length + 4)).value s.toList

end LinkTest.Json
