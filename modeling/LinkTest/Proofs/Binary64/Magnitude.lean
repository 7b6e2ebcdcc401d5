import LinkTest.Binary64.Basic

/-!
# Bounds on magnitudes

Rounding never leads beyond a power of two that bounds the exact value, and never below one. So the
number nearest to a quotient that is far from the end of the format's range is finite.
-/

namespace LinkTest.Binary64

/-- A finite number of at most `2 ^ k`. -/
def AtMost (k : Nat) : Binary64 → Prop
  | finite _ m e => e ≤ k ∧ m ≤ Nat.pow 2 (k - e).toNat
  | _ => False

theorem AtMost.isFinite {k : Nat} {x : Binary64} (h : x.AtMost k) : x.isFinite = true := by
  cases x with
  | finite s m e => rfl
  | _ => cases h

theorem AtMost.neg {k : Nat} {x : Binary64} (h : x.AtMost k) : x.neg.AtMost k := by
  cases x with
  | finite s m e => exact h
  | _ => cases h

theorem zero_atMost (s : Bool) (k : Nat) : (zero s).AtMost k :=
  ⟨by simp only [leastExponent]; omega, Nat.zero_le _⟩

theorem roundDiv_le {num den q : Nat} (h : num ≤ q * den) : roundDiv num den ≤ q := by
  have hdiv := Nat.div_add_mod num den
  have hle : num / den ≤ q := Nat.div_le_of_le_mul (by rwa [Nat.mul_comm])
  unfold roundDiv
  dsimp only
  split
  · next hup =>
    refine Nat.lt_of_le_of_ne hle fun heq => ?_
    rw [heq, Nat.mul_comm] at hdiv
    have hmod : num % den = 0 := by omega
    rw [hmod] at hup
    rcases hup with hlt | ⟨rfl, hodd⟩
    · omega
    · simp at hodd
  · exact hle

theorem floorLog2_le {num den k : Nat} (hnum : num ≠ 0) (h : num ≤ den * Nat.pow 2 k) :
    floorLog2 num den ≤ k := by
  have hlog : num.log2 ≤ den.log2 + k := by
    have hlt : num < 2 ^ (den.log2 + k + 1) := by
      calc num ≤ den * 2 ^ k := h
        _ < 2 ^ (den.log2 + 1) * 2 ^ k :=
          Nat.mul_lt_mul_of_pos_right Nat.lt_log2_self (Nat.two_pow_pos k)
        _ = 2 ^ (den.log2 + k + 1) := by rw [← Nat.pow_add]; congr 1; omega
    exact Nat.lt_succ_iff.1 ((Nat.log2_lt hnum).2 hlt)
  unfold floorLog2
  dsimp only
  split <;> omega

theorem ofRatio_atMost (s : Bool) {num den k : Nat} (h : num ≤ den * Nat.pow 2 k) (hk : k ≤ 1023) :
    (ofRatio s num den).AtMost k := by
  unfold ofRatio
  split
  · exact zero_atMost s k
  · next hnum =>
    have hfloor := floorLog2_le hnum h
    dsimp only
    generalize floorLog2 num den = l at hfloor
    have he : max (l - 52) leastExponent ≤ max ((k : Int) - 52) (-1074) := by
      simp only [leastExponent]; omega
    generalize max (l - 52) leastExponent = e at he
    have hm : roundDiv (num * Nat.pow 2 (-e).toNat) (den * Nat.pow 2 e.toNat) ≤
        2 ^ ((k : Int) - e).toNat := by
      refine roundDiv_le ?_
      simp only [Nat.pow_eq]
      calc num * 2 ^ (-e).toNat ≤ den * 2 ^ k * 2 ^ (-e).toNat := Nat.mul_le_mul_right _ h
        _ = 2 ^ ((k : Int) - e).toNat * (den * 2 ^ e.toNat) := by
          rw [Nat.mul_assoc, ← Nat.pow_add, Nat.mul_left_comm, ← Nat.pow_add]
          congr 2
          omega
    generalize roundDiv _ _ = m at hm
    split
    · next hmax =>
      -- The mantissa has grown by a bit, so there was room for it.
      have hroom : 53 ≤ ((k : Int) - e).toNat := by
        rw [hmax, Nat.pow_eq] at hm
        exact (Nat.pow_le_pow_iff_right (by decide)).1 hm
      rw [if_neg (by simp only [greatestExponent]; omega)]
      refine ⟨by omega, ?_⟩
      rw [Nat.pow_eq]
      exact Nat.pow_le_pow_right (by decide) (by omega)
    · rw [if_neg (by simp only [greatestExponent]; omega)]
      exact ⟨by omega, hm⟩

theorem ofNat_atMost {n k : Nat} (h : n ≤ Nat.pow 2 k) (hk : k ≤ 1023) : (ofNat n).AtMost k :=
  ofRatio_atMost false (by rwa [Nat.one_mul]) hk

theorem ofInt_atMost {n : Int} {k : Nat} (h : n.natAbs ≤ Nat.pow 2 k) (hk : k ≤ 1023) :
    (ofInt n).AtMost k :=
  ofRatio_atMost _ (by rwa [Nat.one_mul]) hk

/-- A finite number of one at least. -/
def AtLeastOne : Binary64 → Prop
  | finite _ m e => Nat.pow 2 (-e).toNat ≤ m * Nat.pow 2 e.toNat
  | _ => False

instance : DecidablePred AtLeastOne
  | nan => .isFalse id
  | infinite _ => .isFalse id
  | finite _ m e => Nat.decLe (Nat.pow 2 (-e).toNat) (m * Nat.pow 2 e.toNat)

theorem AtLeastOne.isFinite {x : Binary64} (h : x.AtLeastOne) : x.isFinite = true := by
  cases x with
  | finite s m e => rfl
  | _ => cases h

theorem atLeastOne_of_le (s : Bool) {m : Nat} {e : Int} (h : Nat.pow 2 (-e).toNat ≤ m) :
    (finite s m e).AtLeastOne :=
  Nat.le_trans h (Nat.le_mul_of_pos_right _ (Nat.two_pow_pos _))

theorem le_roundDiv {num den q : Nat} (hden : 0 < den) (h : q * den ≤ num) :
    q ≤ roundDiv num den := by
  have hle : q ≤ num / den := (Nat.le_div_iff_mul_le hden).2 h
  unfold roundDiv
  dsimp only
  split <;> omega

theorem mul_pow_floorLog2_le {num den : Nat} (hden : 0 < den) (h : den ≤ num) :
    0 ≤ floorLog2 num den ∧ den * Nat.pow 2 (floorLog2 num den).toNat ≤ num := by
  have hnum : num ≠ 0 := by omega
  have hlog : den.log2 ≤ num.log2 :=
    (Nat.le_log2 hnum).2 (Nat.le_trans (Nat.log2_self_le (Nat.ne_of_gt hden)) h)
  unfold floorLog2
  dsimp only
  split
  · next hle =>
    have h0 : (-((num.log2 : Int) - den.log2)).toNat = 0 := by omega
    rw [h0] at hle
    exact ⟨by omega, by simpa using hle⟩
  · next hlt =>
    have hne : den.log2 ≠ num.log2 := by
      intro heq
      rw [heq, Int.sub_self] at hlt
      exact hlt (Nat.mul_le_mul_right 1 h)
    refine ⟨by omega, ?_⟩
    simp only [Nat.pow_eq]
    calc den * 2 ^ ((num.log2 : Int) - den.log2 - 1).toNat
        ≤ 2 ^ (den.log2 + 1) * 2 ^ ((num.log2 : Int) - den.log2 - 1).toNat :=
          Nat.mul_le_mul_right _ (Nat.le_of_lt Nat.lt_log2_self)
      _ = 2 ^ num.log2 := by rw [← Nat.pow_add]; congr 1; omega
      _ ≤ num := Nat.log2_self_le hnum

theorem ofRatio_atLeastOne (s : Bool) {num den : Nat} (hden : 0 < den) (h : den ≤ num)
    (hfinite : (ofRatio s num den).isFinite = true) : (ofRatio s num den).AtLeastOne := by
  obtain ⟨hpos, hlog⟩ := mul_pow_floorLog2_le hden h
  unfold ofRatio at hfinite ⊢
  rw [if_neg (by omega)] at hfinite ⊢
  dsimp only at hfinite ⊢
  generalize floorLog2 num den = l at hpos hlog hfinite
  have he : max (l - 52) leastExponent = l - 52 := by simp only [leastExponent]; omega
  rw [he] at hfinite ⊢
  generalize hexp : l - 52 = e at hfinite ⊢
  have hm : 2 ^ (-e).toNat ≤ roundDiv (num * Nat.pow 2 (-e).toNat) (den * Nat.pow 2 e.toNat) := by
    refine le_roundDiv (Nat.mul_pos hden (Nat.two_pow_pos _)) ?_
    simp only [Nat.pow_eq] at hlog ⊢
    calc 2 ^ (-e).toNat * (den * 2 ^ e.toNat) ≤ 2 ^ (-e).toNat * (den * 2 ^ l.toNat) :=
          Nat.mul_le_mul_left _ (Nat.mul_le_mul_left _
            (Nat.pow_le_pow_right (by decide) (by omega)))
      _ ≤ 2 ^ (-e).toNat * num := Nat.mul_le_mul_left _ hlog
      _ = num * 2 ^ (-e).toNat := Nat.mul_comm _ _
  generalize roundDiv _ _ = m at hm hfinite ⊢
  split at hfinite
  · next hfull =>
    rw [if_pos hfull]
    split at hfinite
    · cases hfinite
    · next hle =>
      rw [if_neg hle]
      exact atLeastOne_of_le s (Nat.pow_le_pow_right (by decide) (by omega))
  · next hfull =>
    rw [if_neg hfull]
    split at hfinite
    · cases hfinite
    · next hle =>
      rw [if_neg hle]
      exact atLeastOne_of_le s hm

/-- Division by one or more leads nowhere beyond. -/
theorem div_atMost {x y : Binary64} {k : Nat} (hx : x.AtMost k) (hy : y.AtLeastOne)
    (hk : k ≤ 1023) : (x.div y).AtMost k := by
  cases x with
  | nan => cases hx
  | infinite s => cases hx
  | finite s m e =>
    cases y with
    | nan => cases hy
    | infinite t => cases hy
    | finite t n f =>
      obtain ⟨he, hm⟩ := hx
      have hn : n ≠ 0 := by
        rintro rfl
        have hpos := Nat.two_pow_pos (-f).toNat
        simp only [AtLeastOne, Nat.zero_mul, Nat.pow_eq] at hy
        omega
      simp only [div, if_neg hn, scaled]
      refine ofRatio_atMost _ ?_ hk
      simp only [Nat.pow_eq]
      have hpow : 2 ^ (-f).toNat ≤ n := by
        by_cases hf : f < 0
        · have h0 : f.toNat = 0 := by omega
          simpa [AtLeastOne, h0] using hy
        · have h0 : (-f).toNat = 0 := by omega
          rw [h0]
          exact Nat.pos_of_ne_zero hn
      calc m * 2 ^ (e - f).toNat ≤ 2 ^ ((k : Int) - e).toNat * 2 ^ (e - f).toNat :=
            Nat.mul_le_mul_right _ hm
        _ ≤ 2 ^ (-(e - f)).toNat * 2 ^ (-f).toNat * 2 ^ k := by
            rw [← Nat.pow_add, ← Nat.pow_add, ← Nat.pow_add]
            exact Nat.pow_le_pow_right (by decide) (by omega)
        _ ≤ 2 ^ (-(e - f)).toNat * n * 2 ^ k :=
            Nat.mul_le_mul_right _ (Nat.mul_le_mul_left _ hpow)

theorem ofRatio_ne_nan (s : Bool) (num den : Nat) : ofRatio s num den ≠ nan := by
  unfold ofRatio
  split
  · exact nofun
  · dsimp only
    split <;> split <;> exact nofun

/-- The product of finite numbers is finite unless it is too large. -/
theorem isFinite_mul {x y : Binary64} (hx : x.isFinite = true) (hy : y.isFinite = true)
    (h : (x.mul y).isInfinite = false) : (x.mul y).isFinite = true := by
  cases x with
  | nan => cases hx
  | infinite s => cases hx
  | finite s m e =>
    cases y with
    | nan => cases hy
    | infinite t => cases hy
    | finite t n f =>
      have hnan : (finite s m e).mul (finite t n f) ≠ nan := ofRatio_ne_nan _ _ _
      cases hr : (finite s m e).mul (finite t n f) with
      | nan => exact absurd hr hnan
      | infinite u => rw [hr] at h; cases h
      | finite u l g => rfl

end LinkTest.Binary64
