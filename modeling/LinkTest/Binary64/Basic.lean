/-! # Numbers of the binary64 format

A number is kept as its sign, mantissa and exponent, so that every operation below is exact
arithmetic on whole numbers followed by one rounding. The rounding takes the nearest
representable number, and of two equally near ones the one with the even mantissa. -/

namespace LinkTest

/-- A number of the binary64 format; `finite s m e` stands for `m * 2 ^ e` with the sign `s`. -/
inductive Binary64
  | nan
  | infinite (negative : Bool)
  | finite (negative : Bool) (mantissa : Nat) (exponent : Int)
deriving DecidableEq, Repr, Inhabited

namespace Binary64

/-- The exponent of the least positive number. -/
def leastExponent : Int := -1074

/-- The exponent of the greatest finite numbers. -/
def greatestExponent : Int := 971

/-- The form that rounding yields: 53 bits, all of them used unless the exponent is the least. -/
def Canonical : Binary64 → Prop
  | nan => True
  | infinite _ => True
  | finite _ m e =>
    m < Nat.pow 2 53 ∧ leastExponent ≤ e ∧ e ≤ greatestExponent ∧ (Nat.pow 2 52 ≤ m ∨ e = leastExponent)

instance : DecidablePred Canonical := fun x => by
  cases x <;> unfold Canonical <;> infer_instance

def zero (negative : Bool) : Binary64 := finite negative 0 leastExponent

/-- The quotient as the nearest whole number, a tie going to the even one. -/
def roundDiv (num den : Nat) : Nat :=
  let q := num / den
  let r := num % den
  if den < 2 * r ∨ (den = 2 * r ∧ q % 2 = 1) then q + 1 else q

/-- `m * 2 ^ e` as a quotient of whole numbers. -/
def scaled (m : Nat) (e : Int) : Nat × Nat :=
  (m * Nat.pow 2 e.toNat, Nat.pow 2 (-e).toNat)

/-- The whole part of the binary logarithm of `num / den`, both positive. -/
def floorLog2 (num den : Nat) : Int :=
  let k : Int := (Nat.log2 num : Int) - (Nat.log2 den : Int)
  if den * Nat.pow 2 k.toNat ≤ num * Nat.pow 2 (-k).toNat then k else k - 1

/-- The number nearest to `num / den`. -/
def ofRatio (negative : Bool) (num den : Nat) : Binary64 :=
  if num = 0 then zero negative
  else
    let e := max (floorLog2 num den - 52) leastExponent
    let m := roundDiv (num * Nat.pow 2 (-e).toNat) (den * Nat.pow 2 e.toNat)
    let (m, e) := if m = Nat.pow 2 53 then (Nat.pow 2 52, e + 1) else (m, e)
    if greatestExponent < e then infinite negative else finite negative m e

def ofNat (n : Nat) : Binary64 := ofRatio false n 1

def ofInt (n : Int) : Binary64 := ofRatio (n < 0) n.natAbs 1

/-- How many decimal digits a whole number has; zero has one. -/
def digitCount (n : Nat) : Nat := (Nat.toDigits 10 n).length

/-- The number nearest to `digits * 10 ^ exponent`. Far outside the format's range the power
of ten is not computed. -/
def ofDecimal (negative : Bool) (digits : Nat) (exponent : Int) : Binary64 :=
  if digits = 0 then zero negative
  else if 400 < exponent + digitCount digits then infinite negative
  else if exponent + digitCount digits < -400 then zero negative
  else ofRatio negative (digits * Nat.pow 10 exponent.toNat) (Nat.pow 10 (-exponent).toNat)

def neg : Binary64 → Binary64
  | nan => nan
  | infinite s => infinite (!s)
  | finite s m e => finite (!s) m e

def isFinite : Binary64 → Bool
  | finite _ _ _ => true
  | _ => false

def isInfinite : Binary64 → Bool
  | infinite _ => true
  | _ => false

def isZero : Binary64 → Bool
  | finite _ m _ => m == 0
  | _ => false

/-- Below zero; neither a zero of any sign nor a NaN is. -/
def isBelowZero : Binary64 → Bool
  | nan => false
  | infinite s => s
  | finite s m _ => s && m != 0

/-- Equality as numbers: a NaN differs from itself and both zeros are equal. -/
def sameNumber : Binary64 → Binary64 → Bool
  | nan, _ | _, nan => false
  | finite s m e, finite s' m' e' => (m == 0 && m' == 0) || (s == s' && m == m' && e == e')
  | x, y => x == y

def mul : Binary64 → Binary64 → Binary64
  | nan, _ | _, nan => nan
  | infinite s, infinite t => infinite (s != t)
  | infinite s, finite t m _ | finite t m _, infinite s => if m = 0 then nan else infinite (s != t)
  | finite s m e, finite t n f =>
    let (num, den) := scaled (m * n) (e + f)
    ofRatio (s != t) num den

def div : Binary64 → Binary64 → Binary64
  | nan, _ | _, nan => nan
  | infinite _, infinite _ => nan
  | infinite s, finite t _ _ => infinite (s != t)
  | finite s _ _, infinite t => zero (s != t)
  | finite s m e, finite t n f =>
    if n = 0 then (if m = 0 then nan else infinite (s != t))
    else
      let (num, den) := scaled m (e - f)
      ofRatio (s != t) num (den * n)

/-- The whole number left when the fraction is dropped; zero for what is not finite. -/
def truncate : Binary64 → Int
  | finite s m e =>
    let (num, den) := scaled m e
    let n : Nat := num / den
    if s then -(n : Int) else n
  | _ => 0

/-- Finite and without a fraction. -/
def isWhole : Binary64 → Bool
  | finite _ m e => let (num, den) := scaled m e; num % den == 0
  | _ => false

end Binary64
end LinkTest
