import LinkTest.Binary64.Basic

/-! # Sums and order of binary64 numbers

Two finite numbers are brought to a common unit, a power of two, in which both are whole. -/

namespace LinkTest.Binary64

/-- A finite number in units of a power of two whose exponent is not above its own. -/
def units (negative : Bool) (m : Nat) (e unit : Int) : Int :=
  let n : Nat := m * Nat.pow 2 (e - unit).toNat
  if negative then -(n : Int) else n

/-- A sum of numbers that are not zero can be one; it is a positive zero then. -/
def add : Binary64 → Binary64 → Binary64
  | nan, _ | _, nan => nan
  | infinite s, infinite t => if s = t then infinite s else nan
  | infinite s, finite _ _ _ | finite _ _ _, infinite s => infinite s
  | finite s m e, finite t n f =>
    let unit := min e f
    let sum := units s m e unit + units t n f unit
    if sum = 0 then zero (s && t)
    else
      let (num, den) := scaled sum.natAbs unit
      ofRatio (sum < 0) num den

/-- The order of numbers; a NaN has no place in it. -/
def isBelow : Binary64 → Binary64 → Bool
  | nan, _ | _, nan => false
  | infinite s, infinite t => s && !t
  | infinite s, finite _ _ _ => s
  | finite _ _ _, infinite t => !t
  | finite s m e, finite t n f => units s m e (min e f) < units t n f (min e f)

/-- The greater of two numbers, the other one if one is a NaN. -/
def greater (x y : Binary64) : Binary64 :=
  if x = nan ∨ x.isBelow y then y else x

end LinkTest.Binary64
