import LinkTest.Binary64.Basic
import LinkTest.Text.Digits

/-! # Decimal forms of binary64 numbers

`shortest` gives the fewest digits from which rounding recovers the number, and of those the
nearest. `rounded` gives a fixed count of places. Both only choose digits; `positional` lays
them out. -/

namespace LinkTest.Binary64

/-- The decimal `digits * 10 ^ exponent`. -/
structure Decimal where
  digits : Nat
  exponent : Int
deriving DecidableEq, Repr

/-- The decimals that round to one number, all bounds over one denominator. -/
structure Interval where
  value : Nat
  low : Nat
  high : Nat
  den : Nat
  closed : Bool

/-- The reals that round to `m * 2 ^ e`: half a step either way, a quarter below a power of two,
the ends belonging to it when `m` is even. -/
def interval (m : Nat) (e : Int) : Interval :=
  let (num, den) := scaled m e
  let step := Nat.pow 2 e.toNat
  let below := if m = Nat.pow 2 52 ∧ leastExponent < e then step else 2 * step
  ⟨4 * num, 4 * num - below, 4 * num + 2 * step, 4 * den, m % 2 == 0⟩

def Interval.contains (i : Interval) (d : Decimal) : Bool :=
  let x := d.digits * Nat.pow 10 d.exponent.toNat * i.den
  let scale := Nat.pow 10 (-d.exponent).toNat
  if i.closed then i.low * scale ≤ x && x ≤ i.high * scale
  else i.low * scale < x && x < i.high * scale

/-- Twice the distance of a decimal from the value, over a denominator that hangs on its exponent. -/
def Interval.distance (i : Interval) (d : Decimal) : Nat :=
  let x := d.digits * Nat.pow 10 d.exponent.toNat * i.den
  let v := i.value * Nat.pow 10 (-d.exponent).toNat
  (x - v) + (v - x)

/-- The greatest `k ≤ start` with `10 ^ k ≤ num / den`, looking at most `fuel` places down. -/
def floorLog10From (num den : Nat) : Nat → Int → Int
  | 0, start => start
  | fuel + 1, start =>
    if Nat.pow 10 start.toNat * den ≤ num * Nat.pow 10 (-start).toNat then start
    else floorLog10From num den fuel (start - 1)

/-- The whole part of the decimal logarithm of a positive quotient. -/
def floorLog10 (num den : Nat) : Int :=
  if den ≤ num then (digitCount (num / den) : Int) - 1
  else floorLog10From num den (digitCount den + 1) (-1)

/-- The best decimal on the grid of `10 ^ exponent` that lies in the interval. -/
def Interval.onGrid? (i : Interval) (exponent : Int) : Option Decimal :=
  let down : Nat := i.value * Nat.pow 10 (-exponent).toNat / (i.den * Nat.pow 10 exponent.toNat)
  let a : Decimal := ⟨down, exponent⟩
  let b : Decimal := ⟨down + 1, exponent⟩
  match i.contains a, i.contains b with
  | true, true =>
    let da := i.distance a
    let db := i.distance b
    some (if da < db ∨ (da = db ∧ down % 2 = 0) then a else b)
  | true, false => some a
  | false, true => some b
  | false, false => none

/-- The first grid with a hit, from coarse to fine. -/
def Interval.firstHit (i : Interval) : Nat → Int → Decimal
  | 0, exponent => (i.onGrid? exponent).getD ⟨0, 0⟩
  | fuel + 1, exponent => (i.onGrid? exponent).getD (i.firstHit fuel (exponent - 1))

/-- Zeros at the end of the digits moved into the exponent. -/
def Decimal.trim : Nat → Decimal → Decimal
  | 0, d => d
  | fuel + 1, d =>
    if d.digits % 10 = 0 ∧ d.digits ≠ 0 then trim fuel ⟨d.digits / 10, d.exponent + 1⟩ else d

/-- The fewest digits that read back as `m * 2 ^ e`, and of those the nearest. Seventeen
digits always suffice. -/
def shortest (m : Nat) (e : Int) : Decimal :=
  if m = 0 then ⟨0, 0⟩
  else
    let i := interval m e
    (i.firstHit 17 (floorLog10 i.value i.den)).trim 20

/-- `m * 2 ^ e` in units of `10 ^ -places`, a tie of the exact value going to the even unit. -/
def rounded (m : Nat) (e : Int) (places : Nat) : Nat :=
  let (num, den) := scaled m e
  roundDiv (num * Nat.pow 10 places) den

/-- A decimal without an exponent, and with a point only if it has a fraction. -/
def Decimal.positional (d : Decimal) : String :=
  if 0 ≤ d.exponent then toString (d.digits * Nat.pow 10 d.exponent.toNat)
  else
    let places := (-d.exponent).toNat
    let ds := Text.padded (places + 1) d.digits
    String.ofList (ds.take (ds.length - places)) ++ "." ++ String.ofList (ds.drop (ds.length - places))

private def minus (negative : Bool) : String := if negative then "-" else ""

/-- Plain text: the shortest digits, never an exponent. -/
def plain : Binary64 → String
  | nan => "NaN"
  | infinite s => minus s ++ "inf"
  | finite s m e => minus s ++ (shortest m e).positional

/-- Text with exactly `places` places. -/
def fixed (places : Nat) : Binary64 → String
  | nan => "NaN"
  | infinite s => minus s ++ "inf"
  | finite s m e =>
    let ds := Text.padded (places + 1) (rounded m e places)
    let point := if places = 0 then "" else "."
    minus s ++ String.ofList (ds.take (ds.length - places)) ++ point ++
      String.ofList (ds.drop (ds.length - places))

/-- Text that shows a number to be a real one: positional with a point from `10 ^ least` up to
`1e16`, outside of that one digit before the point and an exponent, which begins with `plus` if it
is not negative. -/
def pointed (least : Int) (plus : String) : Binary64 → String
  | nan => "NaN"
  | infinite s => minus s ++ "inf"
  | finite s m e =>
    let d := shortest m e
    let count : Int := digitCount d.digits
    let order : Int := count + d.exponent - 1
    if m = 0 then minus s ++ "0.0"
    else if least ≤ order ∧ order < 16 then
      minus s ++ d.positional ++ (if 0 ≤ d.exponent then ".0" else "")
    else
      let ds := Nat.toDigits 10 d.digits
      let fraction := if 1 < ds.length then "." ++ String.ofList (ds.drop 1) else ""
      minus s ++ String.ofList (ds.take 1) ++ fraction ++ "e" ++
        (if order < 0 then "-" else plus) ++ toString order.natAbs

/-- The form in documents. -/
def scientific (x : Binary64) : String := x.pointed (-5) "+"

/-- The form for people. -/
def describe (x : Binary64) : String := x.pointed (-4) ""

/-- The digits in front, and what follows them. -/
private def digitRun (cs : List Char) : List Char × List Char :=
  (cs.takeWhile Char.isDigit, cs.dropWhile Char.isDigit)

private def exponentOf? : List Char → Option Int
  | [] => none
  | '+' :: r => if r ≠ [] ∧ r.all Char.isDigit then some (Text.numberIn 10 r) else none
  | '-' :: r => if r ≠ [] ∧ r.all Char.isDigit then some (-(Text.numberIn 10 r : Int)) else none
  | r => if r.all Char.isDigit then some (Text.numberIn 10 r) else none

private def unsigned? (negative : Bool) (cs : List Char) : Option Binary64 :=
  let word := (String.ofList cs).toLower
  if word = "nan" then some nan
  else if word = "inf" ∨ word = "infinity" then some (infinite negative)
  else
    let (whole, r) := digitRun cs
    let (fraction, r) := match r with
      | '.' :: r => digitRun r
      | r => ([], r)
    if whole = [] ∧ fraction = [] then none
    else
      let value := Text.numberIn 10 (whole ++ fraction)
      let shift : Int := -(fraction.length : Int)
      match r with
      | [] => some (ofDecimal negative value shift)
      | c :: r =>
        if c = 'e' ∨ c = 'E' then
          (exponentOf? r).map fun x => ofDecimal negative value (shift + x)
        else none

/-- The number nearest to a decimal text: digits with an optional sign, point and exponent, or
one of the words for an infinity and for no number. -/
def ofText? (text : String) : Option Binary64 :=
  match text.toList with
  | '-' :: r => unsigned? true r
  | '+' :: r => unsigned? false r
  | r => unsigned? false r

end LinkTest.Binary64
