import LinkTest.Timestamp
import LinkTest.Toml.Text

/-!
# Numbers, truth values and moments in TOML

Whole numbers are read as such in four bases and have to fit into 64 bits with sign. A date, a
time of day or both are kept as they are written, in a dictionary of one member.
-/

namespace LinkTest.Toml

/-- The digits after a first one. A line under is allowed between two digits. -/
def moreDigits (isDigit : Char → Bool) : Reader (List Char)
  | [] => some ([], [])
  | c :: r =>
    if isDigit c then (moreDigits isDigit r).map fun (ds, r) => (c :: ds, r)
    else if c = '_' then if r.head?.any isDigit then moreDigits isDigit r else none
    else some ([], c :: r)

/-- One digit or more. -/
def digitRow (isDigit : Char → Bool) : Reader (List Char)
  | c :: r => if isDigit c then (moreDigits isDigit r).map fun (ds, r) => (c :: ds, r) else none
  | [] => none

/-- The whole part of a decimal number, which starts with zero only if it is zero. -/
def wholeDigits : Reader (List Char)
  | '0' :: r => some (['0'], r)
  | cs => digitRow Char.isDigit cs

/-- A sign, if there is one, and whether it is a minus. -/
def sign : List Char → Bool × List Char
  | '-' :: r => (true, r)
  | '+' :: r => (false, r)
  | cs => (false, cs)

def signedDatum? (negative : Bool) (n : Nat) : Option Datum :=
  if negative then if n ≤ Nat.pow 2 63 then some (.whole (-(n : Int))) else none
  else if n < Nat.pow 2 63 then some (.whole n) else none

/-- The digits behind a point, if there is one. -/
def fraction : Reader (Option (List Char))
  | '.' :: r => (digitRow Char.isDigit r).map fun (ds, r) => (some ds, r)
  | cs => some (none, cs)

/-- The power of ten, if there is one. -/
def power : Reader (Option Int)
  | [] => some (none, [])
  | c :: r =>
    if c = 'e' ∨ c = 'E' then do
      let (negative, r) := sign r
      let (ds, r) ← digitRow Char.isDigit r
      let n : Int := Text.numberIn 10 ds
      some (some (if negative then -n else n), r)
    else some (none, c :: r)

/-- A real number, unless it is too large. -/
def realDatum? (x : Binary64) : Option Datum := if x = .infinite false then none else some (.real x)

def decimalNumber : Reader Datum := fun cs => do
  let (negative, r) := sign cs
  let (whole, r) ← wholeDigits r
  let (parts, r) ← fraction r
  let (exponent, r) ← power r
  if parts.isNone ∧ exponent.isNone then
    let d ← signedDatum? negative (Text.numberIn 10 whole)
    some (d, r)
  else
    let ds := parts.getD []
    let d ← realDatum?
      (.ofDecimal negative (Text.numberIn 10 (whole ++ ds)) (exponent.getD 0 - ds.length))
    some (d, r)

/-- A whole number in another base, from behind the mark of the base. -/
def numberInBase (base : Nat) : Reader Datum := fun cs => do
  let (ds, r) ← digitRow (Text.isDigitIn base) cs
  let d ← signedDatum? false (Text.numberIn base ds)
  some (d, r)

/-- Past a word. -/
def word? : List Char → List Char → Option (List Char)
  | [], r => some r
  | e :: es, c :: r => if c = e then word? es r else none
  | _ :: _, [] => none

/-- The numbers that are written as words. -/
def wordNumber : Reader Datum := fun cs =>
  let (negative, r) := sign cs
  match word? "inf".toList r, word? "nan".toList r with
  | some r, _ => some (.real (.infinite negative), r)
  | none, some r => some (.real .nan, r)
  | none, none => none

def number : Reader Datum
  | '0' :: 'x' :: r => numberInBase 16 r
  | '0' :: 'o' :: r => numberInBase 8 r
  | '0' :: 'b' :: r => numberInBase 2 r
  | cs => (wordNumber cs).or (decimalNumber cs)

/-! ## Moments -/

/-- Exactly two digits, in a range. -/
def twoDigitNumber (low high : Nat) : Reader Nat
  | a :: b :: r =>
    if a.isDigit ∧ b.isDigit then
      let n := Text.numberIn 10 [a, b]
      if low ≤ n ∧ n ≤ high then some (n, r) else none
    else none
  | _ => none

def fourDigitNumber : Reader Nat
  | a :: b :: c :: d :: r =>
    if a.isDigit ∧ b.isDigit ∧ c.isDigit ∧ d.isDigit then some (Text.numberIn 10 [a, b, c, d], r)
    else none
  | _ => none

def past? (c : Char) (cs : List Char) : Option (List Char) := word? [c] cs

/-- Past a date in the calendar. -/
def date? (cs : List Char) : Option (List Char) := do
  let (y, r) ← fourDigitNumber cs
  let r ← past? '-' r
  let (m, r) ← twoDigitNumber 1 12 r
  let r ← past? '-' r
  let (d, r) ← twoDigitNumber 1 31 r
  if d ≤ Timestamp.daysInMonth y m then some r else none

/-- Past a time of day. -/
def clock? (cs : List Char) : Option (List Char) := do
  let (_, r) ← twoDigitNumber 0 23 cs
  let r ← past? ':' r
  let (_, r) ← twoDigitNumber 0 59 r
  let r ← past? ':' r
  let (_, r) ← twoDigitNumber 0 60 r
  match r with
  | '.' :: c :: r => if c.isDigit then some (r.dropWhile Char.isDigit) else some ('.' :: c :: r)
  | r => some r

/-- Past the distance from universal time, if it is given. -/
def zone? (cs : List Char) : Option (List Char) :=
  match cs with
  | [] => some []
  | c :: r =>
    if c = 'Z' ∨ c = 'z' then some r
    else if c = '+' ∨ c = '-' then do
      let (_, r) ← twoDigitNumber 0 23 r
      let r ← past? ':' r
      let (_, r) ← twoDigitNumber 0 59 r
      some r
    else some (c :: r)

/-- Past the time of day behind a date, if there is one. -/
def clockBehindDate? (cs : List Char) : Option (List Char) :=
  match cs with
  | [] => some []
  | c :: r =>
    if c = 'T' ∨ c = 't' then (clock? r).bind zone?
    else if c = ' ' ∧ (twoDigitNumber 0 23 r).any (fun (_, r) => r.head? = some ':') then
      (clock? r).bind zone?
    else some (c :: r)

/-- Past any of the forms of a moment. -/
def moment? (cs : List Char) : Option (List Char) :=
  ((date? cs).bind clockBehindDate?).or (clock? cs)

def momentKey : String := "moment"

/-- Whether a value is a date or a time: it goes on with a dash after four digits or with a colon
after two. -/
def startsMoment : List Char → Bool
  | a :: b :: ':' :: _ => a.isDigit && b.isDigit
  | a :: b :: c :: d :: '-' :: _ => a.isDigit && b.isDigit && c.isDigit && d.isDigit
  | _ => false

def moment : Reader Datum := fun cs => do
  let r ← moment? cs
  some (.dict [(momentKey, .text (String.ofList (cs.take (cs.length - r.length))))] .strict, r)

/-- A value that is neither a text nor holds others. -/
def scalar (cs : List Char) : Option (Datum × List Char) :=
  match word? "true".toList cs, word? "false".toList cs with
  | some r, _ => some (.boolean true, r)
  | none, some r => some (.boolean false, r)
  | none, none => if startsMoment cs then moment cs else number cs

end LinkTest.Toml
