import LinkTest.Datum.Decoder
import LinkTest.Text.Blank
import LinkTest.Text.Digits

/-! # Moments in universal time

A moment is a day, counted from the first of March of the year 0, and a second of that day. The
second 60 of a minute is a second 59 with a thousand million nanoseconds or more. Dates follow
the Gregorian rules in both directions of time. -/

namespace LinkTest

structure Timestamp where
  day : Int
  second : Nat
  nano : Nat
deriving DecidableEq, Repr, Inhabited

namespace Timestamp

structure Date where
  year : Int
  month : Nat
  day : Nat
deriving DecidableEq, Repr

/-- The day of a date, counted from the first of March of the year 0. -/
def Date.toDays (d : Date) : Int :=
  let y := if d.month ≤ 2 then d.year - 1 else d.year
  let era := y / 400
  let yearOfEra := y - era * 400
  let monthFromMarch : Nat := (d.month + 9) % 12
  let dayOfYear : Int := (153 * monthFromMarch + 2) / 5 + (d.day - 1)
  era * 146097 + (yearOfEra * 365 + yearOfEra / 4 - yearOfEra / 100 + dayOfYear)

/-- The date of a day counted from the first of March of the year 0. -/
def dateOfDays (days : Int) : Date :=
  let era := days / 146097
  let dayOfEra := days - era * 146097
  let yearOfEra := (dayOfEra - dayOfEra / 1460 + dayOfEra / 36524 - dayOfEra / 146096) / 365
  let dayOfYear := dayOfEra - (365 * yearOfEra + yearOfEra / 4 - yearOfEra / 100)
  let monthFromMarch := (5 * dayOfYear + 2) / 153
  let day := dayOfYear - (153 * monthFromMarch + 2) / 5 + 1
  let month := if monthFromMarch < 10 then monthFromMarch + 3 else monthFromMarch - 9
  let year := yearOfEra + era * 400
  ⟨if month ≤ 2 then year + 1 else year, month.toNat, day.toNat⟩

def isLeapYear (y : Int) : Bool := y % 4 == 0 && (y % 100 != 0 || y % 400 == 0)

def daysInMonth (y : Int) (m : Nat) : Nat :=
  if m = 2 then (if isLeapYear y then 29 else 28)
  else if m = 4 ∨ m = 6 ∨ m = 9 ∨ m = 11 then 30
  else 31

/-- The first and the last day that can be represented. -/
def firstDay : Int := (Date.mk (-262143) 1 1).toDays

def lastDay : Int := (Date.mk 262142 12 31).toDays

/-- So many seconds and nanoseconds after the beginning of the year 1970. -/
def ofUnix (seconds : Int) (nano : Nat) : Timestamp :=
  ⟨(Date.mk 1970 1 1).toDays + seconds / 86400, (seconds % 86400).toNat, nano⟩

/-! ## Writing -/

private def padded (width : Nat) (n : Nat) : String := String.ofList (Text.padded width n)

/-- Four digits, and a sign where the year is not in the range of four digits. -/
def yearText (y : Int) : String :=
  if 0 ≤ y ∧ y ≤ 9999 then padded 4 y.toNat
  else (if y < 0 then "-" else "+") ++ padded 4 y.natAbs

def dateText (t : Timestamp) : String :=
  let d := dateOfDays t.day
  yearText d.year ++ "-" ++ padded 2 d.month ++ "-" ++ padded 2 d.day

/-- Hours, minutes and seconds; a leap second shows as 60. -/
def clockText (t : Timestamp) : String :=
  padded 2 (t.second / 3600) ++ ":" ++ padded 2 (t.second / 60 % 60) ++ ":" ++
    padded 2 (t.second % 60 + t.nano / 1000000000)

/-- The fraction of the second in thousands as far as needed. -/
def fractionText (t : Timestamp) : String :=
  let n := t.nano % 1000000000
  if n = 0 then ""
  else if n % 1000000 = 0 then "." ++ padded 3 (n / 1000000)
  else if n % 1000 = 0 then "." ++ padded 6 (n / 1000)
  else "." ++ padded 9 n

def text (t : Timestamp) : String := t.dateText ++ "T" ++ t.clockText ++ t.fractionText ++ "Z"

/-- The form for tables, to the second. -/
def tableText (t : Timestamp) : String := t.dateText ++ " " ++ t.clockText ++ " UTC"

/-! ## Reading -/

inductive Flaw
  | tooShort
  | invalid
  | outOfRange
  | tooLong
  | impossible
deriving DecidableEq, Repr

def Flaw.message : Flaw → String
  | tooShort => "premature end of input"
  | invalid => "input contains invalid characters"
  | outOfRange => "input is out of range"
  | tooLong => "trailing input"
  | impossible => "no possible date and time matching input"

abbrev Step (α : Type) := List Char → Except Flaw (α × List Char)

/-- Digits, at least one and at most `width` of them. -/
def digitsUpTo (width : Nat) : Step (List Char)
  | [] => .error .tooShort
  | cs =>
    let ds := (cs.take width).takeWhile Char.isDigit
    if ds.isEmpty then .error .invalid else .ok (ds, cs.drop ds.length)

/-- A number in a range, behind any white space. -/
def component (low high : Nat) : Step Nat := fun cs => do
  let (ds, r) ← digitsUpTo 2 (Text.trimStart cs)
  let n := Text.numberIn 10 ds
  if low ≤ n ∧ n ≤ high then .ok (n, r) else .error .outOfRange

/-- All the digits that follow, as a number that fits into 32 bits with the given sign. -/
private def longYear (negative : Bool) (cs : List Char) : Except Flaw (Int × List Char) := do
  let (ds, r) ← digitsUpTo cs.length cs
  let n := Text.numberIn 10 ds
  if negative then (if n ≤ Nat.pow 2 31 then .ok (-(n : Int), r) else .error .outOfRange)
  else if n < Nat.pow 2 31 then .ok (n, r) else .error .outOfRange

/-- Up to four digits, or a sign and any number of them. -/
def year : Step Int := fun cs =>
  match Text.trimStart cs with
  | '-' :: r => longYear true r
  | '+' :: r => longYear false r
  | r => do
    let (ds, r) ← digitsUpTo 4 r
    .ok (Text.numberIn 10 ds, r)

/-- A mark, behind any white space. -/
def mark (c : Char) : Step Unit := fun cs =>
  match Text.trimStart cs with
  | [] => .error .tooShort
  | d :: r => if d = c then .ok ((), r) else .error .invalid

/-- The mark between date and time. -/
def dateEnd : Step Unit
  | [] => .error .tooShort
  | c :: r => if c = 'T' ∨ c = 't' ∨ c = ' ' then .ok ((), r) else .error .invalid

/-- Nanoseconds from the digits behind a point; those beyond the ninth are cut off. -/
def nanoseconds : Step Nat
  | '.' :: r => do
    let (ds, r) ← digitsUpTo 9 r
    .ok (Text.numberIn 10 ds * Nat.pow 10 (9 - ds.length), r.dropWhile Char.isDigit)
  | cs => .ok (0, cs)

/-- Two digits, looked for in the first two bytes. -/
private def twoDigits : Step Nat
  | a :: b :: r => if a.isDigit ∧ b.isDigit then .ok (Text.numberIn 10 [a, b], r) else .error .invalid
  | [a] => .error (if a.utf8Size < 2 then .tooShort else .invalid)
  | [] => .error .tooShort

/-- Hours and minutes behind the sign of an offset, as minutes. -/
private def offsetBody (cs : List Char) : Except Flaw (Nat × List Char) := do
  let (h, r) ← twoDigits cs
  let r := r.dropWhile fun c => c = ':' ∨ Text.isBlank c
  let (m, r) ← twoDigits r
  if m < 60 then .ok (h * 60 + m, r) else .error .outOfRange

/-- The offset from universal time in minutes. -/
def offset : Step Int
  | [] => .error .tooShort
  | c :: r =>
    if ((c :: r).take 3).map Char.toUpper = "UTC".toList then .ok (0, r.drop 2)
    else if c = 'Z' ∨ c = 'z' then .ok (0, r)
    else if c = '+' then do
      let (n, r) ← offsetBody r
      .ok ((n : Int), r)
    else if c = '-' ∨ c = '\u2212' then do
      let (n, r) ← offsetBody r
      .ok (-(n : Int), r)
    else .error .invalid

/-- A date and time with its offset as read. -/
structure Local where
  date : Date
  hour : Nat
  minute : Nat
  second : Nat
  nano : Nat
  offset : Int

def localTime : Step Local := fun cs => do
  let (y, r) ← year cs
  let (_, r) ← mark '-' r
  let (mo, r) ← component 1 12 r
  let (_, r) ← mark '-' r
  let (d, r) ← component 1 31 r
  let (_, r) ← dateEnd r
  let (h, r) ← component 0 23 r
  let (_, r) ← mark ':' r
  let (mi, r) ← component 0 59 r
  let (_, r) ← mark ':' r
  let (s, r) ← component 0 60 r
  let (n, r) ← nanoseconds r
  let (o, r) ← offset (Text.trimStart r)
  .ok (⟨⟨y, mo, d⟩, h, mi, s, n, o⟩, r)

/-- The moment, if the date exists and the offset is below a day. -/
def Local.moment (l : Local) : Except Flaw Timestamp :=
  let days := l.date.toDays
  if daysInMonth l.date.year l.date.month < l.date.day then .error .outOfRange
  else if days < firstDay ∨ lastDay < days then .error .outOfRange
  else if 24 * 60 ≤ l.offset.natAbs then .error .outOfRange
  else
    let leap := l.second = 60
    let second : Int :=
      (l.hour * 3600 + l.minute * 60 + (if leap then 59 else l.second) : Nat) - l.offset * 60
    let day := days + second / 86400
    if day < firstDay ∨ lastDay < day then .error .impossible
    else .ok ⟨day, (second % 86400).toNat, (if leap then 1000000000 else 0) + l.nano⟩

def ofText (s : String) : Except Flaw Timestamp := do
  let (l, r) ← localTime s.toList
  if (Text.trimStart r).isEmpty then l.moment else .error .tooLong

def decoder : Decoder Timestamp
  | .text s => (ofText s).mapError fun f => .rejected f.message
  | d => .error (Decoder.unfit d "an RFC 3339 formatted date and time string")

end Timestamp
end LinkTest
