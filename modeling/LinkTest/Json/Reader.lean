import LinkTest.Datum.Basic
import LinkTest.Text.Digits

/-! # Reading JSON text

`Json.read` turns every text into a document; what is wrong with the text stands in the
document as faults. Each function takes the characters still to be read and gives back those
left over, or nothing once the text has broken off for good. -/

namespace LinkTest.Json

def isBlank (c : Char) : Bool := c == ' ' || c == '\n' || c == '\t' || c == '\r'

def skipBlanks (cs : List Char) : List Char := cs.dropWhile isBlank

/-! ## Texts -/

/-- Four hexadecimal digits. Where fewer than four bytes are left, the text has ended. -/
def hexUnit (cs : List Char) : Except Fault (Nat × List Char) :=
  if ((cs.take 4).map Char.utf8Size).foldr (· + ·) 0 < 4 then .error .endInText
  else
    match cs with
    | a :: b :: c :: d :: r =>
      let ds := [a, b, c, d]
      if ds.all (Text.isDigitIn 16) then .ok (Text.numberIn 16 ds, r) else .error .badEscape
    | _ => .error .badEscape

def isHighHalf (n : Nat) : Bool := 0xd800 ≤ n && n < 0xdc00

def isLowHalf (n : Nat) : Bool := 0xdc00 ≤ n && n < 0xe000

/-- The letter of a two-character escape and what it stands for. -/
def shortEscape? : Char → Option Char
  | '"' => some '"'
  | '\\' => some '\\'
  | '/' => some '/'
  | 'b' => some '\x08'
  | 'f' => some '\x0c'
  | 'n' => some '\n'
  | 'r' => some '\r'
  | 't' => some '\t'
  | _ => none

/-- The second half that must follow a first one. -/
def lowHalf : List Char → Except Fault (Nat × List Char)
  | [] => .error .endInText
  | ['\\'] => .error .endInText
  | '\\' :: 'u' :: r => do
    let (n, r) ← hexUnit r
    if isLowHalf n then .ok (n, r) else .error .surrogateUnpaired
  | _ => .error .surrogateHalf

/-- The character of an escape, from behind its backslash. -/
def escaped : List Char → Except Fault (Char × List Char)
  | [] => .error .endInText
  | c :: r =>
    if c = 'u' then do
      let (n, r) ← hexUnit r
      if isLowHalf n then .error .surrogateUnpaired
      else if isHighHalf n then do
        let (m, r) ← lowHalf r
        .ok (Char.ofNat (0x10000 + (n - 0xd800) * 0x400 + (m - 0xdc00)), r)
      else .ok (Char.ofNat n, r)
    else
      match shortEscape? c with
      | some x => .ok (x, r)
      | none => .error .badEscape

/-- Past an escape, without asking what it stands for. -/
def skipEscaped : List Char → Except Fault (List Char)
  | [] => .error .endInText
  | c :: r =>
    if c = 'u' then (hexUnit r).map (·.2)
    else if (shortEscape? c).isSome then .ok r
    else .error .badEscape

/-- The characters up to the closing quote. -/
def textBody : Nat → List Char → Except Fault (List Char × List Char)
  | 0, _ => .error .endInText
  | _ + 1, [] => .error .endInText
  | fuel + 1, c :: r =>
    if c = '"' then .ok ([], r)
    else if c = '\\' then do
      let (x, r) ← escaped r
      let (xs, r) ← textBody fuel r
      .ok (x :: xs, r)
    else if c.toNat < 0x20 then .error .controlCharacter
    else do
      let (xs, r) ← textBody fuel r
      .ok (c :: xs, r)

/-- Past the closing quote. -/
def skipTextBody : Nat → List Char → Except Fault (List Char)
  | 0, _ => .error .endInText
  | _ + 1, [] => .error .endInText
  | fuel + 1, c :: r =>
    if c = '"' then .ok r
    else if c = '\\' then do
      let r ← skipEscaped r
      skipTextBody fuel r
    else if c.toNat < 0x20 then .error .controlCharacter
    else skipTextBody fuel r

/-- A text read, and what is left for those who read it and for those who pass over it. -/
structure TextToken where
  value : Except Fault String
  after : Except Fault (List Char)

/-- The text whose opening quote has just been taken. -/
def textToken (cs : List Char) : TextToken :=
  ⟨(textBody cs.length cs).map (String.ofList ·.1), skipTextBody cs.length cs⟩

/-! ## Numbers -/

/-- The parts of a number as written. -/
structure Numeral where
  negative : Bool
  whole : List Char
  fraction : Option (List Char)
  /-- Sign and digits of the power of ten. -/
  power : Option (Bool × List Char)
deriving Repr

/-- The faults of a broken number, for readers and for those who pass over it. -/
abbrev NumberFault := Fault × Fault

private def truncated (rest : List Char) : NumberFault :=
  (if rest.isEmpty then .endInWord else .badNumber, .badNumber)

def wholePart : List Char → Except NumberFault (List Char × List Char)
  | '0' :: c :: r => if c.isDigit then .error (.badNumber, .badNumber) else .ok (['0'], c :: r)
  | cs =>
    let ds := cs.takeWhile Char.isDigit
    if ds.isEmpty then .error (truncated cs) else .ok (ds, cs.dropWhile Char.isDigit)

def fractionPart : List Char → Except NumberFault (Option (List Char) × List Char)
  | '.' :: r =>
    let ds := r.takeWhile Char.isDigit
    if ds.isEmpty then .error (truncated r) else .ok (some ds, r.dropWhile Char.isDigit)
  | cs => .ok (none, cs)

def powerSign : List Char → Bool × List Char
  | '+' :: r => (false, r)
  | '-' :: r => (true, r)
  | r => (false, r)

def powerPart : List Char → Except NumberFault (Option (Bool × List Char) × List Char)
  | [] => .ok (none, [])
  | c :: r =>
    if c = 'e' ∨ c = 'E' then
      let (negative, r) := powerSign r
      let ds := r.takeWhile Char.isDigit
      if ds.isEmpty then .error (truncated r)
      else .ok (some (negative, ds), r.dropWhile Char.isDigit)
    else .ok (none, c :: r)

def numeral (cs : List Char) : Except NumberFault (Numeral × List Char) := do
  let (negative, r) := match cs with
    | '-' :: r => (true, r)
    | r => (false, r)
  let (whole, r) ← wholePart r
  let (fraction, r) ← fractionPart r
  let (power, r) ← powerPart r
  .ok (⟨negative, whole, fraction, power⟩, r)

/-- The leading digits that fit into a 64-bit word, and how many of the whole part do not. -/
def significandWhole : Nat → List Char → Nat × Nat
  | n, [] => (n, 0)
  | n, c :: r =>
    if 10 * n + Text.digitValue 10 c < Nat.pow 2 64 then
      significandWhole (10 * n + Text.digitValue 10 c) r
    else (n, r.length + 1)

/-- The word continued by the digits of the fraction while they fit, and how many did. -/
def significandFraction : Nat → List Char → Nat × Nat
  | n, [] => (n, 0)
  | n, c :: r =>
    if 10 * n + Text.digitValue 10 c < Nat.pow 2 64 then
      let (m, k) := significandFraction (10 * n + Text.digitValue 10 c) r
      (m, k + 1)
    else (n, 0)

/-- The greatest power of ten that is a finite number. -/
def greatestPower : Int := 308

def powerOfTen (k : Nat) : Binary64 := Binary64.ofDecimal false 1 k

/-- `f * 10 ^ exponent` by one rounded multiplication or division. Exponents below the table of
powers are met by dividing by its last entry first, which reaches zero in a few rounds. -/
def scaleByPower : Nat → Binary64 → Int → Except Fault Binary64
  | 0, f, _ => .ok f
  | fuel + 1, f, exponent =>
    if exponent.natAbs ≤ greatestPower.natAbs then
      if 0 ≤ exponent then
        let f := f.mul (powerOfTen exponent.toNat)
        if f.isInfinite then .error .numberTooLarge else .ok f
      else .ok (f.div (powerOfTen exponent.natAbs))
    else if f.isZero then .ok f
    else if 0 ≤ exponent then .error .numberTooLarge
    else scaleByPower fuel (f.div (powerOfTen greatestPower.toNat)) (exponent + greatestPower)

private def signed (negative : Bool) (x : Binary64) : Binary64 := if negative then x.neg else x

/-- The greatest power that may be written out. -/
def powerLimit : Nat := Nat.pow 2 31

/-- What a number stands for: a whole number where it is written as one and fits into 64 bits,
otherwise a real one. A minus before zero makes it real. -/
def Numeral.datum (n : Numeral) : Except Fault Datum := do
  let (w, dropped) := significandWhole 0 n.whole
  if n.fraction.isNone ∧ n.power.isNone ∧ dropped = 0 then
    if !n.negative then .ok (.whole w)
    else if w = 0 ∨ Nat.pow 2 63 < w then .ok (.real (Binary64.ofNat w).neg)
    else .ok (.whole (-(w : Int)))
  else
    let (m, kept) := significandFraction w (n.fraction.getD [])
    let start : Int := (dropped : Int) - (kept : Int)
    let exponent ← match n.power with
      | none => .ok (some start)
      | some (negative, ds) =>
        let p := Text.numberIn 10 ds
        if powerLimit ≤ p then
          if m ≠ 0 ∧ !negative then .error Fault.numberTooLarge else .ok none
        else .ok (some (if negative then start - p else start + p))
    match exponent with
    | none => .ok (.real (Binary64.zero n.negative))
    | some e => do
      let x ← scaleByPower 4 (Binary64.ofNat m) e
      .ok (.real (signed n.negative x))

/-! ## Values -/

/-- What is left after a value, unless the text has broken off. -/
abbrev Rest := Option (List Char)

/-- The rest of a word whose first letter has been taken. -/
def word (d : Datum) : List Char → List Char → Datum × Rest
  | [], r => (d, some r)
  | _ :: _, [] => (.damaged .endInWord (some .endInWord), none)
  | e :: es, c :: r =>
    if c = e then word d es r else (.damaged .badWord (some .badWord), none)

def number (cs : List Char) : Datum × Rest :=
  match numeral cs with
  | .error (f, g) => (.damaged f (some g), none)
  | .ok (n, r) =>
    match n.datum with
    | .ok d => (d, some r)
    | .error f => (.damaged f none, some r)

def text (cs : List Char) : Datum × Rest :=
  let t := textToken cs
  match t.value, t.after with
  | .ok s, .ok r => (.text s, some r)
  | .error f, .ok r => (.damaged f none, some r)
  | .ok _, .error g => (.damaged g (some g), none)
  | .error f, .error g => (.damaged f (some g), none)

mutual

def value : Nat → List Char → Datum × Rest
  | 0, _ => (.damaged .endBeforeValue (some .endBeforeValue), none)
  | fuel + 1, cs =>
    match skipBlanks cs with
    | [] => (.damaged .endBeforeValue (some .endBeforeValue), none)
    | c :: r =>
      if c = '[' then
        let (items, e, r) := items fuel true r
        (.list items e, r)
      else if c = '{' then
        let (members, e, r) := members fuel true r
        (.dict members e, r)
      else if c = '"' then text r
      else if c = '-' ∨ c.isDigit then number (c :: r)
      else if c = 'n' then word .null "ull".toList r
      else if c = 't' then word (.boolean true) "rue".toList r
      else if c = 'f' then word (.boolean false) "alse".toList r
      else (.damaged .noValue (some .noValue), none)

/-- The items up to the closing bracket; `first` before any item has been read. -/
def items : Nat → Bool → List Char → List Datum × Ending × Rest
  | 0, _, _ => ([], .broken .endInList (some .endInList), none)
  | fuel + 1, first, cs =>
    match skipBlanks cs with
    | [] => ([], .broken .endInList (some .endInList), none)
    | c :: r =>
      if c = ']' then ([], .strict, some r)
      else if first then itemThen fuel (c :: r)
      else if c = ',' then
        match skipBlanks r with
        | [] => ([], .broken .endBeforeValue (some .endBeforeValue), none)
        | d :: r =>
          if d = ']' then ([], .broken .commaBeforeEnd (some .noValue), none)
          else itemThen fuel (d :: r)
      else ([], .broken .noListSeparator (some .noListSeparator), none)

def itemThen : Nat → List Char → List Datum × Ending × Rest
  | 0, _ => ([], .broken .endInList (some .endInList), none)
  | fuel + 1, cs =>
    let (d, r) := value fuel cs
    match r with
    | none => ([d], .strict, none)
    | some r =>
      let (ds, e, r) := items fuel false r
      (d :: ds, e, r)

/-- The members up to the closing brace; `first` before any member has been read. -/
def members : Nat → Bool → List Char → List (String × Datum) × Ending × Rest
  | 0, _, _ => ([], .broken .endInDict (some .endInDict), none)
  | fuel + 1, first, cs =>
    match skipBlanks cs with
    | [] => ([], .broken .endInDict (some .endInDict), none)
    | c :: r =>
      if c = '}' then ([], .strict, some r)
      else if first then
        if c = '"' then memberThen fuel r
        else
          let instead := ((value fuel (c :: r)).1.found).toOption
          ([], .broken (.keyNotText instead) (some (.keyNotText none)), none)
      else if c = ',' then
        match skipBlanks r with
        | [] => ([], .broken .endBeforeValue (some .endInDict), none)
        | d :: r =>
          if d = '"' then memberThen fuel r
          else if d = '}' then ([], .broken .commaBeforeEnd (some (.keyNotText none)), none)
          else ([], .broken (.keyNotText none) (some (.keyNotText none)), none)
      else ([], .broken .noDictSeparator (some .noDictSeparator), none)

/-- A member from behind the opening quote of its key, and the members after it. A key that
cannot be read ends the dictionary for readers; those who pass over it go on. -/
def memberThen : Nat → List Char → List (String × Datum) × Ending × Rest
  | 0, _ => ([], .broken .endInDict (some .endInDict), none)
  | fuel + 1, cs =>
    let key := textToken cs
    match key.after with
    | .error g =>
      let f := match key.value with
        | .error f => f
        | .ok _ => g
      ([], .broken f (some g), none)
    | .ok r =>
      let (d, r) := match skipBlanks r with
        | [] => (Datum.damaged .endInDict (some .endInDict), none)
        | c :: r =>
          if c = ':' then value fuel r else (Datum.damaged .noColon (some .noColon), none)
      let (ms, e, r) := match r with
        | none => ([], .strict, none)
        | some r => members fuel false r
      match key.value with
      | .ok k => ((k, d) :: ms, e, r)
      | .error f =>
        ([], .broken f ((d.skipFault.or (Datum.skipFaultMembers ms)).or e.skipFault), r)

end

/-- One value, and whether anything but blanks follows it. -/
structure Document where
  root : Datum
  trailing : Bool

def read (s : String) : Document :=
  let cs := s.toList
  let (d, r) := value (4 * cs.length + 4) cs
  ⟨d, match r with
    | none => false
    | some r => !(skipBlanks r).isEmpty⟩

end LinkTest.Json
