import LinkTest.Text.Digits

/-!
# Addresses

An address of a machine in one of two families, and the text forms of it: four decimal numbers
with points between them, or eight hexadecimal ones with colons, of which a row of zeros may be
left out once.
-/

namespace LinkTest

inductive Ip
  | v4 (a b c d : Nat)
  | v6 (groups : List Nat)
deriving DecidableEq, Repr

namespace Ip

/-- Whether the address is that of the machine itself. -/
def isLoopback : Ip → Bool
  | v4 a _ _ _ => a = 127
  | v6 groups => groups = [0, 0, 0, 0, 0, 0, 0, 1]

/-- How a number is written: in which base, with how many digits at most, whether it may begin
with zeros, and which number is the greatest. -/
structure NumberForm where
  base : Nat
  digits : Option Nat
  zeros : Bool
  greatest : Nat

def octet : NumberForm := ⟨10, some 3, false, 255⟩

def group : NumberForm := ⟨16, some 4, true, 0xffff⟩

def port : NumberForm := ⟨10, none, true, 0xffff⟩

/-- A number in front of other text. -/
def NumberForm.read (f : NumberForm) (cs : List Char) : Option (Nat × List Char) :=
  let ds := cs.takeWhile (Text.isDigitIn f.base)
  let n := Text.numberIn f.base ds
  if ds.isEmpty ∨ f.digits.any (· < ds.length) ∨ (!f.zeros ∧ ds.head? = some '0' ∧ 1 < ds.length) ∨
      f.greatest < n then none
  else some (n, cs.dropWhile (Text.isDigitIn f.base))

def point? : List Char → Option (List Char)
  | '.' :: r => some r
  | _ => none

def readV4 (cs : List Char) : Option ((Nat × Nat × Nat × Nat) × List Char) := do
  let (a, r) ← octet.read cs
  let r ← point? r
  let (b, r) ← octet.read r
  let r ← point? r
  let (c, r) ← octet.read r
  let r ← point? r
  let (d, r) ← octet.read r
  some ((a, b, c, d), r)

/-- As many groups as there are, up to a number of them, with a colon before each but the first.
The last two may have the form of the other family, and it is said whether they have. -/
def readGroups : Nat → Bool → List Char → List Nat × Bool × List Char
  | 0, _, cs => ([], false, cs)
  | n + 1, first, cs =>
    let start := match first, cs with
      | true, cs => some cs
      | false, ':' :: r => some r
      | false, _ => none
    match start with
    | none => ([], false, cs)
    | some r =>
      match if n = 0 then none else readV4 r with
      | some ((a, b, c, d), r) => ([256 * a + b, 256 * c + d], true, r)
      | none =>
        match group.read r with
        | none => ([], false, cs)
        | some (g, r) =>
          let (gs, four, r) := readGroups n false r
          (g :: gs, four, r)

def readV6 (cs : List Char) : Option (List Nat × List Char) :=
  let (front, four, r) := readGroups 8 true cs
  if front.length = 8 then some (front, r)
  else if four then none
  else
    match r with
    | ':' :: ':' :: r =>
      let (back, _, r) := readGroups (7 - front.length) true r
      some (front ++ List.replicate (8 - front.length - back.length) 0 ++ back, r)
    | _ => none

def ofText? (s : String) : Option Ip :=
  match readV4 s.toList with
  | some ((a, b, c, d), []) => some (v4 a b c d)
  | _ =>
    match readV6 s.toList with
    | some (groups, []) => some (v6 groups)
    | _ => none

end Ip

/-- Where to connect to: an address and a port, or a name that has to be looked up first. -/
inductive Destination
  | known (ip : Ip) (port : Nat)
  | named (host : String) (port : Nat)
deriving DecidableEq, Repr

/-- Why a text names no destination. -/
inductive AddressFlaw
  | noPort
  | badPort
deriving DecidableEq, Repr

def AddressFlaw.message : AddressFlaw → String
  | noPort => "invalid socket address"
  | badPort => "invalid port value"

namespace Destination

def portBehindColon? : List Char → Option Nat
  | ':' :: r =>
    match Ip.port.read r with
    | some (n, []) => some n
    | _ => none
  | _ => none

/-- Past the number of a zone, if there is one. -/
def skipZone? : List Char → Option (List Char)
  | '%' :: r => ((⟨10, none, true, Nat.pow 2 32 - 1⟩ : Ip.NumberForm).read r).map (·.2)
  | cs => some cs

/-- An address with its port, where colons in the address are kept apart by brackets. -/
def literal? (s : String) : Option Destination :=
  match s.toList with
  | '[' :: r => do
    let (groups, r) ← Ip.readV6 r
    match ← skipZone? r with
    | ']' :: r => (portBehindColon? r).map (known (.v6 groups))
    | _ => none
  | cs => do
    let ((a, b, c, d), r) ← Ip.readV4 cs
    (portBehindColon? r).map (known (.v4 a b c d))

/-- A port with or without a plus before it. -/
def loosePort? (cs : List Char) : Option Nat :=
  let digits := match cs with
    | '+' :: r => r
    | cs => cs
  match Ip.port.read digits with
  | some (n, []) => some n
  | _ => none

/-- An address with its port, or else a name and what stands behind the last colon. -/
def ofText (s : String) : Except AddressFlaw Destination :=
  match literal? s with
  | some d => .ok d
  | none =>
    let back := s.toList.reverse
    match back.dropWhile (· ≠ ':') with
    | [] => .error .noPort
    | _ :: host =>
      match loosePort? (back.takeWhile (· ≠ ':')).reverse with
      | none => .error .badPort
      | some port => .ok (named (String.ofList host.reverse) port)

end Destination
end LinkTest
