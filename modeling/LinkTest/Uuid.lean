import LinkTest.Datum.Decoder
import LinkTest.Text.Digits
import LinkTest.Text.Split

/-! # Universally unique identifiers

An identifier is a word of 128 bits. It is written as five groups of hexadecimal digits divided
by hyphens; it is read from that form, bare or wrapped, and from its 32 digits alone. -/

namespace LinkTest

structure Uuid where
  bits : BitVec 128
deriving DecidableEq, Repr, Inhabited

namespace Uuid

/-- The lengths of the groups. -/
def groupLengths : List Nat := [8, 4, 4, 4, 12]

/-- Sixteen bytes as hexadecimal digits, the highest first. -/
def digits (u : Uuid) : List Char :=
  (List.range 32).map fun i => Nat.digitChar (u.bits.toNat / Nat.pow 16 (31 - i) % 16)

/-- The digits cut into groups of the given lengths. -/
def grouped : List Nat → List Char → List (List Char)
  | [], _ => []
  | n :: ns, cs => cs.take n :: grouped ns (cs.drop n)

def text (u : Uuid) : String :=
  String.intercalate "-" ((grouped groupLengths u.digits).map String.ofList)

/-- The first group, enough to tell identifiers apart at a glance. -/
def short (u : Uuid) : String := String.ofList (u.digits.take 8)

/-- An identifier of the random kind made from any bits: version 4 and the standard variant
overwrite six of them. -/
def random (bits : BitVec 128) : Uuid :=
  let kept : BitVec 128 := bits &&& ~~~(0xf000c000000000000000#128)
  ⟨kept ||| 0x40008000000000000000#128⟩

/-- Why a text is no identifier. -/
inductive Flaw
  | length (found : Nat)
  | character (found : Char) (place : Nat)
  | groupCount (found : Nat)
  | groupLength (group expected found : Nat)
deriving DecidableEq, Repr

def Flaw.message : Flaw → String
  | length n => "UUID parsing failed: invalid length: found " ++ toString n
  | character c i =>
    "UUID parsing failed: invalid character: found `" ++ c.toString ++ "` at " ++ toString i
  | groupCount n => "UUID parsing failed: invalid group count: expected 5, found " ++ toString n
  | groupLength g e n =>
    "UUID parsing failed: invalid group length in group " ++ toString g ++ ": expected " ++
      toString e ++ ", found " ++ toString n

def isHex (c : Char) : Bool := Text.isDigitIn 16 c

def ofDigits (ds : List Char) : Uuid := ⟨BitVec.ofNat 128 (Text.numberIn 16 ds)⟩

/-- The groups between hyphens. -/
def splitGroups (cs : List Char) : List (List Char) := Text.pieces '-' cs

def urnMark : List Char := "urn:uuid:".toList

/-- The text without its braces or its mark, and how many bytes stood in front. -/
def unwrap (cs : List Char) : Option (List Char × Nat) :=
  if cs.head? = some '{' ∧ 2 ≤ cs.length ∧ cs.getLast? = some '}' then
    some ((cs.drop 1).dropLast, 1)
  else if urnMark.isPrefixOf cs then some (cs.drop urnMark.length, urnMark.length)
  else none

/-- The first character that is neither a digit nor a hyphen, with its place in bytes. -/
def strayCharacter : Nat → List Char → Option (Char × Nat)
  | _, [] => none
  | place, c :: r =>
    if isHex c || c == '-' then strayCharacter (place + c.utf8Size) r else some (c, place)

/-- The first of the groups before the last that has a wrong length. -/
def wrongGroup : Nat → List Nat → List (List Char) → Option Flaw
  | i, n :: ns, g :: gs =>
    if gs.isEmpty ∨ g.length = n then wrongGroup (i + 1) ns gs
    else some (.groupLength i n g.length)
  | _, _, _ => none

/-- Where a text that is no identifier goes wrong. -/
def flaw (cs : List Char) : Flaw :=
  let size := (cs.map Char.utf8Size).foldr (· + ·) 0
  if size = 0 ∨ 45 < size then .length size
  else
    let (body, before) := (unwrap cs).getD (cs, 0)
    match strayCharacter before body with
    | some (c, i) => .character c i
    | none =>
      let groups := splitGroups body
      if groups.length = 1 ∧ (unwrap cs).isNone then .length size
      else if groups.length ≠ 5 then .groupCount groups.length
      else (wrongGroup 0 groupLengths groups).getD (.groupLength 4 12 (size - 24))

def isHyphenated (cs : List Char) : Bool :=
  (splitGroups cs).map List.length == groupLengths && cs.all fun c => isHex c || c == '-'

private def hyphenated? (cs : List Char) : Option Uuid :=
  if isHyphenated cs then some (ofDigits (cs.filter (· ≠ '-'))) else none

def ofText (s : String) : Except Flaw Uuid :=
  let cs := s.toList
  if cs.length = 32 ∧ cs.all isHex then .ok (ofDigits cs)
  else
    let marked := (cs.take urnMark.length).map Char.toLower = urnMark
    let body :=
      if marked then cs.drop urnMark.length
      else match unwrap cs with
        | some (body, _) => body
        | none => cs
    match hyphenated? body with
    | some u => .ok u
    | none => .error (flaw cs)

def decoder : Decoder Uuid
  | .text s => (ofText s).mapError fun f => .rejected f.message
  | d => .error (Decoder.unfit d "a formatted UUID string")

end Uuid
end LinkTest
