/-!
# Bytes that are no text

Where a row of bytes stops being the UTF-8 form of a text: the index of the first byte that does
not belong to a whole character, and how many bytes there can be no beginning of one.
-/

namespace LinkTest.Text

/-- A first byte, and which second bytes may follow it, for characters of two bytes and more. -/
structure LeadByte where
  /-- How many bytes the character has. -/
  width : Nat
  low : UInt8
  high : UInt8

def leadByte? (b : UInt8) : Option LeadByte :=
  if 0xc2 ≤ b ∧ b ≤ 0xdf then some ⟨2, 0x80, 0xbf⟩
  else if b = 0xe0 then some ⟨3, 0xa0, 0xbf⟩
  else if b = 0xed then some ⟨3, 0x80, 0x9f⟩
  else if 0xe1 ≤ b ∧ b ≤ 0xef then some ⟨3, 0x80, 0xbf⟩
  else if b = 0xf0 then some ⟨4, 0x90, 0xbf⟩
  else if 0xf1 ≤ b ∧ b ≤ 0xf3 then some ⟨4, 0x80, 0xbf⟩
  else if b = 0xf4 then some ⟨4, 0x80, 0x8f⟩
  else none

def isContinuation (b : UInt8) : Bool := 0x80 ≤ b && b ≤ 0xbf

/-- A break in a row of bytes: `length` bytes that begin no character, or an end in the middle of
one. -/
structure Utf8Flaw where
  start : Nat
  length : Option Nat
deriving DecidableEq, Repr

def Utf8Flaw.message (f : Utf8Flaw) : String :=
  match f.length with
  | some n => "invalid utf-8 sequence of " ++ toString n ++ " bytes from index " ++ toString f.start
  | none => "incomplete utf-8 byte sequence from index " ++ toString f.start

/-- What is wrong in the rest of a character of which `done` bytes are there and `left` lacking:
nothing, or the length of the break. -/
def restFlaw? : Nat → Nat → List UInt8 → Option (Option Nat)
  | _, 0, _ => none
  | _, _ + 1, [] => some none
  | done, left + 1, b :: r => if isContinuation b then restFlaw? (done + 1) left r else some (some done)

/-- What is wrong with the character that a byte outside ASCII begins. -/
def characterFlaw? (b : UInt8) (r : List UInt8) : Option (Option Nat) :=
  match leadByte? b, r with
  | none, _ => some (some 1)
  | some _, [] => some none
  | some lead, c :: r =>
    if lead.low ≤ c ∧ c ≤ lead.high then restFlaw? 2 (lead.width - 2) r else some (some 1)

/-- The first break in bytes that begin at an index; `skip` of them belong to the character before
them. -/
def utf8Flaw? : Nat → Nat → List UInt8 → Option Utf8Flaw
  | _, _, [] => none
  | i, skip + 1, _ :: r => utf8Flaw? (i + 1) skip r
  | i, 0, b :: r =>
    if b < 0x80 then utf8Flaw? (i + 1) 0 r
    else
      match characterFlaw? b r with
      | some length => some ⟨i, length⟩
      | none => utf8Flaw? (i + 1) (((leadByte? b).map LeadByte.width).getD 1 - 1) r

/-- The text that bytes stand for, or where they stop being one. -/
def ofUtf8 (bytes : List UInt8) : Except Utf8Flaw String :=
  match String.fromUTF8? ⟨bytes.toArray⟩ with
  | some s => .ok s
  | none => .error ((utf8Flaw? 0 0 bytes).getD ⟨0, none⟩)

end LinkTest.Text
