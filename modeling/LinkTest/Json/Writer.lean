import LinkTest.Datum.Basic

/-! # Writing JSON text

The compact form has no blanks at all; the indented one puts every item and member on a line of
its own, two spaces deeper than what holds it. A real number that is not finite has no form in
JSON and is written `null`. -/

namespace LinkTest.Json

/-- Two hexadecimal digits. -/
def twoHexDigits (n : Nat) : String :=
  String.ofList [Nat.digitChar (n / 16), Nat.digitChar (n % 16)]

/-- How one character stands between the quotes. -/
def escapeChar (c : Char) : String :=
  if c = '"' then "\\\""
  else if c = '\\' then "\\\\"
  else if c = '\x08' then "\\b"
  else if c = '\x0c' then "\\f"
  else if c = '\n' then "\\n"
  else if c = '\r' then "\\r"
  else if c = '\t' then "\\t"
  else if c.toNat < 0x20 then "\\u00" ++ twoHexDigits c.toNat
  else c.toString

def quote (s : String) : String := "\"" ++ String.join (s.toList.map escapeChar) ++ "\""

def real (x : Binary64) : String := if x.isFinite then x.scientific else "null"

private def commaSeparated : List String → String := String.intercalate ","

mutual

/-- The form without blanks. -/
def compact : Datum → String
  | .null => "null"
  | .boolean b => if b then "true" else "false"
  | .whole n => toString n
  | .real x => real x
  | .text s => quote s
  | .list items _ => "[" ++ commaSeparated (compactItems items) ++ "]"
  | .dict members _ => "\x7b" ++ commaSeparated (compactMembers members) ++ "\x7d"
  | .damaged _ _ => "null"

def compactItems : List Datum → List String
  | [] => []
  | d :: r => compact d :: compactItems r

def compactMembers : List (String × Datum) → List String
  | [] => []
  | (k, d) :: r => (quote k ++ ":" ++ compact d) :: compactMembers r

end

private def block (opening closing : String) (depth : Nat) (parts : List String) : String :=
  if parts.isEmpty then opening ++ closing
  else
    let inner := "\n" ++ String.ofList (List.replicate (2 * depth + 2) ' ')
    let outer := "\n" ++ String.ofList (List.replicate (2 * depth) ' ')
    opening ++ inner ++ String.intercalate ("," ++ inner) parts ++ outer ++ closing

mutual

/-- The indented form of a value that stands `depth` levels deep. -/
def indented : Nat → Datum → String
  | depth, .list items _ => block "[" "]" depth (indentedItems (depth + 1) items)
  | depth, .dict members _ => block "\x7b" "\x7d" depth (indentedMembers (depth + 1) members)
  | _, d => compact d

def indentedItems : Nat → List Datum → List String
  | _, [] => []
  | depth, d :: r => indented depth d :: indentedItems depth r

def indentedMembers : Nat → List (String × Datum) → List String
  | _, [] => []
  | depth, (k, d) :: r => (quote k ++ ": " ++ indented depth d) :: indentedMembers depth r

end

def pretty (d : Datum) : String := indented 0 d

end LinkTest.Json
