import LinkTest.Toml.Text

/-!
# Writing TOML

Of the forms of a text the plainest is taken that can hold it: double quotes and single quotes
without an escape on one line, then on many lines, and double quotes with escapes last.
-/

namespace LinkTest.Toml

/-- The characters that no text holds as they are. -/
def isControl (c : Char) : Bool := (c.toNat < 0x20 && c ≠ '\t' && c ≠ '\n') || c = '\x7f'

/-- The longest row of one character. -/
def longestRun (q : Char) : Nat → List Char → Nat
  | n, [] => n
  | n, c :: r => if c = q then longestRun q (n + 1) r else max n (longestRun q 0 r)

inductive Form
  | basic
  | literal
  | longBasic
  | longLiteral
deriving DecidableEq, Repr

/-- The form that a text is written in. -/
def formOf (cs : List Char) : Form :=
  let control := cs.any isControl
  let backslash := cs.contains '\\'
  let newline := cs.contains '\n'
  let double := longestRun '"' 0 cs
  let single := longestRun '\'' 0 cs
  if !control ∧ !backslash ∧ double = 0 ∧ !newline then .basic
  else if !control ∧ single = 0 ∧ !newline then .literal
  else if !control ∧ !backslash ∧ double ≤ 2 then .longBasic
  else if !control ∧ single ≤ 2 then .longLiteral
  else if newline then .longBasic
  else .basic

def hexDigit (n : Nat) : Char := (Nat.digitChar n).toUpper

/-- How one character stands between double quotes, quotes apart. -/
def escape (long : Bool) (c : Char) : List Char :=
  if c = '\x08' then ['\\', 'b']
  else if c = '\t' then ['\\', 't']
  else if c = '\n' then if long then ['\n'] else ['\\', 'n']
  else if c = '\x0c' then ['\\', 'f']
  else if c = '\r' then ['\\', 'r']
  else if c = '\\' then ['\\', '\\']
  else if c.toNat < 0x20 ∨ c = '\x7f' then
    ['\\', 'u', '0', '0', hexDigit (c.toNat / 16), hexDigit (c.toNat % 16)]
  else [c]

/-- Between double quotes: a quote is escaped once `allowed` of them stand in a row. -/
def escapeAll (long : Bool) (allowed : Nat) : Nat → List Char → List Char
  | _, [] => []
  | run, c :: r =>
    if c = '"' then
      if run < allowed then '"' :: escapeAll long allowed (run + 1) r
      else '\\' :: '"' :: escapeAll long allowed 0 r
    else escape long c ++ escapeAll long allowed 0 r

/-- Many lines begin on a line of their own. -/
def firstNewline (cs : List Char) : List Char := if cs.contains '\n' then ['\n'] else []

def quoteChars (cs : List Char) : List Char :=
  match formOf cs with
  | .basic => ['"'] ++ escapeAll false 0 0 cs ++ ['"']
  | .literal => ['\''] ++ cs ++ ['\'']
  | .longBasic =>
    List.replicate 3 '"' ++ firstNewline cs ++ escapeAll true 2 0 cs ++ List.replicate 3 '"'
  | .longLiteral =>
    List.replicate 3 '\'' ++ firstNewline cs ++ cs ++ List.replicate 3 '\''

/-- A text in the form that suits it best. -/
def quote (s : String) : String := String.ofList (quoteChars s.toList)

/-- The numbers that the notation has room for. -/
def Fits (n : Nat) : Prop := n < Nat.pow 2 63

instance (n : Nat) : Decidable (Fits n) := inferInstanceAs (Decidable (_ < _))

/-- One value under a bare key, on a line of its own. -/
def line (key value : String) : String := key ++ " = " ++ value ++ "\n"

/-- The header of a dictionary, behind an empty line. -/
def header (name : String) : String := "\n[" ++ name ++ "]\n"

end LinkTest.Toml
