import LinkTest.Failure
import LinkTest.Text.Digits

/-!
# Texts and keys in TOML

A text stands between quotes on one line or between triple quotes on any number of lines, with
escapes between double quotes only. A key is one text or one bare word, or several of them joined
by points. Each reader takes the characters still to be read and gives back what it has found with
those left over.
-/

namespace LinkTest.Toml

abbrev Reader (α : Type) := List Char → Option (α × List Char)

def isBlank (c : Char) : Bool := c = ' ' || c = '\t'

/-- The characters that may stand in comments and texts as they are. -/
def isShown (c : Char) : Bool :=
  c = '\t' || (0x20 ≤ c.toNat && c.toNat ≤ 0x7e) || 0x80 ≤ c.toNat

def skipBlanks (cs : List Char) : List Char := cs.dropWhile isBlank

/-- Past one end of a line. -/
def newline? : List Char → Option (List Char)
  | '\n' :: r => some r
  | '\r' :: '\n' :: r => some r
  | _ => none

/-- Past a comment, if there is one. -/
def skipComment : List Char → List Char
  | '#' :: r => r.dropWhile isShown
  | cs => cs

/-- Past blanks and a comment to the end of the line or of all. -/
def lineEnd (cs : List Char) : Option (List Char) :=
  match skipComment (skipBlanks cs) with
  | [] => some []
  | cs => newline? cs

/-- Past blanks and ends of lines. -/
def skipBlankLines : List Char → List Char
  | '\r' :: '\n' :: r => skipBlankLines r
  | c :: r => if isBlank c || c = '\n' then skipBlankLines r else c :: r
  | [] => []

/-! ## Escapes -/

/-- A number of exactly so many hexadecimal digits. -/
def hexNumber (count : Nat) : Reader Nat := fun cs =>
  let ds := cs.take count
  if ds.length = count ∧ ds.all (Text.isDigitIn 16) then some (Text.numberIn 16 ds, cs.drop count)
  else none

/-- The character with a code point, of which surrogates are none. -/
def charOf? (n : Nat) : Option Char := if n.isValidChar then some (Char.ofNat n) else none

def codePoint (digits : Nat) (cs : List Char) : Option (Char × List Char) := do
  let (n, r) ← hexNumber digits cs
  let c ← charOf? n
  some (c, r)

/-- The letter of a two-character escape and what it stands for. -/
def shortEscape? : Char → Option Char
  | 'b' => some '\x08'
  | 't' => some '\t'
  | 'n' => some '\n'
  | 'f' => some '\x0c'
  | 'r' => some '\r'
  | '"' => some '"'
  | '\\' => some '\\'
  | _ => none

/-- The character of an escape, from behind its backslash. -/
def escaped : Reader Char
  | [] => none
  | c :: r =>
    if c = 'u' then codePoint 4 r
    else if c = 'U' then codePoint 8 r
    else (shortEscape? c).map (·, r)

/-! ## Texts

Each function starts behind the opening quotes and needs no more fuel than there are characters. -/

/-- Up to the closing double quote on the same line. -/
def basicBody : Nat → Reader (List Char)
  | 0, _ => none
  | _ + 1, [] => none
  | fuel + 1, c :: r =>
    if c = '"' then some ([], r)
    else if c = '\\' then do
      let (x, r) ← escaped r
      let (xs, r) ← basicBody fuel r
      some (x :: xs, r)
    else if isShown c then do
      let (xs, r) ← basicBody fuel r
      some (c :: xs, r)
    else none

/-- Up to the closing single quote on the same line. -/
def literalBody : Reader (List Char)
  | [] => none
  | c :: r =>
    if c = '\'' then some ([], r)
    else if isShown c then (literalBody r).map fun (xs, r) => (c :: xs, r)
    else none

/-- Three closing quotes. Up to two more before them belong to the text. -/
def closing? (q : Char) : Reader (List Char)
  | a :: b :: c :: r =>
    if a = q ∧ b = q ∧ c = q then
      let extra := min 2 (r.takeWhile (· = q)).length
      some (List.replicate extra q, r.drop extra)
    else none
  | _ => none

/-- From behind a backslash at the end of a line to the next character that is not blank. -/
def continued? (cs : List Char) : Option (List Char) :=
  (newline? (skipBlanks cs)).map skipBlankLines

/-- Up to three closing double quotes. -/
def longBasicBody : Nat → Reader (List Char)
  | 0, _ => none
  | _ + 1, [] => none
  | fuel + 1, c :: r =>
    match closing? '"' (c :: r) with
    | some found => some found
    | none =>
      if c = '\\' then
        match continued? r with
        | some r => longBasicBody fuel r
        | none => do
          let (x, r) ← escaped r
          let (xs, r) ← longBasicBody fuel r
          some (x :: xs, r)
      else
        match newline? (c :: r) with
        | some r => (longBasicBody fuel r).map fun (xs, r) => ('\n' :: xs, r)
        | none =>
          if isShown c then (longBasicBody fuel r).map fun (xs, r) => (c :: xs, r) else none

/-- Up to three closing single quotes. -/
def longLiteralBody : Nat → Reader (List Char)
  | 0, _ => none
  | _ + 1, [] => none
  | fuel + 1, c :: r =>
    match closing? '\'' (c :: r) with
    | some found => some found
    | none =>
      match newline? (c :: r) with
      | some r => (longLiteralBody fuel r).map fun (xs, r) => ('\n' :: xs, r)
      | none =>
        if isShown c then (longLiteralBody fuel r).map fun (xs, r) => (c :: xs, r) else none

/-- The end of a line right behind the opening quotes is no part of the text. -/
def skipFirstNewline (cs : List Char) : List Char := (newline? cs).getD cs

/-- A text in any of the four forms. -/
def text : Reader String
  | '"' :: '"' :: '"' :: r =>
    (longBasicBody (r.length + 1) (skipFirstNewline r)).map fun (xs, r) => (String.ofList xs, r)
  | '\'' :: '\'' :: '\'' :: r =>
    (longLiteralBody (r.length + 1) (skipFirstNewline r)).map fun (xs, r) => (String.ofList xs, r)
  | '"' :: r => (basicBody (r.length + 1) r).map fun (xs, r) => (String.ofList xs, r)
  | '\'' :: r => (literalBody r).map fun (xs, r) => (String.ofList xs, r)
  | _ => none

/-! ## Keys -/

def isBare (c : Char) : Bool := c.isAlphanum || c = '_' || c = '-'

/-- One part of a key. -/
def simpleKey : Reader String
  | [] => none
  | c :: r =>
    if c = '"' then (basicBody (r.length + 1) r).map fun (xs, r) => (String.ofList xs, r)
    else if c = '\'' then (literalBody r).map fun (xs, r) => (String.ofList xs, r)
    else if isBare c then
      some (String.ofList (c :: r.takeWhile isBare), r.dropWhile isBare)
    else none

/-- The parts of a key, with blanks around each. -/
def keyParts : Nat → Reader (List String)
  | 0, _ => none
  | fuel + 1, cs => do
    let (k, r) ← simpleKey (skipBlanks cs)
    match skipBlanks r with
    | '.' :: r =>
      let (ks, r) ← keyParts fuel r
      some (k :: ks, r)
    | r => some ([k], r)

/-- How deep lists and dictionaries may not nest, and how many parts a key may not have. -/
def nestingLimit : Nat := 80

/-- A name, and the names of the dictionaries that lead to it. -/
structure Key where
  path : List String
  name : String
deriving DecidableEq, Repr

def Key.parts (k : Key) : List String := k.path ++ [k.name]

def key : Reader Key := fun cs => do
  let (parts, r) ← keyParts nestingLimit cs
  let name ← parts.getLast?
  if parts.length < nestingLimit then some (⟨parts.dropLast, name⟩, r) else none

end LinkTest.Toml
