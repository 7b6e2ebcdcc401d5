import LinkTest.Datum.Decoder
import LinkTest.Toml.Scalar
import LinkTest.Toml.Tree

/-!
# Reading TOML

A text is a row of statements, one on each line that is not empty. They build a tree one after
the other, and the first that does not fit makes the whole text no TOML.
-/

namespace LinkTest.Toml

/-! ## Values -/

/-- Past blanks, ends of lines and comments. -/
def skipSpace : Nat → List Char → List Char
  | 0, cs => cs
  | fuel + 1, cs =>
    match skipBlankLines cs with
    | '#' :: r => skipSpace fuel (r.dropWhile isShown)
    | cs => cs

def skipAllSpace (cs : List Char) : List Char := skipSpace cs.length cs

mutual

/-- A value that stands `depth` levels deep. -/
def value : Nat → Nat → Reader Datum
  | 0, _, _ => none
  | _ + 1, _, [] => none
  | fuel + 1, depth, c :: r =>
    if c = '"' ∨ c = '\'' then (text (c :: r)).map fun (s, r) => (.text s, r)
    else if c = '[' then
      if depth + 1 < nestingLimit then
        (items fuel (depth + 1) (skipAllSpace r)).map fun (ds, r) => (.list ds .lenient, r)
      else none
    else if c = '\x7b' then
      if depth + 1 < nestingLimit then
        match skipBlanks r with
        | '\x7d' :: r => some (Node.root.datum, r)
        | r => (members fuel (depth + 1) .root r).map fun (n, r) => (n.datum, r)
      else none
    else scalar (c :: r)

/-- The items of a list up to its end, each but the last followed by a comma. -/
def items : Nat → Nat → Reader (List Datum)
  | 0, _, _ => none
  | _ + 1, _, ']' :: r => some ([], r)
  | fuel + 1, depth, cs => do
    let (d, r) ← value fuel depth cs
    match skipAllSpace r with
    | ',' :: r =>
      let (ds, r) ← items fuel depth (skipAllSpace r)
      some (d :: ds, r)
    | ']' :: r => some ([d], r)
    | _ => none

/-- The members of a dictionary on one line, of which there is at least one more. -/
def members : Nat → Nat → Node → Reader Node
  | 0, _, _, _ => none
  | fuel + 1, depth, n, cs => do
    let (k, r) ← key cs
    let r ← past? '=' r
    let (d, r) ← value fuel depth (skipBlanks r)
    let n ← n.add k d
    match skipBlanks r with
    | ',' :: r => members fuel depth n r
    | '\x7d' :: r => some (n, r)
    | _ => none

end

/-! ## Statements -/

inductive Statement
  | pair (key : Key) (value : Datum)
  | header (key : Key)
  | repeated (key : Key)

def closed? (brackets : List Char) (cs : List Char) : Option (List Char) :=
  (word? brackets cs).bind lineEnd

/-- A statement up to the end of its line. -/
def statement : Reader Statement
  | '[' :: '[' :: r => do
    let (k, r) ← key r
    let r ← closed? [']', ']'] r
    some (.repeated k, r)
  | '[' :: r => do
    let (k, r) ← key r
    let r ← closed? [']'] r
    some (.header k, r)
  | cs => do
    let (k, r) ← key cs
    let r ← past? '=' r
    let (d, r) ← value (2 * r.length + 2) 0 (skipBlanks r)
    let r ← lineEnd r
    some (.pair k d, r)

/-- All statements of a text. -/
def statements : Nat → List Char → Option (List Statement)
  | 0, _ => none
  | fuel + 1, cs =>
    match skipBlanks cs with
    | [] => some []
    | c :: r =>
      if c = '#' ∨ c = '\n' ∨ c = '\r' then (lineEnd (c :: r)).bind (statements fuel)
      else do
        let (s, r) ← statement (c :: r)
        let ss ← statements fuel r
        some (s :: ss)

/-- A tree in the making, and the path of the header that keys stand under now. -/
structure Draft where
  root : Node
  place : List String

def Draft.empty : Draft := ⟨.root, []⟩

def Draft.extend (t : Draft) : Statement → Option Draft
  | .pair k d => (t.root.alter false (Node.add k d) t.place).map ({ t with root := · })
  | .header k => (t.root.alter false (Node.openDict k.name) k.path).map (⟨·, k.parts⟩)
  | .repeated k => (t.root.alter false (Node.openNext k.name) k.path).map (⟨·, k.parts⟩)

def build? (ss : List Statement) : Option Node := (ss.foldlM Draft.extend .empty).map Draft.root

/-! ## Texts -/

/-- A mark of the byte order in front is no part of the text. -/
def skipMark : List Char → List Char
  | '\ufeff' :: r => r
  | cs => cs

def read? (s : String) : Option Datum :=
  let cs := skipMark s.toList
  ((statements (cs.length + 1) cs).bind build?).map Node.datum

/-- What a text holds, as a value of the type asked for. -/
def decode {α : Type} (decoder : Decoder α) (s : String) : Except TomlFault α :=
  match read? s with
  | none => .error .notToml
  | some d => (decoder d).mapError .shape

end LinkTest.Toml
