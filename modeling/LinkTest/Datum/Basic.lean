import LinkTest.Binary64.Decimal
import LinkTest.Text.Quoted

/-! # Self-describing data

A `Datum` is what a text in one of the two notations holds before anybody asks for a type. A
text may break off in the middle. The datum then holds everything before the break and, at the
break itself, the fault. So a typed reader that walks the datum from left to right reports the
first thing that is wrong, be it a fault of the text or a value of the wrong type, and a value
that is merely passed over is held to fewer rules than one that is read. -/

namespace LinkTest

/-- A value in the words of messages. -/
inductive Found
  | null
  | boolean (b : Bool)
  | whole (n : Int)
  | real (x : Binary64)
  | text (s : String)
  | list
  | dict
deriving DecidableEq, Repr

def Found.describe : Found → String
  | null => "null"
  | boolean b => "boolean `" ++ (if b then "true" else "false") ++ "`"
  | whole n => "integer `" ++ toString n ++ "`"
  | real x => "floating point `" ++ x.scientific ++ "`"
  | text s => "string " ++ Text.quoted s
  | list => "sequence"
  | dict => "map"

/-- What is wrong with a text at the place where it breaks off. -/
inductive Fault
  | endBeforeValue
  | endInWord
  | endInText
  | endInList
  | endInDict
  | noValue
  | badWord
  | noColon
  | noListSeparator
  | noDictSeparator
  | keyNotText (instead : Option Found)
  | commaBeforeEnd
  | charactersAfterEnd
  | badNumber
  | numberTooLarge
  | badEscape
  | controlCharacter
  | surrogateHalf
  | surrogateUnpaired
  | tooDeep
deriving DecidableEq, Repr

def Fault.message : Fault → String
  | endBeforeValue | endInWord => "EOF while parsing a value"
  | endInText => "EOF while parsing a string"
  | endInList => "EOF while parsing a list"
  | endInDict => "EOF while parsing an object"
  | noValue => "expected value"
  | badWord => "expected ident"
  | noColon => "expected `:`"
  | noListSeparator => "expected `,` or `]`"
  | noDictSeparator => "expected `,` or `\x7d`"
  | keyNotText _ => "key must be a string"
  | commaBeforeEnd => "trailing comma"
  | charactersAfterEnd => "trailing characters"
  | badNumber => "invalid number"
  | numberTooLarge => "number out of range"
  | badEscape => "invalid escape"
  | controlCharacter => "control character (\\u0000-\\u001F) found while parsing a string"
  | surrogateHalf => "unexpected end of hex escape"
  | surrogateUnpaired => "lone leading surrogate in hex escape"
  | tooDeep => "recursion limit exceeded"

/-- How a list or dictionary ends. A strict list holds nothing beyond what its reader expects;
a lenient one may. A broken one has a fault for readers and, unless it can be passed over, one
for those who skip it. -/
inductive Ending
  | strict
  | lenient
  | broken (read : Fault) (skip : Option Fault)
deriving DecidableEq, Repr

def Ending.readFault : Ending → Option Fault
  | broken f _ => some f
  | _ => none

def Ending.skipFault : Ending → Option Fault
  | broken _ f => f
  | _ => none

inductive Datum
  | null
  | boolean (b : Bool)
  | whole (n : Int)
  | real (x : Binary64)
  | text (s : String)
  | list (items : List Datum) (ending : Ending)
  | dict (members : List (String × Datum)) (ending : Ending)
  | damaged (read : Fault) (skip : Option Fault)
deriving Repr, Inhabited

namespace Datum

/-- What a reader finds, unless the value cannot be read at all. -/
def found : Datum → Except Fault Found
  | null => .ok .null
  | boolean b => .ok (.boolean b)
  | whole n => .ok (.whole n)
  | real x => .ok (.real x)
  | text s => .ok (.text s)
  | list _ _ => .ok .list
  | dict _ _ => .ok .dict
  | damaged f _ => .error f

mutual

/-- The first fault met when the value is passed over. -/
def skipFault : Datum → Option Fault
  | list items e => (skipFaultItems items).or e.skipFault
  | dict members e => (skipFaultMembers members).or e.skipFault
  | damaged _ f => f
  | _ => none

def skipFaultItems : List Datum → Option Fault
  | [] => none
  | d :: r => d.skipFault.or (skipFaultItems r)

def skipFaultMembers : List (String × Datum) → Option Fault
  | [] => none
  | (_, d) :: r => d.skipFault.or (skipFaultMembers r)

end

mutual

/-- The first fault met when the value is read whatever its type, with room for `depth` nested
lists and dictionaries. -/
def readFault : Nat → Datum → Option Fault
  | 0, list _ _ => some .tooDeep
  | 0, dict _ _ => some .tooDeep
  | depth + 1, list items e => (readFaultItems depth items).or e.readFault
  | depth + 1, dict members e => (readFaultMembers depth members).or e.readFault
  | _, damaged f _ => some f
  | _, _ => none

def readFaultItems : Nat → List Datum → Option Fault
  | _, [] => none
  | depth, d :: r => (readFault depth d).or (readFaultItems depth r)

def readFaultMembers : Nat → List (String × Datum) → Option Fault
  | _, [] => none
  | depth, (_, d) :: r => (readFault depth d).or (readFaultMembers depth r)

end

end Datum
end LinkTest
