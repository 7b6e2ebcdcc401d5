import LinkTest.Datum.Basic

/-! # Typed readers of data

A decoder turns a datum into a value of one type or says, by a `Mismatch`, what came first that
did not fit. Records are read from dictionaries, where members may stand in any order and unknown
ones are passed over, and from lists of their fields in order. -/

namespace LinkTest

/-- Why a datum is not of the wanted type. -/
inductive Mismatch
  | fault (f : Fault)
  | kind (found : Found) (expected : String)
  | value (found : Found) (expected : String)
  | length (n : Nat) (expected : String)
  | missing (field : String)
  | repeated (field : String)
  | variant (name : String) (known : List String)
  | noAlternative (type : String)
  | rejected (reason : String)
deriving DecidableEq, Repr

private def ticked (s : String) : String := "`" ++ s ++ "`"

def Mismatch.message : Mismatch → String
  | fault f => f.message
  | kind found expected => "invalid type: " ++ found.describe ++ ", expected " ++ expected
  | value found expected => "invalid value: " ++ found.describe ++ ", expected " ++ expected
  | length n expected => "invalid length " ++ toString n ++ ", expected " ++ expected
  | missing field => "missing field " ++ ticked field
  | repeated field => "duplicate field " ++ ticked field
  | variant name known =>
    "unknown variant " ++ ticked name ++ ", expected one of " ++
      String.intercalate ", " (known.map ticked)
  | noAlternative type => "data did not match any variant of untagged enum " ++ type
  | rejected reason => reason

abbrev Decoder (α : Type) := Datum → Except Mismatch α

namespace Decoder

/-- The mismatch of a value that is not of the expected kind: its own fault if it is damaged. -/
def unfit (d : Datum) (expected : String) : Mismatch :=
  match d.found with
  | .ok found => .kind found expected
  | .error f => .fault f

def text : Decoder String
  | .text s => .ok s
  | d => .error (unfit d "a string")

def boolean : Decoder Bool
  | .boolean b => .ok b
  | d => .error (unfit d "a boolean")

/-- A whole number from `low` to `high`; `type` names the range. -/
def wholeIn (type : String) (low high : Int) : Decoder Int
  | .whole n => if low ≤ n ∧ n ≤ high then .ok n else .error (.value (.whole n) type)
  | d => .error (unfit d type)

def signed64 : Decoder Int := wholeIn "i64" (-(Nat.pow 2 63)) (Nat.pow 2 63 - 1)

def unsigned64 : Decoder Nat := fun d => (wholeIn "u64" 0 (Nat.pow 2 64 - 1) d).map Int.toNat

def unsigned32 : Decoder Nat := fun d => (wholeIn "u32" 0 (Nat.pow 2 32 - 1) d).map Int.toNat

def unsigned16 : Decoder Nat := fun d => (wholeIn "u16" 0 (Nat.pow 2 16 - 1) d).map Int.toNat

/-- A value or `null`. -/
def optional {α : Type} (decoder : Decoder α) : Decoder (Option α)
  | .null => .ok none
  | d => (decoder d).map some

/-- What a reader makes of the end of a list or dictionary. -/
def closing (e : Ending) : Except Mismatch Unit :=
  match e.readFault with
  | some f => .error (.fault f)
  | none => .ok ()

def listOf {α : Type} (decoder : Decoder α) : Decoder (List α)
  | .list items e => do
    let xs ← items.mapM decoder
    closing e
    .ok xs
  | d => .error (unfit d "a sequence")

/-- The members of a dictionary in order, repeated keys and all. -/
def dictOf {α : Type} (decoder : Decoder α) : Decoder (List (String × α))
  | .dict members e => do
    let xs ← members.mapM fun (k, d) => do
      let x ← decoder d
      .ok (k, x)
    closing e
    .ok xs
  | d => .error (unfit d "a map")

/-- The end of a dictionary that holds a variant's name and nothing else. -/
private def variantClosing (more : List (String × Datum)) : Ending → Except Mismatch Unit
  | .broken .endInDict _ => .error (.fault (if more.isEmpty then .endInDict else .noValue))
  | .broken _ _ => .error (.fault .noValue)
  | _ => if more.isEmpty then .ok () else .error (.fault .noValue)

/-- The fault of a value where a variant is due: only texts and dictionaries are looked into. -/
private def variantFault : Fault → Fault
  | .endBeforeValue => .endBeforeValue
  | .endInText => .endInText
  | .badEscape => .badEscape
  | .controlCharacter => .controlCharacter
  | .surrogateHalf => .surrogateHalf
  | .surrogateUnpaired => .surrogateUnpaired
  | _ => .noValue

/-- One of a set of names, alone or as the key of a dictionary whose only member is `null`. -/
def variant {α : Type} (known : List (String × α)) : Decoder α :=
  let pick (name : String) : Except Mismatch α :=
    match known.lookup name with
    | some x => .ok x
    | none => .error (.variant name (known.map (·.1)))
  fun
    | .text s => pick s
    | .dict [] (.broken (.keyNotText (some found)) _) =>
      .error (.kind found "variant identifier")
    | .dict [] (.broken (.keyNotText none) _) => .error (.fault .noValue)
    | .dict [] (.broken .endInDict _) => .error (.fault .endBeforeValue)
    | .dict [] (.broken f _) => .error (.fault f)
    | .dict [] _ => .error (.fault .noValue)
    | .dict ((k, d) :: more) e => do
      let x ← pick k
      match d with
      | .null => do
        variantClosing more e
        .ok x
      | d => .error (unfit d "unit")
    | .damaged f _ => .error (.fault (variantFault f))
    | _ => .error (.fault .noValue)

/-! ## Records -/

/-- What a field is taken for when it does not occur. -/
inductive Absence
  /-- It must occur. -/
  | refused
  /-- It may lack in a dictionary but has its place in a list. -/
  | emptyInDict
  /-- It has a default. -/
  | filled
deriving DecidableEq, Repr

structure Field where
  name : String
  check : Datum → Except Mismatch Unit
  absence : Absence

def Field.of {α : Type} (name : String) (decoder : Decoder α) (absence : Absence) : Field :=
  ⟨name, fun d => (decoder d).map fun _ => (), absence⟩

/-- A record's fields as found, by name. -/
abbrev Found := String → Option Datum

/-- Every member in order: known ones must be new and fit, unknown ones must be passable. -/
def checkMembers (fields : List Field) :
    List String → List (String × Datum) → Except Mismatch Unit
  | _, [] => .ok ()
  | seen, (k, d) :: r =>
    match fields.find? (·.name == k) with
    | none =>
      match d.skipFault with
      | some f => .error (.fault f)
      | none => checkMembers fields seen r
    | some field =>
      if k ∈ seen then .error (.repeated k)
      else do
        field.check d
        checkMembers fields (k :: seen) r

/-- The first field that must occur in a dictionary and does not. -/
def firstMissing (fields : List Field) (found : Found) : Option String :=
  (fields.find? fun f => f.absence == .refused && (found f.name).isNone).map (·.name)

private def elementCount (type : String) (fields : List Field) : String :=
  "struct " ++ type ++ " with " ++ toString fields.length ++ " elements"

/-- The items in order, each against the field of its place. -/
def checkItems (whole : String) (e : Ending) :
    Nat → List Field → List Datum → Except Mismatch (List (String × Datum) × List Datum)
  | _, [], rest => .ok ([], rest)
  | place, field :: fields, d :: r => do
    field.check d
    let (found, rest) ← checkItems whole e (place + 1) fields r
    .ok ((field.name, d) :: found, rest)
  | place, field :: fields, [] => do
    closing e
    if field.absence = .filled then checkItems whole e (place + 1) fields []
    else .error (.length place whole)

/-- The end of a list after the last field's item. -/
private def recordClosing (rest : List Datum) : Ending → Except Mismatch Unit
  | .lenient => .ok ()
  | .strict => if rest.isEmpty then .ok () else .error (.fault .charactersAfterEnd)
  | .broken f _ =>
    if rest.isEmpty ∧ (f = .commaBeforeEnd ∨ f = .endInList) then .error (.fault f)
    else .error (.fault .charactersAfterEnd)

/-- The fields of the record `type`, all of them checked. -/
def fields (type : String) (fields : List Field) : Decoder Found
  | .dict members e => do
    checkMembers fields [] members
    closing e
    let found : Found := fun name => members.lookup name
    match firstMissing fields found with
    | some name => .error (.missing name)
    | none => .ok found
  | .list items e => do
    let (found, rest) ← checkItems (elementCount type fields) e 0 fields items
    recordClosing rest e
    .ok fun name => found.lookup name
  | d => .error (unfit d ("struct " ++ type))

/-- A field that must occur. -/
def Found.get {α : Type} (found : Found) (name : String) (decoder : Decoder α) :
    Except Mismatch α :=
  match found name with
  | some d => decoder d
  | none => .error (.missing name)

/-- A field with a default. -/
def Found.getD {α : Type} (found : Found) (name : String) (decoder : Decoder α) (default : α) :
    Except Mismatch α :=
  match found name with
  | some d => decoder d
  | none => .ok default

end Decoder
end LinkTest
