import LinkTest.Failure
import LinkTest.Text.Split

/-!
# Files and folders

A tree of files is kept flat: each place below the root, named by the parts that lead to it, with
what stands there. Paths are texts. One that does not begin at the root begins at the working
folder, and every part but the last has to lead through a folder.
-/

namespace LinkTest

inductive Entry
  | file (bytes : ByteArray)
  | folder

abbrev Place := List String

structure FileTree where
  entries : List (Place × Entry)
  /-- The working folder. -/
  here : Place

/-! ## Paths -/

namespace PathName

def isAbsolute (path : String) : Bool := path.toList.head? == some '/'

/-- The parts that say something. -/
def parts (path : String) : List String :=
  ((Text.pieces '/' path.toList).filter fun p => p ≠ [] ∧ p ≠ ['.']).map String.ofList

/-- Whether the path can only be that of a folder. -/
def asksFolder (path : String) : Bool :=
  match path.toList.reverse with
  | '/' :: _ => true
  | '.' :: '/' :: _ => true
  | ['.'] => true
  | _ => false

/-- Without slashes and parts that say nothing at the end, last character first. -/
def trimBack : List Char → List Char
  | '/' :: r => trimBack r
  | '.' :: '/' :: r => trimBack r
  | cs => cs

/-- The path of the folder that holds what the path leads to. -/
def parent? (path : String) : Option String :=
  let back := trimBack path.toList.reverse
  if back.isEmpty then none
  else
    let rest := String.ofList (trimBack (back.dropWhile (· ≠ '/'))).reverse
    some (if rest.isEmpty ∧ isAbsolute path then "/" else rest)

/-- The path of something in a folder. -/
def join (folder name : String) : String :=
  match folder.toList.getLast? with
  | none | some '/' => folder ++ name
  | some _ => folder ++ "/" ++ name

end PathName

namespace FileTree

def noSuchEntry : IoFault := .numbered 2

def alreadyThere : IoFault := .numbered 17

def noFolder : IoFault := .numbered 20

def isFolder : IoFault := .numbered 21

def notText : IoFault := .described "stream did not contain valid UTF-8"

def entry? (t : FileTree) (p : Place) : Option Entry :=
  if p.isEmpty then some .folder else t.entries.lookup p

/-- Puts something in a place, instead of what was there. -/
def put (t : FileTree) (p : Place) (e : Entry) : FileTree :=
  { t with entries := (p, e) :: t.entries.filter fun q => q.1 ≠ p }

/-- One part further. -/
def further (p : Place) (part : String) : Place := if part = ".." then p.dropLast else p ++ [part]

/-- Where the parts lead from a place. -/
def follow (t : FileTree) : Place → List String → Except IoFault Place
  | p, [] => .ok p
  | p, part :: rest =>
    match t.entry? p with
    | some .folder => follow t (further p part) rest
    | some (.file _) => .error noFolder
    | none => .error noSuchEntry

def origin (t : FileTree) (path : String) : Place := if PathName.isAbsolute path then [] else t.here

def locate (t : FileTree) (path : String) : Except IoFault Place :=
  if path.isEmpty then .error noSuchEntry else t.follow (t.origin path) (PathName.parts path)

/-- What a path leads to, if there is anything. -/
def find? (t : FileTree) (path : String) : Except IoFault (Option Entry) := do
  let p ← t.locate path
  match t.entry? p with
  | some (.file bytes) =>
    if PathName.asksFolder path then .error noFolder else .ok (some (.file bytes))
  | found => .ok found

def exists? (t : FileTree) (path : String) : Bool :=
  match t.find? path with
  | .ok (some _) => true
  | _ => false

def readText (t : FileTree) (path : String) : Except IoFault String := do
  match ← t.find? path with
  | none => .error noSuchEntry
  | some .folder => .error isFolder
  | some (.file bytes) =>
    match String.fromUTF8? bytes with
    | some s => .ok s
    | none => .error notText

/-- Writes a whole file. -/
def writeBytes (t : FileTree) (path : String) (bytes : ByteArray) : Except IoFault FileTree := do
  let p ← t.locate path
  match ← t.find? path with
  | some .folder => .error isFolder
  | some (.file _) => .ok (t.put p (.file bytes))
  | none => if PathName.asksFolder path then .error isFolder else .ok (t.put p (.file bytes))

def writeText (t : FileTree) (path text : String) : Except IoFault FileTree :=
  t.writeBytes path text.toUTF8

/-- Makes the folders that the parts lead through, where they are missing. -/
def makeAlong (t : FileTree) : Place → List String → Except IoFault FileTree
  | _, [] => .ok t
  | p, part :: rest =>
    let next := further p part
    match t.entry? next with
    | some .folder => makeAlong t next rest
    | some (.file _) => .error (if rest.isEmpty then alreadyThere else noFolder)
    | none => makeAlong (t.put next .folder) next rest

/-- Makes a folder and all that hold it. -/
def makeFolders (t : FileTree) (path : String) : Except IoFault FileTree :=
  t.makeAlong (t.origin path) (PathName.parts path)

end FileTree
end LinkTest
