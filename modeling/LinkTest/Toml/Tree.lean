import LinkTest.Toml.Text

/-!
# The tree that a TOML text builds

Each line of the text adds one thing to the tree: a value under a key, or a dictionary under a
header. How a dictionary has come about decides what may still be put into it. One under a header
of its own is closed to keys from elsewhere; one that only leads to another may get its header
later; one made by a key stays open to keys alone.
-/

namespace LinkTest.Toml

/-- How a dictionary has come about. -/
inductive Making
  /-- It has a header. -/
  | header
  /-- It leads to one that has. -/
  | implied
  /-- A key of more than one part leads through it. -/
  | keyed
deriving DecidableEq, Repr

inductive Node
  | value (d : Datum)
  | dict (made : Making) (members : List (String × Node))
  /-- Dictionaries under repeated headers, of which the last is still open. -/
  | dicts (all : List Node)

namespace Node

def root : Node := dict .header []

/-- The members with one of them replaced in its place. -/
def replace (k : String) (n : Node) : List (String × Node) → List (String × Node)
  | [] => []
  | (j, m) :: r => if j = k then (k, n) :: r else (j, m) :: replace k n r

/-- Changes what stands at the end of a path. What is missing on the way is made; `keys` says
whether it is a key that leads there, or a header. -/
def alter (keys : Bool) (f : Node → Option Node) : List String → Node → Option Node
  | [], n => f n
  | k :: ks, dict made ms =>
    match ms.lookup k with
    | none =>
      (alter keys f ks (dict (if keys then .keyed else .implied) [])).map fun n =>
        dict made (ms ++ [(k, n)])
    | some (value _) => none
    | some (dict m sub) =>
      if keys ∧ m = .header then none
      else (alter keys f ks (dict m sub)).map fun n => dict made (replace k n ms)
    | some (dicts all) =>
      match all.getLast? with
      | none => none
      | some last =>
        (alter keys f ks last).map fun n => dict made (replace k (dicts (all.dropLast ++ [n])) ms)
  | _ :: _, _ => none

/-- Puts a value under a name that is still free. Keys of several parts may end only in what such
keys have made. -/
def put (long : Bool) (name : String) (d : Datum) : Node → Option Node
  | dict made ms =>
    if long ∧ made ≠ .keyed then none
    else if (ms.lookup name).isSome then none
    else some (dict made (ms ++ [(name, value d)]))
  | _ => none

/-- Adds a value under a key. -/
def add (k : Key) (d : Datum) (n : Node) : Option Node :=
  n.alter true (put (!k.path.isEmpty) k.name d) k.path

/-- Opens a dictionary under a header. -/
def openDict (name : String) : Node → Option Node
  | dict made ms =>
    match ms.lookup name with
    | none => some (dict made (ms ++ [(name, dict .header [])]))
    | some (dict .implied sub) =>
      some (dict made (ms.filter (fun m => m.1 ≠ name) ++ [(name, dict .header sub)]))
    | some _ => none
  | _ => none

/-- Opens one more dictionary under a repeated header. -/
def openNext (name : String) : Node → Option Node
  | dict made ms =>
    match ms.lookup name with
    | none => some (dict made (ms ++ [(name, dicts [dict .header []])]))
    | some (dicts all) => some (dict made (replace name (dicts (all ++ [dict .header []])) ms))
    | some _ => none
  | _ => none

mutual

/-- The tree as data. Lists may hold more than a reader wants. -/
def datum : Node → Datum
  | value d => d
  | dict _ ms => .dict (datumMembers ms) .strict
  | dicts all => .list (datumItems all) .lenient

def datumMembers : List (String × Node) → List (String × Datum)
  | [] => []
  | (k, n) :: r => (k, datum n) :: datumMembers r

def datumItems : List Node → List Datum
  | [] => []
  | n :: r => datum n :: datumItems r

end

end Node
end LinkTest.Toml
