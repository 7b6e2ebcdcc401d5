/-!
# Arguments

What was asked for on the command line. Options stand before the command or behind it, each at
most once at its place; the way to the configuration may be given at both, and the one behind the
command counts. The arguments are taken one by one, so the first that cannot stand where it
stands, or that asks for help, decides.
-/

namespace LinkTest.Command

/-- Why there is nothing to carry out. -/
inductive Stop
  | misuse
  | help
  | version
deriving DecidableEq, Repr

inductive OptionKind
  | switch
  /-- A value follows; it may be empty or not. -/
  | value (mayBeEmpty : Bool)
  | stop (s : Stop)
deriving DecidableEq, Repr

structure OptionSpec where
  letter : Option Char
  word : String
  kind : OptionKind

/-- The options found at one place, by their words. -/
structure Options where
  switches : List String
  values : List (String × String)

def Options.none : Options := ⟨[], []⟩

def Options.has (o : Options) (word : String) : Bool := o.switches.contains word

def Options.value? (o : Options) (word : String) : Option String := o.values.lookup word

def Options.addSwitch (o : Options) (word : String) : Except Stop Options :=
  if o.has word then .error .misuse else .ok { o with switches := word :: o.switches }

def Options.addValue (o : Options) (word : String) (mayBeEmpty : Bool) (value : String) :
    Except Stop Options :=
  if (o.value? word).isSome ∨ (value.isEmpty ∧ !mayBeEmpty) then .error .misuse
  else .ok { o with values := (word, value) :: o.values }

/-- Whether an argument is read as an option wherever it stands. -/
def looksLikeOption (arg : String) : Bool := arg.toList.head? == some '-' && arg != "-"

/-- The value that the next argument gives. -/
def nextValue : List String → Except Stop (String × List String)
  | [] => .error .misuse
  | arg :: rest => if looksLikeOption arg then .error .misuse else .ok (arg, rest)

def wordSpec? (specs : List OptionSpec) (word : String) : Option OptionSpec :=
  specs.find? fun s => s.word == word

def letterSpec? (specs : List OptionSpec) (c : Char) : Option OptionSpec :=
  specs.find? fun s => s.letter == some c

/-- An option in words, from behind its dashes, with what follows it. -/
def takeWord (specs : List OptionSpec) (o : Options) (arg : List Char) (rest : List String) :
    Except Stop (Options × List String) :=
  let word := String.ofList (arg.takeWhile (· ≠ '='))
  let attached := match arg.dropWhile (· ≠ '=') with
    | [] => none
    | _ :: v => some (String.ofList v)
  match wordSpec? specs word, attached with
  | none, _ => .error .misuse
  | some ⟨_, w, .switch⟩, none => do .ok (← o.addSwitch w, rest)
  | some ⟨_, _, .stop s⟩, none => .error s
  | some ⟨_, w, .value e⟩, some v => do .ok (← o.addValue w e v, rest)
  | some ⟨_, w, .value e⟩, none => do
    let (v, rest) ← nextValue rest
    .ok (← o.addValue w e v, rest)
  | some _, some _ => .error .misuse

/-- A row of letters behind one dash. The first that wants a value takes what is left of the row. -/
def takeLetters (specs : List OptionSpec) (rest : List String) :
    List Char → Options → Except Stop (Options × List String)
  | [], o => .ok (o, rest)
  | c :: cs, o =>
    match letterSpec? specs c with
    | none => .error .misuse
    | some ⟨_, _, .stop s⟩ => .error s
    | some ⟨_, w, .switch⟩ => do takeLetters specs rest cs (← o.addSwitch w)
    | some ⟨_, w, .value e⟩ =>
      match cs with
      | [] => do
        let (v, rest) ← nextValue rest
        .ok (← o.addValue w e v, rest)
      | '=' :: v => do .ok (← o.addValue w e (String.ofList v), rest)
      | v => do .ok (← o.addValue w e (String.ofList v), rest)

/-- The options in front, and the arguments from the first that is none. -/
def takeOptions (specs : List OptionSpec) :
    Nat → Options → List String → Except Stop (Options × List String)
  | 0, o, args => .ok (o, args)
  | _ + 1, o, [] => .ok (o, [])
  | fuel + 1, o, arg :: rest =>
    match arg.toList with
    | ['-', '-'] => if rest.isEmpty then .ok (o, []) else .error .misuse
    | '-' :: '-' :: word => do
      let (o, rest) ← takeWord specs o word rest
      takeOptions specs fuel o rest
    | '-' :: c :: cs => do
      let (o, rest) ← takeLetters specs rest (c :: cs) o
      takeOptions specs fuel o rest
    | _ => .ok (o, arg :: rest)

/-! ## The options that there are -/

def helpOption : OptionSpec := ⟨some 'h', "help", .stop .help⟩

def configOption : OptionSpec := ⟨some 'c', "config", .value false⟩

def commonOptions : List OptionSpec :=
  [⟨some 'd', "debug", .switch⟩, configOption, helpOption, ⟨some 'V', "version", .stop .version⟩]

def runOptions : List OptionSpec :=
  [⟨none, "server", .value true⟩, ⟨none, "json", .switch⟩, configOption, helpOption]

def configOptions : List OptionSpec := [⟨none, "init", .switch⟩, configOption, helpOption]

/-! ## What is asked for -/

inductive Task
  /-- Make one test, of another server than the configured one if one is given. -/
  | run (server : Option String) (json : Bool)
  /-- Show the configuration, after writing the default one to its place if it is free. -/
  | config (init : Bool)
deriving DecidableEq, Repr

structure Arguments where
  debug : Bool
  config : Option String
  task : Task
deriving DecidableEq, Repr

/-- The options behind a command, which has no other arguments. -/
def ownOptions (specs : List OptionSpec) (args : List String) : Except Stop Options := do
  let (o, rest) ← takeOptions specs args.length .none args
  if rest.isEmpty then .ok o else .error .misuse

/-- Help is given on at most one thing, which has to exist. -/
def askedHelp : List String → Stop
  | [] => .help
  | [topic] => if ["run", "config", "help"].contains topic then .help else .misuse
  | _ => .misuse

def parse (args : List String) : Except Stop Arguments := do
  let (common, rest) ← takeOptions commonOptions args.length .none args
  match rest with
  | [] => .error .misuse
  | name :: rest =>
    let build (own : Options) (task : Task) : Arguments :=
      ⟨common.has "debug", (own.value? "config").or (common.value? "config"), task⟩
    match name with
    | "run" => do
      let own ← ownOptions runOptions rest
      .ok (build own (.run (own.value? "server") (own.has "json")))
    | "config" => do
      let own ← ownOptions configOptions rest
      .ok (build own (.config (own.has "init")))
    | "help" => .error (askedHelp rest)
    | _ => .error .misuse

end LinkTest.Command
