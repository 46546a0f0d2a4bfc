import RepoGraph.Number.Numeral

/-!
# Arguments of a command line

A command line is a list of arguments: options that begin with a hyphen, some with a value, and
plain arguments.  `Argument.classify` tells them apart against the options of a command, and
`Argument.collect` takes the options with their values and leaves the rest.

An option may be shortened as long as it stays the only one that begins so, and its value may follow
an equals sign.  After a lone `--` every argument is plain; so are negative numbers and what has a
space in it.
-/

namespace RepoGraph

/-- An option of a command: its name with the hyphens, and what its value may be, if it has one. -/
structure CommandOption where
  name : String
  accepts : Option (String → Bool)

/-- Why the arguments of a command line are not carried out. -/
inductive Interruption where
  /-- They ask for help. -/
  | help
  /-- They are wrong. -/
  | usage
deriving DecidableEq, Repr

/-- What an argument is. -/
inductive Argument where
  | plain (text : String)
  /-- The first lone `--`. -/
  | separator
  /-- A request for help; what is attached to it must be empty or more of the same letter. -/
  | help (attached : Option String)
  | option (which : CommandOption) (attached : Option String)
  /-- It looks like an option and is none. -/
  | unknown (text : String)

namespace Argument

/-! ### Telling arguments apart -/

/-- The long and the short name of the request for help. -/
def helpNames : List String := ["-h", "--help"]

/-- The option of a name, with an attached value; the request for help is an option of every
command. -/
def named? (options : List CommandOption) (name : String) (attached : Option String) :
    Option Argument :=
  if helpNames.contains name then some (help attached)
  else (options.find? fun o => o.name == name).map fun o => option o attached

/-- Whether a character is a decimal digit of any script. -/
def isDigit (c : Char) : Bool := (Numeral.digitValue? c).isSome

/-- Whether an argument is a negative number: digits, or digits around a point with at least one
after it. -/
def isNegativeNumber (arg : List Char) : Bool :=
  match arg with
  | '-' :: rest =>
    match rest.dropWhile isDigit with
    | [] => !rest.isEmpty
    | '.' :: places => !places.isEmpty && places.all isDigit
    | _ => false
  | _ => false

/-- The part of an argument before the first equals sign, and the part after it if there is one. -/
def splitValue (arg : List Char) : String × Option String :=
  match arg.dropWhile (· != '=') with
  | [] => (String.ofList arg, none)
  | _ :: value => (String.ofList (arg.takeWhile (· != '=')), some (String.ofList value))

/-- The options that an argument may be short for. -/
def candidates (options : List CommandOption) (arg : List Char) : List Argument :=
  match arg with
  | '-' :: '-' :: _ =>
    let (start, value) := splitValue arg
    (helpNames ++ options.map CommandOption.name).filterMap fun name =>
      if start.toList.isPrefixOf name.toList then named? options name value else none
  | '-' :: 'h' :: attached => [help (some (String.ofList attached))]
  | _ => []

/-- What an argument is that begins with a hyphen, before a lone `--`. -/
def classifyHyphened (options : List CommandOption) (arg : String) :
    Except Interruption Argument :=
  let (name, value) := splitValue arg.toList
  match named? options arg none, if value.isSome then named? options name value else none with
  | some known, _ => .ok known
  | none, some known => .ok known
  | none, none =>
    match candidates options arg.toList with
    | [only] => .ok only
    | _ :: _ :: _ => .error .usage
    | [] =>
      if isNegativeNumber arg.toList || arg.toList.contains ' ' then .ok (plain arg)
      else .ok (unknown arg)

/-- What the arguments are. -/
def classify (options : List CommandOption) : List String → Except Interruption (List Argument)
  | [] => .ok []
  | arg :: rest =>
    if arg == "--" then .ok (separator :: rest.map plain)
    else do
      let first ← if arg.startsWith "-" && arg != "-" then classifyHyphened options arg
        else .ok (plain arg)
      return first :: (← classify options rest)

/-! ### Taking options -/

/-- What was taken: the options with their values in order, and whether an argument was left
over. -/
structure Taken where
  options : List (String × Option String)
  hasStray : Bool

/-- The value that was given last to an option. -/
def Taken.value? (t : Taken) (name : String) : Option String :=
  (t.options.reverse.find? fun o => o.1 == name).bind Prod.snd

/-- Whether an option was given. -/
def Taken.has (t : Taken) (name : String) : Bool := t.options.any fun o => o.1 == name

/-- An option with its value, if the value fits. -/
def withValue (which : CommandOption) (value : Option String) :
    Except Interruption (String × Option String) :=
  match which.accepts, value with
  | none, none => .ok (which.name, none)
  | some accepts, some v => if accepts v then .ok (which.name, some v) else .error .usage
  | _, _ => .error .usage

/-- What a request for help comes to, given what is attached to it. -/
def interruption (attached : Option String) : Interruption :=
  match attached with
  | none => .help
  | some more => if more != "" && more.toList.all (· == 'h') then .help else .usage

/-- Takes the options.  Where plain arguments begin it stops if told to, and answers how many
arguments are left from there. -/
def collect (stopsAtPlain : Bool) (t : Taken) : List Argument → Except Interruption (Taken × Nat)
  | [] => .ok (t, 0)
  | help attached :: _ => .error (interruption attached)
  | unknown _ :: rest => collect stopsAtPlain { t with hasStray := true } rest
  | option ⟨name, some accepts⟩ none :: plain value :: rest => do
    let given ← withValue ⟨name, some accepts⟩ (some value)
    collect stopsAtPlain { t with options := t.options ++ [given] } rest
  | option which attached :: rest => do
    let given ← withValue which attached
    collect stopsAtPlain { t with options := t.options ++ [given] } rest
  | plain _ :: rest =>
    if stopsAtPlain then .ok (t, rest.length + 1)
    else collect stopsAtPlain { t with hasStray := true } rest
  | separator :: rest =>
    if stopsAtPlain && !rest.isEmpty then .error .usage
    else collect stopsAtPlain { t with hasStray := true } rest

end Argument

end RepoGraph
