/-!
# Types of YAML nodes

Every node has a type.  It is named by a tag, or it follows from the text of a scalar that stands
without quotes.  `Kind.ofTag` reads a tag and `Kind.ofPlain` a text: truth values, numbers, instants
and a few marks are recognised by their spelling, and everything else is text.
-/

namespace RepoGraph

namespace Yaml

/-- The type of a node. -/
inductive Kind where
  | null
  | bool
  | int
  | float
  | binary
  | timestamp
  | text
  /-- A sequence. -/
  | items
  /-- A mapping. -/
  | fields
  /-- A mapping without values. -/
  | set
  /-- A sequence of mappings with one entry each. -/
  | pairs
  /-- The key `<<`, which merges other mappings into its own. -/
  | merge
  /-- The key `=`, which stands for the value of its mapping. -/
  | standIn
  /-- A type that has no meaning here. -/
  | unknown
deriving DecidableEq, Repr

namespace Kind

/-- What the tags of the known types begin with. -/
def commonTag : String := "tag:yaml.org,2002:"

/-- The names of the known types. -/
def names : List (String × Kind) :=
  [("null", null), ("bool", bool), ("int", int), ("float", float), ("binary", binary),
    ("timestamp", timestamp), ("str", text), ("seq", items), ("map", fields), ("set", set),
    ("omap", pairs), ("pairs", pairs), ("merge", merge), ("value", standIn)]

/-- The type that a full tag names. -/
def ofTag (tag : String) : Kind :=
  match names.find? fun (name, _) => commonTag ++ name == tag with
  | some (_, kind) => kind
  | none => unknown

end Kind

namespace Spelling

/-! ### Parts of a spelling -/

/-- Without a sign. -/
def afterSign : List Char → List Char
  | '-' :: rest => rest
  | '+' :: rest => rest
  | cs => cs

/-- Whether a character is a decimal digit or an underscore. -/
def isFigure (c : Char) : Bool := c.isDigit || c == '_'

/-- The rest after a digit and further digits and underscores. -/
def afterFigures? : List Char → Option (List Char)
  | c :: rest => if c.isDigit then some (rest.dropWhile isFigure) else none
  | [] => none

/-- Whether only an exponent, its sign given, follows, or nothing. -/
def endsWithExponent : List Char → Bool
  | [] => true
  | e :: sign :: rest =>
    (e == 'e' || e == 'E') && (sign == '-' || sign == '+') && !rest.isEmpty && rest.all Char.isDigit
  | _ => false

/-- The rest after parts of sixty, each behind a colon; at least one. -/
def afterSixtieths? (cs : List Char) : Option (List Char) :=
  let rec go : List Char → List Char
    | ':' :: a :: b :: rest =>
      if ('0' ≤ a && a ≤ '5') && b.isDigit then go rest
      else if a.isDigit then go (b :: rest)
      else ':' :: a :: b :: rest
    | [':', a] => if a.isDigit then [] else [':', a]
    | cs => cs
  let rest := go cs
  if rest.length < cs.length then some rest else none

/-! ### Numbers -/

/-- Digits with a point, and an exponent perhaps. -/
def isPointed (cs : List Char) : Bool :=
  match afterFigures? (afterSign cs) with
  | some ('.' :: rest) => endsWithExponent (rest.dropWhile isFigure)
  | _ => false

/-- A point and digits, and an exponent perhaps. -/
def isPointedFirst : List Char → Bool
  | '.' :: rest => (afterFigures? rest).any endsWithExponent
  | _ => false

/-- Parts of sixty with a point. -/
def isPointedSixtieths (cs : List Char) : Bool :=
  match (afterFigures? (afterSign cs)).bind afterSixtieths? with
  | some ('.' :: rest) => rest.all isFigure
  | _ => false

/-- Whether a spelling is that of a double-precision number. -/
def isFloat (cs : List Char) : Bool :=
  isPointed cs || isPointedFirst cs || isPointedSixtieths cs ||
    [".inf", ".Inf", ".INF"].contains (String.ofList (afterSign cs)) ||
    [".nan", ".NaN", ".NAN"].contains (String.ofList cs)

/-- Whether a text has characters, and all of them satisfy `p`. -/
def isRun (p : Char → Bool) (cs : List Char) : Bool := !cs.isEmpty && cs.all p

/-- Whether a spelling is that of an integer in base two, eight, sixteen, ten or sixty. -/
def isInt (cs : List Char) : Bool :=
  let isHexFigure (c : Char) : Bool :=
    isFigure c || ('a' ≤ c && c ≤ 'f') || ('A' ≤ c && c ≤ 'F')
  let isOctalFigure (c : Char) : Bool := c == '_' || ('0' ≤ c && c ≤ '7')
  match afterSign cs with
  | ['0'] => true
  | '0' :: 'b' :: rest => isRun (fun c => c == '_' || c == '0' || c == '1') rest
  | '0' :: 'x' :: rest => isRun isHexFigure rest
  | '0' :: rest => isRun isOctalFigure rest
  | c :: rest =>
    c.isDigit &&
      match rest.dropWhile isFigure with
      | [] => true
      | more => afterSixtieths? more == some []
  | [] => false

/-! ### Instants -/

/-- A date, and a time of day perhaps, as they are written. -/
structure Stamp where
  year : Nat
  month : Nat
  day : Nat
  /-- Whether month and day have two digits each. -/
  wide : Bool
  /-- Hour, minute, second, the digits of the fraction, and the zone. -/
  time : Option (Nat × Nat × Nat × List Char × Option Int)

/-- The value of digits. -/
def number (cs : List Char) : Nat := cs.foldl (fun n c => 10 * n + (c.toNat - 48)) 0

/-- Between `least` and `most` digits and the rest. -/
def figures? (least most : Nat) (cs : List Char) : Option (List Char × List Char) :=
  let run := (cs.take most).takeWhile Char.isDigit
  if least ≤ run.length then some (run, cs.drop run.length) else none

/-- The rest after a given character. -/
def after? (c : Char) : List Char → Option (List Char)
  | x :: rest => if x == c then some rest else none
  | [] => none

/-- Whether a character is a space or a tab. -/
def isSpace (c : Char) : Bool := c == ' ' || c == '\t'

/-- A zone at the end: nothing, the letter `Z`, or hours and minutes with a sign, as minutes. -/
def zone? : List Char → Option (Option Int)
  | [] => some none
  | cs =>
    match cs.dropWhile isSpace with
    | ['Z'] => some (some 0)
    | sign :: rest =>
      if sign == '+' || sign == '-' then do
        let (hours, rest) ← figures? 1 2 rest
        let minutes ← match rest with
          | [] => some 0
          | ':' :: more =>
            match figures? 2 2 more with
            | some (ds, []) => some (number ds)
            | _ => none
          | _ => none
        let offset : Int := (number hours * 60 + minutes : Nat)
        return some (if sign == '-' then -offset else offset)
      else none
    | [] => none

/-- The rest after what parts a date from a time. -/
def afterDate? (cs : List Char) : Option (List Char) :=
  match cs with
  | c :: rest =>
    if c == 'T' || c == 't' then some rest
    else if isSpace c then some (rest.dropWhile isSpace)
    else none
  | [] => none

/-- A time of day with a zone. -/
def time? (cs : List Char) : Option (Nat × Nat × Nat × List Char × Option Int) := do
  let (hour, cs) ← figures? 1 2 (← afterDate? cs)
  let (minute, cs) ← figures? 2 2 (← after? ':' cs)
  let (second, cs) ← figures? 2 2 (← after? ':' cs)
  let (fraction, cs) := match cs with
    | '.' :: rest => (rest.takeWhile Char.isDigit, rest.dropWhile Char.isDigit)
    | _ => ([], cs)
  let zone ← zone? cs
  return (number hour, number minute, number second, fraction, zone)

/-- The date and time that a spelling gives. -/
def stamp? (cs : List Char) : Option Stamp := do
  let (year, cs) ← figures? 4 4 cs
  let (month, cs) ← figures? 1 2 (← after? '-' cs)
  let (day, cs) ← figures? 1 2 (← after? '-' cs)
  let time ← if cs.isEmpty then some none else (time? cs).map some
  return ⟨number year, number month, number day, month.length == 2 && day.length == 2, time⟩

/-- A text without a line feed at its end. -/
def withoutFinalBreak (cs : List Char) : List Char :=
  if cs.getLast? == some '\n' then cs.dropLast else cs

/-- Whether a spelling is that of a date or an instant; in a mere date month and day have two
digits. -/
def isTimestamp (cs : List Char) : Bool :=
  (stamp? cs).any fun s => s.wide || s.time.isSome

/-- The words for truth values. -/
def truthWords : List String :=
  ["yes", "Yes", "YES", "no", "No", "NO", "true", "True", "TRUE", "false", "False", "FALSE", "on",
    "On", "ON", "off", "Off", "OFF"]

/-- The words for nothing. -/
def nullWords : List String := ["", "~", "null", "Null", "NULL"]

end Spelling

/-- The type of a scalar without quotes. -/
def Kind.ofPlain (text : String) : Kind :=
  let cs := Spelling.withoutFinalBreak text.toList
  let word := String.ofList cs
  if Spelling.truthWords.contains word then .bool
  else if Spelling.isFloat cs then .float
  else if Spelling.isInt cs then .int
  else if word == "<<" then .merge
  else if Spelling.nullWords.contains word && text != "\n" then .null
  else if Spelling.isTimestamp cs then .timestamp
  else if word == "=" then .standIn
  else .text

end Yaml

end RepoGraph
