import RepoGraph.Number.Decimal
import RepoGraph.Text.Blank
import RepoGraph.Text.Quoted

/-!
# Numerals in settings and records

Numbers also arrive as texts.  Blanks around a numeral are ignored, single underscores may stand
between digits, and the decimal digits of every script count as digits.  A `Number` keeps an integer
apart from a double-precision number, because it is shown the way it was given.
-/

namespace RepoGraph

-- powers are those of whole numbers, whatever other powers are in scope
attribute [local instance (high)] instPowNat

/-- An integer or a double-precision number. -/
inductive Number where
  | int (n : Int)
  | float (x : Binary64)
deriving DecidableEq, Repr

namespace Number

/-- The number in double precision. -/
def toBinary64 : Number → Binary64
  | int n => Binary64.ofInt n
  | float x => x

/-- Whether the number is greater than zero. -/
def isPositive : Number → Bool
  | int n => 0 < n
  | float x => x.isPositive

end Number

/-- Why a text or a number is not the number that is wanted. -/
inductive NumeralFault where
  | notAnInteger (base : Nat) (text : String)
  | notAFloat (text : String)
  | tooManyDigits (count : Nat)
  | tooLong
  | infiniteInteger
  | undefinedInteger
  | tooLargeForFloat
deriving DecidableEq, Repr

/-- The fault as text; a long text is quoted only in part. -/
def NumeralFault.message : NumeralFault → String
  | notAnInteger base text =>
    "invalid literal for int() with base " ++ toString base ++ ": " ++
      Text.take 200 (Text.quoted text)
  | notAFloat text => "could not convert string to float: " ++ Text.quoted text
  | tooManyDigits count =>
    "Exceeds the limit (4300 digits) for integer string conversion: value has " ++
      toString count ++ " digits; use sys.set_int_max_str_digits() to increase the limit"
  | tooLong =>
    "Exceeds the limit (4300 digits) for integer string conversion; " ++
      "use sys.set_int_max_str_digits() to increase the limit"
  | infiniteInteger => "cannot convert float infinity to integer"
  | undefinedInteger => "cannot convert float NaN to integer"
  | tooLargeForFloat => "int too large to convert to float"

namespace Numeral

/-! ### Digits -/

/-- The zeros of the scripts beyond ASCII; each is followed by the digits one to nine. -/
def zeros : List Nat := [
  0x660, 0x6F0, 0x7C0, 0x966, 0x9E6, 0xA66, 0xAE6, 0xB66, 0xBE6, 0xC66, 0xCE6, 0xD66, 0xDE6,
  0xE50, 0xED0, 0xF20, 0x1040, 0x1090, 0x17E0, 0x1810, 0x1946, 0x19D0, 0x1A80, 0x1A90, 0x1B50,
  0x1BB0, 0x1C40, 0x1C50, 0xA620, 0xA8D0, 0xA900, 0xA9D0, 0xA9F0, 0xAA50, 0xABF0, 0xFF10,
  0x104A0, 0x10D30, 0x11066, 0x110F0, 0x11136, 0x111D0, 0x112F0, 0x11450, 0x114D0, 0x11650,
  0x116C0, 0x11730, 0x118E0, 0x11950, 0x11C50, 0x11D50, 0x11DA0, 0x16A60, 0x16AC0, 0x16B50,
  0x1D7CE, 0x1D7D8, 0x1D7E2, 0x1D7EC, 0x1D7F6, 0x1E140, 0x1E2F0, 0x1E950, 0x1FBF0
]

/-- The value of a decimal digit of any script. -/
def digitValue? (c : Char) : Option Nat :=
  if c.toNat < 0x80 then (if c.isDigit then some (c.toNat - 48) else none)
  else (zeros.find? fun first => first ≤ c.toNat && c.toNat ≤ first + 9).map (c.toNat - ·)

/-- A text with its decimal digits in ASCII and without blanks at the ends. -/
def normalize (s : String) : List Char :=
  (Text.trimChars Text.isBlank s.toList).map fun c =>
    match digitValue? c with
    | some d => Char.ofNat (48 + d)
    | none => c

/-- The sign at the front of a numeral, and the rest. -/
def sign : List Char → Bool × List Char
  | '-' :: rest => (true, rest)
  | '+' :: rest => (false, rest)
  | cs => (false, cs)

/-- The digits of a text that has digits and single underscores between them. -/
def separated? (isDigit : Char → Bool) : List Char → Option (List Char)
  | [] => none
  | [c] => if isDigit c then some [c] else none
  | c :: '_' :: rest => if isDigit c then (separated? isDigit rest).map (c :: ·) else none
  | c :: rest => if isDigit c then (separated? isDigit rest).map (c :: ·) else none

/-- The decimal digits of a text that has digits and single underscores between them. -/
def separatedDigits? (cs : List Char) : Option (List Char) := separated? Char.isDigit cs

/-! ### Integers -/

/-- An integer in decimal digits. -/
def integer (s : String) : Except NumeralFault Int :=
  let (negative, cs) := sign (normalize s)
  match separatedDigits? cs with
  | none => .error (.notAnInteger 10 s)
  | some digits =>
    if 4300 < digits.length then .error (.tooManyDigits digits.length)
    else
      let n : Int := Decimal.natOfDigits digits
      .ok (if negative then -n else n)

/-- The value of a digit in a base of at most thirty-six. -/
def figure (c : Char) : Nat :=
  if c.isDigit then c.toNat - 48
  else if c.isLower then c.toNat - 87
  else if c.isUpper then c.toNat - 55
  else 36

/-- The letter that marks a numeral of a base. -/
def baseLetter? (base : Nat) : Option Char :=
  if base = 2 then some 'b' else if base = 8 then some 'o' else if base = 16 then some 'x' else none

/-- The digits behind the mark of a base, where there is one. -/
def withoutBaseMark (base : Nat) : List Char → List Char
  | '0' :: letter :: '_' :: rest =>
    if some letter.toLower == baseLetter? base then rest else '0' :: letter :: '_' :: rest
  | '0' :: letter :: rest =>
    if some letter.toLower == baseLetter? base then rest else '0' :: letter :: rest
  | cs => cs

/-- An integer in the digits of base two, eight or sixteen. -/
def integerIn (base : Nat) (s : String) : Except NumeralFault Int :=
  let (negative, cs) := sign (normalize s)
  match separated? (fun c => figure c < base) (withoutBaseMark base cs) with
  | none => .error (.notAnInteger base s)
  | some digits =>
    let n : Int := (digits.foldl (fun n c => base * n + figure c) 0 : Nat)
    .ok (if negative then -n else n)

/-- The text of an integer; one of more than 4300 digits is refused. -/
def integerText (n : Int) : Except NumeralFault String :=
  if 10 ^ (4300 : Nat) ≤ n.natAbs then .error .tooLong else .ok (toString n)

/-- The integer part of a double-precision number, towards zero. -/
def integerPart (x : Binary64) : Except NumeralFault Int :=
  if x.isNaN then .error .undefinedInteger
  else if x.isInfinite then .error .infiniteInteger
  else .ok x.truncate

/-! ### Double-precision numbers -/

/-- Whether a text is a word, letter case aside. -/
def isWord (word : String) (cs : List Char) : Bool := cs.map Char.toLower == word.toList

/-- The digits before a point or an exponent, none being allowed. -/
def optionalDigits? (cs : List Char) : Option (List Char) :=
  if cs.isEmpty then some [] else separatedDigits? cs

/-- A numeral without sign: digits, a point and an exponent, at least one digit before the
exponent. -/
def unsigned? (negative : Bool) (cs : List Char) : Option Binary64 := do
  let isMark (c : Char) : Bool := c == 'e' || c == 'E'
  let mantissa := cs.takeWhile (!isMark ·)
  let power := cs.dropWhile (!isMark ·)
  let whole ← optionalDigits? (mantissa.takeWhile (· != '.'))
  let places ← optionalDigits? ((mantissa.dropWhile (· != '.')).drop 1)
  guard (!(whole.isEmpty && places.isEmpty))
  let exponent : Int ← match power with
    | [] => some 0
    | _ :: rest =>
      let (down, digits) := sign rest
      (separatedDigits? digits).map fun ds =>
        let n : Int := Decimal.natOfDigits ds
        if down then -n else n
  let value : Decimal :=
    ⟨negative, Decimal.natOfDigits (whole ++ places), exponent - places.length⟩
  return value.toBinary64

/-- A double-precision number in decimal digits, or a word for infinity or no number. -/
def float (s : String) : Except NumeralFault Binary64 :=
  let (negative, cs) := sign (normalize s)
  if isWord "inf" cs || isWord "infinity" cs then .ok (Binary64.infinity negative)
  else if isWord "nan" cs then .ok Binary64.nan
  else
    match unsigned? negative cs with
    | some x => .ok x
    | none => .error (.notAFloat s)

/-- An integer in double precision; too large a one is refused. -/
def floatOfInt (n : Int) : Except NumeralFault Binary64 :=
  let x := Binary64.ofInt n
  if x.isInfinite then .error .tooLargeForFloat else .ok x

end Numeral

/-- The number times a power of two.  A double-precision number takes the power in double precision,
which a large one does not have. -/
def Number.scale (k : Nat) : Number → Except NumeralFault Number
  | .int n => .ok (.int (n * 2 ^ k))
  | .float x => (Numeral.floatOfInt (2 ^ k)).map fun y => .float (x.mul y)

end RepoGraph
