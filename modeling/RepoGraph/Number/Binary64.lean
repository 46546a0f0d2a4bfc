/-!
# Double-precision numbers

A `Binary64` is the 64-bit pattern of a double-precision number: a sign, an eleven-bit exponent and
fifty-two bits of fraction.  `value?` reads a finite pattern as `± m · 2 ^ q` with natural `m`, and
`ofRatio` rounds an exact ratio of naturals to the nearest pattern, a tie going to the even one.
All arithmetic of this library on such numbers goes through exact ratios and one rounding.
-/

namespace RepoGraph

-- powers are those of whole numbers, whatever other powers are in scope
attribute [local instance (high)] instPowNat

namespace Binary64

/-- The magnitude pattern of infinity: the largest exponent and no fraction. -/
def infinityMagnitude : Nat := 2047 * 2 ^ (52 : Nat)

/-- The magnitude pattern of the result that is not a number. -/
def nanMagnitude : Nat := infinityMagnitude + 2 ^ (51 : Nat)

end Binary64

/-- The bit pattern of a double-precision number.  Beyond infinity there is one pattern only. -/
structure Binary64 where
  /-- Sign, exponent and fraction, from the highest bit down. -/
  bits : UInt64
  eq_of_beyond : Binary64.infinityMagnitude < bits.toNat % 2 ^ (63 : Nat) →
    bits.toNat = Binary64.nanMagnitude
deriving DecidableEq, Repr

namespace Binary64

/-! ### Fields -/

/-- The one pattern used for the result that is not a number. -/
def nan : Binary64 := ⟨UInt64.ofNat nanMagnitude, fun _ => rfl⟩

theorem toNat_ofNat_fields {magnitude : Nat} (h : magnitude ≤ infinityMagnitude) (negative : Bool) :
    (UInt64.ofNat (if negative then 2 ^ (63 : Nat) + magnitude else magnitude)).toNat =
      if negative then 2 ^ (63 : Nat) + magnitude else magnitude := by
  have hm : magnitude < 2 ^ (63 : Nat) := Nat.lt_of_le_of_lt h (by decide)
  rw [UInt64.toNat_ofNat']
  cases negative <;> simp only [if_true, if_false, Bool.false_eq_true] <;> omega

/-- The pattern with the given sign and lower sixty-three bits, up to infinity. -/
def ofFields (negative : Bool) (magnitude : Nat) : Binary64 :=
  if h : magnitude ≤ infinityMagnitude then
    ⟨UInt64.ofNat (if negative then 2 ^ (63 : Nat) + magnitude else magnitude), fun beyond => by
      have hm : magnitude < 2 ^ (63 : Nat) := Nat.lt_of_le_of_lt h (by decide)
      rw [toNat_ofNat_fields h] at beyond
      cases negative <;> simp only [if_true, if_false, Bool.false_eq_true] at beyond <;> omega⟩
  else nan

/-- Positive or negative infinity. -/
def infinity (negative : Bool) : Binary64 := ofFields negative infinityMagnitude

instance : Inhabited Binary64 := ⟨ofFields false 0⟩

/-- Whether the sign bit is set. -/
def isNegative (x : Binary64) : Bool := 2 ^ (63 : Nat) ≤ x.bits.toNat

/-- The pattern without its sign. -/
def magnitude (x : Binary64) : Nat := x.bits.toNat % 2 ^ (63 : Nat)

/-- Neither infinite nor `nan`. -/
def isFinite (x : Binary64) : Bool := x.magnitude < infinityMagnitude

/-- Whether the number is infinite. -/
def isInfinite (x : Binary64) : Bool := x.magnitude == infinityMagnitude

/-- Whether the pattern stands for no number. -/
def isNaN (x : Binary64) : Bool := infinityMagnitude < x.magnitude

/-- Whether the number is one of the two zeros. -/
def isZero (x : Binary64) : Bool := x.magnitude == 0

/-- The naturals `m` and `q` with absolute value `m · 2 ^ q`, for a finite pattern. -/
def significand (x : Binary64) : Nat × Int :=
  let exponent : Nat := x.magnitude / 2 ^ (52 : Nat)
  let fraction : Nat := x.magnitude % 2 ^ (52 : Nat)
  if exponent = 0 then (fraction, -1074) else (2 ^ (52 : Nat) + fraction, (exponent : Int) - 1075)

/-- The absolute value of a finite pattern as numerator and denominator. -/
def ratio (x : Binary64) : Nat × Nat :=
  let (m, q) := x.significand
  if 0 ≤ q then (m * 2 ^ q.toNat, 1) else (m, 2 ^ (-q).toNat)

/-! ### Rounding -/

/-- The quotient rounded to the nearest natural, a tie to the even one. -/
def roundDiv (num den : Nat) : Nat :=
  let m := num / den
  let r := num % den
  if den < 2 * r || (2 * r == den && m % 2 == 1) then m + 1 else m

/-- The quotient `num / den / 2 ^ q` as numerator and denominator. -/
def scaled (num den : Nat) (q : Int) : Nat × Nat :=
  if 0 ≤ q then (num, den * 2 ^ q.toNat) else (num * 2 ^ (-q).toNat, den)

/-- The natural below `num / den / 2 ^ q`. -/
def floorAt (num den : Nat) (q : Int) : Nat := (scaled num den q).1 / (scaled num den q).2

/-- The least exponent under which `num / den` is below `2 ^ 53`, as far as there are exponents. -/
def exponentOf (num den : Nat) : Int :=
  let guess : Int := max ((num.log2 : Int) - den.log2 - 53) (-1074)
  if floorAt num den guess < 2 ^ (53 : Nat) then guess else guess + 1

/-- The magnitude pattern of `m · 2 ^ q`; a value too large is infinite. -/
def magnitudeOf (m : Nat) (q : Int) : Nat :=
  if m < 2 ^ (52 : Nat) then m
  else min infinityMagnitude ((q + 1075).toNat * 2 ^ (52 : Nat) + (m - 2 ^ (52 : Nat)))

/-- The magnitude pattern nearest to `num / den`. -/
def nearestMagnitude (num den : Nat) : Nat :=
  if num = 0 then 0
  else
    let q := exponentOf num den
    magnitudeOf (roundDiv (scaled num den q).1 (scaled num den q).2) q

/-- The double-precision number nearest to `± num / den`. -/
def ofRatio (negative : Bool) (num den : Nat) : Binary64 :=
  ofFields negative (nearestMagnitude num den)

/-- The double-precision number nearest to an integer. -/
def ofInt (n : Int) : Binary64 := ofRatio (n < 0) n.natAbs 1

/-! ### Operations -/

/-- The number with the other sign. -/
def neg (x : Binary64) : Binary64 := ofFields (!x.isNegative) x.magnitude

/-- The value of a finite number as an integer over a positive natural. -/
def signedRatio (x : Binary64) : Int × Nat :=
  let (num, den) := x.ratio
  (if x.isNegative then -(num : Int) else num, den)

/-- The number nearest to an integer over a positive natural; a zero is not negative. -/
def ofSignedRatio (num : Int) (den : Nat) : Binary64 := ofRatio (num < 0) num.natAbs den

/-- The sum, rounded once.  Two negative zeros add up to a negative zero. -/
def add (x y : Binary64) : Binary64 :=
  if x.isNaN || y.isNaN then nan
  else if x.isInfinite then (if y.isInfinite && x.isNegative != y.isNegative then nan else x)
  else if y.isInfinite then y
  else if x.isZero && y.isZero then ofFields (x.isNegative && y.isNegative) 0
  else
    let (a, b) := x.signedRatio
    let (c, d) := y.signedRatio
    ofSignedRatio (a * d + c * b) (b * d)

/-- The product, rounded once. -/
def mul (x y : Binary64) : Binary64 :=
  let negative := x.isNegative != y.isNegative
  if x.isNaN || y.isNaN || (x.isInfinite && y.isZero) || (x.isZero && y.isInfinite) then nan
  else if x.isInfinite || y.isInfinite then infinity negative
  else ofRatio negative (x.ratio.1 * y.ratio.1) (x.ratio.2 * y.ratio.2)

/-- The integer part, towards zero, of a finite number. -/
def truncate (x : Binary64) : Int :=
  let n : Int := (x.ratio.1 / x.ratio.2 : Nat)
  if x.isNegative then -n else n

/-- Whether the number is finite and has no fractional part. -/
def isInteger (x : Binary64) : Bool := x.isFinite && x.ratio.1 % x.ratio.2 == 0

/-- Whether the number is greater than zero. -/
def isPositive (x : Binary64) : Bool := !x.isNegative && !x.isZero && !x.isNaN

/-- Equality of the numbers: the two zeros are equal, and `nan` equals nothing. -/
def numEq (x y : Binary64) : Bool :=
  !x.isNaN && !y.isNaN && (x == y || (x.isZero && y.isZero))

end Binary64

end RepoGraph
