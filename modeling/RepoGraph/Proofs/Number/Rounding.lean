import Mathlib.Tactic.Ring
import RepoGraph.Number.Decimal

/-!
# Rounding depends on the quotient alone

`Binary64.nearestMagnitude num den` guesses an exponent from the lengths of `num` and `den` and then
corrects the guess.  `Binary64.IsExponent` says which exponent comes out: the least one under which
the quotient is below `2 ^ 53`.  There is only one, and it depends on the quotient alone, so a
quotient may be reduced or extended before it is rounded, and a finite number rounds to itself.

Main statements: `Binary64.nearestMagnitude_congr`, `Binary64.ofRatio_ratio`,
`Binary64.ratio_ofRatio`.
-/

namespace RepoGraph

namespace Binary64

/-! ### Floors -/

theorem pos_of_scaled {num den : Nat} (hden : 0 < den) (q : Int) : 0 < (scaled num den q).2 := by
  rw [scaled]
  split
  · exact Nat.mul_pos hden (Nat.two_pow_pos _)
  · exact hden

theorem scaled_mul {c : Nat} (num den : Nat) (q : Int) :
    scaled (num * c) (den * c) q = ((scaled num den q).1 * c, (scaled num den q).2 * c) := by
  rw [scaled, scaled]
  split
  · simp only [Prod.mk.injEq, true_and]
    ring
  · simp only [Prod.mk.injEq, and_true]
    ring

theorem floorAt_mul {c : Nat} (hc : 0 < c) (num den : Nat) (q : Int) :
    floorAt (num * c) (den * c) q = floorAt num den q := by
  rw [floorAt, scaled_mul]
  exact Nat.mul_div_mul_right _ _ hc

/-- Under the next exponent the floor is halved. -/
theorem floorAt_succ (num den : Nat) (q : Int) :
    floorAt num den (q + 1) = floorAt num den q / 2 := by
  rw [floorAt, floorAt, scaled, scaled]
  by_cases hq : 0 ≤ q
  · have hsucc : (q + 1).toNat = q.toNat + 1 := by omega
    rw [if_pos hq, if_pos (by omega), hsucc, Nat.pow_succ, ← Nat.mul_assoc, Nat.div_div_eq_div_mul]
  · rw [if_neg hq]
    by_cases hzero : q = -1
    · subst hzero
      rw [if_pos (by decide), Nat.div_div_eq_div_mul]
      have hone : (-(-1 : Int)).toNat = 1 := rfl
      have hnone : (-1 + 1 : Int).toNat = 0 := rfl
      rw [hone, hnone, Nat.pow_zero, Nat.mul_one, Nat.pow_one,
        Nat.mul_div_mul_right _ _ Nat.two_pos]
    · have hpred : (-q).toNat = (-(q + 1)).toNat + 1 := by omega
      rw [if_neg (by omega), hpred, Nat.pow_succ, ← Nat.mul_assoc, Nat.div_div_eq_div_mul,
        Nat.mul_div_mul_right _ _ Nat.two_pos]

theorem floorAt_antitone {num den : Nat} {q q' : Int} (h : q ≤ q') :
    floorAt num den q' ≤ floorAt num den q := by
  obtain ⟨n, rfl⟩ : ∃ n : Nat, q' = q + n := ⟨(q' - q).toNat, by omega⟩
  clear h
  induction n with
  | zero => simp
  | succ n ih =>
    have hstep : q + (n + 1 : Nat) = q + n + 1 := by omega
    rw [hstep, floorAt_succ]
    exact (Nat.div_le_self _ _).trans ih

/-! ### The exponent -/

/-- The least exponent under which a quotient is below `2 ^ 53`. -/
structure IsExponent (num den : Nat) (q : Int) : Prop where
  le : -1074 ≤ q
  lt : floorAt num den q < 2 ^ 53
  least : q = -1074 ∨ 2 ^ 53 ≤ floorAt num den (q - 1)

theorem IsExponent.eq {num den : Nat} {q q' : Int} (h : IsExponent num den q)
    (h' : IsExponent num den q') : q = q' := by
  have hle {a b : Int} (ha : IsExponent num den a) (hb : IsExponent num den b) : a ≤ b := by
    by_contra hlt
    rcases ha.least with hleast | hleast
    · have := hb.le
      omega
    · have hfloor : floorAt num den (a - 1) ≤ floorAt num den b := floorAt_antitone (by omega)
      have := hb.lt
      omega
  exact le_antisymm (hle h h') (hle h' h)

theorem IsExponent.mul {num den c : Nat} {q : Int} (hc : 0 < c) (h : IsExponent num den q) :
    IsExponent (num * c) (den * c) q := by
  obtain ⟨hle, hlt, hleast⟩ := h
  refine ⟨hle, ?_, ?_⟩
  · rw [floorAt_mul hc]
    exact hlt
  · rw [floorAt_mul hc]
    exact hleast

theorem isExponent_of_floorAt {num den : Nat} {q : Int} (hle : -1074 ≤ q)
    (hfloor : 2 ^ 52 ≤ floorAt num den q) (hlt : floorAt num den q < 2 ^ 53) :
    IsExponent num den q := by
  have hhalf := floorAt_succ num den (q - 1)
  rw [Int.sub_add_cancel] at hhalf
  exact ⟨hle, hlt, .inr (by omega)⟩

/-- The guess is not too small by more than one. -/
theorem floorAt_guess_lt {num den : Nat} (hnum : num ≠ 0) (hden : den ≠ 0) {q : Int}
    (hq : (num.log2 : Int) - den.log2 - 53 ≤ q) : floorAt num den q < 2 ^ 54 := by
  have hupper : num < 2 ^ (num.log2 + 1) := (Nat.log2_lt hnum).1 (Nat.lt_succ_self _)
  have hlower : 2 ^ den.log2 ≤ den := (Nat.le_log2 hden).1 (Nat.le_refl _)
  rw [floorAt, Nat.div_lt_iff_lt_mul (pos_of_scaled (Nat.pos_of_ne_zero hden) q), scaled]
  split
  · have hpow : 2 ^ (num.log2 + 1) ≤ 2 ^ (54 + den.log2 + q.toNat) :=
      Nat.pow_le_pow_right Nat.two_pos (by omega)
    calc num < 2 ^ (num.log2 + 1) := hupper
      _ ≤ 2 ^ (54 + den.log2 + q.toNat) := hpow
      _ = 2 ^ 54 * (2 ^ den.log2 * 2 ^ q.toNat) := by rw [Nat.pow_add, Nat.pow_add]; ring
      _ ≤ 2 ^ 54 * (den * 2 ^ q.toNat) :=
        Nat.mul_le_mul_left _ (Nat.mul_le_mul_right _ hlower)
  · have hpow : 2 ^ (num.log2 + 1 + (-q).toNat) ≤ 2 ^ (54 + den.log2) :=
      Nat.pow_le_pow_right Nat.two_pos (by omega)
    calc num * 2 ^ (-q).toNat < 2 ^ (num.log2 + 1) * 2 ^ (-q).toNat :=
        Nat.mul_lt_mul_of_pos_right hupper (Nat.two_pow_pos _)
      _ = 2 ^ (num.log2 + 1 + (-q).toNat) := (Nat.pow_add _ _ _).symm
      _ ≤ 2 ^ (54 + den.log2) := hpow
      _ = 2 ^ 54 * 2 ^ den.log2 := Nat.pow_add _ _ _
      _ ≤ 2 ^ 54 * den := Nat.mul_le_mul_left _ hlower

/-- The guess is not too large, unless it is the least exponent there is. -/
theorem le_floorAt_guess {num den : Nat} (hnum : num ≠ 0) (hden : den ≠ 0) {q : Int}
    (hq : q ≤ (num.log2 : Int) - den.log2 - 53) : 2 ^ 53 ≤ floorAt num den (q - 1) := by
  have hlower : 2 ^ num.log2 ≤ num := (Nat.le_log2 hnum).1 (Nat.le_refl _)
  have hupper : den ≤ 2 ^ (den.log2 + 1) :=
    Nat.le_of_lt ((Nat.log2_lt hden).1 (Nat.lt_succ_self _))
  -- by the sign of the exponent, which multiplies the denominator or the numerator
  rw [floorAt, Nat.le_div_iff_mul_le (pos_of_scaled (Nat.pos_of_ne_zero hden) _), scaled]
  split
  · have hpow : 2 ^ (53 + (den.log2 + 1) + (q - 1).toNat) ≤ 2 ^ num.log2 :=
      Nat.pow_le_pow_right Nat.two_pos (by omega)
    calc 2 ^ 53 * (den * 2 ^ (q - 1).toNat)
        ≤ 2 ^ 53 * (2 ^ (den.log2 + 1) * 2 ^ (q - 1).toNat) :=
          Nat.mul_le_mul_left _ (Nat.mul_le_mul_right _ hupper)
      _ = 2 ^ (53 + (den.log2 + 1) + (q - 1).toNat) := by rw [Nat.pow_add, Nat.pow_add]; ring
      _ ≤ 2 ^ num.log2 := hpow
      _ ≤ num := hlower
  · have hpow : 2 ^ (53 + (den.log2 + 1)) ≤ 2 ^ (num.log2 + (-(q - 1)).toNat) :=
      Nat.pow_le_pow_right Nat.two_pos (by omega)
    calc 2 ^ 53 * den ≤ 2 ^ 53 * 2 ^ (den.log2 + 1) := Nat.mul_le_mul_left _ hupper
      _ = 2 ^ (53 + (den.log2 + 1)) := (Nat.pow_add _ _ _).symm
      _ ≤ 2 ^ (num.log2 + (-(q - 1)).toNat) := hpow
      _ = 2 ^ num.log2 * 2 ^ (-(q - 1)).toNat := Nat.pow_add _ _ _
      _ ≤ num * 2 ^ (-(q - 1)).toNat := Nat.mul_le_mul_right _ hlower

/-- The exponent that rounding takes. -/
theorem isExponent_exponentOf {num den : Nat} (hnum : num ≠ 0) (hden : den ≠ 0) :
    IsExponent num den (exponentOf num den) := by
  rw [exponentOf]
  generalize hguess : max ((num.log2 : Int) - den.log2 - 53) (-1074) = guess
  have hlt : floorAt num den guess < 2 ^ 54 := floorAt_guess_lt hnum hden (by omega)
  split
  · rename_i hfits
    refine ⟨by omega, hfits, ?_⟩
    by_cases hleast : guess = -1074
    · exact .inl hleast
    · exact .inr (le_floorAt_guess hnum hden (by omega))
  · rename_i hover
    refine ⟨by omega, ?_, .inr ?_⟩
    · rw [floorAt_succ]
      omega
    · rw [Int.add_sub_cancel]
      omega

/-! ### Rounding -/

theorem roundDiv_mul {c : Nat} (hc : 0 < c) (num den : Nat) :
    roundDiv (num * c) (den * c) = roundDiv num den := by
  have hmod : num * c % (den * c) = num % den * c := Nat.mul_mod_mul_right c num den
  have hlt : den * c < 2 * (num % den * c) ↔ den < 2 * (num % den) := by
    rw [← Nat.mul_assoc]
    exact Nat.mul_lt_mul_right hc
  have heq : 2 * (num % den * c) = den * c ↔ 2 * (num % den) = den := by
    rw [← Nat.mul_assoc]
    exact Nat.mul_left_inj (Nat.ne_of_gt hc)
  simp only [roundDiv, hmod, Nat.mul_div_mul_right _ _ hc, Bool.or_eq_true, decide_eq_true_eq,
    Bool.and_eq_true, beq_iff_eq, hlt, heq]

theorem nearestMagnitude_eq {num den : Nat} {q : Int} (hnum : num ≠ 0) (hden : den ≠ 0)
    (hq : IsExponent num den q) :
    nearestMagnitude num den =
      magnitudeOf (roundDiv (scaled num den q).1 (scaled num den q).2) q := by
  rw [nearestMagnitude, if_neg hnum, (isExponent_exponentOf hnum hden).eq hq]

/-- A quotient that is extended rounds to the same pattern. -/
theorem nearestMagnitude_mul {num den c : Nat} (hden : den ≠ 0) (hc : 0 < c) :
    nearestMagnitude (num * c) (den * c) = nearestMagnitude num den := by
  by_cases hnum : num = 0
  · rw [hnum, Nat.zero_mul, nearestMagnitude, nearestMagnitude, if_pos rfl, if_pos rfl]
  · have hq := isExponent_exponentOf hnum hden
    have hc' : c ≠ 0 := Nat.ne_of_gt hc
    rw [nearestMagnitude_eq hnum hden hq,
      nearestMagnitude_eq (Nat.mul_ne_zero hnum hc') (Nat.mul_ne_zero hden hc') (hq.mul hc),
      scaled_mul, roundDiv_mul hc]

/-- Equal quotients round to the same pattern. -/
theorem nearestMagnitude_congr {a b c d : Nat} (hb : b ≠ 0) (hd : d ≠ 0) (h : a * d = c * b) :
    nearestMagnitude a b = nearestMagnitude c d := by
  rw [← nearestMagnitude_mul hb (Nat.pos_of_ne_zero hd), h, Nat.mul_comm b d,
    nearestMagnitude_mul hd (Nat.pos_of_ne_zero hb)]

theorem ofRatio_congr {a b c d : Nat} (hb : b ≠ 0) (hd : d ≠ 0) (h : a * d = c * b)
    (negative : Bool) : ofRatio negative a b = ofRatio negative c d := by
  rw [ofRatio, nearestMagnitude_congr hb hd h, ofRatio]

/-! ### Numbers that round to themselves -/

theorem eq_of_bits {x y : Binary64} (h : x.bits = y.bits) : x = y := by
  cases x
  cases y
  cases h
  rfl

/-- The fields of a pattern up to infinity make the pattern. -/
theorem ofFields_magnitude {x : Binary64} (h : x.magnitude ≤ infinityMagnitude) :
    ofFields x.isNegative x.magnitude = x := by
  have hbits : (if x.isNegative then 2 ^ 63 + x.magnitude else x.magnitude) = x.bits.toNat := by
    have hlt := x.bits.toNat_lt
    have hmod : x.magnitude = x.bits.toNat % 2 ^ 63 := rfl
    split
    · rename_i hneg
      have hneg' : 2 ^ 63 ≤ x.bits.toNat := of_decide_eq_true hneg
      omega
    · rename_i hneg
      have hneg' : ¬ 2 ^ 63 ≤ x.bits.toNat := fun hle => hneg (decide_eq_true hle)
      omega
  rw [ofFields, dif_pos h]
  refine eq_of_bits ?_
  change UInt64.ofNat _ = x.bits
  rw [hbits]
  exact UInt64.ofNat_toNat

theorem magnitude_ofFields {magnitude : Nat} (h : magnitude ≤ infinityMagnitude) (negative : Bool) :
    (ofFields negative magnitude).magnitude = magnitude := by
  have hm : magnitude < 2 ^ 63 := Nat.lt_of_le_of_lt h (by decide)
  rw [ofFields, dif_pos h, Binary64.magnitude, toNat_ofNat_fields h]
  split
  · omega
  · omega

theorem eq_nan_of_isNaN {x : Binary64} (h : x.isNaN = true) : x = nan := by
  rw [isNaN, decide_eq_true_eq] at h
  refine eq_of_bits ?_
  change x.bits = UInt64.ofNat nanMagnitude
  rw [← x.eq_of_beyond h]
  exact UInt64.ofNat_toNat.symm

theorem eq_infinity_of_isInfinite {x : Binary64} (h : x.isInfinite = true) :
    x = infinity x.isNegative := by
  rw [isInfinite, beq_iff_eq] at h
  rw [infinity, ← h]
  exact (ofFields_magnitude (Nat.le_of_eq h)).symm

theorem eq_zero_of_isZero {x : Binary64} (h : x.isZero = true) : x = ofFields x.isNegative 0 := by
  rw [isZero, beq_iff_eq] at h
  have hself := ofFields_magnitude (x := x) (by rw [h]; exact Nat.zero_le _)
  rw [h] at hself
  exact hself.symm

theorem ratio_ne_zero (x : Binary64) : x.ratio.2 ≠ 0 := by
  simp only [ratio]
  split
  · exact Nat.one_ne_zero
  · exact Nat.ne_of_gt (Nat.two_pow_pos _)

/-- A finite number other than zero has a significand that is not zero and below `2 ^ 53`; unless
its exponent is the least, it is at least `2 ^ 52`. -/
theorem significand_bounds {x : Binary64} (hfinite : x.isFinite = true) (hzero : x.isZero = false) :
    0 < x.significand.1 ∧ x.significand.1 < 2 ^ 53 ∧
      -1074 ≤ x.significand.2 ∧ x.significand.2 ≤ 971 ∧
      (x.significand.2 = -1074 ∨ 2 ^ 52 ≤ x.significand.1) ∧
      magnitudeOf x.significand.1 x.significand.2 = x.magnitude := by
  rw [isFinite, decide_eq_true_eq] at hfinite
  rw [isZero, beq_eq_false_iff_ne] at hzero
  have hinfinity : infinityMagnitude = 2047 * 2 ^ 52 := rfl
  simp only [significand, magnitudeOf]
  by_cases hexponent : x.magnitude / 2 ^ 52 = 0
  · simp only [hexponent, if_true]
    have hsmall : x.magnitude < 2 ^ 52 := by omega
    rw [Nat.mod_eq_of_lt hsmall, if_pos hsmall]
    exact ⟨Nat.pos_of_ne_zero hzero, by omega, Int.le_refl _, by decide, .inl trivial, rfl⟩
  · simp only [hexponent, if_false]
    -- a normal number: the leading bit is not stored, and stands at `2 ^ 52`
    have hsplit := Nat.div_add_mod x.magnitude (2 ^ 52)
    have hmod := Nat.mod_lt x.magnitude (Nat.two_pow_pos 52)
    rw [if_neg (by omega)]
    refine ⟨by omega, by omega, by omega, by omega, by omega, ?_⟩
    rw [Nat.add_sub_cancel_left]
    have htoNat : ((x.magnitude / 2 ^ 52 : Nat) - 1075 + 1075 : Int).toNat =
        x.magnitude / 2 ^ 52 := by
      omega
    rw [htoNat]
    omega

theorem roundDiv_self (m : Nat) {d : Nat} (hd : 0 < d) : roundDiv (m * d) d = m := by
  have hdiv : m * d / d = m := Nat.mul_div_cancel m hd
  have hmod : m * d % d = 0 := Nat.mul_mod_left m d
  have hne : ((0 : Nat) == d) = false := beq_false_of_ne (Nat.ne_of_lt hd)
  simp [roundDiv, hdiv, hmod, hne]

/-- The quotient of a significand under its exponent is the significand. -/
theorem scaled_ratio (x : Binary64) :
    ∃ d, 0 < d ∧ scaled x.ratio.1 x.ratio.2 x.significand.2 = (x.significand.1 * d, d) := by
  rw [scaled, ratio]
  by_cases hq : 0 ≤ x.significand.2
  · refine ⟨2 ^ x.significand.2.toNat, Nat.two_pow_pos _, ?_⟩
    simp only [hq, if_true, Nat.one_mul]
  · refine ⟨2 ^ (-x.significand.2).toNat, Nat.two_pow_pos _, ?_⟩
    simp only [hq, if_false]

/-- A finite number other than zero is the nearest one to itself. -/
theorem nearestMagnitude_ratio {x : Binary64} (hfinite : x.isFinite = true)
    (hzero : x.isZero = false) : nearestMagnitude x.ratio.1 x.ratio.2 = x.magnitude := by
  obtain ⟨hpos, hlt, hle, -, hleast, hmagnitude⟩ := significand_bounds hfinite hzero
  obtain ⟨d, hd, hscaled⟩ := scaled_ratio x
  have hfloor : floorAt x.ratio.1 x.ratio.2 x.significand.2 = x.significand.1 := by
    rw [floorAt, hscaled]
    exact Nat.mul_div_cancel _ hd
  have hnum : x.ratio.1 ≠ 0 := by
    intro hnum
    rw [floorAt, hnum, scaled] at hfloor
    split at hfloor <;> simp at hfloor <;> omega
  have hexponent : IsExponent x.ratio.1 x.ratio.2 x.significand.2 := by
    refine ⟨hle, by omega, hleast.imp_right fun hnormal => ?_⟩
    have hhalf := floorAt_succ x.ratio.1 x.ratio.2 (x.significand.2 - 1)
    rw [Int.sub_add_cancel, hfloor] at hhalf
    omega
  rw [nearestMagnitude_eq hnum (ratio_ne_zero x) hexponent, hscaled, roundDiv_self _ hd, hmagnitude]

/-- A finite number other than zero rounds to itself. -/
theorem ofRatio_ratio {x : Binary64} (hfinite : x.isFinite = true) (hzero : x.isZero = false) :
    ofRatio x.isNegative x.ratio.1 x.ratio.2 = x := by
  rw [ofRatio, nearestMagnitude_ratio hfinite hzero]
  rw [isFinite, decide_eq_true_eq] at hfinite
  exact ofFields_magnitude (Nat.le_of_lt hfinite)

/-! ### The value of a rounded quotient -/

theorem isNegative_ofFields {magnitude : Nat} (h : magnitude ≤ infinityMagnitude)
    (negative : Bool) :
    (ofFields negative magnitude).isNegative = negative := by
  have hm : magnitude < 2 ^ 63 := Nat.lt_of_le_of_lt h (by decide)
  rw [ofFields, dif_pos h, isNegative, toNat_ofNat_fields h]
  cases negative
  · simpa using hm
  · simp

theorem roundDiv_bounds (num den : Nat) :
    num / den ≤ roundDiv num den ∧ roundDiv num den ≤ num / den + 1 := by
  simp only [roundDiv]
  split
  · exact ⟨Nat.le_succ _, Nat.le_refl _⟩
  · exact ⟨Nat.le_refl _, Nat.le_succ _⟩

theorem significand_of_magnitude {x : Binary64} {e f : Nat} (h : x.magnitude = e * 2 ^ 52 + f)
    (hf : f < 2 ^ 52) (he : e ≠ 0) : x.significand = (2 ^ 52 + f, (e : Int) - 1075) := by
  have hdiv : x.magnitude / 2 ^ 52 = e := by omega
  have hmod : x.magnitude % 2 ^ 52 = f := by omega
  simp only [significand, hdiv, hmod, he, if_false]

theorem ratio_of_significand {x : Binary64} {m k : Nat} (h : x.significand = (m, -(k : Int))) :
    x.ratio.1 * 2 ^ k = m * x.ratio.2 := by
  simp only [ratio, h]
  split
  · rename_i hk
    obtain rfl : k = 0 := by omega
    simp
  · rw [Int.neg_neg, Int.toNat_natCast]

/-- The pattern of `m · 2 ^ -s` has this value, also where `m` is the next power of two. -/
theorem ratio_ofFields_magnitudeOf {m s : Nat} (hm : 2 ^ 52 ≤ m) (hm' : m ≤ 2 ^ 53) (hs : 0 < s)
    (hs' : s ≤ 1074) (negative : Bool) :
    (ofFields negative (magnitudeOf m (-s))).ratio.1 * 2 ^ s =
      m * (ofFields negative (magnitudeOf m (-s))).ratio.2 := by
  obtain ⟨e, he⟩ : ∃ e, e + s = 1075 := ⟨1075 - s, by omega⟩
  have hinfinity : infinityMagnitude = 2047 * 2 ^ 52 := rfl
  have hmagnitude : magnitudeOf m (-s) = e * 2 ^ 52 + (m - 2 ^ 52) := by
    have hexponent : (-(s : Int) + 1075).toNat = e := by omega
    rw [magnitudeOf, if_neg (Nat.not_lt.2 hm), hexponent]
    omega
  have hx : (ofFields negative (magnitudeOf m (-s))).magnitude = magnitudeOf m (-s) :=
    magnitude_ofFields (by omega) negative
  generalize ofFields negative (magnitudeOf m (-s)) = x at hx ⊢
  rw [hmagnitude] at hx
  by_cases hlt : m < 2 ^ 53
  · have hsignificand := significand_of_magnitude hx (by omega) (by omega)
    have hfraction : 2 ^ 52 + (m - 2 ^ 52) = m := by omega
    have hexponent : (e : Int) - 1075 = -s := by omega
    rw [hfraction, hexponent] at hsignificand
    exact ratio_of_significand hsignificand
  · -- the fraction overflows into the exponent
    have hm_eq : m = 2 ^ 52 * 2 := by omega
    have hnext : x.magnitude = (e + 1) * 2 ^ 52 + 0 := by
      rw [hx, hm_eq]
      ring
    have hsignificand := significand_of_magnitude hnext (Nat.two_pow_pos 52) (Nat.succ_ne_zero e)
    have hexponent : ((e + 1 : Nat) : Int) - 1075 = -(s - 1 : Nat) := by omega
    rw [Nat.add_zero, hexponent] at hsignificand
    rw [← Nat.two_pow_pred_mul_two hs, ← Nat.mul_assoc, ratio_of_significand hsignificand, hm_eq]
    ring

/-- The value of a rounded quotient, when it is known where its leading binary digit stands. -/
theorem ratio_ofRatio {num den s : Nat} (hfloor : 2 ^ 52 ≤ num * 2 ^ s / den)
    (hlt : num * 2 ^ s / den < 2 ^ 53) (hs : 0 < s) (hs' : s ≤ 1074) (negative : Bool) :
    (ofRatio negative num den).ratio.1 * 2 ^ s =
        roundDiv (num * 2 ^ s) den * (ofRatio negative num den).ratio.2 ∧
      (ofRatio negative num den).isNegative = negative := by
  have hscaled : scaled num den (-s) = (num * 2 ^ s, den) := by
    rw [scaled, if_neg (by omega), Int.neg_neg, Int.toNat_natCast]
  have hnum : num ≠ 0 := by
    rintro rfl
    simp at hfloor
  have hden : den ≠ 0 := by
    rintro rfl
    simp at hfloor
  have hexponent : IsExponent num den (-s) :=
    isExponent_of_floorAt (by omega) (by rwa [floorAt, hscaled]) (by rwa [floorAt, hscaled])
  have hbounds := roundDiv_bounds (num * 2 ^ s) den
  rw [ofRatio, nearestMagnitude_eq hnum hden hexponent, hscaled]
  dsimp only
  refine ⟨ratio_ofFields_magnitudeOf (by omega) (by omega) hs hs' negative,
    isNegative_ofFields ?_ negative⟩
  rw [magnitudeOf, if_neg (by omega)]
  exact Nat.min_le_left _ _

/-! ### Powers of two -/

/-- A power of two has the significand `2 ^ 52`. -/
theorem scaled_two_pow (k : Nat) : ∃ d, 0 < d ∧ scaled (2 ^ k) 1 (k - 52) = (2 ^ 52 * d, d) := by
  rw [scaled]
  split
  · rename_i hle
    refine ⟨2 ^ ((k : Int) - 52).toNat, Nat.two_pow_pos _, ?_⟩
    have hk : k = 52 + ((k : Int) - 52).toNat := by omega
    rw [Nat.one_mul, ← Nat.pow_add, ← hk]
  · rename_i hlt
    refine ⟨1, Nat.one_pos, ?_⟩
    have hk : k + (-((k : Int) - 52)).toNat = 52 := by omega
    rw [← Nat.pow_add, hk, Nat.mul_one]

theorem isExponent_two_pow (k : Nat) : IsExponent (2 ^ k) 1 (k - 52) := by
  obtain ⟨d, hd, hscaled⟩ := scaled_two_pow k
  have hfloor : floorAt (2 ^ k) 1 (k - 52) = 2 ^ 52 := by
    rw [floorAt, hscaled]
    exact Nat.mul_div_cancel _ hd
  exact isExponent_of_floorAt (by omega) (by omega) (by omega)

theorem nearestMagnitude_two_pow (k : Nat) :
    nearestMagnitude (2 ^ k) 1 = min infinityMagnitude ((k + 1023) * 2 ^ 52) := by
  obtain ⟨d, hd, hscaled⟩ := scaled_two_pow k
  have hexponent : ((k : Int) - 52 + 1075).toNat = k + 1023 := by omega
  rw [nearestMagnitude_eq (Nat.ne_of_gt (Nat.two_pow_pos k)) Nat.one_ne_zero (isExponent_two_pow k),
    hscaled, roundDiv_self _ hd, magnitudeOf, if_neg (Nat.lt_irrefl _), hexponent, Nat.sub_self,
    Nat.add_zero]

/-- From `2 ^ 1024` on a power of two is infinite in double precision. -/
theorem isInfinite_ofInt_two_pow (k : Nat) : (ofInt (2 ^ k)).isInfinite = decide (1024 ≤ k) := by
  have habs : ((2 : Int) ^ k).natAbs = 2 ^ k := Int.natAbs_pow 2 k
  have hinfinity : infinityMagnitude = 2047 * 2 ^ 52 := rfl
  rw [isInfinite, ofInt, ofRatio, habs, magnitude_ofFields (by
    rw [nearestMagnitude_two_pow]; exact Nat.min_le_left _ _), nearestMagnitude_two_pow,
    Bool.eq_iff_iff, beq_iff_eq, decide_eq_true_eq]
  omega

end Binary64

end RepoGraph
