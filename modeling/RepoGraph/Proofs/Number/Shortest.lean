import RepoGraph.Proofs.Number.Rounding

/-!
# Numerals that read back

What `Decimal.toBinary64` makes of a numeral depends on its value alone: zeros may be added to the
digits or dropped from them.  The exact numeral of a finite number reads back, and so does the
shortest one, which was either tried or is the exact one.

Main statements: `Decimal.toBinary64_mul_pow`, `Decimal.toBinary64_shortest`.
-/

namespace RepoGraph

namespace Decimal

/-! ### Counting digits -/

theorem digitCount_of_pos {n : Nat} (h : 0 < n) : digitCount n = (Nat.toDigits 10 n).length :=
  if_neg (Nat.ne_of_gt h)

theorem digitCount_mul_ten {n : Nat} (h : 0 < n) : digitCount (n * 10) = digitCount n + 1 := by
  have hpos : 0 < n * 10 := Nat.mul_pos h (by decide)
  rw [digitCount_of_pos hpos, digitCount_of_pos h,
    Nat.toDigits_of_base_le (by decide) (Nat.le_mul_of_pos_left 10 h),
    Nat.mul_div_cancel n (by decide), List.length_append]
  rfl

theorem digitCount_mul_pow {n : Nat} (h : 0 < n) (k : Nat) :
    digitCount (n * 10 ^ k) = digitCount n + k := by
  induction k with
  | zero => rw [Nat.pow_zero, Nat.mul_one, Nat.add_zero]
  | succ k ih =>
    rw [Nat.pow_succ, ← Nat.mul_assoc, digitCount_mul_ten (Nat.mul_pos h (Nat.pow_pos (by decide))),
      ih, Nat.add_assoc]

theorem digitCount_le {n k : Nat} (h : n < 10 ^ k) : digitCount n ≤ k := by
  by_cases hn : n = 0
  · rw [digitCount, if_pos hn]
    exact Nat.zero_le _
  · have hk : 0 < k := by
      refine Nat.pos_of_ne_zero fun hk => ?_
      rw [hk, Nat.pow_zero] at h
      omega
    rw [digitCount_of_pos (Nat.pos_of_ne_zero hn)]
    exact (Nat.length_toDigits_le_iff (by decide) hk).2 h

theorem lt_digitCount {n k : Nat} (h : 10 ^ k ≤ n) : k < digitCount n := by
  have hn : 0 < n := Nat.lt_of_lt_of_le (Nat.pow_pos (by decide)) h
  by_contra hle
  rw [Nat.not_lt, digitCount_of_pos hn] at hle
  by_cases hk : k = 0
  · have := Nat.length_toDigits_pos (b := 10) (n := n)
    omega
  · have := (Nat.length_toDigits_le_iff (by decide) (Nat.pos_of_ne_zero hk)).1 hle
    omega

/-! ### Values -/

/-- The absolute value of a numeral as numerator and denominator. -/
def quotient (d : Decimal) : Nat × Nat :=
  if 0 ≤ d.exponent then (d.digits * 10 ^ d.exponent.toNat, 1)
  else (d.digits, 10 ^ (-d.exponent).toNat)

/-- How many digits stand before the point. -/
def top (d : Decimal) : Int := d.exponent + digitCount d.digits

theorem quotient_ne_zero (d : Decimal) : d.quotient.2 ≠ 0 := by
  rw [quotient]
  split
  · exact Nat.one_ne_zero
  · exact Nat.ne_of_gt (Nat.pow_pos (by decide))

theorem toBinary64_eq (d : Decimal) :
    d.toBinary64 =
      if d.digits = 0 then Binary64.ofFields d.negative 0
      else if 310 < d.top then Binary64.infinity d.negative
      else if d.top < -330 then Binary64.ofFields d.negative 0
      else Binary64.ofRatio d.negative d.quotient.1 d.quotient.2 := by
  rw [toBinary64, top, quotient]
  split
  · rfl
  · split
    · rfl
    · split
      · rfl
      · split <;> rfl

/-- Numerals of one value read the same. -/
theorem toBinary64_congr {d e : Decimal} (hnegative : d.negative = e.negative)
    (hdigits : d.digits ≠ 0) (hdigits' : e.digits ≠ 0) (htop : d.top = e.top)
    (hvalue : d.quotient.1 * e.quotient.2 = e.quotient.1 * d.quotient.2) :
    d.toBinary64 = e.toBinary64 := by
  rw [toBinary64_eq, toBinary64_eq, if_neg hdigits, if_neg hdigits', htop, hnegative,
    Binary64.ofRatio_congr (quotient_ne_zero d) (quotient_ne_zero e) hvalue]

/-- Zeros at the end of the digits do not matter if the exponent makes up for them. -/
theorem toBinary64_mul_pow (negative : Bool) (n k : Nat) (e : Int) :
    (Decimal.mk negative (n * 10 ^ k) (e - k)).toBinary64 =
      (Decimal.mk negative n e).toBinary64 := by
  by_cases hn : n = 0
  · rw [toBinary64_eq, toBinary64_eq]
    simp [hn]
  · have hpow : n * 10 ^ k ≠ 0 := Nat.mul_ne_zero hn (Nat.ne_of_gt (Nat.pow_pos (by decide)))
    refine toBinary64_congr rfl hpow hn ?_ ?_
    · simp only [top, digitCount_mul_pow (Nat.pos_of_ne_zero hn)]
      omega
    · -- the power of ten is multiplied by or divided by, by the signs of the two exponents
      simp only [quotient]
      by_cases he : 0 ≤ e
      · by_cases hk : 0 ≤ e - k
        · have hsum : e.toNat = k + (e - k).toNat := by omega
          rw [if_pos he, if_pos hk, hsum, Nat.pow_add]
          ring
        · have hsum : 10 ^ k = 10 ^ e.toNat * 10 ^ (-(e - k)).toNat := by
            rw [← Nat.pow_add]
            congr 1
            omega
          rw [if_pos he, if_neg hk, hsum]
          ring
      · have hk : ¬ 0 ≤ e - k := by omega
        have hsum : (-(e - k)).toNat = k + (-e).toNat := by omega
        rw [if_neg he, if_neg hk, hsum, Nat.pow_add]
        ring

theorem toBinary64_dropTrailingZeros (steps : Nat) (d : Decimal) :
    (dropTrailingZeros steps d).toBinary64 = d.toBinary64 := by
  induction steps generalizing d with
  | zero => rfl
  | succ steps ih =>
    rw [dropTrailingZeros]
    split
    · rename_i hzero
      simp only [Bool.and_eq_true, beq_iff_eq] at hzero
      have hdigits : d.digits / 10 * 10 ^ 1 = d.digits := by omega
      have hshift := toBinary64_mul_pow d.negative (d.digits / 10) 1 (d.exponent + 1)
      rw [hdigits] at hshift
      have hexponent : d.exponent + 1 - (1 : Nat) = d.exponent := by omega
      rw [hexponent] at hshift
      rw [ih, ← hshift]
    · rfl

theorem negative_dropTrailingZeros (steps : Nat) (d : Decimal) :
    (dropTrailingZeros steps d).negative = d.negative := by
  induction steps generalizing d with
  | zero => rfl
  | succ steps ih =>
    rw [dropTrailingZeros]
    split
    · exact ih _
    · rfl

theorem digits_dropTrailingZeros_ne_zero {d : Decimal} (h : d.digits ≠ 0) (steps : Nat) :
    (dropTrailingZeros steps d).digits ≠ 0 := by
  induction steps generalizing d with
  | zero => exact h
  | succ steps ih =>
    rw [dropTrailingZeros]
    split
    · rename_i hzero
      simp only [Bool.and_eq_true, beq_iff_eq] at hzero
      exact ih (by simp only; omega)
    · exact h

/-! ### Exact and shortest numerals -/

variable {x : Binary64}

/-- The exact numeral has the value of the number. -/
theorem quotient_exact (x : Binary64) :
    (exact x).quotient.1 * x.ratio.2 = x.ratio.1 * (exact x).quotient.2 := by
  simp only [exact, Binary64.ratio]
  by_cases hq : 0 ≤ x.significand.2
  · simp [hq, quotient]
  · have hten : 10 ^ (-x.significand.2).toNat =
        5 ^ (-x.significand.2).toNat * 2 ^ (-x.significand.2).toNat := by
      rw [← Nat.mul_pow]
    simp only [hq, if_false, quotient, hten]
    ring

theorem top_exact (hfinite : x.isFinite = true) (hzero : x.isZero = false) :
    (exact x).digits ≠ 0 ∧ (exact x).top ≤ 310 ∧ -330 ≤ (exact x).top := by
  obtain ⟨hpos, hlt, hle, hge, -, -⟩ := Binary64.significand_bounds hfinite hzero
  simp only [exact, top]
  generalize x.significand.1 = m at hpos hlt
  generalize x.significand.2 = q at hle hge
  -- a number with a power of two, or with a fraction: `m / 2 ^ k` is `m * 5 ^ k / 10 ^ k`
  by_cases hq : 0 ≤ q
  · simp only [hq, if_true]
    have hdigits : 0 < m * 2 ^ q.toNat := Nat.mul_pos hpos (Nat.two_pow_pos _)
    have hbound : m * 2 ^ q.toNat < 10 ^ 310 := by
      calc m * 2 ^ q.toNat ≤ 2 ^ 53 * 2 ^ 971 :=
            Nat.mul_le_mul (Nat.le_of_lt hlt) (Nat.pow_le_pow_right Nat.two_pos (by omega))
        _ < 10 ^ 310 := by decide +kernel
    have := digitCount_le hbound
    exact ⟨Nat.ne_of_gt hdigits, by omega, by omega⟩
  · simp only [hq, if_false]
    generalize hk : (-q).toNat = k
    have hfive : 0 < 5 ^ k := Nat.pow_pos (by decide)
    have hdigits : 0 < m * 5 ^ k := Nat.mul_pos hpos hfive
    have hupper : m * 5 ^ k < 10 ^ (16 + k) := by
      calc m * 5 ^ k < 2 ^ 53 * 5 ^ k := Nat.mul_lt_mul_of_pos_right hlt hfive
        _ ≤ 10 ^ 16 * 10 ^ k := Nat.mul_le_mul (by decide) (Nat.pow_le_pow_left (by decide) k)
        _ = 10 ^ (16 + k) := (Nat.pow_add _ _ _).symm
    have hcount := digitCount_le hupper
    refine ⟨Nat.ne_of_gt hdigits, by omega, ?_⟩
    -- with many places the number still has digits, for `2 ^ k` is less than `10 ^ 330`
    by_cases hsmall : k ≤ 330
    · omega
    · have hten : 10 ^ (k - 330) * 10 ^ 330 ≤ m * 5 ^ k * 10 ^ 330 := by
        calc 10 ^ (k - 330) * 10 ^ 330 = 5 ^ k * 2 ^ k := by
              rw [← Nat.pow_add, ← Nat.mul_pow, Nat.sub_add_cancel (by omega)]
          _ ≤ 5 ^ k * 10 ^ 330 := Nat.mul_le_mul_left _
              ((Nat.pow_le_pow_right Nat.two_pos (show k ≤ 1074 by omega)).trans
                (by decide +kernel))
          _ ≤ m * 5 ^ k * 10 ^ 330 := Nat.mul_le_mul_right _ (Nat.le_mul_of_pos_left _ hpos)
      have hpow (j : Nat) : 0 < 10 ^ j := Nat.pow_pos (by decide)
      have hlower := lt_digitCount (Nat.le_of_mul_le_mul_right hten (hpow 330))
      omega

/-- The exact numeral of a finite number reads back. -/
theorem toBinary64_exact (hfinite : x.isFinite = true) (hzero : x.isZero = false) :
    (exact x).toBinary64 = x := by
  obtain ⟨hdigits, hupper, hlower⟩ := top_exact hfinite hzero
  have hnegative : (exact x).negative = x.isNegative := by
    simp only [exact]
    split <;> rfl
  rw [toBinary64_eq, if_neg hdigits, if_neg (by omega), if_neg (by omega), hnegative,
    Binary64.ofRatio_congr (quotient_ne_zero _) (Binary64.ratio_ne_zero x) (quotient_exact x),
    Binary64.ofRatio_ratio hfinite hzero]

theorem negative_of_mem_gridNeighbours {e : Int} {d : Decimal} (h : d ∈ gridNeighbours x e) :
    d.negative = x.isNegative := by
  simp only [gridNeighbours] at h
  generalize (if 0 ≤ e then _ else _ : Nat × Nat) = quotient at h
  split at h <;> simp only [List.mem_cons, List.not_mem_nil, or_false] at h <;>
    rcases h with rfl | rfl <;> rfl

theorem negative_of_shortestFrom {p : Int} {steps n : Nat} {d : Decimal}
    (h : shortestFrom x p steps n = some d) : d.negative = x.isNegative := by
  induction steps generalizing n with
  | zero => cases h
  | succ steps ih =>
    rw [shortestFrom] at h
    split at h
    · rename_i found hfound
      cases h
      exact negative_of_mem_gridNeighbours (List.mem_of_find?_eq_some hfound)
    · exact ih h

/-- The shortest numeral of a finite number other than zero: it has its sign, some digit that is not
zero, and reads back. -/
theorem shortest_spec (hfinite : x.isFinite = true) (hzero : x.isZero = false) :
    (shortest x).negative = x.isNegative ∧ (shortest x).digits ≠ 0 ∧
      (shortest x).toBinary64 = x := by
  have hread (d : Decimal) (hd : d.toBinary64 = x) : d.digits ≠ 0 := by
    intro hdigits
    rw [toBinary64_eq, if_pos hdigits] at hd
    rw [← hd] at hzero
    revert hzero
    cases d.negative <;> decide
  rw [shortest, hzero, if_neg Bool.false_ne_true]
  simp only
  cases hfound : shortestFrom x (magnitude x.ratio.1 x.ratio.2) 17 1 with
  | none =>
    have hexact := toBinary64_exact hfinite hzero
    refine ⟨?_, hread _ hexact, hexact⟩
    simp only [exact, Option.getD_none]
    split <;> rfl
  | some d =>
    have hd := toBinary64_of_shortestFrom hfound
    exact ⟨negative_of_shortestFrom hfound, hread d hd, hd⟩

end Decimal

end RepoGraph
