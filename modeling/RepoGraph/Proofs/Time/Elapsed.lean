import RepoGraph.Proofs.Number.Rounding
import RepoGraph.Time

/-!
# A span through seconds

A span of whole milliseconds is turned into seconds, in double precision, and back, and then its
fraction is cut off.  The seconds are rounded, and the product is rounded again.  Most products come
out as the span itself or a little above it.  Where the binary digits of the seconds are coarse
beside those of the product and the seconds were rounded down, the product stays below, and the cut
takes a whole millisecond: `LosesOne` says for which spans.

Main statement: `wholeMilliseconds_eq`.
-/

namespace RepoGraph

/-- Whether a span of so many milliseconds comes out one millisecond short.  Its seconds are less
than `1.024` times a power of two, so that a thousand units of their last binary digit are nearly
two units of that of the span, and they are rounded down by more than `0.256` of their unit. -/
def LosesOne (m : Nat) : Prop :=
  125 * 2 ^ m.log2 ≤ 64 * m ∧ 256 < m * 2 ^ (61 - m.log2) % 1000 ∧
    m * 2 ^ (61 - m.log2) % 1000 < 500

instance : DecidablePred LosesOne := fun _ => inferInstanceAs (Decidable (_ ∧ _ ∧ _))

/-- Whole seconds lose nothing. -/
theorem not_losesOne_seconds (s : Nat) : ¬ LosesOne (1000 * s) := by
  rintro ⟨-, hlost, -⟩
  rw [Nat.mul_assoc, Nat.mul_mod_right] at hlost
  exact absurd hlost (by decide)

/-- Nothing up to a second loses anything; the next millisecond is the first that is lost. -/
theorem not_losesOne_of_le {m : Nat} (h : m ≤ 1000) : ¬ LosesOne m := by
  have hall : ∀ m < 1001, ¬ LosesOne m := by decide +kernel
  exact hall m (Nat.lt_succ_of_le h)

example : LosesOne 1001 := by decide

namespace Binary64

variable {m e g : Nat}

/-- A count of thousandths turned into a number and back, when the leading binary digits of both
quotients are known. -/
theorem quotient_of_thousandths (he : 0 < e) (hg : e + g ≤ 1074)
    (hthere : 2 ^ 52 ≤ m * 2 ^ e * 2 ^ g / 1000) (hthere' : m * 2 ^ e * 2 ^ g / 1000 < 2 ^ 53)
    (hback : 2 ^ 52 ≤ roundDiv (m * 2 ^ e * 2 ^ g) 1000 * 1000 / 2 ^ g)
    (hback' : roundDiv (m * 2 ^ e * 2 ^ g) 1000 * 1000 / 2 ^ g < 2 ^ 53) (negative : Bool) :
    let x := ofRatio negative m 1000
    let y := ofRatio x.isNegative (x.ratio.1 * 1000) x.ratio.2
    y.ratio.1 / y.ratio.2 = roundDiv (roundDiv (m * 2 ^ e * 2 ^ g) 1000 * 1000) (2 ^ g) / 2 ^ e ∧
      y.isNegative = negative := by
  intro x y
  have hpos : 0 < 2 ^ e := Nat.two_pow_pos e
  have hpow : 2 ^ (e + g) = 2 ^ g * 2 ^ e := by rw [Nat.add_comm, Nat.pow_add]
  have hshift : m * 2 ^ (e + g) = m * 2 ^ e * 2 ^ g := by rw [Nat.pow_add, Nat.mul_assoc]
  obtain ⟨hx, hnegative⟩ := @ratio_ofRatio m 1000 (e + g)
    (by rwa [hshift]) (by rwa [hshift]) (by omega) hg negative
  rw [hshift] at hx
  -- the first number is `n / 2 ^ (e + g)`, whichever fraction stands for it
  generalize roundDiv (m * 2 ^ e * 2 ^ g) 1000 = n at hx hback hback' ⊢
  have hy : y = ofRatio negative (n * 1000) (2 ^ (e + g)) := by
    have hcross : x.ratio.1 * 1000 * 2 ^ (e + g) = n * 1000 * x.ratio.2 := by
      rw [Nat.mul_right_comm, hx, Nat.mul_right_comm]
    exact (congrArg (ofRatio · _ _) hnegative).trans
      (ofRatio_congr (ratio_ne_zero x) (Nat.two_pow_pos _).ne' hcross negative)
  have hdiv : n * 1000 * 2 ^ e / 2 ^ (e + g) = n * 1000 / 2 ^ g := by
    rw [hpow, Nat.mul_div_mul_right _ _ hpos]
  obtain ⟨hratio, hsign⟩ := @ratio_ofRatio (n * 1000) (2 ^ (e + g)) e
    (by rwa [hdiv]) (by rwa [hdiv]) he (by omega) negative
  rw [← hy, hpow, roundDiv_mul hpos] at hratio
  rw [← hy] at hsign
  have hden : 0 < y.ratio.2 := Nat.pos_of_ne_zero (ratio_ne_zero y)
  refine ⟨?_, hsign⟩
  calc y.ratio.1 / y.ratio.2
      = y.ratio.1 * 2 ^ e / (y.ratio.2 * 2 ^ e) := (Nat.mul_div_mul_right _ _ hpos).symm
    _ = roundDiv (n * 1000) (2 ^ g) * y.ratio.2 / (2 ^ e * y.ratio.2) := by
        rw [hratio, Nat.mul_comm y.ratio.2]
    _ = roundDiv (n * 1000) (2 ^ g) / 2 ^ e := Nat.mul_div_mul_right _ _ hden

/-! ### Units of the two roundings -/

/-- Where the result has five hundred and twelve times the unit of the seconds, it can be off by
one. -/
theorem roundDiv_fine (u : Nat) :
    let n := roundDiv (2 * u * 2 ^ 9) 1000
    let r := 2 * u * 2 ^ 9 % 1000
    (256 < r ∧ r < 500 → roundDiv (n * 1000) (2 ^ 9) = 2 * u - 1) ∧
      (¬ (256 < r ∧ r < 500) →
        roundDiv (n * 1000) (2 ^ 9) = 2 * u ∨ roundDiv (n * 1000) (2 ^ 9) = 2 * u + 1) := by
  simp only [roundDiv, Bool.or_eq_true, decide_eq_true_eq, Bool.and_eq_true, beq_iff_eq]
  split <;> split <;> omega

/-- Where it has more than a thousand times their unit, it is exact. -/
theorem roundDiv_coarse (t : Nat) : roundDiv (roundDiv (t * 2 ^ 10) 1000 * 1000) (2 ^ 10) = t := by
  simp only [roundDiv, Bool.or_eq_true, decide_eq_true_eq, Bool.and_eq_true, beq_iff_eq]
  split <;> split <;> omega

/-- In units of its last binary digit a count has fifty-three digits, and its loss shows in them. -/
theorem exists_units (hm : m ≠ 0) (hlt : m < 2 ^ 52) :
    ∃ e, 0 < e ∧ e ≤ 52 ∧ 2 ^ 52 ≤ m * 2 ^ e ∧ m * 2 ^ e < 2 ^ 53 ∧
      (LosesOne m ↔ 125 * 2 ^ 52 ≤ 64 * (m * 2 ^ e) ∧
        256 < m * 2 ^ e * 2 ^ 9 % 1000 ∧ m * 2 ^ e * 2 ^ 9 % 1000 < 500) := by
  have hlog : m.log2 < 52 := (Nat.log2_lt hm).2 hlt
  have hlower := Nat.log2_self_le hm
  have hupper := Nat.lt_log2_self (n := m)
  obtain ⟨e, he⟩ : ∃ e, m.log2 + e = 52 := ⟨52 - m.log2, by omega⟩
  have hpos : 0 < 2 ^ e := Nat.two_pow_pos e
  have hunit : 2 ^ m.log2 * 2 ^ e = 2 ^ 52 := by rw [← Nat.pow_add, he]
  have hshift : m * 2 ^ (61 - m.log2) = m * 2 ^ e * 2 ^ 9 := by
    have hsum : 61 - m.log2 = e + 9 := by omega
    rw [hsum, Nat.pow_add, Nat.mul_assoc]
  have hleading : 125 * 2 ^ m.log2 ≤ 64 * m ↔ 125 * 2 ^ 52 ≤ 64 * (m * 2 ^ e) := by
    rw [← hunit, ← Nat.mul_assoc, ← Nat.mul_assoc]
    exact (Nat.mul_le_mul_right_iff hpos).symm
  refine ⟨e, by omega, by omega, ?_, ?_, ?_⟩
  · rw [← hunit]
    exact Nat.mul_le_mul_right _ hlower
  · have hnext : 2 ^ (m.log2 + 1) * 2 ^ e = 2 ^ 53 := by
      rw [← Nat.pow_add, Nat.add_right_comm, he]
    rw [← hnext]
    exact Nat.mul_lt_mul_of_pos_right hupper hpos
  · rw [LosesOne, hleading, hshift]

/-- Both quotients have fifty-three digits. -/
theorem bounds_of_fine {u : Nat} (hupper : 2 * u < 2 ^ 53) (hfine : 125 * 2 ^ 52 ≤ 64 * (2 * u)) :
    2 ^ 52 ≤ 2 * u * 2 ^ 9 / 1000 ∧ 2 * u * 2 ^ 9 / 1000 < 2 ^ 53 ∧
      2 ^ 52 ≤ roundDiv (2 * u * 2 ^ 9) 1000 * 1000 / 2 ^ 9 ∧
      roundDiv (2 * u * 2 ^ 9) 1000 * 1000 / 2 ^ 9 < 2 ^ 53 := by
  obtain ⟨hshort, hkept⟩ := roundDiv_fine u
  have hbounds := roundDiv_bounds (roundDiv (2 * u * 2 ^ 9) 1000 * 1000) (2 ^ 9)
  have hround := (em _).elim (fun h => Or.inl (hshort h)) fun h => Or.inr (hkept h)
  exact ⟨by omega, by omega, by omega, by omega⟩

/-- Both quotients have fifty-three digits; below a power of two the units are halved, but a power
of two is rounded up. -/
theorem bounds_of_coarse {t : Nat} (hlower : 2 ^ 52 ≤ t) (hupper : t < 2 ^ 53)
    (hcoarse : 64 * t < 125 * 2 ^ 52) :
    2 ^ 52 ≤ t * 2 ^ 10 / 1000 ∧ t * 2 ^ 10 / 1000 < 2 ^ 53 ∧
      2 ^ 52 ≤ roundDiv (t * 2 ^ 10) 1000 * 1000 / 2 ^ 10 ∧
      roundDiv (t * 2 ^ 10) 1000 * 1000 / 2 ^ 10 < 2 ^ 53 := by
  have hround := roundDiv_coarse t
  have hbounds := roundDiv_bounds (roundDiv (t * 2 ^ 10) 1000 * 1000) (2 ^ 10)
  refine ⟨by omega, by omega, ?_, by omega⟩
  obtain rfl | hlarge := Nat.eq_or_lt_of_le hlower
  · decide
  · omega

theorem mul_sub_one_div {d : Nat} (hm : m ≠ 0) (hd : 0 < d) : (m * d - 1) / d = m - 1 := by
  obtain ⟨n, rfl⟩ := Nat.exists_eq_succ_of_ne_zero hm
  refine Nat.div_eq_of_lt_le ?_ ?_
  · rw [Nat.succ_sub_one, Nat.succ_mul]
    omega
  · rw [Nat.succ_sub_one]
    exact Nat.sub_lt (Nat.mul_pos (Nat.succ_pos n) hd) Nat.one_pos

theorem mul_add_one_div {d : Nat} (hd : 1 < d) : (m * d + 1) / d = m := by
  rw [Nat.add_comm, Nat.add_mul_div_right _ _ (by omega), Nat.div_eq_of_lt hd, Nat.zero_add]

/-- A count of thousandths turned into a number and back, without its fraction. -/
theorem quotient_eq (hm : m ≠ 0) (hlt : m < 2 ^ 52) (negative : Bool) :
    let x := ofRatio negative m 1000
    let y := ofRatio x.isNegative (x.ratio.1 * 1000) x.ratio.2
    y.ratio.1 / y.ratio.2 = (if LosesOne m then m - 1 else m) ∧ y.isNegative = negative := by
  intro x y
  obtain ⟨e, he, hle, hlower, hupper, hloses⟩ := exists_units hm hlt
  have hone : 1 < 2 ^ e := Nat.one_lt_two_pow he.ne'
  have hwhole : m * 2 ^ e / 2 ^ e = m := Nat.mul_div_cancel m (Nat.two_pow_pos e)
  by_cases hfine : 125 * 2 ^ 52 ≤ 64 * (m * 2 ^ e)
  · have hquotient := quotient_of_thousandths (m := m) (g := 9) he (by omega)
    -- in these units a count is even, so no tie goes against it
    obtain ⟨u, hu⟩ : ∃ u, m * 2 ^ e = 2 * u :=
      ⟨m * 2 ^ (e - 1), by rw [← Nat.two_pow_pred_mul_two he]; ring⟩
    obtain ⟨hshort, hkept⟩ := roundDiv_fine u
    have hbounds := bounds_of_fine (u := u) (by omega) (by omega)
    rw [← hu] at hshort hkept hbounds
    obtain ⟨hthere, hthere', hback, hback'⟩ := hbounds
    obtain ⟨hq, hsign⟩ := hquotient hthere hthere' hback hback' negative
    refine ⟨hq.trans ?_, hsign⟩
    by_cases hloss : 256 < m * 2 ^ e * 2 ^ 9 % 1000 ∧ m * 2 ^ e * 2 ^ 9 % 1000 < 500
    · rw [hshort hloss, if_pos (hloses.2 ⟨hfine, hloss⟩), mul_sub_one_div hm (by omega)]
    · rw [if_neg fun h => hloss (hloses.1 h).2]
      obtain hround | hround := hkept hloss
      · rw [hround, hwhole]
      · rw [hround, mul_add_one_div hone]
  · have hquotient := quotient_of_thousandths (m := m) (g := 10) he (by omega)
    obtain ⟨hthere, hthere', hback, hback'⟩ := bounds_of_coarse hlower hupper (by omega)
    obtain ⟨hq, hsign⟩ := hquotient hthere hthere' hback hback' negative
    refine ⟨hq.trans ?_, hsign⟩
    rw [roundDiv_coarse, hwhole, if_neg fun h => hfine (hloses.1 h).1]

end Binary64

/-- A span of whole milliseconds comes back exactly or one millisecond short. -/
theorem wholeMilliseconds_eq {d : Int} (h : d.natAbs < 2 ^ 52) :
    wholeMilliseconds (1000 * d) = if LosesOne d.natAbs then d - d.sign else d := by
  by_cases hzero : d = 0
  · subst hzero
    decide +kernel
  · have hm : d.natAbs ≠ 0 := Int.natAbs_ne_zero.2 hzero
    have hseconds : Binary64.ofRatio (decide (1000 * d < 0)) (1000 * d).natAbs 1000000 =
        Binary64.ofRatio (decide (d < 0)) d.natAbs 1000 := by
      have hsign : decide (1000 * d < 0) = decide (d < 0) := by
        rw [decide_eq_decide]
        omega
      rw [hsign]
      exact Binary64.ofRatio_congr (by decide) (by decide) (by omega) _
    -- what is truncated is the rounded quotient, which may lie just below the whole number
    obtain ⟨hquotient, hnegative⟩ := Binary64.quotient_eq hm h (decide (d < 0))
    rw [wholeMilliseconds, hseconds, Binary64.truncate, hquotient, hnegative]
    simp only [decide_eq_true_eq]
    rcases Int.lt_trichotomy d 0 with hd | hd | hd
    · rw [if_pos hd, Int.sign_eq_neg_one_of_neg hd]
      split <;> omega
    · exact absurd hd hzero
    · rw [if_neg (by omega), Int.sign_eq_one_of_pos hd]
      split <;> omega

end RepoGraph
