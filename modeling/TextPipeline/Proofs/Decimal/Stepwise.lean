import TextPipeline.Decimal.Stepwise
import TextPipeline.Proofs.Decimal.ReadBack

/-!
# Steps without loss

A whole number below `2 ^ 53` is a number of the binary64 format, and so is every power of ten up
to the twenty-second, as the power of five in it is below `2 ^ 53`.  If the digits of a decimal
fraction and its power of ten are such numbers, then only the last of the steps rounds, and the
number that comes out is the nearest to the fraction.
-/

namespace TextPipeline

namespace Double

/-- A whole number below `2 ^ 53` times a power of two is a number of the format. -/
theorem exists_units_eq (negative : Bool) {n k : Nat} (hn : n < 2 ^ 53) (hk : k ≤ 971) :
  ∃ d : Double, d.negative = negative ∧ d.units = n * 2 ^ k * Nat.pow 2 1074
  := by
  obtain rfl | hpos := Nat.eq_zero_or_pos n
  · use zero negative, rfl
    generalize Nat.pow 2 1074 = unit
    simp [units, zero]
  · -- the mantissa is filled up to 53 bits
    have hlog : n.log2 < 53 := (Nat.log2_lt (Nat.ne_of_gt hpos)).2 hn
    obtain ⟨shift, hshift⟩ : ∃ shift, n.log2 + shift = 52 := ⟨52 - n.log2, by omega⟩
    have hlow : 2 ^ 52 ≤ n * 2 ^ shift := by
      calc
        2 ^ 52 = 2 ^ n.log2 * 2 ^ shift := by rw [← Nat.pow_add, hshift]
        _ ≤ n * 2 ^ shift := Nat.mul_le_mul_right _ (Nat.log2_self_le (Nat.ne_of_gt hpos))
    have hhigh : n * 2 ^ shift < 2 ^ 53 := by
      have hsum : n.log2 + 1 + shift = 53 := by omega
      calc
        n * 2 ^ shift < 2 ^ (n.log2 + 1) * 2 ^ shift :=
          Nat.mul_lt_mul_of_pos_right Nat.lt_log2_self (Nat.two_pow_pos _)
        _ = 2 ^ 53 := by rw [← Nat.pow_add, hsum]
    use ⟨negative, n * 2 ^ shift, k + 1074 - shift, hhigh, by omega, .inr hlow⟩, rfl
    obtain ⟨u, hu⟩ : ∃ u, u = 1074 := ⟨_, rfl⟩
    simp only [units, ← hu, Nat.pow_eq]
    rw [Nat.mul_assoc, Nat.mul_assoc, ← Nat.pow_add, ← Nat.pow_add]
    congr 2
    omega

/-- A whole number that is a number of the format is the nearest to itself. -/
theorem nearest_eq_of_units {d : Double} {n : Nat} (h : d.units = n * Nat.pow 2 1074) :
  nearest d.negative n 1 = some d
  := by
  apply nearest_eq_self d Nat.one_pos
  rw [← h, Nat.mul_one]
  rfl

/-- A whole number below `2 ^ 53` is the nearest to itself. -/
theorem exists_nearest_eq (negative : Bool) {n : Nat} (hn : n < 2 ^ 53) :
  ∃ d, nearest negative n 1 = some d ∧ d.negative = negative ∧ d.units = n * Nat.pow 2 1074
  := by
  obtain ⟨d, rfl, hunits⟩ := exists_units_eq negative (k := 0) hn (Nat.zero_le _)
  rw [Nat.pow_zero, Nat.mul_one] at hunits
  exact ⟨d, nearest_eq_of_units hunits, rfl, hunits⟩

/-- The powers of ten up to the twenty-second are numbers of the format. -/
theorem exists_powerOfTen_eq {n : Nat} (hn : n ≤ 22) :
  ∃ p, powerOfTen n = some p ∧ p.units = 10 ^ n * Nat.pow 2 1074
  := by
  have hfive : 5 ^ n < 2 ^ 53 := by
    apply Nat.lt_of_le_of_lt (Nat.pow_le_pow_right (by decide) hn)
    decide
  obtain ⟨p, hsign, hunits⟩ := exists_units_eq false (k := n) hfive (by omega)
  rw [← Nat.mul_pow] at hunits
  refine ⟨p, ?_, hunits⟩
  rw [powerOfTen, ← hsign]
  apply nearest_eq_of_units hunits

/-- The inverse of the least number is not zero. -/
theorem unit_pos :
  0 < Nat.pow 2 1074
  := by
  have hpos : ∀ u, 0 < Nat.pow 2 u := Nat.two_pow_pos
  apply hpos

variable {d : Double} {m n : Nat}

/-- The product of a whole number with a power of ten is rounded once. -/
theorem raise_eq_nearest (h : d.units = m * Nat.pow 2 1074) (hn : n ≤ 22) :
  d.raise n = nearest d.negative (m * 10 ^ n) 1
  := by
  obtain ⟨p, hp, hunits⟩ := exists_powerOfTen_eq hn
  rw [raise, if_pos (Nat.le_trans hn (by decide)), hp, Option.bind_some, times, h, hunits]
  have hpos := unit_pos
  generalize Nat.pow 2 1074 = unit at hpos
  have hscale := nearest_mul_mul d.negative (m * 10 ^ n) 1 (Nat.mul_pos hpos hpos)
  rw [← hscale, Nat.one_mul, Nat.mul_mul_mul_comm]

/-- The quotient of a whole number by a power of ten is rounded once. -/
theorem lower_eq_nearest (h : d.units = m * Nat.pow 2 1074) (hn : n ≤ 22) :
  d.lower n = nearest d.negative m (10 ^ n)
  := by
  obtain ⟨p, hp, hunits⟩ := exists_powerOfTen_eq hn
  rw [lower, if_pos (Nat.le_trans hn (by decide)), hp, Option.bind_some, dividedBy, h, hunits]
  apply nearest_mul_mul d.negative m (10 ^ n) unit_pos

end Double

/-- The number that comes out of the steps is the nearest one, if the digits are few and the power
of ten is small. -/
theorem Decimal.stepwise_eq_toDouble (negative : Bool) {x : Decimal} (hdigits : x.digits < 2 ^ 53)
    (hexponent : x.exponent.natAbs ≤ 22) :
  x.stepwise negative = x.toDouble negative
  := by
  obtain ⟨d, hnearest, rfl, hunits⟩ := Double.exists_nearest_eq negative hdigits
  rw [toDouble_eq_nearest, stepwise, nearest, hnearest, Option.bind_some]
  cases hn : x.exponent with
  | ofNat n =>
    rw [hn] at hexponent
    apply Double.raise_eq_nearest hunits hexponent
  | negSucc n =>
    rw [hn] at hexponent
    apply Double.lower_eq_nearest hunits hexponent

/-- A power of ten that is no number of the format is rounded itself, and then the number that comes
out need not be the nearest one. -/
example : Decimal.stepwise false ⟨3, 23⟩ ≠ Decimal.toDouble false ⟨3, 23⟩ := by
  decide +kernel

end TextPipeline
