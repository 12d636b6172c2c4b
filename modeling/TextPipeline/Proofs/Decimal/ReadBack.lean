import Mathlib.Algebra.Order.Ring.Nat
import TextPipeline.Decimal.Decimal

/-!
# Reading back decimal fractions

The number nearest to a quotient depends on the quotient alone, and so the number read from a
decimal fraction depends only on the value of the fraction.  A number is the nearest to itself.
Whichever fraction is taken as the shortest one for a number is therefore read back as that number.
-/

namespace TextPipeline

/-! ### Quotients -/

/-- Rounding does not see a common factor. -/
theorem roundHalfEven_mul_mul (num den : Nat) {c : Nat} (hc : 0 < c) :
  roundHalfEven (num * c) (den * c) = roundHalfEven num den
  := by
  have hrest : ∀ a b : Nat, 2 * (a * c) < b * c ↔ 2 * a < b := by
    intro a b
    rw [← Nat.mul_assoc, Nat.mul_lt_mul_right hc]
  have hrest' : ∀ a b : Nat, a * c < 2 * (b * c) ↔ a < 2 * b := by
    intro a b
    rw [← Nat.mul_assoc, Nat.mul_lt_mul_right hc]
  simp only [roundHalfEven, Nat.mul_div_mul_right _ _ hc, Nat.mul_mod_mul_right, hrest, hrest']

namespace Double

/-- The nearest number does not see a common factor. -/
theorem nearest_mul_mul (negative : Bool) (num den : Nat) {c : Nat} (hc : 0 < c) :
  nearest negative (num * c) (den * c) = nearest negative num den
  := by
  simp only [nearest]
  generalize Nat.pow 2 1074 = unit
  rw [Nat.mul_right_comm num c, Nat.mul_div_mul_right _ _ hc, Nat.mul_right_comm den c,
    roundHalfEven_mul_mul _ _ hc]

/-- The exponent of a number can be told from its multiple of the least number. -/
theorem exponent_eq (d : Double) :
  (if d.mantissa * 2 ^ d.exponent < 0x20000000000000 then 0
    else (d.mantissa * 2 ^ d.exponent).log2 - 52) = d.exponent
  := by
  obtain ⟨negative, m, e, hm, he, hfull⟩ := d
  obtain rfl | hpos := Nat.eq_zero_or_pos e
  · simp [hm]
  · have hleast : 0x10000000000000 ≤ m := by omega
    have hlow : 2 ^ (52 + e) ≤ m * 2 ^ e := by
      rw [Nat.pow_add]
      apply Nat.mul_le_mul_right _ hleast
    have hhigh : m * 2 ^ e < 2 ^ (52 + e + 1) := by
      rw [Nat.add_right_comm, Nat.pow_add]
      apply Nat.mul_lt_mul_of_pos_right hm (Nat.two_pow_pos e)
    have hbig : 2 ^ 53 ≤ m * 2 ^ e := by
      apply Nat.le_trans _ hlow
      apply Nat.pow_le_pow_right (by decide)
      omega
    have hlog : (m * 2 ^ e).log2 = 52 + e := by
      apply (Nat.log2_eq_iff _).mpr ⟨hlow, hhigh⟩
      omega
    simp only [hlog]
    rw [if_neg]
    · omega
    · omega

/-- The inverse of the least number as a product. -/
theorem two_pow_unit {a b : Nat} (h : a + b = 1074) :
  Nat.pow 2 1074 = 2 ^ a * 2 ^ b
  := by
  rw [← h, Nat.pow_eq, Nat.pow_add]

/-- A number is the nearest to every quotient that has its value. -/
theorem nearest_eq_self (d : Double) {num den : Nat} (hden : 0 < den)
    (h : num * Nat.pow 2 1074 = d.mantissa * 2 ^ d.exponent * den) :
  nearest d.negative num den = some d
  := by
  simp only [nearest]
  rw [h, Nat.mul_div_cancel _ hden, exponent_eq, Nat.pow_eq, Nat.mul_assoc,
    Nat.mul_comm (2 ^ d.exponent), roundHalfEven_mul_right]
  · apply ofParts_self
  · apply Nat.mul_pos hden (Nat.two_pow_pos _)

/-- Zero is read as zero. -/
theorem nearest_zero (negative : Bool) {den : Nat} (hden : 0 < den) :
  nearest negative 0 den = some (zero negative)
  := by
  apply nearest_eq_self (zero negative) hden
  generalize Nat.pow 2 1074 = unit
  simp [zero]

/-- A quotient that is less than half the least number is read as zero. -/
theorem nearest_eq_zero (negative : Bool) {num den : Nat}
    (h : 2 ^ (num.log2 + 1076) ≤ den) :
  nearest negative num den = some (zero negative)
  := by
  obtain ⟨u, hu⟩ : ∃ u, u = 1074 := ⟨_, rfl⟩
  simp only [nearest, ← hu]
  have hscaled : 2 * (num * Nat.pow 2 u) < den := by
    apply Nat.lt_of_lt_of_le _ h
    rw [show num.log2 + 1076 = (num.log2 + 1 + u) + 1 by omega, Nat.pow_succ, Nat.pow_add,
      Nat.mul_comm 2]
    apply Nat.mul_lt_mul_of_pos_right _ (by decide)
    apply Nat.mul_lt_mul_of_pos_right Nat.lt_log2_self (Nat.two_pow_pos u)
  generalize num * Nat.pow 2 u = scaled at hscaled ⊢
  have hsmall : scaled < den := by omega
  have hround : roundHalfEven scaled den = 0 := by
    simp [roundHalfEven, Nat.div_eq_of_lt hsmall, Nat.mod_eq_of_lt hsmall, hscaled]
  rw [Nat.div_eq_of_lt hsmall, if_pos (by decide), Nat.pow_eq, Nat.pow_zero, Nat.mul_one, hround]
  apply ofParts_self (zero negative)

/-- There is no number with an exponent beyond the greatest one. -/
theorem ofParts_eq_none (negative : Bool) (mantissa : Nat) {exponent : Nat}
    (h : 2045 < exponent) :
  ofParts negative mantissa exponent = none
  := by
  rw [ofParts, dif_neg (by omega), dif_neg (by omega)]

/-- A whole number beyond the greatest number has no nearest one. -/
theorem nearest_eq_none (negative : Bool) {num : Nat} (h : 2 ^ 1024 ≤ num) :
  nearest negative num 1 = none
  := by
  obtain ⟨u, hu⟩ : ∃ u, u = 1074 := ⟨_, rfl⟩
  simp only [nearest, Nat.div_one, ← hu]
  have hscaled : 2 ^ (1024 + u) ≤ num * Nat.pow 2 u := by
    rw [Nat.pow_add]
    apply Nat.mul_le_mul_right _ h
  generalize num * Nat.pow 2 u = scaled at hscaled ⊢
  have hne : scaled ≠ 0 := by
    have := Nat.two_pow_pos (1024 + u)
    omega
  have hlog : 1024 + u ≤ scaled.log2 := (Nat.le_log2 hne).mpr hscaled
  have hbig : ¬ scaled < 0x20000000000000 := by
    rw [Nat.not_lt]
    apply Nat.le_trans (m := 2 ^ (1024 + u)) _ hscaled
    apply Nat.pow_le_pow_right (n := 2) (i := 53) (by decide)
    omega
  rw [if_neg hbig]
  apply ofParts_eq_none
  omega

end Double

/-! ### Decimal fractions -/

namespace Decimal

/-- The number nearest to a fraction, without regard to the size of its exponent. -/
def nearest (negative : Bool) (x : Decimal) : Option Double :=
  match x.exponent with
  | .ofNat n => Double.nearest negative (x.digits * 10 ^ n) 1
  | .negSucc n => Double.nearest negative x.digits (10 ^ (n + 1))

/-- The exponents that are not raised to a power leave no doubt about the nearest number. -/
theorem toDouble_eq_nearest (negative : Bool) (x : Decimal) :
  x.toDouble negative = x.nearest negative
  := by
  obtain ⟨digits, exponent⟩ := x
  by_cases hzero : digits = 0
  · subst hzero
    cases exponent with
    | ofNat n => simp [toDouble, nearest, Double.nearest_zero]
    | negSucc n =>
      have hpos : 0 < 10 ^ (n + 1) := Nat.pow_pos (by decide)
      simp [toDouble, nearest, Double.nearest_zero _ hpos]
  · cases exponent with
    | ofNat n =>
      simp only [toDouble, nearest, hzero, if_false]
      split
      · next hlarge =>
        symm
        apply Double.nearest_eq_none
        have hpow : 2 ^ 1024 ≤ 10 ^ n := by
          apply Nat.le_trans (m := 8 ^ n)
          · rw [show 8 = 2 ^ 3 by rfl, ← Nat.pow_mul]
            apply Nat.pow_le_pow_right (by decide)
            omega
          · apply Nat.pow_le_pow_left (by decide)
        apply Nat.le_trans hpow
        apply Nat.le_mul_of_pos_left
        omega
      · rfl
    | negSucc n =>
      simp only [toDouble, nearest, hzero, if_false]
      split
      · next hsmall =>
        symm
        apply Double.nearest_eq_zero
        apply Nat.le_trans (m := 8 ^ (n + 1))
        · rw [show 8 = 2 ^ 3 by rfl, ← Nat.pow_mul]
          apply Nat.pow_le_pow_right (by decide)
          omega
        · apply Nat.pow_le_pow_left (by decide)
      · rfl

/-- A zero moved from the digits to the exponent changes nothing. -/
theorem nearest_mul_ten (negative : Bool) (digits : Nat) (exponent : Int) :
  nearest negative ⟨digits * 10, exponent⟩ = nearest negative ⟨digits, exponent + 1⟩
  := by
  match exponent with
  | .ofNat n =>
    have hnext : (Int.ofNat n + 1 : Int) = Int.ofNat (n + 1) := rfl
    simp only [nearest, hnext]
    rw [Nat.mul_assoc, ← Nat.pow_succ']
  | .negSucc 0 =>
    have hnext : (Int.negSucc 0 + 1 : Int) = Int.ofNat 0 := rfl
    simp only [nearest, hnext]
    rw [Nat.pow_zero, Nat.mul_one, Nat.zero_add, Nat.pow_one]
    have hscale := Double.nearest_mul_mul negative digits 1 (c := 10) (by decide)
    rw [Nat.one_mul] at hscale
    apply hscale
  | .negSucc (n + 1) =>
    have hnext : (Int.negSucc (n + 1) + 1 : Int) = Int.negSucc n := rfl
    simp only [nearest, hnext]
    rw [Nat.pow_succ 10 (n + 1)]
    apply Double.nearest_mul_mul
    decide

/-- Digits that are multiplied by a power of ten are read like an exponent that is greater by
it. -/
theorem toDouble_mul_pow (negative : Bool) (digits k : Nat) (exponent : Int) :
  toDouble negative ⟨digits * 10 ^ k, exponent⟩ = toDouble negative ⟨digits, exponent + k⟩
  := by
  rw [toDouble_eq_nearest, toDouble_eq_nearest]
  induction k generalizing exponent with
  | zero => simp
  | succ k ih =>
    rw [Nat.pow_succ, ← Nat.mul_assoc, nearest_mul_ten, ih, Int.add_right_comm, Int.add_assoc]
    rfl

/-- Zeros at the end of the digits make no difference to the number that is read. -/
theorem toDouble_trimZeros (negative : Bool) (x : Decimal) :
  x.trimZeros.toDouble negative = x.toDouble negative
  := by
  fun_induction trimZeros x with
  | case1 x hzero => simp [toDouble, hzero]
  | case2 x hne hten ih =>
    rw [ih, toDouble_eq_nearest, toDouble_eq_nearest, ← nearest_mul_ten]
    rw [Nat.div_mul_cancel (Nat.dvd_of_mod_eq_zero hten)]
  | case3 x hne hten => rfl

/-- Without zeros at its end, zero has no exponent. -/
theorem exponent_trimZeros {x : Decimal} (h : x.trimZeros.digits = 0) :
  x.trimZeros.exponent = 0
  := by
  fun_induction trimZeros x with
  | case1 x hzero => rfl
  | case2 x hne hten ih => apply ih h
  | case3 x hne hten => exact absurd h hne

end Decimal

/-! ### The shortest fraction -/

namespace Double

/-- The exact fraction of a number is read back. -/
theorem toDouble_exact (d : Double) :
  d.exact.toDouble d.negative = some d
  := by
  rw [Decimal.toDouble_eq_nearest, exact]
  split
  · next hlarge =>
    show nearest d.negative (d.mantissa * Nat.pow 2 (d.exponent - 1074) * 10 ^ 0) 1 = some d
    apply nearest_eq_self d (by decide)
    rw [Nat.pow_zero, Nat.mul_one, Nat.mul_one, Nat.mul_assoc]
    generalize 1074 = u at hlarge ⊢
    rw [Nat.pow_eq, Nat.pow_eq, ← Nat.pow_add, Nat.sub_add_cancel hlarge]
  · next hsmall =>
    obtain ⟨k, hk⟩ : ∃ k, d.exponent + (k + 1) = 1074 := ⟨1073 - d.exponent, by omega⟩
    have hexponent : (d.exponent : Int) - 1074 = Int.negSucc k := by omega
    have hpower : 1074 - d.exponent = k + 1 := by omega
    rw [hexponent, hpower]
    apply nearest_eq_self d (Nat.pow_pos (by decide))
    rw [two_pow_unit hk]
    show d.mantissa * 5 ^ (k + 1) * (2 ^ d.exponent * 2 ^ (k + 1))
      = d.mantissa * 2 ^ d.exponent * 10 ^ (k + 1)
    rw [Nat.mul_mul_mul_comm, ← Nat.mul_pow]

/-- The shortest fraction of a number is read back. -/
theorem toDouble_shortest (tie : Tie) (d : Double) :
  (d.shortest tie).toDouble d.negative = some d
  := by
  obtain h | h := d.shortest_readsBack tie
  · apply h
  · rw [h, Decimal.toDouble_trimZeros, toDouble_exact]

/-- The shortest fraction of a number has no zeros at its end. -/
theorem exists_shortest_eq_trimZeros (tie : Tie) (d : Double) :
  ∃ x : Decimal, d.shortest tie = x.trimZeros
  := by
  simp only [shortest]
  cases h : List.find? _ _ with
  | none =>
    use d.exact
    rfl
  | some x =>
    have hmem := List.mem_of_find?_eq_some h
    simp only [List.mem_flatMap, List.mem_map] at hmem
    obtain ⟨n, -, y, -, hy⟩ := hmem
    use y, hy.symm

/-- The shortest fraction of a zero has no exponent. -/
theorem exponent_shortest {tie : Tie} {d : Double} (h : (d.shortest tie).digits = 0) :
  (d.shortest tie).exponent = 0
  := by
  obtain ⟨x, hx⟩ := d.exists_shortest_eq_trimZeros tie
  rw [hx] at h ⊢
  apply Decimal.exponent_trimZeros h

end Double

end TextPipeline
