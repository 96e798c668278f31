import BorderControl.Decimal
import Mathlib.Algebra.Order.Field.Basic
import Mathlib.Algebra.Order.Field.Rat
import Mathlib.Data.Nat.Cast.Order.Field
import Mathlib.Tactic.FieldSimp
import Mathlib.Tactic.Linarith
import Mathlib.Tactic.NormNum
import Mathlib.Tactic.Positivity
import Mathlib.Tactic.Ring

/-!
# Decimals as rational numbers

A decimal stands for a rational number (`Decimal.value`), and the rational numbers that have a
decimal are those with a whole numerator below 2⁹⁶ over a power of ten up to the 28th
(`IsDecimal`). Sums, differences and products are those of the rational numbers wherever that
result has a decimal, and fail exactly where it is too large (`IsTooLarge`): where it comes to 2⁹⁶
or more when it is rounded to a whole number. Both follow from what `fit?` does to one coefficient
over one power of ten (`fit?_eq_none_iff`, `fit?_exact`). Decimals are compared by value
(`le_iff`).
-/

namespace BorderControl

/-! ## Rounding -/

theorem roundHalfEven_of_dvd {n d : ℕ} (hd : 0 < d) (h : d ∣ n) : roundHalfEven n d = n / d := by
  simp [roundHalfEven, Nat.mod_eq_zero_of_dvd h, hd]

theorem le_roundHalfEven (n d : ℕ) : n / d ≤ roundHalfEven n d := by
  simp only [roundHalfEven]
  split
  · exact Nat.le_refl _
  · split <;> omega

theorem roundHalfEven_le (n d : ℕ) : roundHalfEven n d ≤ n / d + 1 := by
  simp only [roundHalfEven]
  split
  · omega
  · split <;> omega

/-- A quotient is rounded up to an even number from half a unit below it. -/
theorem roundHalfEven_lt_iff {n d : ℕ} (hd : 0 < d) (m : ℕ) :
    roundHalfEven n d < 2 * m ↔ 2 * n + d < 2 * (2 * m * d) := by
  have hn := Nat.div_add_mod n d
  have hr := Nat.mod_lt n hd
  have hle := le_roundHalfEven n d
  have hge := roundHalfEven_le n d
  rcases Nat.lt_trichotomy (n / d + 1) (2 * m) with hlt | heq | hgt
  · have hmul : (n / d + 2) * d ≤ 2 * m * d := Nat.mul_le_mul_right d hlt
    rw [Nat.add_mul, Nat.mul_comm (n / d)] at hmul
    exact iff_of_true (by omega) (by omega)
  · -- only here does the remainder decide
    rw [← heq, Nat.add_mul, Nat.mul_comm (n / d), roundHalfEven]
    split
    · exact iff_of_true (by omega) (by omega)
    · refine iff_of_false ?_ (by omega)
      split <;> omega
  · have hmul : 2 * m * d ≤ n / d * d := Nat.mul_le_mul_right d (by omega)
    rw [Nat.mul_comm (n / d)] at hmul
    exact iff_of_false (by omega) (by omega)

/-! ## Values -/

/-- The number is a whole number below 2⁹⁶ over a power of ten, up to the 28th. -/
def IsDecimal (q : ℚ) : Prop :=
  ∃ (n : ℤ) (scale : ℕ), n.natAbs < 2 ^ 96 ∧ scale ≤ 28 ∧ q = n / 10 ^ scale

/-- The number comes to 2⁹⁶ or more, on either side of zero, when it is rounded to a whole number
with ties to even. -/
def IsTooLarge (q : ℚ) : Prop := 2 ^ 96 - 1 / 2 ≤ |q|

namespace Decimal

/-- The number that the decimal stands for. -/
def value (d : Decimal) : ℚ := d.coefficient / 10 ^ d.scale

@[simp] theorem signed_false (n : ℕ) : signed false n = n := rfl

@[simp] theorem signed_true (n : ℕ) : signed true n = -n := rfl

@[simp] theorem value_mk (negative : Bool) (magnitude scale : ℕ) (fits : magnitude < 1 <<< 96)
    (scale_le : scale ≤ 28) : value ⟨negative, magnitude, scale, fits, scale_le⟩ =
      signed negative magnitude / 10 ^ scale := rfl

theorem natAbs_coefficient (d : Decimal) : d.coefficient.natAbs = d.magnitude := by
  unfold coefficient signed
  split <;> simp

theorem isDecimal_value (d : Decimal) : IsDecimal d.value :=
  ⟨d.coefficient, d.scale, d.natAbs_coefficient ▸ d.fits, d.scale_le, rfl⟩

theorem value_eq_zero_iff (d : Decimal) : d.value = 0 ↔ d.isZero = true := by
  rw [value, div_eq_zero_iff, Int.cast_eq_zero, ← Int.natAbs_eq_zero, natAbs_coefficient, isZero,
    beq_iff_eq]
  simp

@[simp] theorem value_zero : zero.value = 0 := by simp [zero]

@[simp] theorem value_ten : ten.value = 10 := by simp [ten]

@[simp] theorem value_hundred : hundred.value = 100 := by simp [hundred]

@[simp] theorem value_abs (d : Decimal) : d.abs.value = |d.value| := by
  have hpos : (0 : ℚ) < 10 ^ d.scale := by positivity
  have hcoefficient : d.abs.coefficient = |d.coefficient| := by
    rw [Int.abs_eq_natAbs, natAbs_coefficient]
    rfl
  rw [value, value, abs_div, abs_of_pos hpos, hcoefficient, Int.cast_abs]
  rfl

/-- Decimals are compared by value. -/
theorem le_iff (a b : Decimal) : a.le b = true ↔ a.value ≤ b.value := by
  have ha : (0 : ℚ) < 10 ^ a.scale := by positivity
  have hb : (0 : ℚ) < 10 ^ b.scale := by positivity
  rw [le, decide_eq_true_eq, value, value, div_le_div_iff₀ ha hb]
  simp only [tenTo, Nat.pow_eq]
  exact_mod_cast Iff.rfl

/-! ## Results that fit -/

theorem ofParts?_eq_some (negative : Bool) {magnitude scale : ℕ} (hfits : magnitude < 2 ^ 96)
    (hscale : scale ≤ 28) :
    ∃ d, ofParts? negative magnitude scale = some d ∧
      d.value = signed negative magnitude / 10 ^ scale := by
  have hfits' : magnitude < 1 <<< 96 := hfits
  exact ⟨_, by rw [ofParts?, dif_pos hfits', dif_pos hscale], rfl⟩

theorem signed_natAbs (n : ℤ) : signed (decide (n < 0)) n.natAbs = n := by
  unfold signed
  split
  · next h => rw [decide_eq_true_eq] at h; omega
  · next h => rw [decide_eq_true_eq] at h; omega

theorem signed_mul (negative : Bool) (a b : ℕ) :
    signed negative (a * b) = a * signed negative b := by
  cases negative <;> simp [signed]

/-- Without its last `k` digits, the number leaves a whole part and a scale that fit. -/
def CanDrop (n : ℤ) (scale k : ℕ) : Prop := n.natAbs / 10 ^ k < 2 ^ 96 ∧ scale - k ≤ 28

/-- A number that is no decimal without all its places is none at all. Otherwise as few digits as
possible are rounded away, and one more if rounding reaches 2⁹⁶. -/
theorem fit?_cases (n : ℤ) (scale : ℕ) :
    (¬ CanDrop n scale scale ∧ fit? n scale = none) ∨
      ∃ drop ≤ scale, CanDrop n scale drop ∧ (∀ k < drop, ¬ CanDrop n scale k) ∧
        fit? n scale =
          if roundHalfEven n.natAbs (10 ^ drop) < 2 ^ 96 then
            ofParts? (n < 0) (roundHalfEven n.natAbs (10 ^ drop)) (scale - drop)
          else if drop < scale then
            ofParts? (n < 0) (roundHalfEven (roundHalfEven n.natAbs (10 ^ drop)) 10)
              (scale - drop - 1)
          else none := by
  have hcan : ∀ k, (decide (n.natAbs / tenTo k < 1 <<< 96) && decide (scale - k ≤ 28)) = true ↔
      CanDrop n scale k := by
    intro k
    rw [Bool.and_eq_true, decide_eq_true_eq, decide_eq_true_eq]
    exact Iff.rfl
  unfold fit?
  cases hdrop : (List.range (scale + 1)).find? fun k =>
      n.natAbs / tenTo k < 1 <<< 96 && scale - k ≤ 28 with
  | none =>
    have hnot := List.find?_range_eq_none.mp hdrop scale (Nat.lt_succ_self scale)
    rw [Bool.not_eq_true', ← Bool.not_eq_true, hcan] at hnot
    exact Or.inl ⟨hnot, rfl⟩
  | some drop =>
    obtain ⟨hdrop, hrange, hmin⟩ := List.find?_range_eq_some.mp hdrop
    rw [List.mem_range, Nat.lt_succ_iff] at hrange
    refine Or.inr ⟨drop, hrange, (hcan drop).mp hdrop, fun k hk => ?_, rfl⟩
    rw [← hcan, Bool.not_eq_true]
    exact Bool.not_eq_true' _ ▸ hmin k hk

theorem ofParts?_ne_none {negative : Bool} {magnitude scale : ℕ} (hfits : magnitude < 2 ^ 96)
    (hscale : scale ≤ 28) : ofParts? negative magnitude scale ≠ none := by
  obtain ⟨d, hd, -⟩ := ofParts?_eq_some negative hfits hscale
  simp [hd]

/-- A number over a power of ten is no decimal from half a unit below 2⁹⁶ on. -/
theorem fit?_eq_none_iff (n : ℤ) (scale : ℕ) :
    fit? n scale = none ↔ 2 * (2 ^ 96 * 10 ^ scale) ≤ 2 * n.natAbs + 10 ^ scale := by
  have hpow : 0 < 10 ^ scale := by positivity
  rcases fit?_cases n scale with ⟨hnot, hnone⟩ | ⟨drop, hle, ⟨hwhole, hscale⟩, -, hfit⟩
  · rw [hnone]
    have hlarge : 2 ^ 96 ≤ n.natAbs / 10 ^ scale := by
      by_contra h
      exact hnot ⟨Nat.not_le.mp h, by omega⟩
    have := (Nat.le_div_iff_mul_le hpow).mp hlarge
    exact iff_of_true rfl (by omega)
  · rw [hfit]
    rcases Nat.lt_or_eq_of_le hle with hlt | rfl
    · -- some places are kept, so the number is a tenth of 2⁹⁶ at most
      have hsmall := (Nat.div_lt_iff_lt_mul (by positivity)).mp hwhole
      have hten : 10 ^ drop * 10 ≤ 10 ^ scale := by
        rw [← pow_succ]
        exact Nat.pow_le_pow_right (by decide) hlt
      have hkept := roundHalfEven_le n.natAbs (10 ^ drop)
      have hagain := roundHalfEven_le (roundHalfEven n.natAbs (10 ^ drop)) 10
      refine iff_of_false ?_ (by omega)
      by_cases hfits : roundHalfEven n.natAbs (10 ^ drop) < 2 ^ 96
      · rw [if_pos hfits]
        exact ofParts?_ne_none hfits hscale
      · rw [if_neg hfits, if_pos hlt]
        exact ofParts?_ne_none (by omega) (by omega)
    · have hround : roundHalfEven n.natAbs (10 ^ drop) < 2 ^ 96 ↔
          2 * n.natAbs + 10 ^ drop < 2 * (2 ^ 96 * 10 ^ drop) :=
        roundHalfEven_lt_iff hpow (2 ^ 95)
      by_cases hfits : roundHalfEven n.natAbs (10 ^ drop) < 2 ^ 96
      · rw [if_pos hfits]
        exact iff_of_false (ofParts?_ne_none hfits hscale) (Nat.not_le.mpr (hround.mp hfits))
      · rw [if_neg hfits, if_neg (Nat.lt_irrefl drop)]
        exact iff_of_true rfl (Nat.not_lt.mp (mt hround.mpr hfits))

theorem CanDrop.mono {n : ℤ} {scale k k' : ℕ} (h : CanDrop n scale k) (hle : k ≤ k') :
    CanDrop n scale k' := by
  have hdiv : n.natAbs / 10 ^ k' ≤ n.natAbs / 10 ^ k :=
    Nat.div_le_div_left (Nat.pow_le_pow_right (by decide) hle) (by positivity)
  exact ⟨hdiv.trans_lt h.1, by have := h.2; omega⟩

/-- At the places of a decimal of the same value all further digits can go, and are zeros. -/
theorem canDrop_of_isDecimal {n : ℤ} {scale : ℕ} (h : IsDecimal (n / 10 ^ scale)) :
    ∃ k ≤ scale, CanDrop n scale k ∧ 10 ^ k ∣ n.natAbs := by
  obtain ⟨m, places, hm, hplaces, heq⟩ := h
  rw [div_eq_div_iff (by positivity) (by positivity)] at heq
  have hcross : n.natAbs * 10 ^ places = m.natAbs * 10 ^ scale := by
    have hint : n * 10 ^ places = m * 10 ^ scale := by exact_mod_cast heq
    simpa [Int.natAbs_mul, Int.natAbs_pow] using congrArg Int.natAbs hint
  refine ⟨scale - places, Nat.sub_le _ _, ?_⟩
  rcases Nat.le_total places scale with hle | hle
  · have hn : n.natAbs = m.natAbs * 10 ^ (scale - places) := by
      refine Nat.eq_of_mul_eq_mul_right (show 0 < 10 ^ places by positivity) ?_
      rw [hcross, Nat.mul_assoc, Nat.pow_sub_mul_pow 10 hle]
    rw [CanDrop, hn, Nat.mul_div_cancel _ (by positivity)]
    exact ⟨⟨hm, by omega⟩, Nat.dvd_mul_left _ _⟩
  · have hn : n.natAbs * 10 ^ (places - scale) = m.natAbs := by
      refine Nat.eq_of_mul_eq_mul_right (show 0 < 10 ^ scale by positivity) ?_
      rw [← hcross, Nat.mul_assoc, Nat.pow_sub_mul_pow 10 hle]
    have hsmall : n.natAbs ≤ m.natAbs := hn ▸ Nat.le_mul_of_pos_right _ (by positivity)
    rw [CanDrop, Nat.sub_eq_zero_of_le hle, pow_zero, Nat.div_one]
    exact ⟨⟨by omega, by omega⟩, Nat.one_dvd _⟩

/-- A number that has a decimal is found exactly. -/
theorem fit?_exact {n : ℤ} {scale : ℕ} (h : IsDecimal (n / 10 ^ scale)) :
    ∃ d, fit? n scale = some d ∧ d.value = n / 10 ^ scale := by
  obtain ⟨k, hk, hcan, hzeros⟩ := canDrop_of_isDecimal h
  rcases fit?_cases n scale with ⟨hnot, -⟩ | ⟨drop, hle, hdrop, hmin, hfit⟩
  · exact absurd (hcan.mono hk) hnot
  -- no more digits go than the zeros, so that nothing is rounded
  have hdvd : 10 ^ drop ∣ n.natAbs :=
    (Nat.pow_dvd_pow 10 (Nat.not_lt.mp fun hlt => hmin k hlt hcan)).trans hzeros
  rw [roundHalfEven_of_dvd (by positivity) hdvd, if_pos hdrop.1] at hfit
  obtain ⟨d, hd, hvalue⟩ := ofParts?_eq_some (decide (n < 0)) hdrop.1 hdrop.2
  refine ⟨d, hfit.trans hd, hvalue.trans ?_⟩
  obtain ⟨kept, hkept⟩ := hdvd
  have hn : n = (10 ^ drop : ℕ) * signed (decide (n < 0)) kept :=
    calc n = signed (decide (n < 0)) n.natAbs := (signed_natAbs n).symm
      _ = signed (decide (n < 0)) (10 ^ drop * kept) := by rw [hkept]
      _ = (10 ^ drop : ℕ) * signed (decide (n < 0)) kept := signed_mul ..
  rw [hkept, Nat.mul_div_cancel_left _ (by positivity)]
  generalize signed (decide (n < 0)) kept = c at hn
  rw [hn, ← pow_mul_pow_sub (10 : ℚ) hle]
  push_cast
  rw [mul_div_mul_left _ _ (by positivity)]

/-! ## Arithmetic -/

/-- Half a unit below 2⁹⁶ a number over a power of ten is too large. -/
theorem isTooLarge_iff (n : ℤ) (scale : ℕ) : IsTooLarge (n / 10 ^ scale) ↔
    2 * (2 ^ 96 * 10 ^ scale) ≤ 2 * n.natAbs + 10 ^ scale := by
  have hpos : (0 : ℚ) < 10 ^ scale := by positivity
  have habs : |(n : ℚ)| = n.natAbs := by rw [Nat.cast_natAbs, Int.cast_abs]
  rw [IsTooLarge, abs_div, abs_of_pos hpos, habs, le_div_iff₀ hpos]
  constructor
  · intro h
    have : (2 * (2 ^ 96 * 10 ^ scale) : ℚ) ≤ 2 * n.natAbs + 10 ^ scale := by linarith
    exact_mod_cast this
  · intro h
    have : (2 * (2 ^ 96 * 10 ^ scale) : ℚ) ≤ 2 * n.natAbs + 10 ^ scale := by exact_mod_cast h
    linarith

theorem value_coefficientAt {d : Decimal} {scale : ℕ} (h : d.scale ≤ scale) :
    (d.coefficientAt scale : ℚ) / 10 ^ scale = d.value := by
  rw [coefficientAt, value, ← pow_sub_mul_pow (10 : ℚ) h, tenTo, Nat.pow_eq]
  push_cast
  rw [mul_comm, mul_div_mul_left _ _ (by positivity)]

section Results

variable (a b : Decimal)

/-- What an operation gives for the number that it is to give: a decimal of that number exactly if
it has one, and nothing if it is too large. -/
structure Gives (result : Option Decimal) (q : ℚ) : Prop where
  exact_iff : (∃ d, result = some d ∧ d.value = q) ↔ IsDecimal q
  none_iff : result = none ↔ IsTooLarge q

theorem gives_fit? (n : ℤ) (scale : ℕ) : Gives (fit? n scale) (n / 10 ^ scale) where
  exact_iff := by
    refine ⟨?_, fit?_exact⟩
    rintro ⟨d, -, hvalue⟩
    exact hvalue ▸ d.isDecimal_value
  none_iff := (fit?_eq_none_iff n scale).trans (isTooLarge_iff n scale).symm

theorem gives_add? : Gives (a.add? b) (a.value + b.value) := by
  have h := gives_fit? (a.coefficientAt (max a.scale b.scale) +
    b.coefficientAt (max a.scale b.scale)) (max a.scale b.scale)
  rwa [Int.cast_add, add_div, value_coefficientAt (Nat.le_max_left ..),
    value_coefficientAt (Nat.le_max_right ..)] at h

theorem gives_sub? : Gives (a.sub? b) (a.value - b.value) := by
  have h := gives_fit? (a.coefficientAt (max a.scale b.scale) -
    b.coefficientAt (max a.scale b.scale)) (max a.scale b.scale)
  rwa [Int.cast_sub, sub_div, value_coefficientAt (Nat.le_max_left ..),
    value_coefficientAt (Nat.le_max_right ..)] at h

theorem gives_mul? : Gives (a.mul? b) (a.value * b.value) := by
  have h := gives_fit? (a.coefficient * b.coefficient) (a.scale + b.scale)
  rwa [Int.cast_mul, pow_add, mul_div_mul_comm] at h

end Results

end Decimal

end BorderControl
