import BorderControl.Proofs.DecimalValue
import BorderControl.Rule

/-!
# Weights within tolerance

The weight rule adds up the weights that are notified for a declared code (`notifiedWeights`) and
compares the declared mass with their sum. Where every step of that has a decimal
(`WeighsExactly`), it decides an inequality of rational numbers: it defers if the sum is zero, or
if a hundred times the difference is at most the sum times the tolerance, and holds the goods
otherwise. Where a step is too large for a decimal (`WeighsTooMuch`), it holds them. It has no
third answer, and defers where there is nothing to compare (`Rule.weightTolerance_decides`).
-/

namespace BorderControl

/-! ## The weights that count -/

/-- The line has a code, and the declared code begins with it; blank ends do not count. -/
def Notification.Line.IsFor (line : Notification.Line) (declaredCode : String) : Prop :=
  Text.trim line.commodityCode ≠ "" ∧
    (Text.trim line.commodityCode).toList <+: (Text.trim declaredCode).toList

instance (line : Notification.Line) (declaredCode : String) :
    Decidable (line.IsFor declaredCode) :=
  inferInstanceAs (Decidable (_ ∧ _))

/-- The weights of the lines for the declared code, as far as they have one. -/
def notifiedWeights (declaredCode : String) (lines : List Notification.Line) : List Decimal :=
  (lines.filter fun line => decide (line.IsFor declaredCode)).filterMap (·.netWeight)

/-- The sum of the weights. -/
def totalValue (weights : List Decimal) : ℚ := (weights.map Decimal.value).sum

theorem covers_eq (line : Notification.Line) (declaredCode : String) :
    line.covers declaredCode = decide (line.IsFor declaredCode) := by
  rw [Bool.eq_iff_iff, decide_eq_true_eq]
  simp [Notification.Line.covers, Notification.Line.IsFor]

theorem notifiedWeight?_eq (declaredCode : String) (lines : List Notification.Line) :
    notifiedWeight? declaredCode lines = sumFrom? .zero (notifiedWeights declaredCode lines) := by
  simp only [notifiedWeight?, matchingLines, notifiedWeights, covers_eq]

/-! ## Steps of the comparison -/

/-- Every sum of the first weights has a decimal, and where the sum of all is not zero, so do the
difference and both sides of the comparison. -/
structure WeighsExactly (percent mass : Decimal) (weights : List Decimal) : Prop where
  sums : ∀ ws, ws <+: weights → IsDecimal (totalValue ws)
  difference : totalValue weights ≠ 0 → IsDecimal (mass.value - totalValue weights)
  scaled : totalValue weights ≠ 0 → IsDecimal (|mass.value - totalValue weights| * 100)
  allowed : totalValue weights ≠ 0 → IsDecimal (totalValue weights * percent.value)

/-- A weight makes the sum of those before it too large, or the sum is not zero and the
difference or a side of the comparison is too large. -/
inductive WeighsTooMuch (percent mass : Decimal) (weights : List Decimal) : Prop where
  | sum {before after : List Decimal} {weight total : Decimal}
      (split : weights = before ++ weight :: after) (sum : sumFrom? .zero before = some total)
      (large : IsTooLarge (total.value + weight.value))
  | difference {total : Decimal} (sum : sumFrom? .zero weights = some total)
      (ne_zero : total.value ≠ 0) (large : IsTooLarge (mass.value - total.value))
  | scaled {total difference : Decimal} (sum : sumFrom? .zero weights = some total)
      (ne_zero : total.value ≠ 0) (sub : mass.sub? total = some difference)
      (large : IsTooLarge (|difference.value| * 100))
  | allowed {total : Decimal} (sum : sumFrom? .zero weights = some total)
      (ne_zero : total.value ≠ 0) (large : IsTooLarge (total.value * percent.value))

/-! ## Sums -/

@[simp] theorem totalValue_nil : totalValue [] = 0 := rfl

@[simp] theorem totalValue_cons (w : Decimal) (ws : List Decimal) :
    totalValue (w :: ws) = w.value + totalValue ws := by
  simp [totalValue]

theorem sumFrom?_append : ∀ (ws more : List Decimal) (total : Decimal),
    sumFrom? total (ws ++ more) = (sumFrom? total ws).bind (sumFrom? · more)
  | [], _, _ => rfl
  | w :: ws, more, total => by
    rw [List.cons_append, sumFrom?, sumFrom?]
    cases total.add? w with
    | none => rfl
    | some total => exact sumFrom?_append ws more total

/-- Decimals add up exactly if all the sums on the way have decimals. -/
theorem sumFrom?_exact : ∀ (total : Decimal) (ws : List Decimal),
    (∀ ws', ws' <+: ws → IsDecimal (total.value + totalValue ws')) →
      ∃ sum, sumFrom? total ws = some sum ∧ sum.value = total.value + totalValue ws
  | total, [], _ => ⟨total, rfl, by simp⟩
  | total, w :: ws, h => by
    have hfirst : IsDecimal (total.value + w.value) := by
      simpa using h [w] (List.prefix_cons_inj w |>.mpr List.nil_prefix)
    obtain ⟨next, hnext, hvalue⟩ := (Decimal.gives_add? total w).exact_iff.mpr hfirst
    obtain ⟨sum, hsum, hall⟩ := sumFrom?_exact next ws fun ws' hws' => by
      simpa [hvalue, add_assoc] using h (w :: ws') (List.prefix_cons_inj w |>.mpr hws')
    refine ⟨sum, by rw [sumFrom?, hnext]; exact hsum, ?_⟩
    rw [hall, hvalue, totalValue_cons, add_assoc]

theorem sumFrom?_of_tooLarge {before after : List Decimal} {total w sum : Decimal}
    (hsum : sumFrom? total before = some sum) (hlarge : IsTooLarge (sum.value + w.value)) :
    sumFrom? total (before ++ w :: after) = none := by
  rw [sumFrom?_append, hsum, Option.bind_some, sumFrom?,
    (Decimal.gives_add? sum w).none_iff.mpr hlarge]

/-! ## The comparison -/

section Tolerance

variable {percent mass total : Decimal}

/-- Where its steps have decimals, the comparison is one of rational numbers. -/
theorem withinTolerance_exact (hdifference : IsDecimal (mass.value - total.value))
    (hscaled : IsDecimal (|mass.value - total.value| * 100))
    (hallowed : IsDecimal (total.value * percent.value)) :
    withinTolerance percent mass total = true ↔
      |mass.value - total.value| * 100 ≤ total.value * percent.value := by
  obtain ⟨difference, hsub, hvalue⟩ := (Decimal.gives_sub? mass total).exact_iff.mpr hdifference
  have hmul := Decimal.gives_mul? difference.abs .hundred
  rw [Decimal.value_abs, Decimal.value_hundred, hvalue] at hmul
  obtain ⟨scaled, hscaled, hscaledValue⟩ := hmul.exact_iff.mpr hscaled
  obtain ⟨allowed, hallowed, hallowedValue⟩ :=
    (Decimal.gives_mul? total percent).exact_iff.mpr hallowed
  rw [withinTolerance, hsub, Option.map_some, Option.bind_some, hscaled, hallowed,
    Decimal.le_iff, hscaledValue, hallowedValue]

/-- Nothing too large is within a tolerance. -/
theorem withinTolerance_of_tooLarge
    (h : IsTooLarge (mass.value - total.value) ∨
      (∃ difference, mass.sub? total = some difference ∧
        IsTooLarge (|difference.value| * 100)) ∨
      IsTooLarge (total.value * percent.value)) :
    withinTolerance percent mass total = false := by
  rw [withinTolerance]
  rcases h with hlarge | ⟨difference, hsub, hlarge⟩ | hlarge
  · rw [(Decimal.gives_sub? mass total).none_iff.mpr hlarge]
    rfl
  · have hmul := Decimal.gives_mul? difference.abs .hundred
    rw [Decimal.value_abs, Decimal.value_hundred] at hmul
    rw [hsub, Option.map_some, Option.bind_some, hmul.none_iff.mpr hlarge]
  · rw [(Decimal.gives_mul? total percent).none_iff.mpr hlarge]
    cases ((mass.sub? total).map Decimal.abs).bind (·.mul? .hundred) <;> rfl

end Tolerance

/-! ## The rule -/

namespace Rule

variable {percent mass : Decimal} {n : Notification} {code : String}

theorem weightStep_cases (percent mass : Decimal) (n : Notification) (code : String) :
    (sumFrom? .zero (notifiedWeights code n.lines) = none ∧
        weightStep percent n mass code = .answer (.detailed .h01 .e86)) ∨
      ∃ total, sumFrom? .zero (notifiedWeights code n.lines) = some total ∧
        weightStep percent n mass code =
          if total.value = 0 ∨ withinTolerance percent mass total = true then .defer
          else .answer (.detailed .h01 .e86) := by
  rw [weightStep, notifiedWeight?_eq]
  cases sumFrom? .zero (notifiedWeights code n.lines) with
  | none => exact Or.inl ⟨rfl, rfl⟩
  | some total =>
    refine Or.inr ⟨total, rfl, ?_⟩
    simp only [Decimal.value_eq_zero_iff, Bool.or_eq_true]

theorem weightStep_exact (h : WeighsExactly percent mass (notifiedWeights code n.lines)) :
    weightStep percent n mass code =
      if totalValue (notifiedWeights code n.lines) = 0 ∨
          |mass.value - totalValue (notifiedWeights code n.lines)| * 100 ≤
            totalValue (notifiedWeights code n.lines) * percent.value
      then .defer else .answer (.detailed .h01 .e86) := by
  obtain ⟨total, htotal, hvalue⟩ := sumFrom?_exact .zero _ fun ws hws => by
    rw [Decimal.value_zero, zero_add]
    exact h.sums ws hws
  rw [Decimal.value_zero, zero_add] at hvalue
  rcases weightStep_cases percent mass n code with ⟨hnone, -⟩ | ⟨total', htotal', hstep⟩
  · rw [htotal] at hnone
    cases hnone
  obtain rfl : total' = total := Option.some.inj (htotal'.symm.trans htotal)
  rw [hstep, ← hvalue]
  by_cases hzero : total'.value = 0
  · simp only [hzero, true_or]
  · have hne := hvalue ▸ hzero
    simp only [withinTolerance_exact (hvalue ▸ h.difference hne) (hvalue ▸ h.scaled hne)
      (hvalue ▸ h.allowed hne)]

theorem weightStep_of_tooMuch (h : WeighsTooMuch percent mass (notifiedWeights code n.lines)) :
    weightStep percent n mass code = .answer (.detailed .h01 .e86) := by
  rcases weightStep_cases percent mass n code with ⟨-, hstep⟩ | ⟨total, htotal, hstep⟩
  · exact hstep
  -- the sum is not too large, so the difference or a side of the comparison is
  have hbeyond : total.value ≠ 0 ∧ withinTolerance percent mass total = false := by
    have hsame : ∀ {total'}, sumFrom? .zero (notifiedWeights code n.lines) = some total' →
        total' = total := fun h => Option.some.inj (h.symm.trans htotal)
    cases h with
    | sum split sum large =>
      rw [split, sumFrom?_of_tooLarge sum large] at htotal
      cases htotal
    | difference sum ne_zero large =>
      exact hsame sum ▸ ⟨ne_zero, withinTolerance_of_tooLarge (Or.inl large)⟩
    | scaled sum ne_zero sub large =>
      obtain rfl := hsame sum
      exact ⟨ne_zero, withinTolerance_of_tooLarge (Or.inr (Or.inl ⟨_, sub, large⟩))⟩
    | allowed sum ne_zero large =>
      exact hsame sum ▸ ⟨ne_zero, withinTolerance_of_tooLarge (Or.inr (Or.inr large))⟩
  rw [hstep, if_neg (by simp [hbeyond])]

/-- The weight rule defers where there is no notification, mass or code to compare. Otherwise it
decides the inequality of rational numbers where all its steps have decimals, holds the goods
where one is too large, and defers or holds them in any case. -/
theorem weightTolerance_decides (percent : Decimal) (c : Case) :
    (c.notification = none ∨ c.commodity.netMass = none ∨ c.commodity.commodityCode = none →
      (weightTolerance percent).step c = .defer) ∧
    ∀ n mass code, c.notification = some n → c.commodity.netMass = some mass →
      c.commodity.commodityCode = some code →
      (WeighsExactly percent mass (notifiedWeights code n.lines) →
        (weightTolerance percent).step c =
          if totalValue (notifiedWeights code n.lines) = 0 ∨
              |mass.value - totalValue (notifiedWeights code n.lines)| * 100 ≤
                totalValue (notifiedWeights code n.lines) * percent.value
          then .defer else .answer (.detailed .h01 .e86)) ∧
      (WeighsTooMuch percent mass (notifiedWeights code n.lines) →
        (weightTolerance percent).step c = .answer (.detailed .h01 .e86)) ∧
      ((weightTolerance percent).step c = .defer ∨
        (weightTolerance percent).step c = .answer (.detailed .h01 .e86)) := by
  refine ⟨fun h => ?_, fun n mass code hn hmass hcode => ?_⟩
  · rw [step]
    split
    · next hn hmass hcode => simp [hn, hmass, hcode] at h
    · rfl
  · have hstep : (weightTolerance percent).step c = weightStep percent n mass code := by
      rw [step, hn, hmass, hcode]
    rw [hstep]
    refine ⟨weightStep_exact, weightStep_of_tooMuch, ?_⟩
    rcases weightStep_cases percent mass n code with ⟨-, h⟩ | ⟨total, -, h⟩
    · exact Or.inr h
    · rw [h]
      exact ite_eq_or_eq _ _ _

end Rule

/-- Cattle of this mass, notified with these lines. -/
def weighedCattle (mass : Decimal) (lines : List Notification.Line) : Case where
  declaration := ⟨"25GB0000000000026", some 1, none, [], none⟩
  commodity := ⟨1, some "0102290500 ", none, some mass, [], []⟩
  checkCode := "H221"
  certificate := some .chedA
  notification := some ⟨"CHEDA.GB.2025.0000026", .chedA, none, .validated, none, lines, none⟩
  document := none

/-- 60.5 kg and 44.75 kg less 5.25 kg, one line without a weight, and two that are not for
cattle. -/
def cattleLines : List Notification.Line :=
  [⟨"0102", none, Decimal.ofCoefficient? 605 1⟩, ⟨"0201", none, some .hundred⟩,
    ⟨" 010229", none, Decimal.ofCoefficient? 4475 2⟩, ⟨"0102", none, none⟩,
    ⟨" ", none, some .hundred⟩, ⟨"01", none, Decimal.ofCoefficient? (-525) 2⟩]

theorem notifiedWeights_cattleLines : notifiedWeights "0102290500 " cattleLines =
    [⟨false, 605, 1, by decide, by decide⟩, ⟨false, 4475, 2, by decide, by decide⟩,
      ⟨true, 525, 2, by decide, by decide⟩] := by
  decide +kernel

theorem totalValue_cattleLines : totalValue (notifiedWeights "0102290500 " cattleLines) = 100 := by
  rw [notifiedWeights_cattleLines]
  norm_num

theorem cattle_weighsExactly :
    WeighsExactly .ten ⟨false, 109505, 3, by decide, by decide⟩
      (notifiedWeights "0102290500 " cattleLines) := by
  constructor
  case sums =>
    intro ws hws
    rw [notifiedWeights_cattleLines, ← List.mem_inits] at hws
    simp only [List.inits, List.mem_cons, List.map_cons, List.map_nil, List.not_mem_nil,
      or_false] at hws
    rcases hws with rfl | rfl | rfl | rfl
    · exact ⟨0, 0, by decide, by decide, by norm_num⟩
    · exact ⟨605, 1, by decide, by decide, by norm_num⟩
    · exact ⟨10525, 2, by decide, by decide, by norm_num⟩
    · exact ⟨100, 0, by decide, by decide, by norm_num⟩
  case difference =>
    exact fun _ => ⟨9505, 3, by decide, by decide, by norm_num [totalValue_cattleLines]⟩
  case scaled =>
    exact fun _ => ⟨9505, 1, by decide, by decide, by norm_num [totalValue_cattleLines]⟩
  case allowed =>
    exact fun _ => ⟨1000, 0, by decide, by decide, by norm_num [totalValue_cattleLines]⟩

/-- The largest decimal, and a hundred more. -/
def largestLines : List Notification.Line :=
  [⟨"0102", none, Decimal.ofCoefficient? 79228162514264337593543950335 0⟩,
    ⟨"0102", none, some .hundred⟩]

theorem largest_weighTooMuch (percent mass : Decimal) :
    WeighsTooMuch percent mass (notifiedWeights "0102290500 " largestLines) := by
  have hweights : notifiedWeights "0102290500 " largestLines =
      [⟨false, 2 ^ 96 - 1, 0, by decide, by decide⟩] ++ .hundred :: [] := by decide +kernel
  have hsum : sumFrom? .zero [⟨false, 2 ^ 96 - 1, 0, by decide, by decide⟩] =
      some ⟨false, 2 ^ 96 - 1, 0, by decide, by decide⟩ := by decide +kernel
  refine .sum hweights hsum ?_
  rw [IsTooLarge, Decimal.value_hundred, Decimal.value_mk]
  norm_num

/-- A difference of 9.505 kg is within ten percent of 100 kg, and nothing is within a tolerance of
more weight than there are decimals for. -/
theorem cattle_weighed :
    (Rule.weightTolerance .ten).step
        (weighedCattle ⟨false, 109505, 3, by decide, by decide⟩ cattleLines) = .defer ∧
      (Rule.weightTolerance .ten).step (weighedCattle .hundred largestLines) =
        .answer (.detailed .h01 .e86) := by
  have hcattle := (Rule.weightTolerance_decides .ten
    (weighedCattle ⟨false, 109505, 3, by decide, by decide⟩ cattleLines)).2 _ _ _ rfl rfl rfl
  have hlargest := (Rule.weightTolerance_decides .ten
    (weighedCattle .hundred largestLines)).2 _ _ _ rfl rfl rfl
  refine ⟨(hcattle.1 cattle_weighsExactly).trans (if_pos (Or.inr ?_)),
    hlargest.2.1 (largest_weighTooMuch _ _)⟩
  change |_ - totalValue (notifiedWeights "0102290500 " cattleLines)| * 100 ≤
    totalValue (notifiedWeights "0102290500 " cattleLines) * _
  rw [totalValue_cattleLines]
  norm_num

end BorderControl
