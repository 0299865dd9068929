import Backtester.Proofs.ExactArithmetic

/-!
# The signs of the ratios

The Sharpe ratio divides the mean excess return by the deviation of all excess returns, the Sortino
ratio by that of the negative ones.  Both deviations are roots, so in exact arithmetic a ratio with
a deviation has the sign of the mean.  A mean below zero needs a negative excess return, and so the
Sortino ratio always has the sign of a Sharpe ratio that is not zero.

* `excess`, `average` — excess returns and means over the reals.
* `deviation`, `downside` — the deviations of all numbers and of the negative ones.
* `yearly` — a mean over a deviation, for a year, and its sign: `yearly_pos_iff`, `yearly_neg_iff`.
* `sharpeRatio_number`, `sortinoRatio_number` — both ratios of real returns.
* `exists_neg_of_average_neg` — a mean below zero needs a number below zero.
* `ratios_agree_in_sign` — the signs of both.
-/

namespace Backtester
namespace Exact

/-! ## Means and deviations of real numbers -/

/-- The returns less the risk-free return of a day. -/
noncomputable def excess (returns : List ℝ) (rate : ℝ) : List ℝ := returns.map (· - rate / 365)

/-- The mean; zero for no numbers. -/
noncomputable def average (xs : List ℝ) : ℝ := xs.sum / xs.length

/-- The sample standard deviation. -/
noncomputable def deviation (xs : List ℝ) : ℝ :=
  √((xs.map fun x => (x - average xs) * (x - average xs)).sum / (xs.length - 1 : ℕ))

/-- The negative numbers among some. -/
noncomputable def negatives (xs : List ℝ) : List ℝ := xs.filter (· < 0)

/-- The deviation of the negative numbers from zero. -/
noncomputable def downside (xs : List ℝ) : ℝ := √(average ((negatives xs).map fun d => d * d))

/-- A mean over a deviation, for a year; zero for the deviation zero. -/
noncomputable def yearly (mean deviation : ℝ) : ℝ := mean / deviation * √365

theorem sum_squares_nonneg (f : ℝ → ℝ) (xs : List ℝ) : 0 ≤ (xs.map fun x => f x * f x).sum := by
  refine List.sum_nonneg fun square hsquare => ?_
  obtain ⟨x, -, rfl⟩ := List.mem_map.mp hsquare
  exact mul_self_nonneg (f x)

theorem mem_negatives_iff {xs : List ℝ} {x : ℝ} : x ∈ negatives xs ↔ x ∈ xs ∧ x < 0 := by
  rw [negatives, List.mem_filter, decide_eq_true_iff]

/-! ## The ratios of real returns -/

theorem periodsPerYear_eq_number : (periodsPerYear : Exact) = number 365 := by
  show Scalar.ofNat 365 = _
  rw [ofNat_eq_number, Nat.cast_ofNat]

theorem sortinoCap_eq_number : (sortinoCap : Exact) = number 10 := by
  show Scalar.ofNat 10 = _
  rw [ofNat_eq_number, Nat.cast_ofNat]

theorem excessReturns_number (returns : List ℝ) (rate : ℝ) :
    excessReturns (returns.map number) (number rate) = (excess returns rate).map number := by
  unfold excessReturns excess
  dsimp only
  rw [periodsPerYear_eq_number, number_div _ (by norm_num), List.map_map, List.map_map]
  exact List.map_congr_left fun x _ => number_sub x (rate / 365)

theorem mean_number {xs : List ℝ} (hne : xs ≠ []) :
    Scalar.mean (xs.map number) = number (average xs) := by
  have hcount : (xs.length : ℝ) ≠ 0 := Nat.cast_ne_zero.mpr (List.length_pos_iff.mpr hne).ne'
  rw [Scalar.mean, sum_number, List.length_map, ofNat_eq_number, number_div _ hcount]
  rfl

theorem sampleDeviation_number {xs : List ℝ} (htwo : 2 ≤ xs.length) :
    sampleDeviation (xs.map number) = number (deviation xs) := by
  have hne : xs ≠ [] := List.length_pos_iff.mp (by omega)
  have hcount : ((xs.length - 1 : ℕ) : ℝ) ≠ 0 := Nat.cast_ne_zero.mpr (by omega)
  have hsquares : ((fun x : Exact => (x - number (average xs)) * (x - number (average xs))) ∘
      number) = number ∘ fun x => (x - average xs) * (x - average xs) := by
    funext x
    simp only [Function.comp_apply, number_sub, number_mul]
  unfold sampleDeviation
  dsimp only
  rw [mean_number hne, List.map_map, hsquares, ← List.map_map, sum_number, List.length_map,
    ofNat_eq_number, number_div _ hcount,
    sqrt_number (div_nonneg (sum_squares_nonneg (· - average xs) xs) (Nat.cast_nonneg _))]
  rfl

theorem negatives_number (xs : List ℝ) :
    (xs.map number).filter (fun x => decide (x < 0)) = (negatives xs).map number := by
  rw [negatives, List.filter_map]
  congr 2
  funext x
  simp only [Function.comp_apply, number_neg_iff]

theorem sqrt_mean_squares_number {xs : List ℝ} (hsome : negatives xs ≠ []) :
    Scalar.sqrt (Scalar.mean (((negatives xs).map number).map fun d => d * d)) =
      number (downside xs) := by
  have hsquares : ((fun d : Exact => d * d) ∘ number) = number ∘ fun d => d * d := rfl
  have hnonneg : 0 ≤ average ((negatives xs).map fun d => d * d) :=
    div_nonneg (sum_squares_nonneg id _) (Nat.cast_nonneg _)
  rw [List.map_map, hsquares, ← List.map_map, mean_number (by simpa using hsome),
    sqrt_number hnonneg]
  rfl

theorem annualRatio_number (mean deviation : ℝ) :
    annualRatio (number mean) (number deviation) = number (yearly mean deviation) := by
  have hfinite (x : ℝ) : Scalar.isFinite (number x) = true := rfl
  have hzero : (number deviation == 0) = decide (deviation = 0) := by rw [zero_eq_number]; rfl
  unfold annualRatio yearly
  rw [hzero, hfinite, Bool.not_true, Bool.or_false]
  by_cases hdeviation : deviation = 0
  · simp only [hdeviation, decide_true, if_true, div_zero, zero_mul, zero_eq_number]
  · simp only [hdeviation, decide_false, Bool.false_eq_true, if_false]
    rw [number_div _ hdeviation, periodsPerYear_eq_number, sqrt_number (by norm_num), number_mul,
      hfinite, if_pos rfl]

theorem sharpeRatio_number (returns : List ℝ) (rate : ℝ) :
    sharpeRatio (returns.map number) (number rate) =
      number (if returns.length < 2 then 0
        else yearly (average (excess returns rate)) (deviation (excess returns rate))) := by
  unfold sharpeRatio
  rw [List.length_map]
  split
  · exact zero_eq_number
  · next htwo =>
      have hlength : (excess returns rate).length = returns.length := List.length_map _
      dsimp only
      rw [excessReturns_number, mean_number (List.length_pos_iff.mp (by omega)),
        sampleDeviation_number (by omega), annualRatio_number]

theorem sortinoRatio_number (returns : List ℝ) (rate : ℝ) :
    sortinoRatio (returns.map number) (number rate) =
      number (if negatives (excess returns rate) = [] then
          if 0 < average (excess returns rate) then 10 else 0
        else yearly (average (excess returns rate)) (downside (excess returns rate))) := by
  rcases eq_or_ne returns [] with rfl | hne
  · have hnone : ¬(0 : ℝ) < average (excess [] rate) := by simp [average, excess]
    have hnegatives : negatives (excess [] rate) = [] := rfl
    rw [if_pos hnegatives, if_neg hnone, ← zero_eq_number]
    rfl
  · have hexcess : excess returns rate ≠ [] := by simpa [excess] using hne
    have hsome : ¬(returns.map number).isEmpty = true := by simpa using hne
    unfold sortinoRatio
    rw [if_neg hsome]
    dsimp only
    rw [excessReturns_number, mean_number hexcess, negatives_number]
    simp only [List.isEmpty_map, List.isEmpty_iff, number_pos_iff]
    split
    · split
      · exact sortinoCap_eq_number
      · exact zero_eq_number
    · next hdown => rw [sqrt_mean_squares_number hdown, annualRatio_number]

/-! ## Signs -/

theorem yearly_pos_iff {mean deviation : ℝ} (hdeviation : 0 < deviation) :
    0 < yearly mean deviation ↔ 0 < mean := by
  rw [yearly, mul_pos_iff_of_pos_right (by positivity), div_pos_iff_of_pos_right hdeviation]

theorem yearly_neg_iff {mean deviation : ℝ} (hdeviation : 0 < deviation) :
    yearly mean deviation < 0 ↔ mean < 0 := by
  have hopposite : yearly (-mean) deviation = -yearly mean deviation := by
    rw [yearly, yearly, neg_div, neg_mul]
  rw [← neg_pos, ← hopposite, yearly_pos_iff hdeviation, neg_pos]

theorem sign_yearly {mean deviation : ℝ} (hdeviation : 0 < deviation) :
    SignType.sign (yearly mean deviation) = SignType.sign mean := by
  simp only [sign_apply, yearly_pos_iff hdeviation, yearly_neg_iff hdeviation]

/-- A ratio that is not zero has the sign of its mean. -/
theorem sign_of_yearly (mean : ℝ) {deviation : ℝ} (hdeviation : 0 ≤ deviation) :
    (0 < yearly mean deviation → 0 < mean) ∧ (yearly mean deviation < 0 → mean < 0) := by
  rcases hdeviation.eq_or_lt with rfl | hpositive
  · rw [yearly, div_zero, zero_mul]
    exact ⟨fun h => absurd h (lt_irrefl 0), fun h => absurd h (lt_irrefl 0)⟩
  · exact ⟨(yearly_pos_iff hpositive).mp, (yearly_neg_iff hpositive).mp⟩

theorem downside_pos {xs : List ℝ} (hsome : negatives xs ≠ []) : 0 < downside xs := by
  refine Real.sqrt_pos.mpr (div_pos ?_ ?_)
  · refine List.sum_pos _ (fun square hsquare => ?_) (by simpa using hsome)
    obtain ⟨d, hd, rfl⟩ := List.mem_map.mp hsquare
    exact mul_self_pos.mpr (mem_negatives_iff.mp hd).2.ne
  · rw [List.length_map]
    exact Nat.cast_pos.mpr (List.length_pos_iff.mpr hsome)

/-- A mean below zero needs a number below zero. -/
theorem exists_neg_of_average_neg {xs : List ℝ} (h : average xs < 0) : negatives xs ≠ [] := by
  intro hnone
  have hall : ∀ x ∈ xs, 0 ≤ x := by
    intro x hx
    by_contra hneg
    have hmem : x ∈ negatives xs := mem_negatives_iff.mpr ⟨hx, not_le.mp hneg⟩
    rw [hnone] at hmem
    cases hmem
  exact absurd h (not_lt.mpr (div_nonneg (List.sum_nonneg hall) (Nat.cast_nonneg _)))

/-- In exact arithmetic both ratios are numbers.  Where the Sharpe ratio is positive the Sortino
ratio is positive, where it is negative the Sortino ratio is negative, and as soon as an excess
return is negative the Sortino ratio has the sign of their mean. -/
theorem ratios_agree_in_sign (returns : List ℝ) (rate : ℝ) :
    ∃ sharpe sortino : ℝ,
      sharpeRatio (returns.map number) (number rate) = number sharpe ∧
      sortinoRatio (returns.map number) (number rate) = number sortino ∧
      (0 < sharpe → 0 < sortino) ∧
      (sharpe < 0 → sortino < 0) ∧
      ((∃ x ∈ excess returns rate, x < 0) →
        SignType.sign sortino = SignType.sign (average (excess returns rate))) := by
  refine ⟨_, _, sharpeRatio_number returns rate, sortinoRatio_number returns rate, ?_⟩
  generalize excess returns rate = xs
  -- The Sharpe ratio only counts for what its sign says of the mean.
  have hdeviation : 0 ≤ deviation xs := Real.sqrt_nonneg _
  obtain ⟨hpositive, hnegative⟩ := sign_of_yearly (average xs) hdeviation
  refine ⟨fun h => ?_, fun h => ?_, fun ⟨x, hx, hneg⟩ => ?_⟩
  · have haverage : 0 < average xs := by
      split at h
      · exact absurd h (lt_irrefl 0)
      · exact hpositive h
    rw [if_pos haverage]
    split
    · norm_num
    · next hsome => exact (yearly_pos_iff (downside_pos hsome)).mpr haverage
  · have haverage : average xs < 0 := by
      split at h
      · exact absurd h (lt_irrefl 0)
      · exact hnegative h
    have hsome := exists_neg_of_average_neg haverage
    rw [if_neg hsome]
    exact (yearly_neg_iff (downside_pos hsome)).mpr haverage
  · have hsome : negatives xs ≠ [] := List.ne_nil_of_mem (mem_negatives_iff.mpr ⟨hx, hneg⟩)
    rw [if_neg hsome]
    exact sign_yearly (downside_pos hsome)

end Exact
end Backtester
