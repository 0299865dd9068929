import Backtester.Proofs.Differences
import Backtester.Proofs.FigureBounds
import Backtester.Proofs.FiniteOperands
import Backtester.Proofs.Seconds

/-!
# Drawdowns

A pass over an equity curve keeps the highest value so far, so the drawdown of a row is the worst
fall to it from any row before, and the least drawdown of all is the worst fall between any two
rows.

* `fallsTo`, `falls` — the differences of equity between a row and the rows up to it.
* `isGreatest_larger`, `exists_isGreatest` — one row keeps the highest value so far, and so do all.
* `isLeast_foldl_smaller` — the least of some values, found in one pass.
* `drawdown_is_worst_fall` — the drawdown of every row, and the one that a summary reports.
* `percent_cases` — a percentage is zero, or computed from finite numbers.
* `drawdown_percent_sign` — the sign of a percentage is decided by the highest value so far.
-/

namespace Backtester

open Doubles

/-! ## Falls -/

section

variable {α : Type} [Scalar α]

/-- The falls of equity to a row, from every row before it and from the row itself. -/
def fallsTo (curve : List (EquityPoint α)) (row : ℕ) : Set α :=
  {fall | ∃ q ∈ curve[row]?, ∃ p ∈ curve.take (row + 1), fall = q.equity - p.equity}

/-- The falls of equity between any row and a row after it or the row itself. -/
def falls (curve : List (EquityPoint α)) : Set α := {fall | ∃ row, fall ∈ fallsTo curve row}

/-- No row before has more equity than this one. -/
def IsPeak (curve : List (EquityPoint α)) (row : ℕ) : Prop :=
  ∀ q ∈ curve[row]?, ∀ p ∈ curve.take (row + 1), p.equity ≤ q.equity

end

/-! ## The highest value so far -/

/-- The highest of some values, or negative infinity where there is none yet. -/
def HighestOf (seen : List Float) (highest : Float) : Prop :=
  seen = [] ∧ highest = Scalar.infinite true ∨ IsGreatest {x | x ∈ seen} highest

theorem le_larger_right {x y : Float} (hx : x.isNaN = false) (hy : y.isNaN = false) :
    y ≤ Scalar.larger x y := by
  rw [Scalar.larger, show Scalar.isNaN x = false from hx, if_neg Bool.false_ne_true]
  split
  · exact OrderedScalar.le_refl hy
  · next hlt => exact le_of_not_lt hx hy hlt

theorem smaller_le_right {x y : Float} (hx : x.isNaN = false) (hy : y.isNaN = false) :
    Scalar.smaller x y ≤ y := by
  rw [Scalar.smaller, show Scalar.isNaN x = false from hx, if_neg Bool.false_ne_true]
  split
  · exact OrderedScalar.le_refl hy
  · next hlt => exact le_of_not_lt hy hx hlt

theorem isGreatest_larger {seen : List Float} {highest x : Float} (h : HighestOf seen highest)
    (hseen : ∀ y ∈ seen, y.isFinite = true) (hx : x.isFinite = true) :
    IsGreatest {y | y ∈ seen ++ [x]} (Scalar.larger highest x) := by
  have hnumber := isNaN_of_isFinite hx
  rcases h with ⟨rfl, rfl⟩ | ⟨hmem, habove⟩
  · rw [larger_infinite hx]
    refine ⟨List.mem_singleton_self x, fun y hy => ?_⟩
    obtain rfl := List.mem_singleton.mp hy
    exact OrderedScalar.le_refl hnumber
  · have hhighest : Float.isNaN highest = false := (isNaN_of_le (habove hmem)).1
    have hlarger := le_larger hhighest x
    refine ⟨larger_of_both (P := fun y => y ∈ seen ++ [x]) (List.mem_append_left _ hmem)
      (List.mem_append_right _ (List.mem_singleton_self x)), fun y hy => ?_⟩
    rcases List.mem_append.mp hy with hy | hy
    · exact OrderedScalar.le_trans (habove hy) hlarger
    · obtain rfl := List.mem_singleton.mp hy
      exact le_larger_right hhighest hnumber

/-- Along a curve, by induction on its rows with the values seen before them. -/
theorem exists_isGreatest {curve : List (EquityPoint Float)}
    (hcurve : ∀ p ∈ curve, p.equity.isFinite = true) {seen : List Float} {highest : Float}
    (h : HighestOf seen highest) (hseen : ∀ y ∈ seen, y.isFinite = true) {row : ℕ}
    {d : DrawdownPoint Float} (hrow : (drawdownsFrom highest curve)[row]? = some d) :
    ∃ q ∈ curve[row]?, ∃ top,
      IsGreatest {x | x ∈ seen ++ (curve.take (row + 1)).map EquityPoint.equity} top ∧
        d = drawdownBelow top q := by
  induction curve generalizing seen highest row with
  | nil => simp [drawdownsFrom] at hrow
  | cons p rest ih =>
      obtain ⟨hp, hrest⟩ := List.forall_mem_cons.mp hcurve
      have hnext := isGreatest_larger h hseen hp
      cases row with
      | zero =>
          obtain rfl : drawdownBelow (Scalar.larger highest p.equity) p = d := Option.some.inj hrow
          exact ⟨p, rfl, _, hnext, rfl⟩
      | succ row =>
          have hall : ∀ y ∈ seen ++ [p.equity], y.isFinite = true :=
            List.forall_mem_append.mpr ⟨hseen, List.forall_mem_singleton.mpr hp⟩
          obtain ⟨q, hq, top, htop, heq⟩ := ih hrest (Or.inr hnext) hall hrow
          rw [List.append_assoc] at htop
          exact ⟨q, hq, top, htop, heq⟩

section

variable {curve : List (EquityPoint Float)} {row : ℕ} {d : DrawdownPoint Float}

/-- The drawdown of a row is measured from the highest equity up to it. -/
theorem exists_highest (hcurve : ∀ p ∈ curve, p.equity.isFinite = true)
    (hrow : (drawdowns curve)[row]? = some d) :
    ∃ q ∈ curve[row]?, ∃ top,
      IsGreatest {x | x ∈ (curve.take (row + 1)).map EquityPoint.equity} top ∧
        d = drawdownBelow top q :=
  exists_isGreatest hcurve (Or.inl ⟨rfl, rfl⟩) (List.forall_mem_nil _) hrow

theorem isFinite_highest (hcurve : ∀ p ∈ curve, p.equity.isFinite = true) {top : Float}
    (htop : IsGreatest {x | x ∈ (curve.take (row + 1)).map EquityPoint.equity} top) :
    top.isFinite = true := by
  obtain ⟨p, hp, rfl⟩ := List.mem_map.mp htop.1
  exact hcurve p (List.mem_of_mem_take hp)

theorem mem_take_succ {q : EquityPoint Float} (hq : q ∈ curve[row]?) : q ∈ curve.take (row + 1) := by
  have htake : (curve.take (row + 1))[row]? = some q := by
    rw [List.getElem?_take_of_lt (Nat.lt_succ_self row)]
    exact hq
  exact List.mem_of_getElem? htake

theorem isLeast_amount (hcurve : ∀ p ∈ curve, p.equity.isFinite = true)
    (hrow : (drawdowns curve)[row]? = some d) : IsLeast (fallsTo curve row) d.amount := by
  obtain ⟨q, hq, top, htop, rfl⟩ := exists_highest hcurve hrow
  obtain ⟨p, hp, hequity⟩ := List.mem_map.mp htop.1
  refine ⟨⟨q, hq, p, hp, by rw [hequity]; rfl⟩, ?_⟩
  rintro _ ⟨q', hq', p', hp', rfl⟩
  obtain rfl := Option.some.inj (hq.symm.trans hq')
  exact sub_le_sub_left (hcurve q (List.mem_of_getElem? hq))
    (hcurve p' (List.mem_of_mem_take hp')) (isFinite_highest hcurve htop)
    (htop.2 (List.mem_map_of_mem hp'))

/-- A fall from the row itself is none. -/
theorem zero_mem_fallsTo (hcurve : ∀ p ∈ curve, p.equity.isFinite = true)
    {q : EquityPoint Float} (hq : q ∈ curve[row]?) : (0 : Float) ∈ fallsTo curve row :=
  ⟨q, hq, q, mem_take_succ hq, (sub_self_eq_zero (hcurve q (List.mem_of_getElem? hq))).symm⟩

theorem amount_nonpos (hcurve : ∀ p ∈ curve, p.equity.isFinite = true)
    (hrow : (drawdowns curve)[row]? = some d) : d.amount ≤ 0 := by
  obtain ⟨q, hq, -⟩ := exists_highest hcurve hrow
  exact (isLeast_amount hcurve hrow).2 (zero_mem_fallsTo hcurve hq)

theorem amount_beq_zero_iff (hcurve : ∀ p ∈ curve, p.equity.isFinite = true)
    (hrow : (drawdowns curve)[row]? = some d) : (d.amount == 0) = true ↔ IsPeak curve row := by
  obtain ⟨q, hq, top, htop, rfl⟩ := exists_highest hcurve hrow
  have hqf := hcurve q (List.mem_of_getElem? hq)
  have htopf := isFinite_highest hcurve htop
  have hbelow : q.equity ≤ top := htop.2 (List.mem_map_of_mem (mem_take_succ hq))
  refine (sub_beq_zero_iff hqf htopf).trans ⟨fun heq q' hq' p hp => ?_, fun hpeak => ?_⟩
  · obtain rfl := Option.some.inj (hq.symm.trans hq')
    have habove : top ≤ q.equity := (le_iff_toReal htopf hqf).mpr heq.ge
    exact OrderedScalar.le_trans (htop.2 (List.mem_map_of_mem hp)) habove
  · obtain ⟨p, hp, rfl⟩ := List.mem_map.mp htop.1
    exact le_antisymm ((le_iff_toReal hqf htopf).mp hbelow)
      ((le_iff_toReal htopf hqf).mp (hpeak q hq p hp))

end

/-! ## The worst fall of all -/

/-- By induction on the values, with the least one so far as the start. -/
theorem isLeast_foldl_smaller {xs : List Float} (hxs : ∀ x ∈ xs, x.isNaN = false) {start : Float}
    (hstart : start.isNaN = false) :
    IsLeast {x | x ∈ start :: xs} (xs.foldl Scalar.smaller start) := by
  induction xs generalizing start with
  | nil =>
      refine ⟨List.mem_singleton_self start, fun y hy => ?_⟩
      obtain rfl := List.mem_singleton.mp hy
      exact OrderedScalar.le_refl hstart
  | cons x rest ih =>
      obtain ⟨hx, hrest⟩ := List.forall_mem_cons.mp hxs
      have hsmaller : (Scalar.smaller start x).isNaN = false :=
        smaller_of_both (P := fun y : Float => y.isNaN = false) hstart hx
      obtain ⟨hmem, hbelow⟩ := ih hrest hsmaller
      have hfirst : Scalar.smaller start x ∈ [start, x] :=
        smaller_of_both (P := fun y => y ∈ [start, x]) (by simp) (by simp)
      have hleast := hbelow (List.mem_cons_self : _ ∈ Scalar.smaller start x :: rest)
      constructor
      · rcases List.mem_cons.mp hmem with heq | hmem
        · rw [List.foldl_cons, heq]
          exact List.mem_append_left rest hfirst
        · exact List.mem_cons_of_mem _ (List.mem_cons_of_mem _ hmem)
      · intro y hy
        rcases List.mem_cons.mp hy with rfl | hy
        · exact OrderedScalar.le_trans hleast (smaller_le hstart x)
        · rcases List.mem_cons.mp hy with rfl | hy
          · exact OrderedScalar.le_trans hleast (smaller_le_right hstart hx)
          · exact hbelow (List.mem_cons_of_mem _ hy)

theorem map_time_drawdownsFrom (highest : Float) (curve : List (EquityPoint Float)) :
    (drawdownsFrom highest curve).map DrawdownPoint.time = curve.map EquityPoint.time := by
  induction curve generalizing highest with
  | nil => rfl
  | cons p rest ih =>
      rw [drawdownsFrom, List.map_cons, List.map_cons, ih]
      rfl

theorem exists_drawdown {curve : List (EquityPoint Float)} {row : ℕ} {q : EquityPoint Float}
    (hq : q ∈ curve[row]?) : ∃ d, (drawdowns curve)[row]? = some d := by
  have hlength := congrArg List.length (map_time_drawdownsFrom (Scalar.infinite true) curve)
  rw [List.length_map, List.length_map] at hlength
  have hlt : row < (drawdowns curve).length := hlength ▸ (List.getElem?_eq_some_iff.mp hq).1
  exact ⟨_, List.getElem?_eq_getElem hlt⟩

/-- The least drawdown is the worst fall, where there is a row. -/
theorem isLeast_foldl_amounts {curve : List (EquityPoint Float)}
    (hcurve : ∀ p ∈ curve, p.equity.isFinite = true) (hne : curve ≠ []) :
    IsLeast (falls curve)
      (((drawdowns curve).map DrawdownPoint.amount).foldl Scalar.smaller (Scalar.ofNat 0)) := by
  have hnumbers : ∀ x ∈ (drawdowns curve).map DrawdownPoint.amount, Float.isNaN x = false := by
    intro x hx
    obtain ⟨d, hd, rfl⟩ := List.mem_map.mp hx
    obtain ⟨row, hrow⟩ := List.mem_iff_getElem?.mp hd
    exact (isNaN_of_le (amount_nonpos hcurve hrow)).1
  obtain ⟨hmem, hbelow⟩ := isLeast_foldl_smaller hnumbers (isNaN_of_isFinite toReal_zero.1)
  constructor
  · rcases List.mem_cons.mp hmem with hzero | hmem
    · -- The pass starts from zero, which is the fall from the first row to itself.
      obtain ⟨p, rest, rfl⟩ := List.exists_cons_of_ne_nil hne
      have hfirst : p ∈ (p :: rest)[0]? := rfl
      exact ⟨0, hzero ▸ zero_mem_fallsTo hcurve hfirst⟩
    · obtain ⟨d, hd, heq⟩ := List.mem_map.mp hmem
      obtain ⟨row, hrow⟩ := List.mem_iff_getElem?.mp hd
      exact ⟨row, heq ▸ (isLeast_amount hcurve hrow).1⟩
  · rintro _ ⟨row, q, hq, p, hp, rfl⟩
    obtain ⟨d, hrow⟩ := exists_drawdown hq
    have hamount : d.amount ∈ (drawdowns curve).map DrawdownPoint.amount :=
      List.mem_map_of_mem (List.mem_of_getElem? hrow)
    exact OrderedScalar.le_trans (hbelow (List.mem_cons_of_mem _ hamount))
      ((isLeast_amount hcurve hrow).2 ⟨q, hq, p, hp, rfl⟩)

/-- There is one drawdown for each row of a finite curve, and it is the worst fall to the row: zero
if and only if the row is a peak, and otherwise below.  The drawdown that a summary reports is the
worst fall of all, and zero for the empty curve; there is no summary only if the seconds of the
trades do not fit. -/
theorem drawdown_is_worst_fall {curve : List (EquityPoint Float)}
    (hcurve : ∀ p ∈ curve, p.equity.isFinite = true) :
    (drawdowns curve).map DrawdownPoint.time = curve.map EquityPoint.time ∧
    (∀ row d, (drawdowns curve)[row]? = some d →
      IsLeast (fallsTo curve row) d.amount ∧ d.amount ≤ 0 ∧
        ((d.amount == 0) = true ↔ IsPeak curve row)) ∧
    ∀ (trades : List (Trade Float)) (capital riskFree : Float),
      match Metrics.compute curve (drawdowns curve) trades capital riskFree with
      | .error _ => ¬SecondsFit trades
      | .ok summary => (curve = [] → summary.maxDrawdown = 0) ∧
          (curve ≠ [] → IsLeast (falls curve) summary.maxDrawdown) := by
  refine ⟨map_time_drawdownsFrom _ curve, fun row d hrow => ?_, fun trades capital riskFree => ?_⟩
  · exact ⟨isLeast_amount hcurve hrow, amount_nonpos hcurve hrow, amount_beq_zero_iff hcurve hrow⟩
  · cases hsummary : Metrics.compute curve (drawdowns curve) trades capital riskFree with
    | error _ => exact not_secondsFit_of_compute hsummary
    | ok summary =>
        obtain ⟨-, rfl⟩ := compute_eq_ok_iff.mp hsummary
        refine ⟨?_, isLeast_foldl_amounts hcurve⟩
        rintro rfl
        rfl

theorem drawdown_is_worst_fall_four_rows :
    let curve : List (EquityPoint Float) := [⟨0, 100⟩, ⟨60, 120⟩, ⟨120, 90⟩, ⟨180, 130⟩]
    (∀ p ∈ curve, p.equity.isFinite = true) ∧
    (∃ summary, Metrics.compute curve (drawdowns curve) [] 100 0 = .ok summary ∧
      summary.maxDrawdown = -30) ∧
    IsLeast (falls curve) (-30 : Float) := by
  intro curve
  have hcurve : ∀ p ∈ curve, p.equity.isFinite = true := by decide +kernel
  obtain ⟨summary, hsummary⟩ : ∃ summary,
      Metrics.compute curve (drawdowns curve) [] 100 0 = .ok summary :=
    ⟨_, compute_eq_ok_iff.mpr ⟨secondsFit_nil, rfl⟩⟩
  have hvalue : summary.maxDrawdown = -30 := by
    obtain ⟨-, rfl⟩ := compute_eq_ok_iff.mp hsummary
    decide +kernel
  have hfall := (drawdown_is_worst_fall hcurve).2.2 [] 100 0
  rw [hsummary] at hfall
  have hleast := hfall.2 (by simp [curve])
  rw [hvalue] at hleast
  exact ⟨hcurve, ⟨summary, hsummary, hvalue⟩, hleast⟩

/-! ## Percentages -/

section

variable {highest : Float} {q : EquityPoint Float}

/-- A percentage is zero, or it is computed from finite numbers and rounded twice. -/
theorem percent_cases (hhighest : highest.isFinite = true) (q : EquityPoint Float) :
    (drawdownBelow highest q).percent = 0 ∨
      (drawdownBelow highest q).amount.isFinite = true ∧
        (drawdownBelow highest q).percent.isFinite = true ∧
        ∃ quotient,
          IsNearest (toReal (drawdownBelow highest q).amount / toReal highest) quotient ∧
          IsNearest (quotient * 100) (toReal (drawdownBelow highest q).percent) := by
  generalize hamount : (drawdownBelow highest q).amount = amount
  have hpercent : (drawdownBelow highest q).percent =
      if !(highest == Scalar.ofNat 0) && Float.isFinite (amount / highest * Scalar.ofNat 100) then
        amount / highest * Scalar.ofNat 100
      else 0 := by
    rw [← hamount]
    rfl
  rw [hpercent]
  split
  · next hguard =>
      rw [Bool.and_eq_true, Bool.not_eq_true'] at hguard
      obtain ⟨hnonzero, hfinite⟩ := hguard
      obtain ⟨hquotient, hhundred⟩ := isFinite_of_mul hfinite
      have hfiniteAmount := isFinite_of_div hquotient
      have hne : toReal highest ≠ 0 := by
        rw [Ne, ← beq_zero_iff hhighest, hnonzero]
        exact Bool.false_ne_true
      have hproduct := (mul_roundsTo hquotient hhundred).nearest hfinite
      rw [(toReal_ofNat (n := 100) (by norm_num)).2, Nat.cast_ofNat] at hproduct
      exact Or.inr ⟨hfiniteAmount, hfinite, _,
        (div_roundsTo hfiniteAmount hhighest hne).nearest hquotient, hproduct⟩
  · exact Or.inl rfl

theorem percent_nonpos (hhighest : highest.isFinite = true) (hsign : 0 ≤ toReal highest)
    (hamount : (drawdownBelow highest q).amount ≤ 0) : (drawdownBelow highest q).percent ≤ 0 := by
  rcases percent_cases hhighest q with hzero | ⟨hfinite, hpercent, quotient, hquotient, hproduct⟩
  · rw [hzero]
    decide
  · rw [nonpos_iff_toReal hfinite] at hamount
    have hnonpos := hquotient.nonpos (div_nonpos_of_nonpos_of_nonneg hamount hsign)
    exact (nonpos_iff_toReal hpercent).mpr (hproduct.nonpos (by linarith))

theorem percent_nonneg (hhighest : highest.isFinite = true) (hsign : toReal highest ≤ 0)
    (hamount : (drawdownBelow highest q).amount ≤ 0) : 0 ≤ (drawdownBelow highest q).percent := by
  rcases percent_cases hhighest q with hzero | ⟨hfinite, hpercent, quotient, hquotient, hproduct⟩
  · rw [hzero]
    decide
  · rw [nonpos_iff_toReal hfinite] at hamount
    have hnonneg := hquotient.nonneg (div_nonneg_of_nonpos hamount hsign)
    exact (nonneg_iff_toReal hpercent).mpr (hproduct.nonneg (by linarith))

theorem amount_neg_of_percent_neg (hhighest : highest.isFinite = true)
    (hamount : (drawdownBelow highest q).amount ≤ 0) (h : (drawdownBelow highest q).percent < 0) :
    (drawdownBelow highest q).amount < 0 := by
  rcases percent_cases hhighest q with hzero | ⟨hfinite, hpercent, quotient, hquotient, hproduct⟩
  · rw [hzero] at h
    exact absurd h (by decide)
  · rw [nonpos_iff_toReal hfinite] at hamount
    rw [neg_iff_toReal hpercent] at h
    rw [neg_iff_toReal hfinite]
    refine hamount.lt_of_ne fun hzero => ?_
    -- Nothing of the highest value is rounded to nothing, and so are a hundred times that.
    rw [hzero, zero_div] at hquotient
    rw [hquotient.eq_of_isDouble isDouble_zero, zero_mul] at hproduct
    exact h.ne (hproduct.eq_of_isDouble isDouble_zero)

end

/-- The percentage of a drawdown has the sign of the highest equity so far, turned around: it is not
positive from the first row on that has some equity, and not negative before.  Below zero it says
that the drawdown is below zero too. -/
theorem drawdown_percent_sign {curve : List (EquityPoint Float)}
    (hcurve : ∀ p ∈ curve, p.equity.isFinite = true) {row : ℕ} {d : DrawdownPoint Float}
    (hrow : (drawdowns curve)[row]? = some d) :
    ((∃ p ∈ curve.take (row + 1), 0 ≤ p.equity) → d.percent ≤ 0) ∧
    ((∀ p ∈ curve.take (row + 1), p.equity < 0) → 0 ≤ d.percent) ∧
    (d.percent < 0 → d.amount < 0) := by
  have hamount := amount_nonpos hcurve hrow
  obtain ⟨q, -, top, htop, rfl⟩ := exists_highest hcurve hrow
  have htopf := isFinite_highest hcurve htop
  refine ⟨fun ⟨p, hp, hnonneg⟩ => ?_, fun hnegative => ?_, amount_neg_of_percent_neg htopf hamount⟩
  · have habove : 0 ≤ top := OrderedScalar.le_trans hnonneg (htop.2 (List.mem_map_of_mem hp))
    exact percent_nonpos htopf ((nonneg_iff_toReal htopf).mp habove) hamount
  · obtain ⟨p, hp, rfl⟩ := List.mem_map.mp htop.1
    exact percent_nonneg htopf ((neg_iff_toReal htopf).mp (hnegative p hp)).le hamount

theorem drawdown_percent_sign_two_rows :
    let curve : List (EquityPoint Float) := [⟨0, 100⟩, ⟨60, 50⟩]
    (∀ p ∈ curve, p.equity.isFinite = true) ∧
    (drawdowns curve)[1]? = some ⟨60, -50, -50⟩ ∧
    (∃ p ∈ curve.take 2, 0 ≤ p.equity) ∧ (-50 : Float) ≤ 0 ∧ (-50 : Float) < 0 := by
  intro curve
  have hcurve : ∀ p ∈ curve, p.equity.isFinite = true := by decide +kernel
  have hrow : (drawdowns curve)[1]? = some ⟨60, -50, -50⟩ := by decide +kernel
  have hsome : ∃ p ∈ curve.take 2, 0 ≤ p.equity := ⟨⟨0, 100⟩, by simp [curve], by decide +kernel⟩
  obtain ⟨hnonpos, -, hfall⟩ := drawdown_percent_sign hcurve hrow
  exact ⟨hcurve, hrow, hsome, hnonpos hsome, hfall (by decide +kernel)⟩

/-- While all equity is below zero, a fall is reported as a positive percentage. -/
theorem drawdown_percent_positive :
    ¬∀ curve : List (EquityPoint Float), (∀ p ∈ curve, p.equity.isFinite = true) →
      ∀ d ∈ drawdowns curve, d.percent ≤ 0 := by
  intro hall
  have hcurve : ∀ p ∈ ([⟨0, -100⟩, ⟨60, -150⟩] : List (EquityPoint Float)),
      p.equity.isFinite = true := by decide +kernel
  have hdrawdowns : drawdowns ([⟨0, -100⟩, ⟨60, -150⟩] : List (EquityPoint Float)) =
      [⟨0, 0, -0⟩, ⟨60, -50, 50⟩] := by decide +kernel
  have hpercent := hall _ hcurve ⟨60, -50, 50⟩ (by rw [hdrawdowns]; simp)
  exact absurd hpercent (by decide +kernel)

end Backtester
