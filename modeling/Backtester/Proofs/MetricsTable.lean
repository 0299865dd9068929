import Backtester.Proofs.Balance
import Backtester.Proofs.Durations
import Backtester.Proofs.Outcomes
import Backtester.Proofs.RiskLimits

/-!
# The table of metrics

One pass over the trades keeps counts, sums and extremes, and the table divides them by each other.
In exact arithmetic they are figures of the rounded profits that do not depend on the order of the
trades, and all that the table makes of them fits together.  Only whether the seconds of the trades can
be counted, and so whether there is a table, may depend on the order.

* `roundedProfits` — the profits of some trades, as reports round them.
* `Tally.Holds` — a tally holds the counts, sums and extremes of some rounded profits.
* `Tally.holds_ofTrades` — one pass ends with those of its trades.
* `Tally.Holds.eq_of_perm` — they are the same in every order.
* `Metrics.Consistent` — how the figures of a table fit together.
* `forall_perm_secondsFit_iff` — when the seconds of some trades can be counted in every order.
* `metrics_consistent` — the figures of every table fit together, in every order of the trades that has
  a table.
* `table_depends_on_order` — trades that have a table in one order and none in another.
-/

namespace Backtester

open Exact

/-- The profits of some trades, as reports round them. -/
noncomputable def roundedProfits (trades : List (Trade ℝ)) : List ℝ :=
  trades.map fun t => nearestDecimal t.profit profitPlaces

/-! ## What a tally holds -/

/-- A tally holds the counts, sums and extremes of some rounded profits. -/
structure Tally.Holds (profits : List ℝ) (t : Tally Exact) : Prop where
  winning : t.winning = (profits.filter (0 < ·)).length
  losing : t.losing = (profits.filter (· < 0)).length
  breakeven : t.breakeven = (profits.filter (· = 0)).length
  grossProfit : t.grossProfit = number (profits.filter (0 < ·)).sum
  grossLoss : t.grossLoss = number (profits.filter (· < 0)).sum
  largestWin : ∃ win, t.largestWin = number win ∧ IsGreatest {p | p ∈ 0 :: profits} win
  largestLoss : ∃ loss, t.largestLoss = number loss ∧ IsLeast {p | p ∈ 0 :: profits} loss

/-- One trade moves the extremes to its rounded profit if that lies beyond them. -/
theorem Tally.extremes_add {t : Tally Exact} {win loss p : ℝ} (hwin : t.largestWin = number win)
    (hloss : t.largestLoss = number loss) (hsigns : loss ≤ 0 ∧ 0 ≤ win) {trade : Trade Exact}
    (hp : roundTo trade.profit profitPlaces = number p) :
    (t.add trade).largestWin = number (max win p) ∧
      (t.add trade).largestLoss = number (min loss p) := by
  have hlarger : Scalar.larger (number win) (number p) = number (max win p) := by
    show (if win < p then number p else number win) = _
    rw [max_def_lt]
    split <;> rfl
  have hsmaller : Scalar.smaller (number loss) (number p) = number (min loss p) := by
    show (if p < loss then number p else number loss) = _
    rw [min_comm, min_def_lt]
    split <;> rfl
  unfold Tally.add
  rw [hp]
  dsimp only
  split
  · next hpositive =>
      have hp := (number_pos_iff p).mp hpositive
      rw [hwin, hlarger, hloss, min_eq_left (hsigns.1.trans hp.le)]
      exact ⟨rfl, rfl⟩
  · next hnotWin =>
      have hp := not_lt.mp (mt (number_pos_iff p).mpr hnotWin)
      rw [max_eq_left (hp.trans hsigns.2)]
      split
      · rw [hloss, hsmaller]
        exact ⟨hwin, rfl⟩
      · next hnotLoss =>
          have hp := not_lt.mp (mt (number_neg_iff p).mpr hnotLoss)
          rw [min_eq_left (hsigns.1.trans hp)]
          exact ⟨hwin, hloss⟩

/-- The extremes are the greatest and the least of zero and the rounded profits. -/
theorem Tally.extremes_ofTrades (trades : List (Trade ℝ)) :
    (∃ win, (Tally.ofTrades (trades.map (Trade.map number))).largestWin = number win ∧
      IsGreatest {p | p ∈ 0 :: roundedProfits trades} win) ∧
    ∃ loss, (Tally.ofTrades (trades.map (Trade.map number))).largestLoss = number loss ∧
      IsLeast {p | p ∈ 0 :: roundedProfits trades} loss := by
  -- Trade by trade from the front: the tally has seen all but the last one.
  induction trades using List.reverseRecOn with
  | nil =>
      refine ⟨⟨0, zero_eq_number, ?_⟩, 0, zero_eq_number, ?_⟩
      · simp [roundedProfits]
      · simp [roundedProfits]
  | append_singleton seen trade ih =>
      obtain ⟨⟨win, hwin, hgreatest⟩, loss, hloss, hleast⟩ := ih
      have hzero : (0 : ℝ) ∈ {p | p ∈ 0 :: roundedProfits seen} := List.mem_cons_self
      have hp : roundTo (trade.map number).profit profitPlaces =
          number (nearestDecimal trade.profit profitPlaces) := roundTo_number _ _
      obtain ⟨hmax, hmin⟩ :=
        Tally.extremes_add hwin hloss ⟨hleast.2 hzero, hgreatest.2 hzero⟩ hp
      have hset : {p | p ∈ 0 :: roundedProfits (seen ++ [trade])} =
          insert (nearestDecimal trade.profit profitPlaces) {p | p ∈ 0 :: roundedProfits seen} := by
        ext p
        simp only [roundedProfits, List.map_append, List.map_singleton, Set.mem_ofPred_eq,
          Set.mem_insert_iff, List.mem_cons, List.mem_append, List.not_mem_nil, or_false]
        rw [← or_assoc, or_comm]
      rw [List.map_append, List.map_singleton, Tally.ofTrades, List.foldl_concat, hset]
      exact ⟨⟨_, hmax, max_comm win _ ▸ hgreatest.insert _⟩, _, hmin,
        min_comm loss _ ▸ hleast.insert _⟩

theorem sum_filter_eq_sum_map (xs : List ℝ) (P : ℝ → Prop) [DecidablePred P] :
    (xs.filter P).sum = (xs.map fun x => if P x then x else 0).sum := by
  rw [List.sum_map_ite]
  simp

/-- The gross sums are those of the positive and of the negative rounded profits. -/
theorem Tally.gross_ofTrades_filter (trades : List (Trade ℝ)) :
    (Tally.ofTrades (trades.map (Trade.map number))).grossProfit =
        number ((roundedProfits trades).filter (0 < ·)).sum ∧
      (Tally.ofTrades (trades.map (Trade.map number))).grossLoss =
        number ((roundedProfits trades).filter (· < 0)).sum := by
  have hvalue : ∀ t ∈ trades.map (Trade.map number), roundTo t.profit profitPlaces =
      number (nearestDecimal t.profit.toReal profitPlaces) := by
    intro _ ht
    obtain ⟨t, -, rfl⟩ := List.mem_map.mp ht
    exact roundTo_number _ _
  have hmax (p : ℝ) : (if 0 < p then p else 0) = max p 0 := by rw [max_comm, max_def_lt]
  have hmin (p : ℝ) : (if p < 0 then p else 0) = min p 0 := (min_def_lt p 0).symm
  obtain ⟨hgross, hlost⟩ := Tally.gross_ofTrades hvalue
  rw [hgross, hlost, sum_filter_eq_sum_map, sum_filter_eq_sum_map]
  simp only [hmax, hmin, roundedProfits, List.map_map]
  exact ⟨rfl, rfl⟩

theorem Outcome.ofProfit_number_iff (p : ℝ) :
    (ofProfit (number p) = win ↔ 0 < p) ∧ (ofProfit (number p) = loss ↔ p < 0) ∧
      (ofProfit (number p) = breakeven ↔ p = 0) := by
  rcases lt_trichotomy p 0 with hneg | rfl | hpos
  · simp [ofProfit_loss hneg, hneg, hneg.ne, hneg.le]
  · have hzero : ofProfit (number 0) = breakeven := by
      rw [ofProfit, if_neg (mt (number_pos_iff 0).mp (lt_irrefl 0)),
        if_neg (mt (number_neg_iff 0).mp (lt_irrefl 0))]
    simp [hzero]
  · simp [ofProfit_win hpos, hpos, hpos.ne', hpos.le]

/-- The count of an outcome is that of the rounded profits with its sign. -/
theorem Tally.count_ofTrades_filter (trades : List (Trade ℝ)) {outcome : Outcome} {P : ℝ → Prop}
    [DecidablePred P] (hP : ∀ p : ℝ, Outcome.ofProfit (number p) = outcome ↔ P p) :
    (Tally.ofTrades (trades.map (Trade.map number))).count outcome =
      ((roundedProfits trades).filter P).length := by
  rw [Tally.count_ofTrades, List.countP_map, ← List.countP_eq_length_filter, roundedProfits,
    List.countP_map]
  refine List.countP_congr fun t _ => ?_
  have hround : roundTo (t.map number).profit profitPlaces =
      number (nearestDecimal t.profit profitPlaces) := roundTo_number _ _
  simp [hround, hP]

/-- One pass over some trades ends with the counts, sums and extremes of their rounded profits. -/
theorem Tally.holds_ofTrades (trades : List (Trade ℝ)) :
    (Tally.ofTrades (trades.map (Trade.map number))).Holds (roundedProfits trades) :=
  { winning := Tally.count_ofTrades_filter trades fun p => (Outcome.ofProfit_number_iff p).1
    losing := Tally.count_ofTrades_filter trades fun p => (Outcome.ofProfit_number_iff p).2.1
    breakeven := Tally.count_ofTrades_filter trades fun p => (Outcome.ofProfit_number_iff p).2.2
    grossProfit := (Tally.gross_ofTrades_filter trades).1
    grossLoss := (Tally.gross_ofTrades_filter trades).2
    largestWin := (Tally.extremes_ofTrades trades).1
    largestLoss := (Tally.extremes_ofTrades trades).2 }

/-- The order of the profits does not matter. -/
theorem Tally.Holds.eq_of_perm {profits profits' : List ℝ} {t t' : Tally Exact}
    (h : t.Holds profits) (h' : t'.Holds profits') (hperm : profits'.Perm profits)
    (hduration : t'.duration = t.duration) : t' = t := by
  have hset : {p | p ∈ 0 :: profits'} = {p | p ∈ 0 :: profits} :=
    Set.ext fun p => (hperm.cons 0).mem_iff
  have hwin : t'.largestWin = t.largestWin := by
    obtain ⟨win, hwin, hgreatest⟩ := h.largestWin
    obtain ⟨win', hwin', hgreatest'⟩ := h'.largestWin
    rw [hset] at hgreatest'
    rw [hwin, hwin', hgreatest'.unique hgreatest]
  have hloss : t'.largestLoss = t.largestLoss := by
    obtain ⟨loss, hloss, hleast⟩ := h.largestLoss
    obtain ⟨loss', hloss', hleast'⟩ := h'.largestLoss
    rw [hset] at hleast'
    rw [hloss, hloss', hleast'.unique hleast]
  have hwinning : t'.winning = t.winning := by
    rw [h.winning, h'.winning, (hperm.filter _).length_eq]
  have hlosing : t'.losing = t.losing := by
    rw [h.losing, h'.losing, (hperm.filter _).length_eq]
  have hbreakeven : t'.breakeven = t.breakeven := by
    rw [h.breakeven, h'.breakeven, (hperm.filter _).length_eq]
  have hgross : t'.grossProfit = t.grossProfit := by
    rw [h.grossProfit, h'.grossProfit, (hperm.filter _).sum_eq]
  have hlost : t'.grossLoss = t.grossLoss := by
    rw [h.grossLoss, h'.grossLoss, (hperm.filter _).sum_eq]
  cases t
  cases t'
  congr

/-- A tally that counts all seconds is the same in every order that lets it. -/
theorem Tally.ofTrades_perm {trades shuffled : List (Trade ℝ)} (hperm : shuffled.Perm trades)
    (h : SecondsFit (trades.map (Trade.map number)))
    (h' : SecondsFit (shuffled.map (Trade.map number))) :
    Tally.ofTrades (shuffled.map (Trade.map number)) =
      Tally.ofTrades (trades.map (Trade.map number)) := by
  refine (Tally.holds_ofTrades trades).eq_of_perm (Tally.holds_ofTrades shuffled)
    (hperm.map _) ?_
  rw [Tally.duration_ofTrades_eq_ok_iff.mpr ⟨h, rfl⟩, Tally.duration_ofTrades_eq_ok_iff.mpr ⟨h', rfl⟩,
    ((hperm.map _).map _).sum_eq]

/-! ## Orders in which the seconds fit -/

theorem seconds_map_number (t : Trade ℝ) : (t.map number).seconds = t.seconds := rfl

/-- A sum lies between those of the negative and of the positive terms, and so does zero. -/
theorem sum_between_filters (numbers : List ℤ) :
    ((numbers.filter (· < 0)).sum ≤ 0 ∧ (numbers.filter (· < 0)).sum ≤ numbers.sum) ∧
      0 ≤ (numbers.filter (0 < ·)).sum ∧ numbers.sum ≤ (numbers.filter (0 < ·)).sum := by
  induction numbers with
  | nil => simp
  | cons n rest ih =>
      have hcons (p : ℤ → Bool) : ((n :: rest).filter p).sum =
          (if p n = true then n else 0) + (rest.filter p).sum := by
        rw [List.filter_cons]
        split
        · exact List.sum_cons
        · exact (zero_add _).symm
      rw [hcons, hcons, List.sum_cons]
      simp only [decide_eq_true_eq]
      split_ifs <;> omega

/-- The seconds of some trades can be counted in every order exactly when those of each trade fit,
and the sums of the positive ones and of the negative ones do. -/
theorem forall_perm_secondsFit_iff {α : Type} {trades : List (Trade α)} :
    (∀ shuffled : List (Trade α), shuffled.Perm trades → SecondsFit shuffled) ↔
      (∀ t ∈ trades, FitsInt64 t.seconds) ∧
      ((trades.map Trade.seconds).filter (0 < ·)).sum ≤ maxInt64 ∧
      minInt64 ≤ ((trades.map Trade.seconds).filter (· < 0)).sum := by
  constructor
  · intro h
    -- The orders that start with the trades of one sign reach the two sums.
    have hfirst (p : ℤ → Bool) : FitsInt64 ((trades.map Trade.seconds).filter p).sum := by
      have hfits := h _ (List.filter_append_perm (p ∘ Trade.seconds) trades)
      rw [SecondsFit, List.map_append] at hfits
      rw [List.filter_map]
      exact hfits.sums _ (List.prefix_append ..)
    exact ⟨fun t ht => (h trades (.refl _)).each _ (List.mem_map_of_mem ht), (hfirst (0 < ·)).2,
      (hfirst (· < 0)).1⟩
  · rintro ⟨heach, hhigh, hlow⟩ shuffled hperm
    constructor
    · intro n hn
      obtain ⟨t, ht, rfl⟩ := List.mem_map.mp hn
      exact heach t (hperm.mem_iff.mp ht)
    · rintro part ⟨rest, hsplit⟩
      have hpart := sum_between_filters part
      have hrest := sum_between_filters rest
      rw [← ((hperm.map _).filter _).sum_eq, ← hsplit, List.filter_append, List.sum_append]
        at hhigh hlow
      constructor
      · omega
      · omega

/-! ## How the table fits together -/

/-- The figures of a table are those of some rounded profits, and fit together. -/
structure Metrics.Consistent (profits : List ℝ) (m : Metrics Exact) : Prop where
  grossProfit : m.grossProfit = number (profits.filter (0 < ·)).sum
  grossLoss : m.grossLoss = number (profits.filter (· < 0)).sum
  totalReturn : m.totalReturn = number profits.sum
  largestWin : ∃ win, m.largestWin = number win ∧ IsGreatest {p | p ∈ 0 :: profits} win
  largestLoss : ∃ loss, m.largestLoss = number loss ∧ IsLeast {p | p ∈ 0 :: profits} loss
  averageWin : 0 ≤ m.averageWin ∧ m.averageWin ≤ m.largestWin
  averageLoss : m.largestLoss ≤ m.averageLoss ∧ m.averageLoss ≤ 0
  winRate : 0 ≤ m.winRate ∧ m.winRate ≤ 100
  profitFactor : m.grossLoss < 0 → (1 < m.profitFactor ↔ 0 < m.totalReturn)

/-- The mean of no values is zero, so bounds on both sides of zero bound any mean. -/
theorem mean_between_around_zero {xs : List ℝ} {low high : ℝ} (hlow : low ≤ 0) (hhigh : 0 ≤ high)
    (h : ∀ x ∈ xs, low ≤ x ∧ x ≤ high) :
    low ≤ xs.sum / xs.length ∧ xs.sum / xs.length ≤ high := by
  rcases eq_or_ne xs [] with rfl | hne
  · simpa using ⟨hlow, hhigh⟩
  · exact mean_between hne h

theorem winRate_number (winning total : ℕ) :
    (winRate winning total : Exact) = number (winning / total * 100) := by
  unfold winRate
  split
  · next hzero => rw [hzero, Nat.cast_zero, div_zero, zero_mul, zero_eq_number]
  · next hne =>
      rw [ofNat_eq_number, ofNat_eq_number, numeral_eq_number 100,
        number_div _ (Nat.cast_ne_zero.mpr hne), number_mul, Nat.cast_ofNat]

/-- A profit factor above one says that the profits outweigh the losses. -/
theorem one_lt_profitFactor_iff {profit loss : ℝ} (hprofit : 0 ≤ profit) (hloss : loss < 0) :
    1 < profitFactor (number profit) (number loss) ↔ 0 < profit + loss := by
  have hfactor : profitFactor (number profit) (number loss) = number (profit / -loss) := by
    have hzero : ¬(number loss == 0) = true := by
      rw [zero_eq_number, number_beq]
      exact hloss.ne
    rw [profitFactor, if_neg hzero, number_div _ hloss.ne]
    show number |profit / loss| = _
    rw [abs_div, abs_of_nonneg hprofit, abs_of_neg hloss]
  rw [hfactor, numeral_eq_number 1, Nat.cast_one, number_lt, one_lt_div (by linarith)]
  constructor <;> intro h <;> linarith

section

variable {profits : List ℝ} {t : Tally Exact}

theorem Tally.Holds.meanWin (h : t.Holds profits) :
    0 ≤ meanOver t.grossProfit t.winning ∧ meanOver t.grossProfit t.winning ≤ t.largestWin := by
  obtain ⟨win, hwin, hgreatest⟩ := h.largestWin
  rw [h.grossProfit, h.winning, meanOver_number, hwin, zero_eq_number, number_le, number_le]
  refine mean_between_around_zero le_rfl (hgreatest.2 List.mem_cons_self) fun p hp => ?_
  obtain ⟨hmem, hpositive⟩ := List.mem_filter.mp hp
  exact ⟨(of_decide_eq_true hpositive).le, hgreatest.2 (List.mem_cons_of_mem 0 hmem)⟩

theorem Tally.Holds.meanLoss (h : t.Holds profits) :
    t.largestLoss ≤ meanOver t.grossLoss t.losing ∧ meanOver t.grossLoss t.losing ≤ 0 := by
  obtain ⟨loss, hloss, hleast⟩ := h.largestLoss
  rw [h.grossLoss, h.losing, meanOver_number, hloss, zero_eq_number, number_le, number_le]
  refine mean_between_around_zero (hleast.2 List.mem_cons_self) le_rfl fun p hp => ?_
  obtain ⟨hmem, hnegative⟩ := List.mem_filter.mp hp
  exact ⟨hleast.2 (List.mem_cons_of_mem 0 hmem), (of_decide_eq_true hnegative).le⟩

theorem Tally.Holds.total (h : t.Holds profits) :
    t.grossProfit + t.grossLoss = number profits.sum := by
  have hparts (p : ℝ) : (if 0 < p then p else 0) + (if p < 0 then p else 0) = p := by
    split_ifs <;> linarith
  rw [h.grossProfit, h.grossLoss, number_add, sum_filter_eq_sum_map, sum_filter_eq_sum_map,
    ← List.sum_map_add]
  simp only [hparts, List.map_id']

theorem Tally.Holds.factor (h : t.Holds profits) (hloss : t.grossLoss < 0) :
    1 < profitFactor t.grossProfit t.grossLoss ↔ 0 < t.grossProfit + t.grossLoss := by
  rw [h.grossLoss, number_neg_iff] at hloss
  rw [h.grossProfit, h.grossLoss, number_add, number_pos_iff]
  refine one_lt_profitFactor_iff (List.sum_nonneg fun p hp => ?_) hloss
  exact (of_decide_eq_true (List.mem_filter.mp hp).2).le

theorem Tally.Holds.rate (h : t.Holds profits) :
    0 ≤ (winRate t.winning profits.length : Exact) ∧
      (winRate t.winning profits.length : Exact) ≤ 100 := by
  have hfew : ((profits.filter (0 < ·)).length : ℝ) ≤ profits.length := by
    exact_mod_cast List.length_filter_le _ _
  have hshare := div_le_one_of_le₀ hfew (Nat.cast_nonneg _)
  rw [h.winning, winRate_number, numeral_eq_number 100, Nat.cast_ofNat, zero_eq_number, number_le,
    number_le]
  exact ⟨by positivity, by linarith⟩

end

theorem consistent_figures (curve : List (EquityPoint Exact)) (series : List (DrawdownPoint Exact))
    (capital riskFree : Exact) (trades : List (Trade ℝ)) (seconds : ℤ) :
    (Metrics.figures curve series (trades.map (Trade.map number)) capital riskFree
      seconds).Consistent (roundedProfits trades) := by
  have hholds := Tally.holds_ofTrades trades
  have hrate := hholds.rate
  rw [roundedProfits, List.length_map, ← List.length_map (Trade.map number)] at hrate
  exact
    { grossProfit := hholds.grossProfit
      grossLoss := hholds.grossLoss
      totalReturn := hholds.total
      largestWin := hholds.largestWin
      largestLoss := hholds.largestLoss
      averageWin := hholds.meanWin
      averageLoss := hholds.meanLoss
      winRate := hrate
      profitFactor := hholds.factor }

/-- In exact arithmetic the figures of a table fit together, and any two orders of the trades that
have a table have the same one.  There is none only if the seconds do not fit in that order, and they
fit in every order exactly when those of each trade do, and the sums of the positive ones and of the
negative ones. -/
theorem metrics_consistent (curve : List (EquityPoint Exact)) (series : List (DrawdownPoint Exact))
    (capital riskFree : Exact) (trades : List (Trade ℝ)) :
    let table (trades : List (Trade ℝ)) :=
      Metrics.compute curve series (trades.map (Trade.map number)) capital riskFree
    (match table trades with
      | .error _ => ¬SecondsFit trades
      | .ok m => m.Consistent (roundedProfits trades)) ∧
    (∀ shuffled : List (Trade ℝ), shuffled.Perm trades →
      ∀ m m', table trades = .ok m → table shuffled = .ok m' → m' = m) ∧
    ((∀ shuffled : List (Trade ℝ), shuffled.Perm trades → ∃ m, table shuffled = .ok m) ↔
      (∀ t ∈ trades, FitsInt64 t.seconds) ∧
      ((trades.map Trade.seconds).filter (0 < ·)).sum ≤ maxInt64 ∧
      minInt64 ≤ ((trades.map Trade.seconds).filter (· < 0)).sum) := by
  intro table
  refine ⟨?_, ?_, ?_⟩
  · cases htable : table trades with
    | error _ =>
        exact mt (secondsFit_map_iff seconds_map_number).mpr (not_secondsFit_of_compute htable)
    | ok m =>
        obtain ⟨-, rfl⟩ := compute_eq_ok_iff.mp htable
        exact consistent_figures curve series capital riskFree trades _
  · intro shuffled hperm m m' h h'
    -- Both tables are made of one tally, for the sums of all seconds are the same.
    obtain ⟨hfits, rfl⟩ := compute_eq_ok_iff.mp h
    obtain ⟨hfits', rfl⟩ := compute_eq_ok_iff.mp h'
    unfold Metrics.figures
    rw [Tally.ofTrades_perm hperm hfits hfits', List.length_map, List.length_map, hperm.length_eq,
      ((hperm.map _).map _).sum_eq]
  · rw [← forall_perm_secondsFit_iff]
    refine forall₂_congr fun shuffled _ => ?_
    constructor
    · rintro ⟨m, hm⟩
      exact (secondsFit_map_iff seconds_map_number).mp (compute_eq_ok_iff.mp hm).1
    · intro hfits
      exact ⟨_, compute_eq_ok_iff.mpr ⟨(secondsFit_map_iff seconds_map_number).mpr hfits, rfl⟩⟩

/-- A win, a loss and a trade whose profit is rounded away, in two orders. -/
theorem metrics_consistent_three :
    let trade (profit : ℝ) : Trade ℝ :=
      ⟨0, 3600, 10, 10 + profit, profit, 10 * profit, .long, .win, .signal⟩
    let table (trades : List (Trade ℝ)) :=
      Metrics.compute [] [] (trades.map (Trade.map number)) 0 0
    let trades := [trade 3, trade (-2), trade (1 / 100000)]
    roundedProfits trades = [3, -2, 0] ∧
    [trade (-2), trade 3, trade (1 / 100000)].Perm trades ∧
    ∃ m, table trades = .ok m ∧ table [trade (-2), trade 3, trade (1 / 100000)] = .ok m ∧
      m.Consistent (roundedProfits trades) ∧ m.grossLoss < 0 ∧ 1 < m.profitFactor := by
  intro trade table trades
  have hsmall : nearestDecimal (1 / 100000) profitPlaces = 0 := by
    have hzero : nearestWhole (1 / 100000 * 10 ^ profitPlaces) = 0 := by
      rw [profitPlaces, nearestWhole, if_pos (by norm_num), round_eq_zero_iff]
      norm_num
    rw [nearestDecimal, hzero, Int.cast_zero, zero_div]
  have hrounded : roundedProfits trades = [3, -2, 0] := by
    have hplaces : 0 ≤ profitPlaces := by decide
    have hwin := nearestDecimal_intCast 3 hplaces
    have hloss := nearestDecimal_intCast (-2) hplaces
    push_cast at hwin hloss
    show [nearestDecimal 3 profitPlaces, nearestDecimal (-2) profitPlaces,
      nearestDecimal (1 / 100000) profitPlaces] = _
    rw [hwin, hloss, hsmall]
  have hperm : [trade (-2), trade 3, trade (1 / 100000)].Perm trades := .swap _ _ _
  obtain ⟨htable, hsame, horders⟩ := metrics_consistent [] [] 0 0 trades
  have htables := horders.mpr ⟨by simp [trades, trade]; decide, by decide, by decide⟩
  obtain ⟨m, hm⟩ := htables trades (.refl _)
  obtain ⟨m', hm'⟩ := htables _ hperm
  obtain rfl := hsame _ hperm m m' hm hm'
  rw [hm] at htable
  have hlost : m'.grossLoss < 0 := by
    rw [htable.grossLoss, hrounded, number_neg_iff]
    norm_num
  have hreturn : 0 < m'.totalReturn := by
    rw [htable.totalReturn, hrounded, number_pos_iff]
    norm_num
  exact ⟨hrounded, hperm, m', hm, hm', htable, hlost, (htable.profitFactor hlost).mpr hreturn⟩

/-- Three trades of which two last half of what 64 bits can count, and one as long the other way: in
one order the count of the seconds overflows, and in another it does not. -/
theorem table_depends_on_order :
    let trade (opens closes : ℤ) : Trade ℝ := ⟨opens, closes, 10, 13, 3, 30, .long, .win, .signal⟩
    let table (trades : List (Trade ℝ)) :=
      Metrics.compute [] [] (trades.map (Trade.map number)) 0 0
    [trade 0 (2 ^ 62), trade (2 ^ 62) 0, trade 0 (2 ^ 62)].Perm
      [trade 0 (2 ^ 62), trade 0 (2 ^ 62), trade (2 ^ 62) 0] ∧
    table [trade 0 (2 ^ 62), trade 0 (2 ^ 62), trade (2 ^ 62) 0] = .error .addition ∧
    ∃ m, table [trade 0 (2 ^ 62), trade (2 ^ 62) 0, trade 0 (2 ^ 62)] = .ok m := by
  intro trade table
  have htable (trades : List (Trade ℝ)) : table trades =
      (trades.foldl (fun count t => do addInt64 (← count) (← Trade.duration t)) (.ok 0)).map
        (Metrics.figures [] [] (trades.map (Trade.map number)) 0 0) := by
    show Except.map _ (Tally.ofTrades _).duration = _
    rw [Tally.duration_ofTrades, List.foldl_map]
    rfl
  refine ⟨.cons _ (.swap _ _ _), ?_, ?_⟩
  · rw [htable]
    rfl
  · rw [htable]
    exact ⟨_, rfl⟩

end Backtester
