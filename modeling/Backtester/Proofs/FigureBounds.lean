import Backtester.Proofs.Booking
import Backtester.Proofs.ExitPrices

/-!
# Bounds on the figures of a run

Each stage of an analysis has its own bound on the exponent, from the profits of the trades on, and
none of them depends on the number of rows.

* `equityCurve_bounds` — equity is bounded, and zero or not too small, so that it can be divided by.
* `drawdownsFrom_within`, `returns_within` — what is measured against the equity of a row.
* `sharpeRatio_within`, `sortinoRatio_within` — ratios over a deviation, which is a root and so never
  very small.
* `tally_bounds` — counts and sums over the trades; a loss is at least one unit of the last place
  that profits are rounded to.
* `atLeast_of_smallest_le`, `capital_bounds`, `rate_within` — decimal bounds on what a run is given.
-/

namespace Backtester

open Doubles

/-! ## Equity -/

/-- What the equity of a row may be: not too large, and zero or not too small. -/
structure EquityBounds (n : ℕ) (x : Float) : Prop where
  within : Within n x
  apart : toReal x = 0 ∨ AtLeast 47 x

section

variable {n : ℕ}

theorem bookTrade_within (times : List Int) {booked : List Float}
    (hbooked : ∀ x ∈ booked, Within (n + 54) x) {trade : Trade Float}
    (htrade : Within n trade.profit) (hn : n + 54 ≤ 1023) :
    ∀ x ∈ bookTrade times booked trade, Within (n + 54) x := by
  intro x hx
  unfold bookTrade at hx
  split at hx
  · next row _ =>
      obtain ⟨i, hi⟩ := List.mem_iff_getElem?.mp hx
      rw [List.getElem?_modify] at hi
      obtain ⟨y, hy, rfl⟩ := Option.map_eq_some_iff.mp hi
      have hold := hbooked y (List.mem_of_getElem? hy)
      split
      · exact hold.add_small htrade hn
      · exact hold
  · exact hbooked x hx

theorem bookings_within (times : List Int) {trades : List (Trade Float)}
    (htrades : ∀ t ∈ trades, Within n t.profit) (hn : n + 54 ≤ 1023) :
    ∀ x ∈ bookings times trades, Within (n + 54) x := by
  have hfold (booked : List Float) (hbooked : ∀ x ∈ booked, Within (n + 54) x) :
      ∀ x ∈ trades.foldl (bookTrade times) booked, Within (n + 54) x := by
    induction trades generalizing booked with
    | nil => exact hbooked
    | cons trade rest ih =>
        obtain ⟨htrade, hrest⟩ := List.forall_mem_cons.mp htrades
        exact ih hrest _ (bookTrade_within times hbooked htrade hn)
  refine hfold _ fun x hx => ?_
  obtain rfl := List.eq_of_mem_replicate hx
  exact within_zero

/-- The equity of every row, by induction on the rows with the profit earned before them. -/
theorem equityFrom_bounds {capital : Float} (hcapital : Within (n + 54) capital)
    (hlarge : 2 ^ 6 ≤ |toReal capital|) {rows : List (Int × Float)}
    (hrows : ∀ row ∈ rows, Within n row.2) {earned : Float} (hearned : Within (n + 54) earned)
    (hn : n + 55 ≤ 1023) :
    ∀ p ∈ equityFrom capital earned rows, EquityBounds (n + 55) p.equity := by
  induction rows generalizing earned with
  | nil => exact fun p hp => by cases hp
  | cons row rest ih =>
      obtain ⟨hrow, hrest⟩ := List.forall_mem_cons.mp hrows
      have hnext := hearned.add_small hrow (by omega)
      have hequity : Within (n + 55) (capital + (earned + row.2)) := hcapital.add hnext hn
      refine List.forall_mem_cons.mpr ⟨⟨hequity, ?_⟩, ih hrest hnext⟩
      exact add_atLeast hcapital.isFinite hnext.isFinite hlarge hequity.isFinite

theorem equityCurve_bounds {capital : Float} (hcapital : Within (n + 108) capital)
    (hlarge : 2 ^ 6 ≤ |toReal capital|) (candles : List (Candle Float)) {trades : List (Trade Float)}
    (htrades : ∀ t ∈ trades, Within n t.profit) (hn : n + 109 ≤ 1023) :
    ∀ p ∈ equityCurve candles trades capital, EquityBounds (n + 109) p.equity := by
  have hbooked := bookings_within (candles.map Candle.time) htrades (by omega)
  refine equityFrom_bounds hcapital hlarge (fun row hrow => ?_) within_zero hn
  exact hbooked _ (List.of_mem_zip hrow).2

/-! ## Drawdowns -/

/-- Any finite value is larger than negative infinity. -/
theorem larger_infinite {x : Float} (hx : x.isFinite = true) :
    Scalar.larger (Scalar.infinite true) x = x := by
  have hunpack : x.toModel.unpack.isFinite = true := hx
  have hnan : Float.isNaN (Scalar.infinite true) = false := by decide +kernel
  have hlt : (Scalar.infinite true : Float) < x := by
    rw [lt_iff]
    have hinfinite : (Scalar.infinite true : Float).toModel.unpack = .infinity .negative := rfl
    rw [hinfinite]
    cases hcase : x.toModel.unpack with
    | infinity | notANumber => rw [hcase] at hunpack; cases hunpack
    | zero | finite => rfl
  show (if Float.isNaN (Scalar.infinite true) then x
    else if (Scalar.infinite true : Float) < x then x else Scalar.infinite true) = x
  rw [hnan, if_neg Bool.false_ne_true, if_pos hlt]

theorem EquityBounds.atLeast {x : Float} (h : EquityBounds n x)
    (hne : ¬(x == Scalar.ofNat 0) = true) : AtLeast 47 x :=
  h.apart.resolve_left (mt (beq_zero_iff h.within.isFinite).mpr hne)

theorem drawdownBelow_within {highest : Float} (hhighest : EquityBounds n highest)
    {p : EquityPoint Float} (hp : EquityBounds n p.equity) (hn : n + 55 ≤ 1023) :
    Within (n + 55) (drawdownBelow highest p).amount ∧
      Within (n + 55) (drawdownBelow highest p).percent := by
  have hamount : Within (n + 1) (p.equity - highest) := hp.within.sub hhighest.within (by omega)
  refine ⟨hamount.mono (by omega), ?_⟩
  unfold drawdownBelow
  dsimp only
  split
  · next hnonzero =>
      rw [Bool.and_eq_true, Bool.not_eq_true'] at hnonzero
      have hne : ¬(highest == Scalar.ofNat 0) = true :=
        fun hzero => Bool.false_ne_true (hnonzero.1.symm.trans hzero)
      exact (hamount.div (hhighest.atLeast hne) (by omega)).percent (by omega)
  · exact within_zero

/-- The drawdowns of some rows, by induction on them with the highest equity before them. -/
theorem drawdownsFrom_within {curve : List (EquityPoint Float)}
    (hcurve : ∀ p ∈ curve, EquityBounds n p.equity) {highest : Float}
    (hhighest : highest = Scalar.infinite true ∨ EquityBounds n highest) (hn : n + 55 ≤ 1023) :
    ∀ d ∈ drawdownsFrom highest curve, Within (n + 55) d.amount ∧ Within (n + 55) d.percent := by
  induction curve generalizing highest with
  | nil => exact fun d hd => by cases hd
  | cons p rest ih =>
      obtain ⟨hp, hrest⟩ := List.forall_mem_cons.mp hcurve
      have hnext : EquityBounds n (Scalar.larger highest p.equity) := by
        rcases hhighest with rfl | hhighest
        · rwa [larger_infinite hp.within.isFinite]
        · exact larger_of_both (P := EquityBounds n) hhighest hp
      exact List.forall_mem_cons.mpr ⟨drawdownBelow_within hnext hp hn, ih hrest (Or.inr hnext)⟩

/-! ## Returns -/

theorem relativeChange_within {previous current : Float} (hprevious : EquityBounds n previous)
    (hcurrent : EquityBounds n current) (hn : n + 48 ≤ 1023) :
    Within (n + 48) (relativeChange previous current) := by
  have hchange : Within (n + 48)
      (if previous == Scalar.ofNat 0 then Scalar.ofNat 0 else (current - previous) / previous) := by
    split
    · exact within_zero
    · next hne =>
        exact (hcurrent.within.sub hprevious.within (by omega)).div (hprevious.atLeast hne) hn
  have hfinite {x : Float} (hx : Within (n + 48) x) :
      Within (n + 48) (if Scalar.isFinite x then x else Scalar.ofNat 0) := by
    split
    · exact hx
    · exact within_zero
  exact hfinite hchange

theorem returns_within {curve : List (EquityPoint Float)}
    (hcurve : ∀ p ∈ curve, EquityBounds n p.equity) (hn : n + 48 ≤ 1023) :
    ∀ x ∈ returns curve, Within (n + 48) x := by
  cases curve with
  | nil => exact fun x hx => by cases hx
  | cons first rest =>
      refine List.forall_mem_cons.mpr ⟨within_zero, fun x hx => ?_⟩
      obtain ⟨i, hi⟩ := List.mem_iff_getElem?.mp hx
      obtain ⟨p, q, hp, hq, rfl⟩ := List.getElem?_zipWith_eq_some.mp hi
      have hcurrent := hcurve q (List.mem_cons_of_mem first (List.mem_of_getElem? hq))
      exact relativeChange_within (hcurve p (List.mem_of_getElem? hp)) hcurrent hn

theorem length_returns (curve : List (EquityPoint Float)) : (returns curve).length = curve.length := by
  cases curve with
  | nil => rfl
  | cons first rest => simp [returns]

/-! ## Ratios -/

theorem excessReturns_within {changes : List Float} (hchanges : ∀ x ∈ changes, Within n x)
    {riskFree : Float} (hrate : Within 0 riskFree) (hn : n + 1 ≤ 1023) :
    ∀ x ∈ excessReturns changes riskFree, Within (n + 1) x := by
  intro x hx
  obtain ⟨change, hchange, rfl⟩ := List.mem_map.mp hx
  have hdaily : Within 0 (riskFree / Scalar.ofNat 365) :=
    hrate.div (ofNat_atLeast (by norm_num) (by norm_num)) (by norm_num)
  exact (hchanges change hchange).sub (hdaily.mono (Nat.zero_le n)) hn

theorem mean_excessReturns_within {changes : List Float} (hchanges : ∀ x ∈ changes, Within n x)
    {riskFree : Float} (hrate : Within 0 riskFree) (hne : changes ≠ [])
    (hlong : changes.length < 2 ^ 64) (hn : n + 55 ≤ 1023) :
    Within (n + 55) (Scalar.mean (excessReturns changes riskFree)) := by
  have hlength : (excessReturns changes riskFree).length = changes.length := List.length_map _
  refine mean_within (excessReturns_within hchanges hrate (by omega)) (by omega) ?_ (by rwa [hlength])
  rw [← List.length_pos_iff, hlength, List.length_pos_iff]
  exact hne

theorem sqrt_periodsPerYear_within : Within 5 (Scalar.sqrt (periodsPerYear : Float)) := by
  obtain ⟨hfinite, hvalue⟩ := toReal_ofNat (n := 365) (by norm_num)
  have hrounds : RoundsTo √(365 : ℕ) (Scalar.sqrt (periodsPerYear : Float)) := by
    rw [← hvalue]
    exact sqrt_roundsTo hfinite (by rw [hvalue]; positivity)
  refine hrounds.within (by norm_num) ?_
  rw [abs_of_nonneg (Real.sqrt_nonneg _)]
  exact Real.sqrt_le_iff.mpr ⟨by norm_num, by norm_num⟩

/-- A root that is not zero is not small, so a ratio over it is bounded. -/
theorem annualRatio_within {mean x : Float} (hmean : Within n mean) (hn : n + 542 ≤ 1023) :
    Within (n + 542) (annualRatio mean (Scalar.sqrt x)) := by
  unfold annualRatio
  dsimp only
  split
  · exact within_zero
  · next hguard =>
      rw [Bool.or_eq_true, not_or] at hguard
      obtain ⟨hnonzero, hfinite⟩ := hguard
      have hfinite : x.sqrt.isFinite = true := by
        rw [Bool.not_eq_true', Bool.not_eq_false] at hfinite
        exact hfinite
      have hroot := sqrt_atLeast hfinite (mt (beq_zero_iff hfinite).mpr hnonzero)
      split
      · exact (hmean.div hroot (by omega)).mul sqrt_periodsPerYear_within (by omega)
      · exact within_zero

theorem sharpeRatio_within {changes : List Float} (hchanges : ∀ x ∈ changes, Within n x)
    {riskFree : Float} (hrate : Within 0 riskFree) (hlong : changes.length < 2 ^ 64)
    (hn : n + 597 ≤ 1023) : Within (n + 597) (sharpeRatio changes riskFree) := by
  unfold sharpeRatio
  split
  · exact within_zero
  · next htwo =>
      have hne : changes ≠ [] := by
        rintro rfl
        exact htwo (by decide)
      exact annualRatio_within (mean_excessReturns_within hchanges hrate hne hlong (by omega))
        (by omega)

theorem sortinoRatio_within {changes : List Float} (hchanges : ∀ x ∈ changes, Within n x)
    {riskFree : Float} (hrate : Within 0 riskFree) (hlong : changes.length < 2 ^ 64)
    (hn : n + 597 ≤ 1023) : Within (n + 597) (sortinoRatio changes riskFree) := by
  unfold sortinoRatio
  split
  · exact within_zero
  · next hsome =>
      have hne : changes ≠ [] := by
        rintro rfl
        exact hsome rfl
      have hmean := mean_excessReturns_within hchanges hrate hne hlong (by omega)
      dsimp only
      split
      · split
        · exact (ofNat_within (by norm_num) (by norm_num) (by norm_num) :
            Within 4 (Scalar.ofNat 10 : Float)).mono (by omega)
        · exact within_zero
      · exact annualRatio_within hmean (by omega)

/-! ## Counts and sums -/

/-- What the tally of `count` trades may be, whose rounded profits are at most `2 ^ n`. -/
structure TallyBounds (n count : ℕ) (t : Tally Float) : Prop where
  grossProfit : Within (n + 54) t.grossProfit
  grossLoss : Within (n + 54) t.grossLoss
  loss : toReal t.grossLoss = 0 ∨ toReal t.grossLoss ≤ -2 ^ (-14 : ℤ)
  largestWin : Within n t.largestWin
  largestLoss : Within n t.largestLoss
  winning : t.winning ≤ count
  losing : t.losing ≤ count

theorem TallyBounds.add {count : ℕ} {t : Tally Float} (h : TallyBounds (n + 1) count t)
    {trade : Trade Float} (htrade : Within n trade.profit) (hn : n + 55 ≤ 1023) :
    TallyBounds (n + 1) (count + 1) (t.add trade) := by
  have hprofit := roundTo_within isScale_profitPlaces htrade (by omega)
  unfold Tally.add
  dsimp only
  split
  · exact
      { grossProfit := h.grossProfit.add_small hprofit (by omega)
        grossLoss := h.grossLoss
        loss := h.loss
        largestWin := h.largestWin.larger hprofit
        largestLoss := h.largestLoss
        winning := Nat.succ_le_succ h.winning
        losing := h.losing.trans (Nat.le_succ count) }
  · split
    · next hnegative =>
        have hsum := h.grossLoss.add_small hprofit (by omega)
        have hunit : toReal (roundTo trade.profit profitPlaces) ≤ -2 ^ (-14 : ℤ) := by
          have hlt := (lt_iff_toReal hprofit.isFinite toReal_zero.1).mp hnegative
          rw [toReal_zero.2] at hlt
          rcases roundTo_atLeast isScale_profitPlaces htrade (by omega) with hzero | hplace
          · linarith
          · have hle := hplace.le_abs
            rw [abs_of_neg hlt] at hle
            push_cast at hle
            linarith
        have hloss : toReal t.grossLoss ≤ 0 := by
          have hplace : (0 : ℝ) < 2 ^ (-14 : ℤ) := by positivity
          rcases h.loss with hzero | hle
          · exact hzero.le
          · linarith
        have hnearest := (add_roundsTo h.grossLoss.isFinite hprofit.isFinite).nearest hsum.isFinite
        exact
          { grossProfit := h.grossProfit
            grossLoss := hsum
            loss := Or.inr (hnearest.le_of_le (isDouble_zpow (by norm_num)).neg (by linarith))
            largestWin := h.largestWin
            largestLoss := h.largestLoss.smaller hprofit
            winning := h.winning.trans (Nat.le_succ count)
            losing := Nat.succ_le_succ h.losing }
    · exact
        { h with
          winning := h.winning.trans (Nat.le_succ count)
          losing := h.losing.trans (Nat.le_succ count) }

theorem tally_bounds {trades : List (Trade Float)} (htrades : ∀ t ∈ trades, Within n t.profit)
    (hn : n + 55 ≤ 1023) : TallyBounds (n + 1) trades.length (Tally.ofTrades trades) := by
  -- The bounds on the sums do not grow with the trades, only the counts do.
  have hfold {count : ℕ} {t : Tally Float} (h : TallyBounds (n + 1) count t) :
      TallyBounds (n + 1) (count + trades.length) (trades.foldl Tally.add t) := by
    induction trades generalizing count t with
    | nil => exact h
    | cons trade rest ih =>
        obtain ⟨htrade, hrest⟩ := List.forall_mem_cons.mp htrades
        rw [List.length_cons, Nat.add_comm rest.length, ← Nat.add_assoc]
        exact ih hrest (h.add htrade hn)
  have hempty : TallyBounds (n + 1) 0 (Tally.empty : Tally Float) :=
    { grossProfit := within_zero
      grossLoss := within_zero
      loss := Or.inl toReal_zero.2
      largestWin := within_zero
      largestLoss := within_zero
      winning := le_rfl
      losing := le_rfl }
  have h := hfold hempty
  rwa [Nat.zero_add] at h

theorem meanOver_within {sum : Float} (hsum : Within n sum) {count : ℕ} (hcount : count < 2 ^ 64)
    (hn : n ≤ 1023) : Within n (meanOver sum count) := by
  unfold meanOver
  split
  · exact within_zero
  · next hne => exact hsum.div (ofNat_atLeast (Nat.pos_of_ne_zero hne) hcount) hn

theorem winRate_within {winning total : ℕ} (hle : winning ≤ total) (htotal : total < 2 ^ 64) :
    Within 71 (winRate winning total : Float) := by
  unfold winRate
  split
  · exact within_zero
  · next hne =>
      have hratio : Within 64 (Scalar.ofNat winning / Scalar.ofNat total : Float) :=
        (ofNat_within (hle.trans htotal.le) (hle.trans_lt htotal) (by norm_num)).div
          (ofNat_atLeast (Nat.pos_of_ne_zero hne) htotal) (by norm_num)
      exact hratio.percent (by norm_num)

theorem TallyBounds.profitFactor {count : ℕ} {t : Tally Float} (h : TallyBounds n count t)
    (hn : n + 68 ≤ 1023) : Within (n + 68) (profitFactor t.grossProfit t.grossLoss) := by
  unfold Backtester.profitFactor
  split
  · split
    · exact h.grossProfit.mono (by omega)
    · exact within_zero
  · next hne =>
      have hnonzero := mt (beq_zero_iff h.grossLoss.isFinite).mpr hne
      have hle := h.loss.resolve_left hnonzero
      have hloss : AtLeast 14 t.grossLoss := by
        refine ⟨h.grossLoss.isFinite, ?_⟩
        have hplace : (0 : ℝ) < 2 ^ (-14 : ℤ) := by positivity
        rw [abs_of_neg (by linarith)]
        push_cast
        linarith
      exact (h.grossProfit.div hloss (by omega)).abs

end

/-! ## Thresholds -/

theorem largest_le : (1e75 : Float).isFinite = true ∧ toReal 1e75 ≤ 2 ^ 250 := by
  have hfinite : (1e75 : Float).isFinite = true := by decide +kernel
  have hparts : Binary64.ofFloat 1e75 = .finite false 4978412222288913 197 := by decide +kernel
  refine ⟨hfinite, ?_⟩
  rw [toReal_of_ofFloat hfinite hparts]
  norm_num

theorem atLeast_of_smallest_le {x : Float} (hx : x.isFinite = true) (hle : 1e-225 ≤ x) :
    AtLeast 748 x := by
  have hfinite : (1e-225 : Float).isFinite = true := by decide +kernel
  have hparts : Binary64.ofFloat 1e-225 = .finite false 6668014432879854 (-800) := by decide +kernel
  have hvalue := toReal_of_ofFloat hfinite hparts
  have hreal := (le_iff_toReal hfinite hx).mp hle
  refine ⟨hx, ?_⟩
  have hunit : (2 : ℝ) ^ (-748 : ℤ) ≤ toReal 1e-225 := by
    rw [hvalue, show (-748 : ℤ) = 52 + -800 by norm_num, zpow_add₀ (by norm_num)]
    exact mul_le_mul_of_nonneg_right (by norm_num) (by positivity)
  exact (hunit.trans hreal).trans (le_abs_self _)

theorem capital_bounds {capital : Float} (hlow : 100 ≤ capital) (hhigh : capital ≤ 1e75) :
    Within 250 capital ∧ 2 ^ 6 ≤ |toReal capital| := by
  obtain ⟨hlargest, hbound⟩ := largest_le
  have hhundred : (100 : Float) = Scalar.ofNat 100 := by decide +kernel
  obtain ⟨hfinite, hvalue⟩ := toReal_ofNat (n := 100) (by norm_num)
  rw [← hhundred] at hfinite hvalue
  have hcapital := isFinite_of_between hfinite hlargest hlow hhigh
  have hreal := (le_iff_toReal hfinite hcapital).mp hlow
  rw [hvalue] at hreal
  have hle := ((le_iff_toReal hcapital hlargest).mp hhigh).trans hbound
  push_cast at hreal
  refine ⟨⟨hcapital, ?_⟩, ?_⟩
  · rwa [abs_of_nonneg (by linarith)]
  · rw [abs_of_nonneg (by linarith)]
    linarith

theorem rate_within {rate : Float} (hlow : 0 ≤ rate) (hhigh : rate < 1) : Within 0 rate := by
  have hone : (1 : Float) = Scalar.ofNat 1 := by decide +kernel
  obtain ⟨hfinite, hvalue⟩ := toReal_ofNat (n := 1) (by norm_num)
  rw [← hone] at hfinite hvalue
  have hrate := isFinite_of_between toReal_zero.1 hfinite hlow (Doubles.le_of_lt hhigh)
  have hnonneg := (nonneg_iff_toReal hrate).mp hlow
  have hlt := (lt_iff_toReal hrate hfinite).mp hhigh
  rw [hvalue, Nat.cast_one] at hlt
  exact ⟨hrate, by rw [abs_of_nonneg hnonneg, pow_zero]; exact hlt.le⟩

end Backtester
