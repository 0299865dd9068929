import Backtester.Run
import Mathlib

/-!
# Counted seconds

The seconds of a run's trades are counted in 64 bits, one trade after another.  The count comes to
its end exactly when the seconds of every trade and every sum on the way fit into 64 bits.  Then it
is their sum, and summary, analysis and result of the run are there; otherwise none of them is.

* `SumsFit` — numbers that can be added up in 64 bits from the left.
* `Trade.seconds`, `SecondsFit` — how long positions were open, without bounds, and trades for which
  this can be counted.
* `Tally.duration_ofTrades_eq_ok_iff` — the count of a trade list.
* `compute_eq_ok_iff`, `analyze_eq_ok_iff`, `backtest_eq_ok_iff` — the summary, the analysis and the
  result that go with it.
-/

namespace Backtester

/-! ## Sums in 64 bits -/

/-- Each of some numbers fits into 64 bits, and so does the sum of any first ones. -/
structure SumsFit (numbers : List ℤ) : Prop where
  each : ∀ n ∈ numbers, FitsInt64 n
  sums : ∀ part, part <+: numbers → FitsInt64 part.sum

section

variable {numbers : List ℤ}

theorem SumsFit.of_isPrefix {part : List ℤ} (h : SumsFit numbers) (hpart : part <+: numbers) :
    SumsFit part where
  each := fun n hn => h.each n (hpart.subset hn)
  sums := fun earlier hearlier => h.sums earlier (hearlier.trans hpart)

theorem sumsFit_nil : SumsFit [] where
  each := by simp
  sums := by
    intro part hpart
    rw [List.prefix_nil.mp hpart]
    decide

/-- One more number. -/
theorem sumsFit_concat_iff {n : ℤ} :
    SumsFit (numbers ++ [n]) ↔ SumsFit numbers ∧ FitsInt64 n ∧ FitsInt64 (numbers.sum + n) := by
  have hsum : (numbers ++ [n]).sum = numbers.sum + n := by
    rw [List.sum_append, List.sum_singleton]
  constructor
  · intro h
    refine ⟨h.of_isPrefix (List.prefix_append numbers _), h.each n (by simp), ?_⟩
    rw [← hsum]
    exact h.sums _ List.prefix_rfl
  · rintro ⟨hnumbers, hlast, hall⟩
    constructor
    · intro m hm
      rcases List.mem_append.mp hm with hearlier | hsame
      · exact hnumbers.each m hearlier
      · rwa [List.mem_singleton.mp hsame]
    · intro part hpart
      rcases List.prefix_concat_iff.mp hpart with rfl | hearlier
      · rwa [hsum]
      · exact hnumbers.sums part hearlier

theorem SumsFit.abs_sum_le (h : SumsFit numbers) : |numbers.sum| ≤ 2 ^ 63 := by
  obtain ⟨hlow, hhigh⟩ := h.sums numbers List.prefix_rfl
  unfold minInt64 at hlow
  unfold maxInt64 at hhigh
  rw [abs_le]
  omega

/-- Numbers that are not negative fit exactly when their sum does: no sum on the way is larger. -/
theorem sumsFit_iff_of_nonneg (hnonneg : ∀ n ∈ numbers, 0 ≤ n) :
    SumsFit numbers ↔ numbers.sum ≤ maxInt64 := by
  have hfits {n : ℤ} (hlow : 0 ≤ n) (hhigh : n ≤ maxInt64) : FitsInt64 n := by
    refine ⟨?_, hhigh⟩
    unfold minInt64
    omega
  constructor
  · intro h
    exact (h.sums numbers List.prefix_rfl).2
  · intro htotal
    constructor
    · intro n hn
      exact hfits (hnonneg n hn) ((List.single_le_sum hnonneg n hn).trans htotal)
    · rintro part ⟨rest, rfl⟩
      rw [List.sum_append] at htotal
      have hpart := List.sum_nonneg fun n hn => hnonneg n (List.mem_append_left rest hn)
      have hrest := List.sum_nonneg fun n hn => hnonneg n (List.mem_append_right part hn)
      exact hfits hpart (by omega)

end

/-- The seconds from opening to closing. -/
def Trade.seconds {α : Type} (t : Trade α) : ℤ := t.exitTime - t.entryTime

/-- The seconds of some trades can be counted in 64 bits, one trade after another. -/
def SecondsFit {α : Type} (trades : List (Trade α)) : Prop := SumsFit (trades.map Trade.seconds)

theorem secondsFit_nil {α : Type} : SecondsFit ([] : List (Trade α)) := sumsFit_nil

/-- What leaves the ends of the trades where they are leaves their seconds as they are. -/
theorem secondsFit_map_iff {α β : Type} {f : Trade α → Trade β}
    (hf : ∀ t, (f t).seconds = t.seconds) {trades : List (Trade α)} :
    SecondsFit (trades.map f) ↔ SecondsFit trades := by
  have hseconds : Trade.seconds ∘ f = Trade.seconds := funext hf
  rw [SecondsFit, SecondsFit, List.map_map, hseconds]

theorem secondsFit_iff_of_pos {α : Type} {trades : List (Trade α)}
    (hpositive : ∀ t ∈ trades, 0 < t.seconds) :
    SecondsFit trades ↔ (trades.map Trade.seconds).sum ≤ maxInt64 := by
  apply sumsFit_iff_of_nonneg
  intro seconds hseconds
  obtain ⟨t, ht, rfl⟩ := List.mem_map.mp hseconds
  exact (hpositive t ht).le

/-! ## Counting -/

theorem addInt64_eq_ok_iff {m n sum : ℤ} :
    addInt64 m n = .ok sum ↔ FitsInt64 (m + n) ∧ sum = m + n := by
  unfold addInt64
  split <;> simp [*, eq_comm]

theorem subInt64_eq_ok_iff {m n difference : ℤ} :
    subInt64 m n = .ok difference ↔ FitsInt64 (m - n) ∧ difference = m - n := by
  unfold subInt64
  split <;> simp [*, eq_comm]

/-- A value that comes from a value made on the way. -/
theorem except_map_eq_ok_iff {ε β γ : Type} {f : β → γ} {x : Except ε β} {c : γ} :
    x.map f = .ok c ↔ ∃ b, x = .ok b ∧ c = f b := by
  cases x <;> simp [Except.map, eq_comm]

theorem Trade.duration_eq_ok_iff {α : Type} {t : Trade α} {seconds : ℤ} :
    t.duration = .ok seconds ↔ FitsInt64 t.seconds ∧ seconds = t.seconds := subInt64_eq_ok_iff

section

variable {α : Type} [Scalar α]

theorem Tally.duration_add (t : Tally α) (trade : Trade α) :
    (t.add trade).duration = (do addInt64 (← t.duration) (← trade.duration)) := by
  unfold Tally.add
  dsimp only
  split
  · rfl
  · split <;> rfl

/-- The count of the seconds does not depend on anything else that a tally keeps. -/
theorem Tally.duration_ofTrades (trades : List (Trade α)) :
    (Tally.ofTrades trades).duration =
      trades.foldl (fun count trade => do addInt64 (← count) (← trade.duration)) (.ok 0) :=
  (List.foldl_hom Tally.duration fun t trade => (duration_add t trade).symm).symm

/-- The seconds of a trade list are counted to the end exactly when they fit, and correctly then. -/
theorem Tally.duration_ofTrades_eq_ok_iff {trades : List (Trade α)} {seconds : ℤ} :
    (Tally.ofTrades trades).duration = .ok seconds ↔
      SecondsFit trades ∧ seconds = (trades.map Trade.seconds).sum := by
  -- Trade by trade: the tally has counted all but the last one.
  induction trades using List.reverseRecOn generalizing seconds with
  | nil => simpa [Tally.ofTrades, Tally.empty, SecondsFit, sumsFit_nil] using eq_comm
  | append_singleton seen trade ih =>
      rw [duration_ofTrades, List.foldl_concat, ← duration_ofTrades, SecondsFit, List.map_append,
        List.map_singleton, List.sum_append, List.sum_singleton]
      simp only [bind_eq_ok, ih, Trade.duration_eq_ok_iff, addInt64_eq_ok_iff, sumsFit_concat_iff]
      constructor
      · rintro ⟨_, ⟨hseen, rfl⟩, _, ⟨htrade, rfl⟩, hsum, rfl⟩
        exact ⟨⟨hseen, htrade, hsum⟩, rfl⟩
      · rintro ⟨⟨hseen, htrade, hsum⟩, rfl⟩
        exact ⟨_, ⟨hseen, rfl⟩, _, ⟨htrade, rfl⟩, hsum, rfl⟩

/-! ## Summary, analysis and result -/

theorem Trade.seconds_rounded (t : Trade α) : t.rounded.seconds = t.seconds := rfl

theorem compute_eq_ok_iff {curve : List (EquityPoint α)} {series : List (DrawdownPoint α)}
    {trades : List (Trade α)} {capital riskFree : α} {m : Metrics α} :
    Metrics.compute curve series trades capital riskFree = .ok m ↔
      SecondsFit trades ∧
        m = Metrics.figures curve series trades capital riskFree (trades.map Trade.seconds).sum := by
  rw [Metrics.compute, except_map_eq_ok_iff]
  simp only [Tally.duration_ofTrades_eq_ok_iff]
  constructor
  · rintro ⟨_, ⟨hfits, rfl⟩, rfl⟩
    exact ⟨hfits, rfl⟩
  · rintro ⟨hfits, rfl⟩
    exact ⟨_, ⟨hfits, rfl⟩, rfl⟩

theorem not_secondsFit_of_compute {curve : List (EquityPoint α)} {series : List (DrawdownPoint α)}
    {trades : List (Trade α)} {capital riskFree : α} {overflow : Overflow}
    (h : Metrics.compute curve series trades capital riskFree = .error overflow) :
    ¬SecondsFit trades := by
  intro hfits
  cases h.symm.trans (compute_eq_ok_iff.mpr ⟨hfits, rfl⟩)

theorem analyze_eq_ok_iff {candles : List (Candle α)} {trades : List (Trade α)}
    {capital riskFree : α} {analysis : Analysis α} :
    analyze candles trades capital riskFree = .ok analysis ↔
      Metrics.compute (equityCurve candles trades capital)
          (drawdowns (equityCurve candles trades capital)) trades capital riskFree =
        .ok analysis.metrics ∧
      analysis.equityCurve = equityCurve candles trades capital ∧
      analysis.drawdowns = drawdowns analysis.equityCurve := by
  rw [analyze, bind_eq_ok]
  constructor
  · rintro ⟨metrics, hmetrics, h⟩
    cases h
    exact ⟨hmetrics, rfl, rfl⟩
  · rintro ⟨hmetrics, hcurve, hdrawdowns⟩
    refine ⟨analysis.metrics, hmetrics, ?_⟩
    rw [← hcurve, ← hdrawdowns]
    rfl

/-- Rounding the trades leaves the count of their seconds as it is, with the overflow that may end
it. -/
theorem Tally.duration_map_rounded (trades : List (Trade α)) :
    (Tally.ofTrades (trades.map Trade.rounded)).duration = (Tally.ofTrades trades).duration := by
  rw [duration_ofTrades, duration_ofTrades, List.foldl_map]
  rfl

section

variable {candles : List (Candle α)} {config : RunConfig α} {spec : Option (StrategySpec α)}
  {result : RunResult α}

/-- A result is that of an analysis of the rounded trades of the run. -/
theorem backtest_eq_ok_iff :
    backtest candles config spec = .ok result ↔
      ∃ analysis, analyze candles ((runTrades candles config spec).map Trade.rounded) config.capital
          config.riskFree = .ok analysis ∧
        result = .ofAnalysis config (Strategy.ofSpec spec config.fast config.slow).name
          ((runTrades candles config spec).map Trade.rounded) analysis := by
  rw [backtest, RunResult.assemble, bind_eq_ok]
  refine exists_congr fun analysis => and_congr_right fun _ => ?_
  exact ⟨fun h => by cases h; rfl, fun h => by rw [h]; rfl⟩

theorem trades_of_backtest (h : backtest candles config spec = .ok result) :
    result.trades = (runTrades candles config spec).map Trade.rounded := by
  obtain ⟨_, -, rfl⟩ := backtest_eq_ok_iff.mp h
  rfl

/-- What a result reports besides its trades is the rounded analysis of these. -/
theorem analysis_of_backtest (h : backtest candles config spec = .ok result) :
    ∃ analysis, analyze candles result.trades config.capital config.riskFree = .ok analysis ∧
      result.metrics = analysis.metrics.rounded ∧
      result.equityCurve = analysis.equityCurve.map EquityPoint.rounded ∧
      result.drawdowns = analysis.drawdowns.map DrawdownPoint.rounded := by
  obtain ⟨analysis, hanalysis, rfl⟩ := backtest_eq_ok_iff.mp h
  exact ⟨analysis, hanalysis, rfl, rfl, rfl⟩

theorem equityCurve_of_backtest (h : backtest candles config spec = .ok result) :
    result.equityCurve =
      (equityCurve candles result.trades config.capital).map EquityPoint.rounded := by
  obtain ⟨analysis, hanalysis, -, hcurve, -⟩ := analysis_of_backtest h
  rw [hcurve, (analyze_eq_ok_iff.mp hanalysis).2.1]

theorem drawdowns_of_backtest (h : backtest candles config spec = .ok result) :
    result.drawdowns =
      (drawdowns (equityCurve candles result.trades config.capital)).map DrawdownPoint.rounded := by
  obtain ⟨analysis, hanalysis, -, -, hdrawdowns⟩ := analysis_of_backtest h
  obtain ⟨-, hcurve, hseries⟩ := analyze_eq_ok_iff.mp hanalysis
  rw [hdrawdowns, hseries, hcurve]

theorem metrics_of_backtest (h : backtest candles config spec = .ok result) :
    ∃ m, Metrics.compute (equityCurve candles result.trades config.capital)
        (drawdowns (equityCurve candles result.trades config.capital)) result.trades config.capital
        config.riskFree = .ok m ∧ result.metrics = m.rounded := by
  obtain ⟨analysis, hanalysis, hmetrics, -⟩ := analysis_of_backtest h
  exact ⟨analysis.metrics, (analyze_eq_ok_iff.mp hanalysis).1, hmetrics⟩

/-- A run has a result exactly when the seconds of its trades fit. -/
theorem exists_backtest_eq_ok_iff :
    (∃ result, backtest candles config spec = .ok result) ↔
      SecondsFit (runTrades candles config spec) := by
  constructor
  · rintro ⟨result, h⟩
    obtain ⟨m, hm, -⟩ := metrics_of_backtest h
    rw [trades_of_backtest h] at hm
    exact (secondsFit_map_iff Trade.seconds_rounded).mp (compute_eq_ok_iff.mp hm).1
  · intro hfits
    let trades := (runTrades candles config spec).map Trade.rounded
    let curve := equityCurve candles trades config.capital
    have hcompute : Metrics.compute curve (drawdowns curve) trades config.capital config.riskFree =
        .ok _ := compute_eq_ok_iff.mpr ⟨(secondsFit_map_iff Trade.seconds_rounded).mpr hfits, rfl⟩
    exact ⟨_, backtest_eq_ok_iff.mpr ⟨⟨curve, drawdowns curve, _⟩,
      analyze_eq_ok_iff.mpr ⟨hcompute, rfl, rfl⟩, rfl⟩⟩

/-- A run ends in the overflow that ends the count of its seconds. -/
theorem backtest_eq_error_of_duration {overflow : Overflow}
    (h : (Tally.ofTrades (runTrades candles config spec)).duration = .error overflow) :
    backtest candles config spec = .error overflow := by
  rw [← Tally.duration_map_rounded] at h
  simp only [backtest, RunResult.assemble, analyze, Metrics.compute, h]
  rfl

theorem not_secondsFit_of_backtest {overflow : Overflow}
    (h : backtest candles config spec = .error overflow) :
    ¬SecondsFit (runTrades candles config spec) := by
  rw [← exists_backtest_eq_ok_iff, h]
  rintro ⟨_, ⟨⟩⟩

end

end

end Backtester
