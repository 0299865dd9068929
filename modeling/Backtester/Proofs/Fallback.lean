import Backtester.Proofs.Crossover
import Backtester.Proofs.KnownColumns

/-!
# The fallback of a side

A side whose rules all lack a meaning falls back to the crossover of the two averages.  The fallback
names their columns, so it is the crossover itself as long as these names still stand for the
averages: a declared indicator of the same column name comes later and takes the column over.

* `KeepsAverage` — the last declared indicator under the name of an average, if there is one, is
  that average.
* `get?_build_average` — then the column is the average, whatever else is declared.
* `fallback_eq_crossover` — then a side that falls back has the signals of the crossover, and two
  such sides without risk limits make its trades.
* `fallback_reads_declared_column` — an unknown indicator with the column name of the fast average
  changes the signals and the trades of the fallback.
-/

namespace Backtester

/-- The last declared indicator that provides the column of an average is that average. -/
def KeepsAverage (declared : List Indicator) (period : Nat) : Prop :=
  ∀ kind, declared.reverse.find? (fun kind => decide (averageName period ∈ kind.columnNames)) =
    some kind → kind = .sma period

variable {α : Type} [Scalar α]

/-- The column of an average of the crossover is the average, unless a declared indicator takes its
name. -/
theorem get?_build_average (candles : List (Candle α)) {fast slow period : Nat}
    (hperiod : period = fast ∨ period = slow) {declared : List Indicator}
    (hkeeps : KeepsAverage declared period) :
    (Frame.build candles (.sma fast :: .sma slow :: declared)).get? (averageName period) =
      Indicator.column? (candles.map Candle.close) (averageName period) (.sma period) := by
  let provides (kind : Indicator) : Bool := decide (averageName period ∈ kind.columnNames)
  have hprovides (other : Nat) : provides (.sma other) = true ↔ other = period := by
    show decide (averageName period ∈ [averageName other]) = true ↔ _
    rw [decide_eq_true_iff, List.mem_singleton]
    exact ⟨fun h => (averageName_injective h).symm, fun h => by rw [h]⟩
  have hlast : (Indicator.sma fast :: .sma slow :: declared).reverse.find? provides =
      some (.sma period) := by
    rw [List.reverse_cons, List.reverse_cons, List.append_assoc, List.find?_append]
    cases hdeclared : declared.reverse.find? provides with
    | some kind =>
        obtain rfl := hkeeps kind hdeclared
        rfl
    | none =>
        -- Nothing declared has the name, so it is one of the two averages that come first.
        rw [Option.none_or, List.singleton_append, List.find?_cons, List.find?_cons]
        by_cases hslow : slow = period
        · rw [(hprovides slow).mpr hslow, hslow]
        · have hfast : fast = period := by
            rcases hperiod with rfl | rfl
            · rfl
            · exact absurd rfl hslow
          have hnot : provides (.sma slow) = false := by simpa using mt (hprovides slow).mp hslow
          rw [hnot, (hprovides fast).mpr hfast, hfast]
  rw [Frame.get?_build candles _ (averageName_not_mem period), Indicator.findSome?_column?, hlast]
  rfl

namespace Strategy

/-- Where a strategy's entry conditions hold. -/
def entrySignals (candles : List (Candle α)) (s : Strategy α) : List Bool :=
  (Frame.build candles s.indicators).allHold s.entry

/-- Where a strategy's exit conditions hold. -/
def exitSignals (candles : List (Candle α)) (s : Strategy α) : List Bool :=
  (Frame.build candles s.indicators).allHold s.exit

omit [Scalar α] in
theorem sideConditions_fallback {compiled : List (Option (List (Condition α)))}
    {fallback : Condition α} (h : (sideConditions compiled fallback).2 = true) :
    (sideConditions compiled fallback).1 = [fallback] := by
  unfold sideConditions at h ⊢
  dsimp only at h ⊢
  split
  · rfl
  · next hused =>
      rw [if_neg hused] at h
      cases h

end Strategy

omit [Scalar α] in
theorem mem_columns_crossoverCondition {fast slow : Nat} {comparator : Comparator} {name : String} :
    name ∈ (Strategy.crossoverCondition fast slow comparator : Condition α).columns ↔
      name = averageName fast ∨ name = averageName slow :=
  List.mem_pair

theorem Strategy.referencedColumns_fallback {spec : StrategySpec α} {fast slow : Nat}
    (hentry : (compile spec fast slow).entryFallback = true)
    (hexit : (compile spec fast slow).exitFallback = true) :
    (compile spec fast slow).referencedColumns =
      (crossover fast slow : Strategy α).referencedColumns := by
  have hentry' : (compile spec fast slow).entry = [crossoverCondition fast slow .crossesAbove] :=
    sideConditions_fallback hentry
  have hexit' : (compile spec fast slow).exit = [crossoverCondition fast slow .crossesBelow] :=
    sideConditions_fallback hexit
  rw [referencedColumns, hentry', hexit']
  rfl

/-! ## A stop that does not exist does not trail -/

theorem step_congr_trailing {risk other : Risk α} (hdirection : risk.direction = other.direction)
    (hstop : risk.stopLoss = none) (hstop' : other.stopLoss = none)
    (htarget : risk.takeProfit = other.takeProfit) : step risk = step other := by
  have hheld (risk : Risk α) (hstop : risk.stopLoss = none) (position : Position α) (row : Row α) :
      held risk position row = position := by
    rw [held, hstop]
    split
    · next h => cases h
    · rfl
  funext position row
  unfold step
  simp only [hheld risk hstop, hheld other hstop', hdirection, hstop, hstop', htarget]

theorem simulate_congr_step {risk other : Risk α} (hstep : step risk = step other)
    (candles : List (Candle α)) (entry exit ready : List Bool) :
    simulate candles entry exit ready risk = simulate candles entry exit ready other := by
  unfold simulate
  generalize none = position
  induction rowsOf candles entry exit ready generalizing position with
  | nil => rfl
  | cons row rest ih => rw [replayRows_cons, replayRows_cons, hstep, ih]

/-! ## The signals and the trades of a fallback -/

/-- A fallback is the crossover, as long as no declared indicator takes over the column of one of
its averages.  On every candle series, a side that falls back then has the signals of the crossover,
row by row; and when both sides fall back, the direction is long and there is neither a stop nor a
target, the trades are those of the crossover. -/
theorem fallback_eq_crossover (spec : StrategySpec α) {fast slow : Nat}
    (hfast : KeepsAverage (spec.indicators.map IndicatorSpec.kind) fast)
    (hslow : KeepsAverage (spec.indicators.map IndicatorSpec.kind) slow)
    (candles : List (Candle α)) :
    let compiled := Strategy.compile spec fast slow
    let plain := Strategy.crossover fast slow
    (compiled.entryFallback = true →
      compiled.entrySignals candles = plain.entrySignals candles) ∧
    (compiled.exitFallback = true →
      compiled.exitSignals candles = plain.exitSignals candles) ∧
    (compiled.entryFallback = true → compiled.exitFallback = true →
      compiled.risk.direction = .long → compiled.risk.stopLoss = none →
      compiled.risk.takeProfit = none → replay candles compiled = replay candles plain) := by
  intro compiled plain
  let frame := Frame.build candles compiled.indicators
  let plainFrame := Frame.build candles plain.indicators
  have hlength : frame.length = plainFrame.length := by
    rw [Frame.length_build, Frame.length_build]
  have hcolumn (name : String) (hname : name = averageName fast ∨ name = averageName slow) :
      frame.get? name = plainFrame.get? name := by
    have hplain (period : Nat) : KeepsAverage [] period := by
      rintro kind ⟨⟩
    rcases hname with rfl | rfl
    · exact (get?_build_average candles (Or.inl rfl) hfast).trans
        (get?_build_average candles (Or.inl rfl) (hplain fast)).symm
    · exact (get?_build_average candles (Or.inr rfl) hslow).trans
        (get?_build_average candles (Or.inr rfl) (hplain slow)).symm
  have hsignals (comparator : Comparator) :
      frame.allHold [Strategy.crossoverCondition fast slow comparator] =
        plainFrame.allHold [Strategy.crossoverCondition fast slow comparator] := by
    apply Frame.allHold_congr hlength
    intro c hc name hname
    obtain rfl := List.mem_singleton.mp hc
    exact hcolumn name (mem_columns_crossoverCondition.mp hname)
  have hentry (hfallback : compiled.entryFallback = true) : compiled.entry = plain.entry :=
    Strategy.sideConditions_fallback hfallback
  have hexit (hfallback : compiled.exitFallback = true) : compiled.exit = plain.exit :=
    Strategy.sideConditions_fallback hfallback
  have hentrySignals (hfallback : compiled.entryFallback = true) :
      compiled.entrySignals candles = plain.entrySignals candles := by
    rw [Strategy.entrySignals, hentry hfallback]
    exact hsignals .crossesAbove
  have hexitSignals (hfallback : compiled.exitFallback = true) :
      compiled.exitSignals candles = plain.exitSignals candles := by
    rw [Strategy.exitSignals, hexit hfallback]
    exact hsignals .crossesBelow
  refine ⟨hentrySignals, hexitSignals, ?_⟩
  intro hentryFallback hexitFallback hdirection hstop htarget
  have hready : frame.readyRows compiled.referencedColumns =
      plainFrame.readyRows plain.referencedColumns := by
    rw [Strategy.referencedColumns_fallback hentryFallback hexitFallback]
    apply Frame.readyRows_congr hlength
    intro name hname
    obtain ⟨c, hc, hread⟩ := (Strategy.mem_referencedColumns_iff plain name).mp hname
    rcases List.mem_pair.mp hc with rfl | rfl
    · exact hcolumn name (mem_columns_crossoverCondition.mp hread)
    · exact hcolumn name (mem_columns_crossoverCondition.mp hread)
  have hstep : step compiled.risk = step plain.risk := step_congr_trailing hdirection hstop rfl htarget
  calc replay candles compiled
      = simulate candles (compiled.entrySignals candles) (compiled.exitSignals candles)
          (frame.readyRows compiled.referencedColumns) compiled.risk := rfl
    _ = simulate candles (plain.entrySignals candles) (plain.exitSignals candles)
          (plainFrame.readyRows plain.referencedColumns) plain.risk := by
        rw [hentrySignals hentryFallback, hexitSignals hexitFallback, hready,
          simulate_congr_step hstep]
    _ = replay candles plain := rfl

/-- An indicator with the column name of the fast average is declared, and the average again after
it. -/
theorem fallback_eq_crossover_declared_again :
    let spec : StrategySpec Float :=
      { name := unnamedStrategy
        indicators := [⟨"sma_2", none, []⟩, ⟨" sma ", some 2, []⟩]
        entryRules := [⟨">", none, none, "long"⟩]
        exitRules := [⟨"<", none, none, none, none, true⟩]
        constraints := [] }
    let candles : List (Candle Float) :=
      [3, 2, 1, 2, 3, 1, 1].mapIdx fun row close => ⟨60 * row, close, close, close, close, 1000⟩
    let compiled := Strategy.compile spec 2 3
    KeepsAverage (spec.indicators.map IndicatorSpec.kind) 2 ∧
    KeepsAverage (spec.indicators.map IndicatorSpec.kind) 3 ∧
    (compiled.entryFallback = true ∧ compiled.exitFallback = true ∧
      compiled.risk.direction = .long ∧ compiled.risk.stopLoss = none ∧
      compiled.risk.takeProfit = none) ∧
    compiled.entrySignals candles = (Strategy.crossover 2 3).entrySignals candles ∧
    compiled.exitSignals candles = (Strategy.crossover 2 3).exitSignals candles ∧
    replay candles compiled = replay candles (.crossover 2 3) := by
  intro spec candles compiled
  have hdeclared : spec.indicators.map IndicatorSpec.kind = [.unknown "sma_2" none, .sma 2] := by
    decide +kernel
  have hfast : KeepsAverage (spec.indicators.map IndicatorSpec.kind) 2 := by
    rw [hdeclared]
    intro kind hkind
    have hlast : some (Indicator.sma 2) = some kind := hkind
    exact (Option.some.inj hlast).symm
  have hslow : KeepsAverage (spec.indicators.map IndicatorSpec.kind) 3 := by
    rw [hdeclared]
    intro kind hkind
    have hnone : ([.unknown "sma_2" none, .sma 2] : List Indicator).reverse.find?
        (fun kind => decide (averageName 3 ∈ kind.columnNames)) = none := by
      decide +kernel
    rw [hnone] at hkind
    cases hkind
  have hsides : compiled.entryFallback = true ∧ compiled.exitFallback = true ∧
      compiled.risk.direction = .long := by
    decide +kernel
  have hcrossover := fallback_eq_crossover spec hfast hslow candles
  exact ⟨hfast, hslow, ⟨hsides.1, hsides.2.1, hsides.2.2, rfl, rfl⟩, hcrossover.1 hsides.1,
    hcrossover.2.1 hsides.2.1, hcrossover.2.2 hsides.1 hsides.2.1 hsides.2.2 rfl rfl⟩

/-- An unknown indicator with the column name of the fast average puts the closes in its place, and
the fallback then enters and exits on other rows than the crossover. -/
theorem fallback_reads_declared_column :
    let spec : StrategySpec Float :=
      { name := unnamedStrategy
        indicators := [⟨"sma_2", none, []⟩]
        entryRules := [⟨">", none, none, "long"⟩]
        exitRules := [⟨"<", none, none, none, none, false⟩]
        constraints := [] }
    let candles : List (Candle Float) :=
      [3, 2, 1, 2, 3, 1, 1].mapIdx fun row close => ⟨60 * row, close, close, close, close, 1000⟩
    let compiled := Strategy.compile spec 2 3
    let plain := Strategy.crossover 2 3
    (compiled.entryFallback = true ∧ compiled.exitFallback = true ∧
      compiled.risk.direction = .long ∧ compiled.risk.stopLoss = none ∧
      compiled.risk.takeProfit = none) ∧
    compiled.entrySignals candles ≠ plain.entrySignals candles ∧
    compiled.exitSignals candles ≠ plain.exitSignals candles ∧
    (replay candles compiled).map (fun t => (t.entryTime, t.exitTime)) = [(180, 300)] ∧
    (replay candles plain).map (fun t => (t.entryTime, t.exitTime)) = [(240, 360)] := by
  intro spec candles compiled plain
  have hsides : compiled.entryFallback = true ∧ compiled.exitFallback = true ∧
      compiled.risk.direction = .long := by
    decide +kernel
  have hplain : plain.referencedColumns = ["sma_2", "sma_3"] := referencedColumns_crossover_two_three
  refine ⟨⟨hsides.1, hsides.2.1, hsides.2.2, rfl, rfl⟩, by decide +kernel, by decide +kernel, ?_,
    ?_⟩
  · rw [replay, Strategy.referencedColumns_fallback hsides.1 hsides.2.1, hplain]
    decide +kernel
  · rw [replay, hplain]
    decide +kernel

end Backtester
