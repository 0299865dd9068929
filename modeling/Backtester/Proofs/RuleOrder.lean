import Backtester.Proofs.KnownColumns
import Mathlib.Tactic.Tauto

/-!
# The order of rules

All conditions of a side must hold, so neither the order in which a description lists its rules nor
a rule listed twice changes a trade.

* `allHold_congr_mem`, `readyRows_congr_mem` — signals depend on conditions and columns as sets.
* `replay_congr` — so do the trades of a strategy.
* `Strategy.mem_sideConditions_congr` — compiling a side, with its fallback, keeps sets apart from
  order and repetition.
* `replay_eq_of_same_rules` — descriptions with the same rules as sets have the same trades, if they
  agree on direction, stop and target.
-/

namespace Backtester

variable {α : Type} [Scalar α]

/-! ## Signals -/

/-- The simulation reads no more of its signals than what they say on each row. -/
theorem simulate_congr {entry entry' exit exit' ready ready' : List Bool}
    (hentry : ∀ i, signalAt entry i = signalAt entry' i)
    (hexit : ∀ i, signalAt exit i = signalAt exit' i)
    (hready : ∀ i, signalAt ready i = signalAt ready' i) (candles : List (Candle α))
    (risk : Risk α) :
    simulate candles entry exit ready risk = simulate candles entry' exit' ready' risk := by
  have hrows : rowsOf candles entry exit ready = rowsOf candles entry' exit' ready' := by
    apply List.ext_getElem?
    intro i
    have hentry' : entry.getD i false = entry'.getD i false := hentry i
    have hexit' : exit.getD i false = exit'.getD i false := hexit i
    have hready' : ready.getD i false = ready'.getD i false := hready i
    rw [getElem?_rowsOf, getElem?_rowsOf, hentry', hexit', hready']
  rw [simulate, simulate, hrows]

namespace Frame

theorem allHold_congr_mem (f : Frame α) {conditions conditions' : List (Condition α)}
    (hmem : ∀ c, c ∈ conditions ↔ c ∈ conditions') (i : Nat) :
    signalAt (f.allHold conditions) i = signalAt (f.allHold conditions') i := by
  by_cases hempty : conditions = []
  · -- Without a condition nothing holds, and then the other side has none either.
    have hempty' : conditions' = [] := by
      rw [List.eq_nil_iff_forall_not_mem]
      intro c hc
      rw [← hmem c, hempty] at hc
      cases hc
    rw [hempty, hempty']
  · have hempty' : conditions' ≠ [] := by
      obtain ⟨c, hc⟩ := List.exists_mem_of_ne_nil conditions hempty
      exact List.ne_nil_of_mem ((hmem c).mp hc)
    rw [Bool.eq_iff_iff, signalAt_allHold f hempty, signalAt_allHold f hempty']
    simp only [hmem]

theorem readyRows_congr_mem (f : Frame α) {names names' : List String}
    (hmem : ∀ name, name ∈ names ↔ name ∈ names') (i : Nat) :
    signalAt (f.readyRows names) i = signalAt (f.readyRows names') i := by
  rw [Bool.eq_iff_iff, signalAt_readyRows, signalAt_readyRows]
  simp only [hmem]

end Frame

/-! ## Strategies -/

/-- The trades of a strategy depend on its conditions as sets. -/
theorem replay_congr {s t : Strategy α} (hindicators : s.indicators = t.indicators)
    (hentry : ∀ c, c ∈ s.entry ↔ c ∈ t.entry) (hexit : ∀ c, c ∈ s.exit ↔ c ∈ t.exit)
    (hrisk : s.risk = t.risk) (candles : List (Candle α)) :
    replay candles s = replay candles t := by
  have hcolumns (name : String) : name ∈ s.referencedColumns ↔ name ∈ t.referencedColumns := by
    rw [Strategy.mem_referencedColumns_iff, Strategy.mem_referencedColumns_iff]
    simp only [List.mem_append, hentry, hexit]
  unfold replay
  rw [hindicators, hrisk]
  exact simulate_congr (Frame.allHold_congr_mem _ hentry) (Frame.allHold_congr_mem _ hexit)
    (Frame.readyRows_congr_mem _ hcolumns) candles t.risk

namespace Strategy

omit [Scalar α] in
/-- Whether a side falls back, and what it asks for otherwise, does not depend on the order of its
rules. -/
theorem mem_sideConditions_congr {compiled compiled' : List (Option (List (Condition α)))}
    (hmem : ∀ conditions, conditions ∈ compiled ↔ conditions ∈ compiled')
    (fallback c : Condition α) :
    c ∈ (sideConditions compiled fallback).1 ↔ c ∈ (sideConditions compiled' fallback).1 := by
  have hconditions (c : Condition α) :
      c ∈ (compiled.filterMap id).flatten ↔ c ∈ (compiled'.filterMap id).flatten := by
    simp only [List.mem_flatten, List.mem_filterMap, hmem]
  have hrules : compiled.isEmpty = compiled'.isEmpty := by
    rw [Bool.eq_iff_iff, List.isEmpty_iff, List.isEmpty_iff, List.eq_nil_iff_forall_not_mem,
      List.eq_nil_iff_forall_not_mem]
    simp only [hmem]
  have hnone : (compiled.filterMap id).flatten.isEmpty =
      (compiled'.filterMap id).flatten.isEmpty := by
    rw [Bool.eq_iff_iff, List.isEmpty_iff, List.isEmpty_iff, List.eq_nil_iff_forall_not_mem,
      List.eq_nil_iff_forall_not_mem]
    simp only [hconditions]
  unfold sideConditions
  dsimp only
  rw [hrules, hnone]
  split
  · rfl
  · exact hconditions c

end Strategy

/-- Neither the order of rules nor a rule listed twice changes a trade.  Two descriptions with the
same indicators and with the same rules as sets have the same trades on every candle series, whether
or not their sides fall back, once direction, stop and target agree. -/
theorem replay_eq_of_same_rules {spec other : StrategySpec α}
    (hindicators : spec.indicators = other.indicators)
    (hentry : ∀ rule, rule ∈ spec.entryRules ↔ rule ∈ other.entryRules)
    (hexit : ∀ rule, rule ∈ spec.exitRules ↔ rule ∈ other.exitRules) (fast slow : Nat)
    (hdirection : (Strategy.compile spec fast slow).risk.direction =
      (Strategy.compile other fast slow).risk.direction)
    (hstop : (Strategy.compile spec fast slow).risk.stopLoss =
      (Strategy.compile other fast slow).risk.stopLoss)
    (htarget : (Strategy.compile spec fast slow).risk.takeProfit =
      (Strategy.compile other fast slow).risk.takeProfit) (candles : List (Candle α)) :
    replay candles (Strategy.compile spec fast slow) =
      replay candles (Strategy.compile other fast slow) := by
  have hkinds : Strategy.indicatorsOf spec fast slow = Strategy.indicatorsOf other fast slow := by
    rw [Strategy.indicatorsOf, Strategy.indicatorsOf, hindicators]
  have htrailing :
      spec.exitRules.any ExitRule.trailing = other.exitRules.any ExitRule.trailing := by
    rw [Bool.eq_iff_iff, List.any_eq_true, List.any_eq_true]
    simp only [hexit]
  apply replay_congr hkinds
  · apply Strategy.mem_sideConditions_congr
    intro conditions
    rw [List.mem_map, List.mem_map, hkinds]
    simp only [hentry]
  · apply Strategy.mem_sideConditions_congr
    intro conditions
    rw [List.mem_map, List.mem_map, hkinds]
    simp only [hexit]
  · calc (Strategy.compile spec fast slow).risk
        = ⟨(Strategy.compile spec fast slow).risk.direction,
            (Strategy.compile spec fast slow).risk.stopLoss,
            (Strategy.compile spec fast slow).risk.takeProfit,
            spec.exitRules.any ExitRule.trailing⟩ := rfl
      _ = (Strategy.compile other fast slow).risk := by
          rw [hdirection, hstop, htarget, htrailing]
          rfl

/-- Entry rules in another order with one of them twice, and a rule twice on an exit side that falls
back. -/
theorem replay_eq_of_same_rules_swapped :
    let above : EntryRule Float := ⟨"sma_2 > sma_3", none, none, "long"⟩
    let rising : EntryRule Float := ⟨"close > open", none, none, "long"⟩
    let unusable : ExitRule Float := ⟨"<", none, none, some 5, none, true⟩
    let spec : StrategySpec Float := ⟨unnamedStrategy, [], [above, rising], [unusable], []⟩
    let other : StrategySpec Float :=
      ⟨unnamedStrategy, [], [rising, above, rising], [unusable, unusable], []⟩
    let candles : List (Candle Float) :=
      [3, 2, 1, 2, 3, 1, 1].mapIdx fun row close => ⟨60 * row, 2, 5, close, close, 1000⟩
    let compiled := Strategy.compile spec 2 3
    let otherCompiled := Strategy.compile other 2 3
    (∀ rule, rule ∈ spec.entryRules ↔ rule ∈ other.entryRules) ∧
    (∀ rule, rule ∈ spec.exitRules ↔ rule ∈ other.exitRules) ∧
    (compiled.entry.length = 2 ∧ otherCompiled.entry.length = 3 ∧
      compiled.exitFallback = true ∧ otherCompiled.exitFallback = true) ∧
    compiled.risk.direction = otherCompiled.risk.direction ∧
    compiled.risk.stopLoss = otherCompiled.risk.stopLoss ∧
    compiled.risk.takeProfit = otherCompiled.risk.takeProfit ∧
    replay candles compiled = replay candles otherCompiled := by
  intro above rising unusable spec other candles compiled otherCompiled
  have hentry (rule : EntryRule Float) : rule ∈ spec.entryRules ↔ rule ∈ other.entryRules := by
    show rule ∈ [above, rising] ↔ rule ∈ [rising, above, rising]
    simp only [List.mem_cons, List.not_mem_nil]
    tauto
  have hexit (rule : ExitRule Float) : rule ∈ spec.exitRules ↔ rule ∈ other.exitRules := by
    show rule ∈ [unusable] ↔ rule ∈ [unusable, unusable]
    simp only [List.mem_cons, List.not_mem_nil]
    tauto
  have hindicators : spec.indicators = other.indicators := rfl
  have hdirection : compiled.risk.direction = otherCompiled.risk.direction := by decide +kernel
  have hstop : compiled.risk.stopLoss = otherCompiled.risk.stopLoss := by decide +kernel
  have htarget : compiled.risk.takeProfit = otherCompiled.risk.takeProfit := by decide +kernel
  exact ⟨hentry, hexit, by decide +kernel, hdirection, hstop, htarget,
    replay_eq_of_same_rules hindicators hentry hexit 2 3 hdirection hstop htarget candles⟩

end Backtester
