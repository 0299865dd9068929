import Backtester.Proofs.ExactArithmetic
import Backtester.Proofs.RuleForms
import Backtester.Proofs.UsableRules

/-!
# Short trades mirror long ones

Without a stop and a target the direction of a strategy decides nothing but what its trades earn: it
does not take part in compiling a condition, and a position is opened and closed by the signals
alone.

* `StrategySpec.Opposes` — descriptions that differ in the direction of their entry rules only.
* `StrategySpec.NoLimits` — a description without a stop and without a target.
* `Opposed` — two runs side by side, the one long and the other short.
* `Opposed.step`, `Opposed.forall₂_replayRows` — they stay so on every row, and close their trades
  together.
* `Exact.neg_sub`, `Exact.neg_div`, `Exact.neg_mul` — in exact arithmetic the one trade earns what
  the other one loses.
* `short_mirrors_long` — the trades of the two descriptions, one by one.
-/

namespace Backtester

/-! ## Two directions -/

/-- The outcome of the other side of a trade. -/
def Outcome.opposite : Outcome → Outcome
  | win => loss
  | loss => win
  | breakeven => breakeven

/-- A long and a short trade between the same two prices, closed by a signal. -/
structure Trade.Mirrors {α : Type} [Scalar α] (long short : Trade α) : Prop where
  directions : long.direction = .long ∧ short.direction = .short
  entryTime : short.entryTime = long.entryTime
  exitTime : short.exitTime = long.exitTime
  entryPrice : short.entryPrice = long.entryPrice
  exitPrice : short.exitPrice = long.exitPrice
  reasons : long.reason = .signal ∧ short.reason = .signal
  longProfit : long.profit = long.exitPrice - long.entryPrice
  shortProfit : short.profit = long.entryPrice - long.exitPrice

/-- One trade earns what the other one loses. -/
structure Trade.Negates (long short : Trade Exact) : Prop where
  profit : short.profit = -long.profit
  profitPercent : short.profitPercent = -long.profitPercent
  outcome : short.outcome = long.outcome.opposite

section

variable {α : Type}

/-- Entry rules that differ in their direction only, which is long in one and short in the other. -/
structure EntryRule.Opposes (r r' : EntryRule α) : Prop where
  condition : r.condition = r'.condition
  indicator : r.indicator = r'.indicator
  threshold : r.threshold = r'.threshold
  long : Direction.ofText r.direction = .long
  short : Direction.ofText r'.direction = .short

/-- Descriptions that differ in the direction of their entry rules only, which are all long in one
and all short in the other. -/
structure StrategySpec.Opposes (spec spec' : StrategySpec α) : Prop where
  title : spec.name = spec'.name
  indicators : spec.indicators = spec'.indicators
  entryRules : List.Forall₂ EntryRule.Opposes spec.entryRules spec'.entryRules
  exitRules : spec.exitRules = spec'.exitRules
  constraints : spec.constraints = spec'.constraints

variable [Scalar α]

/-- No rule and no constraint of a description has a stop or a target; a percentage that is not
positive is none. -/
structure StrategySpec.NoLimits (spec : StrategySpec α) : Prop where
  stops : ∀ rule ∈ spec.exitRules, ∀ percent ∈ rule.stopLossPercent, ¬0 < percent
  constraints : ∀ constraint ∈ spec.constraints, ∀ percent ∈ constraint.stopLossPercent,
    ¬(0 : α) < percent
  targets : ∀ rule ∈ spec.exitRules, ∀ percent ∈ rule.takeProfitPercent, ¬0 < percent

/-! ## Compiling -/

/-- Where no rule gives a positive percentage, there is no last one. -/
theorem lastPositiveFraction_eq_none {β : Type} {rules : List β} {percentOf : β → Option α}
    (h : ∀ rule ∈ rules, ∀ percent ∈ percentOf rule, ¬0 < percent) :
    lastPositiveFraction (rules.filterMap percentOf) = none := by
  have hnone : (rules.filterMap percentOf).filter (fun x => decide (0 < x)) = [] := by
    rw [List.filter_eq_nil_iff]
    intro percent hpercent
    obtain ⟨rule, hrule, hsome⟩ := List.mem_filterMap.mp hpercent
    rw [decide_eq_true_eq]
    exact h rule hrule percent hsome
  rw [lastPositiveFraction, hnone]
  rfl

/-- A description without limits compiles to a risk setting without limits. -/
theorem StrategySpec.NoLimits.risk_eq {spec : StrategySpec α} (h : spec.NoLimits) (fast slow : Nat) :
    (Strategy.compile spec fast slow).risk =
      ⟨(Strategy.compile spec fast slow).risk.direction, none, none,
        spec.exitRules.any ExitRule.trailing⟩ := by
  have hstop : Strategy.stopLossOf spec = none := by
    rw [Strategy.stopLossOf, lastPositiveFraction_eq_none h.stops,
      lastPositiveFraction_eq_none h.constraints]
    rfl
  have htarget :
      lastPositiveFraction (spec.exitRules.filterMap ExitRule.takeProfitPercent) = none :=
    lastPositiveFraction_eq_none h.targets
  calc (Strategy.compile spec fast slow).risk
      = ⟨(Strategy.compile spec fast slow).risk.direction, Strategy.stopLossOf spec,
          lastPositiveFraction (spec.exitRules.filterMap ExitRule.takeProfitPercent),
          spec.exitRules.any ExitRule.trailing⟩ := rfl
    _ = _ := by rw [hstop, htarget]

/-- Rules that all have one direction give it to their strategy. -/
theorem Strategy.directionOf_of_forall (known : List String) {rules : List (EntryRule α)}
    (hsome : rules ≠ []) {direction : Direction}
    (h : ∀ r ∈ rules, Direction.ofText r.direction = direction) :
    directionOf known rules = direction := by
  unfold directionOf
  cases hfind : rules.find? fun r => (r.compile known).isSome with
  | some r => exact h r (List.mem_of_find?_eq_some hfind)
  | none =>
      obtain ⟨r, rest, rfl⟩ := List.exists_cons_of_ne_nil hsome
      exact h r List.mem_cons_self

namespace StrategySpec.Opposes

variable {spec spec' : StrategySpec α}

/-- The compiled strategies differ in their direction at most. -/
theorem compile_eq (h : spec.Opposes spec') (fast slow : Nat) :
    Strategy.compile spec' fast slow =
      { Strategy.compile spec fast slow with
        risk :=
          { (Strategy.compile spec fast slow).risk with
            direction := (Strategy.compile spec' fast slow).risk.direction } } := by
  have hkinds : Strategy.indicatorsOf spec fast slow = Strategy.indicatorsOf spec' fast slow := by
    rw [Strategy.indicatorsOf, Strategy.indicatorsOf, h.indicators]
  have hentry (known : List String) : spec.entryRules.map (EntryRule.compile known) =
      spec'.entryRules.map (EntryRule.compile known) := by
    refine map_eq_of_forall₂ h.entryRules fun r r' hr => ?_
    rw [EntryRule.compile, EntryRule.compile, hr.condition, hr.indicator, hr.threshold]
  unfold Strategy.compile Strategy.stopLossOf
  dsimp only
  rw [hkinds, hentry, h.title, h.exitRules, h.constraints]

/-- Where there is an entry rule, one strategy is long and the other one short. -/
theorem directions (h : spec.Opposes spec') (hrules : spec.entryRules ≠ []) (fast slow : Nat) :
    (Strategy.compile spec fast slow).risk.direction = .long ∧
      (Strategy.compile spec' fast slow).risk.direction = .short := by
  have hrules' : spec'.entryRules ≠ [] := by
    intro hnone
    have hforall := h.entryRules
    rw [hnone, List.forall₂_nil_right_iff] at hforall
    exact hrules hforall
  constructor
  · have hlong := h.entryRules.imp fun r r' hr => And.intro hr.long hr
    exact Strategy.directionOf_of_forall _ hrules ((List.forall₂_and_left _ _).mp hlong).1
  · have hshort := h.entryRules.flip.imp fun r' r hr => And.intro hr.short hr
    exact Strategy.directionOf_of_forall _ hrules' ((List.forall₂_and_left _ _).mp hshort).1

end StrategySpec.Opposes

/-! ## Replaying -/

/-- Two runs side by side: both without a position, or with one opened on the same row, in the one
run long and in the other short, without a stop and a target. -/
inductive Opposed : (held held' : Option (Position α)) → Prop
  | flat : Opposed none none
  | both (time : Int) (price : α) : Opposed (some (.opened time price .long none none))
      (some (.opened time price .short none none))

/-- Without a stop and a target a position is closed by the exit signal alone. -/
theorem closing?_unlimited (time : Int) (price : α) (direction : Direction) (row : Row α) :
    closing? (.opened time price direction none none) row =
      if row.exit then some (row.candle.close, .signal) else none := rfl

variable {R : Trade α → Trade α → Prop}

/-- A row leaves the runs side by side, and closes both positions or neither. -/
theorem Opposed.step
    (hclosed : ∀ entryTime entryPrice exitTime exitPrice,
      R ((Position.opened entryTime entryPrice .long none none).closed exitTime exitPrice .signal)
        ((Position.opened entryTime entryPrice .short none none).closed exitTime exitPrice .signal))
    (trailing : Bool) {held held' : Option (Position α)} (h : Opposed held held') (row : Row α) :
    let after := Backtester.step ⟨.long, none, none, trailing⟩ held row
    let after' := Backtester.step ⟨.short, none, none, trailing⟩ held' row
    Opposed after.1 after'.1 ∧ List.Forall₂ R after.2.toList after'.2.toList := by
  cases hready : row.ready with
  | false =>
      rw [step_unready hready, step_unready hready]
      exact ⟨h, .nil⟩
  | true =>
      cases h with
      | flat =>
          rw [step_flat hready, step_flat hready]
          cases row.entry with
          | false => exact ⟨.flat, .nil⟩
          | true => exact ⟨.both row.candle.time row.candle.close, .nil⟩
      | both time price =>
          rw [step_open hready, step_open hready, closing?_unlimited, closing?_unlimited]
          cases row.exit with
          | true => exact ⟨.flat, .cons (hclosed time price _ _) .nil⟩
          | false =>
              dsimp only [Bool.false_eq_true, if_false]
              rw [Tape.held_fixed (Or.inr rfl), Tape.held_fixed (Or.inr rfl)]
              exact ⟨.both time price, .nil⟩

theorem Opposed.forall₂_replayRows
    (hclosed : ∀ entryTime entryPrice exitTime exitPrice,
      R ((Position.opened entryTime entryPrice .long none none).closed exitTime exitPrice .signal)
        ((Position.opened entryTime entryPrice .short none none).closed exitTime exitPrice .signal))
    (trailing : Bool) {held held' : Option (Position α)} (h : Opposed held held')
    (rows : List (Row α)) :
    List.Forall₂ R (replayRows ⟨.long, none, none, trailing⟩ held rows)
      (replayRows ⟨.short, none, none, trailing⟩ held' rows) := by
  induction rows generalizing held held' with
  | nil => exact .nil
  | cons row rest ih =>
      obtain ⟨hnext, hrow⟩ := h.step hclosed trailing row
      rw [replayRows_cons, replayRows_cons]
      exact List.rel_append hrow (ih hnext)

/-- The trades of two descriptions that oppose each other are closed together. -/
theorem StrategySpec.Opposes.forall₂_replay {spec spec' : StrategySpec α} (h : spec.Opposes spec')
    (hlimits : spec.NoLimits)
    (hclosed : ∀ entryTime entryPrice exitTime exitPrice,
      R ((Position.opened entryTime entryPrice .long none none).closed exitTime exitPrice .signal)
        ((Position.opened entryTime entryPrice .short none none).closed exitTime exitPrice .signal))
    (fast slow : Nat) (candles : List (Candle α)) :
    List.Forall₂ R (replay candles (Strategy.compile spec fast slow))
      (replay candles (Strategy.compile spec' fast slow)) := by
  have hcompile := h.compile_eq fast slow
  by_cases hrules : spec.entryRules = []
  · -- Without an entry rule both directions are the default one, but there is no trade.
    have hentry : (Strategy.compile spec fast slow).entry = [] := by
      show (Strategy.sideConditions (spec.entryRules.map _) _).1 = []
      rw [hrules]
      rfl
    have hentry' : (Strategy.compile spec' fast slow).entry = [] := by
      rw [hcompile]
      exact hentry
    rw [replay_eq_nil_of_entry hentry, replay_eq_nil_of_entry hentry']
    exact .nil
  · obtain ⟨hlong, hshort⟩ := h.directions hrules fast slow
    have hrisk := hlimits.risk_eq fast slow
    rw [hlong] at hrisk
    rw [hcompile, hshort, replay, replay]
    dsimp only
    rw [hrisk]
    exact Opposed.flat.forall₂_replayRows hclosed _ _

end

/-! ## Exact gains and losses -/

namespace Exact

theorem decide_neg_neg {x : ℝ} (hx : x ≠ 0) : decide (-x < 0) = !decide (x < 0) := by
  rcases lt_or_gt_of_ne hx with hneg | hpos
  · simp [hneg, hneg.le]
  · simp [hpos, hpos.le]

theorem neg_sub (x y : Exact) : -(x - y) = y - x := by
  show neg (add x (neg y)) = add y (neg x)
  cases x with
  | nan => cases y <;> rfl
  | number x =>
      cases y with
      | number y => exact congrArg number (by ring)
      | infinite negative => simp [add, neg]
      | nan => rfl
  | infinite negative =>
      cases y with
      | infinite negative' => cases negative <;> cases negative' <;> simp [add, neg]
      | number y | nan => rfl

theorem neg_div (x y : Exact) : -x / y = -(x / y) := by
  show div (neg x) y = neg (div x y)
  cases x with
  | nan => rfl
  | infinite negative => cases y <;> simp [div, neg]
  | number x =>
      cases y with
      | nan => rfl
      | infinite negative => exact congrArg number neg_zero.symm
      | number y =>
          by_cases hy : y = 0
          · by_cases hx : x = 0
            · simp [div, neg, hx, hy]
            · simp only [div, neg, hy, hx, if_true, if_false, neg_eq_zero, decide_neg_neg hx]
          · simp only [div, neg, hy, if_false]
            exact congrArg number (by ring)

theorem neg_mul (x y : Exact) : -x * y = -(x * y) := by
  show mul (neg x) y = neg (mul x y)
  cases x with
  | nan => rfl
  | infinite negative =>
      cases y with
      | number y => by_cases hy : y = 0 <;> simp [mul, neg, hy]
      | infinite negative' | nan => simp [mul, neg]
  | number x =>
      cases y with
      | nan => rfl
      | number y => exact congrArg number (by ring)
      | infinite negative =>
          by_cases hx : x = 0
          · simp [mul, neg, hx]
          · simp only [mul, neg, hx, if_false, neg_eq_zero, decide_neg_neg hx, Bool.xor_not]

/-- A value has one sign at most, and its negative has the other one. -/
theorem sign_neg (x : Exact) : (0 < -x ↔ x < 0) ∧ (-x < 0 ↔ 0 < x) ∧ (0 < x → ¬x < 0) := by
  rw [zero_eq_number]
  show (lt (number 0) (neg x) ↔ lt x (number 0)) ∧ (lt (neg x) (number 0) ↔ lt (number 0) x) ∧
    (lt (number 0) x → ¬lt x (number 0))
  cases x with
  | nan => simp [lt, neg]
  | infinite negative => cases negative <;> simp [lt, neg]
  | number x => simpa [lt, neg] using fun hpos : 0 < x => hpos.le

theorem ofProfit_neg (profit : Exact) :
    Outcome.ofProfit (-profit) = (Outcome.ofProfit profit).opposite := by
  obtain ⟨hpos, hneg, hone⟩ := sign_neg profit
  unfold Outcome.ofProfit
  by_cases hgain : 0 < profit
  · rw [if_neg (mt hpos.mp (hone hgain)), if_pos (hneg.mpr hgain), if_pos hgain]
    rfl
  · by_cases hloss : profit < 0
    · rw [if_pos (hpos.mpr hloss), if_neg hgain, if_pos hloss]
      rfl
    · rw [if_neg (mt hpos.mp hloss), if_neg (mt hneg.mp hgain), if_neg hgain, if_neg hloss]
      rfl

end Exact

/-- In exact arithmetic the short trade earns what the long one loses. -/
theorem negates_closed (entryTime exitTime : Int) (entryPrice exitPrice : Exact)
    (reason : ExitReason) :
    Trade.Negates
      ((Position.opened entryTime entryPrice .long none none).closed exitTime exitPrice reason)
      ((Position.opened entryTime entryPrice .short none none).closed exitTime exitPrice reason) := by
  have hprofit : entryPrice - exitPrice = -(exitPrice - entryPrice) := (Exact.neg_sub _ _).symm
  have hzero : -(0 : Exact) = 0 := by
    rw [Exact.zero_eq_number]
    exact congrArg Exact.number neg_zero
  refine ⟨hprofit, ?_, ?_⟩
  · show (if entryPrice == 0 then (0 : Exact) else (entryPrice - exitPrice) / entryPrice * 100) =
      -(if entryPrice == 0 then 0 else (exitPrice - entryPrice) / entryPrice * 100)
    split
    · exact hzero.symm
    · rw [hprofit, Exact.neg_div, Exact.neg_mul]
  · show Outcome.ofProfit (entryPrice - exitPrice) =
      (Outcome.ofProfit (exitPrice - entryPrice)).opposite
    rw [hprofit, Exact.ofProfit_neg]

/-! ## Long and short -/

/-- Short mirrors long.  Two descriptions that differ in the direction of their entry rules only,
all long in one and all short in the other, and have no stop and no target, have as many trades as
each other on every candle series.  The trades have the same entry and exit times and prices and are
closed by signals; a long one earns the exit price less the entry price, a short one the entry price
less the exit price.  In exact arithmetic profits and percentages are negated, wins and losses swap,
and breakevens stay. -/
theorem short_mirrors_long (fast slow : Nat) :
    (∀ {α : Type} [Scalar α] {spec spec' : StrategySpec α}, spec.Opposes spec' → spec.NoLimits →
      ∀ candles : List (Candle α),
        List.Forall₂ Trade.Mirrors (replay candles (Strategy.compile spec fast slow))
          (replay candles (Strategy.compile spec' fast slow))) ∧
    ∀ {spec spec' : StrategySpec Exact}, spec.Opposes spec' → spec.NoLimits →
      ∀ candles : List (Candle Exact),
        List.Forall₂ Trade.Negates (replay candles (Strategy.compile spec fast slow))
          (replay candles (Strategy.compile spec' fast slow)) := by
  constructor
  · intro α _ spec spec' hopposes hlimits candles
    exact hopposes.forall₂_replay hlimits
      (fun _ _ _ _ => ⟨⟨rfl, rfl⟩, rfl, rfl, rfl, rfl, ⟨rfl, rfl⟩, rfl, rfl⟩) fast slow candles
  · intro spec spec' hopposes hlimits candles
    exact hopposes.forall₂_replay hlimits
      (fun entryTime entryPrice exitTime exitPrice =>
        negates_closed entryTime exitTime entryPrice exitPrice .signal) fast slow candles

/-- Two trades below 95 and above 105, with a stop of no percent that trails. -/
theorem short_mirrors_long_two_trades :
    let spec (α : Type) (zero : α) (direction : String) : StrategySpec α :=
      { name := unnamedStrategy
        indicators := []
        entryRules := [⟨"close < 95", none, none, direction⟩]
        exitRules := [⟨"close > 105", none, none, some zero, none, true⟩]
        constraints := [] }
    let long := spec Float 0 "Long"
    let short := spec Float 0 " SHORT"
    let candles : List (Candle Float) :=
      [100, 90, 110, 80, 106, 94].mapIdx fun row close => ⟨60 * row, close, close, close, close, 1000⟩
    long.Opposes short ∧ long.NoLimits ∧
    (replay candles (Strategy.compile long 2 3)).map Trade.profit = [20, 26] ∧
    List.Forall₂ Trade.Mirrors (replay candles (Strategy.compile long 2 3))
      (replay candles (Strategy.compile short 2 3)) ∧
    ∀ candles : List (Candle Exact), List.Forall₂ Trade.Negates
      (replay candles (Strategy.compile (spec Exact 0 "Long") 2 3))
      (replay candles (Strategy.compile (spec Exact 0 " SHORT") 2 3)) := by
  intro spec long short candles
  have hlong : Direction.ofText "Long" = .long := by decide +kernel
  have hshort : Direction.ofText " SHORT" = .short := by decide +kernel
  have hopposes {α : Type} (zero : α) : (spec α zero "Long").Opposes (spec α zero " SHORT") :=
    ⟨rfl, rfl, .cons ⟨rfl, rfl, rfl, hlong, hshort⟩ .nil, rfl, rfl⟩
  have hlimits {α : Type} [Scalar α] {zero : α} (hzero : ¬0 < zero) :
      (spec α zero "Long").NoLimits := by
    refine ⟨fun rule hrule percent hpercent => ?_, fun c hc => (by cases hc),
      fun rule hrule percent hpercent => ?_⟩
    · obtain rfl := List.mem_singleton.mp hrule
      obtain rfl := Option.some.inj hpercent
      exact hzero
    · obtain rfl := List.mem_singleton.mp hrule
      cases hpercent
  have hread : (Strategy.compile long 2 3).referencedColumns = ["close"] := by
    have hcolumns : ((Strategy.compile long 2 3).entry ++
        (Strategy.compile long 2 3).exit).flatMap Condition.columns = ["close", "close"] := by
      decide +kernel
    have hsorted : (["close", "close"].mergeSort fun a b => decide (a ≤ b)) =
        ["close", "close"] := by
      simp [List.mergeSort, List.MergeSort.Internal.splitInTwo]
    rw [Strategy.referencedColumns, hcolumns, hsorted]
    decide
  have hexact : ¬(0 : Exact) < 0 := by
    rw [Exact.zero_eq_number, Exact.number_lt]
    exact lt_irrefl 0
  refine ⟨hopposes 0, hlimits (by decide +kernel), ?_,
    (short_mirrors_long 2 3).1 (hopposes 0) (hlimits (by decide +kernel)) candles,
    (short_mirrors_long 2 3).2 (hopposes 0) (hlimits hexact)⟩
  rw [replay, hread]
  decide +kernel

end Backtester
