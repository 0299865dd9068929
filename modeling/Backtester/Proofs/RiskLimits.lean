import Backtester.Proofs.Balance
import Backtester.Proofs.Ratchet

/-!
# Risk limits

In exact arithmetic a position that is closed at its stop loses at most the configured fraction of
the price it was opened at, and one that is closed at its target earns exactly the configured
fraction.  What is said of the direction is said once, through what one unit gains from one price to
another.

* `Direction.gain` — what one unit gains; `Direction.Tighter.gain_le` says that it only grows with a
  stop that is moved towards the price.
* `Risk.opening_levels` — at the stop and the target of an opening it is the configured fraction.
* `Risk.PositiveLimits` — limits that are positive numbers, as compiled ones are
  (`Strategy.ofSpec_positiveLimits`).
* `Position.Guarded` — what every row preserves of an open position.
* `Trade.KeepsLimits` — what a trade has earned by the reason for which it was closed.
* `risk_exits_keep_limits` — every trade of a simulation keeps to the limits.
-/

namespace Backtester

open Exact

/-! ## Exact numbers as an ordered scalar -/

namespace Exact

/-- The place of a value on the extended number line. -/
noncomputable def toEReal : Exact → EReal
  | nan => 0
  | infinite true => ⊥
  | infinite false => ⊤
  | number x => x

theorem le_iff_toEReal (x y : Exact) :
    x ≤ y ↔ Scalar.isNaN x = false ∧ Scalar.isNaN y = false ∧ toEReal x ≤ toEReal y := by
  show le x y ↔ _
  rcases x with _ | (_ | _) | x
  all_goals rcases y with _ | (_ | _) | y <;> simp [le, toEReal, Scalar.isNaN]

theorem le_of_lt {x y : Exact} (h : x < y) : x ≤ y := by
  cases x with
  | nan => cases h
  | infinite negative =>
      cases y with
      | nan => cases h
      | infinite negative' => exact Or.inl (And.left h)
      | number y => exact h
  | number x =>
      cases y with
      | nan => cases h
      | infinite negative' => exact h
      | number y => exact (show x < y from h).le

instance : OrderedScalar Exact :=
  .of_place toEReal le_iff_toEReal fun _ _ => le_of_lt

end Exact

/-! ## Gains -/

/-- What one unit gains from one price to another. -/
def Direction.gain (direction : Direction) (entry price : ℝ) : ℝ :=
  match direction with
  | .long => price - entry
  | .short => entry - price

theorem Position.profitAt_number {p : Position Exact} {entry : ℝ} (h : p.entryPrice = number entry)
    (price : ℝ) : p.profitAt (number price) = number (p.direction.gain entry price) := by
  unfold Position.profitAt
  rw [h]
  cases p.direction with
  | long => exact number_sub price entry
  | short => exact number_sub entry price

/-- A stop that is moved towards the price gains more, or loses less. -/
theorem Direction.Tighter.gain_le {direction : Direction} {a b : ℝ}
    (h : direction.Tighter (number a) (number b)) (entry : ℝ) :
    direction.gain entry a ≤ direction.gain entry b := by
  cases direction with
  | long => exact sub_le_sub_right ((number_le a b).mp h) entry
  | short => exact sub_le_sub_left ((number_le b a).mp h) entry

/-- What a stop or a target of an opening is worth. -/
theorem Risk.opening_levels (risk : Risk Exact) (time : Int) (entry : ℝ) :
    (∀ x, risk.stopLoss = some (number x) → ∃ level,
      (risk.opening time (number entry)).stop = some (number level) ∧
      risk.direction.gain entry level = -(x * entry)) ∧
    ∀ x, risk.takeProfit = some (number x) → ∃ level,
      (risk.opening time (number entry)).target = some (number level) ∧
      risk.direction.gain entry level = x * entry := by
  have hbelow (x : ℝ) : number entry * (Scalar.ofNat 1 - number x) = number (entry * (1 - x)) := by
    rw [ofNat_eq_number, number_sub, number_mul, Nat.cast_one]
  have habove (x : ℝ) : number entry * (Scalar.ofNat 1 + number x) = number (entry * (1 + x)) := by
    rw [ofNat_eq_number, number_add, number_mul, Nat.cast_one]
  unfold Risk.opening Position.opened
  constructor
  · intro x hx
    rw [hx, Option.map_some]
    cases risk.direction with
    | long => exact ⟨_, congrArg some (hbelow x), by simp only [Direction.gain]; ring⟩
    | short => exact ⟨_, congrArg some (habove x), by simp only [Direction.gain]; ring⟩
  · intro x hx
    rw [hx, Option.map_some]
    cases risk.direction with
    | long => exact ⟨_, congrArg some (habove x), by simp only [Direction.gain]; ring⟩
    | short => exact ⟨_, congrArg some (hbelow x), by simp only [Direction.gain]; ring⟩

/-! ## Positive limits -/

/-- The limits of a risk setting are positive numbers. -/
structure Risk.PositiveLimits (risk : Risk Exact) : Prop where
  stopLoss : ∀ fraction ∈ risk.stopLoss, ∃ x, 0 < x ∧ fraction = number x
  takeProfit : ∀ fraction ∈ risk.takeProfit, ∃ x, 0 < x ∧ fraction = number x

theorem Risk.PositiveLimits.numbers {risk : Risk Exact} (h : risk.PositiveLimits) :
    risk.Numbers :=
  ⟨fun fraction hf => (h.stopLoss fraction hf).imp fun _ => And.right,
    fun fraction hf => (h.takeProfit fraction hf).imp fun _ => And.right⟩

/-- Of the percentages only the positive ones become fractions. -/
theorem lastPositiveFraction_pos {percentages : List Exact} {x : ℝ}
    (h : lastPositiveFraction percentages = some (number x)) : 0 < x := by
  obtain ⟨percentage, -, hpositive, hfraction⟩ := lastPositiveFraction_eq_some h
  have hhundred : (100 : Exact) = number 100 := (ofNat_eq_number 100).trans (by norm_num)
  rw [hhundred] at hfraction
  cases percentage with
  | nan => cases hpositive
  | infinite negative => cases hfraction
  | number r =>
      rw [number_div r (by norm_num)] at hfraction
      cases hfraction
      exact div_pos ((number_pos_iff r).mp hpositive) (by norm_num)

/-- A description of real numbers compiles to limits that are positive numbers. -/
theorem Strategy.ofSpec_positiveLimits (spec : Option (StrategySpec ℝ)) (fast slow : ℕ) :
    (ofSpec (spec.map (StrategySpec.map number)) fast slow).risk.PositiveLimits := by
  have hnumbers := Strategy.ofSpec_numbers spec fast slow
  cases spec with
  | none => exact ⟨fun fraction h => (by cases h), fun fraction h => (by cases h)⟩
  | some spec =>
      refine ⟨fun fraction h => ?_, fun fraction h => ?_⟩
      · obtain ⟨x, rfl⟩ := hnumbers.stopLoss fraction h
        rcases Strategy.stopLossOf_eq_some h with hlast | hlast
        · exact ⟨x, lastPositiveFraction_pos hlast, rfl⟩
        · exact ⟨x, lastPositiveFraction_pos hlast, rfl⟩
      · obtain ⟨x, rfl⟩ := hnumbers.takeProfit fraction h
        exact ⟨x, lastPositiveFraction_pos h, rfl⟩

/-! ## Positions -/

/-- An open position: opened at a positive price, its stop moved towards the price if at all. -/
structure Position.Guarded (risk : Risk Exact) (p : Position Exact) : Prop where
  numbers : p.Numbers
  positive : 0 < p.entryPrice
  ratcheted : p.Ratcheted risk
  fixed : risk.trailing = false → p = risk.opening p.entryTime p.entryPrice

theorem Position.Numbers.stopIsNumber {p : Position Exact} (h : p.Numbers) : p.StopIsNumber := by
  intro stop hstop
  obtain ⟨r, rfl⟩ := h.stop stop hstop
  rfl

section

variable {risk : Risk Exact} {p : Position Exact}

theorem Position.guarded_opening (hrisk : risk.PositiveLimits) (time : Int) {price : ℝ}
    (hprice : 0 < price) : (risk.opening time (number price)).Guarded risk := by
  have hnumbers : (risk.opening time (number price)).Numbers :=
    Position.numbers_opened hrisk.numbers time (isNumber_number price)
  exact
    { numbers := hnumbers
      positive := (number_pos_iff price).mpr hprice
      ratcheted := Position.ratcheted_opening hnumbers.stopIsNumber
      fixed := fun _ => rfl }

theorem Position.Guarded.held (h : p.Guarded risk) (hrisk : risk.PositiveLimits) {row : Row Exact}
    (hlow : IsNumber row.candle.low) (hhigh : IsNumber row.candle.high) :
    (Backtester.held risk p row).Guarded risk := by
  have htightened := Position.tightenedTo_held h.numbers.stopIsNumber risk row
  exact
    { numbers := h.numbers.held hrisk.numbers hlow hhigh
      positive := by
        rw [htightened.entry_eq.2]
        exact h.positive
      ratcheted := h.ratcheted.trans htightened
      fixed := fun hfixed => by
        rw [Tape.held_fixed (Or.inl hfixed)]
        exact h.fixed hfixed }

/-- At its stop a position loses at most the fraction it is guarded with, and at the stop of the
opening exactly that. -/
theorem Position.Guarded.gain_stop (h : p.Guarded risk) (hrisk : risk.PositiveLimits)
    {entry price : ℝ} (hentry : p.entryPrice = number entry) (hstop : p.stop = some (number price)) :
    ∃ x, 0 < x ∧ risk.stopLoss = some (number x) ∧ -(x * entry) ≤ p.direction.gain entry price ∧
      (risk.trailing = false → p.direction.gain entry price = -(x * entry)) := by
  have hratcheted := h.ratcheted
  have hfixed := h.fixed
  rw [Position.Ratcheted, hentry] at hratcheted
  rw [hentry] at hfixed
  obtain ⟨a, ha, htighter⟩ := hratcheted.exists_stop hstop
  obtain ⟨fraction, hfraction, -⟩ := Option.map_eq_some_iff.mp ha
  obtain ⟨x, hpositive, rfl⟩ := hrisk.stopLoss fraction hfraction
  obtain ⟨level, hlevel, hgain⟩ := (risk.opening_levels p.entryTime entry).1 x hfraction
  obtain rfl := Option.some.inj (ha.symm.trans hlevel)
  have hdirection : p.direction = risk.direction := hratcheted.direction_eq
  rw [hdirection]
  refine ⟨x, hpositive, hfraction, hgain.symm.le.trans (htighter.gain_le entry), fun htrailing => ?_⟩
  rw [hfixed htrailing, hlevel] at hstop
  cases hstop
  exact hgain

/-- At its target a position earns the fraction it is opened with. -/
theorem Position.Guarded.gain_target (h : p.Guarded risk) (hrisk : risk.PositiveLimits)
    {entry price : ℝ} (hentry : p.entryPrice = number entry)
    (htarget : p.target = some (number price)) :
    ∃ x, 0 < x ∧ risk.takeProfit = some (number x) ∧ p.direction.gain entry price = x * entry := by
  have hratcheted := h.ratcheted
  rw [Position.Ratcheted, hentry] at hratcheted
  rw [hratcheted.target_eq] at htarget
  obtain ⟨fraction, hfraction, -⟩ := Option.map_eq_some_iff.mp htarget
  obtain ⟨x, hpositive, rfl⟩ := hrisk.takeProfit fraction hfraction
  obtain ⟨level, hlevel, hgain⟩ := (risk.opening_levels p.entryTime entry).2 x hfraction
  cases htarget.symm.trans hlevel
  have hdirection : p.direction = risk.direction := hratcheted.direction_eq
  rw [hdirection]
  exact ⟨x, hpositive, hfraction, hgain⟩

end

/-! ## Trades -/

/-- A trade from a price `entry` that earns `profit` keeps to the limits: closed at a stop it loses
at most the configured fraction of its entry price, and exactly that if the stop does not trail;
closed at a target it earns exactly the configured fraction. -/
structure Trade.KeepsLimits (risk : Risk Exact) (t : Trade Exact) (entry profit : ℝ) : Prop where
  entryPrice : t.entryPrice = number entry
  positive : 0 < entry
  earned : t.profit = number profit
  stopLoss : t.reason = .stopLoss → ∃ x, 0 < x ∧ risk.stopLoss = some (number x) ∧
    -(x * entry) ≤ profit ∧
    (risk.trailing = false → profit = -(x * entry) ∧ t.outcome = .loss)
  takeProfit : t.reason = .takeProfit → ∃ x, 0 < x ∧ risk.takeProfit = some (number x) ∧
    profit = x * entry ∧ t.outcome = .win

theorem Outcome.ofProfit_win {profit : ℝ} (h : 0 < profit) : ofProfit (number profit) = win :=
  if_pos ((number_pos_iff profit).mpr h)

theorem Outcome.ofProfit_loss {profit : ℝ} (h : profit < 0) : ofProfit (number profit) = loss :=
  (if_neg (mt (number_pos_iff profit).mp h.le.not_gt)).trans (if_pos ((number_neg_iff profit).mpr h))

section

variable {risk : Risk Exact} {p : Position Exact}

theorem Position.Guarded.closed (h : p.Guarded risk) (hrisk : risk.PositiveLimits)
    {c : Candle Exact} (hclose : IsNumber c.close) {signal : Bool} {price : Exact}
    {reason : ExitReason} (hexit : FirstExit p c signal price reason) (time : Int) :
    ∃ entry profit, (p.closed time price reason).KeepsLimits risk entry profit := by
  obtain ⟨entry, hentry⟩ := h.numbers.entryPrice
  obtain ⟨r, hr⟩ := h.numbers.exit hclose hexit
  have hpositive : 0 < entry := by
    rw [← number_pos_iff, ← hentry]
    exact h.positive
  have hprofit : p.profitAt price = number (p.direction.gain entry r) := by
    rw [hr, Position.profitAt_number hentry]
  have houtcome : (p.closed time price reason).outcome =
      Outcome.ofProfit (number (p.direction.gain entry r)) := congrArg Outcome.ofProfit hprofit
  refine ⟨entry, p.direction.gain entry r, hentry, hpositive, hprofit, ?_, ?_⟩
  · rintro rfl
    cases hexit with
    | stop hstop =>
        rw [hr] at hstop
        obtain ⟨x, hx, hfraction, hle, heq⟩ := h.gain_stop hrisk hentry hstop
        refine ⟨x, hx, hfraction, hle, fun htrailing => ⟨heq htrailing, ?_⟩⟩
        rw [houtcome, heq htrailing]
        exact Outcome.ofProfit_loss (neg_neg_of_pos (mul_pos hx hpositive))
  · rintro rfl
    cases hexit with
    | target _ htarget =>
        rw [hr] at htarget
        obtain ⟨x, hx, hfraction, heq⟩ := h.gain_target hrisk hentry htarget
        refine ⟨x, hx, hfraction, heq, ?_⟩
        rw [houtcome, heq]
        exact Outcome.ofProfit_win (mul_pos hx hpositive)

end

/-- Every trade of a simulation on real numbers keeps to positive limits. -/
theorem simulate_keepsLimits {candles : List (Candle ℝ)} (hcloses : ∀ c ∈ candles, 0 < c.close)
    {risk : Risk Exact} (hrisk : risk.PositiveLimits) (entry exit ready : List Bool) :
    ∀ t ∈ simulate (candles.map (Candle.map number)) entry exit ready risk,
      ∃ entry profit, t.KeepsLimits risk entry profit := by
  refine Preserves.replayRows (P := Position.Guarded risk) (fun row hrow => ?_)
    (fun p hp => by cases hp)
  obtain ⟨c, hc, hcandle⟩ := List.mem_map.mp (candle_mem_of_mem_rowsOf hrow)
  have hclose : row.candle.close = number c.close := by rw [← hcandle]; rfl
  exact
    { opened := by
        rw [hclose]
        exact Position.guarded_opening hrisk _ (hcloses c hc)
      held := fun p hp =>
        hp.held hrisk ⟨c.low, by rw [← hcandle]; rfl⟩ ⟨c.high, by rw [← hcandle]; rfl⟩
      closed := fun p price reason hp hexit => hp.closed hrisk ⟨c.close, hclose⟩ hexit _ }

/-- Risk exits keep to their limits, in exact arithmetic and for candles with positive closes.
Whatever the signals and the direction, and whether the stop trails or not, a trade that is closed
at its stop loses at most the configured fraction of its entry price, exactly that fraction if the
stop does not trail, and a trade that is closed at its target earns exactly the configured fraction.
So it is for every compiled strategy, whose limits are positive. -/
theorem risk_exits_keep_limits {candles : List (Candle ℝ)} (hcloses : ∀ c ∈ candles, 0 < c.close) :
    let rows := candles.map (Candle.map number)
    (∀ (entry exit ready : List Bool) (direction : Direction) (trailing : Bool)
        (stopLoss takeProfit : Option ℝ),
      (∀ x ∈ stopLoss, 0 < x) → (∀ x ∈ takeProfit, 0 < x) →
        let risk : Risk Exact :=
          ⟨direction, stopLoss.map number, takeProfit.map number, trailing⟩
        ∀ t ∈ simulate rows entry exit ready risk,
          ∃ entry profit, t.KeepsLimits risk entry profit) ∧
    ∀ (spec : Option (StrategySpec ℝ)) (fast slow : Nat),
      let strategy := Strategy.ofSpec (spec.map (StrategySpec.map number)) fast slow
      ∀ t ∈ replay rows strategy, ∃ entry profit, t.KeepsLimits strategy.risk entry profit := by
  intro rows
  refine ⟨fun entry exit ready direction trailing stopLoss takeProfit hstop htarget => ?_,
    fun spec fast slow => ?_⟩
  · refine simulate_keepsLimits hcloses ⟨fun fraction h => ?_, fun fraction h => ?_⟩ entry exit ready
    · obtain ⟨x, hx, rfl⟩ := Option.map_eq_some_iff.mp h
      exact ⟨x, hstop x hx, rfl⟩
    · obtain ⟨x, hx, rfl⟩ := Option.map_eq_some_iff.mp h
      exact ⟨x, htarget x hx, rfl⟩
  · exact simulate_keepsLimits hcloses (Strategy.ofSpec_positiveLimits spec fast slow) _ _ _

/-- A short position opened at 100 whose fixed stop, at twice that price, is reached. -/
theorem risk_exits_keep_limits_stopped :
    let candles : List (Candle ℝ) := [⟨0, 100, 100, 100, 100, 1⟩, ⟨60, 100, 250, 100, 150, 1⟩]
    let risk : Risk Exact := ⟨.short, some (number 1), none, false⟩
    let trades := simulate (candles.map (Candle.map number)) [true] [] [true, true] risk
    (∀ c ∈ candles, 0 < c.close) ∧
    trades.map Trade.reason = [.stopLoss] ∧
    ∀ t ∈ trades, ∃ entry profit, t.KeepsLimits risk entry profit := by
  intro candles risk trades
  have hcloses : ∀ c ∈ candles, 0 < c.close := by
    simp only [candles, List.forall_mem_cons]
    norm_num
  have hreached : number 100 * (1 + number 1) ≤ number 250 := by
    show number 100 * (Scalar.ofNat 1 + number 1) ≤ number 250
    rw [ofNat_eq_number, number_add, number_mul, number_le]
    norm_num
  refine ⟨hcloses, ?_, ?_⟩
  · simp [trades, candles, risk, simulate, rowsOf, Candle.map, replayRows, step, closing?,
      Position.opened, Position.hitsStop, Position.closed, hreached]
  · exact (risk_exits_keep_limits hcloses).1 [true] [] [true, true] .short false (some 1) none
      (fun x hx => Option.some.inj hx ▸ one_pos) (fun x hx => by cases hx)

end Backtester
