import Backtester.Proofs.LeastRows
import Backtester.Proofs.Magnitudes
import Backtester.Run

/-!
# Prices of trades

Stop and target prices are computed and may be infinite or not a number, but a price at which a
position is closed has been compared with a candle's range first, and so lies in the range of the
prices.

* `Preserves` — what one row keeps of open positions and yields for trades; `Preserves.replayRows`
  is what a whole replay yields from it.
* `NotAbove`, `NotBelow` — the side of a bound on which a stop or a target lies, if it is a number.
* `replay_settled` — entry and exit prices of every trade are in the range of the candles' prices.
-/

namespace Backtester

/-! ## What a replay preserves -/

section

variable {α : Type} [Scalar α] {risk : Risk α} {P : Position α → Prop} {Q : Trade α → Prop}

/-- One row keeps a property of open positions, and its trade has another one. -/
structure Preserves (risk : Risk α) (P : Position α → Prop) (Q : Trade α → Prop) (row : Row α) :
    Prop where
  opened : P (Position.opened row.candle.time row.candle.close risk.direction risk.stopLoss
    risk.takeProfit)
  held : ∀ position, P position → P (held risk position row)
  closed : ∀ position price reason, P position →
    FirstExit position row.candle row.exit price reason →
      Q (position.closed row.candle.time price reason)

theorem Preserves.step {row : Row α} (h : Preserves risk P Q row) {position : Option (Position α)}
    (hposition : ∀ p ∈ position, P p) :
    (∀ p ∈ (step risk position row).1, P p) ∧ ∀ t ∈ (step risk position row).2, Q t := by
  cases hready : row.ready with
  | false =>
      rw [step_unready hready]
      exact ⟨hposition, fun t ht => (by cases ht)⟩
  | true =>
      cases position with
      | none =>
          rw [step_flat hready]
          refine ⟨fun p hp => ?_, fun t ht => (by cases ht)⟩
          dsimp only at hp
          split at hp
          · obtain rfl := Option.some.inj hp
            exact h.opened
          · cases hp
      | some position =>
          have hheld := hposition position rfl
          rw [step_open hready]
          cases hclosing : closing? position row with
          | none =>
              refine ⟨fun p hp => ?_, fun t ht => (by cases ht)⟩
              obtain rfl := Option.some.inj hp
              exact h.held position hheld
          | some closing =>
              obtain ⟨price, reason⟩ := closing
              refine ⟨fun p hp => (by cases hp), fun t ht => ?_⟩
              obtain rfl := Option.some.inj ht
              exact h.closed position price reason hheld (closing?_eq_some_iff.mp hclosing)

theorem Preserves.replayRows {rows : List (Row α)} (h : ∀ row ∈ rows, Preserves risk P Q row)
    {position : Option (Position α)} (hposition : ∀ p ∈ position, P p) :
    ∀ t ∈ replayRows risk position rows, Q t := by
  induction rows generalizing position with
  | nil => exact fun t ht => by cases ht
  | cons row rest ih =>
      obtain ⟨hrow, hrest⟩ := List.forall_mem_cons.mp h
      obtain ⟨hnext, htrade⟩ := hrow.step hposition
      intro t ht
      rw [replayRows_cons, List.mem_append, Option.mem_toList] at ht
      rcases ht with ht | ht
      · exact htrade t ht
      · exact ih hrest hnext t ht

theorem length_replayRows_le (position : Option (Position α)) (rows : List (Row α)) :
    (Backtester.replayRows risk position rows).length ≤ rows.length := by
  induction rows generalizing position with
  | nil => exact le_rfl
  | cons row rest ih =>
      have hone : (step risk position row).2.toList.length ≤ 1 := by
        cases (step risk position row).2 <;> simp
      have hrest := ih (step risk position row).1
      rw [replayRows_cons, List.length_append, List.length_cons]
      omega

theorem map_candle_rowsOf {α : Type} (candles : List (Candle α)) (entry exit ready : List Bool) :
    (rowsOf candles entry exit ready).map Row.candle = candles := by
  induction candles generalizing entry exit ready with
  | nil => rfl
  | cons candle rest ih => rw [rowsOf, List.map_cons, ih]

theorem candle_mem_of_mem_rowsOf {α : Type} {candles : List (Candle α)}
    {entry exit ready : List Bool} {row : Row α} (hrow : row ∈ rowsOf candles entry exit ready) :
    row.candle ∈ candles := by
  have hmem := List.mem_map_of_mem (f := Row.candle) hrow
  rwa [map_candle_rowsOf] at hmem

end

/-! ## The limits of a compiled strategy -/

section

variable {α : Type} [Scalar α] {fraction : α}

theorem lastPositiveFraction_eq_some {percentages : List α}
    (h : lastPositiveFraction percentages = some fraction) :
    ∃ x ∈ percentages, 0 < x ∧ x / 100 = fraction := by
  obtain ⟨x, hlast, hfraction⟩ := Option.map_eq_some_iff.mp h
  obtain ⟨hmem, hpositive⟩ := List.mem_filter.mp (List.mem_of_getLast? hlast)
  exact ⟨x, hmem, of_decide_eq_true hpositive, hfraction⟩

theorem Strategy.stopLossOf_eq_some {spec : StrategySpec α} (h : stopLossOf spec = some fraction) :
    lastPositiveFraction (spec.constraints.filterMap Constraint.stopLossPercent) = some fraction ∨
      lastPositiveFraction (spec.exitRules.filterMap ExitRule.stopLossPercent) = some fraction := by
  have hstop : (lastPositiveFraction (spec.constraints.filterMap
      Constraint.stopLossPercent)).orElse (fun _ => lastPositiveFraction
        (spec.exitRules.filterMap ExitRule.stopLossPercent)) = some fraction := h
  rw [Option.orElse_eq_or] at hstop
  exact (Option.or_eq_some_iff.mp hstop).imp_right And.right

end

namespace Doubles

open Float.Model
open Float.Model.UnpackedFloat

/-! ## Sides of a bound -/

/-- A double that is not above `b`, if it is a number at all. -/
inductive NotAbove (b : ℝ) (x : Float) : Prop
  | nan (hx : x.toModel.unpack = .notANumber)
  | infinite (hx : x.toModel.unpack = .infinity .negative)
  | finite (hfinite : x.isFinite = true) (hle : toReal x ≤ b)

/-- A double that is not below `b`, if it is a number at all. -/
inductive NotBelow (b : ℝ) (x : Float) : Prop
  | nan (hx : x.toModel.unpack = .notANumber)
  | infinite (hx : x.toModel.unpack = .infinity .positive)
  | finite (hfinite : x.isFinite = true) (hle : b ≤ toReal x)

variable {a b : ℝ} {x y : Float}

theorem NotAbove.mono (h : NotAbove a x) (hab : a ≤ b) : NotAbove b x := by
  cases h with
  | nan hx => exact .nan hx
  | infinite hx => exact .infinite hx
  | finite hfinite hle => exact .finite hfinite (hle.trans hab)

theorem NotAbove.larger (hx : NotAbove b x) (hy : NotAbove b y) : NotAbove b (Scalar.larger x y) :=
  larger_of_both (P := NotAbove b) hx hy

theorem NotBelow.smaller (hx : NotBelow b x) (hy : NotBelow b y) :
    NotBelow b (Scalar.smaller x y) :=
  smaller_of_both (P := NotBelow b) hx hy

theorem RoundsTo.notAbove {r : ℝ} (h : RoundsTo r x) (hb : IsDouble b) (hlimit : b < limit)
    (hr : r ≤ b) : NotAbove b x := by
  cases h with
  | finite hfinite hnearest => exact .finite hfinite (hnearest.le_of_le hb hr)
  | above _ hnearest hy => exact absurd (hnearest.le_of_le hb hr) (not_le.mpr (hlimit.trans_le hy))
  | below hx => exact .infinite hx

theorem RoundsTo.notBelow {r : ℝ} (h : RoundsTo r x) (hb : IsDouble b) (hlimit : -limit < b)
    (hr : b ≤ r) : NotBelow b x := by
  cases h with
  | finite hfinite hnearest => exact .finite hfinite (hnearest.ge_of_ge hb hr)
  | above hx => exact .infinite hx
  | below _ hnearest hy => exact absurd (hnearest.ge_of_ge hb hr) (not_le.mpr (hy.trans_lt hlimit))

theorem abs_toReal_lt_limit (hx : x.isFinite = true) : |toReal x| < limit := by
  have hunpack : x.toModel.unpack.isFinite = true := hx
  obtain ⟨hcanonical, hrange⟩ := canonical_unpack x
  unfold toReal
  cases hcase : x.toModel.unpack with
  | infinity | notANumber => rw [hcase] at hunpack; cases hunpack
  | zero => simpa [exactValue] using limit_pos
  | finite sign m e hm =>
      rw [hcase] at hcanonical
      exact (abs_exactValue_lt_iff hcanonical).mpr (hrange _ _ _ _ hcase)

theorem nonneg_iff_toReal (hx : x.isFinite = true) : 0 ≤ x ↔ 0 ≤ toReal x := by
  rw [le_iff_toReal toReal_zero.1 hx, toReal_zero.2]

/-- A number that is not negative is finite or positive infinity. -/
theorem notBelow_of_nonneg (hx : 0 ≤ x) : NotBelow 0 x := by
  have hfinite (h : x.toModel.unpack.isFinite = true) : NotBelow 0 x :=
    .finite h ((nonneg_iff_toReal h).mp hx)
  have hunpack := (nonNegative_iff x).mpr hx
  cases hcase : x.toModel.unpack with
  | notANumber => exact .nan hcase
  | infinity sign =>
      rw [hcase] at hunpack
      cases hunpack
      exact .infinite hcase
  | zero | finite => exact hfinite (by rw [hcase]; rfl)

/-- One less a number that is not negative is not above one. -/
theorem one_sub_notAbove (hx : 0 ≤ x) : NotAbove 1 (Scalar.ofNat 1 - x) := by
  have hunpack : (Scalar.ofNat 1 - x : Float).toModel.unpack = (pack (UnpackedFloat.sub
      Format.binary64 (Scalar.ofNat 1 : Float).toModel.unpack x.toModel.unpack)).unpack := rfl
  obtain ⟨hfiniteOne, hvalue⟩ := toReal_ofNat (n := 1) (by norm_num)
  obtain ⟨m, e, hm, hone⟩ := exists_unpack_of_pos hfiniteOne (by rw [hvalue]; norm_num)
  cases notBelow_of_nonneg hx with
  | nan hx =>
      have hresult : UnpackedFloat.sub Format.binary64 (.finite .positive m e hm) .notANumber =
          .notANumber := rfl
      rw [hx, hone, hresult] at hunpack
      exact .nan hunpack
  | infinite hx =>
      have hresult : UnpackedFloat.sub Format.binary64 (.finite .positive m e hm)
          (.infinity .positive) = .infinity .negative := rfl
      rw [hx, hone, hresult] at hunpack
      exact .infinite hunpack
  | finite hfinite hnonneg =>
      refine (sub_roundsTo hfiniteOne hfinite).notAbove ?_ ?_ ?_
      · simpa using isDouble_pow 0
      · simpa using two_pow_lt_limit (n := 0) (by norm_num)
      · rw [hvalue, Nat.cast_one]
        linarith

/-- One and a number that is not negative make a number that is not negative. -/
theorem one_add_notBelow (hx : 0 ≤ x) : NotBelow 0 (Scalar.ofNat 1 + x) := by
  have hone : (0 : Float) ≤ Scalar.ofNat 1 := by
    obtain ⟨hfinite, hvalue⟩ := toReal_ofNat (n := 1) (by norm_num)
    rw [nonneg_iff_toReal hfinite, hvalue]
    norm_num
  exact notBelow_of_nonneg (nonneg_add hone hx)

theorem unpack_mul (x y : Float) : (x * y).toModel.unpack =
    (pack (UnpackedFloat.mul Format.binary64 x.toModel.unpack y.toModel.unpack)).unpack :=
  rfl

theorem unpack_mul_nan (hy : y.toModel.unpack = .notANumber) :
    (x * y).toModel.unpack = .notANumber := by
  rw [← isNaN_eq_true_iff] at hy ⊢
  exact isNaN_mul_right x hy

/-- An infinite multiple of a price is infinite too, or not a number where the price is zero. -/
theorem unpack_mul_infinity (hx : x.isFinite = true) (hnonneg : 0 ≤ toReal x) {sign : Sign}
    (hy : y.toModel.unpack = .infinity sign) :
    (x * y).toModel.unpack = .notANumber ∨ (x * y).toModel.unpack = .infinity sign := by
  have hsign := (nonNegative_iff x).mpr ((nonneg_iff_toReal hx).mpr hnonneg)
  have hrange : x.toModel.unpack.isFinite = true := hx
  rw [unpack_mul, hy]
  cases hcase : x.toModel.unpack with
  | infinity | notANumber => rw [hcase] at hrange; cases hrange
  | zero sign' =>
      have hresult : UnpackedFloat.mul Format.binary64 (.zero sign') (.infinity sign) =
          .notANumber := rfl
      rw [hresult]
      exact Or.inl rfl
  | finite sign' m e hm =>
      rw [hcase] at hsign
      cases hsign
      have hresult : UnpackedFloat.mul Format.binary64 (.finite .positive m e hm)
          (.infinity sign) = .infinity sign := by cases sign <;> rfl
      rw [hresult]
      exact Or.inr (by cases sign <;> rfl)

/-- A price times a factor of at most one is not above the price. -/
theorem mul_notAbove (hx : x.isFinite = true) (hnonneg : 0 ≤ toReal x) (hy : NotAbove 1 y) :
    NotAbove (toReal x) (x * y) := by
  cases hy with
  | nan hy => exact .nan (unpack_mul_nan hy)
  | infinite hy => exact (unpack_mul_infinity hx hnonneg hy).elim .nan .infinite
  | finite hfinite hle =>
      exact (mul_roundsTo hx hfinite).notAbove (isDouble_toReal x)
        (lt_of_abs_lt (abs_toReal_lt_limit hx)) (mul_le_of_le_one_right hnonneg hle)

/-- A price times a factor that is not negative is not negative. -/
theorem mul_notBelow (hx : x.isFinite = true) (hnonneg : 0 ≤ toReal x) (hy : NotBelow 0 y) :
    NotBelow 0 (x * y) := by
  cases hy with
  | nan hy => exact .nan (unpack_mul_nan hy)
  | infinite hy => exact (unpack_mul_infinity hx hnonneg hy).elim .nan .infinite
  | finite hfinite hle =>
      exact (mul_roundsTo hx hfinite).notBelow isDouble_zero (by linarith [limit_pos])
        (mul_nonneg hnonneg hle)

theorem NotAbove.isFinite_of_le (h : NotAbove b y) (hx : x.isFinite = true) (hxy : x ≤ y) :
    y.isFinite = true ∧ toReal x ≤ toReal y ∧ toReal y ≤ b := by
  have hrange : x.toModel.unpack.isFinite = true := hx
  cases h with
  | nan hy =>
      rw [le_iff, hy] at hxy
      cases hcase : x.toModel.unpack <;> simp [hcase, UnpackedFloat.compare] at hxy
  | infinite hy =>
      rw [le_iff, hy] at hxy
      cases hcase : x.toModel.unpack with
      | infinity | notANumber => rw [hcase] at hrange; cases hrange
      | zero | finite => simp [hcase, UnpackedFloat.compare] at hxy
  | finite hfinite hle => exact ⟨hfinite, (le_iff_toReal hx hfinite).mp hxy, hle⟩

theorem NotBelow.isFinite_of_le (h : NotBelow b x) (hy : y.isFinite = true) (hxy : x ≤ y) :
    x.isFinite = true ∧ b ≤ toReal x ∧ toReal x ≤ toReal y := by
  have hrange : y.toModel.unpack.isFinite = true := hy
  cases h with
  | nan hx =>
      rw [le_iff, hx] at hxy
      simp [UnpackedFloat.compare] at hxy
  | infinite hx =>
      rw [le_iff, hx] at hxy
      cases hcase : y.toModel.unpack with
      | infinity | notANumber => rw [hcase] at hrange; cases hrange
      | zero | finite => simp [hcase, UnpackedFloat.compare] at hxy
  | finite hfinite hle => exact ⟨hfinite, hle, (le_iff_toReal hfinite hy).mp hxy⟩

/-- A finite price from zero to `b`. -/
structure InRange (b : ℝ) (x : Float) : Prop where
  isFinite : x.isFinite = true
  nonneg : 0 ≤ toReal x
  le : toReal x ≤ b

/-- A price less a fraction of it. -/
theorem InRange.lowered_notAbove (hx : InRange b x) (hy : 0 ≤ y) :
    NotAbove b (x * (Scalar.ofNat 1 - y)) :=
  (mul_notAbove hx.isFinite hx.nonneg (one_sub_notAbove hy)).mono hx.le

/-- A price and a fraction of it. -/
theorem raised_notBelow (hx : x.isFinite = true) (hnonneg : 0 ≤ toReal x) (hy : 0 ≤ y) :
    NotBelow 0 (x * (Scalar.ofNat 1 + y)) :=
  mul_notBelow hx hnonneg (one_add_notBelow hy)

end Doubles

/-! ## Positions and trades -/

open Doubles

/-- The prices of a candle that positions are opened, moved and closed by. -/
structure Candle.InRange (b : ℝ) (c : Candle Float) : Prop where
  high : Doubles.InRange b c.high
  low_isFinite : c.low.isFinite = true
  low_nonneg : 0 ≤ toReal c.low
  close : Doubles.InRange b c.close

/-- No limit is a negative fraction. -/
structure Risk.NonNegative (risk : Risk Float) : Prop where
  stopLoss : ∀ fraction ∈ risk.stopLoss, 0 ≤ fraction
  takeProfit : ∀ fraction ∈ risk.takeProfit, 0 ≤ fraction

/-- A position opened at the close of a candle, whose stop and target keep to their sides of the
range of the prices. -/
structure Position.Sound (candles : List (Candle Float)) (b : ℝ) (p : Position Float) : Prop where
  entry : ∃ c ∈ candles, p.entryPrice = c.close
  stop : ∀ price ∈ p.stop,
    match p.direction with
    | .long => NotAbove b price
    | .short => NotBelow 0 price
  target : ∀ price ∈ p.target,
    match p.direction with
    | .long => NotBelow 0 price
    | .short => NotAbove b price

/-- A trade from the close of a candle to a price in the range of the prices. -/
structure Trade.Settled (candles : List (Candle Float)) (b : ℝ) (t : Trade Float) : Prop where
  entry : ∃ c ∈ candles, t.entryPrice = c.close
  exit : Doubles.InRange b t.exitPrice
  profit : t.profit = t.exitPrice - t.entryPrice ∨ t.profit = t.entryPrice - t.exitPrice
  percent : t.profitPercent =
    if t.entryPrice == 0 then 0 else t.profit / t.entryPrice * Scalar.ofNat 100

section

variable {candles : List (Candle Float)} {b : ℝ} {risk : Risk Float} {p : Position Float}

theorem Position.sound_opened (hrisk : risk.NonNegative) {c : Candle Float} (hmem : c ∈ candles)
    (hc : c.InRange b) :
    (Position.opened c.time c.close risk.direction risk.stopLoss risk.takeProfit).Sound candles b := by
  refine ⟨⟨c, hmem, rfl⟩, fun price hprice => ?_, fun price hprice => ?_⟩
  · obtain ⟨fraction, hfraction, rfl⟩ := Option.map_eq_some_iff.mp hprice
    have hnonneg := hrisk.stopLoss fraction hfraction
    show match risk.direction with | .long => NotAbove b _ | .short => NotBelow 0 _
    cases risk.direction with
    | long => exact hc.close.lowered_notAbove hnonneg
    | short => exact raised_notBelow hc.close.isFinite hc.close.nonneg hnonneg
  · obtain ⟨fraction, hfraction, rfl⟩ := Option.map_eq_some_iff.mp hprice
    have hnonneg := hrisk.takeProfit fraction hfraction
    show match risk.direction with | .long => NotBelow 0 _ | .short => NotAbove b _
    cases risk.direction with
    | long => exact raised_notBelow hc.close.isFinite hc.close.nonneg hnonneg
    | short => exact hc.close.lowered_notAbove hnonneg

/-- A stop that trails stays on its side. -/
theorem Position.Sound.trail (h : p.Sound candles b) {c : Candle Float} (hc : c.InRange b)
    {fraction : Float} (hfraction : 0 ≤ fraction) :
    (p.trail c.low c.high fraction).Sound candles b := by
  refine ⟨h.entry, fun price hprice => ?_, h.target⟩
  obtain ⟨stop, hstop, rfl⟩ := Option.map_eq_some_iff.mp hprice
  have hside := h.stop stop hstop
  show match p.direction with | .long => NotAbove b _ | .short => NotBelow 0 _
  cases hdirection : p.direction with
  | long =>
      rw [hdirection] at hside
      exact hside.larger (hc.high.lowered_notAbove hfraction)
  | short =>
      rw [hdirection] at hside
      exact hside.smaller (raised_notBelow hc.low_isFinite hc.low_nonneg hfraction)

theorem Position.Sound.held (h : p.Sound candles b) (hrisk : risk.NonNegative) {row : Row Float}
    (hc : row.candle.InRange b) : (held risk p row).Sound candles b := by
  unfold Backtester.held
  split
  · next hstop => exact h.trail hc (hrisk.stopLoss _ hstop)
  · exact h

/-- The price that closes a position lies in the range of the prices. -/
theorem Position.Sound.exit (h : p.Sound candles b) {c : Candle Float} (hc : c.InRange b)
    {signal : Bool} {price : Float} {reason : ExitReason} (hexit : FirstExit p c signal price reason) :
    Doubles.InRange b price := by
  -- A level is bounded on one side only when it is set. Reaching it gives the other side, and rules
  -- out the NaN and the infinity that a level may be.
  have hfromLow {x : Float} (hx : NotAbove b x) (hreached : c.low ≤ x) : Doubles.InRange b x := by
    obtain ⟨hfinite, hlow, hle⟩ := hx.isFinite_of_le hc.low_isFinite hreached
    exact ⟨hfinite, hc.low_nonneg.trans hlow, hle⟩
  have htoHigh {x : Float} (hx : NotBelow 0 x) (hreached : x ≤ c.high) : Doubles.InRange b x := by
    obtain ⟨hfinite, hnonneg, hhigh⟩ := hx.isFinite_of_le hc.high.isFinite hreached
    exact ⟨hfinite, hnonneg, hhigh.trans hc.high.le⟩
  cases hexit with
  | stop hprice hstop =>
      have hside := h.stop price hprice
      unfold Position.hitsStop at hstop
      rw [hprice] at hstop
      cases hdirection : p.direction with
      | long =>
          rw [hdirection] at hside hstop
          exact hfromLow hside (of_decide_eq_true hstop)
      | short =>
          rw [hdirection] at hside hstop
          exact htoHigh hside (of_decide_eq_true hstop)
  | target _ hprice htarget =>
      have hside := h.target price hprice
      unfold Position.hitsTarget at htarget
      rw [hprice] at htarget
      cases hdirection : p.direction with
      | long =>
          rw [hdirection] at hside htarget
          exact htoHigh hside (of_decide_eq_true htarget)
      | short =>
          rw [hdirection] at hside htarget
          exact hfromLow hside (of_decide_eq_true htarget)
  | signal => exact hc.close

theorem Position.Sound.closed (h : p.Sound candles b) {c : Candle Float} (hc : c.InRange b)
    {signal : Bool} {price : Float} {reason : ExitReason} (hexit : FirstExit p c signal price reason) :
    (p.closed c.time price reason).Settled candles b := by
  refine ⟨h.entry, h.exit hc hexit, ?_, rfl⟩
  show p.profitAt price = price - p.entryPrice ∨ p.profitAt price = p.entryPrice - price
  unfold Position.profitAt
  cases p.direction with
  | long => exact Or.inl rfl
  | short => exact Or.inr rfl

/-- Every trade of a replay is made at prices in the range of the candles' prices. -/
theorem replay_settled (hcandles : ∀ c ∈ candles, c.InRange b) {strategy : Strategy Float}
    (hrisk : strategy.risk.NonNegative) : ∀ t ∈ replay candles strategy, t.Settled candles b := by
  refine Preserves.replayRows (P := Position.Sound candles b) (fun row hrow => ?_)
    (fun p hp => by cases hp)
  have hmem := candle_mem_of_mem_rowsOf hrow
  have hc := hcandles row.candle hmem
  exact
    { opened := Position.sound_opened hrisk hmem hc
      held := fun p hp => hp.held hrisk hc
      closed := fun p price reason hp hexit => hp.closed hc hexit }

theorem length_replay_le (candles : List (Candle Float)) (strategy : Strategy Float) :
    (replay candles strategy).length ≤ candles.length := by
  refine (length_replayRows_le none _).trans (le_of_eq ?_)
  rw [← List.length_map (f := Row.candle), map_candle_rowsOf]

end

end Backtester
