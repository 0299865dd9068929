import Backtester.Proofs.RowSignals
import Backtester.Proofs.WholeNumbers

/-!
# The crossover of two averages

The crossover strategy looks at two rows at a time, yet it holds a position for whole stretches of
rows: from the first row on which the fast average has risen above the slow one to the first row
after it on which the fast average is below.

* `isLeast_crossing_iff` — the first crossing to a side is the first row on that side.
* `averageAt_nonneg` — the averages of non-negative closes are non-negative doubles, so never
  not-a-number, and on these the order is total.
* `enters_crossoverTape_iff`, `exits_crossoverTape_iff` — the rows on which the strategy opens and
  closes.
* `replay_crossover_eq_iff` — the trades of the strategy.
-/

namespace Backtester

/-! ## The first row on the other side -/

theorem exists_isLeast {P : Nat → Prop} (h : ∃ i, P i) : ∃ i, IsLeast {i | P i} i := by
  classical
  exact ⟨_, Nat.isLeast_find h⟩

/-- Between a row on one side and a row on the other lies a crossing. -/
theorem exists_crossing {before now : Nat → Prop} {i n : Nat} (hstart : before i)
    (hsplit : ∀ k, i < k → k < n → ¬now k → before k) {j : Nat} (hlater : i < j) (hend : j < n)
    (hnow : now j) :
    ∃ k, k ≤ j ∧ i < k ∧ k < n ∧ before (k - 1) ∧ now k := by
  -- Going back from the row on the other side, the first row that is on neither ends the walk.
  induction j with
  | zero => omega
  | succ j ih =>
      by_cases hbefore : before j
      · exact ⟨j + 1, Nat.le_refl _, hlater, hend, hbefore, hnow⟩
      · have hne : j ≠ i := by
          rintro rfl
          exact hbefore hstart
        have hstill : now j := by
          by_contra hnot
          exact hbefore (hsplit j (by omega) (by omega) hnot)
        obtain ⟨k, hk, hcrossing⟩ := ih (by omega) (by omega) hstill
        exact ⟨k, by omega, hcrossing⟩

/-- The first crossing to a side is the first row on that side. -/
theorem isLeast_crossing_iff (before now : Nat → Prop) {i n : Nat} (hstart : before i)
    (hsplit : ∀ k, i < k → k < n → ¬now k → before k) {j : Nat} :
    IsLeast {j | i < j ∧ j < n ∧ before (j - 1) ∧ now j} j ↔
      IsLeast {j | i < j ∧ j < n ∧ now j} j := by
  constructor
  · rintro ⟨⟨hlater, hend, -, hnow⟩, hleast⟩
    refine ⟨⟨hlater, hend, hnow⟩, ?_⟩
    rintro k ⟨hlater', hend', hnow'⟩
    obtain ⟨first, hfirst, hcrossing⟩ := exists_crossing hstart hsplit hlater' hend' hnow'
    exact (hleast hcrossing).trans hfirst
  · rintro ⟨⟨hlater, hend, hnow⟩, hleast⟩
    obtain ⟨first, hfirst, hcrossing⟩ := exists_crossing hstart hsplit hlater hend hnow
    obtain rfl : first = j :=
      Nat.le_antisymm hfirst (hleast ⟨hcrossing.1, hcrossing.2.1, hcrossing.2.2.2⟩)
    refine ⟨hcrossing, ?_⟩
    rintro k ⟨hlater', hend', -, hnow'⟩
    exact hleast ⟨hlater', hend', hnow'⟩

/-! ## The averages -/

/-- The simple average of the closes on a row; not-a-number before the first full window. -/
def averageAt (candles : List (Candle Float)) (period row : Nat) : Float :=
  (simpleAverage (candles.map Candle.close) period).getD row Scalar.nan

theorem getElem?_simpleAverage {candles : List (Candle Float)} {period row : Nat}
    (hrow : row < candles.length) (hpositive : 0 < period) :
    (simpleAverage (candles.map Candle.close) period)[row]? =
      some (averageAt candles period row) := by
  have hlength : row < (simpleAverage (candles.map Candle.close) period).length := by
    rw [simpleAverage, if_neg (by omega)]
    simpa using hrow
  rw [averageAt, List.getD_eq_getElem?_getD, List.getElem?_eq_getElem hlength]
  rfl

theorem averageAt_eq {candles : List (Candle Float)} {period row : Nat}
    (hrow : row < candles.length) (hpositive : 0 < period) :
    averageAt candles period row =
      if row + 1 < period then Scalar.nan
      else Scalar.sum (window (candles.map Candle.close) period row) / Scalar.ofNat period := by
  rw [averageAt, simpleAverage, if_neg (by omega), List.getD_eq_getElem?_getD, List.getElem?_map,
    List.getElem?_range (by simpa using hrow)]
  rfl

theorem averageAt_nonneg {candles : List (Candle Float)} (hcloses : ∀ c ∈ candles, 0 ≤ c.close)
    {period row : Nat} (hrow : row < candles.length) (hpositive : 0 < period)
    (hlong : period ≤ maxNat64) (hfull : period ≤ row + 1) :
    0 ≤ averageAt candles period row := by
  rw [averageAt_eq hrow hpositive, if_neg (by omega)]
  apply Doubles.nonneg_div_ofNat _ hpositive
  · show period < 2 ^ 64
    rw [maxNat64] at hlong
    omega
  · apply Doubles.nonneg_sum
    intro x hx
    have hmem : x ∈ candles.map Candle.close := List.mem_of_mem_drop (List.mem_of_mem_take hx)
    obtain ⟨c, hc, rfl⟩ := List.mem_map.mp hmem
    exact hcloses c hc

/-! ## The frame of the strategy -/

/-- The name of the column of a simple average. -/
def averageName (period : Nat) : String := "sma_" ++ natText period

theorem averageName_injective {p q : Nat} (h : averageName p = averageName q) : p = q := by
  have hdigits : Nat.toDigits 10 p = Nat.toDigits 10 q := by
    have hlist := congrArg String.toList h
    simpa [averageName, natText, decimalDigits] using hlist
  calc p = Nat.ofDigitChars 10 (Nat.toDigits 10 p) 0 :=
        (Nat.ofDigitChars_toDigits (by decide) (by decide)).symm
    _ = Nat.ofDigitChars 10 (Nat.toDigits 10 q) 0 := by rw [hdigits]
    _ = q := Nat.ofDigitChars_toDigits (by decide) (by decide)

/-- No price column begins like the column of an average. -/
theorem averageName_not_mem (period : Nat) : averageName period ∉ priceColumns := by
  have hfirst : (averageName period).toList.head? = some 's' := by
    simp [averageName]
  intro hmem
  have hprice : ∀ name ∈ priceColumns, name.toList.head? ≠ some 's' := by decide
  exact hprice _ hmem hfirst

theorem addIndicator_sma (f : Frame Float) {closes : List Float}
    (hclose : f.get? "close" = some closes) (period : Nat) :
    f.addIndicator (.sma period) =
      f.insert (averageName period) (simpleAverage closes period) := by
  rw [Frame.addIndicator, hclose]
  exact Frame.insertOutput_of_not_mem f (averageName_not_mem period) _

theorem close_ne_averageName (period : Nat) : "close" ≠ averageName period := by
  intro h
  apply averageName_not_mem period
  rw [← h]
  decide

/-- The frame that the strategy reads. -/
def crossoverFrame (candles : List (Candle Float)) (fast slow : Nat) : Frame Float :=
  Frame.build candles [.sma fast, .sma slow]

theorem crossoverFrame_eq (candles : List (Candle Float)) (fast slow : Nat) :
    crossoverFrame candles fast slow =
      ((Frame.ofCandles candles).insert (averageName fast)
        (simpleAverage (candles.map Candle.close) fast)).insert (averageName slow)
        (simpleAverage (candles.map Candle.close) slow) := by
  have hclose : (Frame.ofCandles candles).get? "close" = some (candles.map Candle.close) := rfl
  show ((Frame.ofCandles candles).addIndicator (.sma fast)).addIndicator (.sma slow) = _
  rw [addIndicator_sma _ hclose, addIndicator_sma]
  rw [Frame.get?_insert_of_ne _ (close_ne_averageName fast), hclose]

theorem get?_crossoverFrame (candles : List (Candle Float)) {fast slow : Nat}
    (hslow : fast < slow) :
    (crossoverFrame candles fast slow).get? (averageName fast) =
        some (simpleAverage (candles.map Candle.close) fast) ∧
      (crossoverFrame candles fast slow).get? (averageName slow) =
        some (simpleAverage (candles.map Candle.close) slow) := by
  rw [crossoverFrame_eq]
  constructor
  · have hne : averageName fast ≠ averageName slow := by
      intro h
      exact absurd (averageName_injective h) (by omega)
    rw [Frame.get?_insert_of_ne _ hne, Frame.get?_insert_self]
  · rw [Frame.get?_insert_self]

theorem length_crossoverFrame (candles : List (Candle Float)) (fast slow : Nat) :
    (crossoverFrame candles fast slow).length = candles.length := by
  rw [crossoverFrame_eq]
  rfl

/-! ## The signals of the strategy -/

/-- What the simulation of the strategy reads. -/
def crossoverTape (candles : List (Candle Float)) (fast slow : Nat) : Tape Float :=
  let frame := crossoverFrame candles fast slow
  let strategy : Strategy Float := .crossover fast slow
  ⟨candles, frame.allHold strategy.entry, frame.allHold strategy.exit,
    frame.readyRows strategy.referencedColumns, strategy.risk⟩

section

variable {candles : List (Candle Float)} {fast slow : Nat}

/-- A condition of the strategy compares the averages of a row and of the row before. -/
theorem signalAt_crossoverCondition (hfast : 1 ≤ fast) (hslow : fast < slow)
    (comparator : Comparator) {i : Nat} (hi : i < candles.length) :
    signalAt ((crossoverFrame candles fast slow).allHold
        [Strategy.crossoverCondition fast slow comparator]) i = true ↔
      comparator.holds
        (if i = 0 then none
          else some (averageAt candles fast (i - 1), averageAt candles slow (i - 1)))
        (averageAt candles fast i, averageAt candles slow i) = true := by
  obtain ⟨hgetFast, hgetSlow⟩ := get?_crossoverFrame candles hslow
  have hvalues := congrArg₂ List.zip (Frame.valuesOf_column _ hgetFast)
    (Frame.valuesOf_column _ hgetSlow)
  have hrow (k : Nat) (hk : k < candles.length) :
      ((simpleAverage (candles.map Candle.close) fast).zip
        (simpleAverage (candles.map Candle.close) slow))[k]? =
        some (averageAt candles fast k, averageAt candles slow k) := by
    rw [List.zip_eq_zipWith, List.getElem?_zipWith, getElem?_simpleAverage hk (by omega),
      getElem?_simpleAverage hk (by omega)]
  rw [Frame.signalAt_allHold _ (List.cons_ne_nil _ _), length_crossoverFrame, and_iff_right hi,
    List.forall_mem_singleton, Frame.signalAt_holds _ _ hvalues, hrow i hi]
  cases i with
  | zero => rfl
  | succ k =>
      rw [Nat.add_sub_cancel, hrow k (by omega)]
      rfl

/-- The entry signal is a crossing to above, which the first row cannot be. -/
theorem signalAt_entry_iff (hfast : 1 ≤ fast) (hslow : fast < slow) {i : Nat}
    (hi : i < candles.length) : signalAt (crossoverTape candles fast slow).entry i = true ↔
      0 < i ∧ averageAt candles fast (i - 1) ≤ averageAt candles slow (i - 1) ∧
        averageAt candles slow i < averageAt candles fast i := by
  refine (signalAt_crossoverCondition hfast hslow .crossesAbove hi).trans ?_
  cases i with
  | zero => simp [Comparator.holds]
  | succ k => simp [Comparator.holds]

/-- The exit signal is a crossing to below. -/
theorem signalAt_exit_iff (hfast : 1 ≤ fast) (hslow : fast < slow) {i : Nat}
    (hi : i < candles.length) : signalAt (crossoverTape candles fast slow).exit i = true ↔
      0 < i ∧ averageAt candles slow (i - 1) ≤ averageAt candles fast (i - 1) ∧
        averageAt candles fast i < averageAt candles slow i := by
  refine (signalAt_crossoverCondition hfast hslow .crossesBelow hi).trans ?_
  cases i with
  | zero => simp [Comparator.holds]
  | succ k => simp [Comparator.holds]

/-- The trade of the strategy that opens on one candle and closes on another. -/
def crossoverTrade (opening closing : Candle Float) : Trade Float :=
  (Position.opened opening.time opening.close .long none none).closed closing.time closing.close
    .signal

/-- The strategy has no stop and no target, so it closes on its signal. -/
theorem closes_crossoverTape_iff {i j : Nat} {trade : Trade Float} :
    (crossoverTape candles fast slow).Closes i j trade ↔
      ∃ opening closing, candles[i]? = some opening ∧ i < j ∧ candles[j]? = some closing ∧
        signalAt (crossoverTape candles fast slow).ready j = true ∧
        signalAt (crossoverTape candles fast slow).exit j = true ∧
        trade = crossoverTrade opening closing := by
  constructor
  · rintro ⟨hopening, hlater, hclosing, hready, hexit⟩
    cases hexit with
    | stop hprice _ => exact absurd hprice.symm (Option.some_ne_none _)
    | target _ hprice _ => exact absurd hprice.symm (Option.some_ne_none _)
    | signal _ _ hsignal => exact ⟨_, _, hopening, hlater, hclosing, hready, hsignal, rfl⟩
  · rintro ⟨opening, closing, hopening, hlater, hclosing, hready, hsignal, rfl⟩
    exact .intro hopening hlater hclosing hready (.signal rfl rfl hsignal)

theorem mem_referencedColumns {name : String} :
    name ∈ (Strategy.crossover fast slow : Strategy Float).referencedColumns ↔
      name = averageName fast ∨ name = averageName slow := by
  rw [Strategy.referencedColumns, List.mem_eraseDups, List.mem_mergeSort]
  show name ∈ [averageName fast, averageName slow, averageName fast, averageName slow] ↔ _
  simp
  tauto

theorem referencedColumns_crossover_two_three :
    (Strategy.crossover 2 3 : Strategy Float).referencedColumns = ["sma_2", "sma_3"] := by
  have hread : ((Strategy.crossover 2 3 : Strategy Float).entry ++
      (Strategy.crossover 2 3 : Strategy Float).exit).flatMap Condition.columns =
        ["sma_2", "sma_3", "sma_2", "sma_3"] := by
    decide +kernel
  have hsorted : (["sma_2", "sma_3", "sma_2", "sma_3"].mergeSort fun a b => decide (a ≤ b)) =
      ["sma_2", "sma_2", "sma_3", "sma_3"] := by
    simp [List.mergeSort, List.MergeSort.Internal.splitInTwo]
  rw [Strategy.referencedColumns, hread, hsorted]
  decide

/-- The trades of a crossover, if its first entry is the least row that opens: each exits on the
least later row on which the fast average is below, and each next one enters on the least row after
that on which the fast average is above. -/
inductive CrossoverTrades (candles : List (Candle Float)) (fast slow : Nat → Float) :
    (opens : Nat → Prop) → List (Trade Float) → Prop
  | unopened {opens : Nat → Prop} (hnever : ∀ i, i < candles.length → ¬opens i) :
      CrossoverTrades candles fast slow opens []
  | unclosed {opens : Nat → Prop} {i : Nat}
      (hentry : IsLeast {i | i < candles.length ∧ opens i} i)
      (hnever : ∀ j, i < j → j < candles.length → ¬fast j < slow j) :
      CrossoverTrades candles fast slow opens []
  | closed {opens : Nat → Prop} {i j : Nat} {opening closing : Candle Float}
      {rest : List (Trade Float)} (hopening : candles[i]? = some opening)
      (hclosing : candles[j]? = some closing)
      (hentry : IsLeast {i | i < candles.length ∧ opens i} i)
      (hexit : IsLeast {j | i < j ∧ j < candles.length ∧ fast j < slow j} j)
      (hrest : CrossoverTrades candles fast slow (fun k => j < k ∧ slow k < fast k) rest) :
      CrossoverTrades candles fast slow opens (crossoverTrade opening closing :: rest)

/-- The description determines the trades. -/
theorem CrossoverTrades.unique {fast slow : Nat → Float} {opens : Nat → Prop}
    {trades others : List (Trade Float)} (h : CrossoverTrades candles fast slow opens trades)
    (h' : CrossoverTrades candles fast slow opens others) : trades = others := by
  induction h generalizing others with
  | unopened hnever =>
      cases h' with
      | unopened _ => rfl
      | unclosed _ _ => rfl
      | closed _ _ hentry' _ _ => exact absurd hentry'.1.2 (hnever _ hentry'.1.1)
  | unclosed hentry hnever =>
      cases h' with
      | unopened _ => rfl
      | unclosed _ _ => rfl
      | closed _ _ hentry' hexit' _ =>
          obtain rfl := hentry.unique hentry'
          exact absurd hexit'.1.2.2 (hnever _ hexit'.1.1 hexit'.1.2.1)
  | closed hopening hclosing hentry hexit _ ih =>
      cases h' with
      | unopened hnever' => exact absurd hentry.1.2 (hnever' _ hentry.1.1)
      | unclosed hentry' hnever' =>
          obtain rfl := hentry.unique hentry'
          exact absurd hexit.1.2.2 (hnever' _ hexit.1.1 hexit.1.2.1)
      | closed hopening' hclosing' hentry' hexit' hrest' =>
          obtain rfl := hentry.unique hentry'
          obtain rfl := hexit.unique hexit'
          obtain rfl := Option.some.inj (hopening.symm.trans hopening')
          obtain rfl := Option.some.inj (hclosing.symm.trans hclosing')
          rw [ih hrest']

/-! ## Where the strategy opens and closes -/

variable (hcloses : ∀ c ∈ candles, 0 ≤ c.close) (hfast : 1 ≤ fast) (hslow : fast < slow)
  (hlong : slow ≤ maxNat64)

include hcloses hfast hslow hlong

/-- Once the window of the slow average is full, both averages are numbers. -/
theorem isNaN_averages {i : Nat} (hi : i < candles.length) (hfull : slow ≤ i + 1) :
    (averageAt candles fast i).isNaN = false ∧ (averageAt candles slow i).isNaN = false :=
  ⟨Doubles.isNaN_of_nonneg (averageAt_nonneg hcloses hi (by omega) (by omega) (by omega)),
    Doubles.isNaN_of_nonneg (averageAt_nonneg hcloses hi (by omega) (by omega) (by omega))⟩

/-- A row is ready once the window of the slow average is full. -/
theorem signalAt_ready_iff {i : Nat} :
    signalAt (crossoverTape candles fast slow).ready i = true ↔
      i < candles.length ∧ slow ≤ i + 1 := by
  obtain ⟨hgetFast, hgetSlow⟩ := get?_crossoverFrame candles hslow
  show signalAt ((crossoverFrame candles fast slow).readyRows _) i = true ↔ _
  rw [Frame.signalAt_readyRows, length_crossoverFrame]
  refine and_congr_right fun hi => ?_
  constructor
  · intro hready
    obtain ⟨x, hx, hnumber⟩ := hready _ (mem_referencedColumns.mpr (Or.inr rfl)) _ hgetSlow
    by_contra hwarm
    rw [getElem?_simpleAverage hi (by omega), averageAt_eq hi (by omega), if_pos (by omega)] at hx
    obtain rfl := Option.some.inj hx
    exact absurd hnumber (by decide)
  · intro hfull name hname column hcolumn
    obtain ⟨hfastNumber, hslowNumber⟩ := isNaN_averages hcloses hfast hslow hlong hi hfull
    rcases mem_referencedColumns.mp hname with rfl | rfl
    · obtain rfl := Option.some.inj (hgetFast.symm.trans hcolumn)
      exact ⟨_, getElem?_simpleAverage hi (by omega), hfastNumber⟩
    · obtain rfl := Option.some.inj (hgetSlow.symm.trans hcolumn)
      exact ⟨_, getElem?_simpleAverage hi (by omega), hslowNumber⟩

theorem enters_crossoverTape_iff {i : Nat} : (crossoverTape candles fast slow).Enters i ↔
      i < candles.length ∧ slow ≤ i ∧
        averageAt candles fast (i - 1) ≤ averageAt candles slow (i - 1) ∧
        averageAt candles slow i < averageAt candles fast i := by
  constructor
  · rintro ⟨hrow, hready, hentry⟩
    have hi : i < candles.length := hrow
    obtain ⟨hpositive, hbefore, hnow⟩ := (signalAt_entry_iff hfast hslow hi).mp hentry
    obtain ⟨-, hfull⟩ := (signalAt_ready_iff hcloses hfast hslow hlong).mp hready
    -- On the first ready row the slow average of the row before is not a number yet.
    have hne : i + 1 ≠ slow := by
      intro hfirst
      have hwarm : averageAt candles slow (i - 1) = Scalar.nan := by
        rw [averageAt_eq (by omega) (by omega), if_pos (by omega)]
      rw [hwarm] at hbefore
      exact Doubles.not_le_nan _ hbefore
    exact ⟨hi, by omega, hbefore, hnow⟩
  · rintro ⟨hi, hfull, hbefore, hnow⟩
    exact ⟨hi, (signalAt_ready_iff hcloses hfast hslow hlong).mpr ⟨hi, by omega⟩,
      (signalAt_entry_iff hfast hslow hi).mpr ⟨by omega, hbefore, hnow⟩⟩

theorem exits_crossoverTape_iff {i j : Nat} (hopen : slow ≤ i) :
    (crossoverTape candles fast slow).Exits i j ↔ i < j ∧ j < candles.length ∧
      averageAt candles slow (j - 1) ≤ averageAt candles fast (j - 1) ∧
      averageAt candles fast j < averageAt candles slow j := by
  constructor
  · rintro ⟨trade, hcloses'⟩
    obtain ⟨opening, closing, -, hlater, hclosing, -, hexit, -⟩ :=
      closes_crossoverTape_iff.mp hcloses'
    have hj : j < candles.length := (List.getElem?_eq_some_iff.mp hclosing).1
    exact ⟨hlater, hj, ((signalAt_exit_iff hfast hslow hj).mp hexit).2⟩
  · rintro ⟨hlater, hj, hcrossing⟩
    refine ⟨crossoverTrade candles[i] candles[j], closes_crossoverTape_iff.mpr ⟨_, _,
      List.getElem?_eq_getElem _, hlater, List.getElem?_eq_getElem hj, ?_, ?_, rfl⟩⟩
    · exact (signalAt_ready_iff hcloses hfast hslow hlong).mpr ⟨hj, by omega⟩
    · exact (signalAt_exit_iff hfast hslow hj).mpr ⟨by omega, hcrossing⟩

/-! ## The trades of the strategy -/

/-- Once a position is open, its first exit is the first row on which the fast average is below. -/
theorem isLeast_exits_iff {i : Nat} (hentry : (crossoverTape candles fast slow).Enters i)
    (j : Nat) :
    IsLeast {j | (crossoverTape candles fast slow).Exits i j} j ↔ IsLeast {j | i < j ∧
      j < candles.length ∧ averageAt candles fast j < averageAt candles slow j} j := by
  obtain ⟨hi, hopen, -, habove⟩ := (enters_crossoverTape_iff hcloses hfast hslow hlong).mp hentry
  simp only [exits_crossoverTape_iff hcloses hfast hslow hlong hopen]
  -- On the row of the entry the fast average is above, so it is not below until an exit.
  apply isLeast_crossing_iff (fun k => averageAt candles slow k ≤ averageAt candles fast k)
    (fun k => averageAt candles fast k < averageAt candles slow k)
  · exact Doubles.le_of_lt habove
  · intro k hlater hend hnot
    obtain ⟨hfastNumber, hslowNumber⟩ :=
      isNaN_averages hcloses hfast hslow hlong hend (by omega)
    exact Doubles.le_of_not_lt hfastNumber hslowNumber hnot

/-- After an exit, the next entry is the first row on which the fast average is above. -/
theorem isLeast_entries_iff {j : Nat} (hopen : slow ≤ j)
    (hbelow : averageAt candles fast j < averageAt candles slow j) (i : Nat) :
    IsLeast {i | j + 1 ≤ i ∧ (crossoverTape candles fast slow).Enters i} i ↔
      IsLeast {i | i < candles.length ∧ j < i ∧
        averageAt candles slow i < averageAt candles fast i} i := by
  have hcrossings : {i | j + 1 ≤ i ∧ (crossoverTape candles fast slow).Enters i} =
      {i | j < i ∧ i < candles.length ∧
        averageAt candles fast (i - 1) ≤ averageAt candles slow (i - 1) ∧
        averageAt candles slow i < averageAt candles fast i} := by
    ext i
    simp only [Set.mem_ofPred_eq, enters_crossoverTape_iff hcloses hfast hslow hlong]
    constructor
    · rintro ⟨hlater, hend, -, hcrossing⟩
      exact ⟨hlater, hend, hcrossing⟩
    · rintro ⟨hlater, hend, hcrossing⟩
      exact ⟨hlater, hend, by omega, hcrossing⟩
  have hsides : {i | i < candles.length ∧ j < i ∧
        averageAt candles slow i < averageAt candles fast i} =
      {i | j < i ∧ i < candles.length ∧
        averageAt candles slow i < averageAt candles fast i} := by
    ext i
    exact and_left_comm
  rw [hcrossings, hsides]
  -- On the row of the exit the fast average is below, so it is not above until an entry.
  apply isLeast_crossing_iff (fun k => averageAt candles fast k ≤ averageAt candles slow k)
    (fun k => averageAt candles slow k < averageAt candles fast k)
  · exact Doubles.le_of_lt hbelow
  · intro k hlater hend hnot
    obtain ⟨hfastNumber, hslowNumber⟩ :=
      isNaN_averages hcloses hfast hslow hlong hend (by omega)
    exact Doubles.le_of_not_lt hslowNumber hfastNumber hnot

/-- From a row on, the trades of the strategy are those of the crossover, if the rows that open are
found first on the same row. -/
theorem crossoverTrades_of_tradesFrom {cursor : Nat} {trades : List (Trade Float)}
    (h : (crossoverTape candles fast slow).TradesFrom cursor trades) {opens : Nat → Prop}
    (hopens : ∀ i, IsLeast {i | cursor ≤ i ∧ (crossoverTape candles fast slow).Enters i} i ↔
      IsLeast {i | i < candles.length ∧ opens i} i) :
    CrossoverTrades candles (averageAt candles fast) (averageAt candles slow) opens trades := by
  -- What opens changes after the first trade, so the induction is over every such condition.
  induction h generalizing opens with
  | unopened hnever =>
      apply CrossoverTrades.unopened
      intro i hi hopened
      obtain ⟨first, hfirst⟩ := exists_isLeast (P := fun i => i < candles.length ∧ opens i)
        ⟨i, hi, hopened⟩
      obtain ⟨⟨hlater, henters⟩, -⟩ := (hopens first).mpr hfirst
      exact hnever first hlater henters
  | @unclosed _ i hentry hnever =>
      -- A later row below would have a least one before it, and that row exits.
      refine .unclosed ((hopens _).mp hentry) ?_
      intro j hlater hend hbelow
      obtain ⟨first, hfirst⟩ := exists_isLeast (P := fun j => i < j ∧ j < candles.length ∧
        averageAt candles fast j < averageAt candles slow j) ⟨j, hlater, hend, hbelow⟩
      have hexit := (isLeast_exits_iff hcloses hfast hslow hlong hentry.1.2 first).mpr hfirst
      exact hnever first hexit.1
  | closed hentry hexit htrade _ ih =>
      obtain ⟨opening, closing, hopening, hlater, hclosing, -, -, rfl⟩ :=
        closes_crossoverTape_iff.mp htrade
      obtain ⟨-, hopen, -, -⟩ := (enters_crossoverTape_iff hcloses hfast hslow hlong).mp hentry.1.2
      have hside := (isLeast_exits_iff hcloses hfast hslow hlong hentry.1.2 _).mp hexit
      refine .closed hopening hclosing ((hopens _).mp hentry) hside (ih ?_)
      exact isLeast_entries_iff hcloses hfast hslow hlong (by omega) hside.1.2.2

theorem crossoverTrades_replay :
    CrossoverTrades candles (averageAt candles fast) (averageAt candles slow)
      (fun i => slow ≤ i ∧ averageAt candles fast (i - 1) ≤ averageAt candles slow (i - 1) ∧
        averageAt candles slow i < averageAt candles fast i)
      (replay candles (.crossover fast slow)) := by
  have htrades : (crossoverTape candles fast slow).TradesFrom 0
      (replay candles (.crossover fast slow)) := tradesFrom_simulate ..
  refine crossoverTrades_of_tradesFrom hcloses hfast hslow hlong htrades ?_
  intro i
  simp only [enters_crossoverTape_iff hcloses hfast hslow hlong, Nat.zero_le, true_and]

end

/-- The crossover holds a position while the fast average is not below the slow one.  For closes
that are not negative and periods of 64 bits, both averages are numbers on every row with a full
window of the slow one.  The trades of the strategy are then exactly these: the first entry is the
first row on which the fast average has come from below or level to above; each exit is the first
row after the entry on which it is below, and each later entry the first row after the exit on which
it is above.  A row on which the two are level is none of these. -/
theorem replay_crossover_eq_iff {candles : List (Candle Float)}
    (hcloses : ∀ c ∈ candles, 0 ≤ c.close) {fast slow : Nat} (hfast : 1 ≤ fast)
    (hslow : fast < slow) (hlong : slow ≤ maxNat64) :
    let F := averageAt candles fast
    let S := averageAt candles slow
    (∀ i, i < candles.length → slow ≤ i + 1 → (F i).isNaN = false ∧ (S i).isNaN = false) ∧
    ∀ trades, replay candles (.crossover fast slow) = trades ↔
      CrossoverTrades candles F S
        (fun i => slow ≤ i ∧ F (i - 1) ≤ S (i - 1) ∧ S i < F i) trades := by
  intro F S
  have hreplay := crossoverTrades_replay hcloses hfast hslow hlong
  refine ⟨fun i => isNaN_averages hcloses hfast hslow hlong, fun trades => ⟨?_, hreplay.unique⟩⟩
  rintro rfl
  exact hreplay

/-- Eight candles whose closes rise and fall, under averages over one and two rows. -/
theorem replay_crossover_eq_iff_one_two :
    let candles : List (Candle Float) :=
      (List.range 8).map fun (i : Nat) => ⟨60 * i, 5, 9, 1, if i % 4 < 2 then 5 else 7, 1000⟩
    let F := averageAt candles 1
    let S := averageAt candles 2
    (∀ c ∈ candles, 0 ≤ c.close) ∧ 1 ≤ 1 ∧ 1 < 2 ∧ 2 ≤ maxNat64 ∧
    (∀ i, i < candles.length → 2 ≤ i + 1 → (F i).isNaN = false ∧ (S i).isNaN = false) ∧
    CrossoverTrades candles F S (fun i => 2 ≤ i ∧ F (i - 1) ≤ S (i - 1) ∧ S i < F i)
      (replay candles (.crossover 1 2)) := by
  intro candles F S
  have hcloses : ∀ c ∈ candles, 0 ≤ c.close := by
    intro c hc
    obtain ⟨i, -, rfl⟩ := List.mem_map.mp hc
    show (0 : Float) ≤ if i % 4 < 2 then 5 else 7
    split
    · decide +kernel
    · decide +kernel
  have hcrossover := replay_crossover_eq_iff hcloses (Nat.le_refl 1) Nat.one_lt_two (by decide)
  exact ⟨hcloses, Nat.le_refl 1, Nat.one_lt_two, by decide, hcrossover.1, (hcrossover.2 _).mp rfl⟩

end Backtester
