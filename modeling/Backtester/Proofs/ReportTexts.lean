import Backtester.Proofs.FiniteResults
import Backtester.Proofs.JsonTexts
import Backtester.Report

/-!
# Reports read back

A report is decoded as the result it was written for, unless a number of the result is not finite.

* `RunResult.FitsWords` — results whose times and counts are words of 64 bits.
* `RunResult.written` — the numbers of a result in the order of its report.
* `Document.fields?_document` — the fields of a written record.
* `RunResult.ofDocument?_document` — decoding is the inverse of writing where all numbers are finite.
* `RunResult.fits` — a report is a value that JSON can hold.
* `Json.figures` — the doubles and nulls of a value.
* `report_reads_back` — a report as a text.
-/

namespace Backtester

/-! ## Results -/

/-- The counts of a summary. -/
def Metrics.counts {α : Type} (m : Metrics α) : List ℕ :=
  [m.totalTrades, m.winningTrades, m.losingTrades, m.breakevenTrades]

/-- Times and counts are words of 64 bits. -/
structure RunResult.FitsWords {α : Type} (r : RunResult α) : Prop where
  counts : ∀ n ∈ r.metrics.counts, n ≤ maxNat64
  curve : ∀ p ∈ r.equityCurve, FitsInt64 p.time
  drawdowns : ∀ d ∈ r.drawdowns, FitsInt64 d.time
  trades : ∀ t ∈ r.trades, FitsInt64 t.entryTime ∧ FitsInt64 t.exitTime

/-- The numbers of a drawdown. -/
def DrawdownPoint.numbers {α : Type} (d : DrawdownPoint α) : List α := [d.amount, d.percent]

/-- Every scalar of a result, in the order of its report. -/
def RunResult.written {α : Type} (r : RunResult α) : List α :=
  r.metrics.numbers ++ r.equityCurve.map EquityPoint.equity ++
    r.drawdowns.flatMap DrawdownPoint.numbers ++ r.trades.flatMap Trade.numbers

/-! ## Fields -/

namespace Document

theorem membersNamed_eq {members : List (String × Json)} (hkeys : (members.map Prod.fst).Nodup)
    {m : String × Json} (hm : m ∈ members) :
    membersNamed m.1 (Json.memberDocuments members) = [m.2.document] := by
  rw [Json.memberDocuments_eq_map, membersNamed]
  induction members with
  | nil => cases hm
  | cons member rest ih =>
      obtain ⟨hnew, hrest⟩ := List.nodup_cons.mp hkeys
      rcases List.mem_cons.mp hm with rfl | hmem
      · have hnone : (rest.map fun m' => (some m'.1, m'.2.document)).filterMap
            (fun m' => if m'.1 = some m.1 then some m'.2 else none) = [] := by
          rw [List.filterMap_eq_nil_iff]
          intro m' hm'
          obtain ⟨other, hother, rfl⟩ := List.mem_map.mp hm'
          have hne : other.1 ≠ m.1 := fun heq => hnew (List.mem_map.mpr ⟨other, hother, heq⟩)
          simp [hne]
        simp [hnone]
      · have hne : member.1 ≠ m.1 := fun heq => hnew (List.mem_map.mpr ⟨m, hmem, heq.symm⟩)
        simpa [hne] using ih hrest hmem

/-- The fields of a record that was written with these fields. -/
theorem fields?_document {members : List (String × Json)} (hkeys : (members.map Prod.fst).Nodup) :
    (Json.object members).document.fields? (members.map Prod.fst) =
      some (members.map fun m => some m.2.document) := by
  have hsome : (Json.memberDocuments members).all (fun m => m.1.isSome) = true := by
    simp [Json.memberDocuments_eq_map]
  have honce : (members.map Prod.fst).all (fun name =>
      decide ((membersNamed name (Json.memberDocuments members)).length ≤ 1)) = true := by
    rw [List.all_map, List.all_eq_true]
    intro m hm
    simp [membersNamed_eq hkeys hm]
  have hfound : (members.map Prod.fst).map
      (fun name => (membersNamed name (Json.memberDocuments members)).head?) =
        members.map fun m => some m.2.document := by
    rw [List.map_map]
    refine List.map_congr_left fun m hm => ?_
    simp [membersNamed_eq hkeys hm]
  rw [Json.document, fields?, hsome, honce, Bool.and_self, if_pos rfl, hfound]

/-- A double that is not finite does not read back. -/
theorem float?_ofFloat (x : Float) :
    (Json.ofFloat x).document.float? = if x.isFinite = true then some x else none := by
  unfold Json.ofFloat
  split
  · next hx =>
      have hvalue := JsonNumber.value?_lexeme (n := .float x) hx
      simp [Json.document, float?, hvalue, JsonNumber.toFloat]
  · rfl

theorem natural?_ofNat {n : ℕ} (hn : n ≤ maxNat64) : (Json.ofNat n).document.natural? = some n := by
  have hvalue := JsonNumber.value?_lexeme (n := .natural n) hn
  simp [Json.ofNat, Json.document, natural?, hvalue]

theorem plain_ofInt {n : ℤ} (hn : FitsInt64 n) :
    ∃ number : JsonNumber, Json.ofInt n = .number number ∧ number.Plain := by
  obtain ⟨hlow, hhigh⟩ := hn
  unfold minInt64 at hlow
  unfold maxInt64 at hhigh
  unfold Json.ofInt
  split
  · refine ⟨_, rfl, ?_⟩
    show 0 < n.natAbs ∧ n.natAbs ≤ 9223372036854775808
    omega
  · refine ⟨_, rfl, ?_⟩
    show n.natAbs ≤ 18446744073709551615
    omega

theorem integer?_ofInt {n : ℤ} (hn : FitsInt64 n) : (Json.ofInt n).document.integer? = some n := by
  obtain ⟨number, hnumber, hplain⟩ := plain_ofInt hn
  have hvalue := JsonNumber.value?_lexeme hplain
  rw [hnumber, Json.document, integer?, hvalue]
  unfold Json.ofInt at hnumber
  have hhigh := hn.2
  split at hnumber
  · cases hnumber
    have hsame : -(n.natAbs : ℤ) = n := by omega
    exact congrArg some hsame
  · cases hnumber
    have hsame : (n.natAbs : ℤ) = n := by omega
    simp [hsame, hhigh]

/-- A list is decoded if each of its items is. -/
theorem list?_document {β : Type} {encode : β → Json} {decode : Document → Option β} {good : β → Bool}
    {xs : List β}
    (h : ∀ x ∈ xs, decode (encode x).document = if good x = true then some x else none) :
    (Json.array (xs.map encode)).document.list? decode =
      if xs.all good = true then some xs else none := by
  rw [Json.document, Json.itemDocuments_eq_map, list?]
  induction xs with
  | nil => rfl
  | cons x rest ih =>
      rw [List.map_cons, List.map_cons, List.mapM_cons, h x List.mem_cons_self,
        ih fun y hy => h y (List.mem_cons_of_mem x hy), List.all_cons]
      cases good x <;> cases rest.all good <;> rfl

end Document

/-! ## Decoding the parts of a result -/

section Required

variable {β γ : Type} {decode : Document → Option β} {d : Document} {x : β}

/-- A decoder goes on with a field that was read. -/
theorem required_of_some (h : decode d = some x) (next : β → Option γ) :
    required decode (some d) >>= next = next x := by
  rw [required, h, Option.bind_eq_bind, Option.bind_some]

/-- A decoder goes on with a field that may be refused. -/
theorem required_of_ite {p : Prop} [Decidable p] (h : decode d = if p then some x else none)
    (next : β → Option γ) :
    required decode (some d) >>= next = if p then next x else none := by
  rw [required, h]
  split <;> rfl

end Required

theorem EquityPoint.ofDocument?_document {p : EquityPoint Float} (htime : FitsInt64 p.time) :
    EquityPoint.ofDocument? p.toJson.document =
      if p.equity.isFinite = true then some p else none := by
  have hfields : p.toJson.document.fields? ["time", "equity"] =
      some [some (Json.ofInt p.time).document, some (Json.ofFloat p.equity).document] :=
    Document.fields?_document (by simp)
  rw [ofDocument?, hfields, Option.bind_eq_bind, Option.bind_some]
  simp only [↓required_of_some (Document.integer?_ofInt htime),
    ↓required_of_ite (Document.float?_ofFloat _)]
  rfl

theorem DrawdownPoint.ofDocument?_document {d : DrawdownPoint Float} (htime : FitsInt64 d.time) :
    DrawdownPoint.ofDocument? d.toJson.document =
      if d.numbers.all Float.isFinite = true then some d else none := by
  have hfields : d.toJson.document.fields? ["time", "drawdown", "drawdown_pct"] =
      some [some (Json.ofInt d.time).document, some (Json.ofFloat d.amount).document,
        some (Json.ofFloat d.percent).document] :=
    Document.fields?_document (by simp)
  rw [ofDocument?, hfields, Option.bind_eq_bind, Option.bind_some]
  simp only [↓required_of_some (Document.integer?_ofInt htime),
    ↓required_of_ite (Document.float?_ofFloat _)]
  simp only [numbers, List.all_cons, List.all_nil, Bool.and_eq_true, and_true, ite_and]
  rfl

theorem Direction.word?_word (d : Direction) :
    (Json.string d.word).document.word? directionWords = some d := by
  cases d <;> rfl

theorem Outcome.word?_word (o : Outcome) :
    (Json.string o.word).document.word? outcomeWords = some o := by
  cases o <;> rfl

theorem ExitReason.word?_word (r : ExitReason) :
    (Json.string r.word).document.word? reasonWords = some r := by
  cases r <;> rfl

theorem Trade.ofDocument?_document {t : Trade Float} (hentry : FitsInt64 t.entryTime)
    (hexit : FitsInt64 t.exitTime) :
    Trade.ofDocument? t.toJson.document =
      if t.numbers.all Float.isFinite = true then some t else none := by
  have hfields : t.toJson.document.fields? ["entry_time", "exit_time", "entry_price", "exit_price",
        "pnl", "pnl_percent", "direction", "outcome", "exit_reason"] =
      some [some (Json.ofInt t.entryTime).document, some (Json.ofInt t.exitTime).document,
        some (Json.ofFloat t.entryPrice).document, some (Json.ofFloat t.exitPrice).document,
        some (Json.ofFloat t.profit).document, some (Json.ofFloat t.profitPercent).document,
        some (Json.string t.direction.word).document, some (Json.string t.outcome.word).document,
        some (Json.string t.reason.word).document] :=
    Document.fields?_document (by simp)
  rw [ofDocument?, hfields, Option.bind_eq_bind, Option.bind_some]
  simp only [↓required_of_some (Document.integer?_ofInt hentry),
    ↓required_of_some (Document.integer?_ofInt hexit), ↓required_of_ite (Document.float?_ofFloat _),
    ↓required_of_some (Direction.word?_word _), ↓required_of_some (Outcome.word?_word _),
    ↓required_of_some (ExitReason.word?_word _)]
  simp only [numbers, List.all_cons, List.all_nil, Bool.and_eq_true, and_true, ite_and]
  rfl

theorem Metrics.ofDocument?_document {m : Metrics Float} (hcounts : ∀ n ∈ m.counts, n ≤ maxNat64) :
    Metrics.ofDocument? m.toJson.document =
      if m.numbers.all Float.isFinite = true then some m else none := by
  simp only [counts, List.forall_mem_cons] at hcounts
  obtain ⟨htotal, hwinning, hlosing, hbreakeven, -⟩ := hcounts
  have hfields : m.toJson.document.fields? ["sharpe_ratio", "sortino_ratio", "max_drawdown",
        "max_drawdown_pct", "win_rate", "profit_factor", "total_return", "total_return_pct",
        "total_trades", "winning_trades", "losing_trades", "breakeven_trades", "gross_profit",
        "gross_loss", "avg_win", "avg_loss", "largest_win", "largest_loss",
        "avg_trade_duration_secs", "final_equity"] =
      some [some (Json.ofFloat m.sharpeRatio).document, some (Json.ofFloat m.sortinoRatio).document,
        some (Json.ofFloat m.maxDrawdown).document,
        some (Json.ofFloat m.maxDrawdownPercent).document, some (Json.ofFloat m.winRate).document,
        some (Json.ofFloat m.profitFactor).document, some (Json.ofFloat m.totalReturn).document,
        some (Json.ofFloat m.totalReturnPercent).document, some (Json.ofNat m.totalTrades).document,
        some (Json.ofNat m.winningTrades).document, some (Json.ofNat m.losingTrades).document,
        some (Json.ofNat m.breakevenTrades).document, some (Json.ofFloat m.grossProfit).document,
        some (Json.ofFloat m.grossLoss).document, some (Json.ofFloat m.averageWin).document,
        some (Json.ofFloat m.averageLoss).document, some (Json.ofFloat m.largestWin).document,
        some (Json.ofFloat m.largestLoss).document, some (Json.ofFloat m.averageDuration).document,
        some (Json.ofFloat m.finalEquity).document] :=
    Document.fields?_document (by simp)
  rw [ofDocument?, hfields, Option.bind_eq_bind, Option.bind_some]
  simp only [↓required_of_some (Document.natural?_ofNat htotal),
    ↓required_of_some (Document.natural?_ofNat hwinning),
    ↓required_of_some (Document.natural?_ofNat hlosing),
    ↓required_of_some (Document.natural?_ofNat hbreakeven),
    ↓required_of_ite (Document.float?_ofFloat _)]
  simp only [numbers, List.all_cons, List.all_nil, Bool.and_eq_true, and_true, ite_and]
  rfl

/-- Decoding is the inverse of writing where all numbers are finite, and fails elsewhere. -/
theorem RunResult.ofDocument?_document {r : RunResult Float} (h : r.FitsWords) :
    RunResult.ofDocument? r.toJson.document =
      if r.written.all Float.isFinite = true then some r else none := by
  have hfields : r.toJson.document.fields? ["symbol", "timeframe", "strategy_name", "metrics",
        "equity_curve", "drawdown_series", "trades"] =
      some [some (Json.string r.symbol).document, some (Json.string r.timeframe).document,
        some (Json.string r.strategyName).document, some r.metrics.toJson.document,
        some (Json.array (r.equityCurve.map EquityPoint.toJson)).document,
        some (Json.array (r.drawdowns.map DrawdownPoint.toJson)).document,
        some (Json.array (r.trades.map Trade.toJson)).document] :=
    Document.fields?_document (by simp)
  have hmetrics := Metrics.ofDocument?_document h.counts
  have hcurve := Document.list?_document fun p hp => EquityPoint.ofDocument?_document (h.curve p hp)
  have hdrawdowns :=
    Document.list?_document fun d hd => DrawdownPoint.ofDocument?_document (h.drawdowns d hd)
  have htrades := Document.list?_document fun t ht =>
    Trade.ofDocument?_document (h.trades t ht).1 (h.trades t ht).2
  have htext (text : String) : (Json.string text).document.text? = some text := rfl
  rw [ofDocument?, hfields, Option.bind_eq_bind, Option.bind_some]
  simp only [↓required_of_some (htext _), ↓required_of_ite hmetrics, ↓required_of_ite hcurve,
    ↓required_of_ite hdrawdowns, ↓required_of_ite htrades]
  simp only [written, List.all_append, List.all_map, List.all_flatMap, Function.comp_def,
    Bool.and_eq_true, ite_and, and_assoc]
  rfl

/-! ## The shape of a report -/

namespace Json

theorem fits_ofFloat {levels : ℕ} (x : Float) : Fits levels (ofFloat x) := by
  unfold ofFloat
  split
  · next hx => exact .number hx
  · exact .null

theorem fits_ofInt {levels : ℕ} {n : ℤ} (hn : FitsInt64 n) : Fits levels (ofInt n) := by
  obtain ⟨number, hnumber, hplain⟩ := Document.plain_ofInt hn
  rw [hnumber]
  exact .number hplain

theorem fits_ofNat {levels n : ℕ} (hn : n ≤ maxNat64) : Fits levels (ofNat n) :=
  .number (n := .natural n) hn

end Json

theorem EquityPoint.fits {levels : ℕ} {p : EquityPoint Float} (htime : FitsInt64 p.time) :
    Json.Fits (levels + 1) p.toJson := by
  refine .object (by simp) ?_
  simp [Json.fits_ofInt htime, Json.fits_ofFloat]

theorem DrawdownPoint.fits {levels : ℕ} {d : DrawdownPoint Float} (htime : FitsInt64 d.time) :
    Json.Fits (levels + 1) d.toJson := by
  refine .object (by simp) ?_
  simp [Json.fits_ofInt htime, Json.fits_ofFloat]

theorem Trade.fits {levels : ℕ} {t : Trade Float} (hentry : FitsInt64 t.entryTime)
    (hexit : FitsInt64 t.exitTime) : Json.Fits (levels + 1) t.toJson := by
  refine .object (by simp) ?_
  simp [Json.fits_ofInt hentry, Json.fits_ofInt hexit, Json.fits_ofFloat, Json.Fits.string]

theorem Metrics.fits {levels : ℕ} {m : Metrics Float} (hcounts : ∀ n ∈ m.counts, n ≤ maxNat64) :
    Json.Fits (levels + 1) m.toJson := by
  simp only [counts, List.forall_mem_cons] at hcounts
  obtain ⟨htotal, hwinning, hlosing, hbreakeven, -⟩ := hcounts
  refine .object (by simp) ?_
  simp [Json.fits_ofFloat, Json.fits_ofNat htotal, Json.fits_ofNat hwinning,
    Json.fits_ofNat hlosing, Json.fits_ofNat hbreakeven]

/-- A report nests three deep. -/
theorem RunResult.fits {levels : ℕ} {r : RunResult Float} (h : r.FitsWords) :
    Json.Fits (levels + 3) r.toJson := by
  have hcurve : Json.Fits (levels + 2) (.array (r.equityCurve.map EquityPoint.toJson)) := by
    refine .array fun value hvalue => ?_
    obtain ⟨p, hp, rfl⟩ := List.mem_map.mp hvalue
    exact EquityPoint.fits (h.curve p hp)
  have hdrawdowns : Json.Fits (levels + 2) (.array (r.drawdowns.map DrawdownPoint.toJson)) := by
    refine .array fun value hvalue => ?_
    obtain ⟨d, hd, rfl⟩ := List.mem_map.mp hvalue
    exact DrawdownPoint.fits (h.drawdowns d hd)
  have htrades : Json.Fits (levels + 2) (.array (r.trades.map Trade.toJson)) := by
    refine .array fun value hvalue => ?_
    obtain ⟨t, ht, rfl⟩ := List.mem_map.mp hvalue
    exact Trade.fits (h.trades t ht).1 (h.trades t ht).2
  refine .object (by simp) ?_
  simp [Json.Fits.string, Metrics.fits h.counts, hcurve, hdrawdowns, htrades]

/-! ## The figures of a report -/

mutual

/-- The doubles of a value with its nulls, in order. -/
def Json.figures : Json → List Json
  | .null => [.null]
  | .number (.float x) => [.number (.float x)]
  | .array items => Json.itemFigures items
  | .object members => Json.memberFigures members
  | _ => []

/-- The figures of the items of an array. -/
def Json.itemFigures : List Json → List Json
  | [] => []
  | value :: rest => value.figures ++ Json.itemFigures rest

/-- The figures of the members of an object. -/
def Json.memberFigures : List (String × Json) → List Json
  | [] => []
  | (_, value) :: rest => value.figures ++ Json.memberFigures rest

end

namespace Json

/-- A double is one figure, whether it is finite or not. -/
@[simp] theorem figures_ofFloat (x : Float) : (ofFloat x).figures = [ofFloat x] := by
  unfold ofFloat
  split <;> rfl

@[simp] theorem figures_ofNat (n : ℕ) : (ofNat n).figures = [] := rfl

@[simp] theorem figures_ofInt (n : ℤ) : (ofInt n).figures = [] := by
  unfold ofInt
  split <;> rfl

@[simp] theorem figures_string (text : String) : (string text).figures = [] := rfl

/-- The figures of a list of records. -/
theorem itemFigures_map {β : Type} {encode : β → Json} {numbers : β → List Float}
    (h : ∀ x, (encode x).figures = (numbers x).map ofFloat) (xs : List β) :
    itemFigures (xs.map encode) = (xs.flatMap numbers).map ofFloat := by
  induction xs with
  | nil => rfl
  | cons x rest ih => rw [List.map_cons, itemFigures, h, ih, List.flatMap_cons, List.map_append]

end Json

theorem EquityPoint.figures_toJson (p : EquityPoint Float) :
    p.toJson.figures = [p.equity].map Json.ofFloat := by
  simp [toJson, Json.figures, Json.memberFigures]

theorem DrawdownPoint.figures_toJson (d : DrawdownPoint Float) :
    d.toJson.figures = d.numbers.map Json.ofFloat := by
  simp [toJson, numbers, Json.figures, Json.memberFigures]

theorem Trade.figures_toJson (t : Trade Float) :
    t.toJson.figures = t.numbers.map Json.ofFloat := by
  simp [toJson, numbers, Json.figures, Json.memberFigures]

theorem Metrics.figures_toJson (m : Metrics Float) :
    m.toJson.figures = m.numbers.map Json.ofFloat := by
  simp [toJson, numbers, Json.figures, Json.memberFigures]

/-- Every number of a result is a figure of its report, and there are no others. -/
theorem RunResult.figures_toJson (r : RunResult Float) :
    r.toJson.figures = r.written.map Json.ofFloat := by
  have hequities : r.equityCurve.map EquityPoint.equity =
      r.equityCurve.flatMap fun p => [p.equity] := List.map_eq_flatMap
  rw [written, hequities]
  simp [toJson, Json.figures, Json.memberFigures, Metrics.figures_toJson,
    Json.itemFigures_map EquityPoint.figures_toJson,
    Json.itemFigures_map DrawdownPoint.figures_toJson,
    Json.itemFigures_map Trade.figures_toJson]

/-! ## Reports -/

/-- A result whose times and counts are words is read back from its report if and only if all its
numbers are finite.  A number that is not finite is null in the report, and then nothing is read. -/
theorem report_reads_back {r : RunResult Float} (h : r.FitsWords) :
    (RunResult.ofReport? r.report = some r ↔ ∀ x ∈ r.written, x.isFinite = true) ∧
      ((∃ x ∈ r.written, x.isFinite = false) → RunResult.ofReport? r.report = none) ∧
      Json.ofText? r.report = some r.toJson ∧ r.toJson.figures = r.written.map Json.ofFloat := by
  have hfits : Json.Fits (124 + 3) r.toJson := RunResult.fits h
  have hread : RunResult.ofReport? r.report =
      if r.written.all Float.isFinite = true then some r else none := by
    rw [RunResult.ofReport?, RunResult.report, Json.documentOfText?_pretty hfits,
      Option.bind_eq_bind, Option.bind_some]
    exact RunResult.ofDocument?_document h
  rw [hread]
  refine ⟨?_, ?_, Json.ofText?_pretty hfits, r.figures_toJson⟩
  · simp
  · rintro ⟨x, hx, hnot⟩
    refine if_neg fun hall => ?_
    rw [List.all_eq_true.mp hall x hx] at hnot
    cases hnot

/-- A report with a quote, a control character and letters beyond ASCII, with words at the ends of
their range and an empty series; and the same report over an infinite ratio. -/
theorem report_reads_back_escapes :
    let trade : Trade Float :=
      { entryTime := minInt64, exitTime := maxInt64, entryPrice := 0.1, exitPrice := 1e300
        profit := 1e300, profitPercent := -0.0, direction := .long, outcome := .win
        reason := .takeProfit }
    let metrics : Metrics Float :=
      { sharpeRatio := 0.3333, sortinoRatio := 5e-324, maxDrawdown := -1, maxDrawdownPercent := -0.5
        winRate := 100, profitFactor := 2, totalReturn := 1e300, totalReturnPercent := 1e22
        totalTrades := 1, winningTrades := 1, losingTrades := 0, breakevenTrades := maxNat64
        grossProfit := 1e300, grossLoss := 0, averageWin := 1e300, averageLoss := 0
        largestWin := 1e300, largestLoss := 0, averageDuration := -1, finalEquity := 1e300 }
    let r : RunResult Float :=
      { symbol := "\"ETH\\USDT\"\n\x01", timeframe := "4h", strategyName := "Überkauft 📈"
        metrics := metrics, equityCurve := [⟨-60, 10000⟩, ⟨0, 9999.99⟩], drawdowns := []
        trades := [trade] }
    let unbounded : RunResult Float :=
      { r with metrics := { metrics with profitFactor := Scalar.infinite false } }
    r.FitsWords ∧ RunResult.ofReport? r.report = some r ∧
      unbounded.FitsWords ∧ RunResult.ofReport? unbounded.report = none := by
  intro trade metrics r unbounded
  have hwords : r.FitsWords :=
    { counts := by decide
      curve := by simp [r, FitsInt64, minInt64, maxInt64]
      drawdowns := by simp [r]
      trades := by simp [r, trade, FitsInt64, minInt64, maxInt64] }
  have hunbounded : unbounded.FitsWords :=
    ⟨hwords.counts, hwords.curve, hwords.drawdowns, hwords.trades⟩
  have hfinite : ∀ x ∈ r.written, x.isFinite = true := by decide +kernel
  have hinfinite : ∃ x ∈ unbounded.written, x.isFinite = false :=
    ⟨Scalar.infinite false, by simp [unbounded, RunResult.written, Metrics.numbers],
      by decide +kernel⟩
  exact ⟨hwords, (report_reads_back hwords).1.mpr hfinite, hunbounded,
    (report_reads_back hunbounded).2.1 hinfinite⟩

end Backtester
