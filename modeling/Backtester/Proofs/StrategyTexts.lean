import Backtester.Proofs.JsonValues
import Backtester.Proofs.KnownColumns
import Backtester.Proofs.ReportTexts
import Backtester.Strategy.Document

/-!
# Strategy descriptions read back

A description that was read from a text can be written with all its fields and is then read as
itself, whatever the order in which its parameters are written.

* `Document.optional?_document`, `Document.list?_document_of_forall` — optional values and lists
  that were written.
* `IndicatorSpec.Fits`, `EntryRule.Fits`, `ExitRule.Fits`, `StrategySpec.Fits` — descriptions that
  JSON can hold.
* `StrategySpec.fits_of_ofDocument?` — a description that was read fits.
* `StrategySpec.ofDocument?_document` — decoding is the inverse of writing for one that fits.
* `StrategySpec.Same` — descriptions that differ in the order of parameters at most;
  `StrategySpec.Same.compile_eq`.
* `strategy_reads_back` — a description as a text.
-/

namespace Backtester

/-! ## Values that were read -/

theorem JsonNumber.isFinite_toFloat {n : JsonNumber} (h : n.Plain) : n.toFloat.isFinite = true := by
  cases n with
  | natural n =>
      have hn : n ≤ 18446744073709551615 := h
      exact (Doubles.ofNat_within (n := 64) (by omega) (by omega) (by norm_num)).isFinite
  | negative n =>
      have hn : n ≤ 9223372036854775808 := h.2
      refine (Doubles.ofInt_within (n := 63) ?_ (by norm_num)).isFinite
      rw [abs_neg, Nat.abs_cast]
      exact_mod_cast hn
  | float x => exact h

/-- What holds of a default and of all decoded values holds of a field. -/
theorem orDefault_forall {β : Type} (good : β → Prop) {default x : β}
    {decode : Document → Option β} {field : Option Document}
    (h : orDefault default decode field = some x) (hdefault : good default)
    (hdecode : ∀ d x, decode d = some x → good x) : good x := by
  cases field with
  | none =>
      obtain rfl := Option.some.inj h
      exact hdefault
  | some d => exact hdecode d x h

namespace Document

theorem isFinite_of_float? {d : Document} {x : Float} (h : d.float? = some x) :
    x.isFinite = true := by
  unfold float? at h
  split at h
  · obtain ⟨n, hn, rfl⟩ := Option.map_eq_some_iff.mp h
    exact JsonNumber.isFinite_toFloat (NumberLexeme.plain_of_value? hn)
  · cases h

theorem le_of_natural? {d : Document} {n : ℕ} (h : d.natural? = some n) : n ≤ maxNat64 := by
  unfold natural? at h
  split at h
  · split at h
    · next hvalue =>
        obtain rfl := Option.some.inj h
        exact NumberLexeme.plain_of_value? hvalue
    · cases h
  · cases h

theorem optional?_forall {β : Type} {good : β → Prop} {decode : Document → Option β}
    (hdecode : ∀ d x, decode d = some x → good x) {d : Document} {value : Option β}
    (h : d.optional? decode = some value) : ∀ x ∈ value, good x := by
  unfold optional? at h
  split at h
  · obtain rfl := Option.some.inj h
    simp
  · obtain ⟨x, hx, rfl⟩ := Option.map_eq_some_iff.mp h
    simpa using hdecode _ x hx

theorem list?_forall {β : Type} {good : β → Prop} {decode : Document → Option β}
    (hdecode : ∀ d x, decode d = some x → good x) {d : Document} {xs : List β}
    (h : d.list? decode = some xs) : ∀ x ∈ xs, good x := by
  unfold list? at h
  split at h
  · intro x hx
    have hmem : some x ∈ xs.map some := List.mem_map_of_mem hx
    rw [← mapM_eq_some_iff.mp h] at hmem
    obtain ⟨d, -, hd⟩ := List.mem_map.mp hmem
    exact hdecode d x hd
  · cases h

end Document

theorem finite_of_orDefault {field : Option Document} {value : Option Float}
    (h : orDefault none (Document.optional? Document.float?) field = some value) :
    ∀ x ∈ value, x.isFinite = true :=
  orDefault_forall (fun value => ∀ x ∈ value, x.isFinite = true) h (by simp) fun _ _ =>
    Document.optional?_forall fun _ _ => Document.isFinite_of_float?

/-! ## Values that were written -/

namespace Document

theorem optional?_document {β : Type} {encode : β → Json} {decode : Document → Option β}
    {value : Option β} (hnull : decode .null = none)
    (h : ∀ x ∈ value, decode (encode x).document = some x) :
    (Json.ofOption encode value).document.optional? decode = some value := by
  cases value with
  | none => rfl
  | some x =>
      have hx := h x rfl
      show (encode x).document.optional? decode = some (some x)
      unfold optional?
      -- A value that is written as null would be taken for a missing one, but it cannot be decoded.
      split
      · next heq =>
          rw [heq, hnull] at hx
          cases hx
      · rw [hx, Option.map_some]

theorem optional?_ofFloat {value : Option Float} (h : ∀ x ∈ value, x.isFinite = true) :
    (Json.ofOption Json.ofFloat value).document.optional? float? = some value :=
  optional?_document rfl fun x hx => by rw [float?_ofFloat, if_pos (h x hx)]

theorem optional?_string (value : Option String) :
    (Json.ofOption .string value).document.optional? text? = some value :=
  optional?_document rfl fun _ _ => rfl

theorem list?_document_of_forall {β : Type} {encode : β → Json} {decode : Document → Option β}
    {xs : List β} (h : ∀ x ∈ xs, decode (encode x).document = some x) :
    (Json.array (xs.map encode)).document.list? decode = some xs := by
  rw [Json.document, Json.itemDocuments_eq_map, list?, mapM_eq_some_iff, List.map_map, List.map_map]
  exact List.map_congr_left h

end Document

namespace Json

theorem fits_ofOption {β : Type} {levels : ℕ} {encode : β → Json} {value : Option β}
    (h : ∀ x ∈ value, Fits levels (encode x)) : Fits levels (ofOption encode value) := by
  cases value with
  | none => exact .null
  | some x => exact h x rfl

theorem fits_map {β : Type} {levels : ℕ} {encode : β → Json} {xs : List β}
    (h : ∀ x ∈ xs, Fits levels (encode x)) : Fits (levels + 1) (.array (xs.map encode)) := by
  refine .array fun value hvalue => ?_
  obtain ⟨x, hx, rfl⟩ := List.mem_map.mp hvalue
  exact h x hx

end Json

/-- A decoder goes on with a field that was written. -/
theorem orDefault_of_some {β γ : Type} {default x : β} {decode : Document → Option β} {d : Document}
    (h : decode d = some x) (next : β → Option γ) :
    orDefault default decode (some d) >>= next = next x := by
  rw [orDefault, h, Option.bind_eq_bind, Option.bind_some]

/-! ## Indicators -/

namespace IndicatorSpec

/-- An indicator that JSON can hold, with at most `levels` arrays and objects inside each other in
its parameters. -/
structure Fits (levels : ℕ) (s : IndicatorSpec) : Prop where
  period : ∀ n ∈ s.period, n ≤ maxNat64
  params : Json.Fits levels (.object s.params)

theorem fits_of_paramsOf? {levels : ℕ} {d : Document} {members : List (String × Json)}
    (h : paramsOf? levels d = some members) : Json.Fits levels (.object members) := by
  unfold paramsOf? at h
  split at h
  · next hvalue =>
      obtain rfl := Option.some.inj h
      exact Document.fits_of_value? hvalue
  · cases h

theorem fits_of_ofDocument? {levels : ℕ} {d : Document} {s : IndicatorSpec}
    (h : ofDocument? (levels + 2) d = some s) : s.Fits (levels + 1) := by
  obtain ⟨fields, -, h⟩ := Option.bind_eq_some_iff.mp h
  split at h
  · obtain ⟨name, -, h⟩ := Option.bind_eq_some_iff.mp h
    obtain ⟨period, hperiod, h⟩ := Option.bind_eq_some_iff.mp h
    obtain ⟨params, hparams, h⟩ := Option.bind_eq_some_iff.mp h
    obtain rfl := Option.some.inj h
    have hnone : Json.Fits (levels + 1) (.object []) := .object List.nodup_nil (by simp)
    exact
      { period := orDefault_forall (fun period => ∀ n ∈ period, n ≤ maxNat64) hperiod (by simp)
          fun _ _ => Document.optional?_forall fun _ _ => Document.le_of_natural?
        params := orDefault_forall (fun params => Json.Fits (levels + 1) (.object params)) hparams
          hnone fun _ _ => fits_of_paramsOf? }
  · cases h

theorem fits_toJson {levels : ℕ} {s : IndicatorSpec} (h : s.Fits levels) :
    Json.Fits (levels + 1) s.toJson := by
  refine .object (by simp) ?_
  have hperiod : Json.Fits levels (Json.ofOption Json.ofNat s.period) :=
    Json.fits_ofOption fun n hn => Json.fits_ofNat (h.period n hn)
  simp [Json.Fits.string, hperiod, h.params]

theorem ofDocument?_document {levels : ℕ} {s : IndicatorSpec} (h : s.Fits levels) :
    ofDocument? (levels + 1) s.toJson.document = some s := by
  have hfields : s.toJson.document.fields? ["name", "period", "params"] =
      some [some (Json.string s.name).document,
        some (Json.ofOption Json.ofNat s.period).document, some (Json.object s.params).document] :=
    Document.fields?_document (by simp)
  have hname : (Json.string s.name).document.text? = some s.name := rfl
  have hperiod : (Json.ofOption Json.ofNat s.period).document.optional? Document.natural? =
      some s.period :=
    Document.optional?_document rfl fun n hn => Document.natural?_ofNat (h.period n hn)
  have hparams : paramsOf? levels (Json.object s.params).document = some s.params := by
    rw [paramsOf?, h.params.value?_document]
  rw [ofDocument?, hfields, Option.bind_eq_bind, Option.bind_some]
  simp only [↓orDefault_of_some hname, ↓orDefault_of_some hperiod, Nat.add_sub_cancel,
    ↓orDefault_of_some hparams]
  rfl

end IndicatorSpec

/-! ## Rules and constraints -/

namespace EntryRule

/-- An entry rule that JSON can hold. -/
def Fits (r : EntryRule Float) : Prop := ∀ x ∈ r.threshold, x.isFinite = true

theorem fits_of_ofDocument? {d : Document} {r : EntryRule Float} (h : ofDocument? d = some r) :
    r.Fits := by
  obtain ⟨fields, -, h⟩ := Option.bind_eq_some_iff.mp h
  split at h
  · obtain ⟨condition, -, h⟩ := Option.bind_eq_some_iff.mp h
    obtain ⟨indicator, -, h⟩ := Option.bind_eq_some_iff.mp h
    obtain ⟨threshold, hthreshold, h⟩ := Option.bind_eq_some_iff.mp h
    obtain ⟨direction, -, h⟩ := Option.bind_eq_some_iff.mp h
    obtain rfl := Option.some.inj h
    exact finite_of_orDefault hthreshold
  · cases h

theorem fits_toJson {levels : ℕ} (r : EntryRule Float) : Json.Fits (levels + 1) r.toJson := by
  refine .object (by simp) ?_
  simp [Json.Fits.string, Json.fits_ofOption, Json.fits_ofFloat]

theorem ofDocument?_document {r : EntryRule Float} (h : r.Fits) :
    ofDocument? r.toJson.document = some r := by
  have hfields : r.toJson.document.fields? ["condition", "indicator", "threshold", "direction"] =
      some [some (Json.string r.condition).document,
        some (Json.ofOption .string r.indicator).document,
        some (Json.ofOption Json.ofFloat r.threshold).document,
        some (Json.string r.direction).document] :=
    Document.fields?_document (by simp)
  have htext (text : String) : (Json.string text).document.text? = some text := rfl
  rw [ofDocument?, hfields, Option.bind_eq_bind, Option.bind_some]
  simp only [↓orDefault_of_some (htext _), ↓orDefault_of_some (Document.optional?_string _),
    ↓orDefault_of_some (Document.optional?_ofFloat h)]
  rfl

end EntryRule

namespace ExitRule

/-- An exit rule that JSON can hold. -/
structure Fits (r : ExitRule Float) : Prop where
  threshold : ∀ x ∈ r.threshold, x.isFinite = true
  stopLoss : ∀ x ∈ r.stopLossPercent, x.isFinite = true
  takeProfit : ∀ x ∈ r.takeProfitPercent, x.isFinite = true

theorem fits_of_ofDocument? {d : Document} {r : ExitRule Float} (h : ofDocument? d = some r) :
    r.Fits := by
  obtain ⟨fields, -, h⟩ := Option.bind_eq_some_iff.mp h
  split at h
  · obtain ⟨condition, -, h⟩ := Option.bind_eq_some_iff.mp h
    obtain ⟨indicator, -, h⟩ := Option.bind_eq_some_iff.mp h
    obtain ⟨threshold, hthreshold, h⟩ := Option.bind_eq_some_iff.mp h
    obtain ⟨stopLoss, hstop, h⟩ := Option.bind_eq_some_iff.mp h
    obtain ⟨takeProfit, htake, h⟩ := Option.bind_eq_some_iff.mp h
    obtain ⟨trailing, -, h⟩ := Option.bind_eq_some_iff.mp h
    obtain rfl := Option.some.inj h
    exact ⟨finite_of_orDefault hthreshold, finite_of_orDefault hstop, finite_of_orDefault htake⟩
  · cases h

theorem fits_toJson {levels : ℕ} (r : ExitRule Float) : Json.Fits (levels + 1) r.toJson := by
  refine .object (by simp) ?_
  simp [Json.Fits.string, Json.Fits.bool, Json.fits_ofOption, Json.fits_ofFloat]

theorem ofDocument?_document {r : ExitRule Float} (h : r.Fits) :
    ofDocument? r.toJson.document = some r := by
  have hfields : r.toJson.document.fields? ["condition", "indicator", "threshold",
        "stop_loss_pct", "take_profit_pct", "trailing_stop"] =
      some [some (Json.string r.condition).document,
        some (Json.ofOption .string r.indicator).document,
        some (Json.ofOption Json.ofFloat r.threshold).document,
        some (Json.ofOption Json.ofFloat r.stopLossPercent).document,
        some (Json.ofOption Json.ofFloat r.takeProfitPercent).document,
        some (Json.bool r.trailing).document] :=
    Document.fields?_document (by simp)
  have htext : (Json.string r.condition).document.text? = some r.condition := rfl
  have hbool : (Json.bool r.trailing).document.bool? = some r.trailing := rfl
  rw [ofDocument?, hfields, Option.bind_eq_bind, Option.bind_some]
  simp only [↓orDefault_of_some htext, ↓orDefault_of_some (Document.optional?_string _),
    ↓orDefault_of_some (Document.optional?_ofFloat h.threshold),
    ↓orDefault_of_some (Document.optional?_ofFloat h.stopLoss),
    ↓orDefault_of_some (Document.optional?_ofFloat h.takeProfit), ↓orDefault_of_some hbool]
  rfl

end ExitRule

namespace Constraint

theorem fits_toJson {levels : ℕ} (c : Constraint) : Json.Fits (levels + 1) c.toJson := by
  refine .object (by simp) ?_
  simp [Json.Fits.string, Json.Fits.bool]

theorem ofDocument?_document (c : Constraint) : ofDocument? c.toJson.document = some c := by
  have hfields : c.toJson.document.fields? ["type", "value", "is_absolute"] =
      some [some (Json.string c.kind).document, some (Json.string c.value).document,
        some (Json.bool c.absolute).document] :=
    Document.fields?_document (by simp)
  rw [ofDocument?, hfields]
  rfl

end Constraint

/-! ## Descriptions -/

namespace StrategySpec

/-- A description that JSON can hold. -/
structure Fits (s : StrategySpec Float) : Prop where
  -- The parameters lie inside the description, the list of indicators and the indicator.
  indicators : ∀ i ∈ s.indicators, i.Fits (deepestNesting - 3)
  entryRules : ∀ r ∈ s.entryRules, r.Fits
  exitRules : ∀ r ∈ s.exitRules, r.Fits

/-- Whatever is read fits. -/
theorem fits_of_ofDocument? {d : Document} {s : StrategySpec Float} (h : ofDocument? d = some s) :
    s.Fits := by
  obtain ⟨fields, -, h⟩ := Option.bind_eq_some_iff.mp h
  split at h
  · obtain ⟨name, -, h⟩ := Option.bind_eq_some_iff.mp h
    obtain ⟨indicators, hindicators, h⟩ := Option.bind_eq_some_iff.mp h
    obtain ⟨entryRules, hentry, h⟩ := Option.bind_eq_some_iff.mp h
    obtain ⟨exitRules, hexit, h⟩ := Option.bind_eq_some_iff.mp h
    obtain ⟨constraints, -, h⟩ := Option.bind_eq_some_iff.mp h
    obtain rfl := Option.some.inj h
    exact
      { indicators := orDefault_forall
          (fun indicators => ∀ i ∈ indicators, i.Fits (deepestNesting - 3)) hindicators (by simp)
          fun _ _ => Document.list?_forall fun _ _ => IndicatorSpec.fits_of_ofDocument?
        entryRules := orDefault_forall (fun rules => ∀ r ∈ rules, r.Fits) hentry (by simp)
          fun _ _ => Document.list?_forall fun _ _ => EntryRule.fits_of_ofDocument?
        exitRules := orDefault_forall (fun rules => ∀ r ∈ rules, r.Fits) hexit (by simp)
          fun _ _ => Document.list?_forall fun _ _ => ExitRule.fits_of_ofDocument? }
  · cases h

theorem fits_toJson {s : StrategySpec Float} (h : s.Fits) :
    Json.Fits deepestNesting s.toJson := by
  have hindicators :
      Json.Fits (deepestNesting - 1) (.array (s.indicators.map IndicatorSpec.toJson)) :=
    Json.fits_map fun i hi => IndicatorSpec.fits_toJson (h.indicators i hi)
  have hentry : Json.Fits (deepestNesting - 1) (.array (s.entryRules.map EntryRule.toJson)) :=
    Json.fits_map fun r _ => r.fits_toJson
  have hexit : Json.Fits (deepestNesting - 1) (.array (s.exitRules.map ExitRule.toJson)) :=
    Json.fits_map fun r _ => r.fits_toJson
  have hconstraints :
      Json.Fits (deepestNesting - 1) (.array (s.constraints.map Constraint.toJson)) :=
    Json.fits_map fun c _ => c.fits_toJson
  show Json.Fits (deepestNesting - 1 + 1) s.toJson
  refine .object (by simp) ?_
  simp [Json.Fits.string, hindicators, hentry, hexit, hconstraints]

/-- Decoding is the inverse of writing. -/
theorem ofDocument?_document {s : StrategySpec Float} (h : s.Fits) :
    ofDocument? s.toJson.document = some s := by
  have hfields : s.toJson.document.fields? ["strategy_name", "indicators", "entry_rules",
        "exit_rules", "constraints"] =
      some [some (Json.string s.name).document,
        some (Json.array (s.indicators.map IndicatorSpec.toJson)).document,
        some (Json.array (s.entryRules.map EntryRule.toJson)).document,
        some (Json.array (s.exitRules.map ExitRule.toJson)).document,
        some (Json.array (s.constraints.map Constraint.toJson)).document] :=
    Document.fields?_document (by simp)
  have hname : (Json.string s.name).document.text? = some s.name := rfl
  have hindicators : (Json.array (s.indicators.map IndicatorSpec.toJson)).document.list?
      (IndicatorSpec.ofDocument? (deepestNesting - 2)) = some s.indicators :=
    Document.list?_document_of_forall fun i hi =>
      IndicatorSpec.ofDocument?_document (h.indicators i hi)
  have hentry := Document.list?_document_of_forall fun r hr =>
    EntryRule.ofDocument?_document (h.entryRules r hr)
  have hexit := Document.list?_document_of_forall fun r hr =>
    ExitRule.ofDocument?_document (h.exitRules r hr)
  have hconstraints : (Json.array (s.constraints.map Constraint.toJson)).document.list?
      Constraint.ofDocument? = some s.constraints :=
    Document.list?_document_of_forall fun c _ => Constraint.ofDocument?_document c
  rw [ofDocument?, hfields, Option.bind_eq_bind, Option.bind_some]
  simp only [↓orDefault_of_some hname, ↓orDefault_of_some hindicators,
    ↓orDefault_of_some hentry, ↓orDefault_of_some hexit, ↓orDefault_of_some hconstraints]
  rfl

/-- A description that fits is read from its text. -/
theorem Fits.reads {s : StrategySpec Float} (h : s.Fits) :
    ofText? s.toJson.compact = some s ∧ ofText? s.toJson.pretty = some s := by
  have hjson := fits_toJson h
  rw [ofText?, ofText?, Json.documentOfText?_compact hjson, Json.documentOfText?_pretty hjson]
  exact ⟨ofDocument?_document h, ofDocument?_document h⟩

end StrategySpec

/-! ## Parameters in another order -/

/-- Indicators that differ in the order of parameters at most. -/
structure IndicatorSpec.Same (s t : IndicatorSpec) : Prop where
  name : t.name = s.name
  period : t.period = s.period
  params : Json.Same (.object s.params) (.object t.params)

namespace IndicatorSpec.Same

variable {s t : IndicatorSpec}

theorem param?_eq (h : s.Same t) (key : String) : t.param? key = s.param? key := by
  have hrelated := h.params.lookup key
  unfold param?
  generalize s.params.lookup key = value at hrelated ⊢
  generalize t.params.lookup key = other at hrelated ⊢
  cases hrelated with
  | none => rfl
  | some hsame => cases hsame <;> rfl

/-- The order of parameters does not matter to what an indicator stands for. -/
theorem kind_eq (h : s.Same t) : t.kind = s.kind := by
  simp only [kind, periodParam?, h.param?_eq, h.name, h.period]

end IndicatorSpec.Same

/-- Descriptions that differ in the order of parameters at most. -/
structure StrategySpec.Same (s t : StrategySpec Float) : Prop where
  name : t.name = s.name
  indicators : List.Forall₂ IndicatorSpec.Same s.indicators t.indicators
  entryRules : t.entryRules = s.entryRules
  exitRules : t.exitRules = s.exitRules
  constraints : t.constraints = s.constraints

namespace StrategySpec

variable {s t : StrategySpec Float}

theorem Fits.of_same (h : s.Fits) (hsame : s.Same t) : t.Fits := by
  refine ⟨fun i hi => ?_, hsame.entryRules ▸ h.entryRules, hsame.exitRules ▸ h.exitRules⟩
  obtain ⟨first, hfirst, hmatched⟩ := exists_of_mem_right hsame.indicators hi
  have hfits := h.indicators first hfirst
  exact ⟨hmatched.period ▸ hfits.period, hfits.params.of_same hmatched.params⟩

/-- The order of parameters does not matter to the compiled strategy. -/
theorem Same.compile_eq (h : s.Same t) (fast slow : ℕ) :
    Strategy.compile t fast slow = Strategy.compile s fast slow := by
  have hkinds : s.indicators.map IndicatorSpec.kind = t.indicators.map IndicatorSpec.kind := by
    rw [← List.forall₂_eq_eq_eq]
    exact List.rel_map (fun _ _ hmatched => hmatched.kind_eq.symm) h.indicators
  unfold Strategy.compile Strategy.indicatorsOf Strategy.stopLossOf
  rw [h.name, ← hkinds, h.entryRules, h.exitRules, h.constraints]

end StrategySpec

/-! ## Descriptions as texts -/

theorem StrategySpec.fits_of_ofText? {text : String} {s : StrategySpec Float}
    (h : ofText? text = some s) : s.Fits := by
  obtain ⟨d, -, hd⟩ := Option.bind_eq_some_iff.mp h
  exact fits_of_ofDocument? hd

/-- A description that was read from a text is read as itself from what is written for it with all
its fields, on one line or over several.  If the parameters are written in another order, they are
read in that order, and the description compiles to the same strategy. -/
theorem strategy_reads_back {text : String} {s : StrategySpec Float}
    (h : StrategySpec.ofText? text = some s) :
    (StrategySpec.ofText? s.toJson.compact = some s ∧
      StrategySpec.ofText? s.toJson.pretty = some s) ∧
    ∀ t : StrategySpec Float, s.Same t →
      (StrategySpec.ofText? t.toJson.compact = some t ∧
        StrategySpec.ofText? t.toJson.pretty = some t) ∧
      ∀ fast slow, Strategy.compile t fast slow = Strategy.compile s fast slow := by
  have hfits := StrategySpec.fits_of_ofText? h
  exact ⟨hfits.reads, fun t hsame => ⟨(hfits.of_same hsame).reads, hsame.compile_eq⟩⟩

/-- A description with missing and unknown fields, an indicator written as an array, a whole number
for a threshold, and parameters with a negative zero and a key that has to be escaped; and the same
description with the parameters in the opposite order. -/
theorem strategy_reads_back_sparse :
    let text :=
      "\x7b\"indicators\":[[\"BB\",null,\x7b\"note\":[-0,\x7b\"é\\n\":null\x7d]," ++
        "\"std_dev\":2\x7d]],\"exit_rules\":[\x7b\"stop_loss_pct\":2,\"colour\":1e999\x7d]\x7d"
    let full :=
      "\x7b\"strategy_name\":\"Custom Strategy\",\"indicators\":[\x7b\"name\":\"BB\"," ++
        "\"period\":null,\"params\":\x7b\"note\":[-0.0,\x7b\"é\\n\":null\x7d],\"std_dev\":2" ++
        "\x7d\x7d],\"entry_rules\":[],\"exit_rules\":[\x7b\"condition\":\"\",\"indicator\":null," ++
        "\"threshold\":null,\"stop_loss_pct\":2.0,\"take_profit_pct\":null," ++
        "\"trailing_stop\":false\x7d],\"constraints\":[]\x7d"
    let turned (s : StrategySpec Float) : StrategySpec Float :=
      { s with indicators := s.indicators.map fun i => { i with params := i.params.reverse } }
    ∃ s, StrategySpec.ofText? text = some s ∧ s.toJson.compact = full ∧
      StrategySpec.ofText? full = some s ∧
      s.Same (turned s) ∧ (turned s).toJson.compact ≠ full ∧
      StrategySpec.ofText? (turned s).toJson.compact = some (turned s) ∧
      ∀ fast slow, Strategy.compile (turned s) fast slow = Strategy.compile s fast slow := by
  intro text full turned
  have hread : ((StrategySpec.ofText? text).map fun s =>
      decide (s.toJson.compact = full ∧ (turned s).toJson.compact ≠ full)) = some true := by
    decide +kernel
  obtain ⟨s, hs, htexts⟩ := Option.map_eq_some_iff.mp hread
  obtain ⟨hfull, hturned⟩ := of_decide_eq_true htexts
  have hsame : s.Same (turned s) :=
    { name := rfl
      indicators := List.forall₂_map_right_iff.mpr <| List.forall₂_same.mpr fun i hi =>
        { name := rfl
          period := rfl
          params := Json.same_of_perm i.params.reverse_perm.symm
            ((StrategySpec.fits_of_ofText? hs).indicators i hi).params.nodup_keys }
      entryRules := rfl
      exitRules := rfl
      constraints := rfl }
  obtain ⟨⟨hline, -⟩, horder⟩ := strategy_reads_back hs
  obtain ⟨⟨hother, -⟩, hcompile⟩ := horder (turned s) hsame
  exact ⟨s, hs, hfull, hfull ▸ hline, hsame, hturned, hother, hcompile⟩

end Backtester
