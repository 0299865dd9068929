import Backtester.Proofs.Columns
import Backtester.Run

/-!
# Compiled conditions read columns that exist

Compilation resolves every name against the columns it expects a frame to have, and a frame built
from the compiled indicators has exactly these.  So the rule by which a missing column is read as a
number never applies to a compiled strategy.

* `resolveColumn_mem` — a resolved name is one of the known columns.
* `Condition.ReadsFrom` — all columns of a condition are among some names.
* `compileRule_readsFrom`, `Strategy.sideConditions_readsFrom` — kept by compiling a rule and a side.
* `compiled_columns_exist` — the frame of a compiled strategy has every column its conditions read.
-/

namespace Backtester

/-! ## Resolving names -/

theorem resolveColumn_mem {known : List String} {name column : String}
    (h : resolveColumn known name = some column) : column ∈ known := by
  unfold resolveColumn at h
  dsimp only at h
  split at h
  · next hexact =>
      obtain rfl := Option.some.inj h
      simpa using hexact
  · split at h
    · next only hfilter =>
        obtain rfl := Option.some.inj h
        have hmem : only ∈ [only] := List.mem_singleton_self only
        rw [← hfilter] at hmem
        exact (List.mem_filter.mp hmem).1
    · cases h

variable {α : Type}

/-- All columns of a condition are among some names. -/
def Condition.ReadsFrom (known : List String) (c : Condition α) : Prop :=
  ∀ name ∈ c.columns, name ∈ known

theorem Condition.readsFrom_iff {known : List String} {c : Condition α} :
    c.ReadsFrom known ↔ (∀ name, c.left = .column name → name ∈ known) ∧
      ∀ name, c.right = .column name → name ∈ known := by
  obtain ⟨left, comparator, right⟩ := c
  cases left <;> cases right <;> simp [ReadsFrom, columns, Operand.column?]

theorem resolveOperand_column {known : List String} {operand resolved : Operand α}
    (h : resolveOperand known operand = some resolved) {name : String}
    (hname : resolved = .column name) : name ∈ known := by
  cases operand with
  | literal value =>
      obtain rfl := Option.some.inj h
      cases hname
  | column written =>
      obtain ⟨column, hcolumn, rfl⟩ := Option.map_eq_some_iff.mp h
      obtain rfl := Operand.column.inj hname
      exact resolveColumn_mem hcolumn

theorem resolveCondition_readsFrom {known : List String} {c resolved : Condition α}
    (h : resolveCondition known c = some resolved) : resolved.ReadsFrom known := by
  unfold resolveCondition at h
  split at h
  · next left right hleft hright =>
      obtain rfl := Option.some.inj h
      rw [Condition.readsFrom_iff]
      exact ⟨fun name => resolveOperand_column hleft, fun name => resolveOperand_column hright⟩
  · cases h

/-! ## Compiling rules -/

/-- Several results exist together if each of them does. -/
theorem mapM_eq_some_iff {β γ : Type} {f : β → Option γ} {xs : List β} {ys : List γ} :
    xs.mapM f = some ys ↔ xs.map f = ys.map some := by
  induction xs generalizing ys with
  | nil => cases ys <;> simp
  | cons x rest ih =>
      rw [List.mapM_cons, List.map_cons]
      constructor
      · intro h
        obtain ⟨y, hy, h⟩ := Option.bind_eq_some_iff.mp h
        obtain ⟨zs, hzs, h⟩ := Option.bind_eq_some_iff.mp h
        obtain rfl := Option.some.inj h
        rw [List.map_cons, hy, ih.mp hzs]
      · intro h
        cases ys with
        | nil => cases h
        | cons y zs =>
            obtain ⟨hy, hzs⟩ := List.cons.inj h
            rw [hy, ih.mpr hzs]
            rfl

section

variable [Scalar α]

/-- Whatever a rule compiles to reads known columns. -/
theorem compileRule_readsFrom {known : List String} {condition : String}
    {indicator : Option String} {threshold : Option α} {conditions : List (Condition α)}
    (h : compileRule known condition indicator threshold = some conditions) :
    ∀ c ∈ conditions, c.ReadsFrom known := by
  unfold compileRule at h
  split at h
  · cases h
  · split at h
    · -- A lone comparator: the column is the one that the indicator's name resolves to.
      split at h
      · next column value hcolumn =>
          obtain rfl := Option.some.inj h
          intro c hc
          obtain rfl := List.mem_singleton.mp hc
          obtain ⟨name, hresolved⟩ : ∃ name, resolveColumn known name = some _ := by
            cases indicator with
            | none => cases hcolumn
            | some name => exact ⟨name, hcolumn⟩
          rw [Condition.readsFrom_iff]
          refine ⟨?_, fun name hname => by cases hname⟩
          rintro _ ⟨⟩
          exact resolveColumn_mem hresolved
      · cases h
    · -- A condition text: each condition is resolved on its own.
      split at h
      · intro c hc
        have hmem : some c ∈ conditions.map some := List.mem_map_of_mem hc
        rw [← mapM_eq_some_iff.mp h] at hmem
        obtain ⟨written, -, hresolved⟩ := List.mem_map.mp hmem
        exact resolveCondition_readsFrom hresolved
      · cases h

end

namespace Strategy

theorem crossoverCondition_readsFrom {kinds : List Indicator} {fast slow : Nat}
    (hfast : .sma fast ∈ kinds) (hslow : .sma slow ∈ kinds) (comparator : Comparator) :
    (crossoverCondition fast slow comparator : Condition α).ReadsFrom (knownColumns kinds) := by
  have hknown (period : Nat) (hperiod : .sma period ∈ kinds) :
      "sma_" ++ natText period ∈ knownColumns kinds := by
    rw [knownColumns, List.mem_eraseDups, List.mem_append]
    exact Or.inr (List.mem_flatMap.mpr ⟨_, hperiod, List.mem_singleton_self _⟩)
  rw [Condition.readsFrom_iff]
  constructor
  · rintro _ ⟨⟩
    exact hknown fast hfast
  · rintro _ ⟨⟩
    exact hknown slow hslow

/-- A side reads known columns if its rules and its fallback do. -/
theorem sideConditions_readsFrom {known : List String}
    {compiled : List (Option (List (Condition α)))} {fallback : Condition α}
    (hcompiled : ∀ conditions, some conditions ∈ compiled → ∀ c ∈ conditions, c.ReadsFrom known)
    (hfallback : fallback.ReadsFrom known) :
    ∀ c ∈ (sideConditions compiled fallback).1, c.ReadsFrom known := by
  intro c hc
  unfold sideConditions at hc
  dsimp only at hc
  split at hc
  · obtain rfl := List.mem_singleton.mp hc
    exact hfallback
  · obtain ⟨conditions, hconditions, hmem⟩ := List.mem_flatten.mp hc
    exact hcompiled conditions (by simpa using hconditions) c hmem

theorem mem_referencedColumns_iff (strategy : Strategy α) (name : String) :
    name ∈ strategy.referencedColumns ↔
      ∃ c ∈ strategy.entry ++ strategy.exit, name ∈ c.columns := by
  rw [referencedColumns, List.mem_eraseDups, List.mem_mergeSort, List.mem_flatMap]

variable [Scalar α]

/-- Both sides of the strategy of a run read columns that its indicators provide. -/
theorem ofSpec_readsFrom (spec : Option (StrategySpec α)) (fast slow : Nat) :
    ∀ c ∈ (ofSpec spec fast slow).entry ++ (ofSpec spec fast slow).exit,
      c.ReadsFrom (knownColumns (ofSpec spec fast slow).indicators) := by
  have hfast : Indicator.sma fast ∈ (ofSpec spec fast slow).indicators := by
    cases spec <;> exact List.mem_cons_self
  have hslow : Indicator.sma slow ∈ (ofSpec spec fast slow).indicators := by
    cases spec <;> exact List.mem_cons_of_mem _ List.mem_cons_self
  intro c hc
  cases spec with
  | none =>
      rcases List.mem_append.mp hc with hentry | hexit
      · obtain rfl := List.mem_singleton.mp hentry
        exact crossoverCondition_readsFrom hfast hslow _
      · obtain rfl := List.mem_singleton.mp hexit
        exact crossoverCondition_readsFrom hfast hslow _
  | some spec =>
      rcases List.mem_append.mp hc with hentry | hexit
      · refine sideConditions_readsFrom ?_ (crossoverCondition_readsFrom hfast hslow _) c hentry
        intro conditions hconditions
        obtain ⟨rule, -, hrule⟩ := List.mem_map.mp hconditions
        exact compileRule_readsFrom hrule
      · refine sideConditions_readsFrom ?_ (crossoverCondition_readsFrom hfast hslow _) c hexit
        intro conditions hconditions
        obtain ⟨rule, -, hrule⟩ := List.mem_map.mp hconditions
        exact compileRule_readsFrom hrule

end Strategy

/-! ## The frame of a compiled strategy -/

/-- The values of an operand, if the frame has them; a missing column has none. -/
def Frame.presentValues? (f : Frame α) : Operand α → Option (List α)
  | .column name => f.get? name
  | .literal value => some (List.replicate f.length value)

/-- The frame of a compiled strategy has every column that its conditions read.  Each operand's
values stand in the frame, so no column name is read as a number, and readiness passes over no name.
This holds for every description, every pair of periods and every candle series, and for the
crossover alone. -/
theorem compiled_columns_exist [Scalar α] (spec : Option (StrategySpec α)) (fast slow : Nat)
    (candles : List (Candle α)) :
    let strategy := Strategy.ofSpec spec fast slow
    let frame := Frame.build candles strategy.indicators
    (∀ c ∈ strategy.entry ++ strategy.exit,
      (∀ name ∈ c.columns, ∃ values, frame.get? name = some values) ∧
      frame.presentValues? c.left = some (frame.valuesOf c.left) ∧
      frame.presentValues? c.right = some (frame.valuesOf c.right)) ∧
    (∀ name ∈ strategy.referencedColumns, ∃ values, frame.get? name = some values) ∧
    (strategy.referencedColumns.filterMap frame.get?).map some =
      strategy.referencedColumns.map frame.get? := by
  intro strategy frame
  have hpresent (c : Condition α) (hc : c ∈ strategy.entry ++ strategy.exit) (name : String)
      (hname : name ∈ c.columns) : ∃ values, frame.get? name = some values := by
    have hknown := Strategy.ofSpec_readsFrom spec fast slow c hc name hname
    exact Option.isSome_iff_exists.mp ((Frame.get?_build_isSome_iff candles _ name).mpr hknown)
  have hoperand (operand : Operand α)
      (hcolumn : ∀ name, operand = .column name → ∃ values, frame.get? name = some values) :
      frame.presentValues? operand = some (frame.valuesOf operand) := by
    cases operand with
    | literal value => rfl
    | column name =>
        obtain ⟨values, hvalues⟩ := hcolumn name rfl
        rw [Frame.valuesOf_column frame hvalues]
        exact hvalues
  have hreferenced (name : String) (hname : name ∈ strategy.referencedColumns) :
      ∃ values, frame.get? name = some values := by
    obtain ⟨c, hc, hread⟩ := (Strategy.mem_referencedColumns_iff strategy name).mp hname
    exact hpresent c hc name hread
  refine ⟨fun c hc => ⟨hpresent c hc, hoperand c.left ?_, hoperand c.right ?_⟩, hreferenced, ?_⟩
  · intro name hleft
    exact hpresent c hc name (by simp [Condition.columns, hleft, Operand.column?])
  · intro name hright
    exact hpresent c hc name (by simp [Condition.columns, hright, Operand.column?])
  · rw [List.map_filterMap, List.filterMap_eq_map_iff_forall_eq_some]
    intro name hname
    obtain ⟨values, hvalues⟩ := hreferenced name hname
    rw [hvalues, Option.map_some]

end Backtester
