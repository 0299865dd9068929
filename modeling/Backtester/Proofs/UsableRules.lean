import Backtester.Proofs.RuleOrder
import Mathlib.Data.List.Forall2

/-!
# Usable and unusable rules

A rule of a description is used as a whole or not at all.

* `UnusableRule` — the four ways in which a rule has no meaning.
* `RuleMeaning` — the full list of conditions of a rule that has one.
* `compileRule_eq_none_iff`, `compileRule_eq_some_iff` — compilation tells the two apart.
* `Collects` — the conditions of the usable rules of a side, in the order of the rules.
* `CompiledSide` — a side is what its usable rules collect, or the fallback when there are rules and
  none is usable.
* `unusable_rules_inert` — both sides of a compiled description are of this kind, and a rule that is
  not usable may as well be left out.
-/

namespace Backtester

variable {α : Type}

/-! ## Resolved conditions -/

/-- An operand and what it stands for: a name stands for a column, a number for itself. -/
inductive Operand.Resolves (known : List String) : Operand α → Operand α → Prop
  | column {name column : String} (h : resolveColumn known name = some column) :
      Resolves known (.column name) (.column column)
  | literal (value : α) : Resolves known (.literal value) (.literal value)

/-- A condition and the one with both operands resolved. -/
structure Condition.Resolves (known : List String) (written resolved : Condition α) : Prop where
  left : written.left.Resolves known resolved.left
  comparator : resolved.comparator = written.comparator
  right : written.right.Resolves known resolved.right

theorem resolveOperand_eq_some_iff {known : List String} {written resolved : Operand α} :
    resolveOperand known written = some resolved ↔ written.Resolves known resolved := by
  constructor
  · intro h
    cases written with
    | column name =>
        obtain ⟨column, hcolumn, rfl⟩ := Option.map_eq_some_iff.mp h
        exact .column hcolumn
    | literal value =>
        obtain rfl := Option.some.inj h
        exact .literal value
  · intro h
    cases h with
    | column hcolumn => simp [resolveOperand, hcolumn]
    | literal value => rfl

theorem resolveOperand_eq_none_iff {known : List String} {operand : Operand α} :
    resolveOperand known operand = none ↔
      ∃ name ∈ operand.column?, resolveColumn known name = none := by
  cases operand <;> simp [resolveOperand, Operand.column?]

theorem resolveCondition_eq_some_iff {known : List String} {written resolved : Condition α} :
    resolveCondition known written = some resolved ↔ written.Resolves known resolved := by
  unfold resolveCondition
  constructor
  · intro h
    split at h
    · next left right hleft hright =>
        obtain rfl := Option.some.inj h
        exact ⟨resolveOperand_eq_some_iff.mp hleft, rfl, resolveOperand_eq_some_iff.mp hright⟩
    · cases h
  · rintro ⟨hleft, hcomparator, hright⟩
    rw [resolveOperand_eq_some_iff.mpr hleft, resolveOperand_eq_some_iff.mpr hright,
      ← hcomparator]

theorem resolveCondition_eq_none_iff {known : List String} {c : Condition α} :
    resolveCondition known c = none ↔ ∃ name ∈ c.columns, resolveColumn known name = none := by
  have hcolumns : (∃ name ∈ c.columns, resolveColumn known name = none) ↔
      resolveOperand known c.left = none ∨ resolveOperand known c.right = none := by
    rw [resolveOperand_eq_none_iff, resolveOperand_eq_none_iff]
    simp [Condition.columns, List.mem_filterMap, or_and_right, exists_or]
  rw [hcolumns, resolveCondition]
  cases resolveOperand known c.left <;> cases resolveOperand known c.right <;> simp

/-- Several results all exist exactly when each of them does. -/
theorem mapM_eq_some_iff_forall₂ {β γ : Type} {f : β → Option γ} {xs : List β} {ys : List γ} :
    xs.mapM f = some ys ↔ List.Forall₂ (fun x y => f x = some y) xs ys := by
  rw [mapM_eq_some_iff, ← List.forall₂_eq_eq_eq, List.forall₂_map_left_iff,
    List.forall₂_map_right_iff]

theorem mapM_eq_none_iff {β γ : Type} {f : β → Option γ} {xs : List β} :
    xs.mapM f = none ↔ ∃ x ∈ xs, f x = none := by
  induction xs with
  | nil => simp
  | cons x rest ih =>
      rw [List.mapM_cons, List.exists_mem_cons_iff, ← ih]
      cases hx : f x with
      | none => simp
      | some y => cases rest.mapM f <;> simp

/-! ## The meaning of a rule -/

section

variable [Scalar α]

/-- The ways in which a rule has no meaning. -/
inductive UnusableRule (known : List String) (condition : String) (indicator : Option String)
    (threshold : Option α) : Prop
  /-- Its indicator stands for no column. -/
  | indicator {name : String} (hindicator : indicator = some name)
      (hnone : resolveColumn known name = none)
  /-- It is a lone comparator, and the indicator or the threshold is missing. -/
  | comparator {comparator : Comparator} (htoken : Comparator.ofToken? condition = some comparator)
      (hmissing : indicator = none ∨ threshold = none)
  /-- Its text cannot be read. -/
  | text {problem : TextProblem} (htoken : Comparator.ofToken? condition = none)
      (htext : (Condition.ofText? condition : Except TextProblem (List (Condition α))) =
        .error problem)
  /-- A column that it reads stands for nothing. -/
  | column {written : List (Condition α)} {c : Condition α} {name : String}
      (htoken : Comparator.ofToken? condition = none)
      (htext : Condition.ofText? condition = .ok written) (hc : c ∈ written)
      (hname : name ∈ c.columns) (hnone : resolveColumn known name = none)

/-- The full list of conditions of a rule. -/
inductive RuleMeaning (known : List String) (condition : String) (indicator : Option String)
    (threshold : Option α) : List (Condition α) → Prop
  /-- A lone comparator compares the column of the indicator with the threshold. -/
  | comparator {name column : String} {comparator : Comparator} {value : α}
      (hindicator : indicator = some name) (hcolumn : resolveColumn known name = some column)
      (htoken : Comparator.ofToken? condition = some comparator) (hvalue : threshold = some value) :
      RuleMeaning known condition indicator threshold [⟨.column column, comparator, .literal value⟩]
  /-- A text means all of its conditions; an indicator beside it must still have a column. -/
  | text {written resolved : List (Condition α)}
      (hindicator : ∀ name ∈ indicator, resolveColumn known name ≠ none)
      (htoken : Comparator.ofToken? condition = none)
      (htext : Condition.ofText? condition = .ok written)
      (hresolved : List.Forall₂ (Condition.Resolves known) written resolved) :
      RuleMeaning known condition indicator threshold resolved

variable {known : List String} {condition : String} {indicator : Option String}
  {threshold : Option α}

theorem compileRule_of_unresolved {name : String} (hindicator : indicator = some name)
    (hnone : resolveColumn known name = none) :
    compileRule known condition indicator threshold = none := by
  simp [compileRule, hindicator, hnone]

theorem compileRule_of_token (hresolved : ∀ name ∈ indicator, resolveColumn known name ≠ none)
    {comparator : Comparator} (htoken : Comparator.ofToken? condition = some comparator) :
    compileRule known condition indicator threshold =
      (indicator.bind (resolveColumn known)).bind fun column =>
        threshold.map fun value => [⟨.column column, comparator, .literal value⟩] := by
  cases indicator with
  | none => simp [compileRule, htoken]
  | some name =>
      obtain ⟨column, hcolumn⟩ := Option.ne_none_iff_exists'.mp (hresolved name rfl)
      cases threshold <;> simp [compileRule, htoken, hcolumn]

theorem compileRule_of_text (hresolved : ∀ name ∈ indicator, resolveColumn known name ≠ none)
    (htoken : Comparator.ofToken? condition = none) :
    compileRule known condition indicator threshold =
      match (Condition.ofText? condition : Except TextProblem (List (Condition α))) with
      | .ok written => written.mapM (resolveCondition known)
      | .error _ => none := by
  cases indicator with
  | none =>
      cases hread : (Condition.ofText? condition : Except TextProblem (List (Condition α))) <;>
        simp [compileRule, htoken, hread]
  | some name =>
      obtain ⟨column, hcolumn⟩ := Option.ne_none_iff_exists'.mp (hresolved name rfl)
      cases hread : (Condition.ofText? condition : Except TextProblem (List (Condition α))) <;>
        simp [compileRule, htoken, hcolumn, hread]

/-- A text that is read holds a condition. -/
theorem readConditions_ne_nil {c c' : Cursor} {conditions : List (Condition α)}
    (h : readConditions c = .ok (conditions, c')) : conditions ≠ [] := by
  rw [readConditions] at h
  split at h
  · cases h
  · split at h
    · cases h
      exact List.cons_ne_nil _ _
    · split at h
      · cases h
      · cases h
        exact List.cons_ne_nil _ _

theorem ofText_ne_nil {text : String} {conditions : List (Condition α)}
    (h : Condition.ofText? text = .ok conditions) : conditions ≠ [] := by
  unfold Condition.ofText? readRule at h
  dsimp only at h
  split at h
  · cases h
  · split at h
    · cases h
    · next hread =>
        split at h
        · cases h
          exact readConditions_ne_nil hread
        · cases h

theorem RuleMeaning.ne_nil {conditions : List (Condition α)}
    (h : RuleMeaning known condition indicator threshold conditions) : conditions ≠ [] := by
  cases h with
  | comparator => exact List.cons_ne_nil _ _
  | text _ _ htext hresolved =>
      rintro rfl
      exact ofText_ne_nil htext (List.forall₂_nil_right_iff.mp hresolved)

/-- Compilation gives up on a rule exactly when it has no meaning. -/
theorem compileRule_eq_none_iff :
    compileRule known condition indicator threshold = none ↔
      UnusableRule known condition indicator threshold := by
  by_cases hresolved : ∀ name ∈ indicator, resolveColumn known name ≠ none
  · cases htoken : Comparator.ofToken? condition with
    | some comparator =>
        rw [compileRule_of_token hresolved htoken]
        constructor
        · intro h
          cases indicator with
          | none => exact .comparator htoken (Or.inl rfl)
          | some name =>
              obtain ⟨column, hcolumn⟩ := Option.ne_none_iff_exists'.mp (hresolved name rfl)
              refine .comparator htoken (Or.inr ?_)
              simpa [hcolumn] using h
        · intro h
          cases h with
          | indicator hindicator hnone => exact absurd hnone (hresolved _ hindicator)
          | comparator _ hmissing => rcases hmissing with rfl | rfl <;> simp
          | text hno => rw [htoken] at hno; cases hno
          | column hno => rw [htoken] at hno; cases hno
    | none =>
        rw [compileRule_of_text hresolved htoken]
        constructor
        · intro h
          split at h
          · next written htext =>
              obtain ⟨c, hc, hnone⟩ := mapM_eq_none_iff.mp h
              obtain ⟨name, hname, hcolumn⟩ := resolveCondition_eq_none_iff.mp hnone
              exact .column htoken htext hc hname hcolumn
          · next htext => exact .text htoken htext
        · intro h
          cases h with
          | indicator hindicator hnone => exact absurd hnone (hresolved _ hindicator)
          | comparator hsome => rw [htoken] at hsome; cases hsome
          | text _ htext => rw [htext]
          | column _ htext hc hname hnone =>
              rw [htext]
              exact mapM_eq_none_iff.mpr
                ⟨_, hc, resolveCondition_eq_none_iff.mpr ⟨_, hname, hnone⟩⟩
  · push Not at hresolved
    obtain ⟨name, hindicator, hnone⟩ := hresolved
    exact iff_of_true (compileRule_of_unresolved hindicator hnone) (.indicator hindicator hnone)

/-- Otherwise it gives the full list of the rule's conditions. -/
theorem compileRule_eq_some_iff {conditions : List (Condition α)} :
    compileRule known condition indicator threshold = some conditions ↔
      RuleMeaning known condition indicator threshold conditions := by
  by_cases hresolved : ∀ name ∈ indicator, resolveColumn known name ≠ none
  · cases htoken : Comparator.ofToken? condition with
    | some comparator =>
        rw [compileRule_of_token hresolved htoken]
        constructor
        · intro h
          obtain ⟨column, hcolumn, h⟩ := Option.bind_eq_some_iff.mp h
          obtain ⟨name, hname, hcolumn⟩ := Option.bind_eq_some_iff.mp hcolumn
          obtain ⟨value, hvalue, rfl⟩ := Option.map_eq_some_iff.mp h
          exact .comparator hname hcolumn htoken hvalue
        · intro h
          cases h with
          | comparator hindicator hcolumn htoken' hvalue =>
              obtain rfl := Option.some.inj (htoken.symm.trans htoken')
              simp [hindicator, hcolumn, hvalue]
          | text _ hno => rw [htoken] at hno; cases hno
    | none =>
        rw [compileRule_of_text hresolved htoken]
        constructor
        · intro h
          split at h
          · next written htext =>
              refine .text hresolved htoken htext ?_
              simpa only [resolveCondition_eq_some_iff] using mapM_eq_some_iff_forall₂.mp h
          · cases h
        · intro h
          cases h with
          | comparator _ _ hsome => rw [htoken] at hsome; cases hsome
          | text _ _ htext hall =>
              rw [htext]
              dsimp only
              rw [mapM_eq_some_iff_forall₂]
              simpa only [resolveCondition_eq_some_iff] using hall
  · push Not at hresolved
    obtain ⟨name, hindicator, hnone⟩ := hresolved
    refine iff_of_false (by simp [compileRule_of_unresolved hindicator hnone]) fun h => ?_
    cases h with
    | comparator hindicator' hcolumn =>
        obtain rfl := Option.some.inj (hindicator.symm.trans hindicator')
        rw [hnone] at hcolumn
        cases hcolumn
    | text hall => exact hall name hindicator hnone

/-- An entry rule has no meaning. -/
def EntryRule.Unusable (known : List String) (r : EntryRule α) : Prop :=
  UnusableRule known r.condition r.indicator r.threshold

/-- The full list of conditions of an entry rule. -/
def EntryRule.Means (known : List String) (r : EntryRule α) : List (Condition α) → Prop :=
  RuleMeaning known r.condition r.indicator r.threshold

/-- An exit rule has no meaning. -/
def ExitRule.Unusable (known : List String) (r : ExitRule α) : Prop :=
  UnusableRule known r.condition r.indicator r.threshold

/-- The full list of conditions of an exit rule. -/
def ExitRule.Means (known : List String) (r : ExitRule α) : List (Condition α) → Prop :=
  RuleMeaning known r.condition r.indicator r.threshold

end

/-! ## Sides -/

section

variable {β : Type} (Means : β → List (Condition α) → Prop) (Unusable : β → Prop)

/-- The conditions of the usable rules, list after list in the order of the rules. -/
inductive Collects : List β → List (Condition α) → Prop
  | nil : Collects [] []
  | used {rule : β} {rules : List β} {conditions more : List (Condition α)}
      (h : Means rule conditions) (hrest : Collects rules more) :
      Collects (rule :: rules) (conditions ++ more)
  | unused {rule : β} {rules : List β} {more : List (Condition α)} (h : Unusable rule)
      (hrest : Collects rules more) : Collects (rule :: rules) more

/-- One side of a compiled strategy: what the usable rules collect, or the fallback alone. -/
structure CompiledSide (rules : List β) (fallback : Condition α)
    (conditions : List (Condition α)) (fallsBack : Bool) : Prop where
  fallsBack_iff : fallsBack = true ↔ rules ≠ [] ∧ ∀ rule ∈ rules, Unusable rule
  fallback : fallsBack = true → conditions = [fallback]
  collects : fallsBack = false → Collects Means Unusable rules conditions
  empty_iff : conditions = [] ↔ rules = []

variable {Means Unusable} {compile : β → Option (List (Condition α))}

theorem collects_filterMap (hnone : ∀ rule, compile rule = none ↔ Unusable rule)
    (hsome : ∀ rule conditions, compile rule = some conditions ↔ Means rule conditions)
    (rules : List β) : Collects Means Unusable rules (rules.filterMap compile).flatten := by
  induction rules with
  | nil => exact .nil
  | cons rule rest ih =>
      cases hrule : compile rule with
      | none =>
          rw [List.filterMap_cons_none hrule]
          exact .unused ((hnone rule).mp hrule) ih
      | some conditions =>
          rw [List.filterMap_cons_some hrule, List.flatten_cons]
          exact .used ((hsome rule conditions).mp hrule) ih

/-- Compiling the rules of a side makes a side. -/
theorem compiledSide_sideConditions (hnone : ∀ rule, compile rule = none ↔ Unusable rule)
    (hsome : ∀ rule conditions, compile rule = some conditions ↔ Means rule conditions)
    (hmeaning : ∀ rule conditions, Means rule conditions → conditions ≠ []) (rules : List β)
    (fallback : Condition α) :
    CompiledSide Means Unusable rules fallback
      (Strategy.sideConditions (rules.map compile) fallback).1
      (Strategy.sideConditions (rules.map compile) fallback).2 := by
  have hcollected : ((rules.map compile).filterMap id).flatten =
      (rules.filterMap compile).flatten := by
    rw [List.filterMap_map, Function.id_comp]
  -- A usable rule has a condition, so nothing is collected only if no rule is usable.
  have hempty : (rules.filterMap compile).flatten = [] ↔ ∀ rule ∈ rules, Unusable rule := by
    simp only [← hnone]
    rw [List.flatten_eq_nil_iff]
    constructor
    · intro h rule hrule
      by_contra hused
      obtain ⟨conditions, hconditions⟩ := Option.ne_none_iff_exists'.mp hused
      exact hmeaning rule conditions ((hsome rule conditions).mp hconditions)
        (h conditions (List.mem_filterMap.mpr ⟨rule, hrule, hconditions⟩))
    · intro h conditions hconditions
      obtain ⟨rule, hrule, hconditions⟩ := List.mem_filterMap.mp hconditions
      rw [h rule hrule] at hconditions
      cases hconditions
  unfold Strategy.sideConditions
  dsimp only
  rw [hcollected]
  split
  · next hfalls =>
      simp only [Bool.and_eq_true, Bool.not_eq_true', List.isEmpty_eq_false_iff,
        List.isEmpty_iff, ne_eq, List.map_eq_nil_iff] at hfalls
      exact
        { fallsBack_iff := iff_of_true rfl ⟨hfalls.1, hempty.mp hfalls.2⟩
          fallback := fun _ => rfl
          collects := fun h => by cases h
          empty_iff := iff_of_false (List.cons_ne_nil _ _) hfalls.1 }
  · next hkept =>
      simp only [Bool.and_eq_true, Bool.not_eq_true', List.isEmpty_eq_false_iff,
        List.isEmpty_iff, ne_eq, List.map_eq_nil_iff, not_and] at hkept
      refine
        { fallsBack_iff := iff_of_false Bool.false_ne_true fun h => hkept h.1 (hempty.mpr h.2)
          fallback := fun h => by cases h
          collects := fun _ => collects_filterMap hnone hsome rules
          empty_iff := ⟨fun h => ?_, fun h => by rw [h]; rfl⟩ }
      by_contra hrules
      exact hkept hrules h

end

/-! ## Rules that are left out -/

theorem Strategy.sideConditions_erase {compiled compiled' : List (Option (List (Condition α)))}
    (fallback : Condition α) (hused : ∃ conditions ≠ [], some conditions ∈ compiled ++ compiled') :
    sideConditions (compiled ++ compiled') fallback =
      sideConditions (compiled ++ none :: compiled') fallback := by
  obtain ⟨conditions, hne, hmem⟩ := hused
  have hsome : ((compiled ++ compiled').filterMap id).flatten ≠ [] := by
    rw [Ne, List.flatten_eq_nil_iff]
    intro h
    exact hne (h conditions (List.mem_filterMap.mpr ⟨_, hmem, rfl⟩))
  have hsame : (compiled ++ none :: compiled').filterMap id =
      (compiled ++ compiled').filterMap id := by
    simp
  unfold sideConditions
  dsimp only
  rw [hsame, List.isEmpty_eq_false_iff.mpr hsome]
  simp

/-- The side of some rules does not change with a rule that has no meaning, as long as another one
has. -/
theorem Strategy.sideConditions_map_erase {β : Type} {compile : β → Option (List (Condition α))}
    (hmeaning : ∀ rule, compile rule ≠ some []) {before after : List β} {rule : β}
    (hrule : compile rule = none) (hused : ∃ r ∈ before ++ after, compile r ≠ none)
    (fallback : Condition α) :
    sideConditions ((before ++ after).map compile) fallback =
      sideConditions ((before ++ rule :: after).map compile) fallback := by
  obtain ⟨r, hr, hsome⟩ := hused
  obtain ⟨conditions, hconditions⟩ := Option.ne_none_iff_exists'.mp hsome
  rw [List.map_append, List.map_append, List.map_cons, hrule]
  refine sideConditions_erase fallback ⟨conditions, ?_, ?_⟩
  · rintro rfl
    exact hmeaning r hconditions
  · rw [← List.map_append, ← hconditions]
    exact List.mem_map_of_mem hr

section

variable [Scalar α]

theorem lastPositiveFraction_erase {β : Type} {percentage : β → Option α} {rule : β}
    (hrule : ∀ value ∈ percentage rule, ¬0 < value) (before after : List β) :
    lastPositiveFraction ((before ++ after).filterMap percentage) =
      lastPositiveFraction ((before ++ rule :: after).filterMap percentage) := by
  unfold lastPositiveFraction
  rw [List.filterMap_append, List.filterMap_append, List.filter_append, List.filter_append]
  cases hvalue : percentage rule with
  | none => rw [List.filterMap_cons_none hvalue]
  | some value =>
      rw [List.filterMap_cons_some hvalue, List.filter_cons_of_neg]
      simpa using hrule value hvalue

namespace Strategy

variable {known : List String}

theorem directionOf_erase {before after : List (EntryRule α)} {rule : EntryRule α}
    (hrule : rule.compile known = none) (hused : ∃ r ∈ before ++ after, r.compile known ≠ none) :
    directionOf known (before ++ after) = directionOf known (before ++ rule :: after) := by
  have hfind : (before ++ rule :: after).find? (fun r => (r.compile known).isSome) =
      (before ++ after).find? (fun r => (r.compile known).isSome) := by
    simp [List.find?_append, hrule]
  have hfound : ((before ++ after).find? (fun r => (r.compile known).isSome)).isSome = true := by
    obtain ⟨r, hr, hsome⟩ := hused
    rw [List.find?_isSome]
    exact ⟨r, hr, Option.isSome_iff_ne_none.mpr hsome⟩
  obtain ⟨r, hr⟩ := Option.isSome_iff_exists.mp hfound
  rw [directionOf, directionOf, hfind, hr]
  rfl

variable {spec : StrategySpec α} {fast slow : Nat}

/-- An entry rule without a meaning may as well be left out if another one has a meaning. -/
theorem compile_erase_entryRule {before after : List (EntryRule α)} {rule : EntryRule α}
    (hrules : spec.entryRules = before ++ rule :: after)
    (hrule : rule.Unusable (knownColumns (indicatorsOf spec fast slow)))
    (hused : ∃ r ∈ before ++ after, ¬r.Unusable (knownColumns (indicatorsOf spec fast slow))) :
    compile { spec with entryRules := before ++ after } fast slow = compile spec fast slow := by
  have hnone : rule.compile (knownColumns (indicatorsOf spec fast slow)) = none :=
    compileRule_eq_none_iff.mpr hrule
  have hsome : ∃ r ∈ before ++ after,
      r.compile (knownColumns (indicatorsOf spec fast slow)) ≠ none := by
    obtain ⟨r, hr, hr'⟩ := hused
    exact ⟨r, hr, mt compileRule_eq_none_iff.mp hr'⟩
  have hmeaning (r : EntryRule α) :
      r.compile (knownColumns (indicatorsOf spec fast slow)) ≠ some [] :=
    fun h => (compileRule_eq_some_iff.mp h).ne_nil rfl
  have hside := sideConditions_map_erase hmeaning hnone hsome
    (crossoverCondition fast slow .crossesAbove)
  have hdirection := directionOf_erase hnone hsome
  unfold compile
  dsimp only
  rw [hrules, ← hside, ← hdirection]
  rfl

/-- An exit rule without a meaning, without a stop and without a target may as well be left out if
another one has a meaning, unless it is the only one to let the stop trail. -/
theorem compile_erase_exitRule_iff {before after : List (ExitRule α)} {rule : ExitRule α}
    (hrules : spec.exitRules = before ++ rule :: after)
    (hrule : rule.Unusable (knownColumns (indicatorsOf spec fast slow)))
    (hused : ∃ r ∈ before ++ after, ¬r.Unusable (knownColumns (indicatorsOf spec fast slow)))
    (hstop : ∀ value ∈ rule.stopLossPercent, ¬0 < value)
    (htarget : ∀ value ∈ rule.takeProfitPercent, ¬0 < value) :
    compile { spec with exitRules := before ++ after } fast slow = compile spec fast slow ↔
      (rule.trailing = true → ∃ r ∈ before ++ after, r.trailing = true) := by
  have hnone : rule.compile (knownColumns (indicatorsOf spec fast slow)) = none :=
    compileRule_eq_none_iff.mpr hrule
  have hsome : ∃ r ∈ before ++ after,
      r.compile (knownColumns (indicatorsOf spec fast slow)) ≠ none := by
    obtain ⟨r, hr, hr'⟩ := hused
    exact ⟨r, hr, mt compileRule_eq_none_iff.mp hr'⟩
  have hmeaning (r : ExitRule α) :
      r.compile (knownColumns (indicatorsOf spec fast slow)) ≠ some [] :=
    fun h => (compileRule_eq_some_iff.mp h).ne_nil rfl
  have hside := sideConditions_map_erase hmeaning hnone hsome
    (crossoverCondition fast slow .crossesBelow)
  have hstop' := lastPositiveFraction_erase hstop before after
  have htarget' := lastPositiveFraction_erase htarget before after
  have htrailing : (before ++ after).any ExitRule.trailing = spec.exitRules.any ExitRule.trailing ↔
      (rule.trailing = true → ∃ r ∈ before ++ after, r.trailing = true) := by
    rw [hrules, ← List.any_eq_true, List.any_append, List.any_append, List.any_cons]
    cases rule.trailing <;> simp
  rw [← htrailing]
  constructor
  · intro h
    exact congrArg (fun s : Strategy α => s.risk.trailing) h
  · intro h
    unfold compile stopLossOf
    dsimp only
    rw [h, hrules, ← hside, ← hstop', ← htarget']
    rfl

end Strategy

/-! ## Without entry rules -/

/-- A strategy without a condition for opening makes no trade. -/
theorem replay_eq_nil_of_entry {s : Strategy α} (hentry : s.entry = [])
    (candles : List (Candle α)) : replay candles s = [] := by
  have hnever (f : Frame α) (i : Nat) : ¬signalAt (f.allHold s.entry) i = true := by
    simp [hentry, Frame.allHold, signalAt, List.getD_eq_getElem?_getD, List.getElem?_replicate]
    split <;> simp
  have htrades : Tape.TradesFrom _ 0 (replay candles s) :=
    tradesFrom_simulate candles ((Frame.build candles s.indicators).allHold s.entry) _ _ s.risk
  generalize replay candles s = trades at htrades ⊢
  cases htrades with
  | unopened => rfl
  | unclosed => rfl
  | closed hfirst => exact absurd hfirst.1.2.2.2 (hnever _ _)

/-- Every side of a compiled description consists of the full condition lists of its usable rules,
in the order of the rules; if there are rules and none is usable, it is the crossover instead, and
it is empty only without rules, which leaves no trade to make.  A rule without a meaning may be left
out if another one of its side has a meaning; for an exit rule, if it has no stop and no target, and
is not alone in letting the stop trail. -/
theorem unusable_rules_inert (spec : StrategySpec α) (fast slow : Nat) :
    let known := Strategy.knownColumns (Strategy.indicatorsOf spec fast slow)
    let compiled := Strategy.compile spec fast slow
    CompiledSide (EntryRule.Means known) (EntryRule.Unusable known) spec.entryRules
      (Strategy.crossoverCondition fast slow .crossesAbove) compiled.entry compiled.entryFallback ∧
    CompiledSide (ExitRule.Means known) (ExitRule.Unusable known) spec.exitRules
      (Strategy.crossoverCondition fast slow .crossesBelow) compiled.exit compiled.exitFallback ∧
    (spec.entryRules = [] → ∀ candles, replay candles compiled = []) ∧
    (∀ before rule after, spec.entryRules = before ++ rule :: after → rule.Unusable known →
      (∃ r ∈ before ++ after, ¬r.Unusable known) →
      Strategy.compile { spec with entryRules := before ++ after } fast slow = compiled) ∧
    (∀ before rule after, spec.exitRules = before ++ rule :: after → rule.Unusable known →
      (∃ r ∈ before ++ after, ¬r.Unusable known) →
      (∀ value ∈ rule.stopLossPercent, ¬0 < value) →
      (∀ value ∈ rule.takeProfitPercent, ¬0 < value) →
      (Strategy.compile { spec with exitRules := before ++ after } fast slow = compiled ↔
        (rule.trailing = true → ∃ r ∈ before ++ after, r.trailing = true))) := by
  intro known compiled
  have hentry : CompiledSide (EntryRule.Means known) (EntryRule.Unusable known) spec.entryRules
      (Strategy.crossoverCondition fast slow .crossesAbove) compiled.entry
      compiled.entryFallback :=
    compiledSide_sideConditions (fun _ => compileRule_eq_none_iff)
      (fun _ _ => compileRule_eq_some_iff) (fun _ _ => RuleMeaning.ne_nil) spec.entryRules _
  have hexit : CompiledSide (ExitRule.Means known) (ExitRule.Unusable known) spec.exitRules
      (Strategy.crossoverCondition fast slow .crossesBelow) compiled.exit compiled.exitFallback :=
    compiledSide_sideConditions (fun _ => compileRule_eq_none_iff)
      (fun _ _ => compileRule_eq_some_iff) (fun _ _ => RuleMeaning.ne_nil) spec.exitRules _
  refine ⟨hentry, hexit, fun hnone => replay_eq_nil_of_entry (hentry.empty_iff.mpr hnone), ?_, ?_⟩
  · intro before rule after hrules hrule hused
    exact Strategy.compile_erase_entryRule hrules hrule hused
  · intro before rule after hrules hrule hused hstop htarget
    exact Strategy.compile_erase_exitRule_iff hrules hrule hused hstop htarget

/-- A rule of each unusable kind beside a usable one, and an exit rule without a meaning, a stop or a
target beside one that lets the stop trail and a usable one. -/
theorem unusable_rules_inert_four_kinds :
    let long (condition : String) (indicator : Option String) : EntryRule Float :=
      ⟨condition, indicator, none, "long"⟩
    let unresolved := long "close > open" (some "rsi")
    let others := [long ">" (some "close"), long "close >" none, long "close > rsi_14" none]
    let usable : EntryRule Float := ⟨"close > open and sma > 1", none, none, "short"⟩
    let stopped : ExitRule Float := ⟨"<", none, none, some 5, none, true⟩
    let bare : ExitRule Float := ⟨"<", none, none, some 0, none, true⟩
    let closing : ExitRule Float := ⟨"close < sma_3", none, none, none, none, false⟩
    let spec : StrategySpec Float :=
      ⟨unnamedStrategy, [], unresolved :: (others ++ [usable]), [stopped, bare, closing], []⟩
    let known := Strategy.knownColumns (Strategy.indicatorsOf spec 3 3)
    (∀ rule ∈ unresolved :: others, rule.Unusable known) ∧ ¬usable.Unusable known ∧
    bare.Unusable known ∧ ¬closing.Unusable known ∧
    Strategy.compile { spec with entryRules := others ++ [usable] } 3 3 =
      Strategy.compile spec 3 3 ∧
    Strategy.compile { spec with exitRules := [stopped, closing] } 3 3 =
      Strategy.compile spec 3 3 := by
  intro long unresolved others usable stopped bare closing spec known
  have hunusable : ∀ rule ∈ unresolved :: others, rule.Unusable known := by
    have hnone : ∀ rule ∈ unresolved :: others, (rule.compile known).isNone = true := by
      decide +kernel
    exact fun rule hrule =>
      compileRule_eq_none_iff.mp (Option.isNone_iff_eq_none.mp (hnone rule hrule))
  have husable : ¬usable.Unusable known := by
    have hsome : (usable.compile known).isNone = false := by decide +kernel
    intro h
    rw [EntryRule.compile, compileRule_eq_none_iff.mpr h] at hsome
    cases hsome
  have hbare : bare.Unusable known :=
    compileRule_eq_none_iff.mp (Option.isNone_iff_eq_none.mp (by decide +kernel))
  have hclosing : ¬closing.Unusable known := by
    have hsome : (closing.compile known).isNone = false := by decide +kernel
    intro h
    rw [ExitRule.compile, compileRule_eq_none_iff.mpr h] at hsome
    cases hsome
  obtain ⟨-, -, -, hentry, hexit⟩ := unusable_rules_inert spec 3 3
  refine ⟨hunusable, husable, hbare, hclosing, ?_, ?_⟩
  · exact hentry [] unresolved (others ++ [usable]) rfl (hunusable _ List.mem_cons_self)
      ⟨usable, List.mem_append_right [] (List.mem_append_right _ (List.mem_singleton_self _)),
        husable⟩
  · refine (hexit [stopped] bare [closing] rfl hbare ⟨closing, by simp, hclosing⟩ ?_ ?_).mpr
      fun _ => ⟨stopped, List.mem_cons_self, rfl⟩
    · rintro _ ⟨⟩
      decide +kernel
    · rintro _ ⟨⟩

end

end Backtester
