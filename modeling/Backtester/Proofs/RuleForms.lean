import Backtester.Proofs.AcceptedSettings
import Backtester.Proofs.LowerCase
import Backtester.Proofs.PrintedConditions
import Backtester.Proofs.UsableRules

/-!
# The two forms of a rule

A rule that compares a column with a number can be written in two ways: as a lone comparator beside
an indicator and a threshold, or as a condition text with the three printed one after another.  The
first is looked up in a table of comparators, the second goes through the reader of condition texts.

* `ruleText` — the text form.
* `splits_ruleText`, `ofText_ruleText` — its tokens, and the one condition it is read as.
* `ofToken_ruleText` — it is not itself a lone comparator.
* `resolveColumn_lowered` — a name stands for the same column in lower case.
* `compileRule_structured`, `compileRule_ruleText` — what each form compiles to.
* `Rewritten` — a rule in one form or the other; `EntryRule.Rewritten`, `ExitRule.Rewritten` and
  `StrategySpec.Rewritten` extend this to whole descriptions.
* `rule_forms_agree` — both forms compile to the same, in a rule and in a description.
-/

namespace Backtester

open Grammar

/-! ## The text form -/

/-- A rule as a condition text. -/
def ruleText (name token : String) (value : Float) : String :=
  name ++ " " ++ token ++ " " ++ NumberStyle.display.write value

/-! ## Blanks -/

/-- A text is the blanks before it, what trimming leaves, and the blanks after it. -/
theorem exists_blanks_trim (text : List Char) :
    ∃ before after, text = before ++ (trim text ++ after) ∧ (∀ c ∈ before, isBlank c = true) ∧
      ∀ c ∈ after, isBlank c = true := by
  have hend : trimEnd (trimStart text) ++ ((trimStart text).reverse.takeWhile isBlank).reverse =
      trimStart text := by
    rw [trimEnd, ← List.reverse_append, List.takeWhile_append_dropWhile, List.reverse_reverse]
  refine ⟨text.takeWhile isBlank, ((trimStart text).reverse.takeWhile isBlank).reverse, ?_,
    fun c => List.mem_takeWhile_imp, fun c hc => List.mem_takeWhile_imp (List.mem_reverse.mp hc)⟩
  rw [trim, hend]
  exact List.takeWhile_append_dropWhile.symm

theorem trim_of_ends {text : List Char} (hhead : ∀ c ∈ text.head?, isBlank c = false)
    (hlast : ∀ c ∈ text.getLast?, isBlank c = false) : trim text = text := by
  rw [← List.head?_reverse] at hlast
  rw [trim, trimStart_of_head hhead, trimEnd_eq, trimStart_of_head hlast, List.reverse_reverse]

theorem trim_of_forall_not_isBlank {text : List Char} (h : ∀ c ∈ text, isBlank c = false) :
    trim text = text :=
  trim_of_ends (fun c hc => h c (List.mem_of_mem_head? hc))
    fun c hc => h c (List.mem_of_mem_getLast? hc)

/-- Blanks in front of a token. -/
theorem Grammar.Splits.blanks {blanks word rest behind : List Char} {words : List (List Char)}
    (hblanks : ∀ c ∈ blanks, isBlank c = true) (h : Splits rest (word :: words) behind) :
    Splits (blanks ++ rest) (word :: words) behind := by
  rw [← splits_trimStart_iff, trimStart, List.dropWhile_append_of_pos hblanks]
  exact splits_trimStart_iff.mpr h

theorem isBlank_head_append {blanks : List Char} (hsome : blanks ≠ [])
    (hblanks : ∀ c ∈ blanks, isBlank c = true) (rest : List Char) :
    ∀ c ∈ (blanks ++ rest).head?, isBlank c = true := by
  obtain ⟨first, others, rfl⟩ := List.exists_cons_of_ne_nil hsome
  rintro c ⟨⟩
  exact hblanks first List.mem_cons_self

/-! ## Reading the text form -/

section

variable {name token : String} {comparator : Comparator} {value : Float}

/-- The tokens of the text form are the name, the comparator and the number, whatever blanks stand
around the comparator. -/
theorem splits_ruleText (hname : IsName name.toList)
    (htoken : Comparator.ofToken? token = some comparator) (hvalue : value.isFinite = true) :
    Splits (ruleText name token value).toList
      [name.toList, trim token.toList, (NumberStyle.display.write value).toList] [] := by
  have hcomparator := isComparator_of_ofToken htoken
  obtain ⟨before, after, htext, hbefore, hafter⟩ := exists_blanks_trim token.toList
  generalize trim token.toList = word at hcomparator htext ⊢
  have hgap : ∀ c ∈ ' ' :: before, isBlank c = true := List.forall_mem_cons.mpr ⟨rfl, hbefore⟩
  have hgap' : ∀ c ∈ after ++ [' '], isBlank c = true := by
    simpa [or_imp, forall_and] using ⟨hafter, rfl⟩
  have hend : ∀ c ∈ ([] : List Char).head?, isBlank c = true := by simp
  have hnumber := Splits.prepend .nil (isOperand_write hvalue).isToken hend
  rw [List.append_nil] at hnumber
  have hsign := (hnumber.blanks hgap').prepend hcomparator.isToken
    (isBlank_head_append (by simp) hgap' _)
  have hleft := (hsign.blanks hgap).prepend (Or.inl hname) (isBlank_head _)
  simpa [ruleText, htext] using hleft

/-- The text form is read as the one condition that compares the name in lower case. -/
theorem ofText_ruleText (hname : IsName name.toList)
    (htoken : Comparator.ofToken? token = some comparator) (hvalue : value.isFinite = true) :
    Condition.ofText? (ruleText name token value) =
      .ok [⟨.column (lowered name), comparator, .literal value⟩] := by
  have hleft : IsOperand name.toList (.column (lowered name) : Operand Float) := by
    have hoperand := IsOperand.name (α := Float) hname
    rwa [String.ofList_toList] at hoperand
  exact readRule_of_isRule (splits_ruleText hname htoken hvalue) (by simp)
    (.condition (.comparison hleft (isComparator_of_ofToken htoken) (isOperand_write hvalue)))

/-- The text form is not a lone comparator, since there is a blank in it. -/
theorem ofToken_ruleText (hname : IsName name.toList) (token : String)
    (hvalue : value.isFinite = true) : Comparator.ofToken? (ruleText name token value) = none := by
  have hnumber := (isOperand_write hvalue).isToken
  have htext : (ruleText name token value).toList =
      (name.toList ++ ' ' :: (token.toList ++ [' '])) ++ (NumberStyle.display.write value).toList := by
    simp [ruleText]
  obtain ⟨first, others, hfirst⟩ := List.exists_cons_of_ne_nil (IsToken.ne_nil (Or.inl hname))
  have htrim : trim (ruleText name token value).toList = (ruleText name token value).toList := by
    rw [htext]
    apply trim_of_ends
    · rw [hfirst]
      rintro c ⟨⟩
      exact hname.forall_not_isBlank first (by rw [hfirst]; exact List.mem_cons_self)
    · intro c hc
      rw [List.getLast?_append_of_ne_nil _ hnumber.ne_nil] at hc
      exact hnumber.forall_not_isBlank c (List.mem_of_mem_getLast? hc)
  rw [Option.eq_none_iff_forall_ne_some]
  intro comparator h
  have hword := (isComparator_of_ofToken h).isToken.forall_not_isBlank
  rw [htrim] at hword
  have hblank := hword ' ' (by simp [ruleText])
  cases hblank

/-! ## Columns -/

/-- A name stands for the same column in lower case. -/
theorem resolveColumn_lowered (known : List String) (hname : IsName name.toList) :
    resolveColumn known (lowered name) = resolveColumn known name := by
  have hblank := hname.forall_not_isBlank
  have hlower : ∀ c ∈ lowerText name.toList, isBlank c = false := by
    intro c hc
    rw [← Bool.not_eq_true]
    intro h
    rw [hblank c (mem_of_mem_lowerText_of_isBlank hc h)] at h
    cases h
  have hsame : trimmed name = name := by
    rw [trimmed, trim_of_forall_not_isBlank hblank, String.ofList_toList]
  have hsame' : trimmed (lowered name) = lowered name := by
    rw [trimmed, lowered, String.toList_ofList, trim_of_forall_not_isBlank hlower]
  unfold resolveColumn
  rw [hsame, hsame', lowered_lowered]

/-! ## One rule -/

theorem resolveCondition_ruleText (known : List String) (hname : IsName name.toList) :
    [(⟨.column (lowered name), comparator, .literal value⟩ : Condition Float)].mapM
        (resolveCondition known) =
      (resolveColumn known name).map fun column => [⟨.column column, comparator, .literal value⟩] := by
  rw [List.mapM_cons, resolveCondition, resolveOperand, resolveOperand,
    resolveColumn_lowered known hname]
  cases resolveColumn known name <;> rfl

/-- A rule in structured form is used exactly if its indicator stands for a column, and then it
compares this column with the threshold. -/
theorem compileRule_structured (known : List String) (name : String)
    (htoken : Comparator.ofToken? token = some comparator) (value : Float) :
    compileRule known token (some name) (some value) =
      (resolveColumn known name).map fun column => [⟨.column column, comparator, .literal value⟩] := by
  unfold compileRule
  cases hcolumn : resolveColumn known name <;> simp [hcolumn, htoken]

/-- The same rule as a text. -/
theorem compileRule_ruleText (known : List String) (hname : IsName name.toList)
    (htoken : Comparator.ofToken? token = some comparator) (hvalue : value.isFinite = true) :
    compileRule known (ruleText name token value) none none =
      (resolveColumn known name).map fun column => [⟨.column column, comparator, .literal value⟩] := by
  rw [compileRule_of_text (by simp) (ofToken_ruleText hname token hvalue),
    ofText_ruleText hname htoken hvalue]
  exact resolveCondition_ruleText known hname

/-! ## Descriptions with the rule in another form -/

/-- The parts of a rule that decide its conditions: text, indicator and threshold. -/
abbrev RuleParts := String × Option String × Option Float

/-- The conditions of a rule with these parts. -/
def RuleParts.compile (known : List String) (parts : RuleParts) :
    Option (List (Condition Float)) :=
  compileRule known parts.1 parts.2.1 parts.2.2

/-- The parts of one rule, and of the same rule with its form kept or replaced by the other one. -/
inductive Rewritten (name token : String) (value : Float) : RuleParts → RuleParts → Prop
  | kept (parts : RuleParts) : Rewritten name token value parts parts
  | asText : Rewritten name token value (token, some name, some value)
      (ruleText name token value, none, none)
  | asStructure : Rewritten name token value (ruleText name token value, none, none)
      (token, some name, some value)

theorem Rewritten.compile_eq {parts parts' : RuleParts} (h : Rewritten name token value parts parts')
    (hname : IsName name.toList) (htoken : Comparator.ofToken? token = some comparator)
    (hvalue : value.isFinite = true) (known : List String) :
    parts.compile known = parts'.compile known := by
  have hboth := (compileRule_structured known name htoken value).trans
    (compileRule_ruleText known hname htoken hvalue).symm
  cases h with
  | kept => rfl
  | asText => exact hboth
  | asStructure => exact hboth.symm

/-- Entry rules that differ in the form of one rule only. -/
structure EntryRule.Rewritten (name token : String) (value : Float) (r r' : EntryRule Float) :
    Prop where
  parts : Backtester.Rewritten name token value (r.condition, r.indicator, r.threshold)
    (r'.condition, r'.indicator, r'.threshold)
  direction : r.direction = r'.direction

/-- Exit rules that differ in the form of one rule only. -/
structure ExitRule.Rewritten (name token : String) (value : Float) (r r' : ExitRule Float) :
    Prop where
  parts : Backtester.Rewritten name token value (r.condition, r.indicator, r.threshold)
    (r'.condition, r'.indicator, r'.threshold)
  stopLossPercent : r.stopLossPercent = r'.stopLossPercent
  takeProfitPercent : r.takeProfitPercent = r'.takeProfitPercent
  trailing : r.trailing = r'.trailing

/-- Descriptions that differ in the form of one rule only, wherever this rule stands. -/
structure StrategySpec.Rewritten (name token : String) (value : Float)
    (spec spec' : StrategySpec Float) : Prop where
  title : spec.name = spec'.name
  indicators : spec.indicators = spec'.indicators
  entryRules : List.Forall₂ (EntryRule.Rewritten name token value) spec.entryRules spec'.entryRules
  exitRules : List.Forall₂ (ExitRule.Rewritten name token value) spec.exitRules spec'.exitRules
  constraints : spec.constraints = spec'.constraints

theorem map_eq_of_forall₂ {β γ : Type} {R : β → β → Prop} {f : β → γ} {xs ys : List β}
    (h : List.Forall₂ R xs ys) (hf : ∀ x y, R x y → f x = f y) : xs.map f = ys.map f := by
  rw [← List.forall₂_eq_eq_eq, List.forall₂_map_left_iff, List.forall₂_map_right_iff]
  exact h.imp hf

/-- Searches that agree on related items find related items. -/
theorem map_find?_of_forall₂ {β γ : Type} {R : β → β → Prop} {f : β → γ} {p : β → Bool}
    {xs ys : List β} (h : List.Forall₂ R xs ys) (hp : ∀ x y, R x y → p x = p y)
    (hf : ∀ x y, R x y → f x = f y) : (xs.find? p).map f = (ys.find? p).map f := by
  induction h with
  | nil => rfl
  | @cons x y xs ys hxy _ ih =>
      rw [List.find?_cons, List.find?_cons, hp x y hxy]
      cases p y with
      | true => exact congrArg some (hf x y hxy)
      | false => exact ih

namespace Strategy

theorem directionOf_eq (known : List String) (rules : List (EntryRule Float)) :
    directionOf known rules =
      (((rules.find? fun r => (r.compile known).isSome).map EntryRule.direction <|>
        rules.head?.map EntryRule.direction).map Direction.ofText).getD .long := by
  unfold directionOf
  cases rules.find? fun r => (r.compile known).isSome with
  | some r => rfl
  | none => cases rules.head? <;> rfl

end Strategy

/-- Descriptions that differ in the form of one rule only compile to the same strategy. -/
theorem StrategySpec.Rewritten.compile_eq {spec spec' : StrategySpec Float}
    (h : spec.Rewritten name token value spec') (hname : IsName name.toList)
    (htoken : Comparator.ofToken? token = some comparator) (hvalue : value.isFinite = true)
    (fast slow : Nat) : Strategy.compile spec fast slow = Strategy.compile spec' fast slow := by
  have hkinds : Strategy.indicatorsOf spec fast slow = Strategy.indicatorsOf spec' fast slow := by
    rw [Strategy.indicatorsOf, Strategy.indicatorsOf, h.indicators]
  have hentryRule (known : List String) (r r' : EntryRule Float)
      (hr : r.Rewritten name token value r') : r.compile known = r'.compile known :=
    hr.parts.compile_eq hname htoken hvalue known
  have hentry (known : List String) :=
    map_eq_of_forall₂ h.entryRules (hentryRule known)
  have hexit (known : List String) :
      spec.exitRules.map (ExitRule.compile known) = spec'.exitRules.map (ExitRule.compile known) :=
    map_eq_of_forall₂ h.exitRules fun r r' hr => hr.parts.compile_eq hname htoken hvalue known
  have hdirection (known : List String) : Strategy.directionOf known spec.entryRules =
      Strategy.directionOf known spec'.entryRules := by
    have hfind := map_find?_of_forall₂ (f := EntryRule.direction)
      (p := fun r => (r.compile known).isSome) h.entryRules
      (fun r r' hr => by rw [hentryRule known r r' hr]) fun r r' hr => hr.direction
    have hhead : spec.entryRules.head?.map EntryRule.direction =
        spec'.entryRules.head?.map EntryRule.direction := by
      rw [← List.head?_map, ← List.head?_map,
        map_eq_of_forall₂ h.entryRules fun r r' hr => hr.direction]
    rw [Strategy.directionOf_eq, Strategy.directionOf_eq, hfind, hhead]
  have hpercent {f : ExitRule Float → Option Float}
      (hf : ∀ r r', r.Rewritten name token value r' → f r = f r') :
      spec.exitRules.filterMap f = spec'.exitRules.filterMap f := by
    have hvalues := congrArg (List.filterMap id) (map_eq_of_forall₂ h.exitRules hf)
    rwa [List.filterMap_map, List.filterMap_map, Function.id_comp] at hvalues
  have htrailing : spec.exitRules.any ExitRule.trailing = spec'.exitRules.any ExitRule.trailing := by
    have hvalues := congrArg (List.any · id)
      (map_eq_of_forall₂ h.exitRules fun r r' hr => hr.trailing)
    rwa [List.any_map, List.any_map, Function.id_comp] at hvalues
  unfold Strategy.compile Strategy.stopLossOf
  dsimp only
  rw [hkinds, hentry, hexit, hdirection, hpercent fun r r' hr => hr.stopLossPercent,
    hpercent fun r r' hr => hr.takeProfitPercent, htrailing, h.constraints, h.title]

/-- The structured and the text form of a rule agree.  For any known columns, name, comparator
token and finite number, both forms are unusable or both are the same single condition, according to
whether the name stands for a column; so a description in which one form is replaced by the other
compiles to the same strategy, with the same trades. -/
theorem rule_forms_agree (known : List String) (hname : IsName name.toList)
    (htoken : Comparator.ofToken? token = some comparator) (hvalue : value.isFinite = true) :
    let meaning : Option (List (Condition Float)) :=
      (resolveColumn known name).map fun column => [⟨.column column, comparator, .literal value⟩]
    compileRule known token (some name) (some value) = meaning ∧
    compileRule known (ruleText name token value) none none = meaning ∧
    ∀ spec spec' : StrategySpec Float, spec.Rewritten name token value spec' → ∀ fast slow : Nat,
      Strategy.compile spec fast slow = Strategy.compile spec' fast slow ∧
      ∀ candles, replay candles (Strategy.compile spec fast slow) =
        replay candles (Strategy.compile spec' fast slow) := by
  intro meaning
  refine ⟨compileRule_structured known name htoken value,
    compileRule_ruleText known hname htoken hvalue, fun spec spec' h fast slow => ?_⟩
  have hcompile := h.compile_eq hname htoken hvalue fast slow
  exact ⟨hcompile, fun candles => by rw [hcompile]⟩

end

/-- A name in capitals that stands for a column by its beginning, a word with blanks around it for
comparator, and a rule that a description writes in both forms. -/
theorem rule_forms_agree_capitals :
    let token := "\tCrosses_BELOW "
    let structured : EntryRule Float := ⟨token, some "RSI", some (-29.5), "short"⟩
    let written : EntryRule Float := ⟨"RSI \tCrosses_BELOW  -29.5", none, none, "short"⟩
    let other : EntryRule Float := ⟨"close > 1", none, none, "long"⟩
    let spec (rules : List (EntryRule Float)) : StrategySpec Float :=
      ⟨unnamedStrategy, [⟨"rsi", none, []⟩], rules, [], []⟩
    let known := Strategy.knownColumns (Strategy.indicatorsOf (spec []) 2 3)
    IsName "RSI".toList ∧ Comparator.ofToken? token = some .crossesBelow ∧
    (-29.5 : Float).isFinite = true ∧ written.condition = ruleText "RSI" token (-29.5) ∧
    structured.compile known = some [⟨.column "rsi_14", .crossesBelow, .literal (-29.5)⟩] ∧
    written.compile known = some [⟨.column "rsi_14", .crossesBelow, .literal (-29.5)⟩] ∧
    Strategy.compile (spec [other, structured]) 2 3 = Strategy.compile (spec [other, written]) 2 3 := by
  intro token structured written other spec known
  have hname : IsName "RSI".toList := by decide +kernel
  have htoken : Comparator.ofToken? token = some .crossesBelow := by decide +kernel
  have hvalue : (-29.5 : Float).isFinite = true := by decide +kernel
  have htext : written.condition = ruleText "RSI" token (-29.5) := by decide +kernel
  have hcolumn : resolveColumn known "RSI" = some "rsi_14" := by decide +kernel
  obtain ⟨hstructured, hwritten, hspec⟩ := rule_forms_agree known hname htoken hvalue
  rw [hcolumn] at hstructured hwritten
  rw [← htext] at hwritten
  refine ⟨hname, htoken, hvalue, htext, hstructured, hwritten, (hspec _ _ ?_ 2 3).1⟩
  have hrule : structured.Rewritten "RSI" token (-29.5) written :=
    ⟨by rw [htext]; exact .asText, rfl⟩
  exact
    { title := rfl
      indicators := rfl
      entryRules := .cons ⟨.kept _, rfl⟩ (.cons hrule .nil)
      exitRules := .nil
      constraints := rfl }

end Backtester
