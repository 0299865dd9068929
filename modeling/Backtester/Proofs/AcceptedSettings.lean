import Backtester.Proofs.Doubles
import Backtester.Settings.Ini
import Backtester.Settings.Range
import Mathlib.Data.List.Infix
import Mathlib.Data.List.TakeWhile

/-!
# Accepted settings

The check of settings and the configuration made of them read the same texts, but fall back on
different values where a text is missing or is not of its kind.  A fallback of the check is never in
range, so what the check accepts is written in the settings and read alike by both.

* `trimmed_trimmed` — a text without the blanks around it has none around it.
* `Settings.number?`, `Settings.integer?` — a number or an integer written in the settings of a run.
* `check_eq_ok_iff_values` — what the check asks of the values it reads.
* `accepted_settings_in_range` — the check accepts exactly the settings that give the capital and
  both periods and make a configuration in the documented ranges, or one whose capital is not a
  number.
* `nan_capital_accepted` — settings of the second kind.
-/

namespace Backtester

/-! ## Blanks around a text -/

theorem trimStart_of_head {text : List Char} (h : ∀ c ∈ text.head?, isBlank c = false) :
    trimStart text = text := by
  cases text with
  | nil => rfl
  | cons c rest => exact List.dropWhile_cons_of_neg (by simp [h c rfl])

theorem head?_trimStart (text : List Char) : ∀ c ∈ (trimStart text).head?, isBlank c = false := by
  intro c hc
  have hnot := List.head?_dropWhile_not isBlank text
  rw [trimStart] at hc
  rw [Option.mem_def.mp hc] at hnot
  exact hnot

theorem trimEnd_eq (text : List Char) : trimEnd text = (trimStart text.reverse).reverse := rfl

theorem trimEnd_trimEnd (text : List Char) : trimEnd (trimEnd text) = trimEnd text := by
  rw [trimEnd_eq (trimEnd text), trimEnd_eq text, List.reverse_reverse,
    trimStart_of_head (head?_trimStart _)]

theorem trimEnd_isPrefix (text : List Char) : trimEnd text <+: text := by
  have hsuffix : trimStart text.reverse <:+ text.reverse := List.dropWhile_suffix _
  rw [trimEnd_eq, ← List.reverse_suffix, List.reverse_reverse]
  exact hsuffix

theorem trim_trim (text : List Char) : trim (trim text) = trim text := by
  have hstart : trimStart (trim text) = trim text := by
    apply trimStart_of_head
    intro c hc
    -- Dropping blanks at the end leaves the first character, unless it leaves nothing.
    obtain ⟨rest, hrest⟩ := trimEnd_isPrefix (trimStart text)
    apply head?_trimStart text
    rw [← hrest, List.head?_append]
    exact Option.mem_def.mpr (by rw [show (trimEnd (trimStart text)).head? = some c from hc]; rfl)
  rw [trim, hstart, trim, trimEnd_trimEnd]

theorem trimmed_trimmed (text : String) : trimmed (trimmed text) = trimmed text := by
  rw [trimmed, trimmed, String.toList_ofList, trim_trim]

namespace Settings

/-! ## Values that are written -/

/-- The number written under a key of a run's settings. -/
def number? (s : Settings) (key : String) : Option Float :=
  (s.find? runSection key).bind readScalar

/-- The integer written under a key of a run's settings. -/
def integer? (s : Settings) (key : String) : Option Int :=
  (s.find? runSection key).bind fun text => readInteger text.toList

theorem numberOr_eq (s : Settings) (key : String) (default : Float) :
    s.numberOr runSection key default = (s.number? key).getD default := rfl

theorem integerOr_eq (s : Settings) (key : String) (default : Int) :
    s.integerOr runSection key default = (s.integer? key).getD default := rfl

/-- A text that is read has no blanks around it and is not empty. -/
theorem trimmed_of_text? {s : Settings} {sectionName key text : String}
    (h : s.text? sectionName key = some text) : trimmed text ≠ "" := by
  unfold text? at h
  split at h
  · split at h
    · cases h
    · next hempty =>
        obtain rfl := Option.some.inj h
        rw [trimmed_trimmed]
        intro hnone
        rw [hnone] at hempty
        exact hempty rfl
  · cases h

/-! ## The check and the configuration -/

theorem requiredText_eq_ok_iff (s : Settings) (key text : String) :
    s.requiredText key = .ok text ↔ s.text? runSection key = some text := by
  unfold requiredText
  cases s.text? runSection key <;> simp

theorem period_eq_ok_iff (s : Settings) (key : String) (default n : Nat) :
    s.period key default = .ok n ↔ s.integerOr runSection key default = n := by
  unfold period
  dsimp only
  split
  · simp
    omega
  · simp
    omega

/-- A step behind a guard is reached where nothing is refused. -/
theorem guarded_eq_ok {ε β : Type} {refused : Prop} [Decidable refused] {problem : ε}
    {next : Except ε β} {value : β} :
    (if refused then throw problem >>= fun _ : Unit => next else next) = .ok value ↔
      ¬refused ∧ next = .ok value := by
  by_cases hrefused : refused
  · simp [hrefused, throw, throwThe, MonadExceptOf.throw, bind, Except.bind]
  · simp [hrefused]

theorem guarded_unit_eq_ok {ε : Type} {refused : Prop} [Decidable refused] {problem : ε} :
    (if refused then throw problem else pure () : Except ε Unit) = .ok () ↔ ¬refused := by
  by_cases hrefused : refused
  · simp [hrefused, throw, throwThe, MonadExceptOf.throw]
  · simp [hrefused, pure, Except.pure]

/-- What the check asks of the values that it reads. -/
theorem check_eq_ok_iff_values (s : Settings) :
    s.check = .ok () ↔
      (∃ symbol, s.text? runSection "symbol" = some symbol) ∧
      (∃ timeframe, s.text? runSection "timeframe" = some timeframe) ∧
      ¬s.numberOr runSection "initial_capital" 0 < 100 ∧
      (2 ≤ s.integerOr runSection "sma_fast" 0 ∧ s.integerOr runSection "sma_fast" 0 ≤ 50) ∧
      (10 ≤ s.integerOr runSection "sma_slow" 0 ∧ s.integerOr runSection "sma_slow" 0 ≤ 200) ∧
      s.integerOr runSection "sma_fast" 0 < s.integerOr runSection "sma_slow" 0 ∧
      0 ≤ s.numberOr runSection "risk_free_rate" 0 ∧
      s.numberOr runSection "risk_free_rate" 0 < 1 := by
  unfold check
  simp only [bind_eq_ok, requiredText_eq_ok_iff, guarded_eq_ok, guarded_unit_eq_ok,
    Decidable.not_not, not_le, exists_and_right]

/-- What the configuration is made of. -/
theorem runConfig_eq_ok_iff (s : Settings) (config : RunConfig Float) :
    s.runConfig = .ok config ↔
      s.text? runSection "symbol" = some config.symbol ∧
      s.text? runSection "timeframe" = some config.timeframe ∧
      s.integerOr runSection "sma_fast" defaultFast = config.fast ∧
      s.integerOr runSection "sma_slow" defaultSlow = config.slow ∧
      s.numberOr runSection "initial_capital" defaultCapital = config.capital ∧
      s.numberOr runSection "risk_free_rate" 0 = config.riskFree := by
  unfold runConfig fastPeriod slowPeriod
  simp only [bind_eq_ok, requiredText_eq_ok_iff, period_eq_ok_iff, pure, Except.pure,
    Except.ok.injEq]
  constructor
  · rintro ⟨symbol, hsymbol, timeframe, htimeframe, fast, hfast, slow, hslow, rfl⟩
    exact ⟨hsymbol, htimeframe, hfast, hslow, rfl, rfl⟩
  · rintro ⟨hsymbol, htimeframe, hfast, hslow, hcapital, hrate⟩
    refine ⟨_, hsymbol, _, htimeframe, _, hfast, _, hslow, ?_⟩
    rw [hcapital, hrate]

/-- A value other than the default is written in the settings. -/
theorem isSome_number? {s : Settings} {key : String} {default : Float}
    (h : s.numberOr runSection key default ≠ default) : (s.number? key).isSome := by
  rw [numberOr_eq] at h
  cases hwritten : s.number? key with
  | none => exact absurd (by rw [hwritten]; rfl) h
  | some x => rfl

theorem isSome_integer? {s : Settings} {key : String} {default : Int}
    (h : s.integerOr runSection key default ≠ default) : (s.integer? key).isSome := by
  rw [integerOr_eq] at h
  cases hwritten : s.integer? key with
  | none => exact absurd (by rw [hwritten]; rfl) h
  | some n => rfl

/-- No default stands in for a value that is written. -/
theorem numberOr_of_isSome {s : Settings} {key : String} (h : (s.number? key).isSome)
    (default other : Float) :
    s.numberOr runSection key default = s.numberOr runSection key other := by
  obtain ⟨x, hx⟩ := Option.isSome_iff_exists.mp h
  rw [numberOr_eq, numberOr_eq, hx]
  rfl

theorem integerOr_of_isSome {s : Settings} {key : String} (h : (s.integer? key).isSome)
    (default other : Int) :
    s.integerOr runSection key default = s.integerOr runSection key other := by
  obtain ⟨n, hn⟩ := Option.isSome_iff_exists.mp h
  rw [integerOr_eq, integerOr_eq, hn]
  rfl

end Settings

/-- The check accepts exactly the settings that give the capital and both periods and make a
configuration in the documented ranges.  Only for the capital is there more: one that is not a
number passes too, since no comparison with it holds. -/
theorem accepted_settings_in_range (s : Settings) :
    s.check = .ok () ↔
      (s.number? "initial_capital").isSome ∧ (s.integer? "sma_fast").isSome ∧
      (s.integer? "sma_slow").isSome ∧
      ∃ config, s.runConfig = .ok config ∧
        trimmed config.symbol ≠ "" ∧ trimmed config.timeframe ≠ "" ∧
        (config.capital.isNaN = true ∨ 100 ≤ config.capital) ∧
        (2 ≤ config.fast ∧ config.fast ≤ 50) ∧ (10 ≤ config.slow ∧ config.slow ≤ 200) ∧
        config.fast < config.slow ∧ 0 ≤ config.riskFree ∧ config.riskFree < 1 := by
  have hhundred : (100 : Float).isNaN = false := by decide +kernel
  rw [Settings.check_eq_ok_iff_values]
  constructor
  · rintro ⟨⟨symbol, hsymbol⟩, ⟨timeframe, htimeframe⟩, hcapital, hfast, hslow, hfaster, hrate⟩
    -- The default of the check is zero, which is in none of these three ranges.
    have hcapitalNe : s.numberOr runSection "initial_capital" 0 ≠ 0 := by
      intro hzero
      rw [hzero] at hcapital
      exact hcapital (by decide +kernel)
    have hfastNe : s.integerOr runSection "sma_fast" 0 ≠ 0 := by omega
    have hslowNe : s.integerOr runSection "sma_slow" 0 ≠ 0 := by omega
    have hcapitalGiven := Settings.isSome_number? hcapitalNe
    have hfastGiven := Settings.isSome_integer? hfastNe
    have hslowGiven := Settings.isSome_integer? hslowNe
    rw [Settings.numberOr_of_isSome hcapitalGiven 0 defaultCapital] at hcapital
    rw [Settings.integerOr_of_isSome hfastGiven 0 defaultFast] at hfast hfaster
    rw [Settings.integerOr_of_isSome hslowGiven 0 defaultSlow] at hslow hfaster
    obtain ⟨fast, hfastValue⟩ := Int.eq_ofNat_of_zero_le
      (show 0 ≤ s.integerOr runSection "sma_fast" defaultFast by omega)
    obtain ⟨slow, hslowValue⟩ := Int.eq_ofNat_of_zero_le
      (show 0 ≤ s.integerOr runSection "sma_slow" defaultSlow by omega)
    refine ⟨hcapitalGiven, hfastGiven, hslowGiven,
      ⟨symbol, timeframe, s.numberOr runSection "initial_capital" defaultCapital, fast, slow,
        s.numberOr runSection "risk_free_rate" 0⟩, ?_, Settings.trimmed_of_text? hsymbol,
      Settings.trimmed_of_text? htimeframe, (Doubles.not_lt_iff hhundred).mp hcapital, ?_⟩
    · rw [Settings.runConfig_eq_ok_iff]
      exact ⟨hsymbol, htimeframe, hfastValue, hslowValue, rfl, rfl⟩
    · dsimp only
      exact ⟨by omega, by omega, by omega, hrate⟩
  · rintro ⟨hcapitalGiven, hfastGiven, hslowGiven, config, hconfig, -, -, hcapital, hfast, hslow,
      hfaster, hrate⟩
    obtain ⟨hsymbol, htimeframe, hfastValue, hslowValue, hcapitalValue, hrateValue⟩ :=
      (Settings.runConfig_eq_ok_iff s config).mp hconfig
    rw [Settings.numberOr_of_isSome hcapitalGiven 0 defaultCapital,
      Settings.integerOr_of_isSome hfastGiven 0 defaultFast,
      Settings.integerOr_of_isSome hslowGiven 0 defaultSlow, hfastValue, hslowValue, hcapitalValue,
      hrateValue]
    exact ⟨⟨_, hsymbol⟩, ⟨_, htimeframe⟩, (Doubles.not_lt_iff hhundred).mpr hcapital, by omega,
      by omega, by omega, hrate⟩

/-- A capital that is not a number passes the check: the settings of a file with one are accepted,
and the capital of the configuration that they make is not at least 100. -/
theorem nan_capital_accepted :
    let text := "[backtest]\nsymbol = BTC/USDT\ntimeframe = 1h\n" ++
      "initial_capital = NaN\nsma_fast = 10\nsma_slow = 30\n"
    ∃ file config, IniFile.ofText? text = .ok file ∧ file.settings.check = .ok () ∧
      file.settings.runConfig = .ok config ∧ ¬100 ≤ config.capital := by
  intro text
  have hentries : collectEntries 1 "default" [] (splitLines text.toList) =
      .ok [⟨"backtest", "sma_slow", some "30"⟩, ⟨"backtest", "sma_fast", some "10"⟩,
        ⟨"backtest", "initial_capital", some "NaN"⟩, ⟨"backtest", "timeframe", some "1h"⟩,
        ⟨"backtest", "symbol", some "BTC/USDT"⟩] := by
    decide +kernel
  refine ⟨_, ⟨"BTC/USDT", "1h", Scalar.nan, 10, 30, 0⟩, congrArg (Except.map IniFile.mk) hentries,
    by decide +kernel, ?_, by decide +kernel⟩
  rw [Settings.runConfig_eq_ok_iff]
  decide +kernel

end Backtester
