import Backtester.Command.Execution
import Backtester.Proofs.FileTrees

/-!
# The stages of a backtest

A backtest goes through six stages and ends at the first that fails, with the exit code of that
stage.  Between checking the candles and writing the report it runs, and may end in an overflow
instead: then it has no exit code of its own, and nothing has been written yet.

* `Stage` — the stages in their order, with their exit codes.
* `Prepared` — what the files say to the five stages before the report, if none of them fails.
* `Passes`, `FailsFirst` — the stages that do not fail and the first that does, said of the files
  alone.
* `Overflows` — the run over what the files say ends in an overflow.
* `Delivered` — a report in its place, with nothing else changed but missing folders around it.
* `Settles` — what a stage before the report does: it gives its result or fails with its code, and
  leaves files and output as they are.
* `Ends` — the three ways in which a backtest ends: failed, overflowed or reported.
* `backtest_ends_at_first_failure` — the exit code, the files and the output of every backtest.
-/

namespace Backtester
namespace Command

/-! ## What the files say -/

/-- The stages of a backtest, in order. -/
inductive Stage where
  /-- Reads the settings file. -/
  | readSettings
  /-- Checks the settings and makes a configuration of them. -/
  | checkSettings
  /-- Reads the strategy file, if there is one. -/
  | readStrategy
  /-- Reads the candle table. -/
  | readCandles
  /-- Checks the candles. -/
  | checkCandles
  /-- Writes the report. -/
  | writeReport
deriving DecidableEq

/-- The number of a stage in the order. -/
def Stage.number : Stage → ℕ
  | readSettings => 0
  | checkSettings => 1
  | readStrategy => 2
  | readCandles => 3
  | checkCandles => 4
  | writeReport => 5

/-- The exit code of a backtest that ends at a stage. -/
def Stage.exitCode : Stage → Nat
  | readSettings => 2
  | checkSettings => 2
  | readStrategy => 4
  | readCandles => 3
  | checkCandles => 5
  | writeReport => 1

/-- A settings file with its settings. -/
def SettingsIn (files : FileTree) (path : String) (settings : Settings) : Prop :=
  ∃ text file, files.read? path = .ok text ∧ IniFile.ofText? text = .ok file ∧
    file.settings = settings

/-- Accepted settings with their configuration. -/
def Accepted (settings : Settings) (config : RunConfig Float) : Prop :=
  settings.check = .ok () ∧ settings.runConfig = .ok config

/-- A strategy file with its strategy; without a file there is no strategy. -/
def StrategyIn (files : FileTree) : Option String → Option (StrategySpec Float) → Prop
  | none, spec => spec = none
  | some path, spec => ∃ text read, files.read? path = .ok text ∧
      StrategySpec.ofText? text = some read ∧ some read = spec

/-- A candle table with its candles. -/
def CandlesIn (files : FileTree) (path : String) (rows : List (Candle Float)) : Prop :=
  ∃ text, files.read? path = .ok text ∧ readCandles text = .ok rows

/-- The files around a report after the missing folders have been made. -/
def FoldersMade (files : FileTree) (path : String) (made : FileTree) : Prop :=
  if (FileTree.folderPath path).isEmpty then made = files
  else files.createFolder (FileTree.folderPath path) = (made, .ok ())

/-- A report can be written: on the output always, into a file if its folder can be made. -/
def Writable (files : FileTree) (path text : String) : Prop :=
  path = "-" ∨ ∃ made written, FoldersMade files path made ∧ made.write? path text = .ok written

section

variable (files : FileTree) (configPath : String) (strategyPath candlesPath output : Option String)

/-- What the files say to the stages before the report, none of which fails. -/
structure Prepared (settings : Settings) (config : RunConfig Float)
    (spec : Option (StrategySpec Float)) (rows : List (Candle Float)) : Prop where
  hsettings : SettingsIn files configPath settings
  hconfig : Accepted settings config
  hspec : StrategyIn files strategyPath spec
  hrows : CandlesIn files (tablePath settings config candlesPath) rows
  husable : checkCandles rows = .ok ()

/-- A stage and those before it do not fail.  A run without a result leaves nothing to write. -/
def Passes : Stage → Prop
  | .readSettings => ∃ settings, SettingsIn files configPath settings
  | .checkSettings => ∃ settings config,
      SettingsIn files configPath settings ∧ Accepted settings config
  | .readStrategy => ∃ settings config spec,
      SettingsIn files configPath settings ∧ Accepted settings config ∧
        StrategyIn files strategyPath spec
  | .readCandles => ∃ settings config spec rows,
      SettingsIn files configPath settings ∧ Accepted settings config ∧
        StrategyIn files strategyPath spec ∧
          CandlesIn files (tablePath settings config candlesPath) rows
  | .checkCandles => ∃ settings config spec rows,
      Prepared files configPath strategyPath candlesPath settings config spec rows
  | .writeReport => ∃ settings config spec rows,
      Prepared files configPath strategyPath candlesPath settings config spec rows ∧
        ∀ result, Backtester.backtest rows config spec = .ok result →
          Writable files (reportPath settings output) result.report

/-- The stages before a number in the order do not fail. -/
def PassesBefore (number : ℕ) : Prop :=
  ∀ stage : Stage, stage.number < number →
    Passes files configPath strategyPath candlesPath output stage

/-- The first stage that fails. -/
structure FailsFirst (stage : Stage) : Prop where
  hfails : ¬Passes files configPath strategyPath candlesPath output stage
  hbefore : PassesBefore files configPath strategyPath candlesPath output stage.number

/-- The stages before the report do not fail, and the run over what they read overflows. -/
def Overflows (overflow : Overflow) : Prop :=
  ∃ settings config spec rows,
    Prepared files configPath strategyPath candlesPath settings config spec rows ∧
      Backtester.backtest rows config spec = .error overflow

end

/-- A report in its place: on the output with a line end, or as the whole text of a file.  Around
the file only missing folders have been made. -/
inductive Delivered (files : FileTree) (path text : String) (s : Session) : Prop
  | output (hpath : path = "-") (hfiles : s.files = files) (houtput : s.output = text ++ "\n")
  | file {place : Location} (hpath : path ≠ "-") (houtput : s.output = "")
      (hplace : s.files.resolve path = .ok place) (hread : s.files.read? path = .ok text)
      (hkept : ∀ other, other ≠ place → s.files.node? other = files.node? other ∨
        files.node? other = none ∧ s.files.node? other = some .folder ∧
          FileTree.OnWay (FileTree.startOf (FileTree.folderPath path))
            (FileTree.pathParts (FileTree.folderPath path)) other)

/-! ## Running stages on a session -/

section

variable {β γ : Type}

/-- The result of some stages and the session after them. -/
def outcome (action : ExceptT Failure (StateM Session) β) (s : Session) :
    Except Failure β × Session :=
  action.run.run s

theorem outcome_bind (action : ExceptT Failure (StateM Session) β)
    (next : β → ExceptT Failure (StateM Session) γ) (s : Session) :
    outcome (action >>= next) s =
      match outcome action s with
      | (.ok value, s') => outcome (next value) s'
      | (.error failure, s') => (.error failure, s') := by
  unfold outcome
  rw [ExceptT.run_bind, StateT.run_bind]
  rcases action.run.run s with ⟨result, s'⟩
  cases result <;> rfl

theorem outcome_showLines (lines : List String) (s : Session) :
    outcome (showLines lines) s = (.ok (), { s with shown := s.shown ++ lines }) := by
  induction lines generalizing s with
  | nil => rw [List.append_nil]; rfl
  | cons line rest ih =>
      have hline : outcome (ExceptT.lift (Host.showLine line)) s = (.ok (), s.showLine line) := rfl
      show outcome (ExceptT.lift (Host.showLine line) >>= fun _ => showLines rest) s = _
      rw [outcome_bind, hline]
      dsimp only
      rw [ih]
      simp [Session.showLine]

theorem outcome_orFail (value : Except Failure β) (s : Session) :
    outcome (orFail value) s = (value, s) := rfl

theorem outcome_attempt (failure : FileProblem → Failure)
    (action : StateM Session (Except FileProblem β)) (s : Session) :
    outcome (attempt failure action) s =
      match action.run s with
      | (.ok value, s') => (.ok value, s')
      | (.error problem, s') => (.error (failure problem), s') := by
  unfold outcome attempt
  rw [ExceptT.run_mk, StateT.run_bind]
  rcases action.run s with ⟨result, s'⟩
  cases result <;> rfl

/-- Two sessions have the same files and the same output. -/
def Unchanged (s s' : Session) : Prop := s'.files = s.files ∧ s'.output = s.output

theorem Unchanged.trans {s s' s'' : Session} (h : Unchanged s s') (h' : Unchanged s' s'') :
    Unchanged s s'' := ⟨h'.1.trans h.1, h'.2.trans h.2⟩

theorem Unchanged.files_eq {files : FileTree} {s : Session} (h : Unchanged (.start files) s) :
    s.files = files := h.1

/-- Some stages give one of the results they may give, or fail with an exit code if there is none.
Either way files and output stay as they are. -/
inductive Settles (action : ExceptT Failure (StateM Session) β) (Gives : β → Prop) (code : ℕ)
    (s : Session) : Prop
  | gives {value : β} {s' : Session} (hvalue : Gives value)
      (houtcome : outcome action s = (.ok value, s')) (hsame : Unchanged s s') :
      Settles action Gives code s
  | fails {failure : Failure} {s' : Session} (hnone : ∀ value, ¬Gives value)
      (hcode : failure.exitCode = code) (houtcome : outcome action s = (.error failure, s'))
      (hsame : Unchanged s s') : Settles action Gives code s

end

section

variable {files : FileTree} {s : Session} (hfiles : s.files = files)

theorem outcome_readText {β : Type} (failure : FileProblem → Failure) (path : String)
    (decode : String → Except Failure β) :
    outcome (do
        let text ← attempt failure (Host.readText path)
        orFail (decode text)) s =
      (match s.files.read? path with
        | .ok text => decode text
        | .error problem => .error (failure problem), s) := by
  have hread : (Host.readText path : StateM Session _).run s = (s.files.read? path, s) := rfl
  rw [outcome_bind, outcome_attempt, hread]
  cases s.files.read? path <;> rfl

include hfiles

theorem loadSettings_settles (path : String) :
    Settles (loadSettings path) (SettingsIn files path) 2 s := by
  subst hfiles
  have houtcome := outcome_readText (s := s) (.unreadableSettings path) path (settingsOfText path)
  unfold SettingsIn
  cases hread : s.files.read? path with
  | error problem =>
      rw [hread] at houtcome
      exact .fails (by simp) rfl houtcome ⟨rfl, rfl⟩
  | ok text =>
      rw [hread] at houtcome
      cases hfile : IniFile.ofText? text with
      | error problem =>
          simp only [settingsOfText, hfile] at houtcome
          exact .fails (by simp [hfile]) rfl houtcome ⟨rfl, rfl⟩
      | ok file =>
          simp only [settingsOfText, hfile] at houtcome
          exact .gives ⟨text, file, rfl, hfile, rfl⟩ houtcome ⟨rfl, rfl⟩

theorem loadStrategy_settles (path : String) :
    Settles (loadStrategy path) (fun spec => StrategyIn files (some path) (some spec)) 4 s := by
  subst hfiles
  have houtcome := outcome_readText (s := s) (.unreadableStrategy path) path strategyOfText
  cases hread : s.files.read? path with
  | error problem =>
      rw [hread] at houtcome
      exact .fails (by simp [StrategyIn, hread]) rfl houtcome ⟨rfl, rfl⟩
  | ok text =>
      rw [hread] at houtcome
      cases hspec : StrategySpec.ofText? text with
      | none =>
          simp only [strategyOfText, hspec] at houtcome
          exact .fails (by simp [StrategyIn, hread, hspec]) rfl houtcome ⟨rfl, rfl⟩
      | some spec =>
          simp only [strategyOfText, hspec] at houtcome
          exact .gives ⟨text, spec, hread, hspec, rfl⟩ houtcome ⟨rfl, rfl⟩

theorem loadOptionalStrategy_settles (path : Option String) :
    Settles (loadOptionalStrategy path) (StrategyIn files path) 4 s := by
  cases path with
  | none => exact .gives rfl rfl ⟨rfl, rfl⟩
  | some path =>
      let shown : Session := { s with shown := s.shown ++ ["Loading strategy from " ++ path] }
      have hshown : outcome (loadOptionalStrategy (some path)) s =
          outcome (loadStrategy path >>= fun spec => pure (some spec)) shown := by
        unfold loadOptionalStrategy
        rw [outcome_bind, outcome_showLines]
      rcases loadStrategy_settles (s := shown) hfiles path with
        ⟨hspec, houtcome, hsame⟩ | ⟨hnone, hcode, houtcome, hsame⟩
      · refine .gives hspec ?_ hsame
        rw [hshown, outcome_bind, houtcome]
        rfl
      · refine .fails ?_ hcode ?_ hsame
        · rintro spec ⟨text, read, hread, htext, rfl⟩
          exact hnone read ⟨text, read, hread, htext, rfl⟩
        · rw [hshown, outcome_bind, houtcome]

theorem readTable_settles (path : String) :
    Settles (readTable path) (CandlesIn files path) 3 s := by
  subst hfiles
  have houtcome := outcome_readText (s := s) (tableFailure path) path candlesOfText
  unfold CandlesIn
  cases hread : s.files.read? path with
  | error problem =>
      rw [hread] at houtcome
      have hcode : (tableFailure path problem).exitCode = 3 := by cases problem <;> rfl
      exact .fails (by simp) hcode houtcome ⟨rfl, rfl⟩
  | ok text =>
      rw [hread] at houtcome
      cases hrows : readCandles text with
      | error problem =>
          simp only [candlesOfText, hrows] at houtcome
          have hcode : (Failure.badTable problem).exitCode = 3 := rfl
          exact .fails (by simp [hrows]) hcode houtcome ⟨rfl, rfl⟩
      | ok rows =>
          simp only [candlesOfText, hrows] at houtcome
          exact .gives ⟨text, rfl, hrows⟩ houtcome ⟨rfl, rfl⟩

omit hfiles

theorem configOf_settles (settings : Settings) :
    Settles (orFail (configOf settings)) (Accepted settings) 2 s := by
  have houtcome := outcome_orFail (configOf settings) s
  cases hcheck : settings.check with
  | error problem =>
      have hvalue : configOf settings = .error (.badSettings problem) := by
        simp [configOf, hcheck]
      exact .fails (by simp [Accepted, hcheck]) rfl (houtcome.trans (by rw [hvalue])) ⟨rfl, rfl⟩
  | ok value =>
      cases hconfig : settings.runConfig with
      | error problem =>
          have hvalue : configOf settings = .error (.badSettings problem) := by
            simp [configOf, hcheck, hconfig]
          exact .fails (by simp [Accepted, hconfig]) rfl (houtcome.trans (by rw [hvalue]))
            ⟨rfl, rfl⟩
      | ok config =>
          have hvalue : configOf settings = .ok config := by simp [configOf, hcheck, hconfig]
          exact .gives ⟨hcheck, hconfig⟩ (houtcome.trans (by rw [hvalue])) ⟨rfl, rfl⟩

theorem usable_settles (rows : List (Candle Float)) :
    Settles (orFail (usable rows)) (fun used => Backtester.checkCandles rows = .ok () ∧ used = rows)
      5 s := by
  have houtcome := outcome_orFail (usable rows) s
  cases hcheck : Backtester.checkCandles rows with
  | error bad =>
      have hvalue : usable rows = .error (.badCandles bad.1 bad.2) := by simp [usable, hcheck]
      exact .fails (by simp) rfl (houtcome.trans (by rw [hvalue])) ⟨rfl, rfl⟩
  | ok value =>
      have hvalue : usable rows = .ok rows := by simp [usable, hcheck]
      exact .gives ⟨rfl, rfl⟩ (houtcome.trans (by rw [hvalue])) ⟨rfl, rfl⟩

end

/-! ## Writing the report -/

section

variable {files : FileTree} {s : Session} {path text : String}

theorem outcome_createFolder (folder : String) :
    outcome (attempt (.unmadeFolder folder) (Host.createFolder folder)) s =
      match s.files.createFolder folder with
      | (made, .ok ()) => (.ok (), { s with files := made })
      | (made, .error problem) => (.error (.unmadeFolder folder problem), { s with files := made }) := by
  have hrun : (Host.createFolder folder : StateM Session _).run s = s.makeFolder folder := rfl
  rw [outcome_attempt, hrun]
  unfold Session.makeFolder
  rcases s.files.createFolder folder with ⟨made, result | value⟩ <;> rfl

theorem outcome_writeText :
    outcome (attempt (.unwrittenReport path) (Host.writeText path text)) s =
      match s.files.write? path text with
      | .ok written => (.ok (), { s with files := written })
      | .error problem => (.error (.unwrittenReport path problem), s) := by
  have hrun : (Host.writeText path text : StateM Session _).run s = s.write path text := rfl
  rw [outcome_attempt, hrun]
  unfold Session.write
  cases s.files.write? path text <;> rfl

/-- Makes the folder of a report, if it has one. -/
def makeFolderOf (path : String) : ExceptT Failure (StateM Session) Unit :=
  let folder := FileTree.folderPath path
  if folder.isEmpty then pure () else attempt (.unmadeFolder folder) (Host.createFolder folder)

theorem writeReport_of_ne (hpath : path ≠ "-") :
    (writeReport path text : ExceptT Failure (StateM Session) Unit) =
      makeFolderOf path >>= fun _ =>
        attempt (.unwrittenReport path) (Host.writeText path text) >>= fun _ =>
          showLines ["", "Report written to: " ++ path] := by
  unfold writeReport makeFolderOf
  rw [if_neg hpath]
  by_cases hfolder : (FileTree.folderPath path).isEmpty = true
  · simp [hfolder]
  · simp [hfolder]

theorem FoldersMade.unique {made made' : FileTree} (h : FoldersMade files path made)
    (h' : FoldersMade files path made') : made = made' := by
  unfold FoldersMade at h h'
  split at h
  · next hempty =>
      rw [if_pos hempty] at h'
      exact h.trans h'.symm
  · next hfolder =>
      rw [if_neg hfolder, h] at h'
      exact congrArg Prod.fst h'

/-- What making the folder of a report changes: missing folders on the way are added. -/
theorem FoldersMade.node?_eq {made : FileTree} (h : FoldersMade files path made)
    (place : Location) :
    made.node? place = files.node? place ∨
      files.node? place = none ∧ made.node? place = some .folder ∧
        FileTree.OnWay (FileTree.startOf (FileTree.folderPath path))
          (FileTree.pathParts (FileTree.folderPath path)) place := by
  unfold FoldersMade at h
  split at h
  · exact Or.inl (by rw [h])
  · have hplace := FileTree.node?_createFolder files (FileTree.folderPath path) place
    rw [h] at hplace
    exact hplace

theorem makeFolderOf_makes_or_fails (path : String) (s : Session) :
    (∃ made, FoldersMade s.files path made ∧
      outcome (makeFolderOf path) s = (.ok (), { s with files := made })) ∨
    ∃ failure s', (∀ made, ¬FoldersMade s.files path made) ∧ failure.exitCode = 1 ∧
      outcome (makeFolderOf path) s = (.error failure, s') := by
  unfold makeFolderOf FoldersMade
  dsimp only
  split
  · exact Or.inl ⟨s.files, rfl, rfl⟩
  · rw [outcome_createFolder]
    rcases s.files.createFolder (FileTree.folderPath path) with ⟨made, problem | value⟩
    · exact Or.inr ⟨_, _, by simp, rfl, rfl⟩
    · exact Or.inl ⟨made, rfl, rfl⟩

/-- Writing a report puts it in its place, or it fails because the report cannot be written. -/
theorem writeReport_delivers_or_fails (houtput : s.output = "") (path text : String) :
    (∃ s', Writable s.files path text ∧ Delivered s.files path text s' ∧
      outcome (writeReport path text) s = (.ok (), s')) ∨
    ∃ failure s', ¬Writable s.files path text ∧ failure.exitCode = 1 ∧
      outcome (writeReport path text) s = (.error failure, s') := by
  by_cases hpath : path = "-"
  · subst hpath
    refine Or.inl ⟨s.putOut (text ++ "\n"), Or.inl rfl, .output rfl rfl ?_, rfl⟩
    show s.output ++ (text ++ "\n") = text ++ "\n"
    rw [houtput, String.empty_append]
  rw [writeReport_of_ne hpath, outcome_bind]
  rcases makeFolderOf_makes_or_fails path s with
    ⟨made, hmade, hfolder⟩ | ⟨failure, s', hnone, hcode, hfolder⟩
  · rw [hfolder]
    dsimp only
    rw [outcome_bind, outcome_writeText]
    dsimp only
    cases hwrite : made.write? path text with
    | ok written =>
        dsimp only
        rw [outcome_showLines]
        refine Or.inl ⟨_, Or.inr ⟨made, written, hmade, hwrite⟩, ?_, rfl⟩
        obtain ⟨place, hplace, hfree, -, rfl⟩ := FileTree.write?_eq_ok_iff.mp hwrite
        have hread := FileTree.read?_of_write? hwrite
        refine .file hpath houtput (FileTree.resolve_put hplace hfree _) hread fun other hother => ?_
        rw [FileTree.node?_put_of_ne made hother]
        exact hmade.node?_eq other
    | error problem =>
        refine Or.inr ⟨_, _, ?_, rfl, rfl⟩
        rintro (hout | ⟨made', written, hmade', hwritten⟩)
        · exact hpath hout
        · rw [hmade'.unique hmade, hwrite] at hwritten
          cases hwritten
  · rw [hfolder]
    refine Or.inr ⟨failure, s', ?_, hcode, rfl⟩
    rintro (hout | ⟨made, written, hmade, -⟩)
    · exact hpath hout
    · exact hnone made hmade

end

/-! ## The first stage that fails -/

section

variable {files : FileTree} {configPath : String} {strategyPath candlesPath output : Option String}

theorem SettingsIn.unique {settings settings' : Settings}
    (h : SettingsIn files configPath settings) (h' : SettingsIn files configPath settings') :
    settings = settings' := by
  obtain ⟨text, file, hread, hfile, rfl⟩ := h
  obtain ⟨text', file', hread', hfile', rfl⟩ := h'
  cases hread.symm.trans hread'
  cases hfile.symm.trans hfile'
  rfl

theorem Accepted.unique {settings : Settings} {config config' : RunConfig Float}
    (h : Accepted settings config) (h' : Accepted settings config') : config = config' :=
  Except.ok.inj (h.2.symm.trans h'.2)

theorem StrategyIn.unique {spec spec' : Option (StrategySpec Float)}
    (h : StrategyIn files strategyPath spec) (h' : StrategyIn files strategyPath spec') :
    spec = spec' := by
  cases strategyPath with
  | none => exact Eq.trans h (Eq.symm h')
  | some path =>
      obtain ⟨text, read, hread, hspec, rfl⟩ := h
      obtain ⟨text', read', hread', hspec', rfl⟩ := h'
      cases hread.symm.trans hread'
      exact hspec.symm.trans hspec'

theorem CandlesIn.unique {path : String} {rows rows' : List (Candle Float)}
    (h : CandlesIn files path rows) (h' : CandlesIn files path rows') : rows = rows' := by
  obtain ⟨text, hread, hrows⟩ := h
  obtain ⟨text', hread', hrows'⟩ := h'
  cases hread.symm.trans hread'
  exact Except.ok.inj (hrows.symm.trans hrows')

theorem Stage.number_injective : Function.Injective Stage.number := by
  intro stage stage' h
  cases stage <;> cases stage' <;> first | rfl | cases h

theorem FailsFirst.unique {stage stage' : Stage}
    (h : FailsFirst files configPath strategyPath candlesPath output stage)
    (h' : FailsFirst files configPath strategyPath candlesPath output stage') : stage = stage' := by
  rcases Nat.lt_trichotomy stage.number stage'.number with hlt | heq | hlt
  · exact absurd (h'.hbefore stage hlt) h.hfails
  · exact Stage.number_injective heq
  · exact absurd (h.hbefore stage' hlt) h'.hfails

/-- After a stage that passes it is the next one's turn. -/
theorem PassesBefore.succ {stage : Stage}
    (hbefore : PassesBefore files configPath strategyPath candlesPath output stage.number)
    (h : Passes files configPath strategyPath candlesPath output stage) :
    PassesBefore files configPath strategyPath candlesPath output (stage.number + 1) := by
  intro earlier hlt
  rcases Nat.lt_or_eq_of_le (Nat.le_of_lt_succ hlt) with hprevious | hsame
  · exact hbefore earlier hprevious
  · rwa [Stage.number_injective hsame]

section

variable {settings : Settings} {config : RunConfig Float} {spec : Option (StrategySpec Float)}
  {rows : List (Candle Float)}

theorem passes_readSettings_iff :
    Passes files configPath strategyPath candlesPath output .readSettings ↔
      ∃ settings, SettingsIn files configPath settings := Iff.rfl

theorem passes_checkSettings_iff (hsettings : SettingsIn files configPath settings) :
    Passes files configPath strategyPath candlesPath output .checkSettings ↔
      ∃ config, Accepted settings config := by
  constructor
  · rintro ⟨settings', config, hsettings', hconfig⟩
    obtain rfl := hsettings.unique hsettings'
    exact ⟨config, hconfig⟩
  · rintro ⟨config, hconfig⟩
    exact ⟨settings, config, hsettings, hconfig⟩

theorem passes_readStrategy_iff (hsettings : SettingsIn files configPath settings)
    (hconfig : Accepted settings config) :
    Passes files configPath strategyPath candlesPath output .readStrategy ↔
      ∃ spec, StrategyIn files strategyPath spec := by
  constructor
  · rintro ⟨-, -, spec, -, -, hspec⟩
    exact ⟨spec, hspec⟩
  · rintro ⟨spec, hspec⟩
    exact ⟨settings, config, spec, hsettings, hconfig, hspec⟩

theorem passes_readCandles_iff (hsettings : SettingsIn files configPath settings)
    (hconfig : Accepted settings config) (hspec : StrategyIn files strategyPath spec) :
    Passes files configPath strategyPath candlesPath output .readCandles ↔
      ∃ rows, CandlesIn files (tablePath settings config candlesPath) rows := by
  constructor
  · rintro ⟨settings', config', -, rows, hsettings', hconfig', -, hrows⟩
    obtain rfl := hsettings.unique hsettings'
    obtain rfl := hconfig.unique hconfig'
    exact ⟨rows, hrows⟩
  · rintro ⟨rows, hrows⟩
    exact ⟨settings, config, spec, rows, hsettings, hconfig, hspec, hrows⟩

theorem passes_checkCandles_iff (hsettings : SettingsIn files configPath settings)
    (hconfig : Accepted settings config) (hspec : StrategyIn files strategyPath spec)
    (hrows : CandlesIn files (tablePath settings config candlesPath) rows) :
    Passes files configPath strategyPath candlesPath output .checkCandles ↔
      Backtester.checkCandles rows = .ok () := by
  constructor
  · rintro ⟨settings', config', spec', rows', hprepared⟩
    obtain rfl := hsettings.unique hprepared.hsettings
    obtain rfl := hconfig.unique hprepared.hconfig
    obtain rfl := hrows.unique hprepared.hrows
    exact hprepared.husable
  · intro husable
    exact ⟨settings, config, spec, rows, hsettings, hconfig, hspec, hrows, husable⟩

theorem passes_writeReport_iff
    (hprepared : Prepared files configPath strategyPath candlesPath settings config spec rows) :
    Passes files configPath strategyPath candlesPath output .writeReport ↔
      ∀ result, Backtester.backtest rows config spec = .ok result →
        Writable files (reportPath settings output) result.report := by
  constructor
  · rintro ⟨settings', config', spec', rows', hprepared', hwritable⟩
    obtain rfl := hprepared.hsettings.unique hprepared'.hsettings
    obtain rfl := hprepared.hconfig.unique hprepared'.hconfig
    obtain rfl := hprepared.hspec.unique hprepared'.hspec
    obtain rfl := hprepared.hrows.unique hprepared'.hrows
    exact hwritable
  · intro hwritable
    exact ⟨settings, config, spec, rows, hprepared, hwritable⟩

end

/-! ## All stages in a row -/

/-- How a backtest ends: at its first failing stage, where only the last stage may have changed
something, in an overflow of the run, before anything is changed, or with its report in place. -/
inductive Ends (files : FileTree) (configPath : String)
    (strategyPath candlesPath output : Option String) :
    Except Failure (Except Overflow Unit) × Session → Prop
  | failed {stage : Stage} {failure : Failure} {s : Session}
      (hstage : FailsFirst files configPath strategyPath candlesPath output stage)
      (hcode : failure.exitCode = stage.exitCode)
      (hkept : stage ≠ .writeReport → Unchanged (.start files) s) :
      Ends files configPath strategyPath candlesPath output (.error failure, s)
  | overflowed {overflow : Overflow} {s : Session}
      (hall : ∀ stage, Passes files configPath strategyPath candlesPath output stage)
      (hoverflow : Overflows files configPath strategyPath candlesPath overflow)
      (hkept : Unchanged (.start files) s) :
      Ends files configPath strategyPath candlesPath output (.ok (.error overflow), s)
  | reported {settings : Settings} {config : RunConfig Float}
      {spec : Option (StrategySpec Float)} {rows : List (Candle Float)} {result : RunResult Float}
      {s : Session}
      (hall : ∀ stage, Passes files configPath strategyPath candlesPath output stage)
      (hprepared : Prepared files configPath strategyPath candlesPath settings config spec rows)
      (hresult : Backtester.backtest rows config spec = .ok result)
      (hplaced : Delivered files (reportPath settings output) result.report s) :
      Ends files configPath strategyPath candlesPath output (.ok (.ok ()), s)

/-- A stage before the report fails, or it is the next one's turn. -/
theorem Settles.ends {β : Type} {action : ExceptT Failure (StateM Session) β}
    {next : β → ExceptT Failure (StateM Session) (Except Overflow Unit)} {Gives : β → Prop}
    {s : Session} (stage : Stage) (h : Settles action Gives stage.exitCode s)
    (hs : Unchanged (.start files) s)
    (hbefore : PassesBefore files configPath strategyPath candlesPath output stage.number)
    (hpasses : Passes files configPath strategyPath candlesPath output stage ↔ ∃ value, Gives value)
    (hnext : ∀ value s', Gives value → Unchanged (.start files) s' →
      PassesBefore files configPath strategyPath candlesPath output (stage.number + 1) →
        Ends files configPath strategyPath candlesPath output (outcome (next value) s')) :
    Ends files configPath strategyPath candlesPath output (outcome (action >>= next) s) := by
  rw [outcome_bind]
  rcases h with ⟨hvalue, houtcome, hsame⟩ | ⟨hnone, hcode, houtcome, hsame⟩
  · rw [houtcome]
    exact hnext _ _ hvalue (hs.trans hsame) (hbefore.succ (hpasses.mpr ⟨_, hvalue⟩))
  · rw [houtcome]
    have hfails : ¬Passes files configPath strategyPath candlesPath output stage := by
      rw [hpasses]
      exact not_exists.mpr hnone
    exact .failed ⟨hfails, hbefore⟩ hcode fun _ => hs.trans hsame

/-- Lines on the console change nothing else. -/
theorem ends_showLines {lines : List String}
    {next : Unit → ExceptT Failure (StateM Session) (Except Overflow Unit)} {s : Session}
    (hs : Unchanged (.start files) s)
    (hnext : ∀ s', Unchanged (.start files) s' →
      Ends files configPath strategyPath candlesPath output (outcome (next ()) s')) :
    Ends files configPath strategyPath candlesPath output
      (outcome (showLines lines >>= next) s) := by
  rw [outcome_bind, outcome_showLines]
  exact hnext _ ⟨hs.1, hs.2⟩

/-- If the stages before the report pass and so does the report, all stages do. -/
theorem PassesBefore.all
    (hbefore : PassesBefore files configPath strategyPath candlesPath output
      Stage.writeReport.number)
    (h : Passes files configPath strategyPath candlesPath output .writeReport) (stage : Stage) :
    Passes files configPath strategyPath candlesPath output stage :=
  hbefore.succ h stage (by cases stage <;> decide)

section

variable {settings : Settings} {config : RunConfig Float} {spec : Option (StrategySpec Float)}
  {rows : List (Candle Float)} {s : Session}

theorem overflow_ends {overflow : Overflow} (hs : Unchanged (.start files) s)
    (hbefore : PassesBefore files configPath strategyPath candlesPath output
      Stage.writeReport.number)
    (hprepared : Prepared files configPath strategyPath candlesPath settings config spec rows)
    (hoverflow : Backtester.backtest rows config spec = .error overflow) :
    Ends files configPath strategyPath candlesPath output (.ok (.error overflow), s) := by
  refine .overflowed (hbefore.all ?_) ⟨settings, config, spec, rows, hprepared, hoverflow⟩ hs
  rw [passes_writeReport_iff hprepared]
  intro result hresult
  cases hoverflow.symm.trans hresult

theorem writeReport_ends {result : RunResult Float} (hs : Unchanged (.start files) s)
    (hbefore : PassesBefore files configPath strategyPath candlesPath output
      Stage.writeReport.number)
    (hprepared : Prepared files configPath strategyPath candlesPath settings config spec rows)
    (hresult : Backtester.backtest rows config spec = .ok result) :
    Ends files configPath strategyPath candlesPath output
      (outcome (writeReport (reportPath settings output) result.report >>= fun _ => pure (.ok ()))
        s) := by
  have hfiles := hs.files_eq
  have hpasses : Passes files configPath strategyPath candlesPath output .writeReport ↔
      Writable files (reportPath settings output) result.report := by
    rw [passes_writeReport_iff hprepared, hresult]
    exact ⟨fun h => h result rfl, fun h other hother => by cases hother; exact h⟩
  rw [outcome_bind]
  rcases writeReport_delivers_or_fails hs.2 (reportPath settings output) result.report with
    ⟨s', hwritable, hplaced, houtcome⟩ | ⟨failure, s', hblocked, hcode, houtcome⟩
  · rw [houtcome]
    rw [hfiles] at hwritable hplaced
    exact .reported (hbefore.all (hpasses.mpr hwritable)) hprepared hresult hplaced
  · rw [houtcome]
    rw [hfiles, ← hpasses] at hblocked
    exact .failed ⟨hblocked, hbefore⟩ hcode fun hne => absurd rfl hne

end

theorem performBacktest_ends (files : FileTree) (configPath : String)
    (strategyPath candlesPath output : Option String) :
    Ends files configPath strategyPath candlesPath output
      (outcome (performBacktest configPath strategyPath candlesPath output) (.start files)) := by
  unfold performBacktest
  refine ends_showLines ⟨rfl, rfl⟩ fun s hs => ?_
  have hnone : PassesBefore files configPath strategyPath candlesPath output
      Stage.readSettings.number := fun stage hlt => absurd hlt (Nat.not_lt_zero _)
  -- Stage by stage: each leaves the case in which it is the next one's turn, with what it has read.
  refine Settles.ends .readSettings (loadSettings_settles hs.files_eq configPath) hs
    hnone passes_readSettings_iff fun settings s hsettings hs hbefore => ?_
  refine Settles.ends .checkSettings (configOf_settles settings) hs hbefore
    (passes_checkSettings_iff hsettings) fun config s hconfig hs hbefore => ?_
  refine Settles.ends .readStrategy
    (loadOptionalStrategy_settles hs.files_eq strategyPath) hs hbefore
    (passes_readStrategy_iff hsettings hconfig) fun spec s hspec hs hbefore => ?_
  refine ends_showLines hs fun s hs => ?_
  rw [loadCandles, bind_assoc]
  refine Settles.ends .readCandles (readTable_settles hs.files_eq _) hs hbefore
    (passes_readCandles_iff hsettings hconfig hspec) fun rows s hrows hs hbefore => ?_
  have hchecks : Passes files configPath strategyPath candlesPath output .checkCandles ↔ _ :=
    passes_checkCandles_iff hsettings hconfig hspec hrows
  refine Settles.ends .checkCandles (usable_settles rows) hs hbefore ?_ ?_
  · rw [hchecks]
    exact ⟨fun husable => ⟨rows, husable, rfl⟩, fun ⟨_, husable, _⟩ => husable⟩
  rintro _ s ⟨husable, rfl⟩ hs hbefore
  have hprepared : Prepared files configPath strategyPath candlesPath settings config spec _ :=
    ⟨hsettings, hconfig, hspec, hrows, husable⟩
  -- Every stage but the last has passed; the run comes before anything is written.
  cases hresult : Backtester.backtest _ config spec with
  | error overflow => exact overflow_ends hs hbefore hprepared hresult
  | ok result =>
      refine ends_showLines hs fun s hs => ?_
      exact writeReport_ends hs hbefore hprepared hresult

/-- A failure is shown and gives the exit code; an overflow gives none. -/
theorem execute_run (command : Command) (s : Session) :
    (command.execute : StateM Session (Except Overflow ℕ)).run s =
      match outcome command.perform s with
      | (.ok (.ok ()), s') => (.ok 0, s')
      | (.ok (.error overflow), s') => (.error overflow, s')
      | (.error failure, s') =>
          (.ok failure.exitCode, s'.showLine ("error: " ++ failure.message)) := by
  unfold execute outcome
  rw [StateT.run_bind]
  rcases (command.perform : ExceptT Failure (StateM Session) (Except Overflow Unit)).run.run s with
    ⟨failure | overflow | value, s'⟩ <;> rfl

/-- Every backtest ends with the exit code of the first stage that fails.  If none does, it ends with
0, or in the overflow of its run.  A failure before the report leaves files and output as they were,
and so does an overflow; after a success the one thing put out is the report of the run, in the place
it was asked for. -/
theorem backtest_ends_at_first_failure (files : FileTree) (configPath : String)
    (strategyPath candlesPath output : Option String) :
    let run : Except Overflow ℕ × Session :=
      ((backtest configPath strategyPath candlesPath output).execute :
        StateM Session (Except Overflow ℕ)).run (.start files)
    (∀ stage, FailsFirst files configPath strategyPath candlesPath output stage →
      run.1 = .ok stage.exitCode) ∧
    ((∃ stage, FailsFirst files configPath strategyPath candlesPath output stage) ∨
      (∀ stage, Passes files configPath strategyPath candlesPath output stage) ∧
        (run.1 = .ok 0 ∨ ∃ overflow, run.1 = .error overflow ∧
          Overflows files configPath strategyPath candlesPath overflow)) ∧
    (run.1 ∈ [.ok 2, .ok 3, .ok 4, .ok 5] → run.2.files = files ∧ run.2.output = "") ∧
    (∀ overflow, run.1 = .error overflow → run.2.files = files ∧ run.2.output = "") ∧
    (run.1 = .ok 0 → ∃ settings config spec rows result,
      Prepared files configPath strategyPath candlesPath settings config spec rows ∧
        Backtester.backtest rows config spec = .ok result ∧
          Delivered files (reportPath settings output) result.report run.2) := by
  have hends := performBacktest_ends files configPath strategyPath candlesPath output
  dsimp only
  rw [execute_run]
  show _ ∧ _
  unfold perform
  generalize outcome (performBacktest configPath strategyPath candlesPath output) (.start files) =
    ended at hends
  cases hends with
  | failed hstage hcode hkept =>
      next stage failure s =>
      dsimp only
      refine ⟨fun other hother => ?_, Or.inl ⟨stage, hstage⟩, fun hmem => ?_, nofun,
        fun hzero => ?_⟩
      · rw [hother.unique hstage, hcode]
      · rw [hcode] at hmem
        -- Of these codes none is that of writing the report, where a folder may have been made.
        exact hkept (by rintro rfl; simp [Stage.exitCode] at hmem)
      · rw [hcode] at hzero
        cases stage <;> cases hzero
  | overflowed hall hoverflow hkept =>
      exact ⟨fun stage hstage => absurd (hall stage) hstage.hfails,
        Or.inr ⟨hall, Or.inr ⟨_, rfl, hoverflow⟩⟩, fun _ => hkept, fun _ _ => hkept,
        nofun⟩
  | reported hall hprepared hresult hplaced =>
      exact ⟨fun stage hstage => absurd (hall stage) hstage.hfails, Or.inr ⟨hall, Or.inl rfl⟩,
        fun hmem => by simp at hmem, nofun,
        fun _ => ⟨_, _, _, _, _, hprepared, hresult, hplaced⟩⟩

/-- Without a settings file nothing else is looked at. -/
example : FailsFirst FileTree.empty "run.ini" none none none .readSettings where
  hfails := by
    rintro ⟨settings, text, file, hread, -⟩
    cases hread
  hbefore := fun stage hlt => absurd hlt (Nat.not_lt_zero _)

end

end Command
end Backtester
