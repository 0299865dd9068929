import Backtester.Main
import Backtester.Proofs.Acceptance
import Backtester.Proofs.AcceptedSettings
import Backtester.Proofs.Accounting
import Backtester.Proofs.Balance
import Backtester.Proofs.CommandStages
import Backtester.Proofs.Drawdowns
import Backtester.Proofs.Durations
import Backtester.Proofs.Fallback
import Backtester.Proofs.FiniteResults
import Backtester.Proofs.FlatReturns
import Backtester.Proofs.LoadedCandles
import Backtester.Proofs.MetricsTable
import Backtester.Proofs.NoLookAhead
import Backtester.Proofs.Opposites
import Backtester.Proofs.Outcomes
import Backtester.Proofs.PrintedConditions
import Backtester.Proofs.ReadingPositions
import Backtester.Proofs.ReportTexts
import Backtester.Proofs.RiskLimits
import Backtester.Proofs.RowNumbers
import Backtester.Proofs.RuleForms
import Backtester.Proofs.TrailingStop
import Backtester.Proofs.UnitFree
import Backtester.Proofs.UsableCandles
import Backtester.Proofs.UsableRules
import Backtester.Proofs.WarmUp
import Backtester.Proofs.ExactIndicators
import Backtester.Proofs.IndicatorRanges
import Backtester.Proofs.CandleTables
import Backtester.Proofs.CaretColumns
import Backtester.Proofs.RatioSigns
import Backtester.Proofs.StrategyTexts
import Backtester.Proofs.IndicatorTables
import Backtester.Proofs.StopPercentages
import Backtester.Proofs.CalendarDays
import Backtester.Proofs.TimeTexts
