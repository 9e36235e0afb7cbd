import EpochRollup.Main
import EpochRollup.Monitor.Family
import EpochRollup.Monitor.Http
import EpochRollup.Proofs.Admitted
import EpochRollup.Proofs.Agreement
import EpochRollup.Proofs.Catalogue
import EpochRollup.Proofs.Counters
import EpochRollup.Proofs.Covered
import EpochRollup.Proofs.DailyRetention
import EpochRollup.Proofs.DailyRows
import EpochRollup.Proofs.DayBuckets
import EpochRollup.Proofs.DayClosing
import EpochRollup.Proofs.DayMadeUp
import EpochRollup.Proofs.Drop
import EpochRollup.Proofs.FailedPass
import EpochRollup.Proofs.HourlyRetention
import EpochRollup.Proofs.HourlyRows
import EpochRollup.Proofs.Idempotent
import EpochRollup.Proofs.Levels
import EpochRollup.Proofs.NeededHours
import EpochRollup.Proofs.Progress
import EpochRollup.Proofs.Reclaim
import EpochRollup.Proofs.Reports
import EpochRollup.Proofs.RoundTrip
import EpochRollup.Proofs.SavedSettings
import EpochRollup.Proofs.Splitting
import EpochRollup.Proofs.Startup
import EpochRollup.Proofs.Transaction
import EpochRollup.Proofs.Window
import EpochRollup.Proofs.Words
import EpochRollup.Sql.Schema
