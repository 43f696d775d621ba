import FlagKit.Machine.Run
import FlagKit.Eval.Bucket
import FlagKit.Numeric.F64
import FlagKit.Numeric.Binary64
import FlagKit.Numeric.OrderStat
import FlagKit.Lifecycle.HighWater
import FlagKit.Lifecycle.GatedAdvance
import FlagKit.Gate.Health
import FlagKit.Gate.Climb
import FlagKit.Gate.Controller
import FlagKit.Gate.Tracks
import FlagKit.Gate.Verdicts
import FlagKit.Gate.Agreement
import FlagKit.Gate.Promotion
import FlagKit.Gate.Reclimb
import FlagKit.Gate.Worse
import FlagKit.Gate.Restart
import FlagKit.Gate.Cohort
import FlagKit.Eval.Evaluator
import FlagKit.Store.Memory
import FlagKit.Eval.Paths
import FlagKit.Sql.Table
import FlagKit.Store.Sqlite
import FlagKit.Store.Interchange
import FlagKit.Store.Visible
import FlagKit.Store.Reads
import FlagKit.Gate.Percentile
import FlagKit.Gate.Unusable
import FlagKit.Json.Derive
import FlagKit.Wire.Admission
import FlagKit.Wire.Context
import FlagKit.Wire.Bulk
import FlagKit.Store.Shards
import FlagKit.Eval.Snapshot
import FlagKit.Numeric.Fnv
import FlagKit.Text.Bytes
import FlagKit.Text.Trim
import FlagKit.Wire.Etag
import FlagKit.Wire.IfNoneMatch
import FlagKit.Gate.Streak
import FlagKit.Lifecycle.Staleness
import FlagKit.Sql.OrderBy
import FlagKit.Store.Audit
import FlagKit.Store.Instant
import FlagKit.Machine.Balance
import FlagKit.Gate.Accounts
import FlagKit.Gate.Earned
import FlagKit.Gate.Explained
import FlagKit.Gate.Resumed
import FlagKit.Gate.Subjects
import FlagKit.Gate.Tolerance
import FlagKit.Lifecycle.Persistence
import FlagKit.Eval.Draw
import FlagKit.Machine.LastWrite
import FlagKit.Store.History
import FlagKit.Store.Readers
import FlagKit.Wire.Received
import FlagKit.Numeric.Residue
import FlagKit.Wire.Flags
import FlagKit.Wire.Messages
import FlagKit.Wire.Readings
import FlagKit.Wire.Revalidation
import FlagKit.Store.Database
import FlagKit.Gate.Standard
import FlagKit.Lifecycle.Thresholds
import FlagKit.Machine.Lock
import FlagKit.Store.AnyTable
import FlagKit.Store.Calls
import FlagKit.Lifecycle.Redelivery
import FlagKit.Gate.Rounding
