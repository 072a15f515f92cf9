import ServiceKit.Base64Url
import ServiceKit.Config
import ServiceKit.Digest.Blake2b
import ServiceKit.Digest.Identifier
import ServiceKit.Duration
import ServiceKit.Env.File
import ServiceKit.Env.Reader
import ServiceKit.Env.Reading
import ServiceKit.Environment
import ServiceKit.Error
import ServiceKit.Freshness
import ServiceKit.Key
import ServiceKit.Lifecycle.Happening
import ServiceKit.Lifecycle.Hook
import ServiceKit.Lifecycle.Manager
import ServiceKit.Lifecycle.Mock
import ServiceKit.Lifecycle.Report
import ServiceKit.Lifecycle.Run
import ServiceKit.Lifecycle.Scenario
import ServiceKit.Lifecycle.Signal
import ServiceKit.Lifecycle.World
import ServiceKit.Logging.Filter
import ServiceKit.Logging.Level
import ServiceKit.Logging.Output
import ServiceKit.Logging.Record
import ServiceKit.Logging.Session
import ServiceKit.Logging.Settings
import ServiceKit.Logging.Severity
import ServiceKit.Number.Binary64
import ServiceKit.Number.Decimal
import ServiceKit.Number.Numeral
import ServiceKit.Proofs.Base64Url.Language
import ServiceKit.Proofs.Base64Url.RoundTrip
import ServiceKit.Proofs.Configuration
import ServiceKit.Proofs.Digest.Form
import ServiceKit.Proofs.Env.Agreement
import ServiceKit.Proofs.Env.Edits
import ServiceKit.Proofs.Env.Filling
import ServiceKit.Proofs.Env.Integers
import ServiceKit.Proofs.Env.Items
import ServiceKit.Proofs.Env.Lines
import ServiceKit.Proofs.Env.Reader
import ServiceKit.Proofs.Freshness
import ServiceKit.Proofs.Lifecycle.Abandonment
import ServiceKit.Proofs.Lifecycle.Account
import ServiceKit.Proofs.Lifecycle.Balance
import ServiceKit.Proofs.Lifecycle.Called
import ServiceKit.Proofs.Lifecycle.Calls
import ServiceKit.Proofs.Lifecycle.Change
import ServiceKit.Proofs.Lifecycle.Closing
import ServiceKit.Proofs.Lifecycle.Completion
import ServiceKit.Proofs.Lifecycle.Counting
import ServiceKit.Proofs.Lifecycle.Course
import ServiceKit.Proofs.Lifecycle.Delivery
import ServiceKit.Proofs.Lifecycle.Dispatch
import ServiceKit.Proofs.Lifecycle.Expiry
import ServiceKit.Proofs.Lifecycle.Fate
import ServiceKit.Proofs.Lifecycle.Forgetting
import ServiceKit.Proofs.Lifecycle.Handover
import ServiceKit.Proofs.Lifecycle.History
import ServiceKit.Proofs.Lifecycle.Independence
import ServiceKit.Proofs.Lifecycle.Inevitable
import ServiceKit.Proofs.Lifecycle.Law
import ServiceKit.Proofs.Lifecycle.Managing
import ServiceKit.Proofs.Lifecycle.MendedRuns
import ServiceKit.Proofs.Lifecycle.Mending
import ServiceKit.Proofs.Lifecycle.Mocks
import ServiceKit.Proofs.Lifecycle.Naming
import ServiceKit.Proofs.Lifecycle.Panics
import ServiceKit.Proofs.Lifecycle.Pending
import ServiceKit.Proofs.Lifecycle.Plan
import ServiceKit.Proofs.Lifecycle.Punctual
import ServiceKit.Proofs.Lifecycle.Ready
import ServiceKit.Proofs.Lifecycle.Recorded
import ServiceKit.Proofs.Lifecycle.Recording
import ServiceKit.Proofs.Lifecycle.Reporting
import ServiceKit.Proofs.Lifecycle.Scenarios
import ServiceKit.Proofs.Lifecycle.SetUps
import ServiceKit.Proofs.Lifecycle.Sound
import ServiceKit.Proofs.Lifecycle.Stage
import ServiceKit.Proofs.Lifecycle.Work
import ServiceKit.Proofs.Lifecycle.Worlds
import ServiceKit.Proofs.Logging.BareLevel
import ServiceKit.Proofs.Logging.Building
import ServiceKit.Proofs.Logging.Changing
import ServiceKit.Proofs.Logging.Names
import ServiceKit.Proofs.Number.Exact
import ServiceKit.Proofs.Number.Integer
import ServiceKit.Proofs.Number.Numeral
import ServiceKit.Proofs.Number.Power
import ServiceKit.Proofs.Number.Rounding
import ServiceKit.Proofs.Number.WholePart
import ServiceKit.Proofs.Rejection
import ServiceKit.Proofs.Retry.Backoff
import ServiceKit.Proofs.Retry.Doubling
import ServiceKit.Proofs.Retry.Execution
import ServiceKit.Proofs.Retry.Interval
import ServiceKit.Proofs.Retry.Limits
import ServiceKit.Proofs.Retry.Polling
import ServiceKit.Proofs.Text.Quoted
import ServiceKit.Proofs.Text.Trim
import ServiceKit.Proofs.Text.Utf8
import ServiceKit.Proofs.Token
import ServiceKit.Retry.Execute
import ServiceKit.Retry.Policy
import ServiceKit.Retry.Readiness
import ServiceKit.Samples
import ServiceKit.Storage
import ServiceKit.Text.Blank
import ServiceKit.Text.Pieces
import ServiceKit.Text.Quoted
import ServiceKit.Text.Utf8
import ServiceKit.Text.Visible
import ServiceKit.Token
