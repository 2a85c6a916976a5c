import Turnstile.Bytes
import Turnstile.Config.Basic
import Turnstile.Config.Environment
import Turnstile.Digest.Sha1
import Turnstile.Digest.Sha256
import Turnstile.Event.Basic
import Turnstile.Event.Log
import Turnstile.Http.Address
import Turnstile.Http.Body
import Turnstile.Http.Caller
import Turnstile.Http.Headers
import Turnstile.Http.MediaType
import Turnstile.Http.Message
import Turnstile.Http.Method
import Turnstile.Http.Percent
import Turnstile.Identity.Resolver
import Turnstile.Identity.WebKey
import Turnstile.Identity.WebToken
import Turnstile.Json.Reader
import Turnstile.Json.Token
import Turnstile.Json.Value
import Turnstile.Json.Writer
import Turnstile.Key.Operation
import Turnstile.Key.Window
import Turnstile.Limiter
import Turnstile.Once.Config
import Turnstile.Once.Execute
import Turnstile.Program
import Turnstile.Proofs.Config.Forms
import Turnstile.Proofs.Config.Reading
import Turnstile.Proofs.Http.Buffering
import Turnstile.Proofs.Json.RoundTrip
import Turnstile.Proofs.Key.Operation
import Turnstile.Proofs.Limiter.Conduct
import Turnstile.Proofs.Limiter.Limit
import Turnstile.Proofs.Limiter.Namespaces
import Turnstile.Proofs.Limiter.Readmission
import Turnstile.Proofs.Limiter.Remaining
import Turnstile.Proofs.Limiter.Retry
import Turnstile.Proofs.Once.AtMostOnce
import Turnstile.Proofs.Once.Callers
import Turnstile.Proofs.Once.Calm
import Turnstile.Proofs.Once.Conduct
import Turnstile.Proofs.Once.Custody
import Turnstile.Proofs.Once.Epoch
import Turnstile.Proofs.Once.Exclusion
import Turnstile.Proofs.Once.Exits
import Turnstile.Proofs.Once.Lookup
import Turnstile.Proofs.Once.LostWrite
import Turnstile.Proofs.Once.Provenance
import Turnstile.Proofs.Once.Recordable
import Turnstile.Proofs.Once.Recording
import Turnstile.Proofs.Once.Records
import Turnstile.Proofs.Once.Release
import Turnstile.Proofs.Once.Stranded
import Turnstile.Proofs.Record.RoundTrip
import Turnstile.Proofs.Record.StoredText
import Turnstile.Proofs.Redis.Expiry
import Turnstile.Proofs.Run.Account
import Turnstile.Proofs.Run.Border
import Turnstile.Proofs.Run.Calls
import Turnstile.Proofs.Run.Calm
import Turnstile.Proofs.Run.Chronicle
import Turnstile.Proofs.Run.Conduct
import Turnstile.Proofs.Run.Endurance
import Turnstile.Proofs.Run.Ledger
import Turnstile.Proofs.Run.Path
import Turnstile.Proofs.Run.Prompt
import Turnstile.Proofs.Run.Remains
import Turnstile.Proofs.Run.Separation
import Turnstile.Proofs.Service.AdminView
import Turnstile.Proofs.Service.Bypass
import Turnstile.Proofs.Service.Charging
import Turnstile.Proofs.Service.Conduct
import Turnstile.Proofs.Service.Fidelity
import Turnstile.Proofs.Service.Independence
import Turnstile.Proofs.Service.Labels
import Turnstile.Proofs.Service.Passage
import Turnstile.Proofs.Service.Range
import Turnstile.Proofs.Service.Refusal
import Turnstile.Proofs.Service.Shown
import Turnstile.Proofs.Service.Visitors
import Turnstile.Proofs.Store.Bumping
import Turnstile.Proofs.Store.Charging
import Turnstile.Proofs.Store.Counting
import Turnstile.Proofs.Store.ExpiringMaps
import Turnstile.Proofs.Store.Forgetting
import Turnstile.Proofs.Store.History
import Turnstile.Proofs.Store.PlainHistory
import Turnstile.Proofs.Store.Purging
import Turnstile.Proofs.Store.Reach
import Turnstile.Proofs.Store.Reclaiming
import Turnstile.Proofs.Store.Room
import Turnstile.Proofs.Store.Sight
import Turnstile.Proofs.Store.Sliding
import Turnstile.Proofs.Time.Calendar
import Turnstile.Proofs.Time.Rfc3339
import Turnstile.Proofs.Time.Timestamp
import Turnstile.Record.Basic
import Turnstile.Record.Text
import Turnstile.Redis.Reply
import Turnstile.Redis.Score
import Turnstile.Redis.Store
import Turnstile.Run.Clocks
import Turnstile.Run.Fault
import Turnstile.Run.Schedule
import Turnstile.Run.Session
import Turnstile.Run.Task
import Turnstile.Run.World
import Turnstile.Service.Administration
import Turnstile.Service.Admission
import Turnstile.Service.App
import Turnstile.Service.ErrorLog
import Turnstile.Service.Failure
import Turnstile.Service.Payment
import Turnstile.Service.Throttle
import Turnstile.Store.Basic
import Turnstile.Store.Local
import Turnstile.Store.Sweeper
import Turnstile.Store.Table
import Turnstile.Store.Window
import Turnstile.Text.Base64Url
import Turnstile.Text.Binary64
import Turnstile.Text.Blank
import Turnstile.Text.Decimal
import Turnstile.Text.Lossy
import Turnstile.Text.Parts
import Turnstile.Text.Upper
import Turnstile.Time.Calendar
import Turnstile.Time.Moment
import Turnstile.Time.Rfc3339
import Turnstile.Time.Span
import Turnstile.Time.Timestamp
