import DnsClient.Cell.Calls
import DnsClient.Cursor.Ops
import DnsClient.Engine.Settle
import DnsClient.Simulation.Session
import DnsClient.Proofs.Cell.Callbacks
import DnsClient.Proofs.Schedule.Live
import DnsClient.Proofs.Schedule.DeadlineMap
import DnsClient.Proofs.Name.Expansion
import DnsClient.Proofs.Cursor.Bounds
import DnsClient.Proofs.Name.Representation
import DnsClient.Proofs.Name.Comparison
import DnsClient.Proofs.Name.Grammar
import DnsClient.Proofs.Name.Presentation
import DnsClient.Proofs.Message.Pushing
import DnsClient.Proofs.Message.Reading
import DnsClient.Proofs.Message.Composition
import DnsClient.Proofs.Message.Fields
import DnsClient.Proofs.Message.Request
import DnsClient.Proofs.Message.Answer
import DnsClient.Proofs.Message.Truncation
import DnsClient.Proofs.Text.Words
import DnsClient.Proofs.Address.Presentation
import DnsClient.Proofs.ResolvConf.Attainable
import DnsClient.Proofs.ResolvConf.RoundTrip
import DnsClient.Proofs.ResolvConf.Sayings
import DnsClient.Proofs.ResolvConf.ForeignOptions
import DnsClient.Proofs.Query.Trace
import DnsClient.Proofs.Query.Stream
import DnsClient.Proofs.Query.Attempt
import DnsClient.Proofs.Query.Visits
import DnsClient.Proofs.Query.Order
import DnsClient.Proofs.Query.Response
import DnsClient.Proofs.Query.RequestFrame
import DnsClient.Proofs.Query.ReplyFrame
import DnsClient.Proofs.Query.Account
import DnsClient.Proofs.Query.Holdings
import DnsClient.Proofs.Query.Arming
import DnsClient.Proofs.Query.Failures
import DnsClient.Proofs.Query.Lockstep
import DnsClient.Proofs.Query.Fallback
import DnsClient.Proofs.Query.Stage
import DnsClient.Proofs.Query.Retry
import DnsClient.Proofs.Engine.Course
import DnsClient.Proofs.Engine.Deeds
import DnsClient.Proofs.Engine.Tracking
import DnsClient.Proofs.Engine.Outcome
import DnsClient.Proofs.Engine.Submission
import DnsClient.Proofs.Engine.Response
import DnsClient.Proofs.Engine.Deadlines
import DnsClient.Proofs.Engine.Expiry
import DnsClient.Proofs.Engine.Shutdown
import DnsClient.Proofs.Engine.Lives
import DnsClient.Proofs.Engine.Balance
import DnsClient.Proofs.Engine.Notification
import DnsClient.Proofs.Engine.Isolation
import DnsClient.Proofs.Engine.Wakefulness
import DnsClient.Proofs.Engine.Sharing
import DnsClient.Proofs.Stub.Selection
