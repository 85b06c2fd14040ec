import RpcConformance.Bytes
import RpcConformance.Call.Context
import RpcConformance.Call.Event
import RpcConformance.Call.Inbound
import RpcConformance.Call.Sink
import RpcConformance.Client.Call
import RpcConformance.Client.EndStream
import RpcConformance.Client.Exchange
import RpcConformance.Client.Feed
import RpcConformance.Client.InProcess
import RpcConformance.Client.Link
import RpcConformance.Client.Options
import RpcConformance.Client.Remote
import RpcConformance.Client.Transport
import RpcConformance.Config
import RpcConformance.Duration
import RpcConformance.Envelope.Basic
import RpcConformance.Envelope.Decoder
import RpcConformance.Handler.Basic
import RpcConformance.Handler.Plan
import RpcConformance.Header.Map
import RpcConformance.Http.Message
import RpcConformance.Http.Reason
import RpcConformance.Http.Uri
import RpcConformance.Json.Basic
import RpcConformance.Json.Lemmas
import RpcConformance.Json.Reader
import RpcConformance.Limit
import RpcConformance.Message.Basic
import RpcConformance.Message.Binary
import RpcConformance.Message.Codec
import RpcConformance.Message.Json
import RpcConformance.Metadata.Basic
import RpcConformance.Metadata.Header
import RpcConformance.Metadata.Json
import RpcConformance.Metadata.Key
import RpcConformance.Method
import RpcConformance.Proofs.Call.Inbound
import RpcConformance.Proofs.Client.Answered
import RpcConformance.Proofs.Client.BreakOff
import RpcConformance.Proofs.Client.CleanEnd
import RpcConformance.Proofs.Client.ConnectUnary
import RpcConformance.Proofs.Client.ControlFields
import RpcConformance.Proofs.Client.Drained
import RpcConformance.Proofs.Client.EndStream
import RpcConformance.Proofs.Client.EventOrder
import RpcConformance.Proofs.Client.Exchange
import RpcConformance.Proofs.Client.FailureCode
import RpcConformance.Proofs.Client.Head
import RpcConformance.Proofs.Client.Interrupted
import RpcConformance.Proofs.Client.OnlyResponse
import RpcConformance.Proofs.Client.Outcome
import RpcConformance.Proofs.Client.OwnEnd
import RpcConformance.Proofs.Client.RequestMetadata
import RpcConformance.Proofs.Client.Requests
import RpcConformance.Proofs.Client.Shown
import RpcConformance.Proofs.Client.Surfaced
import RpcConformance.Proofs.Client.Transparency
import RpcConformance.Proofs.Client.Unary
import RpcConformance.Proofs.Client.WebEnd
import RpcConformance.Proofs.Envelope.Calls
import RpcConformance.Proofs.Envelope.Declared
import RpcConformance.Proofs.Envelope.Decoder
import RpcConformance.Proofs.Envelope.Framing
import RpcConformance.Proofs.Envelope.Held
import RpcConformance.Proofs.Envelope.OnePass
import RpcConformance.Proofs.Handler.Gathering
import RpcConformance.Proofs.Handler.Pace
import RpcConformance.Proofs.Handler.Script
import RpcConformance.Proofs.Http.Content
import RpcConformance.Proofs.Json.Number
import RpcConformance.Proofs.Json.RoundTrip
import RpcConformance.Proofs.Message.Binary
import RpcConformance.Proofs.Message.Codec
import RpcConformance.Proofs.Message.Json
import RpcConformance.Proofs.Message.Schema
import RpcConformance.Proofs.Metadata.BinaryText
import RpcConformance.Proofs.Metadata.Grouping
import RpcConformance.Proofs.Metadata.Header
import RpcConformance.Proofs.Metadata.Json
import RpcConformance.Proofs.Metadata.Marked
import RpcConformance.Proofs.Metadata.Reserved
import RpcConformance.Proofs.Metadata.Sorted
import RpcConformance.Proofs.Metadata.Values
import RpcConformance.Proofs.Scenario.Verdict
import RpcConformance.Proofs.Server.Framing
import RpcConformance.Proofs.Server.Messages
import RpcConformance.Proofs.Server.Response
import RpcConformance.Proofs.Server.Route
import RpcConformance.Proofs.Server.Stray
import RpcConformance.Proofs.Service.Aggregate
import RpcConformance.Proofs.Service.Deadline
import RpcConformance.Proofs.Service.Duplex
import RpcConformance.Proofs.Service.Echo
import RpcConformance.Proofs.Service.Expansion
import RpcConformance.Proofs.Session.Account
import RpcConformance.Proofs.Session.Answering
import RpcConformance.Proofs.Session.Completion
import RpcConformance.Proofs.Session.Course
import RpcConformance.Proofs.Session.Deadline
import RpcConformance.Proofs.Session.Events
import RpcConformance.Proofs.Session.History
import RpcConformance.Proofs.Session.Move
import RpcConformance.Proofs.Session.Received
import RpcConformance.Proofs.Session.Run
import RpcConformance.Proofs.Session.Within
import RpcConformance.Proofs.Text.Ascii
import RpcConformance.Proofs.Text.Base64
import RpcConformance.Proofs.Text.Escape
import RpcConformance.Proofs.Text.Order
import RpcConformance.Proofs.Text.RoundTrip
import RpcConformance.Proofs.Text.Trim
import RpcConformance.Proofs.Timeout
import RpcConformance.Proofs.Timeout.Grammar
import RpcConformance.Proofs.Timeout.Rounding
import RpcConformance.Proofs.Trailers
import RpcConformance.Proofs.Trailers.Block
import RpcConformance.Proofs.Trailers.Lines
import RpcConformance.Proofs.Trailers.Outcome
import RpcConformance.Proofs.Wire.RoundTrip
import RpcConformance.Protocol
import RpcConformance.Scenario.Library
import RpcConformance.Scenario.Report
import RpcConformance.Scenario.Shown
import RpcConformance.Scenario.Suite
import RpcConformance.Scenario.Trial
import RpcConformance.Server.Request
import RpcConformance.Server.Response
import RpcConformance.Server.Router
import RpcConformance.Service.Basic
import RpcConformance.Service.Reference
import RpcConformance.Session.Basic
import RpcConformance.Session.Clock
import RpcConformance.Session.Settle
import RpcConformance.Session.Transcript
import RpcConformance.Status.Basic
import RpcConformance.Status.Code
import RpcConformance.Text.Base64
import RpcConformance.Text.Decimal
import RpcConformance.Text.HiddenTable
import RpcConformance.Text.Lossy
import RpcConformance.Text.Percent
import RpcConformance.Text.Quoted
import RpcConformance.Text.Space
import RpcConformance.Timeout
import RpcConformance.Trailers
import RpcConformance.Wire.Field
import RpcConformance.Wire.Varint
