import ChatWire.Api.Client
import ChatWire.Bytes.Base64
import ChatWire.Bytes.Basic
import ChatWire.Bytes.Hex
import ChatWire.Cipher.Aes
import ChatWire.Cipher.Cbc
import ChatWire.Cipher.Error
import ChatWire.Cipher.Gcm
import ChatWire.CommandLine.Arguments
import ChatWire.CommandLine.Help
import ChatWire.CommandLine.Printing
import ChatWire.CommandLine.Run
import ChatWire.Config.Basic
import ChatWire.Cookie.Date
import ChatWire.Cookie.Jar
import ChatWire.Digest.Md5
import ChatWire.Envelope.Basic
import ChatWire.Envelope.Decode
import ChatWire.Frame.Basic
import ChatWire.Gzip.Member
import ChatWire.Http.Basic
import ChatWire.Json.Draft
import ChatWire.Json.Printer
import ChatWire.Json.Reading
import ChatWire.Listener.Basic
import ChatWire.Listener.Calls
import ChatWire.Listener.Error
import ChatWire.Listener.Events
import ChatWire.Listener.Reaction
import ChatWire.Listener.Step
import ChatWire.Mailbox.Basic
import ChatWire.Mailbox.Reception
import ChatWire.Main
import ChatWire.Message.Data
import ChatWire.Message.Item
import ChatWire.Params.Error
import ChatWire.Params.Key
import ChatWire.Params.Sealed
import ChatWire.Proofs.Api.Reply
import ChatWire.Proofs.Api.Sealing
import ChatWire.Proofs.Bytes.Base64
import ChatWire.Proofs.Bytes.Canonical
import ChatWire.Proofs.Cipher.Cbc
import ChatWire.Proofs.Cipher.Gcm
import ChatWire.Proofs.Cipher.Opening
import ChatWire.Proofs.Cipher.SecretText
import ChatWire.Proofs.CommandLine.Printing
import ChatWire.Proofs.CommandLine.Signing
import ChatWire.Proofs.Config.Saving
import ChatWire.Proofs.Envelope.Encodings
import ChatWire.Proofs.Envelope.Keyed
import ChatWire.Proofs.Envelope.Stages
import ChatWire.Proofs.Envelope.Wire
import ChatWire.Proofs.Json.Draft
import ChatWire.Proofs.Json.Lexical
import ChatWire.Proofs.Json.Meaning
import ChatWire.Proofs.Json.Reading
import ChatWire.Proofs.Listener.Delivery
import ChatWire.Proofs.Listener.Emission
import ChatWire.Proofs.Listener.Endpoints
import ChatWire.Proofs.Listener.Exclusion
import ChatWire.Proofs.Listener.Handling
import ChatWire.Proofs.Listener.Holding
import ChatWire.Proofs.Listener.Keeping
import ChatWire.Proofs.Listener.KeyDiscipline
import ChatWire.Proofs.Listener.Leading
import ChatWire.Proofs.Listener.Lifecycle
import ChatWire.Proofs.Listener.Notice
import ChatWire.Proofs.Listener.Numbering
import ChatWire.Proofs.Listener.Possession
import ChatWire.Proofs.Listener.Queues
import ChatWire.Proofs.Listener.Quiet
import ChatWire.Proofs.Listener.Reaction
import ChatWire.Proofs.Listener.Rejection
import ChatWire.Proofs.Listener.Reopening
import ChatWire.Proofs.Listener.Routing
import ChatWire.Proofs.Listener.Spending
import ChatWire.Proofs.Listener.Station
import ChatWire.Proofs.Listener.Steady
import ChatWire.Proofs.Listener.Steps
import ChatWire.Proofs.Listener.Stillness
import ChatWire.Proofs.Listener.Story
import ChatWire.Proofs.Listener.Succession
import ChatWire.Proofs.Listener.Tracking
import ChatWire.Proofs.Listener.Walk
import ChatWire.Proofs.Mailbox.Accounting
import ChatWire.Proofs.Mailbox.Waking
import ChatWire.Proofs.Message.Item
import ChatWire.Proofs.Message.NormalForm
import ChatWire.Proofs.Outcome
import ChatWire.Proofs.Params.Arrangement
import ChatWire.Proofs.Params.Layout
import ChatWire.Proofs.Params.Sealed
import ChatWire.Proofs.Retry.Rationing
import ChatWire.Proofs.Session.Build
import ChatWire.Proofs.Session.Handshake
import ChatWire.Proofs.Session.MakeUrl
import ChatWire.Proofs.Socket.Scheme
import ChatWire.Proofs.Task.Record
import ChatWire.Proofs.Text.Lossy
import ChatWire.Proofs.Text.Order
import ChatWire.Proofs.Text.Percent
import ChatWire.Proofs.Text.Utf8
import ChatWire.Proofs.Transport.Order
import ChatWire.Proofs.Transport.Reporting
import ChatWire.Proofs.Transport.Steps
import ChatWire.Proofs.Url.Form
import ChatWire.Proofs.Url.Marks
import ChatWire.Proofs.Url.Neat
import ChatWire.Proofs.Url.Query
import ChatWire.Proofs.Url.Reread
import ChatWire.Proofs.Url.Special
import ChatWire.Retry.Policy
import ChatWire.Retry.Rotation
import ChatWire.Session.Basic
import ChatWire.Session.Handshake
import ChatWire.Socket.Basic
import ChatWire.Socket.Scheme
import ChatWire.Socket.Uri
import ChatWire.Task.Cancellation
import ChatWire.Task.Schedule
import ChatWire.Task.Tracker
import ChatWire.Text.Lossy
import ChatWire.Text.Percent
import ChatWire.Transport.Basic
import ChatWire.Transport.Exchange
import ChatWire.Transport.Tasks
import ChatWire.Url.Basic
import ChatWire.Url.Parser
