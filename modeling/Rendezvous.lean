import Rendezvous.Call.Hangup
import Rendezvous.Call.Outcome
import Rendezvous.Call.Payload
import Rendezvous.Clock
import Rendezvous.Collaborator.Client
import Rendezvous.Collaborator.Log
import Rendezvous.Collaborator.Url
import Rendezvous.Config
import Rendezvous.Crypto.Aes
import Rendezvous.Crypto.Block
import Rendezvous.Crypto.Gcm
import Rendezvous.Crypto.Sha3
import Rendezvous.Deployment
import Rendezvous.Dictionary
import Rendezvous.Fault
import Rendezvous.Http.Endpoint
import Rendezvous.Http.MediaType
import Rendezvous.Http.Message
import Rendezvous.Http.Reason
import Rendezvous.Http.Route
import Rendezvous.Http.Server
import Rendezvous.Json.Fault
import Rendezvous.Json.Literal
import Rendezvous.Json.Reader
import Rendezvous.Json.Record
import Rendezvous.Json.Scan
import Rendezvous.Json.Value
import Rendezvous.Meeting.Basic
import Rendezvous.Meeting.Draft
import Rendezvous.Meeting.Identifier
import Rendezvous.Meeting.Sample
import Rendezvous.Meeting.Wire
import Rendezvous.Metrics.Event
import Rendezvous.Metrics.Series
import Rendezvous.Numeral.Binary64
import Rendezvous.Numeral.Bounded
import Rendezvous.Numeral.Decimal
import Rendezvous.Numeral.Hexadecimal
import Rendezvous.Numeral.Positional
import Rendezvous.Numeral.Shortest
import Rendezvous.Program
import Rendezvous.Proofs.Collaborator.Client
import Rendezvous.Proofs.Crypto.Aes
import Rendezvous.Proofs.Crypto.Authentication
import Rendezvous.Proofs.Crypto.Block
import Rendezvous.Proofs.Crypto.Field
import Rendezvous.Proofs.Crypto.Gcm
import Rendezvous.Proofs.Equivalence.Actions
import Rendezvous.Proofs.Equivalence.Agreement
import Rendezvous.Proofs.Equivalence.Command
import Rendezvous.Proofs.Equivalence.Run
import Rendezvous.Proofs.Http.Absence
import Rendezvous.Proofs.Http.Path
import Rendezvous.Proofs.Http.Rejection
import Rendezvous.Proofs.Interleaving.Attainable
import Rendezvous.Proofs.Interleaving.Conduct
import Rendezvous.Proofs.Interleaving.Contents
import Rendezvous.Proofs.Interleaving.Endurance
import Rendezvous.Proofs.Interleaving.Exchange
import Rendezvous.Proofs.Interleaving.Lifecycle
import Rendezvous.Proofs.Interleaving.Past
import Rendezvous.Proofs.Interleaving.Survey
import Rendezvous.Proofs.Interleaving.System
import Rendezvous.Proofs.Isolation.Address
import Rendezvous.Proofs.Isolation.Attendance
import Rendezvous.Proofs.Isolation.Lockstep
import Rendezvous.Proofs.Isolation.Projection
import Rendezvous.Proofs.Isolation.Slot
import Rendezvous.Proofs.Json.Quoting
import Rendezvous.Proofs.Metrics.Counter
import Rendezvous.Proofs.Metrics.Tally
import Rendezvous.Proofs.Sequence.Answers
import Rendezvous.Proofs.Sequence.Counters
import Rendezvous.Proofs.Sequence.Course
import Rendezvous.Proofs.Sequence.Failures
import Rendezvous.Proofs.Sequence.Queue
import Rendezvous.Proofs.Sequence.Redelivery
import Rendezvous.Proofs.Service.Attachment
import Rendezvous.Proofs.Service.Counts
import Rendezvous.Proofs.Service.Creation
import Rendezvous.Proofs.Service.Heedless
import Rendezvous.Proofs.Service.Invitation
import Rendezvous.Proofs.Service.Resolution
import Rendezvous.Proofs.Service.Results
import Rendezvous.Proofs.Service.Sweeps
import Rendezvous.Proofs.Service.Transcript
import Rendezvous.Proofs.ShortCode.Decoding
import Rendezvous.Proofs.Store.Chats
import Rendezvous.Proofs.Store.Correspondence
import Rendezvous.Proofs.Store.Expiry
import Rendezvous.Proofs.Store.History
import Rendezvous.Proofs.Store.Inclusion
import Rendezvous.Proofs.Store.Ledger
import Rendezvous.Proofs.Store.Memory
import Rendezvous.Proofs.Store.Retention
import Rendezvous.Proofs.Text.Base64Url
import Rendezvous.Proofs.Text.Blank
import Rendezvous.Proofs.Text.UrlSafe
import Rendezvous.Proofs.Text.Utf8
import Rendezvous.Proofs.Token.Redemption
import Rendezvous.Proofs.Token.Tampering
import Rendezvous.Service.Background
import Rendezvous.Service.Basic
import Rendezvous.Service.Health
import Rendezvous.Service.Lifecycle
import Rendezvous.ShortCode.Base62
import Rendezvous.ShortCode.Basic
import Rendezvous.ShortCode.Permutation
import Rendezvous.Store.Database
import Rendezvous.Store.Memory
import Rendezvous.Store.Operation
import Rendezvous.Text.Base64Url
import Rendezvous.Text.Blank
import Rendezvous.Text.Combining
import Rendezvous.Text.Ignorable
import Rendezvous.Text.Percent
import Rendezvous.Text.Quoted
import Rendezvous.Text.Secret
import Rendezvous.Text.Unprintable
import Rendezvous.Text.Utf8
import Rendezvous.Token.Basic
import Rendezvous.Proofs.Json.Literals
import Rendezvous.Proofs.Json.Reading
import Rendezvous.Proofs.Json.Records
import Rendezvous.Proofs.Json.Skipping
import Rendezvous.Proofs.Json.Values
import Rendezvous.Proofs.Call.Details
import Rendezvous.Proofs.Call.Event
import Rendezvous.Proofs.Numeral.Rounding
import Rendezvous.Proofs.Numeral.Scaling
import Rendezvous.Proofs.Numeral.Shortest
import Rendezvous.Proofs.Json.Reals
import Rendezvous.Proofs.Call.Encodings
import Rendezvous.Proofs.ShortCode.Codes
import Rendezvous.Proofs.Token.Spelling
import Rendezvous.Proofs.Json.Spelling
import Rendezvous.Proofs.Meeting.Wire
import Rendezvous.Proofs.Text.Percent
import Rendezvous.Proofs.Collaborator.Url
import Rendezvous.Proofs.Collaborator.Address
import Rendezvous.Proofs.Http.Template
import Rendezvous.Proofs.Metrics.Entries
import Rendezvous.Proofs.Http.Cardinality
import Rendezvous.Proofs.Numeral.Bounded
import Rendezvous.Proofs.Config
import Rendezvous.Proofs.Isolation.Agreement
import Rendezvous.Proofs.Sequence.Reading
import Rendezvous.Proofs.Meeting.Identifier
