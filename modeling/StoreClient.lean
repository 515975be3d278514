import StoreClient.Batch
import StoreClient.Batch.Commands
import StoreClient.Batch.Event
import StoreClient.Bytes
import StoreClient.Bytes.Hex
import StoreClient.Cause
import StoreClient.ClientError
import StoreClient.Command
import StoreClient.Command.Delete
import StoreClient.Command.Fetch
import StoreClient.Command.ListKeys
import StoreClient.Command.Request
import StoreClient.Command.Store
import StoreClient.Command.Verb
import StoreClient.Command.Words
import StoreClient.Config
import StoreClient.Coordinator
import StoreClient.Coordinator.Progress
import StoreClient.Decimal.Shortest
import StoreClient.Decimal.Text
import StoreClient.Document
import StoreClient.Document.Json
import StoreClient.Document.Record
import StoreClient.Frame
import StoreClient.Handle
import StoreClient.Handle.Program
import StoreClient.Handle.Termination
import StoreClient.Handle.World
import StoreClient.Identity
import StoreClient.Identity.Record
import StoreClient.Json
import StoreClient.Json.Reader
import StoreClient.Listener
import StoreClient.Log
import StoreClient.Message
import StoreClient.Notice
import StoreClient.Observer
import StoreClient.Operation
import StoreClient.Operation.Phase
import StoreClient.Pack.Marker
import StoreClient.Pack.Reader
import StoreClient.Pack.Value
import StoreClient.Payload
import StoreClient.Permits
import StoreClient.Proofs.Batch.Completion
import StoreClient.Proofs.Batch.Determinacy
import StoreClient.Proofs.Batch.Entries
import StoreClient.Proofs.Batch.Events
import StoreClient.Proofs.Batch.Interruption
import StoreClient.Proofs.Batch.Limit
import StoreClient.Proofs.Batch.Numbering
import StoreClient.Proofs.Batch.Preservation
import StoreClient.Proofs.Batch.Progress
import StoreClient.Proofs.Batch.Protocol
import StoreClient.Proofs.Batch.Steps
import StoreClient.Proofs.Batch.Validity
import StoreClient.Proofs.Coordinator.Admission
import StoreClient.Proofs.Coordinator.Alone
import StoreClient.Proofs.Coordinator.Completeness
import StoreClient.Proofs.Coordinator.Determinacy
import StoreClient.Proofs.Coordinator.Independence
import StoreClient.Proofs.Coordinator.Interruption
import StoreClient.Proofs.Coordinator.Limit
import StoreClient.Proofs.Coordinator.Liveness
import StoreClient.Proofs.Coordinator.Moves
import StoreClient.Proofs.Coordinator.Numbering
import StoreClient.Proofs.Coordinator.Protocol
import StoreClient.Proofs.Coordinator.Runs
import StoreClient.Proofs.Coordinator.Scheduling
import StoreClient.Proofs.Document.Fields
import StoreClient.Proofs.Document.Records
import StoreClient.Proofs.Document.Stopping
import StoreClient.Proofs.Document.Values
import StoreClient.Proofs.Frame.Cutting
import StoreClient.Proofs.Frame.Decoding
import StoreClient.Proofs.Frame.Draining
import StoreClient.Proofs.Frame.Pieces
import StoreClient.Proofs.Frame.RoundTrip
import StoreClient.Proofs.Handle.Consistency
import StoreClient.Proofs.Handle.Derivation
import StoreClient.Proofs.Handle.FirstCompletion
import StoreClient.Proofs.Handle.History
import StoreClient.Proofs.Handle.Listeners
import StoreClient.Proofs.Handle.Nesting
import StoreClient.Proofs.Observers
import StoreClient.Proofs.Operation.Answers
import StoreClient.Proofs.Operation.Lifecycle
import StoreClient.Proofs.Operation.Reference
import StoreClient.Proofs.Pack.Data
import StoreClient.Proofs.Pack.Headers
import StoreClient.Proofs.Pack.Stopping
import StoreClient.Proofs.Pack.Values
import StoreClient.Proofs.Payload.Fields
import StoreClient.Proofs.Payload.Listing
import StoreClient.Proofs.Payload.Records
import StoreClient.Proofs.Payload.Requests
import StoreClient.Proofs.Payload.RoundTrip
import StoreClient.Proofs.Payload.Saving
import StoreClient.Proofs.Payload.Truncation
import StoreClient.Proofs.Sequences
import StoreClient.Proofs.Stream.Agreement
import StoreClient.Proofs.Stream.Calls
import StoreClient.Proofs.Stream.Closing
import StoreClient.Proofs.Stream.Completeness
import StoreClient.Proofs.Stream.Completing
import StoreClient.Proofs.Stream.Delivery
import StoreClient.Proofs.Stream.Feeding
import StoreClient.Proofs.Stream.Listing
import StoreClient.Proofs.Stream.Liveness
import StoreClient.Proofs.Stream.Milestones
import StoreClient.Proofs.Stream.Order
import StoreClient.Proofs.Stream.Overtaking
import StoreClient.Proofs.Stream.Reading
import StoreClient.Proofs.Stream.Refusing
import StoreClient.Proofs.Stream.Reports
import StoreClient.Proofs.Stream.Returning
import StoreClient.Proofs.Stream.Room
import StoreClient.Proofs.Stream.ServerErrors
import StoreClient.Proofs.Stream.Sessions
import StoreClient.Proofs.Stream.Stalling
import StoreClient.Proofs.Stream.Steps
import StoreClient.Proofs.Text.Lossy
import StoreClient.Proofs.Text.Utf8
import StoreClient.Reply
import StoreClient.Schedule
import StoreClient.Stream
import StoreClient.Stream.Producer
import StoreClient.Stream.Session
import StoreClient.Sums
import StoreClient.Text.Quoted
import StoreClient.Text.Unicode
import StoreClient.Text.Utf8
import StoreClient.Transport
import StoreClient.Transport.Rehearsal
