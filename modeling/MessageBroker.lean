import MessageBroker.Broker.Basic
import MessageBroker.Broker.Capture
import MessageBroker.Broker.Channels
import MessageBroker.Broker.Clients
import MessageBroker.Broker.Command
import MessageBroker.Broker.Queues
import MessageBroker.Broker.Restore
import MessageBroker.Broker.Routes
import MessageBroker.Broker.Upkeep
import MessageBroker.Bytes
import MessageBroker.Channel
import MessageBroker.Checksum
import MessageBroker.ClientLinks
import MessageBroker.Collection.Arena
import MessageBroker.Collection.AssocList
import MessageBroker.Collection.DeadlineIndex
import MessageBroker.Collection.MemberIndex
import MessageBroker.Collection.MemberSet
import MessageBroker.Collection.Registry
import MessageBroker.Collection.Sequence
import MessageBroker.Config
import MessageBroker.Config.Text
import MessageBroker.Delivery
import MessageBroker.Description
import MessageBroker.Failure
import MessageBroker.Glob
import MessageBroker.Identifier
import MessageBroker.Json.Quoted
import MessageBroker.Json.Token
import MessageBroker.Json.Value
import MessageBroker.Mailboxes
import MessageBroker.Message
import MessageBroker.MessagePack.Encoding
import MessageBroker.MessagePack.Record
import MessageBroker.MessagePack.Value
import MessageBroker.Name
import MessageBroker.Outcome
import MessageBroker.Payload
import MessageBroker.Payload.Holders
import MessageBroker.Proofs.Broker.Absence
import MessageBroker.Proofs.Broker.AutoDelete
import MessageBroker.Proofs.Broker.Bindings
import MessageBroker.Proofs.Broker.Capture
import MessageBroker.Proofs.Broker.Contents
import MessageBroker.Proofs.Broker.Delivery
import MessageBroker.Proofs.Broker.Edit
import MessageBroker.Proofs.Broker.Ejection
import MessageBroker.Proofs.Broker.Expiry
import MessageBroker.Proofs.Broker.Fading
import MessageBroker.Proofs.Broker.Holders
import MessageBroker.Proofs.Broker.Issuing
import MessageBroker.Proofs.Broker.Lifecycle
import MessageBroker.Proofs.Broker.Limits
import MessageBroker.Proofs.Broker.Memberships
import MessageBroker.Proofs.Broker.Mirrors
import MessageBroker.Proofs.Broker.Naming
import MessageBroker.Proofs.Broker.Numbering
import MessageBroker.Proofs.Broker.Order
import MessageBroker.Proofs.Broker.Outlasting
import MessageBroker.Proofs.Broker.Outline
import MessageBroker.Proofs.Broker.Parting
import MessageBroker.Proofs.Broker.Publishing
import MessageBroker.Proofs.Broker.Pushing
import MessageBroker.Proofs.Broker.Reached
import MessageBroker.Proofs.Broker.Rebuilding
import MessageBroker.Proofs.Broker.Refusal
import MessageBroker.Proofs.Broker.Removal
import MessageBroker.Proofs.Broker.Restoring
import MessageBroker.Proofs.Broker.Returning
import MessageBroker.Proofs.Broker.Rosters
import MessageBroker.Proofs.Broker.RoundRobin
import MessageBroker.Proofs.Broker.RoundTrip
import MessageBroker.Proofs.Broker.Serving
import MessageBroker.Proofs.Broker.Settling
import MessageBroker.Proofs.Broker.Shares
import MessageBroker.Proofs.Broker.Sides
import MessageBroker.Proofs.Broker.Standing
import MessageBroker.Proofs.Broker.Steps
import MessageBroker.Proofs.Broker.Stock
import MessageBroker.Proofs.Broker.Ticking
import MessageBroker.Proofs.Broker.Turns
import MessageBroker.Proofs.Broker.Withdrawals
import MessageBroker.Proofs.Channel
import MessageBroker.Proofs.Checksum
import MessageBroker.Proofs.Clock
import MessageBroker.Proofs.Collection.AssocList
import MessageBroker.Proofs.Collection.DeadlineIndex
import MessageBroker.Proofs.Collection.Deque
import MessageBroker.Proofs.Collection.FiniteMap
import MessageBroker.Proofs.Collection.FiniteSet
import MessageBroker.Proofs.Collection.Keep
import MessageBroker.Proofs.Collection.MemberIndex
import MessageBroker.Proofs.Collection.Mirror
import MessageBroker.Proofs.Collection.Naming
import MessageBroker.Proofs.Collection.Pruning
import MessageBroker.Proofs.Collection.Registry
import MessageBroker.Proofs.Collection.Sequence
import MessageBroker.Proofs.Config.Overlay
import MessageBroker.Proofs.Glob.Matching
import MessageBroker.Proofs.Glob.Reading
import MessageBroker.Proofs.Json.Grammar
import MessageBroker.Proofs.Json.Quoted
import MessageBroker.Proofs.Json.Reading
import MessageBroker.Proofs.Json.Tokens
import MessageBroker.Proofs.Mailboxes.Accounts
import MessageBroker.Proofs.Mailboxes.Session
import MessageBroker.Proofs.Mailboxes.Unread
import MessageBroker.Proofs.Mailboxes.Views
import MessageBroker.Proofs.MessagePack.Reading
import MessageBroker.Proofs.Queue.Admission
import MessageBroker.Proofs.Queue.Buffer
import MessageBroker.Proofs.Queue.Coherence
import MessageBroker.Proofs.Queue.Contents
import MessageBroker.Proofs.Queue.Expiring
import MessageBroker.Proofs.Queue.Keeping
import MessageBroker.Proofs.Queue.Lifecycle
import MessageBroker.Proofs.Queue.Members
import MessageBroker.Proofs.Queue.Order
import MessageBroker.Proofs.Queue.Overdue
import MessageBroker.Proofs.Queue.Place
import MessageBroker.Proofs.Queue.Pushing
import MessageBroker.Proofs.Queue.Redelivery
import MessageBroker.Proofs.Queue.Refilling
import MessageBroker.Proofs.Queue.Returning
import MessageBroker.Proofs.Queue.Settled
import MessageBroker.Proofs.Queue.Shares
import MessageBroker.Proofs.Queue.Turn
import MessageBroker.Proofs.Snapshot.Body
import MessageBroker.Proofs.Snapshot.Damage
import MessageBroker.Proofs.Snapshot.File
import MessageBroker.Proofs.Snapshot.Reading
import MessageBroker.Proofs.Storage.Saving
import MessageBroker.Proofs.Storage.Spacing
import MessageBroker.Proofs.Tag
import MessageBroker.Proofs.Ticks
import MessageBroker.Queue.Basic
import MessageBroker.Queue.Messages
import MessageBroker.Queue.Sweep
import MessageBroker.Route
import MessageBroker.Settings
import MessageBroker.Snapshot
import MessageBroker.Snapshot.Body
import MessageBroker.Snapshot.File
import MessageBroker.Stats
import MessageBroker.Storage.Directory
import MessageBroker.Storage.Saver
import MessageBroker.Storage.Schedule
import MessageBroker.Tag
import MessageBroker.Text.Hidden
import MessageBroker.Text.Quoted
import MessageBroker.Text.Record
import MessageBroker.Text.Utf8
import MessageBroker.Time
