import PeerMesh.Address.Basic
import PeerMesh.Address.Text
import PeerMesh.Agent.Basic
import PeerMesh.Agent.Delivery
import PeerMesh.Agent.Fault
import PeerMesh.Agent.Publication
import PeerMesh.Bytes
import PeerMesh.Command.Basic
import PeerMesh.Command.Frames
import PeerMesh.CommandLine.Arguments
import PeerMesh.CommandLine.Launch
import PeerMesh.CommandLine.Session
import PeerMesh.Config
import PeerMesh.DataMessage
import PeerMesh.Definition.Basic
import PeerMesh.Definition.Document
import PeerMesh.Directory
import PeerMesh.Double.Basic
import PeerMesh.Double.Shortest
import PeerMesh.Double.Text
import PeerMesh.Files
import PeerMesh.Host.Basic
import PeerMesh.Host.Edit
import PeerMesh.HostEvent
import PeerMesh.Hub
import PeerMesh.Json.Document
import PeerMesh.Json.Number
import PeerMesh.Json.Value
import PeerMesh.Limits
import PeerMesh.Line.Basic
import PeerMesh.Line.Stream
import PeerMesh.Line.Text
import PeerMesh.Log.Console
import PeerMesh.Log.Event
import PeerMesh.Log.Journal
import PeerMesh.Mapping.Basic
import PeerMesh.Mapping.Document
import PeerMesh.Mesh.Basic
import PeerMesh.Mesh.Settling
import PeerMesh.Multipart.Basic
import PeerMesh.Multipart.Stream
import PeerMesh.Name
import PeerMesh.Node.Basic
import PeerMesh.Node.Identity
import PeerMesh.Node.Request
import PeerMesh.Node.Session
import PeerMesh.Presence
import PeerMesh.Proofs.DataMessages
import PeerMesh.Proofs.Words
import PeerMesh.Publisher.Address
import PeerMesh.Publisher.Basic
import PeerMesh.Publisher.Connection
import PeerMesh.Publisher.Control
import PeerMesh.Reactor.Announcement
import PeerMesh.Reactor.Basic
import PeerMesh.Reactor.Execution
import PeerMesh.Reactor.Lifecycle
import PeerMesh.Reactor.Reception
import PeerMesh.Reactor.Wiring
import PeerMesh.Roster
import PeerMesh.Subscriber.Basic
import PeerMesh.Subscriber.Resolution
import PeerMesh.Subscription
import PeerMesh.Table
import PeerMesh.Text.Blank
import PeerMesh.Text.Hex
import PeerMesh.Text.Hidden
import PeerMesh.Text.Integer
import PeerMesh.Text.Quoted
import PeerMesh.Text.Terminal
import PeerMesh.Text.Utf8
import PeerMesh.Toml.Reader
import PeerMesh.Toml.Value
import PeerMesh.Value.Basic
import PeerMesh.Value.Conversion
import PeerMesh.Value.Fault
import PeerMesh.Version
import PeerMesh.View.Basic
import PeerMesh.View.Command
import PeerMesh.View.Config
import PeerMesh.View.Fault
import PeerMesh.View.Host
import PeerMesh.View.Log
import PeerMesh.View.Model
import PeerMesh.View.Presence
import PeerMesh.View.Reactor
import PeerMesh.View.Subscriber
import PeerMesh.Main
import PeerMesh.Proofs.CommandCodec
import PeerMesh.Proofs.AgentChanges
import PeerMesh.Proofs.Broadcasts
import PeerMesh.Proofs.FilterSync
import PeerMesh.Proofs.JsonTokens
import PeerMesh.Proofs.OutputRequests
import PeerMesh.Proofs.Audience
import PeerMesh.Proofs.FilterLinks
import PeerMesh.Proofs.Notices
import PeerMesh.Proofs.MutedOutputs
import PeerMesh.Proofs.Delivery
import PeerMesh.Proofs.HubViews
import PeerMesh.Proofs.Handshakes
import PeerMesh.Proofs.InputTypes
import PeerMesh.Proofs.Refusals
import PeerMesh.Proofs.Operations
import PeerMesh.Proofs.Publications
import PeerMesh.Proofs.Responses
import PeerMesh.Proofs.Incidents
import PeerMesh.Proofs.Isolation
import PeerMesh.Proofs.Presences
import PeerMesh.Proofs.Visits
import PeerMesh.Proofs.Shouts
import PeerMesh.Proofs.SlotOperations
import PeerMesh.Proofs.DefinitionFiles
import PeerMesh.Proofs.MappingFiles
import PeerMesh.Proofs.Streams
import PeerMesh.Proofs.LineStreams
import PeerMesh.Proofs.OutputExchanges
import PeerMesh.Proofs.Inlets
import PeerMesh.Proofs.FilterDeltas
import PeerMesh.Proofs.ValueLimits
import PeerMesh.Proofs.FrameReading
import PeerMesh.Proofs.SentOutputs
import PeerMesh.Proofs.DefinitionDocuments
import PeerMesh.Proofs.MappingOperations
import PeerMesh.Proofs.Conversions
import PeerMesh.Proofs.RemoteWrites
import PeerMesh.Proofs.Spellings
import PeerMesh.Proofs.IntegerParts
import PeerMesh.Proofs.JsonIntegers
import PeerMesh.Proofs.DueRequests
import PeerMesh.Proofs.Rotations
import PeerMesh.Proofs.FailedRotations
import PeerMesh.Proofs.CleanNames
import PeerMesh.Proofs.FanOut
import PeerMesh.Proofs.FlagEvents
