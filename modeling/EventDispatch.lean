import EventDispatch.Ambient
import EventDispatch.Clients
import EventDispatch.CommandLine
import EventDispatch.Crew
import EventDispatch.Decimal.Literal
import EventDispatch.Decimal.Shortest
import EventDispatch.Decimal.Whole
import EventDispatch.Desk
import EventDispatch.Desk.Submission
import EventDispatch.Error
import EventDispatch.Event
import EventDispatch.Event.Class
import EventDispatch.Factory
import EventDispatch.Function
import EventDispatch.Function.Script
import EventDispatch.Generator
import EventDispatch.Http.Message
import EventDispatch.Http.Source
import EventDispatch.Http.Target
import EventDispatch.Json.Parser
import EventDispatch.Json.Printer
import EventDispatch.Json.Value
import EventDispatch.Keyed
import EventDispatch.Lifecycle
import EventDispatch.Lifecycle.Drill
import EventDispatch.Main
import EventDispatch.Poll.Channel
import EventDispatch.Poll.Collection
import EventDispatch.Poll.Driver
import EventDispatch.Poll.ItemStore
import EventDispatch.Poll.Query
import EventDispatch.Poll.Source
import EventDispatch.Pool
import EventDispatch.Pool.Holders
import EventDispatch.Processor
import EventDispatch.Proofs.Leases
import EventDispatch.Proofs.Pool
import EventDispatch.Proofs.Tasks
import EventDispatch.Queue.Broker
import EventDispatch.Queue.Listener
import EventDispatch.Registry
import EventDispatch.Report
import EventDispatch.Report.Answer
import EventDispatch.Schedule
import EventDispatch.Settings.Adapters
import EventDispatch.Settings.Layers
import EventDispatch.Settings.Processor
import EventDispatch.Settings.Readers
import EventDispatch.Settings.Shape
import EventDispatch.Source
import EventDispatch.Span
import EventDispatch.Station
import EventDispatch.Statistics
import EventDispatch.Statistics.Snapshot
import EventDispatch.Stream.Reader
import EventDispatch.Stream.Records
import EventDispatch.Task
import EventDispatch.Text.Blank
import EventDispatch.Text.Invisible
import EventDispatch.Text.Lower
import EventDispatch.Text.Quoted
import EventDispatch.Timestamp
import EventDispatch.Width
import EventDispatch.Yaml.Node
import EventDispatch.Yaml.Place
import EventDispatch.Yaml.Scalar
import EventDispatch.Yaml.Token
import EventDispatch.Yaml.Value
import EventDispatch.Proofs.Shutdown
import EventDispatch.Proofs.Numerals
import EventDispatch.Proofs.JsonTexts
import EventDispatch.Proofs.StreamReading
import EventDispatch.Proofs.Tables
import EventDispatch.Proofs.Trail
import EventDispatch.Proofs.StreamHistory
import EventDispatch.Proofs.ItemStore
import EventDispatch.Proofs.Ledger
import EventDispatch.Proofs.Listings
import EventDispatch.Proofs.PollCycles
import EventDispatch.Proofs.PollMoves
import EventDispatch.Proofs.PollHistory
import EventDispatch.Proofs.TaskKinds
import EventDispatch.Proofs.Succession
import EventDispatch.Proofs.Rollback
import EventDispatch.Proofs.RepeatedReleases
import EventDispatch.Proofs.FirstPoll
import EventDispatch.Proofs.Hiding
import EventDispatch.Proofs.Apartness
import EventDispatch.Proofs.Neighbours
import EventDispatch.Proofs.PoolTraffic
import EventDispatch.Proofs.PoolLine
import EventDispatch.Proofs.Deliveries
import EventDispatch.Proofs.QueueHistory
import EventDispatch.Proofs.Resumption
import EventDispatch.Proofs.Consumers
import EventDispatch.Proofs.Duties
import EventDispatch.Proofs.Workloads
import EventDispatch.Proofs.Bookkeeping
import EventDispatch.Proofs.SourceHistory
import EventDispatch.Proofs.Counters
import EventDispatch.Proofs.Requests
import EventDispatch.Proofs.Isolation
import EventDispatch.Proofs.Staffing
import EventDispatch.Proofs.Sizing
import EventDispatch.Proofs.Answers
import EventDispatch.Proofs.PagedListings
import EventDispatch.Proofs.Channels
import EventDispatch.Proofs.Batches
import EventDispatch.Proofs.Stalls
import EventDispatch.Proofs.EventGuards
import EventDispatch.Proofs.Stints
import EventDispatch.Proofs.Courses
import EventDispatch.Proofs.CycleListings
import EventDispatch.Proofs.Fidelity
import EventDispatch.Proofs.Relisting
import EventDispatch.Proofs.Registrations
import EventDispatch.Proofs.Addresses
import EventDispatch.Proofs.Traversals
import EventDispatch.Proofs.Phases
import EventDispatch.Proofs.Excerpts
import EventDispatch.Proofs.Headers
import EventDispatch.Proofs.Acceptance
import EventDispatch.Proofs.Clauses
import EventDispatch.Proofs.Spelling
import EventDispatch.Proofs.StreamMoves
import EventDispatch.Proofs.TaskMoves
import EventDispatch.Proofs.Bindings
import EventDispatch.Proofs.Settlements
import EventDispatch.Proofs.Intervals
