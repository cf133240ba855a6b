import ServiceDiscovery.Balancer
import ServiceDiscovery.Cache
import ServiceDiscovery.Catalog.Entry
import ServiceDiscovery.Catalog.Query
import ServiceDiscovery.Catalog.Wire
import ServiceDiscovery.Config.Address
import ServiceDiscovery.Config.Basic
import ServiceDiscovery.Config.Environment
import ServiceDiscovery.Duration
import ServiceDiscovery.Endpoint
import ServiceDiscovery.EndpointSet
import ServiceDiscovery.Failure
import ServiceDiscovery.Http.AgentClient
import ServiceDiscovery.Http.AgentWire
import ServiceDiscovery.Http.Request
import ServiceDiscovery.Http.Response
import ServiceDiscovery.Http.Status
import ServiceDiscovery.Json.Decoder
import ServiceDiscovery.Json.Printer
import ServiceDiscovery.Json.Reader
import ServiceDiscovery.Json.Value
import ServiceDiscovery.Key
import ServiceDiscovery.Log.Config
import ServiceDiscovery.Log.Filter
import ServiceDiscovery.Log.Level
import ServiceDiscovery.Log.Subscriber
import ServiceDiscovery.Numeric.Binary64
import ServiceDiscovery.Numeric.Literal
import ServiceDiscovery.Numeric.Shortest
import ServiceDiscovery.Proofs.Http.Timeout
import ServiceDiscovery.Proofs.Registry.Memory
import ServiceDiscovery.Proofs.Retry.Attempts
import ServiceDiscovery.Proofs.Service.Aftermath
import ServiceDiscovery.Proofs.Service.Breakdown
import ServiceDiscovery.Proofs.Service.CachedSets
import ServiceDiscovery.Proofs.Service.Claims
import ServiceDiscovery.Proofs.Service.Deliveries
import ServiceDiscovery.Proofs.Service.Departure
import ServiceDiscovery.Proofs.Service.LateCalls
import ServiceDiscovery.Proofs.Service.Position
import ServiceDiscovery.Proofs.Service.Shutdown
import ServiceDiscovery.Proofs.Service.Startup
import ServiceDiscovery.Proofs.Service.Subjects
import ServiceDiscovery.Proofs.Service.Task
import ServiceDiscovery.Proofs.Service.Transition
import ServiceDiscovery.Proofs.Simulation.Diligence
import ServiceDiscovery.Proofs.Simulation.Fresh
import ServiceDiscovery.Proofs.Simulation.Move
import ServiceDiscovery.Proofs.Simulation.Online
import ServiceDiscovery.Proofs.Simulation.Opening
import ServiceDiscovery.Proofs.Simulation.Origin
import ServiceDiscovery.Proofs.Simulation.Rest
import ServiceDiscovery.Proofs.Simulation.Settling
import ServiceDiscovery.Proofs.Simulation.Sound
import ServiceDiscovery.Proofs.Simulation.Turn
import ServiceDiscovery.Proofs.Simulation.Vigil
import ServiceDiscovery.Proofs.Simulation.Work
import ServiceDiscovery.Proofs.Subscription.Delivery
import ServiceDiscovery.Proofs.Subscription.Depth
import ServiceDiscovery.Proofs.Subscription.Log
import ServiceDiscovery.Proofs.Subscription.Notification
import ServiceDiscovery.Proofs.Subscription.Sharing
import ServiceDiscovery.Proofs.Watch.Plan
import ServiceDiscovery.Registry.Basic
import ServiceDiscovery.Registry.Memory
import ServiceDiscovery.Registry.Scripted
import ServiceDiscovery.Retry
import ServiceDiscovery.Service.Basic
import ServiceDiscovery.Service.Choice
import ServiceDiscovery.Service.Connection
import ServiceDiscovery.Service.HostTemplate
import ServiceDiscovery.Service.Lookup
import ServiceDiscovery.Service.Startup
import ServiceDiscovery.Simulation.Agenda
import ServiceDiscovery.Simulation.Opening
import ServiceDiscovery.Simulation.Session
import ServiceDiscovery.Simulation.Timeline
import ServiceDiscovery.Simulation.World
import ServiceDiscovery.Subscription.Delivery
import ServiceDiscovery.Subscription.Hub
import ServiceDiscovery.Subscription.Recorder
import ServiceDiscovery.Subscription.Script
import ServiceDiscovery.Table
import ServiceDiscovery.Text.Base64
import ServiceDiscovery.Text.Blank
import ServiceDiscovery.Text.Charset
import ServiceDiscovery.Text.Decimal
import ServiceDiscovery.Text.Hex
import ServiceDiscovery.Text.Percent
import ServiceDiscovery.Text.Split
import ServiceDiscovery.Text.Utf8
import ServiceDiscovery.Url.Basic
import ServiceDiscovery.Url.Domain
import ServiceDiscovery.Url.Form
import ServiceDiscovery.Url.Host
import ServiceDiscovery.Url.Latin
import ServiceDiscovery.Url.Parser
import ServiceDiscovery.Url.Path
import ServiceDiscovery.Url.Punycode
import ServiceDiscovery.Watch.Cursor
import ServiceDiscovery.Watch.Watcher
import ServiceDiscovery.Proofs.Registry.Traffic
import ServiceDiscovery.Proofs.Service.Rotation
import ServiceDiscovery.Proofs.Service.Subscribers
import ServiceDiscovery.Proofs.Url.Host
import ServiceDiscovery.Proofs.Url.Reading
import ServiceDiscovery.Proofs.Service.Filling
import ServiceDiscovery.Proofs.Json.Written
import ServiceDiscovery.Proofs.Catalog.Wire
import ServiceDiscovery.Proofs.Http.HealthAnswer
import ServiceDiscovery.Proofs.Url.Extension
import ServiceDiscovery.Proofs.Http.RequestPaths
import ServiceDiscovery.Proofs.Url.Rereading
import ServiceDiscovery.Proofs.Service.KeptParts
import ServiceDiscovery.Proofs.Key.Discovery
import ServiceDiscovery.Proofs.Service.FailedLookups
import ServiceDiscovery.Proofs.Retry.Schedule
import ServiceDiscovery.Proofs.Subscription.Registrations
import ServiceDiscovery.Proofs.Text.ByteOrder
import ServiceDiscovery.Proofs.Catalog.HealthySets
import ServiceDiscovery.Proofs.Url.Label
import ServiceDiscovery.Proofs.Simulation.FirstLookup
import ServiceDiscovery.Proofs.Service.WebAddresses
import ServiceDiscovery.Proofs.Retry.Growth
import ServiceDiscovery.Proofs.Text.Utf8
import ServiceDiscovery.Proofs.Text.Base64
import ServiceDiscovery.Proofs.Http.KeyValues
import ServiceDiscovery.Proofs.Url.HostTexts
import ServiceDiscovery.Proofs.Config.Address
import ServiceDiscovery.Proofs.Config.BareHosts
