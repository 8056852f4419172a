import ReverseProxy.Admin.MediaType
import ReverseProxy.Admin.Report
import ReverseProxy.Admin.Resource
import ReverseProxy.Admin.Service
import ReverseProxy.Data.Binary64
import ReverseProxy.Data.Datum
import ReverseProxy.Data.Json
import ReverseProxy.Data.Toml
import ReverseProxy.Data.Toml.Scalar
import ReverseProxy.Data.Toml.Tree
import ReverseProxy.Fleet.Election
import ReverseProxy.Fleet.Health
import ReverseProxy.Fleet.IdlePool
import ReverseProxy.Fleet.Membership
import ReverseProxy.Fleet.Node
import ReverseProxy.Fleet.Record
import ReverseProxy.Fleet.Registry
import ReverseProxy.Fleet.Session
import ReverseProxy.Message.Body
import ReverseProxy.Message.Chunks
import ReverseProxy.Message.Defect
import ReverseProxy.Message.Forwarding
import ReverseProxy.Message.Header
import ReverseProxy.Message.RequestGrammar
import ReverseProxy.Message.RequestHead
import ReverseProxy.Message.ResponseHead
import ReverseProxy.Operation.Endpoint
import ReverseProxy.Operation.Mode
import ReverseProxy.Operation.Proxy
import ReverseProxy.Operation.Shutdown
import ReverseProxy.Operation.Tracker
import ReverseProxy.Relay.Exchange
import ReverseProxy.Relay.Failure
import ReverseProxy.Relay.Network
import ReverseProxy.Relay.RequestBodyRelay
import ReverseProxy.Relay.RequestReading
import ReverseProxy.Relay.ResponseRelay
import ReverseProxy.Relay.ScriptedNetwork
import ReverseProxy.Relay.Serving
import ReverseProxy.Settings.Document
import ReverseProxy.Settings.Schema
import ReverseProxy.Settings.TrustRoots
import ReverseProxy.Settings.Validation
import ReverseProxy.Text.Blank
import ReverseProxy.Text.Bytes
import ReverseProxy.Text.Numeral
import ReverseProxy.Text.Scan
import ReverseProxy.Text.Split
import ReverseProxy.Text.Utf8
import ReverseProxy.Wire.Buffer
import ReverseProxy.Wire.BufferPool
import ReverseProxy.Wire.Client
import ReverseProxy.Wire.Sink
import ReverseProxy.Wire.SocketAddress
import ReverseProxy.Wire.Source
import ReverseProxy.Main
import ReverseProxy.Proofs.Admin.Refusals
import ReverseProxy.Proofs.Admin.RegisteredRecords
import ReverseProxy.Proofs.Fleet.ElectionShares
import ReverseProxy.Proofs.Fleet.HealthCycles
import ReverseProxy.Proofs.Fleet.IdleConnections
import ReverseProxy.Proofs.Fleet.IdleQueues
import ReverseProxy.Proofs.Fleet.MembershipRuns
import ReverseProxy.Proofs.Fleet.NodeVersions
import ReverseProxy.Proofs.Fleet.Reconciliation
import ReverseProxy.Proofs.Fleet.RegisteredNodes
import ReverseProxy.Proofs.Fleet.RegistryRuns
import ReverseProxy.Proofs.Fleet.Reloading
import ReverseProxy.Proofs.Fleet.Resolution
import ReverseProxy.Proofs.Fleet.StickySessions
import ReverseProxy.Proofs.Message.AddedHeaders
import ReverseProxy.Proofs.Message.BodyPieces
import ReverseProxy.Proofs.Message.ChunkGrammar
import ReverseProxy.Proofs.Message.ChunkPieces
import ReverseProxy.Proofs.Message.ChunkSizes
import ReverseProxy.Proofs.Message.ChunkedEnd
import ReverseProxy.Proofs.Message.Heedfulness
import ReverseProxy.Proofs.Message.Cookies
import ReverseProxy.Proofs.Message.ForwardedHead
import ReverseProxy.Proofs.Message.ForwardedLines
import ReverseProxy.Proofs.Message.HeadLimit
import ReverseProxy.Proofs.Message.HeadLines
import ReverseProxy.Proofs.Message.HeadLocality
import ReverseProxy.Proofs.Message.HeadLoop
import ReverseProxy.Proofs.Message.HeadPieces
import ReverseProxy.Proofs.Message.HeadReading
import ReverseProxy.Proofs.Message.HeadStability
import ReverseProxy.Proofs.Message.Pieces
import ReverseProxy.Proofs.Message.Recipient
import ReverseProxy.Proofs.Message.RequestLayout
import ReverseProxy.Proofs.Operation.ProxyFromSettings
import ReverseProxy.Proofs.Relay.AlikeRelays
import ReverseProxy.Proofs.Relay.ClientSession
import ReverseProxy.Proofs.Relay.ConcurrentExchanges
import ReverseProxy.Proofs.Relay.CorrelationHeaders
import ReverseProxy.Proofs.Relay.Custody
import ReverseProxy.Proofs.Relay.ExchangeSteps
import ReverseProxy.Proofs.Relay.FailedExchanges
import ReverseProxy.Proofs.Relay.FragmentedHeads
import ReverseProxy.Proofs.Relay.Passing
import ReverseProxy.Proofs.Relay.ReadingLoops
import ReverseProxy.Proofs.Relay.RecyclingReports
import ReverseProxy.Proofs.Relay.RequestBodies
import ReverseProxy.Proofs.Relay.RequestStream
import ReverseProxy.Proofs.Relay.ResponseBody
import ReverseProxy.Proofs.Relay.ResponseExactness
import ReverseProxy.Proofs.Relay.ResponseHeads
import ReverseProxy.Proofs.Relay.ReusedConnections
import ReverseProxy.Proofs.Relay.StaleContents
import ReverseProxy.Proofs.Settings.ProblemCounts
import ReverseProxy.Proofs.Settings.ValidNodes
import ReverseProxy.Proofs.Text.Ascii
import ReverseProxy.Proofs.Text.Cutting
import ReverseProxy.Proofs.Text.Encoding
import ReverseProxy.Proofs.Text.Lines
import ReverseProxy.Proofs.Text.Trimming
import ReverseProxy.Proofs.Wire.AlikeBuffers
import ReverseProxy.Proofs.Wire.BufferLoans
import ReverseProxy.Proofs.Wire.BufferQueue
import ReverseProxy.Proofs.Wire.ClientStream
import ReverseProxy.Proofs.Wire.PooledBuffers
import ReverseProxy.Proofs.Wire.Transfer
