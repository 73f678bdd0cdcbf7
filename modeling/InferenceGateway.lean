import InferenceGateway.Scheduling.Scheduler
import InferenceGateway.Proof.Scheduling.Tree
import InferenceGateway.Proof.Scheduling.Filters
import InferenceGateway.Proof.Scheduling.Schedule
import InferenceGateway.Proof.Scheduling.Refreshes
import InferenceGateway.Datastore.Locking
import InferenceGateway.Proof.Datastore.Locking
import InferenceGateway.Api
import InferenceGateway.Controller
import InferenceGateway.Cluster
import InferenceGateway.Proof.Datastore.Models
import InferenceGateway.Proof.Controller.InferenceModel
import InferenceGateway.Proof.Controller.ModelRuns
import InferenceGateway.Proof.Controller.OldestWins
import InferenceGateway.Proof.Controller.Backfill
import InferenceGateway.Proof.Controller.Pods
import InferenceGateway.Proof.Controller.PodConvergence
import InferenceGateway.Proof.Controller.Manager
import InferenceGateway.Proof.Controller.PoolLifecycle
import InferenceGateway.Interleaving
import InferenceGateway.Proof.Controller.Interleaving
import InferenceGateway.Handlers.Context
import InferenceGateway.Handlers.Server
import InferenceGateway.Handlers.StreamingServer
import InferenceGateway.Proof.Handlers.Ordering
import InferenceGateway.Proof.Handlers.RequestBody
import InferenceGateway.Lib.JsonText
import InferenceGateway.Handlers.JsonCodec
import InferenceGateway.Proof.Handlers.Agreement
import InferenceGateway.Proof.Handlers.Exchange
import InferenceGateway.Proof.Handlers.Buffered
import InferenceGateway.Proof.Controller.Reachable
import InferenceGateway.Proof.Handlers.Panics
import InferenceGateway.Proof.Handlers.StatusCodes
import InferenceGateway.Proof.Handlers.Metrics
import InferenceGateway.Proof.Handlers.ErrorCounts
import InferenceGateway.BodyBasedRouting
import InferenceGateway.Proof.BodyBasedRouting
import InferenceGateway.Proof.Datastore.RefreshLoops
import InferenceGateway.Datastore.Concurrent
import InferenceGateway.Proof.Datastore.Concurrent
import InferenceGateway.LoraSidecar
import InferenceGateway.Proof.LoraSidecar
import InferenceGateway.ContinuousBatching
import InferenceGateway.Lib.Outcome
import InferenceGateway.Proof.ContinuousBatching
import InferenceGateway.Proof.Datastore.Resync
import InferenceGateway.Proof.Handlers.TrafficSplit
import InferenceGateway.Proof.Scheduling.Candidates
import InferenceGateway.Handlers.FrontEnd
import InferenceGateway.Proof.Handlers.FrontEndQuery
import InferenceGateway.Proof.Handlers.FrontEndEvents
import InferenceGateway.Proof.Handlers.FrontEndStreams
import InferenceGateway.Proof.Handlers.WorkerId
import InferenceGateway.Handlers.TextCodec
import InferenceGateway.Proof.Handlers.ResponseHeaders
import InferenceGateway.Proof.Handlers.Integers
import InferenceGateway.Proof.Handlers.Usage
import InferenceGateway.Proof.Handlers.StreamedResponses
import InferenceGateway.Proof.Handlers.StreamedUsage
import InferenceGateway.BackendMetrics.Client
import InferenceGateway.Proof.BackendMetrics.Series
import InferenceGateway.Proof.BackendMetrics.Scrape
import InferenceGateway.Proof.BackendMetrics.Adapters
import InferenceGateway.Proof.BackendMetrics.Spec
import InferenceGateway.BackendMetrics.Logger
import InferenceGateway.Proof.BackendMetrics.Logger
import InferenceGateway.Proof.Datastore.Keyed
import InferenceGateway.LoraSidecar.Concurrent
import InferenceGateway.Proof.LoraSidecar.Concurrent
import InferenceGateway.Lib.RunningBest
import InferenceGateway.LoadBalancer.Selectors
import InferenceGateway.LoadBalancer.Queue
import InferenceGateway.Proof.LoadBalancer.Selectors
import InferenceGateway.Proof.LoadBalancer.Queue
import InferenceGateway.Proof.LoadBalancer.Runs
import InferenceGateway.Datastore.Guarded
import InferenceGateway.Proof.Datastore.Guarded
import InferenceGateway.Controller.Concurrent
import InferenceGateway.Proof.Controller.Concurrent
import InferenceGateway.EndpointPicker
import InferenceGateway.Proof.EndpointPicker
import InferenceGateway.Proof.Controller.Settling
import InferenceGateway.Proof.Controller.Uninterrupted
import InferenceGateway.Proof.ContinuousBatching.Completion
import InferenceGateway.Proof.ContinuousBatching.Memory
import InferenceGateway.LoraSidecar.Threads
import InferenceGateway.Proof.LoraSidecar.Threads
import InferenceGateway.Proof.Controller.ModelSettling
import InferenceGateway.Proof.SettledCluster
import InferenceGateway.Proof.Controller.Rest
import InferenceGateway.Proof.RoutedModel
