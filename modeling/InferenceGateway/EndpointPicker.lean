import InferenceGateway.Controller.Concurrent
import InferenceGateway.Handlers.Server
import InferenceGateway.Handlers.StreamingServer

/-!
# The endpoint picker

The handlers of `pkg/epp/handlers` call the datastore and the scheduler while the controllers change the
datastore. Each answer was in memory at some moment, different answers at different moments.
-/

namespace InferenceGateway

/-- The memory has been like this in one of the states. -/
def Controllers.Seen (states : List Controllers) (P : Memory → Prop) : Prop := ∃ t ∈ states, P t.memory

/-- The calls of one message, in a run with these states. PodGetAll lists objects, which may have left the map or
may have been updated by the time that GetPod reads them. -/
structure Backend.Reads (config : Config) (states : List Controllers) (backend : Backend) : Prop where
  modelGet : ∀ modelName m, backend.modelGet modelName = some m →
    Controllers.Seen states fun memory => memory.ds.modelGet modelName = some m
  podGetAll : ∀ pod ∈ backend.podGetAll, Controllers.Seen states fun memory => ∃ ref, memory.heap ref = some pod
  poolGet : ∀ infPool, backend.poolGet = .ok infPool →
    Controllers.Seen states fun memory => memory.ds.poolGet = .ok infPool
  schedule : ∀ req, ∃ (listed : List Nat) (env : Env Nat) (queries : Nat) (getPod : Nat → BackendPod),
    (∀ ref ∈ listed, Controllers.Seen states fun memory => memory.heap ref = some (getPod ref)) ∧
    backend.schedule req = (InferenceGateway.schedule config listed req env queries).1.map getPod

end InferenceGateway
