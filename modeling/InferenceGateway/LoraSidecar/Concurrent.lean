import InferenceGateway.Lib.Oracle
import InferenceGateway.LoraSidecar

/-!
# A reconcile while the configuration file is replaced

Every access to a property of `LoraReconciler` that depends on the configuration reads the file again,
so the configuration is a sequence, with one entry for each read. What the model server answers is left
to the server: it may fail, restart or change its mind between two requests.
-/

namespace InferenceGateway.LoraSidecar.Concurrent
open Lib

structure ModelServer (σ : Type) where
  -- the probes that fit into the health check timeout
  rounds : σ → Nat
  health : String → σ → Bool × σ
  -- the ids under /v1/models, none if the request fails
  models : String → σ → Finset String × σ
  post : String → Payload → σ → σ

structure World (σ : Type) where
  config : Nat → Config
  server : ModelServer σ

/-- The state is the number of reads so far and the state of the server. -/
abbrev Reading (σ α : Type) := Oracle (World σ) (Nat × σ) α

variable {σ : Type}

def config : Reading σ Config := fun world s => (world.config s.1, (s.1 + 1, s.2))

def ask {α : Type} (request : ModelServer σ → σ → α × σ) : Reading σ α := fun world s =>
  ((request world.server s.2).1, (s.1, (request world.server s.2).2))

def host : Reading σ String := do return (← config).host.getD "localhost"

def port : Reading σ Int := do return (← config).port.getD 8000

def modelServer : Reading σ String := do
  let host ← host
  let port ← port
  return host ++ ":" ++ toString port

def defaultBaseModel : Reading σ String := do return (← config).defaultBaseModel.getD ""

def toAdapters (adapters : List AdapterConfig) (defaultModel : String) : List LoraAdapter :=
  Config.adapterSet (adapters.map fun adapter => ⟨adapter.id, adapter.source, adapter.baseModel.getD defaultModel⟩)

def ensureExistAdapters : Reading σ (List LoraAdapter) := do
  let adapters := (← config).ensureExist.getD []
  let defaultModel ← defaultBaseModel
  return toAdapters adapters defaultModel

def ensureNotExistAdapters : Reading σ (List LoraAdapter) := do
  let adapters := (← config).ensureNotExist.getD []
  let defaultModel ← defaultBaseModel
  return toAdapters adapters defaultModel

def checkHealth : Reading σ Bool := do
  let url := "http://" ++ (← modelServer) ++ "/health"
  ask fun server => server.health url

def probe : Nat → Reading σ Bool
  | 0 => return false
  | rounds + 1 => do
    if ← checkHealth then return true
    else probe rounds

def isServerHealthy : Reading σ Bool := do
  let rounds ← ask fun server s => (server.rounds s, s)
  probe rounds

def registeredAdapters : Reading σ (Finset String) := do
  let url := "http://" ++ (← modelServer) ++ "/v1/models"
  if ← isServerHealthy then ask fun server => server.models url
  else
    -- for the log
    let _ ← modelServer
    return ∅

def loadAdapter (adapter : LoraAdapter) : Reading σ Unit := do
  if adapter.id ∈ (← registeredAdapters) then
    let _ ← modelServer
  else
    let url := "http://" ++ (← modelServer) ++ "/v1/load_lora_adapter"
    ask fun server s => ((), server.post url (.load adapter.id adapter.source adapter.baseModel) s)

def unloadAdapter (adapter : LoraAdapter) : Reading σ Unit := do
  if adapter.id ∉ (← registeredAdapters) then
    let _ ← modelServer
  else
    let url := "http://" ++ (← modelServer) ++ "/v1/unload_lora_adapter"
    ask fun server s => ((), server.post url (.unload adapter.id) s)

/-- What `reconcile` tried to load and to unload, unless the server was not healthy. -/
def reconcile (order : List LoraAdapter → List LoraAdapter) :
    Reading σ (Option (List LoraAdapter × List LoraAdapter)) := do
  let _ ← modelServer
  if ← isServerHealthy then
    -- the adapters in both sets, which are only logged
    let _ ← ensureExistAdapters
    let _ ← ensureNotExistAdapters
    let adaptersToLoad := difference (← ensureExistAdapters) (← ensureNotExistAdapters)
    (order adaptersToLoad).forM loadAdapter
    let adaptersToUnload := difference (← ensureNotExistAdapters) (← ensureExistAdapters)
    (order adaptersToUnload).forM unloadAdapter
    return some (order adaptersToLoad, order adaptersToUnload)
  else
    let _ ← modelServer
    return none

end InferenceGateway.LoraSidecar.Concurrent
