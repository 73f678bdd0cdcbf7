import Mathlib.Data.Finset.Basic
import Mathlib.Data.List.Pairwise

/-!
# The LoRA sidecar of `tools/dynamic-lora-sidecar/sidecar/sidecar.py`

A configuration that passes `validation.yaml`, the model server that the sidecar talks to, and one
reconcile. A set of adapters is a list with one adapter an id; the parameter `order` is the order in
which Python iterates over a set.
-/

namespace InferenceGateway.LoraSidecar

structure AdapterConfig where
  id : String
  source : String
  baseModel : Option String := none
deriving DecidableEq, Repr

/-- The object under `vLLMLoRAConfig`. -/
structure Config where
  host : Option String := none
  port : Option Int := none
  defaultBaseModel : Option String := none
  -- the models under each key
  ensureExist : Option (List AdapterConfig) := none
  ensureNotExist : Option (List AdapterConfig) := none
deriving DecidableEq, Repr

structure LoraAdapter where
  id : String
  source : String
  baseModel : String
deriving DecidableEq, Repr

inductive Payload
  | load (loraName loraPath baseModelName : String)
  | unload (loraName : String)
deriving DecidableEq, Repr

def Payload.loraName : Payload → String
  | .load loraName _ _ => loraName
  | .unload loraName => loraName

/-- A request as the server receives it, with what is registered at that time. -/
structure Post where
  url : String
  payload : Payload
  registered : Finset String
deriving DecidableEq

/-- The model server: what `is_server_healthy` finds, the ids under `/v1/models`, and the requests to
load or unload that it has received. -/
structure Server where
  healthy : Bool
  registered : Finset String
  posts : List Post := []

namespace Config

def modelServer (config : Config) : String :=
  config.host.getD "localhost" ++ ":" ++ toString (config.port.getD 8000)

-- adapters are equal if their ids are; a set keeps the first of them
def adapterSet (adapters : List LoraAdapter) : List LoraAdapter :=
  (adapters.reverse.pwFilter fun a b => a.id ≠ b.id).reverse

def adapters (models : Option (List AdapterConfig)) (config : Config) : List LoraAdapter :=
  adapterSet ((models.getD []).map fun adapter =>
    ⟨adapter.id, adapter.source, adapter.baseModel.getD (config.defaultBaseModel.getD "")⟩)

def ensureExistAdapters (config : Config) : List LoraAdapter := config.adapters config.ensureExist

def ensureNotExistAdapters (config : Config) : List LoraAdapter := config.adapters config.ensureNotExist

end Config

def difference (adapters others : List LoraAdapter) : List LoraAdapter :=
  adapters.filter fun adapter => adapter.id ∉ others.map LoraAdapter.id

def Server.registeredAdapters (server : Server) : Finset String :=
  if server.healthy then server.registered else ∅

/-- Sends a request to have an id registered or not, unless it already is; the request fails if
`fails` says so. -/
def send (registers : Bool) (url : String) (payload : Payload) (fails : String → Bool) (server : Server) : Server :=
  let id := payload.loraName
  if (id ∈ server.registeredAdapters) ↔ registers = true then server
  else
    let received := { server with posts := server.posts ++ [⟨url, payload, server.registered⟩] }
    -- the exception is only logged
    if fails id then received
    else
      { received with
        registered := if registers then insert id server.registered else server.registered.erase id }

def loadAdapter (config : Config) (fails : String → Bool) (server : Server) (adapter : LoraAdapter) : Server :=
  send true ("http://" ++ config.modelServer ++ "/v1/load_lora_adapter")
    (.load adapter.id adapter.source adapter.baseModel) fails server

def unloadAdapter (config : Config) (fails : String → Bool) (server : Server) (adapter : LoraAdapter) : Server :=
  send false ("http://" ++ config.modelServer ++ "/v1/unload_lora_adapter") (.unload adapter.id) fails server

def reconcile (config : Config) (order : List LoraAdapter → List LoraAdapter) (fails : String → Bool)
    (server : Server) : Server :=
  if server.healthy then
    let adaptersToLoad := difference config.ensureExistAdapters config.ensureNotExistAdapters
    let loaded := (order adaptersToLoad).foldl (loadAdapter config fails) server
    let adaptersToUnload := difference config.ensureNotExistAdapters config.ensureExistAdapters
    (order adaptersToUnload).foldl (unloadAdapter config fails) loaded
  else server

end InferenceGateway.LoraSidecar
