import InferenceGateway.Lib.Threads
import InferenceGateway.LoraSidecar

/-!
# Reconciles that run at the same time

The periodic loop of `main` and the observer that calls `on_modified` run in threads of their own, and
nothing keeps their reconciles apart. A turn of a thread is one request to the model server. The
configuration does not change meanwhile.
-/

namespace InferenceGateway.LoraSidecar.Threads

inductive Answer
  | ok
  -- the server never gets the request, or does not become healthy in time
  | lost
  -- the server acts on the request and its answer is lost
  | unanswered
deriving DecidableEq, Repr

structure Turn where
  answer : Answer
  -- in which Python iterates over a set
  order : List LoraAdapter → List LoraAdapter
  perm : ∀ set, (order set).Perm set

def registeredAdapters (answer : Answer) (server : Server) : Finset String :=
  match answer with
  | .ok => server.registered
  | .lost | .unanswered => ∅

/-- Loading an id that is registered, or unloading one that is not, is refused and changes nothing. -/
def Payload.apply (registered : Finset String) : Payload → Finset String
  | .load loraName _ _ => insert loraName registered
  | .unload loraName => registered.erase loraName

def post (answer : Answer) (url : String) (payload : Payload) (server : Server) : Server :=
  match answer with
  | .lost => server
  | .ok | .unanswered =>
    { server with
      registered := Payload.apply server.registered payload
      posts := server.posts ++ [⟨url, payload, server.registered⟩] }

inductive Pc
  | idle
  | isServerHealthy
  | loadAdapter (adapters : List LoraAdapter)
  | postLoad (adapter : LoraAdapter) (adapters : List LoraAdapter)
  | unloadAdapter (adapters : List LoraAdapter)
  | postUnload (adapter : LoraAdapter) (adapters : List LoraAdapter)
deriving DecidableEq, Repr

structure Thread where
  pc : Pc := .idle
  -- whether all requests of the reconcile under way have been answered
  answered : Bool := true
  -- whether some reconcile has come to its end with all its requests answered
  synced : Bool := false

section Step
variable (config : Config)

def adaptersToLoad : List LoraAdapter := difference config.ensureExistAdapters config.ensureNotExistAdapters

def adaptersToUnload : List LoraAdapter := difference config.ensureNotExistAdapters config.ensureExistAdapters

def postLoad (answer : Answer) (adapter : LoraAdapter) (server : Server) : Server :=
  post answer ("http://" ++ config.modelServer ++ "/v1/load_lora_adapter")
    (.load adapter.id adapter.source adapter.baseModel) server

def postUnload (answer : Answer) (adapter : LoraAdapter) (server : Server) : Server :=
  post answer ("http://" ++ config.modelServer ++ "/v1/unload_lora_adapter") (.unload adapter.id) server

def Thread.step (turn : Turn) (thread : Thread) (server : Server) : Option (Thread × Server) :=
  let asked := { thread with answered := thread.answered && turn.answer = Answer.ok }
  match thread.pc with
  | .idle => some ({ thread with pc := .isServerHealthy, answered := true }, server)
  | .isServerHealthy =>
    if turn.answer = .ok then some ({ asked with pc := .loadAdapter (turn.order (adaptersToLoad config)) }, server)
    else some ({ asked with pc := .idle }, server)
  | .loadAdapter [] => some ({ thread with pc := .unloadAdapter (turn.order (adaptersToUnload config)) }, server)
  | .loadAdapter (adapter :: adapters) =>
    if adapter.id ∈ registeredAdapters turn.answer server then
      some ({ asked with pc := .loadAdapter adapters }, server)
    else some ({ asked with pc := .postLoad adapter adapters }, server)
  | .postLoad adapter adapters =>
    some ({ asked with pc := .loadAdapter adapters }, postLoad config turn.answer adapter server)
  | .unloadAdapter [] => some ({ thread with pc := .idle, synced := thread.synced || thread.answered }, server)
  | .unloadAdapter (adapter :: adapters) =>
    if adapter.id ∈ registeredAdapters turn.answer server then
      some ({ asked with pc := .postUnload adapter adapters }, server)
    else some ({ asked with pc := .unloadAdapter adapters }, server)
  | .postUnload adapter adapters =>
    some ({ asked with pc := .unloadAdapter adapters }, postUnload config turn.answer adapter server)

end Step

end InferenceGateway.LoraSidecar.Threads
