import Mathlib.Algebra.Order.Field.Rat
import Mathlib.Data.List.Sort

/-!
# The simulator of `tools/simulations/llm_ig_simulation/src`

The process `prefill_or_decode` of `continous_batching.py` on an `LLMActor`, with the constants of
`constants.py`. The stores of simpy are unbounded, so a put takes effect at once, and a get does when
the store has an item. At each yield other processes run; all they do to the actor is put requests
into `prefill_store`. Simulated times and delays are left out: other processes may put any requests
at any yield.

No ratio that is compared with `MAX_GPU_MEMORY_PERC_BEFORE_RECOMPUTE` comes closer to it than the
rounding of its floating-point division, so ratios are exact.
-/

namespace InferenceGateway.ContinuousBatching

def maxNumBatchTokens : Int := 512

def totalNumGPUBlocks : Int := 2810

def numberOfTokensPerBlock : Int := 16

def maxNumTokensAllowed : Int := totalNumGPUBlocks * numberOfTokensPerBlock - maxNumBatchTokens

def maxGPUMemoryPercBeforeRecompute : Rat := 9 / 10

def maxNumSeq : Nat := 256

def loraDict : List (String × Int) := [("tweet", 1600), ("sql", 1600), ("dummy-1", 0), ("dummy-2", 0)]

structure Request (Id : Type) where
  id : Id
  inputSize : Int
  outputSize : Int
  outputSizeRemaining : Int
  lora : Option String
deriving DecidableEq, Repr

variable {Id : Type}

def createRequest (id : Id) (inputSize outputSize : Int) (lora : Option String) : Request Id :=
  ⟨id, inputSize, outputSize, outputSize, lora⟩

def Request.len (item : Request Id) : Int := item.inputSize + item.outputSize - item.outputSizeRemaining

structure LLMActor (Id : Type) where
  prefillStore : List (Request Id) := []
  decodeStore : List (Request Id) := []
  decodedStore : List (Request Id) := []
  -- by priority, which is the id
  recomputeStore : List (Request Id) := []
  loraLoaded : List String := []
  maxNumTokensAllowed : Int := ContinuousBatching.maxNumTokensAllowed

structure Simulation (Id : Type) where
  actor : LLMActor Id := {}
  reqDict : List Id := []
  -- what other processes put into prefill_store at each of the yields to come
  feed : List (List (Request Id))
  -- the largest number of requests that decode_store has held
  decodePeak : Nat := 0

inductive Crash
  -- with the decodePeak at the time
  | loraKeyError (lora : String) (decodePeak : Nat)
  | reqDictKeyError
  | assertionError
  | valueError
  -- a loop that never ends, or a get from an empty store
  | stuck
deriving DecidableEq, Repr

def Simulation.yields (s : Simulation Id) : Simulation Id :=
  match s.feed with
  | [] => s
  | puts :: feed => { s with actor.prefillStore := s.actor.prefillStore ++ puts, feed := feed }

def Simulation.putDecode (s : Simulation Id) (item : Request Id) : Simulation Id :=
  { s with
    actor.decodeStore := s.actor.decodeStore ++ [item]
    decodePeak := max s.decodePeak (s.actor.decodeStore.length + 1) }

def Simulation.putDecoded (s : Simulation Id) (item : Request Id) : Simulation Id :=
  { s with actor.decodedStore := s.actor.decodedStore ++ [item] }

namespace LLMActor

def getNumTokensInDecode (actor : LLMActor Id) : Int := (actor.decodeStore.map Request.len).sum

def getExpectedNumTokensInKvcacheAfterDecode (actor : LLMActor Id) : Int :=
  actor.decodeStore.length + actor.getNumTokensInDecode

end LLMActor

/-! ## Prefill -/

inductive Source
  | recompute
  | prefill
deriving DecidableEq, Repr

def LLMActor.items (actor : LLMActor Id) : Source → List (Request Id)
  | .recompute => actor.recomputeStore
  | .prefill => actor.prefillStore

def LLMActor.withItems (actor : LLMActor Id) (items : List (Request Id)) : Source → LLMActor Id
  | .recompute => { actor with recomputeStore := items }
  | .prefill => { actor with prefillStore := items }

structure Fetched (Id : Type) where
  itemsToPrefill : List (Request Id) := []
  prefillBatchSize : Int := 0
  numNewSeq : Nat := 0

/-- The guard of both loops of `can_prefill_items` and `fetch_prefill_items`. -/
def LLMActor.full (actor : LLMActor Id) (fetched : Fetched Id) (oldestItem : Request Id) : Bool :=
  actor.decodeStore.length + fetched.numNewSeq + 1 > maxNumSeq ||
  fetched.prefillBatchSize + oldestItem.inputSize > maxNumBatchTokens ||
  (fetched.prefillBatchSize + fetched.numNewSeq + actor.getNumTokensInDecode : Rat) / actor.maxNumTokensAllowed ≥
    maxGPUMemoryPercBeforeRecompute

def canPrefillFrom (actor : LLMActor Id) (source : Source) : Bool :=
  match actor.items source with
  | [] => false
  | oldestItem :: _ => !actor.full {} oldestItem

def canPrefillItems (actor : LLMActor Id) : Bool :=
  canPrefillFrom actor .recompute || canPrefillFrom actor .prefill

/-- A loop of `fetch_prefill_items`. It ends after at most `maxNumSeq` rounds. -/
def fetchFrom (source : Source) : Nat → Fetched Id → Simulation Id → Fetched Id × Simulation Id
  | 0, fetched, s => (fetched, s)
  | rounds + 1, fetched, s =>
    match s.actor.items source with
    | [] => (fetched, s)
    | oldestItem :: items =>
      if s.actor.full fetched oldestItem then (fetched, s)
      else
        fetchFrom source rounds
          { itemsToPrefill := fetched.itemsToPrefill ++ [oldestItem]
            prefillBatchSize := fetched.prefillBatchSize + oldestItem.len
            numNewSeq := fetched.numNewSeq + 1 }
          { s with actor := s.actor.withItems items source }.yields

def fetchPrefillItems (s : Simulation Id) : List (Request Id) × Simulation Id :=
  let (fetched, s) := fetchFrom .recompute maxNumSeq {} s
  let (fetched, s) := fetchFrom .prefill maxNumSeq fetched s
  (fetched.itemsToPrefill, s)

def loadLora (s : Simulation Id) : Option String → Except Crash (Simulation Id)
  | none => .ok s
  | some lora =>
    if lora ∈ s.actor.loraLoaded then .ok s
    else
      match loraDict.lookup lora with
      | none => .error (.loraKeyError lora s.decodePeak)
      | some size =>
        .ok { s with
          actor.loraLoaded := lora :: s.actor.loraLoaded
          actor.maxNumTokensAllowed := s.actor.maxNumTokensAllowed - size }

def processPrefillItem (s : Simulation Id) (fetched : Request Id) : Except Crash (Simulation Id) := do
  let s ← loadLora s fetched.lora
  let s := { s with reqDict := fetched.id :: s.reqDict }
  let item := { fetched with outputSizeRemaining := fetched.outputSizeRemaining - 1 }
  if item.outputSizeRemaining = 0 then return s.putDecoded item
  if item.outputSizeRemaining ≤ 0 then throw .assertionError
  return s.putDecode item

def processPrefillItems (s : Simulation Id) (itemsToPrefill : List (Request Id)) : Except Crash (Simulation Id) :=
  itemsToPrefill.foldlM processPrefillItem s

/-! ## Decode -/

def takeForDecode : Nat → List (Request Id) → Simulation Id → Except Crash (List (Request Id) × Simulation Id)
  | 0, tempItems, s => .ok (tempItems, s)
  | rounds + 1, tempItems, s =>
    match s.actor.decodeStore with
    | [] => .error .stuck
    | first :: items =>
      let s := { s with actor.decodeStore := items }.yields
      let msg := { first with outputSizeRemaining := first.outputSizeRemaining - 1 }
      if msg.outputSizeRemaining < 0 then .error .valueError
      else takeForDecode rounds (tempItems ++ [msg]) { s with reqDict := msg.id :: s.reqDict }

def putBack (s : Simulation Id) (item : Request Id) : Simulation Id :=
  if item.outputSizeRemaining = 0 then s.putDecoded item else s.putDecode item

def decodeItems (s : Simulation Id) : Except Crash (Simulation Id) := do
  let (tempItems, s) ← takeForDecode s.actor.decodeStore.length [] s
  return tempItems.foldl putBack s

/-! ## Eviction -/

def shouldRecompute (actor : LLMActor Id) : Bool :=
  (actor.getExpectedNumTokensInKvcacheAfterDecode : Rat) / actor.maxNumTokensAllowed > maxGPUMemoryPercBeforeRecompute

variable [LinearOrder Id]

def LLMActor.putRecompute (actor : LLMActor Id) (item : Request Id) : LLMActor Id :=
  { actor with recomputeStore := actor.recomputeStore.orderedInsert (fun a b => a.id ≤ b.id) item }

/-- The loop of `remove_from_decode_store`. A round that removes nothing is repeated for ever, so the
loop ends after at most as many rounds as `decode_store` has items. -/
def removeRounds : Nat → Simulation Id → Except Crash (Simulation Id)
  | 0, s => if shouldRecompute s.actor then .error .stuck else .ok s
  | rounds + 1, s =>
    if shouldRecompute s.actor then
      match s.actor.decodeStore.getLast? with
      | none => .error .stuck
      | some newest =>
        if newest.id ∉ s.reqDict then .error .reqDictKeyError
        else
          match s.actor.decodeStore.find? (fun req => req.id = newest.id) with
          | none => .error .stuck
          | some newestDecodeItem =>
            let taken := s.actor.decodeStore.eraseP fun req => req.id = newest.id
            let s := { s with actor.decodeStore := taken }.yields
            removeRounds rounds { s with actor := s.actor.putRecompute newestDecodeItem }
    else .ok s

def removeFromDecodeStore (s : Simulation Id) : Except Crash (Simulation Id) :=
  removeRounds s.actor.decodeStore.length s

/-! ## The main loop -/

def iteration (s : Simulation Id) : Except Crash (Simulation Id) := do
  let s := s.yields
  if s.actor.decodeStore.length = 0 ∧ s.actor.prefillStore.length = 0 ∧ s.actor.recomputeStore.length = 0 then
    return s.yields
  if canPrefillItems s.actor then
    let (itemsToPrefill, s) := fetchPrefillItems s
    let s ← processPrefillItems s itemsToPrefill
    return s.yields
  let s ← if shouldRecompute s.actor then removeFromDecodeStore s else pure s
  if s.actor.decodeStore.length > 0 then
    let s ← decodeItems s
    return s.yields
  return s

/-- The simulation after some iterations of `prefill_or_decode` on a new actor. -/
def prefillOrDecode (feed : List (List (Request Id))) : Nat → Except Crash (Simulation Id)
  | 0 => .ok { feed := feed }
  | iterations + 1 => do iteration (← prefillOrDecode feed iterations)

end InferenceGateway.ContinuousBatching
