import InferenceGateway.Basic
import InferenceGateway.Lib.Dialogue
import Mathlib.Order.Interval.Set.Defs

/-!
# The filters of `pkg/epp/scheduling/filter.go`

`GetMetrics` is an atomic load of a pointer that the refresh loop of the pod may replace at any
time, so every call is a query to the environment: two calls for one pod may observe different
metrics. The log of a run has these readings, and which filter was running. The filters are written
over an arbitrary type `π` of pods, the implementations of the `PodMetrics` interface.
-/

namespace InferenceGateway
open Lib

structure Metrics where
  activeModels : Finmap fun _ : String => Int64 := ∅
  maxActiveModels : Int64 := 0
  waitingQueueSize : Int64 := 0
  kvCacheUsagePercent : Float64 := .finite 0

structure LLMRequest where
  model : String
  resolvedTargetModel : String
  critical : Bool

/-- Where `GetMetrics` is called: in the two loops of a range filter, before a bound of the range is replaced
and to replace it, and to compare a pod with either bound, or somewhere else. -/
inductive Site
  | minTest
  | minSet
  | maxTest
  | maxSet
  | lower
  | upper
  | elsewhere
deriving DecidableEq

/-- What a run of the scheduler does not decide itself: the metrics that a `GetMetrics` call observes and the
outcomes of `rand.Float64` and `rand.Intn`. -/
inductive Query (π : Type)
  | getMetrics (site : Site) (pod : π)
  | float64
  | intn

abbrev Query.Answer {π : Type} : Query π → Type
  | .getMetrics _ _ => Metrics
  | .float64 => Set.Ico (0 : ℚ) 1
  | .intn => Nat

/-- The message with which a filter starts. -/
structure RunningFilter where
  name : String
  podCount : Nat

abbrev Run (π α : Type) := Dialogue (Query π) Query.Answer RunningFilter α

/-- The answers, by the number of queries made so far. -/
structure Env (π : Type) where
  getMetrics : Nat → π → Metrics
  float64 : Nat → Set.Ico (0 : ℚ) 1
  intn : Nat → Nat

variable {π : Type}

def Env.answers (env : Env π) (t : Nat) : (query : Query π) → query.Answer
  | .getMetrics _ pod => env.getMetrics t pod
  | .float64 => env.float64 t
  | .intn => env.intn t

/-- What a run returns, and the number of queries by then. -/
def Run.exec {α : Type} (x : Run π α) (env : Env π) (t : Nat) : α × Nat := x.run env.answers t

instance {α : Type} : CoeFun (Run π α) fun _ => Env π → Nat → α × Nat := ⟨Run.exec⟩

def getMetrics (site : Site) (pod : π) : Run π Metrics := .ask (Query.getMetrics site pod)

def randFloat64 : Run π Float64 := do
  let draw ← Dialogue.ask Query.float64
  return .finite draw

def randIntn (n : Nat) (positive : 0 < n) : Run π (Fin n) := do
  let i ← Dialogue.ask Query.intn
  return ⟨i % n, Nat.mod_lt _ positive⟩

abbrev FilterFunc (π : Type) := LLMRequest → List π → Run π (List π × Option Err)

abbrev PodPredicate (π : Type) := LLMRequest → π → Run π Bool

/-! ## The decision tree -/

structure Filter (π : Type) where
  name : String
  filter : FilterFunc π
  nextOnSuccess : Option (Filter π) := none
  nextOnFailure : Option (Filter π) := none
  nextOnSuccessOrFailure : Option (Filter π) := none

def succeeded (result : List π × Option Err) : Bool := result.2.isNone && 0 < result.1.length

mutual

def Filter.run : Filter π → FilterFunc π
  | ⟨name, filter, nextOnSuccess, nextOnFailure, nextOnSuccessOrFailure⟩, req, pods => do
      Dialogue.remark ⟨name, pods.length⟩
      let result ← filter req pods
      if succeeded result then
        match (runNext nextOnSuccess).or (runNext nextOnSuccessOrFailure) with
        | none => pure result
        | some next => next req result.1
      else
        match (runNext nextOnFailure).or (runNext nextOnSuccessOrFailure) with
        | none => pure result
        | some next => next req pods

def runNext : Option (Filter π) → Option (FilterFunc π)
  | none => none
  | some next => some next.run

end

/-! ## The filter functions -/

def toFilterFunc (pp : PodPredicate π) : FilterFunc π := fun req pods => do
  let filtered ← Dialogue.keep (pp req) pods
  if filtered.length = 0 then
    pure ([], some (.new "no pods left"))
  else
    pure (filtered, none)

section Least
variable {ν : Type} (value : Metrics → ν) (le : ν → ν → Bool)

def widen (range : ν × ν) (pod : π) : Run π (ν × ν) := do
  -- each comparison and each assignment reads the metrics again
  let mut (min, max) := range
  if le (value (← getMetrics .minTest pod)) min then
    min := value (← getMetrics .minSet pod)
  if le max (value (← getMetrics .maxTest pod)) then
    max := value (← getMetrics .maxSet pod)
  return (min, max)

def inFirstRange (min bound : ν) (pod : π) : Run π Bool := do
  -- && is lazy: the second reading happens only if the first passes
  if le min (value (← getMetrics .lower pod)) then
    return le (value (← getMetrics .upper pod)) bound
  else
    return false

/-- The shape shared by the least-queuing and the least-KV-cache filter: find the range of the
values, then keep the pods in the first of `len(pods)` equal parts of it. -/
def leastFilterFunc (top zero : ν) (bound : ν → ν → Nat → ν) : FilterFunc π := fun _ pods => do
  let range ← pods.foldlM (widen value le) (top, zero)
  let filtered ← Dialogue.keep (inFirstRange value le range.1 (bound range.1 range.2 pods.length)) pods
  pure (filtered, none)

end Least

-- on int, with wrap-around
def queueBound (min max : Int64) (count : Nat) : Int64 := min + (max - min) / Int64.ofNat count

def leastQueuingFilterFunc : FilterFunc π :=
  leastFilterFunc Metrics.waitingQueueSize (fun a b => a ≤ b) Int64.maxValue 0 queueBound

open Arithmetic in
def kvCacheBound [Arithmetic] (min max : Float64) (count : Nat) : Float64 :=
  round (min.add (round ((round (max.sub min)).divide (round (.finite count)))))

def leastKVCacheFilterFunc [Arithmetic] : FilterFunc π :=
  leastFilterFunc Metrics.kvCacheUsagePercent Float64.le Float64.maxFloat64 (.finite 0) kvCacheBound

def categorize (req : LLMRequest) (groups : List π × List π) (pod : π) :
    Run π (List π × List π) := do
  if req.resolvedTargetModel ∈ (← getMetrics .elsewhere pod).activeModels then
    return (groups.1 ++ [pod], groups.2)
  else if Int64.ofNat (← getMetrics .elsewhere pod).activeModels.keys.card <
      (← getMetrics .elsewhere pod).maxActiveModels then
    return (groups.1, groups.2 ++ [pod])
  else
    return groups

def loRASoftAffinityFilter (loraAffinityThreshold : Float64) : FilterFunc π := fun req pods => do
  let (filteredAffinity, filteredAvailable) ← pods.foldlM (categorize req) ([], [])
  if filteredAffinity.length > 0 && filteredAvailable.length > 0 then
    if (← randFloat64).lt loraAffinityThreshold then
      return (filteredAffinity, none)
    else
      return (filteredAvailable, none)
  else if filteredAffinity.length > 0 then
    return (filteredAffinity, none)
  else
    return (filteredAvailable, none)

def lowQueueingPodPredicate (queueingThresholdLoRA : Int64) : PodPredicate π := fun _ pod => do
  return (← getMetrics .elsewhere pod).waitingQueueSize < queueingThresholdLoRA

def criticalRequestPredicate : PodPredicate π := fun req _ => pure req.critical

def noQueueAndLessThanKVCacheThresholdPredicate (queueThreshold : Int64)
    (kvCacheThreshold : Float64) : PodPredicate π := fun _ pod => do
  if (← getMetrics .elsewhere pod).waitingQueueSize ≤ queueThreshold then
    return (← getMetrics .elsewhere pod).kvCacheUsagePercent.le kvCacheThreshold
  else
    return false

end InferenceGateway
