import InferenceGateway.Api
import InferenceGateway.Lib.Strip

/-!
# `pkg/epp/backend/metrics/metrics_spec.go`

A slice out of range, which would panic, is `none`. Indices count characters where the source counts
bytes; every separator is a single byte.
-/

namespace InferenceGateway.BackendMetrics
open Lib

structure MetricSpec where
  metricName : String
  labels : Option Labels  -- a map that may be nil
deriving DecidableEq

structure MetricMapping where
  totalQueuedRequests : Option MetricSpec := none
  kvCacheUtilization : Option MetricSpec := none
  loraRequestInfo : Option MetricSpec := none

inductive SpecErr
  | malformedBlock (specStr : List Char)
  | invalidPair (pair specStr : List Char)
  | emptyLabel (pair specStr : List Char)
  | trailing (specStr : List Char)
  | emptyName (specStr : List Char)
deriving DecidableEq, Repr

/-! ## `strings` -/

-- unicode.IsSpace
def spaces : List Char :=
  ['\t', '\n', '\x0b', '\x0c', '\r', ' ', '\u0085', '\u00a0', '\u1680',
    '\u2000', '\u2001', '\u2002', '\u2003', '\u2004', '\u2005', '\u2006', '\u2007', '\u2008',
    '\u2009', '\u200a', '\u2028', '\u2029', '\u202f', '\u205f', '\u3000']

def trimSpace (text : List Char) : List Char := Strip.strip (· ∈ spaces) text

def index (text : List Char) (c : Char) : Int := if c ∈ text then text.idxOf c else -1

def slice (text : List Char) (low high : Int) : Option (List Char) :=
  if 0 ≤ low ∧ low ≤ high ∧ high ≤ text.length then some ((text.take high.toNat).drop low.toNat) else none

/-! ## The parser -/

def addLabel (specStr : List Char) (labels : Labels) (pair : List Char) : Except SpecErr Labels :=
  let pair := trimSpace pair
  match pair.splitOn '=' with
  | [name, value] =>
    let labelName := trimSpace name
    let labelValue := trimSpace value
    if labelName = [] ∨ labelValue = [] then .error (.emptyLabel pair specStr)
    else .ok (labels.insert (.ofList labelName) (.ofList labelValue))
  | _ => .error (.invalidPair pair specStr)

def namedSpec (specStr metricName : List Char) (labels : Labels) : Except SpecErr (Option MetricSpec) :=
  if metricName = [] then .error (.emptyName specStr) else .ok (some ⟨.ofList metricName, some labels⟩)

/-- A string that has been trimmed. -/
def parseSpec (specStr : List Char) : Option (Except SpecErr (Option MetricSpec)) :=
  let start := index specStr '{'
  let stop := index specStr '}'
  if start ≠ -1 ∨ stop ≠ -1 then
    if start = -1 ∨ stop = -1 ∨ stop ≤ start + 1 then some (.error (.malformedBlock specStr))
    else do
      let metricName := trimSpace (← slice specStr 0 start)
      let labelStr ← slice specStr (start + 1) stop
      return do
        let labels ← (labelStr.splitOn ',').foldlM (addLabel specStr) ∅
        if stop ≠ specStr.length - 1 then throw (.trailing specStr)
        namedSpec specStr metricName labels
  else some (namedSpec specStr specStr ∅)

/-- The empty string stands for no spec. -/
def stringToMetricSpec (specStr : String) : Option (Except SpecErr (Option MetricSpec)) :=
  if specStr = "" then some (.ok none) else parseSpec (trimSpace specStr.toList)

def newMetricMapping (queuedStr kvUsageStr loraReqInfoStr : String) :
    Option (Except (String × SpecErr) MetricMapping) := do
  match ← stringToMetricSpec queuedStr with
  | .error err => return .error ("error parsing WaitingRequests", err)
  | .ok queuedSpec =>
    match ← stringToMetricSpec kvUsageStr with
    | .error err => return .error ("error parsing KVCacheUsage", err)
    | .ok kvUsageSpec =>
      match ← stringToMetricSpec loraReqInfoStr with
      | .error err => return .error ("error parsing loraReqInfoStr", err)
      | .ok loraReqInfoSpec => return .ok ⟨queuedSpec, kvUsageSpec, loraReqInfoSpec⟩

end InferenceGateway.BackendMetrics
