import InferenceGateway.Lib.RWMutex

namespace InferenceGateway.Datastore
open Lib.RWMutex

inductive Op
  | clear
  | poolSet
  | poolGet
  | poolHasSynced
  | poolLabelsMatch
  | modelSetIfOlder
  | modelResync
  | modelGet
  | modelDelete
  | modelGetAll
deriving DecidableEq, Repr

-- RLock and Lock are each followed by a deferred unlock, so an operation's lock calls are nested.
def readLocked (body : List Call) : List Call := .rlock :: (body ++ [.runlock])

def writeLocked (body : List Call) : List Call := .lock :: (body ++ [.unlock])

def poolHasSyncedCalls : List Call := readLocked []

def Op.lockCalls : Op → List Call
  | .clear => writeLocked []
  | .poolSet => writeLocked []
  -- PoolHasSynced is called with the read lock held
  | .poolGet => readLocked poolHasSyncedCalls
  | .poolHasSynced => poolHasSyncedCalls
  | .poolLabelsMatch => readLocked []
  | .modelSetIfOlder => writeLocked []
  | .modelResync => writeLocked []
  | .modelGet => readLocked []
  | .modelDelete => writeLocked []
  | .modelGetAll => readLocked []

def Op.writes (op : Op) : Prop := .lock ∈ op.lockCalls

instance (op : Op) : Decidable op.writes := inferInstanceAs (Decidable (.lock ∈ op.lockCalls))

def goroutines {ι : Type} (program : ι → List Op) : State ι where
  threads := fun i => { todo := (program i).flatMap Op.lockCalls }

end InferenceGateway.Datastore
