import Mathlib.Data.Fin.VecNotation
import Mathlib.Data.Fintype.Basic
import InferenceGateway.Datastore.Locking

namespace InferenceGateway.Datastore
open Lib.RWMutex

def Op.shape (op : Op) : Section :=
  if op = .poolGet then .nestedRead else if op.writes then .write else .read

theorem Op.shape_calls (op : Op) : op.shape.calls = op.lockCalls := by
  cases op <;> rfl

theorem Op.shape_eq_nestedRead {op : Op} : op.shape = .nestedRead ↔ op = .poolGet := by
  cases op <;> decide

theorem Op.shape_eq_write {op : Op} : op.shape = .write ↔ op.writes := by
  cases op <;> decide

theorem goroutines_eq_start {ι : Type} (program : ι → List Op) :
    goroutines program = start (fun i => (program i).map Op.shape) := by
  simp only [goroutines, start, calls, List.flatMap_map, Op.shape_calls]

/-- Goroutines that use the datastore never get stuck exactly when none of them calls `PoolGet`
while another one calls an operation that takes the write lock. -/
theorem locking_progress_iff {ι : Type} [DecidableEq ι] [Fintype ι] (program : ι → List Op) :
    (∀ s, Reaches (goroutines program) s → Unfinished s → ∃ s', Step s s') ↔
      ∀ i j, i ≠ j → .poolGet ∈ program i → ∀ op ∈ program j, ¬op.writes := by
  rw [goroutines_eq_start, progress_iff]
  have nested (i : ι) : .nestedRead ∈ (program i).map Op.shape ↔ .poolGet ∈ program i := by
    simp [Op.shape_eq_nestedRead]
  have write (j : ι) : .write ∉ (program j).map Op.shape ↔ ∀ op ∈ program j, ¬op.writes := by
    simp [Op.shape_eq_write]
  simp only [nested, write]

theorem poolGet_deadlocks_with_poolSet :
    ∃ s, Reaches (goroutines ![[.poolGet], [.poolSet]]) s ∧ Deadlocked s := by
  rw [goroutines_eq_start]
  exact deadlock_reachable (i := 0) (j := 1) (by decide) (by decide) (by decide)

end InferenceGateway.Datastore
