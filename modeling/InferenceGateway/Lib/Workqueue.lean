import Mathlib.Data.Finmap
import Mathlib.Data.Finset.Basic
import Mathlib.Logic.Relation

/-!
# Controllers with a work queue

A world of objects changes on its own. A change enqueues the keys of the objects that it concerns;
the queue is a set, so several changes of one object can leave one key. The controller takes a key
out of the queue, reads the world, and changes its store. The world may change between a
controller's first read and its later ones.
-/

namespace InferenceGateway.Lib.Workqueue

theorem lookup_insert_eq {K V : Type} [DecidableEq K] (map : Finmap (fun _ : K => V)) (key at_ : K)
    (value : V) : (map.insert key value).lookup at_ = if at_ = key then some value else map.lookup at_ := by
  split_ifs with same
  · rw [same, Finmap.lookup_insert]
  · exact Finmap.lookup_insert_of_ne map same

theorem lookup_erase_eq {K V : Type} [DecidableEq K] (map : Finmap (fun _ : K => V)) (key at_ : K) :
    (map.erase key).lookup at_ = if at_ = key then none else map.lookup at_ := by
  split_ifs with same
  · rw [same, Finmap.lookup_erase]
  · exact Finmap.lookup_erase_ne same

structure Controller (W K S : Type) where
  change : W → Finset K → W → Prop
  -- reconciling a key, with the world at the first read and the world at the later ones
  reconcile : K → W → W → S → S → Prop

structure State (W K S : Type) where
  world : W
  pending : Finset K := ∅
  store : S

variable {W K S X : Type} [DecidableEq K] {c : Controller W K S}

inductive Changes (c : Controller W K S) (w : W) (pending : Finset K) : W → Finset K → Prop
  | refl : Changes c w pending w pending
  | tail {w' w'' : W} {pending' keys : Finset K} (run : Changes c w pending w' pending')
      (change : c.change w' keys w'') : Changes c w pending w'' (pending' ∪ keys)

inductive Step (c : Controller W K S) (guard : K → State W K S → Prop) :
    State W K S → State W K S → Prop
  | change {s : State W K S} {keys : Finset K} {w : W} (change : c.change s.world keys w) :
      Step c guard s ⟨w, s.pending ∪ keys, s.store⟩
  | reconcile {s : State W K S} (key : K) {w : W} {pending : Finset K} {store : S}
      (enqueued : key ∈ s.pending) (guarded : guard key s)
      (meanwhile : Changes c s.world (s.pending.erase key) w pending)
      (reconcile : c.reconcile key s.world w s.store store) :
      Step c guard s ⟨w, pending, store⟩

abbrev Reaches (c : Controller W K S) (guard : K → State W K S → Prop) :
    State W K S → State W K S → Prop :=
  Relation.ReflTransGen (Step c guard)

def Unguarded : K → State W K S → Prop := fun _ _ => True

instance (key : K) (s : State W K S) : Decidable (Unguarded key s) := .isTrue trivial

theorem reaches_of_foldlM {A X : Type} (step : X → X → Prop) {perform : X → A → Option X}
    (sound : ∀ x action x', perform x action = some x' → step x x') {actions : List A} {x x' : X}
    (done : actions.foldlM perform x = some x') : Relation.ReflTransGen step x x' := by
  induction actions generalizing x with
  | nil =>
      cases done
      exact .refl
  | cons action actions ih =>
      rw [List.foldlM_cons] at done
      obtain ⟨next, performed, rest⟩ := Option.bind_eq_some_iff.mp done
      exact .head (sound x action next performed) (ih rest)

theorem Changes.subset {w w' : W} {pending pending' : Finset K}
    (run : Changes c w pending w' pending') : pending ⊆ pending' := by
  induction run with
  | refl => exact subset_rfl
  | tail _ _ ih => exact ih.trans Finset.subset_union_left

theorem Changes.keep {I : W → Finset K → Prop}
    (keep : ∀ {w keys w' pending}, c.change w keys w' → I w pending → I w' (pending ∪ keys))
    {w w' : W} {pending pending' : Finset K} (run : Changes c w pending w' pending')
    (more : Finset K) (holds : I w (pending ∪ more)) : I w' (pending' ∪ more) := by
  induction run with
  | refl => exact holds
  | tail _ change ih =>
      rw [Finset.union_right_comm]
      exact keep change ih

theorem Changes.keep_insert {I : W → Finset K → Prop}
    (keep : ∀ {w keys w' pending}, c.change w keys w' → I w pending → I w' (pending ∪ keys))
    {w w' : W} {pending pending' : Finset K} {key : K} (enqueued : key ∈ pending)
    (run : Changes c w (pending.erase key) w' pending') (holds : I w pending) :
    I w' (insert key pending') := by
  -- the key counts as pending until its reconcile is done
  have restored : pending.erase key ∪ {key} = pending := by
    rw [Finset.union_comm, ← Finset.insert_eq, Finset.insert_erase enqueued]
  have kept := run.keep keep {key} (by rwa [restored])
  rwa [Finset.union_comm, ← Finset.insert_eq] at kept

/-- The invariant rule. A reconcile may use the invariant of the state in which it starts and of the
world in which it ends, there with its own key still pending. -/
theorem Reaches.invariant {guard : K → State W K S → Prop} {I : W → Finset K → S → Prop}
    (change : ∀ {w keys w' pending store}, c.change w keys w' → I w pending store →
      I w' (pending ∪ keys) store)
    (reconcile : ∀ {key w w' pending pending' store store'}, guard key ⟨w, pending, store⟩ →
      key ∈ pending → Changes c w (pending.erase key) w' pending' → I w pending store →
      I w' (insert key pending') store → c.reconcile key w w' store store' → I w' pending' store')
    {s s' : State W K S} (run : Reaches c guard s s') (start : I s.world s.pending s.store) :
    I s'.world s'.pending s'.store := by
  induction run with
  | refl => exact start
  | @tail before _ _ step ih =>
      cases step with
      | change changed => exact change changed ih
      | reconcile key enqueued guarded meanwhile reconciled =>
          have carried := meanwhile.keep_insert (I := fun w pending => I w pending before.store)
            change enqueued ih
          exact reconcile guarded enqueued meanwhile ih carried reconciled

/-! ## Views -/

/-- A part of the world, one value a key, that only changes together with an event for the key. -/
structure View (c : Controller W K S) (X : Type) where
  see : W → K → X
  event : ∀ {w keys w' key}, c.change w keys w' → key ∉ keys → see w' key = see w key

theorem View.changes (view : View c X) {w w' : W} {pending pending' : Finset K}
    (run : Changes c w pending w' pending') {key : K} (settled : key ∉ pending') :
    view.see w' key = view.see w key := by
  induction run with
  | refl => rfl
  | tail _ change ih =>
      simp only [Finset.mem_union, not_or] at settled
      exact (view.event change settled.2).trans (ih settled.1)

/-! ## Objects with a history -/

/-- The objects by key, and the last object that each key ever had. -/
structure Objects (K O : Type) where
  current : Finmap (fun _ : K => O) := ∅
  last : Finmap (fun _ : K => O) := ∅

structure Watch (K O : Type) where
  key : O → K
  creates : O → Prop
  -- the object was deleted earlier and its key is taken by a new one
  recreates : O → O → Prop
  updates : O → O → Prop
  -- whether the change from one object to another passes the event filter
  enqueues : Option O → Option O → Bool

def Watch.keys {O : Type} (watch : Watch K O) (key : K) (old new : Option O) : Finset K :=
  if watch.enqueues old new then {key} else ∅

omit [DecidableEq K] in
@[simp] theorem Watch.mem_keys {O : Type} {watch : Watch K O} {key key' : K} {old new : Option O} :
    key' ∈ watch.keys key old new ↔ key' = key ∧ watch.enqueues old new = true := by
  unfold Watch.keys
  split_ifs with enqueued <;> simp [enqueued]

inductive Watch.Change {O : Type} (watch : Watch K O) :
    Objects K O → Finset K → Objects K O → Prop
  | create {objects : Objects K O} (new : O) (absent : objects.current.lookup (watch.key new) = none)
      (creates : watch.creates new)
      (recreates : ∀ old, objects.last.lookup (watch.key new) = some old → watch.recreates old new) :
      watch.Change objects (watch.keys (watch.key new) none (some new))
        ⟨objects.current.insert (watch.key new) new, objects.last.insert (watch.key new) new⟩
  | update {objects : Objects K O} (old new : O)
      (present : objects.current.lookup (watch.key new) = some old) (updates : watch.updates old new) :
      watch.Change objects (watch.keys (watch.key new) (some old) (some new))
        ⟨objects.current.insert (watch.key new) new, objects.last.insert (watch.key new) new⟩
  | delete {objects : Objects K O} (key : K) (old : O) (present : objects.current.lookup key = some old) :
      watch.Change objects (watch.keys key (some old) none) ⟨objects.current.erase key, objects.last⟩

section History
variable {O : Type} {watch : Watch K O} {objects objects' : Objects K O} {keys : Finset K}

theorem Watch.Change.concerns (change : watch.Change objects keys objects') :
    ∃ key, keys = watch.keys key (objects.current.lookup key) (objects'.current.lookup key) ∧
      ∀ other, other ≠ key → objects'.current.lookup other = objects.current.lookup other := by
  cases change with
  | create new absent =>
      exact ⟨watch.key new, by rw [absent, Finmap.lookup_insert],
        fun other different => Finmap.lookup_insert_of_ne _ different⟩
  | update old new present =>
      exact ⟨watch.key new, by rw [present, Finmap.lookup_insert],
        fun other different => Finmap.lookup_insert_of_ne _ different⟩
  | delete key old present =>
      exact ⟨key, by rw [present, Finmap.lookup_erase],
        fun other different => Finmap.lookup_erase_ne different⟩

def Watch.Kept (watch : Watch K O) (objects : Objects K O) : Prop :=
  ∀ key object, objects.current.lookup key = some object →
    watch.key object = key ∧ objects.last.lookup key = some object

theorem Watch.Change.kept (change : watch.Change objects keys objects') (kept : watch.Kept objects) :
    watch.Kept objects' := by
  intro key object
  cases change with
  | create new | update old new =>
      simp only [lookup_insert_eq]
      split_ifs with same
      · rintro ⟨⟩
        exact ⟨same.symm, rfl⟩
      · exact kept key object
  | delete deleted old =>
      simp only [lookup_erase_eq]
      split_ifs with same
      · intro found
        cases found
      · exact kept key object

theorem Watch.Change.last {A : Type} (f : O → A)
    (updates : ∀ old new, watch.updates old new → f new = f old)
    (recreates : ∀ old new, watch.recreates old new → f new = f old)
    (change : watch.Change objects keys objects') (kept : watch.Kept objects) {key : K} {a : A}
    (found : (objects.last.lookup key).map f = some a) : (objects'.last.lookup key).map f = some a := by
  obtain ⟨old, last, same⟩ := Option.map_eq_some_iff.mp found
  cases change with
  | create created absent creates fresh =>
      rw [lookup_insert_eq]
      split_ifs with here
      · rw [Option.map_some, recreates old created (fresh old (here ▸ last)), same]
      · exact found
  | update former updated present update =>
      rw [lookup_insert_eq]
      split_ifs with here
      · have current := (kept _ _ present).2
        rw [← here, last] at current
        obtain rfl := Option.some.inj current
        rw [Option.map_some, updates old updated update, same]
      · exact found
  | delete deleted former present => exact found

end History

end InferenceGateway.Lib.Workqueue
