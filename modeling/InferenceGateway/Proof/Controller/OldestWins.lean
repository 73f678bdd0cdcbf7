import InferenceGateway.Proof.Controller.ModelRuns

namespace InferenceGateway.InferenceModelReconciler
open Lib.Workqueue

section Invariant
variable {c : InferenceModelReconciler} {recreates : InferenceModel → InferenceModel → Prop}
  {objects objects' : Objects NamespacedName InferenceModel} {keys pending pending' : Finset NamespacedName}
  {ds ds' : Datastore} {key : NamespacedName} {A : Type} {f : InferenceModel → A}

structure Routed (c : InferenceModelReconciler) (recreates : InferenceModel → InferenceModel → Prop)
    (objects : Objects NamespacedName InferenceModel) (pending : Finset NamespacedName)
    (ds : Datastore) : Prop extends Base c recreates objects pending ds where
  backed : Backed (c.liveAt objects) pending ds.models

theorem Routed.start (synced : c.Synced ds) (empty : ds.models = ∅) : Routed c recreates {} ∅ ds where
  kept := by intro key m found; cases found
  synced := synced
  watched := by simp
  backed := ⟨by simp [empty], by simp [empty]⟩

theorem Routed.change (routed : Routed c recreates objects pending ds)
    (change : (c.controller recreates).change objects keys objects') :
    Routed c recreates objects' (pending ∪ keys) ds where
  toBase := routed.toBase.change change
  backed := routed.backed.unseen Finset.subset_union_left fun _ settled =>
    (c.liveView recreates).event change fun member => settled (Finset.mem_union_right _ member)

theorem Routed.reconcile (routed : Routed c recreates objects pending ds) (enqueued : key ∈ pending)
    (meanwhile : Changes (c.controller recreates) objects (pending.erase key) objects' pending')
    (carried : Routed c recreates objects' (insert key pending') ds)
    (tidy : Tidy (c.liveAt objects) ds.models key)
    (reconciled : (c.controller recreates).reconcile key objects objects' ds ds') :
    Routed c recreates objects' pending' ds' := by
  obtain ⟨synced, spec⟩ := routed.toBase.reconcile enqueued reconciled
  refine ⟨⟨carried.kept, synced, fun other member => ?_⟩, ?_⟩
  · exact carried.watched other (Finset.mem_insert_of_mem member)
  · exact carried.backed.reconciled (fun _ _ found => (carried.toBase.keyed found).1)
      (fun _ found => (routed.toBase.keyed found).1) ((c.liveView recreates).changes meanwhile) tidy spec

theorem Routed.reaches (synced : c.Synced ds) (empty : ds.models = ∅)
    {guard : NamespacedName → State _ NamespacedName Datastore → Prop}
    (tidy : ∀ key s, guard key s → Routed c recreates s.world s.pending s.store →
      Tidy (c.liveAt s.world) s.store.models key)
    {s : State _ NamespacedName Datastore} (run : Reaches (c.controller recreates) guard ⟨{}, ∅, ds⟩ s) :
    Routed c recreates s.world s.pending s.store := by
  refine Reaches.invariant (I := Routed c recreates) (fun change routed => routed.change change) ?_ run
    (Routed.start synced empty)
  intro key objects objects' pending pending' ds ds' guarded enqueued meanwhile routed carried reconciled
  exact routed.reconcile enqueued meanwhile carried (tidy key ⟨objects, pending, ds⟩ guarded routed) reconciled

structure Lasting (c : InferenceModelReconciler) (recreates : InferenceModel → InferenceModel → Prop)
    (f : InferenceModel → A) : Prop where
  names : ∀ m m', f m = f m' → m.spec.modelName = m'.spec.modelName
  updates : ∀ old new, (c.watch recreates).updates old new → f new = f old
  recreates : ∀ old new, recreates old new → f new = f old

structure Ordered (c : InferenceModelReconciler) (recreates : InferenceModel → InferenceModel → Prop)
    (f : InferenceModel → A) (objects : Objects NamespacedName InferenceModel)
    (pending : Finset NamespacedName) (ds : Datastore) : Prop
    extends Routed c recreates objects pending ds where
  covered : Covered (c.liveAt objects) pending ds.models
  recorded : Recorded f objects ds.models

theorem Ordered.start (synced : c.Synced ds) (empty : ds.models = ∅) : Ordered c recreates f {} ∅ ds where
  toRouted := .start synced empty
  covered := by intro key m found; cases found
  recorded := by simp [Recorded, empty]

theorem Ordered.change (lasting : Lasting c recreates f) (ordered : Ordered c recreates f objects pending ds)
    (change : (c.controller recreates).change objects keys objects') :
    Ordered c recreates f objects' (pending ∪ keys) ds where
  toRouted := ordered.toRouted.change change
  covered := ordered.covered.unseen Finset.subset_union_left fun _ settled =>
    (c.liveView recreates).event change fun member => settled (Finset.mem_union_right _ member)
  recorded name m stored := change.last f lasting.updates lasting.recreates ordered.kept
    (ordered.recorded name m stored)

theorem Lasting.changes (lasting : Lasting c recreates f) (kept : (c.watch recreates).Kept objects)
    (run : Changes (c.controller recreates) objects pending objects' pending') {a : A}
    (found : (objects.last.lookup key).map f = some a) : (objects'.last.lookup key).map f = some a := by
  suffices (c.watch recreates).Kept objects' ∧ (objects'.last.lookup key).map f = some a from this.2
  induction run with
  | refl => exact ⟨kept, found⟩
  | tail _ change ih =>
      exact ⟨Watch.Change.kept change ih.1,
        Watch.Change.last f lasting.updates lasting.recreates change ih.1 ih.2⟩

theorem Ordered.reconcile (lasting : Lasting c recreates f) (ordered : Ordered c recreates f objects pending ds)
    (enqueued : key ∈ pending)
    (meanwhile : Changes (c.controller recreates) objects (pending.erase key) objects' pending')
    (carried : Ordered c recreates f objects' (insert key pending') ds)
    (fair : Fair (c.liveAt objects) pending ds.models key)
    (reconciled : (c.controller recreates).reconcile key objects objects' ds ds') :
    Ordered c recreates f objects' pending' ds' := by
  have tidy := ordered.recorded.tidy lasting.names ordered.toBase ordered.backed key
  have routed := ordered.toRouted.reconcile enqueued meanwhile carried.toRouted tidy reconciled
  obtain ⟨_, spec⟩ := ordered.toBase.reconcile enqueued reconciled
  refine ⟨routed, ?_, ?_⟩
  · apply carried.covered.reconciled ((c.liveView recreates).changes meanwhile) _ spec
    intro object existing found stored own replaced other m settled live named
    rw [Finset.mem_insert, not_or] at settled
    have before : other ∉ pending := fun member =>
      settled.2 (meanwhile.subset (Finset.mem_erase.mpr ⟨settled.1, member⟩))
    have seen : c.liveAt objects other = some m :=
      ((c.liveView recreates).changes meanwhile settled.2).symm.trans live
    exact fair object existing found stored own replaced other m before seen named
  · refine carried.recorded.reconciled (fun m found => ?_) carried.toBase ordered.backed.named tidy spec
    obtain ⟨own, last⟩ := ordered.toBase.keyed found
    apply lasting.changes ordered.kept meanwhile
    rw [own, last, Option.map_some]

theorem Ordered.reaches (lasting : Lasting c recreates f) (synced : c.Synced ds) (empty : ds.models = ∅)
    {guard : NamespacedName → State _ NamespacedName Datastore → Prop}
    (fair : ∀ key s, guard key s → Ordered c recreates f s.world s.pending s.store →
      Fair (c.liveAt s.world) s.pending s.store.models key)
    {s : State _ NamespacedName Datastore} (run : Reaches (c.controller recreates) guard ⟨{}, ∅, ds⟩ s) :
    Ordered c recreates f s.world s.pending s.store := by
  refine Reaches.invariant (I := Ordered c recreates f) (fun change ordered => ordered.change lasting change)
    ?_ run (Ordered.start synced empty)
  intro key objects objects' pending pending' ds ds' guarded enqueued meanwhile ordered carried reconciled
  exact ordered.reconcile lasting enqueued meanwhile carried
    (fair key ⟨objects, pending, ds⟩ guarded ordered) reconciled

end Invariant

/-! ## The oldest InferenceModel wins -/

/-- A name has an entry exactly if a live InferenceModel of the pool has it; the entry is such an
object in its current version, and no other one is older. -/
def OldestWins (c : InferenceModelReconciler) (objects : Finmap (fun _ : NamespacedName => InferenceModel))
    (models : Models) : Prop :=
  ∀ name,
    ((∃ entry, models.lookup name = some entry) ↔
      ∃ key m, objects.lookup key = some m ∧ c.live m = true ∧ m.spec.modelName = name) ∧
    ∀ entry, models.lookup name = some entry →
      (objects.lookup entry.namespacedName = some entry ∧ c.live entry = true ∧
        entry.spec.modelName = name) ∧
      ∀ key m, objects.lookup key = some m → c.live m = true → m.spec.modelName = name →
        entry.creationTimestamp ≤ m.creationTimestamp

theorem oldestWins_of_settled {c : InferenceModelReconciler} {objects : Objects NamespacedName InferenceModel}
    {models : Models} (backed : Backed (c.liveAt objects) ∅ models)
    (covered : Covered (c.liveAt objects) ∅ models) : c.OldestWins objects.current models := by
  have current (name : String) (entry : InferenceModel) (stored : models.lookup name = some entry) :=
    liveAt_eq_some.mp (backed.backed name entry stored (Finset.notMem_empty _))
  intro name
  refine ⟨⟨?_, ?_⟩, ?_⟩
  · rintro ⟨entry, stored⟩
    obtain ⟨present, live⟩ := current name entry stored
    exact ⟨_, entry, present, live, backed.named name entry stored⟩
  · rintro ⟨key, m, present, live, rfl⟩
    obtain ⟨entry, stored, _⟩ := covered key m (liveAt_eq_some.mpr ⟨present, live⟩) (Finset.notMem_empty _)
    exact ⟨entry, stored⟩
  · intro entry stored
    obtain ⟨present, live⟩ := current name entry stored
    refine ⟨⟨present, live, backed.named name entry stored⟩, ?_⟩
    rintro key m present' live' rfl
    obtain ⟨oldest, stored', notYounger⟩ :=
      covered key m (liveAt_eq_some.mpr ⟨present', live'⟩) (Finset.notMem_empty _)
    obtain rfl := Option.some.inj (stored.symm.trans stored')
    exact notYounger

theorem oldest_model_wins (c : InferenceModelReconciler) (ds : Datastore) (synced : c.Synced ds)
    (empty : ds.models = ∅) (s : State (Objects NamespacedName InferenceModel) NamespacedName Datastore)
    (run : Reaches (c.controller fun _ _ => False) Unguarded ⟨{}, ∅, ds⟩ s) (quiet : s.pending = ∅) :
    c.OldestWins s.world.current s.store.models := by
  have lasting : Lasting c (fun _ _ => False) fun m => (m.spec.modelName, m.creationTimestamp) :=
    ⟨fun _ _ same => congrArg Prod.fst same, fun _ _ update => Prod.ext update.2.1 update.1,
      fun _ _ never => never.elim⟩
  have ordered := Ordered.reaches lasting synced empty ?_ run
  · exact oldestWins_of_settled (quiet ▸ ordered.backed) (quiet ▸ ordered.covered)
  · -- the entry of a key has the creation timestamp of the key's only object
    intro key s _ ordered object existing found stored own younger
    have recorded := ordered.recorded _ existing stored
    rw [own, (ordered.toBase.keyed found).2, Option.map_some, Option.some.injEq] at recorded
    exact absurd (congrArg Prod.snd recorded) younger.ne'

section Evaluation
variable (c : InferenceModelReconciler) (recreates : InferenceModel → InferenceModel → Prop)
  [DecidableRel recreates]
  (guard : NamespacedName → State (Objects NamespacedName InferenceModel) NamespacedName Datastore → Prop)
  [∀ key s, Decidable (guard key s)]
  (s : State (Objects NamespacedName InferenceModel) NamespacedName Datastore)

def reconcileNow (key : NamespacedName) (listing : List NamespacedName) (order : List String)
    (objects : Objects NamespacedName InferenceModel) (ds : Datastore) :
    Option (Except Err Unit × Datastore) :=
  c.reconcile (Cluster.client { models := objects.current } { models := objects.current } ⟨listing, []⟩)
    order key ds

inductive Action
  | create (new : InferenceModel)
  | delete (key : NamespacedName)
  | reconcile (key : NamespacedName) (listing : List NamespacedName) (order : List String)

def perform : Action → Option (State (Objects NamespacedName InferenceModel) NamespacedName Datastore)
  | .create new =>
    if s.world.current.lookup new.namespacedName = none ∧ new.deletionTimestamp = none ∧
        ∀ old ∈ s.world.last.lookup new.namespacedName, recreates old new then
      some ⟨⟨s.world.current.insert new.namespacedName new, s.world.last.insert new.namespacedName new⟩,
        s.pending ∪ (c.watch recreates).keys new.namespacedName none (some new), s.store⟩
    else none
  | .delete key =>
    (s.world.current.lookup key).map fun old =>
      ⟨⟨s.world.current.erase key, s.world.last⟩,
        s.pending ∪ (c.watch recreates).keys key (some old) none, s.store⟩
  | .reconcile key listing order =>
    if key ∈ s.pending ∧ guard key s ∧ RangesOver listing s.world.current ∧
        RangesOver order s.store.models then
      (c.reconcileNow key listing order s.world s.store).map fun result =>
        ⟨s.world, s.pending.erase key, result.2⟩
    else none

variable {c recreates guard s}

theorem perform_step {action : Action}
    {s' : State (Objects NamespacedName InferenceModel) NamespacedName Datastore}
    (performed : perform c recreates guard s action = some s') :
    Step (c.controller recreates) guard s s' := by
  cases action with
  | create new =>
      obtain ⟨⟨absent, unmarked, again⟩, created⟩ := Option.ite_none_right_eq_some.mp performed
      cases created
      exact .change (.create new absent unmarked again)
  | delete key =>
      obtain ⟨old, present, rfl⟩ := Option.map_eq_some_iff.mp performed
      exact .change (.delete key old present)
  | reconcile key listing order =>
      obtain ⟨⟨enqueued, guarded, lists, ranges⟩, reconciled⟩ := Option.ite_none_right_eq_some.mp performed
      obtain ⟨⟨result, ds⟩, done, rfl⟩ := Option.map_eq_some_iff.mp reconciled
      exact .reconcile key enqueued guarded .refl ⟨⟨listing, []⟩, order, result,
        ⟨lists, List.nodup_nil, fun _ => iff_of_false List.not_mem_nil Finmap.notMem_empty⟩, ranges, done⟩

variable (c recreates guard s)

theorem reaches_performed (actions : List Action)
    (returns : (actions.foldlM (perform c recreates guard) s).isSome) :
    Reaches (c.controller recreates) guard s ((actions.foldlM (perform c recreates guard) s).get returns) :=
  reaches_of_foldlM (Step (c.controller recreates) guard) (fun _ _ _ => perform_step) (Option.some_get returns).symm

end Evaluation

def testReconciler : InferenceModelReconciler := ⟨⟨"default", "pool"⟩⟩

def testKey (name : String) : NamespacedName := ⟨"default", name⟩

def testStart : State (Objects NamespacedName InferenceModel) NamespacedName Datastore :=
  ⟨{}, ∅, { pool := some testPool }⟩

theorem testReconciler_synced : testReconciler.Synced testStart.store :=
  ⟨testPool, rfl, rfl, rfl⟩

def backfillTrace : List Action :=
  [.create (testModel "a" "llama" 1), .create (testModel "b" "llama" 2),
    .reconcile (testKey "a") [testKey "a", testKey "b"] [],
    .reconcile (testKey "b") [testKey "a", testKey "b"] ["llama"],
    .delete (testKey "a"), .reconcile (testKey "a") [testKey "b"] ["llama"]]

theorem oldest_model_wins_after_backfill :
    ∃ s, Reaches (testReconciler.controller fun _ _ => False) Unguarded testStart s ∧ s.pending = ∅ ∧
      s.store.models.lookup "llama" = some (testModel "b" "llama" 2) ∧
      testReconciler.OldestWins s.world.current s.store.models := by
  have run := reaches_performed testReconciler (fun _ _ => False) Unguarded testStart backfillTrace
    (by decide +kernel)
  exact ⟨_, run, by decide +kernel, by decide +kernel,
    oldest_model_wins testReconciler _ testReconciler_synced rfl _ run (by decide +kernel)⟩

/-! ## Objects that are deleted and created again -/

def Recreated (old new : InferenceModel) : Prop :=
  new.spec.modelName = old.spec.modelName ∧ old.creationTimestamp < new.creationTimestamp

instance : DecidableRel Recreated := fun _ _ => inferInstanceAs (Decidable (_ ∧ _))

theorem oldest_model_wins_of_fair (c : InferenceModelReconciler) (ds : Datastore) (synced : c.Synced ds)
    (empty : ds.models = ∅) (s : State (Objects NamespacedName InferenceModel) NamespacedName Datastore)
    (run : Reaches (c.controller Recreated)
      (fun key s => Fair (c.liveAt s.world) s.pending s.store.models key) ⟨{}, ∅, ds⟩ s)
    (quiet : s.pending = ∅) : c.OldestWins s.world.current s.store.models := by
  have lasting : Lasting c Recreated fun m => m.spec.modelName :=
    ⟨fun _ _ same => same, fun _ _ update => update.2.1, fun _ _ recreated => recreated.1⟩
  have ordered := Ordered.reaches lasting synced empty (fun _ _ fair _ => fair) run
  exact oldestWins_of_settled (quiet ▸ ordered.backed) (quiet ▸ ordered.covered)

theorem fair_iff {c : InferenceModelReconciler} {objects : Objects NamespacedName InferenceModel}
    {pending : Finset NamespacedName} {models : Models} {key : NamespacedName} :
    Fair (c.liveAt objects) pending models key ↔
      ∀ object ∈ c.liveAt objects key, ∀ existing ∈ models.lookup object.spec.modelName,
        existing.namespacedName = key → existing.creationTimestamp < object.creationTimestamp →
        ∀ other ∈ objects.current.keys, other ∉ pending → ∀ m ∈ c.liveAt objects other,
          m.spec.modelName = object.spec.modelName → object.creationTimestamp ≤ m.creationTimestamp := by
  constructor
  · intro fair object found existing stored own younger other _ settled m live named
    exact fair object existing found stored own younger other m settled live named
  · intro bounded object existing found stored own younger other m settled live named
    have present := Finmap.mem_of_lookup_eq_some (liveAt_eq_some.mp live).1
    exact bounded object found existing stored own younger other (Finmap.mem_keys.mpr present) settled m
      live named

instance (c : InferenceModelReconciler) (objects : Objects NamespacedName InferenceModel)
    (pending : Finset NamespacedName) (models : Models) (key : NamespacedName) :
    Decidable (Fair (c.liveAt objects) pending models key) :=
  decidable_of_iff _ fair_iff.symm

def recreatedAloneTrace : List Action :=
  [.create (testModel "a" "llama" 1), .reconcile (testKey "a") [testKey "a"] [],
    .delete (testKey "a"), .create (testModel "a" "llama" 3),
    .reconcile (testKey "a") [testKey "a"] ["llama"]]

theorem oldest_model_wins_of_fair_alone :
    ∃ s, Reaches (testReconciler.controller Recreated)
        (fun key s => Fair (testReconciler.liveAt s.world) s.pending s.store.models key) testStart s ∧
      s.pending = ∅ ∧ s.store.models.lookup "llama" = some (testModel "a" "llama" 3) ∧
      testReconciler.OldestWins s.world.current s.store.models := by
  have run := reaches_performed testReconciler Recreated
    (fun key s => Fair (testReconciler.liveAt s.world) s.pending s.store.models key) testStart
    recreatedAloneTrace (by decide +kernel)
  exact ⟨_, run, by decide +kernel, by decide +kernel,
    oldest_model_wins_of_fair testReconciler _ testReconciler_synced rfl _ run (by decide +kernel)⟩

def recreatedRivalTrace : List Action :=
  [.create (testModel "a" "llama" 1), .reconcile (testKey "a") [testKey "a"] [],
    .create (testModel "b" "llama" 2), .reconcile (testKey "b") [testKey "a", testKey "b"] ["llama"],
    .delete (testKey "a"), .create (testModel "a" "llama" 3),
    .reconcile (testKey "a") [testKey "a", testKey "b"] ["llama"]]

theorem recreated_model_displaces_older_rival :
    ∃ s, Reaches (testReconciler.controller Recreated) Unguarded testStart s ∧ s.pending = ∅ ∧
      s.store.models.lookup "llama" = some (testModel "a" "llama" 3) ∧
      s.world.current.lookup (testKey "b") = some (testModel "b" "llama" 2) ∧
      testReconciler.live (testModel "b" "llama" 2) = true := by
  have run := reaches_performed testReconciler Recreated Unguarded testStart recreatedRivalTrace
    (by decide +kernel)
  exact ⟨_, run, by decide +kernel, by decide +kernel, by decide +kernel, by decide +kernel⟩

/-! ## Objects that are created again under another model name -/

theorem model_entries_backed_of_tidy (c : InferenceModelReconciler) (ds : Datastore) (synced : c.Synced ds)
    (empty : ds.models = ∅) (s : State (Objects NamespacedName InferenceModel) NamespacedName Datastore)
    (run : Reaches (c.controller fun _ _ => True)
      (fun key s => Tidy (c.liveAt s.world) s.store.models key) ⟨{}, ∅, ds⟩ s)
    (quiet : s.pending = ∅) :
    (∀ name m, s.store.models.lookup name = some m →
      s.world.current.lookup m.namespacedName = some m ∧ m.spec.modelName = name) ∧
    ∀ name name' m m', s.store.models.lookup name = some m → s.store.models.lookup name' = some m' →
      m.namespacedName = m'.namespacedName → name = name' := by
  have routed := Routed.reaches synced empty (fun _ _ tidy _ => tidy) run
  have backed (name : String) (m : InferenceModel) (stored : s.store.models.lookup name = some m) :
      s.world.current.lookup m.namespacedName = some m ∧ m.spec.modelName = name :=
    ⟨(liveAt_eq_some.mp (routed.backed.backed name m stored (by simp [quiet]))).1,
      routed.backed.named name m stored⟩
  refine ⟨backed, fun name name' m m' stored stored' same => ?_⟩
  obtain ⟨present, rfl⟩ := backed name m stored
  obtain ⟨present', rfl⟩ := backed name' m' stored'
  rw [same, present', Option.some.injEq] at present
  rw [present]

theorem tidy_iff {live : Live} {models : Models} {key : NamespacedName} :
    Tidy live models key ↔ ∀ name ∈ models.keys, ∀ m ∈ models.lookup name, m.namespacedName = key →
      (∀ name' ∈ models.keys, ∀ m' ∈ models.lookup name', m'.namespacedName = key → name = name') ∧
      ∀ object ∈ live key, name = object.spec.modelName := by
  have entry {name : String} {m : InferenceModel} (stored : models.lookup name = some m) :
      name ∈ models.keys := Finmap.mem_keys.mpr (Finmap.mem_of_lookup_eq_some stored)
  constructor
  · intro tidy name _ m stored own
    exact ⟨fun name' _ m' stored' own' => tidy.once name name' m m' stored stored' own own',
      fun object found => tidy.current name m object stored own found⟩
  · intro bounded
    constructor
    · intro name name' m m' stored stored' own own'
      exact (bounded name (entry stored) m stored own).1 name' (entry stored') m' stored' own'
    · intro name m object stored own found
      exact (bounded name (entry stored) m stored own).2 object found

instance (live : Live) (models : Models) (key : NamespacedName) : Decidable (Tidy live models key) :=
  decidable_of_iff _ tidy_iff.symm

def reconciledBetweenTrace : List Action :=
  [.create (testModel "a" "llama" 1), .reconcile (testKey "a") [testKey "a"] [],
    .delete (testKey "a"), .reconcile (testKey "a") [] ["llama"],
    .create (testModel "a" "mistral" 2), .reconcile (testKey "a") [testKey "a"] []]

theorem model_entries_backed_when_reconciled_between :
    ∃ s, Reaches (testReconciler.controller fun _ _ => True)
        (fun key s => Tidy (testReconciler.liveAt s.world) s.store.models key) testStart s ∧
      s.pending = ∅ ∧ s.store.models.lookup "mistral" = some (testModel "a" "mistral" 2) ∧
      ∀ name m, s.store.models.lookup name = some m →
        s.world.current.lookup m.namespacedName = some m ∧ m.spec.modelName = name := by
  have run := reaches_performed testReconciler (fun _ _ => True)
    (fun key s => Tidy (testReconciler.liveAt s.world) s.store.models key) testStart reconciledBetweenTrace
    (by decide +kernel)
  exact ⟨_, run, by decide +kernel, by decide +kernel,
    (model_entries_backed_of_tidy testReconciler _ testReconciler_synced rfl _ run (by decide +kernel)).1⟩

def recreatedRenamedTrace : List Action :=
  [.create (testModel "a" "llama" 1), .reconcile (testKey "a") [testKey "a"] [],
    .delete (testKey "a"), .create (testModel "a" "mistral" 2),
    .reconcile (testKey "a") [testKey "a"] ["llama"]]

theorem recreated_model_leaves_stale_entry :
    ∃ s, Reaches (testReconciler.controller fun _ _ => True) Unguarded testStart s ∧ s.pending = ∅ ∧
      s.store.models.lookup "llama" = some (testModel "a" "llama" 1) ∧
      s.store.models.lookup "mistral" = some (testModel "a" "mistral" 2) ∧
      s.world.current.lookup (testKey "a") = some (testModel "a" "mistral" 2) := by
  have run := reaches_performed testReconciler (fun _ _ => True) Unguarded testStart recreatedRenamedTrace
    (by decide +kernel)
  exact ⟨_, run, by decide +kernel, by decide +kernel, by decide +kernel, by decide +kernel⟩

end InferenceGateway.InferenceModelReconciler
