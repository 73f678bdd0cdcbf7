import InferenceGateway.Proof.Controller.InferenceModel

namespace InferenceGateway.InferenceModelReconciler
open Lib.Workqueue

/-! ## What one reconcile keeps -/

section Invariants
variable {live live' first later : Live} {pending pending' : Finset NamespacedName}
  {models models' : Models} {key : NamespacedName}

/-- Entries are filed under their model names, and those whose key is not pending are live objects
in their current versions. -/
structure Backed (live : Live) (pending : Finset NamespacedName) (models : Models) : Prop where
  named : ∀ name m, models.lookup name = some m → m.spec.modelName = name
  backed : ∀ name m, models.lookup name = some m → m.namespacedName ∉ pending →
    live m.namespacedName = some m

def Covered (live : Live) (pending : Finset NamespacedName) (models : Models) : Prop :=
  ∀ key m, live key = some m → key ∉ pending →
    ∃ entry, models.lookup m.spec.modelName = some entry ∧ entry.creationTimestamp ≤ m.creationTimestamp

theorem Backed.unseen (backed : Backed live pending models) (grows : pending ⊆ pending')
    (same : ∀ key, key ∉ pending' → live' key = live key) : Backed live' pending' models where
  named := backed.named
  backed name m stored settled := by
    rw [same _ settled]
    exact backed.backed name m stored fun member => settled (grows member)

theorem Covered.unseen (covered : Covered live pending models) (grows : pending ⊆ pending')
    (same : ∀ key, key ∉ pending' → live' key = live key) : Covered live' pending' models := by
  intro key m found settled
  rw [same _ settled] at found
  exact covered key m found fun member => settled (grows member)

/-- The store refers to the object at most once, and if the object is live only under its current
model name. -/
structure Tidy (live : Live) (models : Models) (key : NamespacedName) : Prop where
  once : ∀ name name' m m', models.lookup name = some m → models.lookup name' = some m' →
    m.namespacedName = key → m'.namespacedName = key → name = name'
  current : ∀ name m object, models.lookup name = some m → m.namespacedName = key →
    live key = some object → name = object.spec.modelName

theorem Reconciled.entries (reconciled : Reconciled first later key models models')
    (named : ∀ name m, models.lookup name = some m → m.spec.modelName = name)
    (tidy : Tidy first models key) {name : String} {m : InferenceModel}
    (stored' : models'.lookup name = some m) :
    (models.lookup name = some m ∧ m.namespacedName ≠ key) ∨
      m.spec.modelName = name ∧ (first key = some m ∨ ∃ at_, later at_ = some m) := by
  cases reconciled with
  | keptOut object existing found stored other older =>
      refine .inl ⟨stored', fun mine => ?_⟩
      have same := tidy.current name m object stored' mine found
      rw [same, stored] at stored'
      exact other (Option.some.inj stored' ▸ mine)
  | set object found oldest =>
      rw [lookup_insert_eq] at stored'
      split_ifs at stored' with same
      · obtain rfl := Option.some.inj stored'
        exact .inr ⟨same.symm, .inl found⟩
      · exact .inl ⟨stored', fun mine => same (tidy.current name m object stored' mine found)⟩
  | absent gone noEntry => exact .inl ⟨stored', noEntry name m stored'⟩
  | removed index entry gone stored mine last =>
      rw [lookup_erase_eq] at stored'
      split_ifs at stored' with same
      refine .inl ⟨stored', fun mine' => same ?_⟩
      rw [tidy.once name index m entry stored' stored mine' mine, named index entry stored]
  | replaced index entry at_ next gone stored mine found sameName oldest =>
      rw [lookup_insert_eq, lookup_erase_eq] at stored'
      split_ifs at stored' with same
      · obtain rfl := Option.some.inj stored'
        exact .inr ⟨sameName.trans same.symm, .inr ⟨at_, found⟩⟩
      · refine .inl ⟨stored', fun mine' => same ?_⟩
        rw [tidy.once name index m entry stored' stored mine' mine, named index entry stored]

theorem Backed.reconciled (backed : Backed later (insert key pending) models)
    (keyed : ∀ at_ m, later at_ = some m → m.namespacedName = at_)
    (own : ∀ m, first key = some m → m.namespacedName = key)
    (current : key ∉ pending → later key = first key) (tidy : Tidy first models key)
    (reconciled : Reconciled first later key models models') : Backed later pending models' := by
  constructor
  · intro name m stored'
    rcases reconciled.entries backed.named tidy stored' with ⟨stored, _⟩ | ⟨named, _⟩
    · exact backed.named name m stored
    · exact named
  · intro name m stored' settled
    rcases reconciled.entries backed.named tidy stored' with ⟨stored, other⟩ | ⟨_, found | ⟨at_, found⟩⟩
    · exact backed.backed name m stored (by simp [other, settled])
    · rw [own m found] at settled ⊢
      rw [current settled, found]
    · rw [keyed at_ m found, found]

/-- Where Reconcile puts a new incarnation of an object in the place of an old one, no live object
of that name whose key is not pending is older. -/
def Fair (live : Live) (pending : Finset NamespacedName) (models : Models) (key : NamespacedName) : Prop :=
  ∀ object existing, live key = some object → models.lookup object.spec.modelName = some existing →
    existing.namespacedName = key → existing.creationTimestamp < object.creationTimestamp →
    ∀ other m, other ∉ pending → live other = some m → m.spec.modelName = object.spec.modelName →
      object.creationTimestamp ≤ m.creationTimestamp

theorem Covered.reconciled (covered : Covered later (insert key pending) models)
    (current : key ∉ pending → later key = first key)
    (fair : ∀ object existing, first key = some object →
      models.lookup object.spec.modelName = some existing → existing.namespacedName = key →
      existing.creationTimestamp < object.creationTimestamp → ∀ other m, other ∉ insert key pending →
      later other = some m → m.spec.modelName = object.spec.modelName →
      object.creationTimestamp ≤ m.creationTimestamp)
    (reconciled : Reconciled first later key models models') : Covered later pending models' := by
  intro other m found' settled
  have before (different : other ≠ key) := covered other m found' (by simp [different, settled])
  have mine (same : other = key) : first key = some m := by
    subst same
    rw [← current settled, found']
  cases reconciled with
  | keptOut object existing found stored other' older =>
      by_cases same : other = key
      · obtain rfl := Option.some.inj (found.symm.trans (mine same))
        exact ⟨existing, stored, older.le⟩
      · exact before same
  | set object found oldest =>
      by_cases same : other = key
      · obtain rfl := Option.some.inj (found.symm.trans (mine same))
        exact ⟨object, Finmap.lookup_insert _, le_rfl⟩
      · obtain ⟨entry, stored, notYounger⟩ := before same
        by_cases named : m.spec.modelName = object.spec.modelName
        · refine ⟨object, named ▸ Finmap.lookup_insert _, ?_⟩
          rw [named] at stored
          by_cases own : entry.namespacedName = key
          · by_cases later' : entry.creationTimestamp < object.creationTimestamp
            · exact fair object entry found stored own later' other m (by simp [same, settled]) found' named
            · exact (not_lt.mp later').trans notYounger
          · exact (oldest entry stored own).trans notYounger
        · exact ⟨entry, (Finmap.lookup_insert_of_ne _ named).trans stored, notYounger⟩
  | absent gone noEntry =>
      exact before fun same => by simp [mine same] at gone
  | removed index entry gone stored own last =>
      obtain ⟨kept, stored', notYounger⟩ := before fun same => by simp [mine same] at gone
      exact ⟨kept, (Finmap.lookup_erase_ne (last other m found')).trans stored', notYounger⟩
  | replaced index entry at_ next gone stored own found sameName oldest =>
      obtain ⟨kept, stored', notYounger⟩ := before fun same => by simp [mine same] at gone
      by_cases named : m.spec.modelName = entry.spec.modelName
      · exact ⟨next, named ▸ Finmap.lookup_insert _, oldest other m found' named⟩
      · refine ⟨kept, ?_, notYounger⟩
        rw [lookup_insert_eq, lookup_erase_eq, if_neg named, if_neg named, stored']

theorem Reconciled.present (reconciled : Reconciled first later key models models')
    {other : NamespacedName} {m : InferenceModel} (found' : later other = some m)
    (mine : other = key → first key = some m)
    (before : other ≠ key → ∃ entry, models.lookup m.spec.modelName = some entry) :
    ∃ entry, models'.lookup m.spec.modelName = some entry := by
  cases reconciled with
  | keptOut object existing found stored other' older =>
      by_cases same : other = key
      · obtain rfl := Option.some.inj (found.symm.trans (mine same))
        exact ⟨existing, stored⟩
      · exact before same
  | set object found oldest =>
      rw [lookup_insert_eq]
      split_ifs with named
      · exact ⟨object, rfl⟩
      · apply before
        intro same
        obtain rfl := Option.some.inj (found.symm.trans (mine same))
        exact named rfl
  | absent gone noEntry =>
      exact before fun same => by simp [mine same] at gone
  | removed index entry gone stored own last =>
      obtain ⟨kept, stored'⟩ := before fun same => by simp [mine same] at gone
      exact ⟨kept, (Finmap.lookup_erase_ne (last other m found')).trans stored'⟩
  | replaced index entry at_ next gone stored own found sameName oldest =>
      rw [lookup_insert_eq]
      split_ifs with named
      · exact ⟨next, rfl⟩
      · obtain ⟨kept, stored'⟩ := before fun same => by simp [mine same] at gone
        exact ⟨kept, (Finmap.lookup_erase_ne named).trans stored'⟩

end Invariants

/-! ## Runs -/

section Runs
variable {c : InferenceModelReconciler} {recreates : InferenceModel → InferenceModel → Prop}
  {objects objects' : Objects NamespacedName InferenceModel} {keys pending pending' : Finset NamespacedName}
  {ds ds' : Datastore} {key : NamespacedName} {A : Type} {f : InferenceModel → A}

theorem not_live_of_silent {old new : Option InferenceModel}
    (silent : (c.watch recreates).enqueues old new = false) :
    old.filter c.live = none ∧ new.filter c.live = none := by
  rcases old with _ | old <;> rcases new with _ | new <;>
    simp [watch, createFunc, updateFunc, deleteFunc, live] at silent ⊢ <;> grind

theorem cached_of_enqueues {old new : Option InferenceModel}
    (enqueued : (c.watch recreates).enqueues old new = true) :
    ∃ m, (old = some m ∨ new = some m) ∧ m.ns = c.poolNamespacedName.ns := by
  rcases old with _ | old <;> rcases new with _ | new <;>
    simp [watch, cached] at enqueued ⊢ <;> tauto

def liveView (c : InferenceModelReconciler) (recreates : InferenceModel → InferenceModel → Prop) :
    View (c.controller recreates) (Option InferenceModel) where
  see := c.liveAt
  event := by
    intro objects keys objects' key change settled
    obtain ⟨concerned, rfl, others⟩ := change.concerns
    unfold liveAt
    by_cases same : key = concerned
    · subst same
      rw [Watch.mem_keys] at settled
      obtain ⟨before, after⟩ := not_live_of_silent (by simpa using settled)
      rw [before, after]
    · rw [others key same]

structure Base (c : InferenceModelReconciler) (recreates : InferenceModel → InferenceModel → Prop)
    (objects : Objects NamespacedName InferenceModel) (pending : Finset NamespacedName)
    (ds : Datastore) : Prop where
  kept : (c.watch recreates).Kept objects
  synced : c.Synced ds
  watched : ∀ key ∈ pending, key.ns = c.poolNamespacedName.ns

theorem watched_of_change (change : (c.watch recreates).Change objects keys objects')
    (kept : (c.watch recreates).Kept objects) (member : key ∈ keys) : key.ns = c.poolNamespacedName.ns := by
  obtain ⟨concerned, rfl, _⟩ := change.concerns
  obtain ⟨rfl, enqueued⟩ := Watch.mem_keys.mp member
  obtain ⟨m, found, inNamespace⟩ := cached_of_enqueues enqueued
  have own : m.namespacedName = key := by
    rcases found with before | after
    · exact (kept key m before).1
    · exact (change.kept kept key m after).1
  rw [← own, ← inNamespace]
  rfl

theorem Base.change (base : Base c recreates objects pending ds)
    (change : (c.watch recreates).Change objects keys objects') :
    Base c recreates objects' (pending ∪ keys) ds where
  kept := change.kept base.kept
  synced := base.synced
  watched := by
    intro key member
    rcases Finset.mem_union.mp member with member | member
    · exact base.watched key member
    · exact watched_of_change change base.kept member

theorem Base.keyed (base : Base c recreates objects pending ds) {m : InferenceModel}
    (found : c.liveAt objects key = some m) :
    m.namespacedName = key ∧ objects.last.lookup key = some m :=
  base.kept key m (liveAt_eq_some.mp found).1

theorem Base.reconcile (base : Base c recreates objects pending ds) (enqueued : key ∈ pending)
    (reconciled : (c.controller recreates).reconcile key objects objects' ds ds') :
    c.Synced ds' ∧ Reconciled (c.liveAt objects) (c.liveAt objects') key ds.models ds'.models := by
  obtain ⟨listing, order, result, lists, ranges, done⟩ := reconciled
  obtain ⟨models, refined, spec⟩ := reconcile_refines base.synced (base.watched key enqueued)
    (fun m found => (base.kept key m found).1) lists ranges
  rw [refined, Option.some.injEq, Prod.mk.injEq] at done
  rw [← done.2]
  exact ⟨base.synced, spec⟩

def Recorded (f : InferenceModel → A) (objects : Objects NamespacedName InferenceModel)
    (models : Models) : Prop :=
  ∀ name m, models.lookup name = some m → (objects.last.lookup m.namespacedName).map f = some (f m)

theorem Recorded.reconciled {models models' : Models} (recorded : Recorded f objects' models)
    (history : ∀ m, c.liveAt objects key = some m →
      (objects'.last.lookup m.namespacedName).map f = some (f m))
    (base : Base c recreates objects' pending ds)
    (named : ∀ name m, models.lookup name = some m → m.spec.modelName = name)
    (tidy : Tidy (c.liveAt objects) models key)
    (reconciled : Reconciled (c.liveAt objects) (c.liveAt objects') key models models') :
    Recorded f objects' models' := by
  intro name m stored'
  rcases reconciled.entries named tidy stored' with ⟨stored, _⟩ | ⟨_, found | ⟨at_, found⟩⟩
  · exact recorded name m stored
  · exact history m found
  · obtain ⟨own, last⟩ := base.keyed found
    rw [own, last, Option.map_some]

theorem Recorded.tidy (recorded : Recorded f objects ds.models)
    (names : ∀ m m', f m = f m' → m.spec.modelName = m'.spec.modelName)
    (base : Base c recreates objects pending ds) (backed : Backed (c.liveAt objects) pending ds.models)
    (key : NamespacedName) : Tidy (c.liveAt objects) ds.models key where
  once name name' m m' stored stored' own own' := by
    have recorded₁ := recorded name m stored
    have recorded₂ := recorded name' m' stored'
    rw [own] at recorded₁
    rw [own', recorded₁, Option.some.injEq] at recorded₂
    rw [← backed.named name m stored, ← backed.named name' m' stored', names m m' recorded₂]
  current name m object stored own found := by
    have recorded := recorded name m stored
    rw [own, (base.keyed found).2, Option.map_some, Option.some.injEq] at recorded
    rw [← backed.named name m stored, names object m recorded]

end Runs

end InferenceGateway.InferenceModelReconciler
