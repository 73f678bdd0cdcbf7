import InferenceGateway.Proof.Datastore.Models

/-!
What `InferenceModelReconciler.Reconcile` does, in terms of the live InferenceModels of the pool
alone: the ones that its `Get` sees and the ones that its later `List` sees.
-/

namespace InferenceGateway.InferenceModelReconciler
open Lib.Workqueue

abbrev Models := Finmap (fun _ : String => InferenceModel)

abbrev Live := NamespacedName → Option InferenceModel

def liveAt (c : InferenceModelReconciler) (objects : Objects NamespacedName InferenceModel) : Live :=
  fun key => (objects.current.lookup key).filter c.live

theorem live_iff {c : InferenceModelReconciler} {m : InferenceModel} :
    c.live m = true ↔ m.ns = c.poolNamespacedName.ns ∧
      m.spec.poolRef.name = c.poolNamespacedName.name ∧ m.deletionTimestamp = none := by
  simp [live, cached, eventPredicate, and_assoc]

theorem liveAt_eq_some {c : InferenceModelReconciler} {objects : Objects NamespacedName InferenceModel}
    {key : NamespacedName} {m : InferenceModel} :
    c.liveAt objects key = some m ↔ objects.current.lookup key = some m ∧ c.live m = true :=
  Option.filter_eq_some_iff

inductive Reconciled (first later : Live) (key : NamespacedName) (models : Models) : Models → Prop
  | keptOut (object existing : InferenceModel) (found : first key = some object)
      (stored : models.lookup object.spec.modelName = some existing)
      (other : existing.namespacedName ≠ key)
      (older : existing.creationTimestamp < object.creationTimestamp) :
      Reconciled first later key models models
  | set (object : InferenceModel) (found : first key = some object)
      (oldest : ∀ existing, models.lookup object.spec.modelName = some existing →
        existing.namespacedName ≠ key → object.creationTimestamp ≤ existing.creationTimestamp) :
      Reconciled first later key models (models.insert object.spec.modelName object)
  | absent (gone : first key = none)
      (noEntry : ∀ name m, models.lookup name = some m → m.namespacedName ≠ key) :
      Reconciled first later key models models
  | removed (name : String) (entry : InferenceModel) (gone : first key = none)
      (stored : models.lookup name = some entry) (own : entry.namespacedName = key)
      (last : ∀ at_ m, later at_ = some m → m.spec.modelName ≠ entry.spec.modelName) :
      Reconciled first later key models (models.erase entry.spec.modelName)
  | replaced (name : String) (entry : InferenceModel) (at_ : NamespacedName) (next : InferenceModel)
      (gone : first key = none) (stored : models.lookup name = some entry)
      (own : entry.namespacedName = key) (found : later at_ = some next)
      (sameName : next.spec.modelName = entry.spec.modelName)
      (oldest : ∀ other m, later other = some m → m.spec.modelName = entry.spec.modelName →
        next.creationTimestamp ≤ m.creationTimestamp) :
      Reconciled first later key models ((models.erase entry.spec.modelName).insert entry.spec.modelName next)

section Refinement
variable {c : InferenceModelReconciler} {pool : InferencePool} {ds : Datastore}
  {first later : Objects NamespacedName InferenceModel} {listing : Listing} {order : List String}
  {key : NamespacedName}

def Synced (c : InferenceModelReconciler) (ds : Datastore) : Prop :=
  ∃ pool, ds.pool = some pool ∧ pool.ns = c.poolNamespacedName.ns ∧ pool.name = c.poolNamespacedName.name

theorem mem_candidates (ns : pool.ns = c.poolNamespacedName.ns) (name : pool.name = c.poolNamespacedName.name)
    (lists : listing.Of { models := later.current }) (modelName : String) (m : InferenceModel) :
    m ∈ ((listing.models.filterMap later.current.lookup).filter fun m =>
        m.spec.modelName = modelName ∧ m.ns = pool.ns).filter (Datastore.candidate pool modelName) ↔
      (∃ key, c.liveAt later key = some m) ∧ m.spec.modelName = modelName := by
  have listed : m ∈ listing.models.filterMap later.current.lookup ↔
      ∃ key, later.current.lookup key = some m := by
    rw [List.mem_filterMap]
    constructor
    · rintro ⟨key, _, found⟩
      exact ⟨key, found⟩
    · rintro ⟨key, found⟩
      exact ⟨key, (lists.models.visits key).mpr (Finmap.mem_of_lookup_eq_some found), found⟩
  simp only [List.mem_filter, listed, liveAt_eq_some, live_iff, Datastore.candidate, decide_eq_true_eq,
    ns, name]
  constructor
  · rintro ⟨⟨⟨key, found⟩, _, inNamespace⟩, named, ofPool, unmarked⟩
    exact ⟨⟨key, found, inNamespace, ofPool, unmarked⟩, named⟩
  · rintro ⟨⟨key, found, inNamespace, ofPool, unmarked⟩, named⟩
    exact ⟨⟨⟨key, found⟩, named, inNamespace⟩, named, ofPool, unmarked⟩

theorem modelResync_lists (synced : c.Synced ds) (later : Objects NamespacedName InferenceModel)
    (lists : listing.Of { models := later.current }) (cluster : Cluster) (modelName : String) :
    (∃ updated, ds.modelResync (cluster.client { models := later.current } listing) modelName =
        some (.ok updated, ds) ∧
      ∀ at_ m, c.liveAt later at_ = some m → m.spec.modelName ≠ modelName) ∨
    ∃ updated at_ next, ds.modelResync (cluster.client { models := later.current } listing) modelName =
        some (.ok updated, ds.withModels (ds.models.insert modelName next)) ∧
      c.liveAt later at_ = some next ∧ next.spec.modelName = modelName ∧
      ∀ other m, c.liveAt later other = some m → m.spec.modelName = modelName →
        next.creationTimestamp ≤ m.creationTimestamp := by
  obtain ⟨pool, pooled, ns, name⟩ := synced
  obtain ⟨updated, resynced⟩ := ds.modelResync_of_ok
    (cluster.client { models := later.current } listing) modelName pooled rfl
  have candidates := mem_candidates ns name lists modelName
  rw [resynced, Datastore.oldest_eq_argmin]
  cases found : (((listing.models.filterMap later.current.lookup).filter fun m =>
      m.spec.modelName = modelName ∧ m.ns = pool.ns).filter
        (Datastore.candidate pool modelName)).argmin InferenceModel.creationTimestamp with
  | none =>
      refine .inl ⟨updated, rfl, ?_⟩
      intro at_ m live named
      have member := (candidates m).mpr ⟨⟨at_, live⟩, named⟩
      rw [List.argmin_eq_none.mp found] at member
      cases member
  | some next =>
      obtain ⟨⟨at_, live⟩, named⟩ := (candidates next).mp (List.argmin_mem found)
      refine .inr ⟨updated, at_, next, rfl, live, named, ?_⟩
      intro other m live named
      exact List.le_of_mem_argmin ((candidates m).mpr ⟨⟨other, live⟩, named⟩) found

theorem handleModelDeleted_of_none (client : Client) (deleted : ds.modelDelete order key = (none, ds)) :
    handleModelDeleted client order key ds = some (.ok (), ds) := by
  simp only [handleModelDeleted, deleted]
  rfl

theorem handleModelDeleted_refines (synced : c.Synced ds)
    (lists : listing.Of { models := later.current }) (ranges : RangesOver order ds.models)
    (cluster : Cluster) (gone : c.liveAt first key = none) :
    ∃ models, handleModelDeleted (cluster.client { models := later.current } listing) order key ds =
        some (.ok (), ds.withModels models) ∧
      Reconciled (c.liveAt first) (c.liveAt later) key ds.models models := by
  rcases Datastore.modelDelete_cases ranges key with ⟨deleted, noEntry⟩ | ⟨index, entry, stored, own, deleted⟩
  · exact ⟨ds.models, handleModelDeleted_of_none _ deleted, .absent gone noEntry⟩
  · simp only [handleModelDeleted, deleted, Option.bind_eq_bind]
    have remaining : c.Synced (ds.withModels (ds.models.erase entry.spec.modelName)) := synced
    rcases modelResync_lists remaining later lists cluster entry.spec.modelName with
      ⟨updated, resynced, last⟩ | ⟨updated, at_, next, resynced, live, named, oldest⟩
    · rw [resynced]
      exact ⟨_, rfl, .removed index entry gone stored own last⟩
    · rw [resynced]
      exact ⟨_, rfl, .replaced index entry at_ next gone stored own live named oldest⟩

theorem reconcile_of_not_live (first : Objects NamespacedName InferenceModel)
    (inNamespace : key.ns = c.poolNamespacedName.ns)
    (kept : ∀ m, first.current.lookup key = some m → m.namespacedName = key)
    (gone : c.liveAt first key = none) (later : Cluster) (listing : Listing) (order : List String)
    (ds : Datastore) :
    c.reconcile (Cluster.client { models := first.current } later listing) order key ds =
      handleModelDeleted (Cluster.client { models := first.current } later listing) order key ds := by
  unfold reconcile
  simp only [Cluster.client, get]
  cases found : first.current.lookup key with
  | none => rfl
  | some object =>
      apply if_pos
      by_contra dropped
      rw [not_or, not_not] at dropped
      have live : c.liveAt first key = some object :=
        liveAt_eq_some.mpr ⟨found, live_iff.mpr ⟨by rw [← inNamespace, ← kept object found]; rfl, dropped.2,
          by simpa using dropped.1⟩⟩
      simp [gone] at live

theorem reconcile_of_live {object : InferenceModel} (own : object.namespacedName = key)
    (live : c.liveAt first key = some object) (later : Live) (read : Cluster) :
    ∃ models, c.reconcile (Cluster.client { models := first.current } read listing) order key ds =
        some (.ok (), ds.withModels models) ∧
      Reconciled (c.liveAt first) later key ds.models models := by
  obtain ⟨found, isLive⟩ := liveAt_eq_some.mp live
  obtain ⟨_, ofPool, unmarked⟩ := live_iff.mp isLive
  have kept : ¬(object.deletionTimestamp.isSome ∨
      object.spec.poolRef.name ≠ c.poolNamespacedName.name) := by
    simp [unmarked, ofPool]
  unfold reconcile
  simp only [Cluster.client, get, found, if_neg kept]
  by_cases keepsOut : ds.KeepsOut object
  · rw [Datastore.modelSetIfOlder_of_keepsOut keepsOut]
    obtain ⟨existing, stored, other, older⟩ := keepsOut
    exact ⟨ds.models, rfl, .keptOut object existing live stored (own ▸ other) older⟩
  · rw [Datastore.modelSetIfOlder_of_not_keepsOut keepsOut]
    refine ⟨_, rfl, .set object live fun existing stored other => ?_⟩
    by_contra older
    exact keepsOut ⟨existing, stored, own ▸ other, not_le.mp older⟩

/-- What a Reconcile needs not to panic: a stored pool, unless it has no entry to remove. -/
def Ready (c : InferenceModelReconciler) (objects : Objects NamespacedName InferenceModel)
    (key : NamespacedName) (ds : Datastore) : Prop :=
  c.liveAt objects key = none → ds.pool = none →
    ∀ name m, ds.models.lookup name = some m → m.namespacedName ≠ key

/-- With `Get` and `List` succeeding, a Reconcile that is ready succeeds and does what `Reconciled`
says. -/
theorem reconcile_refines_of_ready (first later : Objects NamespacedName InferenceModel)
    (own : ∀ pool, ds.pool = some pool → pool.namespacedName = c.poolNamespacedName)
    (ready : c.Ready first key ds) (inNamespace : key.ns = c.poolNamespacedName.ns)
    (kept : ∀ m, first.current.lookup key = some m → m.namespacedName = key)
    (lists : listing.Of { models := later.current }) (ranges : RangesOver order ds.models) :
    ∃ models, c.reconcile (Cluster.client { models := first.current } { models := later.current } listing)
        order key ds = some (.ok (), ds.withModels models) ∧
      Reconciled (c.liveAt first) (c.liveAt later) key ds.models models := by
  cases live : c.liveAt first key with
  | some object =>
      exact reconcile_of_live (kept object (liveAt_eq_some.mp live).1) live (c.liveAt later) _
  | none =>
      rw [reconcile_of_not_live first inNamespace kept live]
      cases pooled : ds.pool with
      | some pool =>
          have synced : c.Synced ds := ⟨pool, pooled, by rw [← own pool pooled]; exact ⟨rfl, rfl⟩⟩
          exact handleModelDeleted_refines synced lists ranges _ live
      | none =>
          have noEntry := ready live pooled
          have deleted := Datastore.modelDelete_of_no_entry ds ranges noEntry
          exact ⟨ds.models, handleModelDeleted_of_none _ deleted, .absent live noEntry⟩

theorem reconcile_refines (synced : c.Synced ds) (inNamespace : key.ns = c.poolNamespacedName.ns)
    (kept : ∀ m, first.current.lookup key = some m → m.namespacedName = key)
    (lists : listing.Of { models := later.current }) (ranges : RangesOver order ds.models) :
    ∃ models, c.reconcile (Cluster.client { models := first.current } { models := later.current } listing)
        order key ds = some (.ok (), ds.withModels models) ∧
      Reconciled (c.liveAt first) (c.liveAt later) key ds.models models := by
  obtain ⟨pool, pooled, ns, name⟩ := synced
  apply reconcile_refines_of_ready first later _ _ inNamespace kept lists ranges
  · intro stored found
    obtain rfl := Option.some.inj (pooled.symm.trans found)
    exact NamespacedName.ext ns name
  · intro _ noPool
    simp [pooled] at noPool

end Refinement

end InferenceGateway.InferenceModelReconciler
