import InferenceGateway.Proof.Controller.OldestWins

/-!
`handleModelDeleted` removes the entry before the fallible `List`. A retry no longer finds the
entry, so it does not know which name to backfill.
-/

namespace InferenceGateway
open Lib.Workqueue

def Client.failingList (client : Client) (err : ApiError) : Client :=
  { client with listInferenceModels := fun _ _ => .error err }

namespace InferenceModelReconciler

abbrev Stored := Finmap (fun _ : NamespacedName => InferenceModel)

def clientOf (objects : Stored) (listing : Listing) : Client :=
  Cluster.client { models := objects } { models := objects } listing

/-- After a Reconcile that failed in `List`, the retry leaves the models that one Reconcile with a
working `List` would have left. -/
def RetryRecovers (c : InferenceModelReconciler) (objects : Stored) (key : NamespacedName)
    (ds : Datastore) : Prop :=
  ∀ (listing : Listing) (err : ApiError) (order order' order'' : List String) (e : Err) (failed : Datastore),
    listing.Of { models := objects } → RangesOver order ds.models → RangesOver order' failed.models →
    RangesOver order'' ds.models →
    c.reconcile ((clientOf objects listing).failingList err) order key ds = some (.error e, failed) →
    ∃ retried atOnce, c.reconcile (clientOf objects listing) order' key failed = some (.ok (), retried) ∧
      c.reconcile (clientOf objects listing) order'' key ds = some (.ok (), atOnce) ∧
      retried.models = atOnce.models

def Gone (c : InferenceModelReconciler) (objects : Stored) (key : NamespacedName) : Prop :=
  ∀ m, objects.lookup key = some m →
    m.deletionTimestamp.isSome ∨ m.spec.poolRef.name ≠ c.poolNamespacedName.name

section Retry
variable {c : InferenceModelReconciler} {objects : Stored} {key : NamespacedName} {ds : Datastore}
  {listing : Listing} {order : List String}

theorem reconcile_of_gone (gone : c.Gone objects key) (client : Client)
    (gets : client.getInferenceModel = get objects) (order : List String) (ds : Datastore) :
    c.reconcile client order key ds = handleModelDeleted client order key ds := by
  unfold reconcile
  simp only [gets, get]
  cases found : objects.lookup key with
  | none => rfl
  | some m => exact if_pos (gone m found)

theorem handleModelDeleted_failing (synced : c.Synced ds) {entry : InferenceModel} {rest : Datastore}
    (deleted : ds.modelDelete order key = (some entry, rest)) (pool : rest.pool = ds.pool)
    (client : Client) (err : ApiError) :
    ∃ e, handleModelDeleted (client.failingList err) order key ds = some (.error e, rest) := by
  obtain ⟨pool', pooled, _, _⟩ := synced
  obtain ⟨e, resynced⟩ := rest.modelResync_of_error (client.failingList err) entry.spec.modelName
    (pool.trans pooled) rfl
  refine ⟨e, ?_⟩
  simp only [handleModelDeleted, deleted, Option.bind_eq_bind, resynced]
  rfl

theorem handleModelDeleted_of_some (synced : c.Synced ds) (lists : listing.Of { models := objects })
    {entry : InferenceModel} {models : Models}
    (deleted : ds.modelDelete order key = (some entry, ds.withModels models)) :
    (handleModelDeleted (clientOf objects listing) order key ds = some (.ok (), ds.withModels models) ∧
      ∀ at_ m, objects.lookup at_ = some m → c.live m = true →
        m.spec.modelName ≠ entry.spec.modelName) ∨
    ∃ at_ next, handleModelDeleted (clientOf objects listing) order key ds =
        some (.ok (), ds.withModels (models.insert entry.spec.modelName next)) ∧
      objects.lookup at_ = some next ∧ c.live next = true ∧
      next.spec.modelName = entry.spec.modelName := by
  have remaining : c.Synced (ds.withModels models) := synced
  simp only [handleModelDeleted, deleted, Option.bind_eq_bind, clientOf]
  rcases modelResync_lists remaining ⟨objects, ∅⟩ lists { models := objects } entry.spec.modelName with
    ⟨updated, resynced, last⟩ | ⟨updated, at_, next, resynced, live, sameName, _⟩
  · rw [resynced]
    exact .inl ⟨rfl, fun at_ m present live => last at_ m (liveAt_eq_some.mpr ⟨present, live⟩)⟩
  · rw [resynced]
    obtain ⟨present, live⟩ := liveAt_eq_some.mp live
    exact .inr ⟨at_, next, rfl, present, live, sameName⟩

theorem no_entry_of_only (named : ∀ name m, ds.models.lookup name = some m → m.spec.modelName = name)
    {index : String} {entry : InferenceModel} (stored : ds.models.lookup index = some entry)
    (only : ∀ name m, ds.models.lookup name = some m → m.namespacedName = key → name = index)
    (name : String) (m : InferenceModel)
    (remains : (ds.models.erase entry.spec.modelName).lookup name = some m) : m.namespacedName ≠ key := by
  rw [lookup_erase_eq, named index entry stored] at remains
  split_ifs at remains with removed
  exact fun own => removed (only name m remains own)

theorem not_own_of_live (keyed : ∀ at_ m, objects.lookup at_ = some m → m.namespacedName = at_)
    (gone : c.Gone objects key) {at_ : NamespacedName} {m : InferenceModel}
    (present : objects.lookup at_ = some m) (live : c.live m = true) : m.namespacedName ≠ key := by
  intro own
  rw [keyed at_ m present] at own
  obtain ⟨_, ofPool, unmarked⟩ := live_iff.mp live
  rcases gone m (own ▸ present) with marked | otherPool
  · simp [unmarked] at marked
  · exact otherPool ofPool

theorem RetryRecovers.same_order (recovers : c.RetryRecovers objects key ds) (synced : c.Synced ds)
    (gone : c.Gone objects key) (lists : listing.Of { models := objects })
    (ranges : RangesOver order ds.models) {entry : InferenceModel} {models : Models}
    (deleted : ds.modelDelete order key = (some entry, ds.withModels models)) {order' : List String}
    (ranges' : RangesOver order' models) :
    ∃ retried atOnce,
      handleModelDeleted (clientOf objects listing) order' key (ds.withModels models) =
        some (.ok (), retried) ∧
      handleModelDeleted (clientOf objects listing) order key ds = some (.ok (), atOnce) ∧
      retried.models = atOnce.models := by
  obtain ⟨e, failed⟩ := handleModelDeleted_failing synced deleted rfl (clientOf objects listing)
    (.other "")
  rw [← reconcile_of_gone gone _ rfl] at failed
  obtain ⟨retried, atOnce, retry, once, same⟩ := recovers listing (.other "") order order' order e
    _ lists ranges ranges' ranges failed
  rw [reconcile_of_gone gone _ rfl] at retry once
  exact ⟨retried, atOnce, retry, once, same⟩

theorem RetryRecovers.only (recovers : c.RetryRecovers objects key ds) (synced : c.Synced ds)
    (named : ∀ name m, ds.models.lookup name = some m → m.spec.modelName = name)
    (keyed : ∀ at_ m, objects.lookup at_ = some m → m.namespacedName = at_) (gone : c.Gone objects key)
    (lists : listing.Of { models := objects }) (ranges : RangesOver order ds.models)
    {index : String} {entry : InferenceModel} (stored : ds.models.lookup index = some entry)
    (deleted : ds.modelDelete order key =
      (some entry, ds.withModels (ds.models.erase entry.spec.modelName)))
    (name : String) (m : InferenceModel) (stored' : ds.models.lookup name = some m)
    (own' : m.namespacedName = key) : name = index := by
  by_contra different
  let rest := ds.withModels (ds.models.erase entry.spec.modelName)
  have remains : rest.models.lookup name = some m := by
    rw [Datastore.withModels_models, lookup_erase_eq, named index entry stored, if_neg different, stored']
  obtain ⟨order', ranges'⟩ := exists_rangesOver rest.models
  obtain ⟨retried, atOnce, retry, once, same⟩ := recovers.same_order synced gone lists ranges deleted ranges'
  obtain ⟨index₂, entry₂, stored₂, own₂, deleted₂⟩ := rest.modelDelete_of_entry ranges' remains
  rw [own'] at own₂ deleted₂
  have kept := stored₂
  rw [Datastore.withModels_models, lookup_erase_eq] at kept
  split_ifs at kept with removed
  have name₂ := named index₂ entry₂ kept
  -- the Reconcile with a working `List` leaves the second entry where it is
  have untouched : atOnce.models.lookup index₂ = some entry₂ := by
    rcases handleModelDeleted_of_some synced lists deleted with ⟨result, _⟩ | ⟨at_, next, result, _⟩
    · rw [result] at once
      cases once
      exact stored₂
    · rw [result] at once
      cases once
      exact (Finmap.lookup_insert_of_ne _ removed).trans stored₂
  rw [← same, ← name₂] at untouched
  have synced₂ : c.Synced rest := synced
  rcases handleModelDeleted_of_some synced₂ lists deleted₂ with
    ⟨result, _⟩ | ⟨at_, next, result, present, live, _⟩
  · rw [result] at retry
    cases retry
    simp only [Datastore.withModels_models, Finmap.lookup_erase] at untouched
    cases untouched
  · rw [result] at retry
    cases retry
    simp only [Datastore.withModels_models, Finmap.lookup_insert, Option.some.injEq] at untouched
    exact not_own_of_live keyed gone present live (untouched ▸ own₂)

theorem retryRecovers_of_no_pool (noPool : ds.pool = none) (gone : c.Gone objects key) :
    c.RetryRecovers objects key ds := by
  intro listing err order order' order'' e failed _ ranges _ _ failure
  rw [reconcile_of_gone gone _ rfl] at failure
  rcases Datastore.modelDelete_cases ranges key with ⟨deleted, _⟩ | ⟨name, entry, _, _, deleted⟩
  · rw [handleModelDeleted_of_none _ deleted] at failure
    cases failure
  · simp [handleModelDeleted, deleted, Datastore.modelResync, noPool] at failure

theorem RetryRecovers.alone (recovers : c.RetryRecovers objects key ds) (synced : c.Synced ds)
    (named : ∀ name m, ds.models.lookup name = some m → m.spec.modelName = name)
    (keyed : ∀ at_ m, objects.lookup at_ = some m → m.namespacedName = at_) (gone : c.Gone objects key)
    (name : String) (entry : InferenceModel) (stored : ds.models.lookup name = some entry)
    (own : entry.namespacedName = key) :
    (∀ name' m, ds.models.lookup name' = some m → m.namespacedName = key → name' = name) ∧
      ∀ at_ m, objects.lookup at_ = some m → c.live m = true → m.spec.modelName ≠ name := by
  obtain ⟨listed, lists⟩ := exists_rangesOver objects
  have lists : Listing.Of ⟨listed, []⟩ { models := objects } :=
    ⟨lists, List.nodup_nil, fun _ => iff_of_false List.not_mem_nil Finmap.notMem_empty⟩
  obtain ⟨order, ranges⟩ := exists_rangesOver ds.models
  obtain ⟨index, removed, stored', own', deleted⟩ := ds.modelDelete_of_entry ranges stored
  rw [own] at own' deleted
  have only := recovers.only synced named keyed gone lists ranges stored' deleted
  obtain rfl := only name entry stored own
  obtain rfl := Option.some.inj (stored.symm.trans stored')
  refine ⟨only, ?_⟩
  -- the retry finds no entry, so it leaves the name without one
  obtain ⟨order', ranges'⟩ := exists_rangesOver (ds.models.erase entry.spec.modelName)
  obtain ⟨retried, atOnce, retry, once, same⟩ := recovers.same_order synced gone lists ranges deleted ranges'
  rw [handleModelDeleted_of_none _ (Datastore.modelDelete_of_no_entry _ ranges'
    (no_entry_of_only named stored only))] at retry
  cases retry
  rcases handleModelDeleted_of_some synced lists deleted with ⟨_, noneLive⟩ | ⟨at_, next, result, _⟩
  · exact named name entry stored ▸ noneLive
  · rw [result] at once
    cases once
    have backfilled := congrArg (Finmap.lookup entry.spec.modelName) same
    simp [Datastore.withModels_models] at backfilled

theorem retryRecovers_of_alone (synced : c.Synced ds)
    (named : ∀ name m, ds.models.lookup name = some m → m.spec.modelName = name) (gone : c.Gone objects key)
    (alone : ∀ name entry, ds.models.lookup name = some entry → entry.namespacedName = key →
      (∀ name' m, ds.models.lookup name' = some m → m.namespacedName = key → name' = name) ∧
      ∀ at_ m, objects.lookup at_ = some m → c.live m = true → m.spec.modelName ≠ name) :
    c.RetryRecovers objects key ds := by
  intro listing err order order' order'' e failed lists ranges ranges' ranges'' failure
  rw [reconcile_of_gone gone _ rfl] at failure
  rcases Datastore.modelDelete_cases ranges key with ⟨deleted, _⟩ | ⟨name, entry, stored, own, deleted⟩
  · rw [handleModelDeleted_of_none _ deleted] at failure
    cases failure
  · obtain ⟨e', result⟩ := handleModelDeleted_failing synced deleted rfl (clientOf objects listing) err
    rw [result] at failure
    cases failure
    obtain ⟨only, noneLive⟩ := alone name entry stored own
    have retried := Datastore.modelDelete_of_no_entry _ ranges' (no_entry_of_only named stored only)
    obtain ⟨index, found, stored', own', deleted'⟩ := ds.modelDelete_of_entry ranges'' stored
    rw [own] at own' deleted'
    obtain rfl := only index found stored' own'
    obtain rfl := Option.some.inj (stored.symm.trans stored')
    rcases handleModelDeleted_of_some synced lists deleted' with
      ⟨result, _⟩ | ⟨at_, next, _, present, live, sameName⟩
    · exact ⟨_, _, (reconcile_of_gone gone _ rfl _ _).trans (handleModelDeleted_of_none _ retried),
        (reconcile_of_gone gone _ rfl _ _).trans result, rfl⟩
    · exact absurd (sameName.trans (named _ entry stored)) (noneLive at_ next present live)

end Retry

/-- The retry recovers a failed backfill exactly if there was nothing to backfill: the removed entry
was the only one of its object, and no live InferenceModel of the pool has its name. -/
theorem retry_recovers_iff (c : InferenceModelReconciler) (objects : Stored) (key : NamespacedName)
    (ds : Datastore)
    (ours : ∀ pool, ds.pool = some pool →
      pool.ns = c.poolNamespacedName.ns ∧ pool.name = c.poolNamespacedName.name)
    (named : ∀ name m, ds.models.lookup name = some m → m.spec.modelName = name)
    (keyed : ∀ at_ m, objects.lookup at_ = some m → m.namespacedName = at_) (gone : c.Gone objects key) :
    c.RetryRecovers objects key ds ↔ ds.pool = none ∨
      ∀ name entry, ds.models.lookup name = some entry → entry.namespacedName = key →
        (∀ name' m, ds.models.lookup name' = some m → m.namespacedName = key → name' = name) ∧
        ∀ at_ m, objects.lookup at_ = some m → c.live m = true → m.spec.modelName ≠ name := by
  cases pooled : ds.pool with
  | none => exact iff_of_true (retryRecovers_of_no_pool pooled gone) (.inl rfl)
  | some pool =>
      have synced : c.Synced ds := ⟨pool, pooled, ours pool pooled⟩
      constructor
      · intro recovers
        exact .inr (recovers.alone synced named keyed gone)
      · rintro (impossible | alone)
        · cases impossible
        · exact retryRecovers_of_alone synced named gone alone

def testObjects : Stored := (∅ : Stored).insert (testKey "b") (testModel "b" "llama" 2)

def testStore : Datastore :=
  { pool := some testPool, models := (∅ : Models).insert "llama" (testModel "a" "llama" 1) }

theorem testStore_entry {name : String} {m : InferenceModel} (stored : testStore.models.lookup name = some m) :
    name = "llama" ∧ m = testModel "a" "llama" 1 := by
  rw [testStore, lookup_insert_eq] at stored
  split_ifs at stored with same
  · exact ⟨same, (Option.some.inj stored).symm⟩
  · cases stored

theorem retry_recovers_without_rival : testReconciler.RetryRecovers ∅ (testKey "a") testStore := by
  refine (retry_recovers_iff testReconciler ∅ (testKey "a") testStore ?_ ?_ nofun nofun).mpr (.inr ?_)
  · rintro _ ⟨⟩
    exact ⟨rfl, rfl⟩
  · intro name m stored
    obtain ⟨rfl, rfl⟩ := testStore_entry stored
    rfl
  · intro name entry stored _
    refine ⟨fun name' m stored' _ => ?_, nofun⟩
    rw [(testStore_entry stored).1, (testStore_entry stored').1]

theorem failed_backfill_loses_model :
    ∃ e failed retried atOnce,
      RangesOver ["llama"] testStore.models ∧ RangesOver [] failed.models ∧
      testReconciler.reconcile ((clientOf testObjects ⟨[testKey "b"], []⟩).failingList (.other "timeout"))
        ["llama"] (testKey "a") testStore = some (.error e, failed) ∧
      testReconciler.reconcile (clientOf testObjects ⟨[testKey "b"], []⟩) [] (testKey "a") failed =
        some (.ok (), retried) ∧
      testReconciler.reconcile (clientOf testObjects ⟨[testKey "b"], []⟩) ["llama"] (testKey "a") testStore =
        some (.ok (), atOnce) ∧
      retried.models.lookup "llama" = none ∧
      atOnce.models.lookup "llama" = some (testModel "b" "llama" 2) :=
  ⟨_, _, _, _, by decide +kernel, by decide +kernel, rfl, rfl, rfl, by decide +kernel, by decide +kernel⟩

end InferenceModelReconciler

end InferenceGateway
