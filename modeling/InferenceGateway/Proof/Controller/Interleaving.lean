import InferenceGateway.Interleaving
import InferenceGateway.Proof.Controller.PodConvergence

namespace InferenceGateway
open Lib.Workqueue

def Matching (cluster : Cluster) (selector : Labels) (key : NamespacedName) : Prop :=
  ∃ pod, cluster.pods.lookup key = some pod ∧
    selectorFromInferencePoolSelector selector pod.labels = true

/-- The pool's reconcile does not clear the datastore between the pod reconcile's PoolGet and its
PoolLabelsMatch, nor store a pool that does not select the pod between PoolLabelsMatch and
PodUpdateOrAddIfNotExist. -/
def undisturbed (s : Threads) : Bool :=
  match s.pool, s.pod with
  | .clear, .poolLabelsMatch _ => false
  | .poolSet newPool _, .podUpdateOrAddIfNotExist pod =>
      selectorFromInferencePoolSelector newPool.spec.selector pod.labels
  | _, _ => true

/-! ## What each reconcile has still to do -/

def PodCall.Holds (cluster : Cluster) (req : NamespacedName) (stored : Option InferencePool) :
    PodCall → Prop
  | .poolLabelsMatch pod => stored.isSome ∧ cluster.pods.lookup req = some pod
  | .podUpdateOrAddIfNotExist pod => cluster.pods.lookup req = some pod ∧
      ∀ infPool, stored = some infPool →
        selectorFromInferencePoolSelector infPool.spec.selector pod.labels = true
  | .podDelete key => key = req
  | .panicked => False
  | .poolGet | .returned => True

/-- The pod reconcile will still write the pod of its key. -/
def PodCall.Owes (req : NamespacedName) (call : PodCall) (key : NamespacedName) : Prop :=
  key = req ∧ call ≠ .returned

def Resynced (cluster : Cluster) (pool : NamespacedName) (stored : Option InferencePool)
    (activePods : List String) : Prop :=
  ∃ newPool, stored = some newPool ∧
    ∀ name ∈ activePods, Matching cluster newPool.spec.selector ⟨pool.ns, name⟩

def PoolCall.Holds (cluster : Cluster) (pool : NamespacedName) (stored : Option InferencePool) :
    PoolCall → Prop
  | .poolGet newPool => newPool.ns = pool.ns
  | .poolSet newPool resync => newPool.ns = pool.ns ∧
      (resync = false → ∃ old, stored = some old ∧ newPool.spec.selector = old.spec.selector)
  | .podUpdateOrAddIfNotExist activePods items =>
      Resynced cluster pool stored activePods ∧ ∀ pod ∈ items, pod.ns = pool.ns
  | .range activePods _ _ | .podDelete activePods _ _ _ => Resynced cluster pool stored activePods
  | .clear | .returned => True

/-- The resync has still to come to the key. -/
def PoolCall.Owes : PoolCall → NamespacedName → Prop
  | .poolSet _ resync, _ => resync = true
  | .podUpdateOrAddIfNotExist _ _, _ => True
  | .range _ stored visited, key => key ∈ stored ∧ key ∉ visited
  | .podDelete _ stored visited deleted, key => key = deleted ∨ key ∈ stored ∧ key ∉ visited
  | _, _ => False

structure Interleaving (cluster : Cluster) (pool req : NamespacedName) (s : Threads) : Prop where
  keyed : s.store.PodsKeyed
  inNamespace : ∀ key pod, s.store.podAt key = some pod → key.ns = pool.ns
  podCall : s.pod.Holds cluster req s.store.pool
  poolCall : s.pool.Holds cluster pool s.store.pool
  matching : ∀ infPool key pod, s.store.pool = some infPool → s.store.podAt key = some pod →
    Matching cluster infPool.spec.selector key ∨ s.pool.Owes key ∨ s.pod.Owes req key

section Steps
variable {cluster : Cluster} {listing : Listing} {pool req : NamespacedName} {s : Threads}

theorem Interleaving.podReads (inv : Interleaving cluster pool req s) {call : PodCall}
    (holds : call.Holds cluster req s.store.pool) (unfinished : call ≠ .returned) :
    Interleaving cluster pool req ⟨call, s.pool, s.store⟩ where
  keyed := inv.keyed
  inNamespace := inv.inNamespace
  podCall := holds
  poolCall := inv.poolCall
  matching infPool key pod pooled stored := by
    rcases inv.matching infPool key pod pooled stored with matched | owed | ⟨own, _⟩
    · exact .inl matched
    · exact .inr (.inl owed)
    · exact .inr (.inr ⟨own, unfinished⟩)

theorem Interleaving.podDeletes (inv : Interleaving cluster pool req s) :
    Interleaving cluster pool req ⟨.returned, s.pool, s.store.podDelete req⟩ := by
  have same : (s.store.podDelete req).pool = s.store.pool := Datastore.podBlind_pool.podDelete _ _
  refine ⟨inv.keyed.podDelete req,
    fun key pod stored => inv.inNamespace key pod (Datastore.podAt_of_podDelete stored).2, trivial,
    by rw [same]; exact inv.poolCall, fun infPool key pod pooled stored => ?_⟩
  obtain ⟨other, stored⟩ := Datastore.podAt_of_podDelete stored
  rcases inv.matching infPool key pod (same.symm.trans pooled) stored with matched | owed | ⟨own, _⟩
  · exact .inl matched
  · exact .inr (.inl owed)
  · exact absurd own other

theorem Interleaving.podAdds (inv : Interleaving cluster pool req s) (kept : cluster.Kept pool) {pod : Pod}
    (found : cluster.pods.lookup req = some pod)
    (matches_ : ∀ infPool, s.store.pool = some infPool →
      selectorFromInferencePoolSelector infPool.spec.selector pod.labels = true) :
    Interleaving cluster pool req ⟨.returned, s.pool, (s.store.podUpdateOrAddIfNotExist pod).2⟩ := by
  have same : (s.store.podUpdateOrAddIfNotExist pod).2.pool = s.store.pool :=
    Datastore.podBlind_pool.podUpdate _ _
  obtain ⟨own, ns⟩ := kept.pods req pod found
  have stores {key : NamespacedName} {stored : BackendPod}
      (after : (s.store.podUpdateOrAddIfNotExist pod).2.podAt key = some stored) :
      key = req ∨ key ≠ req ∧ s.store.podAt key = some stored := by
    rw [Datastore.podUpdate_podAt, own] at after
    split_ifs at after with here
    · exact .inl here
    · exact .inr ⟨here, after⟩
  refine ⟨inv.keyed.podUpdate pod, fun key stored after => ?_, trivial, by rw [same]; exact inv.poolCall,
    fun infPool key stored pooled after => ?_⟩
  · rcases stores after with rfl | ⟨_, before⟩
    · rw [← own, ← ns]
      rfl
    · exact inv.inNamespace key stored before
  · rw [same] at pooled
    rcases stores after with rfl | ⟨other, before⟩
    · exact .inl ⟨pod, found, matches_ infPool pooled⟩
    · rcases inv.matching infPool key stored pooled before with matched | owed | ⟨own, _⟩
      · exact .inl matched
      · exact .inr (.inl owed)
      · exact absurd own other

theorem Interleaving.podStep {s' : Threads} (inv : Interleaving cluster pool req s) (kept : cluster.Kept pool)
    (taken : s.take cluster listing req .pod = some s') : Interleaving cluster pool req s' := by
  obtain ⟨⟨call, store⟩, next, rfl⟩ := Option.map_eq_some_iff.mp taken
  have holds := inv.podCall
  cases at_ : s.pod with
  | poolGet =>
      simp only [at_, PodCall.next, Datastore.poolGet, get] at next
      cases pooled : s.store.pool with
      | none =>
          simp only [pooled] at next
          cases next
          refine ⟨inv.keyed, inv.inNamespace, trivial, inv.poolCall, fun infPool _ _ found => ?_⟩
          rw [pooled] at found
          cases found
      | some infPool =>
          cases found : cluster.pods.lookup req with
          | none =>
              simp only [pooled, found] at next
              cases next
              exact inv.podReads rfl (by simp)
          | some pod =>
              simp only [pooled, found] at next
              split_ifs at next with marked
              · cases next
                exact inv.podReads (kept.pods req pod found).1 (by simp)
              · cases next
                exact inv.podReads ⟨by simp [pooled], found⟩ (by simp)
  | poolLabelsMatch pod =>
      simp only [at_, PodCall.Holds, Option.isSome_iff_exists] at holds
      obtain ⟨⟨infPool, pooled⟩, found⟩ := holds
      simp only [at_, PodCall.next, Datastore.poolLabelsMatch, pooled, Option.bind_eq_bind,
        Option.bind_some, Option.pure_def] at next
      split_ifs at next with dropped
      · cases next
        exact inv.podReads (kept.pods req pod found).1 (by simp)
      · cases next
        refine inv.podReads ⟨found, fun stored same => ?_⟩ (by simp)
        obtain rfl := Option.some.inj (pooled.symm.trans same)
        simp at dropped
        exact dropped.1
  | podDelete key =>
      simp only [at_, PodCall.next] at next
      cases next
      rw [at_] at holds
      obtain rfl : key = req := holds
      exact inv.podDeletes
  | podUpdateOrAddIfNotExist pod =>
      simp only [at_, PodCall.next] at next
      cases next
      rw [at_] at holds
      exact inv.podAdds kept holds.1 holds.2
  | panicked =>
      rw [at_] at holds
      exact holds.elim
  | returned => simp [at_, PodCall.next] at next

theorem Interleaving.clears (inv : Interleaving cluster pool req s) (open_ : ∀ pod, s.pod ≠ .poolLabelsMatch pod) :
    Interleaving cluster pool req ⟨s.pod, .returned, s.store.clear⟩ := by
  refine ⟨nofun, nofun, ?_, trivial, nofun⟩
  have holds := inv.podCall
  cases at_ : s.pod with
  | poolLabelsMatch pod => exact absurd at_ (open_ pod)
  | podUpdateOrAddIfNotExist pod =>
      rw [at_] at holds
      exact ⟨holds.1, nofun⟩
  | podDelete key =>
      rw [at_] at holds
      exact holds
  | panicked =>
      rw [at_] at holds
      exact holds
  | poolGet | returned => trivial

theorem PodCall.Holds.poolSet {call : PodCall} {stored : Option InferencePool} {newPool : InferencePool}
    (holds : call.Holds cluster req stored)
    (selects : ∀ pod, call = .podUpdateOrAddIfNotExist pod →
      selectorFromInferencePoolSelector newPool.spec.selector pod.labels = true) :
    call.Holds cluster req (some newPool) := by
  cases call with
  | poolLabelsMatch pod => exact ⟨rfl, holds.2⟩
  | podUpdateOrAddIfNotExist pod =>
      refine ⟨holds.1, ?_⟩
      rintro _ ⟨⟩
      exact selects pod rfl
  | podDelete | panicked | poolGet | returned => exact holds

theorem resynced_listed (kept : cluster.Kept pool) (lists : listing.Of cluster) (newPool : InferencePool) :
    Resynced cluster pool (some newPool)
      (((cluster.listed listing newPool).filter podIsReady).map Pod.name) := by
  refine ⟨newPool, rfl, fun name member => ?_⟩
  obtain ⟨pod, listed, rfl⟩ := List.mem_map.mp member
  obtain ⟨⟨key, found⟩, selected, _⟩ := (mem_listed lists pod).mp (List.mem_filter.mp listed).1
  obtain ⟨own, inNamespace⟩ := kept.pods key pod found
  refine ⟨pod, ?_, selected⟩
  rw [← inNamespace, ← found, ← own]
  rfl

theorem Interleaving.poolSets (inv : Interleaving cluster pool req s) (kept : cluster.Kept pool)
    (lists : listing.Of cluster) {newPool : InferencePool} {resync : Bool}
    (at_ : s.pool = .poolSet newPool resync)
    (selects : ∀ pod, s.pod = .podUpdateOrAddIfNotExist pod →
      selectorFromInferencePoolSelector newPool.spec.selector pod.labels = true)
    {call : PoolCall} {store : Datastore} {visit : Option NamespacedName}
    (next : s.pool.next cluster listing visit s.store = some (call, store)) :
    Interleaving cluster pool req ⟨s.pod, call, store⟩ := by
  have holds := inv.poolCall
  simp only [at_, PoolCall.Holds] at holds
  obtain ⟨ns, same⟩ := holds
  simp only [at_, PoolCall.next] at next
  split_ifs at next with resyncs
  · cases next
    refine ⟨inv.keyed, inv.inNamespace, inv.podCall.poolSet selects,
      ⟨resynced_listed kept lists newPool, fun pod member => ?_⟩, fun _ _ _ _ _ => .inr (.inl trivial)⟩
    rw [((mem_listed lists pod).mp (List.mem_filter.mp member).1).2.2, ns]
  · cases next
    obtain ⟨old, pooled, selector⟩ := same (by simpa using resyncs)
    refine ⟨inv.keyed, inv.inNamespace, inv.podCall.poolSet selects, trivial, ?_⟩
    rintro _ key pod ⟨⟩ stored
    rcases inv.matching old key pod pooled stored with matched | owed | owed
    · rw [selector]
      exact .inl matched
    · rw [at_] at owed
      exact absurd owed resyncs
    · exact .inr (.inr owed)

theorem Interleaving.poolAdds (inv : Interleaving cluster pool req s) {activePods : List String} {pod : Pod}
    {items : List Pod} (at_ : s.pool = .podUpdateOrAddIfNotExist activePods (pod :: items)) :
    Interleaving cluster pool req
      ⟨s.pod, .podUpdateOrAddIfNotExist activePods items, (s.store.podUpdateOrAddIfNotExist pod).2⟩ := by
  have same : (s.store.podUpdateOrAddIfNotExist pod).2.pool = s.store.pool :=
    Datastore.podBlind_pool.podUpdate _ _
  have holds := inv.poolCall
  rw [at_] at holds
  obtain ⟨resynced, inNamespace⟩ := holds
  refine ⟨inv.keyed.podUpdate pod, fun key stored after => ?_, by rw [same]; exact inv.podCall,
    ⟨by rw [same]; exact resynced, fun item member => inNamespace item (List.mem_cons_of_mem _ member)⟩,
    fun _ _ _ _ _ => .inr (.inl trivial)⟩
  rw [Datastore.podUpdate_podAt] at after
  split_ifs at after with here
  · rw [here]
    exact inNamespace pod List.mem_cons_self
  · exact inv.inNamespace key stored after

theorem Interleaving.poolReads (inv : Interleaving cluster pool req s) {call : PoolCall}
    (holds : call.Holds cluster pool s.store.pool)
    (owed : ∀ infPool key pod, s.store.pool = some infPool → s.store.podAt key = some pod → s.pool.Owes key →
      Matching cluster infPool.spec.selector key ∨ call.Owes key) :
    Interleaving cluster pool req ⟨s.pod, call, s.store⟩ where
  keyed := inv.keyed
  inNamespace := inv.inNamespace
  podCall := inv.podCall
  poolCall := holds
  matching infPool key pod pooled stored := by
    rcases inv.matching infPool key pod pooled stored with matched | owes | owes
    · exact .inl matched
    · exact (owed infPool key pod pooled stored owes).imp_right .inl
    · exact .inr (.inr owes)

theorem Interleaving.visits (inv : Interleaving cluster pool req s) {activePods : List String}
    {stored visited : Finset NamespacedName} (at_ : s.pool = .range activePods stored visited)
    {key : NamespacedName} {pm : PodMetrics} (found : s.store.pods.lookup key = some pm) :
    Interleaving cluster pool req ⟨s.pod,
      if pm.pod.namespacedName.name ∈ activePods then .range activePods stored (insert key visited)
      else .podDelete activePods stored (insert key visited) pm.pod.namespacedName, s.store⟩ := by
  have podAt : s.store.podAt key = some pm.pod := by rw [Datastore.podAt, found, Option.map_some]
  have own : pm.pod.namespacedName = key := inv.keyed key pm.pod podAt
  have holds := inv.poolCall
  rw [at_] at holds
  obtain ⟨newPool, pooled, active⟩ := holds
  have owed (other : NamespacedName) (different : other ≠ key) (owes : s.pool.Owes other) :
      other ∈ stored ∧ other ∉ insert key visited := by
    rw [at_] at owes
    exact ⟨owes.1, by simp [different, owes.2]⟩
  split_ifs with isActive
  · refine inv.poolReads ⟨newPool, pooled, active⟩ fun infPool other pod pooled' present owes => ?_
    by_cases same : other = key
    · obtain rfl := Option.some.inj (pooled.symm.trans pooled')
      have named := active _ isActive
      rw [own, ← inv.inNamespace key pm.pod podAt] at named
      exact .inl (same ▸ named)
    · exact .inr (owed other same owes)
  · refine inv.poolReads ⟨newPool, pooled, active⟩ fun infPool other pod pooled' present owes => ?_
    by_cases same : other = key
    · exact .inr (.inl (same.trans own.symm))
    · exact .inr (.inr (owed other same owes))

theorem Interleaving.poolDeletes (inv : Interleaving cluster pool req s) {activePods : List String}
    {stored visited : Finset NamespacedName} {key : NamespacedName}
    (at_ : s.pool = .podDelete activePods stored visited key) :
    Interleaving cluster pool req ⟨s.pod, .range activePods stored visited, s.store.podDelete key⟩ := by
  have same : (s.store.podDelete key).pool = s.store.pool := Datastore.podBlind_pool.podDelete _ _
  have holds := inv.poolCall
  rw [at_] at holds
  refine ⟨inv.keyed.podDelete key,
    fun other pod present => inv.inNamespace other pod (Datastore.podAt_of_podDelete present).2,
    by rw [same]; exact inv.podCall, by rw [same]; exact holds, fun infPool other pod pooled present => ?_⟩
  obtain ⟨different, present⟩ := Datastore.podAt_of_podDelete present
  rcases inv.matching infPool other pod (same.symm.trans pooled) present with matched | owes | owes
  · exact .inl matched
  · rw [at_] at owes
    exact .inr (.inl (owes.resolve_left different))
  · exact .inr (.inr owes)

theorem Interleaving.poolStep {s' : Threads} {visit : Option NamespacedName}
    (inv : Interleaving cluster pool req s) (kept : cluster.Kept pool) (lists : listing.Of cluster)
    (guarded : undisturbed s) (taken : s.take cluster listing req (.pool visit) = some s') :
    Interleaving cluster pool req s' := by
  obtain ⟨⟨call, store⟩, next, rfl⟩ := Option.map_eq_some_iff.mp taken
  cases at_ : s.pool with
  | clear =>
      simp only [at_, PoolCall.next] at next
      cases next
      apply inv.clears
      intro pod reading
      simp [undisturbed, at_, reading] at guarded
  | poolGet newPool =>
      have ns := inv.poolCall
      rw [at_] at ns
      have nothing (key : NamespacedName) : ¬s.pool.Owes key := by
        rw [at_]
        exact not_false
      simp only [at_, PoolCall.next, Datastore.poolGet] at next
      cases pooled : s.store.pool with
      | none =>
          simp only [pooled] at next
          cases next
          exact inv.poolReads ⟨ns, by simp⟩ fun _ key _ _ _ owes => absurd owes (nothing key)
      | some old =>
          simp only [pooled] at next
          cases next
          exact inv.poolReads ⟨ns, fun same => ⟨old, pooled, by simpa using same⟩⟩
            fun _ key _ _ _ owes => absurd owes (nothing key)
  | poolSet newPool resync =>
      apply inv.poolSets kept lists at_ _ next
      intro pod adding
      simpa [undisturbed, at_, adding] using guarded
  | podUpdateOrAddIfNotExist activePods items =>
      cases items with
      | cons pod items =>
          simp only [at_, PoolCall.next] at next
          cases next
          exact inv.poolAdds at_
      | nil =>
          have holds := inv.poolCall
          rw [at_] at holds
          simp only [at_, PoolCall.next] at next
          cases next
          refine inv.poolReads holds.1 fun infPool key pod _ stored _ => ?_
          obtain ⟨pm, found, _⟩ := Option.map_eq_some_iff.mp stored
          have member := Finmap.mem_keys.mpr (Finmap.mem_of_lookup_eq_some found)
          exact .inr ⟨member, Finset.notMem_empty key⟩
  | range activePods stored visited =>
      cases visit with
      | some key =>
          simp only [at_, PoolCall.next] at next
          split_ifs at next with again
          obtain ⟨pm, found, visit⟩ := Option.map_eq_some_iff.mp next
          have visited := inv.visits at_ found
          split_ifs at visit visited with active
          · cases visit
            exact visited
          · cases visit
            exact visited
      | none =>
          simp only [at_, PoolCall.next] at next
          split_ifs at next with complete
          cases next
          refine inv.poolReads trivial fun infPool key pod _ present owes => ?_
          rw [at_] at owes
          obtain ⟨pm, found, _⟩ := Option.map_eq_some_iff.mp present
          have gone := (complete key owes.1).resolve_left owes.2
          exact absurd (Finmap.mem_of_lookup_eq_some found) gone
  | podDelete activePods stored visited key =>
      simp only [at_, PoolCall.next] at next
      cases next
      exact inv.poolDeletes at_
  | returned => simp [at_, PoolCall.next] at next

end Steps

theorem PoolCall.first_holds {cluster : Cluster} {pool : NamespacedName} (kept : cluster.Kept pool)
    (stored : Option InferencePool) : (PoolCall.first cluster pool).Holds cluster pool stored := by
  unfold PoolCall.first get
  cases found : cluster.pools.lookup pool with
  | none => trivial
  | some infPool =>
      dsimp only
      split_ifs
      · trivial
      · exact kept.pool infPool found

/-- At the start every stored pod but the one to be reconciled matches the stored pool. -/
theorem interleaved_reconciles_keep_matching {cluster : Cluster} {listing : Listing}
    {pool req : NamespacedName} (kept : cluster.Kept pool) (lists : listing.Of cluster) {ds : Datastore}
    (keyed : ds.PodsKeyed) (inNamespace : ∀ key pod, ds.podAt key = some pod → key.ns = pool.ns)
    (matching : ∀ infPool key pod, ds.pool = some infPool → key ≠ req → ds.podAt key = some pod →
      Matching cluster infPool.spec.selector key) {s : Threads}
    (run : Relation.ReflTransGen (Interleaves cluster listing req fun s => undisturbed s)
      ⟨.poolGet, .first cluster pool, ds⟩ s) :
    s.pod ≠ .panicked ∧ (s.pod = .returned → s.pool = .returned → ∀ infPool, s.store.pool = some infPool →
      ∀ key pod, s.store.podAt key = some pod → Matching cluster infPool.spec.selector key) := by
  have inv : Interleaving cluster pool req s := by
    induction run with
    | refl =>
        refine ⟨keyed, inNamespace, trivial, PoolCall.first_holds kept _, fun infPool key pod pooled stored => ?_⟩
        by_cases own : key = req
        · exact .inr (.inr ⟨own, nofun⟩)
        · exact .inl (matching infPool key pod pooled own stored)
    | tail _ step ih =>
        cases step with
        | pod taken => exact ih.podStep kept taken
        | pool visit guarded taken => exact ih.poolStep kept lists guarded taken
  constructor
  · intro panicked
    have holds := inv.podCall
    rw [panicked] at holds
    exact holds
  · intro podReturned poolReturned infPool pooled key pod stored
    rcases inv.matching infPool key pod pooled stored with matched | owes | owes
    · exact matched
    · rw [poolReturned] at owes
      exact owes.elim
    · exact absurd podReturned owes.2

section Evaluation
variable (cluster : Cluster) (listing : Listing) (req : NamespacedName) (guard : Threads → Prop)
  [DecidablePred guard]

def performTurn (s : Threads) (turn : Turn) : Option Threads :=
  if turn = .pod ∨ guard s then s.take cluster listing req turn else none

theorem reaches_performedTurns (s : Threads) (turns : List Turn)
    (returns : (turns.foldlM (performTurn cluster listing req guard) s).isSome) :
    Relation.ReflTransGen (Interleaves cluster listing req guard) s
      ((turns.foldlM (performTurn cluster listing req guard) s).get returns) := by
  refine reaches_of_foldlM _ (fun s turn s' performed => ?_) (Option.some_get returns).symm
  obtain ⟨allowed, taken⟩ := Option.ite_none_right_eq_some.mp performed
  cases turn with
  | pod => exact .pod taken
  | pool visit => exact .pool visit (allowed.resolve_left nofun) taken

end Evaluation

def changedSelectorTurns : List Turn :=
  [.pod, .pool none, .pod, .pool none, .pod, .pool none, .pool none, .pool (some vllmKey), .pool none]

theorem vllmCluster_kept : vllmCluster.Kept ⟨"default", "pool"⟩ where
  pods key pod present := by
    obtain ⟨rfl, rfl⟩ := vllmCluster_pod present
    exact ⟨rfl, rfl⟩
  pool infPool found := by
    have same : vllmCluster.pools.lookup ⟨"default", "pool"⟩ = some vllmPool := Finmap.lookup_insert _
    obtain rfl := Option.some.inj (same.symm.trans found)
    rfl

theorem interleaved_reconciles_match_changed_selector :
    ∃ s, Relation.ReflTransGen (Interleaves vllmCluster ⟨[], [vllmKey]⟩ vllmKey fun s => undisturbed s)
        ⟨.poolGet, .first vllmCluster ⟨"default", "pool"⟩, vllmStore⟩ s ∧
      s.pod = .returned ∧ s.store.pool = some vllmPool ∧ (s.store.podAt vllmKey).isSome ∧
      s.pod ≠ .panicked ∧ (s.pod = .returned → s.pool = .returned → ∀ infPool, s.store.pool = some infPool →
        ∀ key pod, s.store.podAt key = some pod → Matching vllmCluster infPool.spec.selector key) := by
  have run := reaches_performedTurns vllmCluster ⟨[], [vllmKey]⟩ vllmKey (fun s => undisturbed s)
    ⟨.poolGet, .first vllmCluster ⟨"default", "pool"⟩, vllmStore⟩ changedSelectorTurns (by decide +kernel)
  refine ⟨_, run, by decide +kernel, by decide +kernel, by decide +kernel, ?_⟩
  refine interleaved_reconciles_keep_matching vllmCluster_kept ⟨by decide +kernel, by decide +kernel⟩ ?_ ?_ ?_ run
  · intro key pod stored
    obtain ⟨rfl, rfl⟩ := vllmStore_podAt stored
    rfl
  · intro key pod stored
    obtain ⟨rfl, rfl⟩ := vllmStore_podAt stored
    rfl
  · intro infPool key pod _ other stored
    exact absurd (vllmStore_podAt stored).1 other

def sglangPool : InferencePool :=
  { vllmPool with spec := ⟨(∅ : Labels).insert "app" "sglang", 8000⟩ }

def vllmClusterWith (infPool : Option InferencePool) : Cluster where
  pods := vllmCluster.pods
  pools := infPool.elim ∅ fun infPool =>
    (∅ : Finmap (fun _ : NamespacedName => InferencePool)).insert ⟨"default", "pool"⟩ infPool

def vllmThreads (infPool : Option InferencePool) : Threads :=
  ⟨.poolGet, .first (vllmClusterWith infPool) ⟨"default", "pool"⟩, { pool := some vllmPool }⟩

theorem interleaved_reconciles_break_matching :
    (∃ s, Relation.ReflTransGen (Interleaves (vllmClusterWith none) ⟨[], [vllmKey]⟩ vllmKey fun _ => True)
        (vllmThreads none) s ∧ s.pod = .panicked) ∧
      ∃ s, Relation.ReflTransGen
          (Interleaves (vllmClusterWith (some sglangPool)) ⟨[], [vllmKey]⟩ vllmKey fun _ => True)
          (vllmThreads (some sglangPool)) s ∧
        s.pod = .returned ∧ s.pool = .returned ∧ s.store.pool = some sglangPool ∧
        s.store.podAt vllmKey = some ⟨vllmKey, "10.0.0.1"⟩ ∧
        selectorFromInferencePoolSelector sglangPool.spec.selector vllmLabels = false := by
  have cleared := reaches_performedTurns (vllmClusterWith none) ⟨[], [vllmKey]⟩ vllmKey (fun _ => True)
    (vllmThreads none) [.pod, .pool none, .pod] (by decide +kernel)
  have changed := reaches_performedTurns (vllmClusterWith (some sglangPool)) ⟨[], [vllmKey]⟩ vllmKey
    (fun _ => True) (vllmThreads (some sglangPool))
    [.pod, .pod, .pool none, .pool none, .pool none, .pool none, .pod] (by decide +kernel)
  exact ⟨⟨_, cleared, by decide +kernel⟩, _, changed, by decide +kernel, by decide +kernel,
    by decide +kernel, by decide +kernel, by decide +kernel⟩

end InferenceGateway
