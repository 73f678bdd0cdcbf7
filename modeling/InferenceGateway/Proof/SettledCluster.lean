import InferenceGateway.Proof.Controller.ModelSettling
import InferenceGateway.Proof.Controller.Rest
import InferenceGateway.Proof.Handlers.StatusCodes

/-!
Requests for a cluster that the controllers have caught up with: how a request ends depends on the
InferenceModels, the pods and the InferencePool of the cluster alone, and on the load.
-/

namespace InferenceGateway
open Lib

/-! ## The InferencePool -/

def Cluster.poolAt (cluster : Cluster) (pool : NamespacedName) : Option InferencePool :=
  (cluster.pools.lookup pool).filter fun infPool => infPool.deletionTimestamp.isNone

/-- `found` is the InferencePool of the cluster: the reconcile will store it, or has stored it. -/
def PoolFresh (found stored : Option InferencePool) : InferencePoolReconciler.Pc → Prop
  | .get _ | .clear | .failed => True
  | .poolGet newPool | .poolSet newPool _ => found = some newPool
  | _ => stored = found

theorem PoolFresh.goes {cluster : Cluster} {pool : NamespacedName} {client : Client} {visit : Option NamespacedName}
    {pc pc' : InferencePoolReconciler.Pc} {memory memory' : Memory} (reads : client.Reads cluster)
    (asks : ∀ req, pc = .get req → req = pool) (keeps : pc ≠ .clear)
    (fresh : PoolFresh (cluster.poolAt pool) memory.ds.pool pc)
    (goes : pc.Goes client visit memory pc' memory') : PoolFresh (cluster.poolAt pool) memory'.ds.pool pc' := by
  cases goes with
  | readFailed | notFound | marked => trivial
  | @unmarked req infPool read unmarked =>
      have found := Controllers.lookup_of_read (reads.getInferencePool req) read
      rw [asks req rfl] at found
      change cluster.poolAt pool = some infPool
      simp [Cluster.poolAt, found, unmarked]
  | cleared => exact absurd rfl keeps
  | set | resyncs => exact Eq.symm fresh
  | updates called | updated called => exact (called.blind Datastore.podBlind_pool).trans fresh
  | deleted => exact (Datastore.podBlind_pool.podDelete _ _).trans fresh
  | _ => exact fresh

namespace Controllers
variable {pool : NamespacedName} {admits : InferenceModel → Prop} {s s' s₀ : Controllers} {infPool : InferencePool}

def PoolTracked (pool : NamespacedName) (s : Controllers) : Prop :=
  .pods .pool ∈ s.pending ∨ PoolFresh (s.cluster.poolAt pool) s.memory.ds.pool s.pool

theorem ManagerChange.pool_event {cluster cluster' : Cluster} {requests : Finset ManagerRequest}
    (change : ManagerChange pool admits cluster requests cluster') (silent : .pods .pool ∉ requests) :
    cluster'.poolAt pool = cluster.poolAt pool := by
  cases change with
  | model => rfl
  | pods change =>
      unfold Cluster.poolAt
      rw [change.event.2]
      intro member
      exact silent (Finset.mem_image_of_mem _ member)
  | requeue => rfl

theorem PoolTracked.step (tracked : PoolTracked pool s) (reached : Reaches pool admits {} s)
    (step : Step pool admits s s') (keeps : s.pool ≠ .clear) : PoolTracked pool s' := by
  cases step with
  | @change requests cluster changed =>
      by_cases event : .pods .pool ∈ requests
      · exact .inl (Finset.mem_union_right _ event)
      · rcases tracked with queued | fresh
        · exact .inl (Finset.mem_union_left _ queued)
        · right
          rw [ManagerChange.pool_event changed event]
          exact fresh
  | startModel req enqueued idle | startPod req enqueued idle =>
      rcases tracked with queued | fresh
      · exact .inl (Finset.mem_erase.mpr ⟨by simp, queued⟩)
      · exact .inr fresh
  | startPool enqueued idle => exact .inr trivial
  | model reads ranges taken =>
      obtain ⟨models, changed⟩ := (InferenceModelReconciler.Pc.Goes.of_next ranges taken).models
      cases changed
      exact tracked
  | pod reads taken =>
      rcases tracked with queued | fresh
      · exact .inl queued
      · right
        dsimp only
        rw [(PodReconciler.Pc.Goes.of_next taken).blind Datastore.podBlind_pool]
        exact fresh
  | pool reads visit taken =>
      rcases tracked with queued | fresh
      · exact .inl queued
      · refine .inr (fresh.goes reads ?_ keeps (.of_next taken))
        intro req asks
        obtain ⟨_, vetted⟩ := reached.exists_vetted
        have own := vetted.poolPc
        rw [asks] at own
        exact own
  | retryModel req failed | retryPod req failed =>
      rcases tracked with queued | fresh
      · exact .inl (Finset.mem_insert_of_mem queued)
      · exact .inr fresh
  | retryPool failed => exact .inl (Finset.mem_insert_self _ _)

theorem PoolTracked.run (run : Relation.ReflTransGen (Steady pool admits) {} s) :
    Reaches pool admits {} s ∧ PoolTracked pool s := by
  induction run with
  | refl => exact ⟨.refl, .inr rfl⟩
  | tail _ steady ih => exact ⟨ih.1.tail steady.1, ih.2.step ih.1 steady.1 steady.2.1⟩

/-! ## Settled runs -/

/-- The queues are worked off. The InferencePool's controller rests from `s₀` on, where every pod was queued,
or stored as it should be while the pod controller was idle. -/
structure Settles (pool : NamespacedName) (admits : InferenceModel → Prop) (infPool : InferencePool)
    (s₀ s : Controllers) : Prop where
  before : Relation.ReflTransGen (Steady pool admits) {} s₀
  pooled : s₀.memory.ds.pool = some infPool
  start : ∀ key, .pods (.pod key) ∈ s₀.pending ∨
    s₀.pod = .returned ∧ s₀.memory.ds.podAt key = eligibleAt s₀.cluster infPool.spec.selector key
  run : Relation.ReflTransGen (fun s s' => Quiet pool admits s s' ∧ Steady pool admits s s') s₀ s
  worked : s.pending = ∅
  modelIdle : s.model = .returned
  podIdle : s.pod = .returned
  poolIdle : s.pool = .returned

namespace Settles
variable (settles : Settles pool admits infPool s₀ s)
include settles

theorem steady : Relation.ReflTransGen (Steady pool admits) {} s :=
  settles.before.trans (settles.run.lift id fun _ _ step => step.2)

theorem tracked (key : NamespacedName) : Tracked infPool key s := by
  have reached := (PoolTracked.run settles.before).1
  have quiet : Relation.ReflTransGen (Quiet pool admits) s₀ s := settles.run.lift id fun _ _ step => step.1
  exact ((tracked_of_start settles.pooled (settles.start key)).run reached.named quiet).2

theorem stored : s.memory.ds.pool = some infPool := (settles.tracked pool).pooled

theorem poolAt : s.cluster.poolAt pool = some infPool := by
  rcases (PoolTracked.run settles.steady).2 with queued | fresh
  · rw [settles.worked] at queued
    cases queued
  · rw [settles.poolIdle] at fresh
    exact fresh.symm.trans settles.stored

theorem podAt (key : NamespacedName) :
    s.memory.ds.podAt key = eligibleAt s.cluster infPool.spec.selector key := by
  apply (settles.tracked key).right _ settles.podIdle
  rw [settles.worked]
  exact Finset.notMem_empty _

theorem oldestWins {identity : NamespacedName → String × Int}
    (admitted : ∀ m, admits m → m.identity = identity m.namespacedName) :
    (InferenceModelReconciler.mk pool).OldestWins s.cluster.models s.memory.ds.models := by
  have caught := (Caught.run admitted settles.steady).2
  apply caught.oldestWins _ settles.modelIdle
  intro key
  rw [settles.worked]
  exact Finset.notMem_empty _

end Settles

/-! ## Calm runs settle -/

/-- A state from which the controllers can catch up with a cluster that stands still: the InferencePool has been
worked off, and every pod is queued, or stored as it should be while the pod controller is idle. -/
structure Ready (pool : NamespacedName) (admits : InferenceModel → Prop) (infPool : InferencePool)
    (s : Controllers) : Prop where
  before : Relation.ReflTransGen (Steady pool admits) {} s
  pooled : s.memory.ds.pool = some infPool
  start : ∀ key, .pods (.pod key) ∈ s.pending ∨
    s.pod = .returned ∧ s.memory.ds.podAt key = eligibleAt s.cluster infPool.spec.selector key
  poolIdle : s.pool = .returned
  poolWorked : .pods .pool ∉ s.pending

/-- What a calm run from such a state keeps. -/
structure Resting (infPool : InferencePool) (s : Controllers) : Prop where
  pooled : s.memory.ds.pool = some infPool
  poolIdle : s.pool = .returned
  poolWorked : .pods .pool ∉ s.pending

theorem fails_of_resyncs {pc : InferenceModelReconciler.Pc} (resyncs : pc.resyncs.isSome) : pc.fails = false := by
  cases pc with
  | failed => cases resyncs
  | _ => rfl

theorem Calm.steady (resting : Resting infPool s) (calm : Calm pool s s') : Steady pool admits s s' := by
  refine ⟨calm.step, ?_, ?_⟩
  · rw [resting.poolIdle]
    intro clears
    cases clears
  · intro resyncs
    cases calm with
    | startModel | retryModel => rfl
    | model lists ranges taken =>
        have goes := InferenceModelReconciler.Pc.Goes.of_next ranges taken
        generalize s.model = pc at goes resyncs
        cases goes with
        | unsynced none => cases none.symm.trans resting.pooled
        | listFailed _ failed => cases failed
        | noneLeft | resynced => rfl
        | _ => cases resyncs
    | startPod | startPool | pod | pool | retryPod | retryPool => exact fails_of_resyncs resyncs

theorem Resting.step (resting : Resting infPool s) (calm : Calm pool s s') : Resting infPool s' := by
  obtain ⟨pooled, idle, worked⟩ := resting
  cases calm with
  | startModel | startPod => exact ⟨pooled, idle, fun member => worked (Finset.mem_of_mem_erase member)⟩
  | startPool enqueued => exact absurd enqueued worked
  | model lists ranges taken =>
      obtain ⟨models, changed⟩ := (InferenceModelReconciler.Pc.Goes.of_next ranges taken).models
      cases changed
      exact ⟨pooled, idle, worked⟩
  | pod lists taken =>
      have same := (PodReconciler.Pc.Goes.of_next taken).blind Datastore.podBlind_pool
      exact ⟨same.trans pooled, idle, worked⟩
  | pool lists visit taken moves =>
      rw [idle] at taken moves
      cases taken
      exact absurd rfl moves
  | retryModel | retryPod => exact ⟨pooled, idle, by simpa using worked⟩
  | retryPool failed => cases idle.symm.trans failed

theorem Resting.run (resting : Resting infPool s) (run : Relation.ReflTransGen (Calm pool) s s') :
    Resting infPool s' ∧
      Relation.ReflTransGen (fun s s' => Quiet pool admits s s' ∧ Steady pool admits s s') s s' := by
  induction run with
  | refl => exact ⟨resting, .refl⟩
  | tail _ calm ih =>
      have next := ih.1.step calm
      exact ⟨next, ih.2.tail ⟨⟨calm.step, ih.1.poolIdle, next.poolIdle⟩, calm.steady ih.1⟩⟩

theorem Ready.settles (ready : Ready pool admits infPool s₀) (run : Relation.ReflTransGen (Calm pool) s₀ s)
    (rest : s.AtRest) : Settles pool admits infPool s₀ s :=
  have resting : Resting infPool s₀ := ⟨ready.pooled, ready.poolIdle, ready.poolWorked⟩
  ⟨ready.before, ready.pooled, ready.start, (resting.run run).2, rest.worked, rest.model, rest.pod, rest.pool⟩

theorem Ready.reached (ready : Ready pool admits infPool s₀) : Reaches pool admits {} s₀ :=
  (PoolTracked.run ready.before).1

end Controllers

/-! ## Requests -/

/-- No live InferenceModel of the name is older. -/
structure Cluster.Oldest (cluster : Cluster) (pool : NamespacedName) (model : String) (m : InferenceModel) : Prop where
  live : ∃ key, cluster.liveModels pool key = some m
  named : m.spec.modelName = model
  oldest : ∀ key other, cluster.liveModels pool key = some other → other.spec.modelName = model →
    m.creationTimestamp ≤ other.creationTimestamp

/-- How a request for a model ends: with an immediate response, or with an endpoint. -/
inductive Cluster.Ends (cluster : Cluster) (pool : NamespacedName) (infPool : InferencePool) (picker : Picker)
    (model : String) : Option StatusCode → Prop
  | notFound (absent : ∀ key m, cluster.liveModels pool key = some m → m.spec.modelName ≠ model) :
      Ends cluster pool infPool picker model (some .notFound)
  | shed {m : InferenceModel} (oldest : cluster.Oldest pool model m)
      (refused : (∀ key, eligibleAt cluster infPool.spec.selector key = none) ∨ ¬picker.Admits m) :
      Ends cluster pool infPool picker model (some .tooManyRequests)
  | pick {m : InferenceModel} (oldest : cluster.Oldest pool model m) {key : NamespacedName} {pod : BackendPod}
      (eligible : eligibleAt cluster infPool.spec.selector key = some pod) (accepts : picker.Admits m) :
      Ends cluster pool infPool picker model none

def Cluster.Endpoint (cluster : Cluster) (infPool : InferencePool) (endpoint : String) : Prop :=
  ∃ key pod, eligibleAt cluster infPool.spec.selector key = some pod ∧ endpoint = endpointOf pod infPool

section Requests
variable {codec : Codec} {hint : DestinationHint} {picked picked' : String → Prop} {backend : Backend}
  {chunks : List Bytes} {last : Bytes} {status : Option StatusCode}

theorem EndsWith.mono {sent : List (Option ProcessingResponse)} (sub : ∀ endpoint, picked endpoint → picked' endpoint)
    (ends : EndsWith hint picked sent status) : EndsWith hint picked' sent status := by
  cases status with
  | some code => exact ends
  | none =>
      obtain ⟨immediate, endpoint, resp, picks, sends, carries⟩ := ends
      exact ⟨immediate, endpoint, resp, sub endpoint picks, sends, carries⟩

theorem BothEnd.mono (sub : ∀ endpoint, picked endpoint → picked' endpoint)
    (ends : BothEnd codec hint picked backend chunks last status) :
    BothEnd codec hint picked' backend chunks last status :=
  ⟨ends.1.mono sub, ends.2.mono sub⟩

end Requests

namespace Controllers.Settles
variable {pool : NamespacedName} {admits : InferenceModel → Prop} {s s₀ : Controllers} {infPool : InferencePool}
  {picker : Picker}

theorem picker_pool (settles : Settles pool admits infPool s₀ s) (reads : picker.ds = s.memory.ds) :
    picker.pool = infPool := by
  have synced := picker.synced
  rw [reads, settles.stored] at synced
  exact (Option.some.inj synced).symm

theorem endpoint (settles : Settles pool admits infPool s₀ s) (reads : picker.ds = s.memory.ds) (endpoint : String)
    (picks : picker.Endpoint endpoint) : s.cluster.Endpoint infPool endpoint := by
  obtain ⟨key, pm, stored, same⟩ := picks
  rw [settles.picker_pool reads] at same
  refine ⟨key, pm.pod, ?_, same⟩
  rw [← settles.podAt key, Datastore.podAt, ← reads, stored]
  rfl

end Controllers.Settles

namespace Controllers
open InferenceModelReconciler Lib.Workqueue

def pooledTurns : List Turn :=
  [.change (.pods (.createPool vllmPool)), .startPool] ++ List.replicate 6 (.pool {} none)

theorem pooledTurns_return : (pooledTurns.foldlM (performWhere ⟨"default", "pool"⟩ rivalAdmits Keeps) {}).isSome := by
  decide +kernel

def pooled : Controllers :=
  (pooledTurns.foldlM (performWhere ⟨"default", "pool"⟩ rivalAdmits Keeps) {}).get pooledTurns_return

def waitingTurns : List Turn :=
  pooledTurns ++ [.change (.model (.create (testModel "a" "llama" 1))), .change (.pods (.createPod (vllmPod none)))]

theorem waitingTurns_return : (waitingTurns.foldlM (performWhere ⟨"default", "pool"⟩ rivalAdmits Keeps) {}).isSome := by
  decide +kernel

def waiting : Controllers :=
  (waitingTurns.foldlM (performWhere ⟨"default", "pool"⟩ rivalAdmits Keeps) {}).get waitingTurns_return

abbrev RestsAndKeeps (s s' : Controllers) : Prop := Rests s s' ∧ Keeps s s'

-- the InferenceModel is read before the pod's reconcile and stored after it
def settledTurns : List Turn :=
  [.change (.model (.create (testModel "a" "llama" 1))), .startModel (testKey "a"), .model ⟨[testKey "a"], []⟩ [],
    .change (.pods (.createPod (vllmPod none))), .startPod vllmKey] ++
  List.replicate 6 (.pod ⟨[testKey "a"], [vllmKey]⟩) ++ [.model ⟨[testKey "a"], [vllmKey]⟩ []]

theorem settledTurns_return :
    (settledTurns.foldlM (performWhere ⟨"default", "pool"⟩ rivalAdmits RestsAndKeeps) pooled).isSome := by
  decide +kernel

def settled : Controllers :=
  (settledTurns.foldlM (performWhere ⟨"default", "pool"⟩ rivalAdmits RestsAndKeeps) pooled).get settledTurns_return

end Controllers

end InferenceGateway
