import InferenceGateway.LoraSidecar.Concurrent
import InferenceGateway.Proof.LoraSidecar

/-!
What a reconcile tries to load and to unload, when the configuration file may be replaced between
any two of its reads.
-/

namespace InferenceGateway.LoraSidecar.Concurrent
open Lib Lib.Oracle

variable {σ α β : Type}

/-! ## The number of reads -/

def Forward (x : Reading σ α) : Prop := ∀ world s, s.1 ≤ (x world s).2.1

theorem forward_pure (a : α) : Forward (pure a : Reading σ α) := by
  intro world s
  exact le_rfl

theorem forward_ask (request : ModelServer σ → σ → α × σ) : Forward (ask request) := by
  intro world s
  exact le_rfl

theorem forward_modelServer : Forward (modelServer : Reading σ String) := by
  intro world s
  exact Nat.le_add_right s.1 2

theorem Forward.bind {x : Reading σ α} {f : α → Reading σ β} (first : Forward x) (second : ∀ a, Forward (f a)) :
    Forward (x >>= f) := by
  intro world s
  exact (first world s).trans (second _ world _)

theorem forward_ite {c : Prop} [Decidable c] {x y : Reading σ α} (yes : Forward x) (no : Forward y) :
    Forward (if c then x else y) := by
  split
  · exact yes
  · exact no

theorem forward_checkHealth : Forward (checkHealth : Reading σ Bool) :=
  forward_modelServer.bind fun _ => forward_ask _

theorem forward_probe (rounds : Nat) : Forward (probe rounds : Reading σ Bool) := by
  induction rounds with
  | zero => exact forward_pure false
  | succ rounds ih => exact forward_checkHealth.bind fun _ => forward_ite (forward_pure true) ih

theorem forward_registeredAdapters : Forward (registeredAdapters : Reading σ (Finset String)) := by
  apply forward_modelServer.bind
  intro host
  apply ((forward_ask _).bind forward_probe).bind
  intro healthy
  apply forward_ite
  · exact forward_ask _
  · exact forward_modelServer.bind fun _ => forward_pure ∅

theorem forward_loadAdapter (adapter : LoraAdapter) : Forward (loadAdapter adapter : Reading σ Unit) := by
  apply forward_registeredAdapters.bind
  intro registered
  apply forward_ite
  · exact forward_modelServer.bind fun _ => forward_pure ()
  · exact forward_modelServer.bind fun _ => forward_ask _

theorem forward_unloadAdapter (adapter : LoraAdapter) : Forward (unloadAdapter adapter : Reading σ Unit) := by
  apply forward_registeredAdapters.bind
  intro registered
  apply forward_ite
  · exact forward_modelServer.bind fun _ => forward_pure ()
  · exact forward_modelServer.bind fun _ => forward_ask _

theorem forward_forM {f : α → Reading σ Unit} (each : ∀ a, Forward (f a)) (list : List α) : Forward (list.forM f) := by
  induction list with
  | nil => exact forward_pure ()
  | cons a list ih => exact (each a).bind fun _ => ih

/-! ## What is tried -/

def listed (adapters : List LoraAdapter) : Set String := {id | ∃ adapter ∈ adapters, adapter.id = id}

theorem listed_toAdapters (models : Option (List AdapterConfig)) (defaultModel : String) :
    listed (toAdapters (models.getD []) defaultModel) = ids models := by
  ext id
  simp only [listed, toAdapters, Set.mem_ofPred_eq, ids_adapterSet]
  simp [ids]

/-- What `ensure_exist_adapters` returns from this read on. -/
def existAt (config : Nat → Config) (t : Nat) : List LoraAdapter :=
  toAdapters ((config t).ensureExist.getD []) ((config (t + 1)).defaultBaseModel.getD "")

def notExistAt (config : Nat → Config) (t : Nat) : List LoraAdapter :=
  toAdapters ((config t).ensureNotExist.getD []) ((config (t + 1)).defaultBaseModel.getD "")

theorem ensureExistAdapters_apply (world : World σ) (s : Nat × σ) :
    ensureExistAdapters world s = (existAt world.config s.1, (s.1 + 2, s.2)) := rfl

theorem ensureNotExistAdapters_apply (world : World σ) (s : Nat × σ) :
    ensureNotExistAdapters world s = (notExistAt world.config s.1, (s.1 + 2, s.2)) := rfl

/-- The adapters to load and to unload are those of this version. -/
structure Prescribes (config : Config) (toLoad toUnload : List LoraAdapter) : Prop where
  load : listed toLoad = ids config.ensureExist \ ids config.ensureNotExist
  unload : listed toUnload = ids config.ensureNotExist \ ids config.ensureExist

section Reconcile
variable {order : List LoraAdapter → List LoraAdapter} {world : World σ} {server : σ}

/-- The read of `ensure_exist_adapters` for the adapters to load. The health check comes before it, and
two reads further on is that of `ensure_not_exist_adapters`. -/
def loadsFrom (world : World σ) (server : σ) : Nat := (isServerHealthy world (2, server)).2.1 + 4

def toLoad (order : List LoraAdapter → List LoraAdapter) (world : World σ) (server : σ) : List LoraAdapter :=
  order (difference (existAt world.config (loadsFrom world server))
    (notExistAt world.config (loadsFrom world server + 2)))

/-- The read of `ensure_not_exist_adapters` for the adapters to unload, after those to load have been
loaded; two reads further on is that of `ensure_exist_adapters`. -/
def unloadsFrom (order : List LoraAdapter → List LoraAdapter) (world : World σ) (server : σ) : Nat :=
  ((toLoad order world server).forM loadAdapter world
    (loadsFrom world server + 4, (isServerHealthy world (2, server)).2.2)).2.1

def toUnload (order : List LoraAdapter → List LoraAdapter) (world : World σ) (server : σ) : List LoraAdapter :=
  order (difference (notExistAt world.config (unloadsFrom order world server))
    (existAt world.config (unloadsFrom order world server + 2)))

theorem reconcile_of_unhealthy (unhealthy : (isServerHealthy world (2, server)).1 = false) :
    (reconcile order world (0, server)).1 = none := by
  have checked : (isServerHealthy world (modelServer world (0, server)).2).1 = false := unhealthy
  simp only [reconcile, bind_apply, ite_run, checked]
  rfl

theorem reconcile_of_healthy (healthy : (isServerHealthy world (2, server)).1 = true) :
    (reconcile order world (0, server)).1 = some (toLoad order world server, toUnload order world server) ∧
      unloadsFrom order world server + 4 ≤ (reconcile order world (0, server)).2.1 := by
  let loaded := ((toLoad order world server).forM loadAdapter world
    (loadsFrom world server + 4, (isServerHealthy world (2, server)).2.2)).2
  have value : reconcile order world (0, server) =
      (some (toLoad order world server, toUnload order world server),
        ((toUnload order world server).forM unloadAdapter world (loaded.1 + 4, loaded.2)).2) := by
    have checked : (isServerHealthy world (modelServer world (0, server)).2).1 = true := healthy
    simp only [reconcile, bind_apply, ite_run, checked, ensureExistAdapters_apply, ensureNotExistAdapters_apply]
    rfl
  rw [value]
  exact ⟨rfl, forward_forM forward_unloadAdapter _ world (loaded.1 + 4, loaded.2)⟩

theorem loadsFrom_le_unloadsFrom : loadsFrom world server + 4 ≤ unloadsFrom order world server :=
  forward_forM forward_loadAdapter (toLoad order world server) world
    (loadsFrom world server + 4, (isServerHealthy world (2, server)).2.2)

theorem listed_order_difference (arranges : ∀ set, (order set).Perm set) (first second : List LoraAdapter) :
    listed (order (difference first second)) = listed first \ listed second := by
  rw [listed, ids_order_difference _ _ arranges]
  rfl

/-- What is tried is what one of the versions that were read prescribes, unless the server was not
healthy and nothing was tried. -/
def ActsOnOne (order : List LoraAdapter → List LoraAdapter) (world : World σ) (server : σ) : Prop :=
  ∀ loads unloads, (reconcile order world (0, server)).1 = some (loads, unloads) →
    ∃ t < (reconcile order world (0, server)).2.1, Prescribes (world.config t) loads unloads

/-- Of every adapter, the four reads from `first` and from `second` on say what the version says: whether it
is to be loaded, and whether it is to be unloaded. -/
structure Agrees (config : Nat → Config) (first second : Nat) (version : Config) : Prop where
  load : ∀ id, id ∈ ids (config first).ensureExist ∧ id ∉ ids (config (first + 2)).ensureNotExist ↔
    id ∈ ids version.ensureExist ∧ id ∉ ids version.ensureNotExist
  unload : ∀ id, id ∈ ids (config second).ensureNotExist ∧ id ∉ ids (config (second + 2)).ensureExist ↔
    id ∈ ids version.ensureNotExist ∧ id ∉ ids version.ensureExist

theorem prescribes_iff_agrees (arranges : ∀ set, (order set).Perm set) {version : Config} :
    Prescribes version (toLoad order world server) (toUnload order world server) ↔
      Agrees world.config (loadsFrom world server) (unloadsFrom order world server) version := by
  have loads : listed (toLoad order world server) = ids (world.config (loadsFrom world server)).ensureExist \
      ids (world.config (loadsFrom world server + 2)).ensureNotExist := by
    rw [toLoad, listed_order_difference arranges, existAt, notExistAt, listed_toAdapters, listed_toAdapters]
  have unloads : listed (toUnload order world server) =
      ids (world.config (unloadsFrom order world server)).ensureNotExist \
        ids (world.config (unloadsFrom order world server + 2)).ensureExist := by
    rw [toUnload, listed_order_difference arranges, existAt, notExistAt, listed_toAdapters, listed_toAdapters]
  constructor
  · intro prescribed
    exact ⟨Set.ext_iff.mp (loads.symm.trans prescribed.load), Set.ext_iff.mp (unloads.symm.trans prescribed.unload)⟩
  · intro agrees
    exact ⟨loads.trans (Set.ext agrees.load), unloads.trans (Set.ext agrees.unload)⟩

theorem actsOnOne_iff (arranges : ∀ set, (order set).Perm set) :
    ActsOnOne order world server ↔ ((isServerHealthy world (2, server)).1 = true →
      ∃ t < (reconcile order world (0, server)).2.1,
        Agrees world.config (loadsFrom world server) (unloadsFrom order world server) (world.config t)) := by
  simp only [← prescribes_iff_agrees arranges]
  cases healthy : (isServerHealthy world (2, server)).1 with
  | false => simp [ActsOnOne, reconcile_of_unhealthy healthy]
  | true => simp [ActsOnOne, (reconcile_of_healthy healthy).1]

end Reconcile

/-! ## Replacements -/

/-- The two versions list the same adapters under each key. -/
def SameLists (old new : Config) : Prop :=
  ids new.ensureExist = ids old.ensureExist ∧ ids new.ensureNotExist = ids old.ensureNotExist

/-- What no replacement between two reads changes is the same at both. -/
theorem sameLists_of_steps {config : Nat → Config} {first last : Nat}
    (kept : ∀ t, first ≤ t → t < last → SameLists (config t) (config (t + 1))) {t : Nat} (started : first ≤ t)
    (ended : t ≤ last) : SameLists (config first) (config t) := by
  induction t, started using Nat.le_induction with
  | base => exact ⟨rfl, rfl⟩
  | succ t started ih =>
      obtain ⟨exist, notExist⟩ := ih (Nat.le_of_succ_le ended)
      obtain ⟨exist', notExist'⟩ := kept t started ended
      exact ⟨exist'.trans exist, notExist'.trans notExist⟩

theorem agrees_of_steps {config : Nat → Config} {first second : Nat} (later : first + 4 ≤ second)
    (kept : ∀ t, first ≤ t → t < second + 2 → SameLists (config t) (config (t + 1))) :
    Agrees config first second (config first) := by
  have same {t : Nat} (started : first ≤ t) (ended : t ≤ second + 2) := sameLists_of_steps kept started ended
  obtain ⟨-, notExist⟩ := same (t := first + 2) (by omega) (by omega)
  obtain ⟨-, notExist'⟩ := same (t := second) (by omega) (by omega)
  obtain ⟨exist, -⟩ := same (t := second + 2) (by omega) (by omega)
  constructor
  · intro id
    rw [notExist]
  · intro id
    rw [notExist', exist]

/-- A reconcile acts on one version exactly if some version that it reads says of every adapter what the four
reads say that decide what is tried. It does if no replacement between these lists other adapters. -/
theorem reconcile_one_version_iff {order : List LoraAdapter → List LoraAdapter}
    (arranges : ∀ set, (order set).Perm set) (world : World σ) (server : σ) :
    (ActsOnOne order world server ↔ ((isServerHealthy world (2, server)).1 = true →
      ∃ t < (reconcile order world (0, server)).2.1,
        Agrees world.config (loadsFrom world server) (unloadsFrom order world server) (world.config t))) ∧
    ((∀ t, loadsFrom world server ≤ t → t < unloadsFrom order world server + 2 →
      SameLists (world.config t) (world.config (t + 1))) → ActsOnOne order world server) := by
  refine ⟨actsOnOne_iff arranges, fun kept => (actsOnOne_iff arranges).mpr fun healthy => ?_⟩
  have read := (@reconcile_of_healthy σ order world server healthy).2
  have later := @loadsFrom_le_unloadsFrom σ order world server
  exact ⟨loadsFrom world server, by omega, agrees_of_steps later kept⟩

/-- Only the first probe succeeds. The state is the number of probes made. -/
def slowServer (rounds : Nat) : ModelServer Nat where
  rounds _ := rounds
  health _ probes := (probes = 0, probes + 1)
  models _ probes := (∅, probes)
  post _ _ probes := probes

/-- The file is replaced between any two reads, but only the port is another one. -/
def movedConfig (version : Nat) : Config where
  port := some (8000 + version)
  ensureExist := some [⟨"sql-lora", "/adapters/sql", none⟩]

theorem harmless_replacements :
    ActsOnOne id ⟨movedConfig, slowServer 1⟩ 0 ∧
    (reconcile id ⟨movedConfig, slowServer 1⟩ (0, 0)).1 = some ([⟨"sql-lora", "/adapters/sql", ""⟩], []) := by
  obtain ⟨-, acts⟩ := reconcile_one_version_iff List.Perm.refl ⟨movedConfig, slowServer 1⟩ 0
  exact ⟨acts fun _ _ _ => ⟨rfl, rfl⟩, by decide +kernel⟩

/-- The first version lists an adapter under both keys, the second under none: neither asks for a load. -/
def emptiedConfig (version : Nat) : Config :=
  if version = 0 then
    { ensureExist := some [⟨"sql-lora", "/adapters/sql", none⟩]
      ensureNotExist := some [⟨"sql-lora", "/adapters/sql", none⟩] }
  else {}

theorem loads_unasked_adapter :
    let world : World Nat := ⟨fun t => emptiedConfig (if t < 9 then 0 else 1), slowServer 1⟩
    (reconcile id world (0, 0)).1 = some ([⟨"sql-lora", "/adapters/sql", ""⟩], []) ∧ ¬ActsOnOne id world 0 := by
  intro world
  have done : (reconcile id world (0, 0)).1 = some ([⟨"sql-lora", "/adapters/sql", ""⟩], []) := by decide +kernel
  refine ⟨done, fun acts => ?_⟩
  obtain ⟨read, -, prescribed⟩ := acts _ _ done
  have loaded : "sql-lora" ∈ listed [⟨"sql-lora", "/adapters/sql", ""⟩] := ⟨_, List.mem_singleton_self _, rfl⟩
  rw [prescribed.load] at loaded
  by_cases early : read < 9
  · simp [world, emptiedConfig, early, ids] at loaded
  · simp [world, emptiedConfig, early, ids] at loaded

/-! ## A file that is not replaced -/

/-- The server of a reconcile with one configuration. -/
def steadyServer (fails : String → Bool) : ModelServer Server where
  rounds _ := 1
  health _ server := (server.healthy, server)
  models _ server := (server.registered, server)
  post url payload server :=
    let received := { server with posts := server.posts ++ [⟨url, payload, server.registered⟩] }
    if fails payload.loraName then received
    else
      { received with
        registered :=
          if payload.registers then insert payload.loraName server.registered
          else server.registered.erase payload.loraName }

section Unchanged
variable (config : Config) (fails : String → Bool)

def unchangedWorld : World Server := ⟨fun _ => config, steadyServer fails⟩

theorem isServerHealthy_unchanged (t : Nat) (server : Server) :
    isServerHealthy (unchangedWorld config fails) (t, server) = (server.healthy, (t + 2, server)) := by
  have checked : checkHealth (unchangedWorld config fails) (t, server) = (server.healthy, (t + 2, server)) := rfl
  have once : isServerHealthy (unchangedWorld config fails) (t, server) =
      probe 1 (unchangedWorld config fails) (t, server) := rfl
  rw [once]
  simp only [probe, bind_apply, checked, ite_run, pure_apply]
  cases server.healthy <;> rfl

theorem modelServer_unchanged (t : Nat) (server : Server) :
    modelServer (unchangedWorld config fails) (t, server) = (config.modelServer, (t + 2, server)) := rfl

theorem registeredAdapters_unchanged (t : Nat) (server : Server) :
    ∃ reads, registeredAdapters (unchangedWorld config fails) (t, server) =
      (server.registeredAdapters, (reads, server)) := by
  simp only [registeredAdapters, bind_apply, ite_run, modelServer_unchanged, isServerHealthy_unchanged]
  unfold Server.registeredAdapters
  split_ifs
  · exact ⟨t + 4, rfl⟩
  · exact ⟨t + 6, rfl⟩

theorem loadAdapter_unchanged (adapter : LoraAdapter) (t : Nat) (server : Server) :
    (loadAdapter adapter (unchangedWorld config fails) (t, server)).2.2 =
      LoraSidecar.loadAdapter config fails server adapter := by
  obtain ⟨reads, registered⟩ := registeredAdapters_unchanged config fails t server
  simp only [loadAdapter, bind_apply, registered, ite_run, LoraSidecar.loadAdapter, send, Payload.loraName, iff_true]
  split_ifs with present failed
  · rfl
  · exact if_pos failed
  · exact if_neg failed

theorem unloadAdapter_unchanged (adapter : LoraAdapter) (t : Nat) (server : Server) :
    (unloadAdapter adapter (unchangedWorld config fails) (t, server)).2.2 =
      LoraSidecar.unloadAdapter config fails server adapter := by
  obtain ⟨reads, registered⟩ := registeredAdapters_unchanged config fails t server
  simp only [unloadAdapter, bind_apply, registered, ite_run, LoraSidecar.unloadAdapter, send, Payload.loraName,
    Bool.false_eq_true, iff_false, if_false]
  by_cases present : adapter.id ∈ server.registeredAdapters
  · rw [if_neg (not_not_intro present), if_neg (not_not_intro present)]
    split_ifs with failed
    · exact if_pos failed
    · exact if_neg failed
  · rw [if_pos present, if_pos present]
    rfl

theorem forM_unchanged {f : LoraAdapter → Reading Server Unit} {g : Server → LoraAdapter → Server}
    (each : ∀ adapter t server, (f adapter (unchangedWorld config fails) (t, server)).2.2 = g server adapter)
    (adapters : List LoraAdapter) (t : Nat) (server : Server) :
    (adapters.forM f (unchangedWorld config fails) (t, server)).2.2 = adapters.foldl g server := by
  induction adapters generalizing t server with
  | nil => rfl
  | cons adapter adapters ih =>
      rw [List.foldl_cons, ← each adapter t server]
      exact ih _ _

/-- A reconcile that always reads the same configuration is the reconcile with that configuration. -/
theorem reconcile_unchanged (order : List LoraAdapter → List LoraAdapter) (t : Nat) (server : Server) :
    (reconcile order (unchangedWorld config fails) (t, server)).2.2 =
      LoraSidecar.reconcile config order fails server := by
  simp only [reconcile, bind_apply, ite_run, modelServer_unchanged, isServerHealthy_unchanged, LoraSidecar.reconcile]
  split_ifs
  · simp only [ensureExistAdapters_apply, ensureNotExistAdapters_apply, pure_apply]
    rw [forM_unchanged config fails (unloadAdapter_unchanged config fails),
      forM_unchanged config fails (loadAdapter_unchanged config fails)]
    rfl
  · rfl

end Unchanged

end InferenceGateway.LoraSidecar.Concurrent
