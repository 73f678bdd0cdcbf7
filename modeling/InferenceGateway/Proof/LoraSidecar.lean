import Mathlib.Data.Finset.Insert
import Mathlib.Data.Set.Basic
import InferenceGateway.LoraSidecar

namespace InferenceGateway.LoraSidecar

/-! ## Loops of requests -/

def Payload.registers : Payload → Bool
  | .load .. => true
  | .unload _ => false

structure Sent (registers : Bool) (ids : Set String) (fails : String → Bool) (before after : Server)
    (sent : List Post) : Prop where
  healthy : after.healthy = before.healthy
  settled : ∀ id ∈ ids, fails id = false → (id ∈ after.registered ↔ registers = true)
  kept : ∀ id, ¬(id ∈ ids ∧ fails id = false) → (id ∈ after.registered ↔ id ∈ before.registered)
  posts : after.posts = before.posts ++ sent
  needed : ∀ id, (∃ post ∈ sent, post.payload.loraName = id) ↔
    id ∈ ids ∧ ¬(id ∈ before.registered ↔ registers = true)
  kind : ∀ post ∈ sent, post.payload.registers = registers ∧
    ¬(post.payload.loraName ∈ post.registered ↔ registers = true)

variable {registers : Bool} {fails : String → Bool}

theorem sent_nil (server : Server) : Sent registers ∅ fails server server [] := by
  constructor <;> simp

theorem Sent.trans {ids ids' : Set String} {before between after : Server} {sent sent' : List Post}
    (first : Sent registers ids fails before between sent) (second : Sent registers ids' fails between after sent') :
    Sent registers (ids ∪ ids') fails before after (sent ++ sent') := by
  constructor
  · rw [second.healthy, first.healthy]
  · intro id member succeeds
    by_cases later : id ∈ ids'
    · exact second.settled id later succeeds
    · rw [second.kept id fun now => later now.1]
      exact first.settled id (member.resolve_right later) succeeds
  · intro id untouched
    rw [second.kept id fun now => untouched ⟨.inr now.1, now.2⟩, first.kept id fun now => untouched ⟨.inl now.1, now.2⟩]
  · rw [second.posts, first.posts, List.append_assoc]
  · intro id
    simp only [List.mem_append, or_and_right, exists_or, first.needed, second.needed, Set.mem_union]
    by_cases changed : id ∈ ids ∧ fails id = false
    · simp [changed.1, first.settled id changed.1 changed.2]
    · simp only [first.kept id changed]
  · intro post member
    rcases List.mem_append.mp member with member | member
    · exact first.kind post member
    · exact second.kind post member

theorem sent_send {server : Server} (healthy : server.healthy = true) (url : String) (payload : Payload)
    (own : payload.registers = registers) :
    ∃ sent, Sent registers {payload.loraName} fails server (send registers url payload fails server) sent := by
  have asks : server.registeredAdapters = server.registered := if_pos healthy
  by_cases done : payload.loraName ∈ server.registered ↔ registers = true
  · have skipped : send registers url payload fails server = server := by
      rw [send, asks, if_pos done]
    rw [skipped]
    refine ⟨[], rfl, ?_, by simp, by simp, ?_, by simp⟩
    · rintro _ rfl _
      exact done
    · simp +contextual [done]
  · have posted : send registers url payload fails server =
        { server with
          posts := server.posts ++ [⟨url, payload, server.registered⟩]
          registered :=
            if fails payload.loraName then server.registered
            else if registers then insert payload.loraName server.registered
            else server.registered.erase payload.loraName } := by
      rw [send, asks, if_neg done]
      split_ifs <;> rfl
    rw [posted]
    refine ⟨_, rfl, ?_, ?_, rfl, ?_, ?_⟩
    · rintro _ rfl succeeds
      cases registers <;> simp [succeeds]
    · intro id untouched
      by_cases failed : fails payload.loraName = true
      · simp [failed]
      · have other : id ≠ payload.loraName := by
          rintro rfl
          exact untouched ⟨rfl, by simpa using failed⟩
        cases registers <;> simp [failed, other]
    · intro id
      simp only [List.mem_singleton, exists_eq_left, Set.mem_singleton_iff]
      constructor
      · rintro rfl
        exact ⟨rfl, done⟩
      · rintro ⟨rfl, _⟩
        rfl
    · simp [own, done]

theorem sent_foldl {server : Server} (healthy : server.healthy = true) (url : String)
    {payload : LoraAdapter → Payload} (named : ∀ adapter, (payload adapter).loraName = adapter.id)
    (own : ∀ adapter, (payload adapter).registers = registers) (adapters : List LoraAdapter) :
    ∃ sent, Sent registers {id | ∃ adapter ∈ adapters, adapter.id = id} fails server
      (adapters.foldl (fun server adapter => send registers url (payload adapter) fails server) server) sent := by
  induction adapters generalizing server with
  | nil => exact ⟨[], by simpa using sent_nil server⟩
  | cons adapter adapters ih =>
      obtain ⟨sent, first⟩ := sent_send healthy url (payload adapter) (own adapter)
      obtain ⟨sent', rest⟩ := ih (first.healthy.trans healthy)
      refine ⟨sent ++ sent', ?_⟩
      have ids : {id | ∃ a ∈ adapter :: adapters, a.id = id} =
          {(payload adapter).loraName} ∪ {id | ∃ a ∈ adapters, a.id = id} := by
        ext id
        simp [named, eq_comm]
      rw [ids]
      exact first.trans rest

theorem sent_loads (config : Config) (fails : String → Bool) {server : Server} (healthy : server.healthy = true)
    (adapters : List LoraAdapter) :
    ∃ sent, Sent true {id | ∃ adapter ∈ adapters, adapter.id = id} fails server
      (adapters.foldl (loadAdapter config fails) server) sent := by
  let payload (adapter : LoraAdapter) : Payload := .load adapter.id adapter.source adapter.baseModel
  have named (adapter : LoraAdapter) : (payload adapter).loraName = adapter.id := rfl
  exact sent_foldl healthy _ named (fun _ => rfl) adapters

theorem sent_unloads (config : Config) (fails : String → Bool) {server : Server} (healthy : server.healthy = true)
    (adapters : List LoraAdapter) :
    ∃ sent, Sent false {id | ∃ adapter ∈ adapters, adapter.id = id} fails server
      (adapters.foldl (unloadAdapter config fails) server) sent := by
  let payload (adapter : LoraAdapter) : Payload := .unload adapter.id
  have named (adapter : LoraAdapter) : (payload adapter).loraName = adapter.id := rfl
  exact sent_foldl healthy _ named (fun _ => rfl) adapters

/-! ## Sets of adapters -/

def ids (models : Option (List AdapterConfig)) : Set String := {id | ∃ adapter ∈ models.getD [], adapter.id = id}

theorem ids_adapterSet (adapters : List LoraAdapter) (id : String) :
    (∃ adapter ∈ Config.adapterSet adapters, adapter.id = id) ↔ ∃ adapter ∈ adapters, adapter.id = id := by
  have distinct := List.forall_mem_pwFilter (R := fun a b : LoraAdapter => a.id ≠ b.id)
    (fun {x y z} differ => by by_contra both; grind) ⟨id, "", ""⟩ adapters.reverse
  rw [← not_iff_not]
  simpa [Config.adapterSet, eq_comm] using distinct

theorem ids_adapters (config : Config) (models : Option (List AdapterConfig)) (id : String) :
    (∃ adapter ∈ config.adapters models, adapter.id = id) ↔ id ∈ ids models := by
  rw [Config.adapters, ids_adapterSet]
  simp [ids]

theorem ids_order_difference (adapters others : List LoraAdapter) {order : List LoraAdapter → List LoraAdapter}
    (arranges : ∀ set, (order set).Perm set) :
    {id | ∃ adapter ∈ order (difference adapters others), adapter.id = id} =
      {id | ∃ adapter ∈ adapters, adapter.id = id} \ {id | ∃ adapter ∈ others, adapter.id = id} := by
  ext id
  simp only [Set.mem_ofPred_eq, (arranges _).mem_iff, difference, List.mem_filter, decide_eq_true_eq, List.mem_map,
    Set.mem_sdiff]
  constructor
  · rintro ⟨adapter, ⟨member, absent⟩, rfl⟩
    exact ⟨⟨adapter, member, rfl⟩, absent⟩
  · rintro ⟨⟨adapter, member, rfl⟩, absent⟩
    exact ⟨adapter, ⟨member, absent⟩, rfl⟩

theorem ids_difference (config : Config) (models others : Option (List AdapterConfig))
    {order : List LoraAdapter → List LoraAdapter} (arranges : ∀ set, (order set).Perm set) :
    {id | ∃ adapter ∈ order (difference (config.adapters models) (config.adapters others)), adapter.id = id} =
      ids models \ ids others := by
  have listed (models : Option (List AdapterConfig)) :
      {id | ∃ adapter ∈ config.adapters models, adapter.id = id} = ids models := Set.ext (ids_adapters config models)
  rw [ids_order_difference _ _ arranges, listed, listed]

/-! ## A reconcile -/

/-- The request is for an id of one list only, and there is need for it. -/
def Post.Fits (E N : Set String) (R : Finset String) (post : Post) : Prop :=
  match post.payload with
  | .load id _ _ => id ∈ E \ N ∧ id ∉ R ∧ id ∉ post.registered
  | .unload id => id ∈ N \ E ∧ id ∈ R ∧ id ∈ post.registered

theorem Post.Fits.not_both {E N : Set String} {R : Finset String} {post : Post} (fits : post.Fits E N R) :
    post.payload.loraName ∉ E ∩ N := by
  rintro ⟨inE, inN⟩
  unfold Post.Fits at fits
  cases sent : post.payload with
  | load id path base =>
      rw [sent] at fits inN
      exact fits.1.2 inN
  | unload id =>
      rw [sent] at fits inE
      exact fits.1.2 inE

structure Reconciled (E N : Set String) (fails : String → Bool) (before after : Server) (sent : List Post) : Prop where
  healthy : after.healthy = true
  registered : ∀ id, id ∈ after.registered ↔
    (id ∈ before.registered ∨ id ∈ E \ N ∧ fails id = false) ∧ ¬(id ∈ N \ E ∧ fails id = false)
  posts : after.posts = before.posts ++ sent
  fits : ∀ post ∈ sent, post.Fits E N before.registered
  needed : ∀ id, (id ∈ E \ N ∧ id ∉ before.registered) ∨ (id ∈ N \ E ∧ id ∈ before.registered) →
    ∃ post ∈ sent, post.payload.loraName = id

theorem Sent.reconciled {E N : Set String} {before between after : Server} {loads unloads : List Post}
    (healthy : before.healthy = true) (loaded : Sent true (E \ N) fails before between loads)
    (unloaded : Sent false (N \ E) fails between after unloads) :
    Reconciled E N fails before after (loads ++ unloads) := by
  -- the loads leave alone what is to be unloaded
  have kept (id : String) (leaves : id ∈ N \ E) : id ∈ between.registered ↔ id ∈ before.registered :=
    loaded.kept id fun settled => settled.1.2 leaves.1
  constructor
  · rw [unloaded.healthy, loaded.healthy, healthy]
  · intro id
    by_cases leaves : id ∈ N \ E ∧ fails id = false
    · simp [unloaded.settled id leaves.1 leaves.2, leaves]
    · rw [unloaded.kept id leaves]
      by_cases stays : id ∈ E \ N ∧ fails id = false
      · exact iff_of_true ((loaded.settled id stays.1 stays.2).mpr rfl) ⟨.inr stays, leaves⟩
      · rw [loaded.kept id stays, or_iff_left stays, and_iff_left leaves]
  · rw [unloaded.posts, loaded.posts, List.append_assoc]
  · intro post member
    obtain ⟨url, payload, registered⟩ := post
    rcases List.mem_append.mp member with member | member
    · obtain ⟨isLoad, unregistered⟩ := loaded.kind _ member
      obtain ⟨stays, absent⟩ := (loaded.needed payload.loraName).mp ⟨_, member, rfl⟩
      cases payload with
      | load id path base =>
          exact ⟨stays, by simpa [Payload.loraName] using absent, by simpa [Payload.loraName] using unregistered⟩
      | unload id => cases isLoad
    · obtain ⟨isUnload, stillRegistered⟩ := unloaded.kind _ member
      obtain ⟨leaves, present⟩ := (unloaded.needed payload.loraName).mp ⟨_, member, rfl⟩
      rw [kept _ leaves] at present
      cases payload with
      | load id path base => cases isUnload
      | unload id =>
          exact ⟨leaves, by simpa [Payload.loraName] using present, by simpa [Payload.loraName] using stillRegistered⟩
  · rintro id (⟨stays, absent⟩ | ⟨leaves, present⟩)
    · obtain ⟨post, member, own⟩ := (loaded.needed id).mpr ⟨stays, by simpa using absent⟩
      exact ⟨post, List.mem_append_left _ member, own⟩
    · obtain ⟨post, member, own⟩ := (unloaded.needed id).mpr ⟨leaves, by simpa [kept id leaves] using present⟩
      exact ⟨post, List.mem_append_right _ member, own⟩

theorem exists_reconciled (config : Config) {order : List LoraAdapter → List LoraAdapter}
    (arranges : ∀ set, (order set).Perm set) (fails : String → Bool) {server : Server}
    (healthy : server.healthy = true) :
    ∃ sent, Reconciled (ids config.ensureExist) (ids config.ensureNotExist) fails server
      (reconcile config order fails server) sent := by
  obtain ⟨loads, loaded⟩ := sent_loads config fails healthy
    (order (difference config.ensureExistAdapters config.ensureNotExistAdapters))
  obtain ⟨unloads, unloaded⟩ := sent_unloads config fails (loaded.healthy.trans healthy)
    (order (difference config.ensureNotExistAdapters config.ensureExistAdapters))
  refine ⟨loads ++ unloads, ?_⟩
  rw [reconcile, if_pos healthy]
  rw [Config.ensureExistAdapters, Config.ensureNotExistAdapters, ids_difference config _ _ arranges]
    at loaded unloaded
  exact loaded.reconciled healthy unloaded

theorem Reconciled.nothing_to_send {E N : Set String} {before after : Server} {sent : List Post}
    (first : Reconciled E N fails before after sent) (succeeded : ∀ post ∈ sent, fails post.payload.loraName = false)
    {fails' : String → Bool} {after' : Server} {sent' : List Post}
    (second : Reconciled E N fails' after after' sent') : sent' = [] := by
  have settled (id : String)
      (needed : (id ∈ E \ N ∧ id ∉ before.registered) ∨ (id ∈ N \ E ∧ id ∈ before.registered)) : fails id = false := by
    obtain ⟨post, member, own⟩ := first.needed id needed
    rw [← own]
    exact succeeded post member
  apply List.eq_nil_iff_forall_not_mem.mpr
  intro post member
  have fits := second.fits post member
  unfold Post.Fits at fits
  cases asked : post.payload with
  | load id path base =>
      rw [asked] at fits
      obtain ⟨stays, absent, _⟩ := fits
      rw [first.registered] at absent
      refine absent ⟨?_, fun leaves => stays.2 leaves.1.1⟩
      by_cases known : id ∈ before.registered
      · exact .inl known
      · exact .inr ⟨stays, settled id (.inl ⟨stays, known⟩)⟩
  | unload id =>
      rw [asked] at fits
      obtain ⟨leaves, present, _⟩ := fits
      obtain ⟨known | stays, failed⟩ := (first.registered id).mp present
      · exact failed ⟨leaves, settled id (.inr ⟨leaves, known⟩)⟩
      · exact leaves.2 stays.1.1

/-- A reconcile converges to the configuration but for the requests that fail, sends no request without
need, and leaves nothing to do if none fails. -/
theorem sidecar_converges (config : Config) (order : List LoraAdapter → List LoraAdapter)
    (arranges : ∀ set, (order set).Perm set) (fails : String → Bool) (server : Server)
    (healthy : server.healthy = true) :
    let E := ids config.ensureExist
    let N := ids config.ensureNotExist
    let F := {id | fails id = true}
    let after := reconcile config order fails server
    (after.registered : Set String) = (↑server.registered ∪ ((E \ N) \ F)) \ ((N \ E) \ F) ∧
    ∃ sent, after.posts = server.posts ++ sent ∧
      (∀ post ∈ sent, post.payload.loraName ∉ E ∩ N ∧ post.Fits E N server.registered) ∧
      ((∀ post ∈ sent, post.payload.loraName ∉ F) →
        ∀ order', (∀ set, (order' set).Perm set) → ∀ fails',
          (reconcile config order' fails' after).posts = after.posts) := by
  intro E N F after
  obtain ⟨sent, reconciled⟩ := exists_reconciled config arranges fails healthy
  refine ⟨?_, sent, reconciled.posts, fun post member => ⟨?_, reconciled.fits post member⟩, ?_⟩
  · ext id
    rw [Finset.mem_coe, reconciled.registered]
    simp [E, N, F]
  · exact (reconciled.fits post member).not_both
  · intro succeeded order' arranges' fails'
    obtain ⟨sent', again⟩ := exists_reconciled config arranges' fails' reconciled.healthy
    rw [again.posts, reconciled.nothing_to_send (by simpa [F] using succeeded) again, List.append_nil]

def testConfig : Config where
  ensureExist := some [⟨"sql-lora-v1", "yard1/llama-2-7b-sql-lora-test", none⟩,
    ⟨"sql-lora-v3", "yard1/llama-2-7b-sql-lora-test", none⟩, ⟨"already_exists", "yard1/llama-2-7b-sql-lora-test", none⟩]
  ensureNotExist := some [⟨"sql-lora-v2", "yard1/llama-2-7b-sql-lora-test", none⟩,
    ⟨"sql-lora-v3", "yard1/llama-2-7b-sql-lora-test", none⟩, ⟨"to_remove", "yard1/llama-2-7b-sql-lora-test", none⟩]

def testServer : Server := { healthy := true, registered := {"already_exists", "to_remove"} }

/-- The configuration of `test_sidecar.py`, with a load that fails. -/
theorem test_reconcile_converges :
    let after := reconcile testConfig id (fun id => id = "sql-lora-v1") testServer
    after.registered = {"already_exists"} ∧
      after.posts.map Post.payload = [.load "sql-lora-v1" "yard1/llama-2-7b-sql-lora-test" "", .unload "to_remove"] ∧
      (after.registered : Set String) = (↑testServer.registered ∪
        ((ids testConfig.ensureExist \ ids testConfig.ensureNotExist) \ {id | decide (id = "sql-lora-v1") = true})) \
        ((ids testConfig.ensureNotExist \ ids testConfig.ensureExist) \ {id | decide (id = "sql-lora-v1") = true}) :=
  ⟨by decide +kernel, by decide +kernel,
    (sidecar_converges testConfig id (fun _ => .refl _) (fun id => id = "sql-lora-v1") testServer rfl).1⟩

end InferenceGateway.LoraSidecar
