import Mathlib.Data.Finset.Dedup
import Mathlib.Logic.Relation
import InferenceGateway.LoraSidecar.Threads

/-!
Reconciles that run at the same time do not undo each other's work, since no id is both loaded and
unloaded: once one of them has come to its end with its requests answered, the server has what the
configuration asks for.
-/

namespace InferenceGateway.LoraSidecar.Threads
open Lib

section Definitions
variable (config : Config)

def toLoad : Finset String := ((adaptersToLoad config).map LoraAdapter.id).toFinset

def toUnload : Finset String := ((adaptersToUnload config).map LoraAdapter.id).toFinset

/-- What the threads do to the registered ids. -/
structure Moves (registered registered' : Finset String) : Prop where
  loads : ∀ id ∈ toLoad config, id ∈ registered → id ∈ registered'
  unloads : ∀ id ∈ toUnload config, id ∈ registered' → id ∈ registered
  others : ∀ id, id ∉ toLoad config → id ∉ toUnload config → (id ∈ registered' ↔ id ∈ registered)

/-- The ids that are to be loaded are registered, apart from those of `adapters`. -/
def Loaded (registered : Finset String) (adapters : List LoraAdapter) : Prop :=
  ∀ id ∈ toLoad config, id ∈ registered ∨ id ∈ adapters.map LoraAdapter.id

def Unloaded (registered : Finset String) (adapters : List LoraAdapter) : Prop :=
  Loaded config registered [] ∧ ∀ id ∈ toUnload config, id ∉ registered ∨ id ∈ adapters.map LoraAdapter.id

def Pc.Listed : Pc → Prop
  | .idle | .isServerHealthy => True
  | .loadAdapter adapters => ∀ adapter ∈ adapters, adapter.id ∈ toLoad config
  | .postLoad first adapters => ∀ adapter ∈ first :: adapters, adapter.id ∈ toLoad config
  | .unloadAdapter adapters => ∀ adapter ∈ adapters, adapter.id ∈ toUnload config
  | .postUnload first adapters => ∀ adapter ∈ first :: adapters, adapter.id ∈ toUnload config

def Pc.Leaves (registered : Finset String) : Pc → Prop
  | .idle | .isServerHealthy => True
  | .loadAdapter adapters => Loaded config registered adapters
  | .postLoad adapter adapters => Loaded config registered (adapter :: adapters)
  | .unloadAdapter adapters => Unloaded config registered adapters
  | .postUnload adapter adapters => Unloaded config registered (adapter :: adapters)

structure Thread.Sound (registered : Finset String) (thread : Thread) : Prop where
  listed : thread.pc.Listed config
  leaves : thread.answered = true → thread.pc.Leaves config registered
  synced : thread.synced = true → Unloaded config registered []

end Definitions

variable {config : Config} {registered registered' registered'' : Finset String}

/-! ## The registered ids -/

theorem disjoint_toLoad_toUnload (config : Config) : Disjoint (toLoad config) (toUnload config) := by
  rw [Finset.disjoint_left]
  intro id loaded unloaded
  rw [toLoad, List.mem_toFinset, adaptersToLoad, difference, List.mem_map] at loaded
  rw [toUnload, List.mem_toFinset, adaptersToUnload, difference, List.mem_map] at unloaded
  obtain ⟨adapter, listed, rfl⟩ := loaded
  obtain ⟨other, unlisted, same⟩ := unloaded
  have absent := (List.mem_filter.mp listed).2
  have present := List.mem_map_of_mem (f := LoraAdapter.id) (List.mem_filter.mp unlisted).1
  rw [same] at present
  exact absurd present (of_decide_eq_true absent)

theorem Moves.refl (registered : Finset String) : Moves config registered registered :=
  ⟨fun _ _ member => member, fun _ _ member => member, fun _ _ _ => .rfl⟩

theorem Moves.trans (first : Moves config registered registered') (second : Moves config registered' registered'') :
    Moves config registered registered'' := by
  constructor
  · intro id loaded member
    exact second.loads id loaded (first.loads id loaded member)
  · intro id unloaded member
    exact first.unloads id unloaded (second.unloads id unloaded member)
  · intro id unloaded unlisted
    exact (second.others id unloaded unlisted).trans (first.others id unloaded unlisted)

theorem moves_insert {id : String} (loaded : id ∈ toLoad config) : Moves config registered (insert id registered) := by
  constructor
  · intro other _ member
    exact Finset.mem_insert_of_mem member
  · intro other unloaded member
    rcases Finset.mem_insert.mp member with rfl | member
    · exact absurd unloaded (Finset.disjoint_left.mp (disjoint_toLoad_toUnload config) loaded)
    · exact member
  · intro other unlisted _
    rw [Finset.mem_insert, or_iff_right]
    rintro rfl
    exact unlisted loaded

theorem moves_erase {id : String} (unloaded : id ∈ toUnload config) :
    Moves config registered (registered.erase id) := by
  constructor
  · intro other loaded member
    refine Finset.mem_erase.mpr ⟨?_, member⟩
    rintro rfl
    exact Finset.disjoint_left.mp (disjoint_toLoad_toUnload config) loaded unloaded
  · intro other _ member
    exact Finset.mem_of_mem_erase member
  · intro other _ unlisted
    rw [Finset.mem_erase, and_iff_right]
    rintro rfl
    exact unlisted unloaded

theorem moves_post {payload : Payload} {server : Server} (answer : Answer) (url : String)
    (moves : Moves config server.registered (Payload.apply server.registered payload)) :
    Moves config server.registered (post answer url payload server).registered := by
  cases answer with
  | ok | unanswered => exact moves
  | lost => exact .refl _

/-! ## What a thread still has to do -/

theorem Loaded.moves {adapters : List LoraAdapter} (loaded : Loaded config registered adapters)
    (moves : Moves config registered registered') : Loaded config registered' adapters := by
  intro id wanted
  exact (loaded id wanted).imp_left (moves.loads id wanted)

theorem Unloaded.moves {adapters : List LoraAdapter} (unloaded : Unloaded config registered adapters)
    (moves : Moves config registered registered') : Unloaded config registered' adapters := by
  refine ⟨unloaded.1.moves moves, fun id unwanted => ?_⟩
  exact (unloaded.2 id unwanted).imp_left (mt (moves.unloads id unwanted))

theorem Pc.Leaves.moves {pc : Pc} (leaves : pc.Leaves config registered) (moves : Moves config registered registered') :
    pc.Leaves config registered' := by
  cases pc with
  | idle | isServerHealthy => trivial
  | loadAdapter | postLoad => exact Loaded.moves leaves moves
  | unloadAdapter | postUnload => exact Unloaded.moves leaves moves

theorem Thread.Sound.moves {thread : Thread} (sound : thread.Sound config registered)
    (moves : Moves config registered registered') : thread.Sound config registered' :=
  ⟨sound.listed, fun answered => (sound.leaves answered).moves moves,
    fun synced => (sound.synced synced).moves moves⟩

theorem Loaded.next {adapter : LoraAdapter} {adapters : List LoraAdapter}
    (loaded : Loaded config registered (adapter :: adapters)) (present : adapter.id ∈ registered) :
    Loaded config registered adapters := by
  intro id wanted
  rcases loaded id wanted with member | listed
  · exact .inl member
  · rw [List.map_cons, List.mem_cons] at listed
    rcases listed with rfl | listed
    · exact .inl present
    · exact .inr listed

theorem Unloaded.next {adapter : LoraAdapter} {adapters : List LoraAdapter}
    (unloaded : Unloaded config registered (adapter :: adapters)) (absent : adapter.id ∉ registered) :
    Unloaded config registered adapters := by
  refine ⟨unloaded.1, fun id unwanted => ?_⟩
  rcases unloaded.2 id unwanted with gone | listed
  · exact .inl gone
  · rw [List.map_cons, List.mem_cons] at listed
    rcases listed with rfl | listed
    · exact .inl absent
    · exact .inr listed

theorem mem_order_iff (turn : Turn) (set : List LoraAdapter) (id : String) :
    id ∈ (turn.order set).map LoraAdapter.id ↔ id ∈ (set.map LoraAdapter.id).toFinset := by
  rw [List.mem_toFinset]
  exact ((turn.perm set).map LoraAdapter.id).mem_iff

theorem listed_order (turn : Turn) (set : List LoraAdapter) :
    ∀ adapter ∈ turn.order set, adapter.id ∈ (set.map LoraAdapter.id).toFinset := by
  intro adapter member
  exact (mem_order_iff turn set adapter.id).mp (List.mem_map_of_mem member)

theorem mem_of_registeredAdapters {answer : Answer} {server : Server} {id : String}
    (member : id ∈ registeredAdapters answer server) : id ∈ server.registered := by
  cases answer with
  | ok => exact member
  | lost | unanswered => cases member

theorem registeredAdapters_of_answered {answered : Bool} {answer : Answer} (server : Server)
    (all : (answered && decide (answer = .ok)) = true) : registeredAdapters answer server = server.registered := by
  rw [Bool.and_eq_true, decide_eq_true_eq] at all
  rw [all.2]
  rfl

theorem apply_of_answered {answered : Bool} {answer : Answer} {url : String} {payload : Payload} {server : Server}
    (all : (answered && decide (answer = .ok)) = true) :
    (post answer url payload server).registered = Payload.apply server.registered payload := by
  rw [Bool.and_eq_true, decide_eq_true_eq] at all
  rw [all.2]
  rfl

/-- A turn of a thread undoes nothing that any thread has done. -/
theorem Thread.Sound.step {turn : Turn} {thread thread' : Thread} {server server' : Server}
    (sound : thread.Sound config server.registered) (taken : thread.step config turn server = some (thread', server')) :
    Moves config server.registered server'.registered ∧ thread'.Sound config server'.registered := by
  obtain ⟨pc, answered, synced⟩ := thread
  obtain ⟨listed, leaves, kept⟩ := sound
  have before (all : (answered && decide (turn.answer = .ok)) = true) : answered = true :=
    (Bool.and_eq_true _ _ ▸ all).1
  cases pc with
  | idle =>
      simp only [Thread.step] at taken
      obtain ⟨rfl, rfl⟩ := Prod.mk.inj (Option.some.inj taken)
      exact ⟨.refl _, trivial, fun _ => trivial, kept⟩
  | isServerHealthy =>
      simp only [Thread.step] at taken
      split_ifs at taken with healthy
      · obtain ⟨rfl, rfl⟩ := Prod.mk.inj (Option.some.inj taken)
        refine ⟨.refl _, listed_order turn _, fun _ id wanted => .inr ?_, kept⟩
        exact (mem_order_iff turn _ id).mpr wanted
      · obtain ⟨rfl, rfl⟩ := Prod.mk.inj (Option.some.inj taken)
        exact ⟨.refl _, trivial, fun _ => trivial, kept⟩
  | loadAdapter adapters =>
      cases adapters with
      | nil =>
          simp only [Thread.step] at taken
          obtain ⟨rfl, rfl⟩ := Prod.mk.inj (Option.some.inj taken)
          refine ⟨.refl _, listed_order turn _, fun all => ⟨leaves all, fun id unwanted => .inr ?_⟩, kept⟩
          exact (mem_order_iff turn _ id).mpr unwanted
      | cons adapter adapters =>
          simp only [Thread.step] at taken
          split_ifs at taken with present
          · obtain ⟨rfl, rfl⟩ := Prod.mk.inj (Option.some.inj taken)
            refine ⟨.refl _, (List.forall_mem_cons.mp listed).2, fun all => ?_, kept⟩
            exact Loaded.next (leaves (before all)) (mem_of_registeredAdapters present)
          · obtain ⟨rfl, rfl⟩ := Prod.mk.inj (Option.some.inj taken)
            exact ⟨.refl _, listed, fun all => leaves (before all), kept⟩
  | postLoad adapter adapters =>
      simp only [Thread.step] at taken
      obtain ⟨rfl, rfl⟩ := Prod.mk.inj (Option.some.inj taken)
      have wanted := List.forall_mem_cons.mp listed
      have moves : Moves config server.registered (postLoad config turn.answer adapter server).registered :=
        moves_post turn.answer _ (moves_insert wanted.1)
      refine ⟨moves, wanted.2, fun all => ?_, fun synced => (kept synced).moves moves⟩
      refine Loaded.next (Loaded.moves (leaves (before all)) moves) ?_
      rw [postLoad, apply_of_answered all]
      exact Finset.mem_insert_self _ _
  | unloadAdapter adapters =>
      cases adapters with
      | nil =>
          simp only [Thread.step] at taken
          obtain ⟨rfl, rfl⟩ := Prod.mk.inj (Option.some.inj taken)
          refine ⟨.refl _, trivial, fun _ => trivial, fun either => ?_⟩
          rcases (Bool.or_eq_true _ _).mp either with synced | all
          · exact kept synced
          · exact leaves all
      | cons adapter adapters =>
          simp only [Thread.step] at taken
          split_ifs at taken with present
          · obtain ⟨rfl, rfl⟩ := Prod.mk.inj (Option.some.inj taken)
            exact ⟨.refl _, listed, fun all => leaves (before all), kept⟩
          · obtain ⟨rfl, rfl⟩ := Prod.mk.inj (Option.some.inj taken)
            refine ⟨.refl _, (List.forall_mem_cons.mp listed).2, fun all => ?_, kept⟩
            rw [registeredAdapters_of_answered server all] at present
            exact Unloaded.next (leaves (before all)) present
  | postUnload adapter adapters =>
      simp only [Thread.step] at taken
      obtain ⟨rfl, rfl⟩ := Prod.mk.inj (Option.some.inj taken)
      have unwanted := List.forall_mem_cons.mp listed
      have moves : Moves config server.registered (postUnload config turn.answer adapter server).registered :=
        moves_post turn.answer _ (moves_erase unwanted.1)
      refine ⟨moves, unwanted.2, fun all => ?_, fun synced => (kept synced).moves moves⟩
      refine Unloaded.next (Unloaded.moves (leaves (before all)) moves) ?_
      rw [postUnload, apply_of_answered all]
      exact Finset.notMem_erase _ _

/-! ## Runs -/

section Alone
variable {turn : Turn}

/-- A turn of a thread while the others wait. -/
def Goes (config : Config) (turn : Turn) (before after : Thread × Server) : Prop :=
  before.1.step config turn before.2 = some after

theorem healthy_send {registers : Bool} {url : String} {payload : Payload} {fails : String → Bool} {server : Server} :
    (send registers url payload fails server).healthy = server.healthy := by
  unfold send
  dsimp only
  split_ifs <;> rfl

theorem goes_loadAdapter (ok : turn.answer = .ok) (synced : Bool) (server : Server) (healthy : server.healthy = true)
    (adapter : LoraAdapter) (adapters : List LoraAdapter) :
    Relation.ReflTransGen (Goes config turn) (⟨.loadAdapter (adapter :: adapters), true, synced⟩, server)
      (⟨.loadAdapter adapters, true, synced⟩, loadAdapter config (fun _ => false) server adapter) := by
  have registered : server.registeredAdapters = server.registered := by simp [Server.registeredAdapters, healthy]
  by_cases present : adapter.id ∈ server.registered
  · have same : loadAdapter config (fun _ => false) server adapter = server := by
      simp [loadAdapter, send, Payload.loraName, registered, present]
    rw [same]
    refine .single ?_
    simp [Goes, Thread.step, ok, registeredAdapters, present]
  · refine .head (b := (⟨.postLoad adapter adapters, true, synced⟩, server)) ?_ (.single ?_)
    · simp [Goes, Thread.step, ok, registeredAdapters, present]
    · simp [Goes, Thread.step, ok, postLoad, post, Payload.apply, loadAdapter, send, Payload.loraName, registered,
        present]

theorem goes_unloadAdapter (ok : turn.answer = .ok) (synced : Bool) (server : Server) (healthy : server.healthy = true)
    (adapter : LoraAdapter) (adapters : List LoraAdapter) :
    Relation.ReflTransGen (Goes config turn) (⟨.unloadAdapter (adapter :: adapters), true, synced⟩, server)
      (⟨.unloadAdapter adapters, true, synced⟩, unloadAdapter config (fun _ => false) server adapter) := by
  have registered : server.registeredAdapters = server.registered := by simp [Server.registeredAdapters, healthy]
  by_cases present : adapter.id ∈ server.registered
  · refine .head (b := (⟨.postUnload adapter adapters, true, synced⟩, server)) ?_ (.single ?_)
    · simp [Goes, Thread.step, ok, registeredAdapters, present]
    · simp [Goes, Thread.step, ok, postUnload, post, Payload.apply, unloadAdapter, send, Payload.loraName, registered,
        present]
  · have same : unloadAdapter config (fun _ => false) server adapter = server := by
      simp [unloadAdapter, send, Payload.loraName, registered, present]
    rw [same]
    refine .single ?_
    simp [Goes, Thread.step, ok, registeredAdapters, present]

theorem goes_foldl {pc : List LoraAdapter → Pc} {act : Server → LoraAdapter → Server} (synced : Bool)
    (goes : ∀ server, server.healthy = true → ∀ adapter adapters,
      Relation.ReflTransGen (Goes config turn) (⟨pc (adapter :: adapters), true, synced⟩, server)
        (⟨pc adapters, true, synced⟩, act server adapter))
    (kept : ∀ server adapter, (act server adapter).healthy = server.healthy) (adapters : List LoraAdapter)
    {server : Server} (healthy : server.healthy = true) :
    Relation.ReflTransGen (Goes config turn) (⟨pc adapters, true, synced⟩, server)
      (⟨pc [], true, synced⟩, adapters.foldl act server) := by
  induction adapters generalizing server with
  | nil => exact .refl
  | cons adapter adapters ih =>
      exact (goes server healthy adapter adapters).trans (ih ((kept server adapter).trans healthy))

theorem healthy_foldl {act : Server → LoraAdapter → Server}
    (kept : ∀ server adapter, (act server adapter).healthy = server.healthy) (adapters : List LoraAdapter)
    (server : Server) : (adapters.foldl act server).healthy = server.healthy := by
  induction adapters generalizing server with
  | nil => rfl
  | cons adapter adapters ih => exact (ih _).trans (kept server adapter)

/-- Without other threads, a reconcile whose requests are answered is the sequential one. -/
theorem reconcile_uninterrupted (ok : turn.answer = .ok) {server : Server} (healthy : server.healthy = true)
    (answered synced : Bool) :
    Relation.ReflTransGen (Goes config turn) (⟨.idle, answered, synced⟩, server)
      (⟨.idle, true, true⟩, reconcile config turn.order (fun _ => false) server) := by
  let loaded := (turn.order (adaptersToLoad config)).foldl (loadAdapter config fun _ => false) server
  have loads : Relation.ReflTransGen (Goes config turn)
      (⟨.loadAdapter (turn.order (adaptersToLoad config)), true, synced⟩, server)
      (⟨.loadAdapter [], true, synced⟩, loaded) :=
    goes_foldl synced (goes_loadAdapter ok synced) (fun _ _ => healthy_send) _ healthy
  have stillHealthy : loaded.healthy = true := (healthy_foldl (fun _ _ => healthy_send) _ _).trans healthy
  have unloads : Relation.ReflTransGen (Goes config turn)
      (⟨.unloadAdapter (turn.order (adaptersToUnload config)), true, synced⟩, loaded)
      (⟨.unloadAdapter [], true, synced⟩,
        (turn.order (adaptersToUnload config)).foldl (unloadAdapter config fun _ => false) loaded) :=
    goes_foldl synced (goes_unloadAdapter ok synced) (fun _ _ => healthy_send) _ stillHealthy
  have done : reconcile config turn.order (fun _ => false) server =
      (turn.order (adaptersToUnload config)).foldl (unloadAdapter config fun _ => false) loaded := by
    rw [reconcile, if_pos healthy]
    rfl
  rw [done]
  have starts : Goes config turn (⟨.idle, answered, synced⟩, server) (⟨.isServerHealthy, true, synced⟩, server) := rfl
  have lists : Goes config turn (⟨.isServerHealthy, true, synced⟩, server)
      (⟨.loadAdapter (turn.order (adaptersToLoad config)), true, synced⟩, server) := by
    simp [Goes, Thread.step, ok]
  have turns : Goes config turn (⟨.loadAdapter [], true, synced⟩, loaded)
      (⟨.unloadAdapter (turn.order (adaptersToUnload config)), true, synced⟩, loaded) := rfl
  refine .head starts (.head lists (loads.trans (.head turns (unloads.tail ?_))))
  simp [Goes, Thread.step]

end Alone

end InferenceGateway.LoraSidecar.Threads
