import Mathlib.Data.List.Nodup
import InferenceGateway.Datastore.Concurrent
import InferenceGateway.Lib.Workqueue

namespace InferenceGateway.Datastore.Concurrent
open Lib Lib.Workqueue

/-! ## What a step does -/

inductive Stage
  | storing
  | stopping
deriving DecidableEq

-- the object that nobody else has
def Pc.owns : Pc → Option (Stage × Nat)
  | .store _ pm => some (.storing, pm)
  | .stopRefreshLoop pm => some (.stopping, pm)
  | _ => none

def Goroutine.owns (g : Goroutine) : Option (Stage × Nat) := g.pc.bind Pc.owns

-- the object that the call adds or updates
def Pc.writes : Pc → Option (Pod × Nat)
  | .store pod pm | .updatePod pod pm => some (pod, pm)
  | _ => none

def Goroutine.writes (g : Goroutine) : Option (Pod × Nat) := g.pc.bind Pc.writes

inductive Acts (heap : Heap) : Goroutine → Goroutine → Heap → Prop
  | reads {g g' : Goroutine} (owns : g.owns = none) (writes : g.writes = none) (owns' : g'.owns = none)
      (writes' : g'.writes = none) : Acts heap g g' heap
  | loads {pod : Pod} {pm : Nat} {todo : List Call} (found : heap.pods.lookup pod.namespacedName = some pm) :
      Acts heap ⟨none, .podUpdateOrAddIfNotExist pod :: todo⟩ ⟨some (.updatePod pod pm), todo⟩ heap
  | creates {pod : Pod} {todo : List Call} :
      Acts heap ⟨some (.newPodMetrics pod), todo⟩ ⟨some (.store pod heap.created), todo⟩
        { heap with
          created := heap.created + 1, pod := Function.update heap.pod heap.created (toInternalPod pod) }
  | stores {pod : Pod} {pm : Nat} {todo : List Call} :
      Acts heap ⟨some (.store pod pm), todo⟩ ⟨some (.updatePod pod pm), todo⟩
        { heap with pods := heap.pods.insert pod.namespacedName pm }
  | updates {pod : Pod} {pm : Nat} {todo : List Call} :
      Acts heap ⟨some (.updatePod pod pm), todo⟩ ⟨none, todo⟩
        { heap with pod := Function.update heap.pod pm (toInternalPod pod) }
  | takes {key : NamespacedName} {pm : Nat} {todo : List Call} (found : heap.pods.lookup key = some pm) :
      Acts heap ⟨none, .podDelete key :: todo⟩ ⟨some (.stopRefreshLoop pm), todo⟩
        { heap with pods := heap.pods.erase key }
  | stops {pm : Nat} {todo : List Call} (unstopped : pm ∉ heap.stops) :
      Acts heap ⟨some (.stopRefreshLoop pm), todo⟩ ⟨none, todo⟩ { heap with stops := pm :: heap.stops }
  | clears {todo : List Call} : Acts heap ⟨none, .clear :: todo⟩ ⟨none, todo⟩ { heap with pods := ∅ }

theorem step_acts (visit : Option NamespacedName) (g : Goroutine) (heap : Heap) :
    (∃ g' heap', g.step visit heap = some (g', heap') ∧ Acts heap g g' heap') ∨
      ∃ pm todo, g = ⟨some (.stopRefreshLoop pm), todo⟩ ∧ pm ∈ heap.stops := by
  have quiet {g' : Goroutine} (stepped : g.step visit heap = some (g', heap)) (owns : g.owns = none)
      (writes : g.writes = none) (owns' : g'.owns = none) (writes' : g'.writes = none) :
      ∃ g' heap', g.step visit heap = some (g', heap') ∧ Acts heap g g' heap' :=
    ⟨g', heap, stepped, .reads owns writes owns' writes'⟩
  obtain ⟨pc, todo⟩ := g
  cases pc with
  | none =>
      left
      cases todo with
      | nil => exact quiet rfl rfl rfl rfl rfl
      | cons call todo =>
          cases call with
          | podUpdateOrAddIfNotExist pod =>
              cases found : heap.pods.lookup pod.namespacedName with
              | none => exact quiet (by rw [Goroutine.step, found]) rfl rfl rfl rfl
              | some pm => exact ⟨_, heap, by simp only [Goroutine.step, found], .loads found⟩
          | podDelete key =>
              cases found : heap.pods.lookup key with
              | none => exact quiet (by rw [Goroutine.step, found]) rfl rfl rfl rfl
              | some pm => exact ⟨_, _, by simp only [Goroutine.step, found], .takes found⟩
          | podResyncAll client pool =>
              cases listed : client.listPods pool.spec.selector pool.ns with
              | error err => exact quiet (by rw [Goroutine.step, listed]) rfl rfl rfl rfl
              | ok items => exact quiet (by rw [Goroutine.step, listed]) rfl rfl rfl rfl
          | clear => exact ⟨_, _, rfl, .clears⟩
          | range active visited =>
              cases picked : visit.map fun key =>
                  (key, if key ∈ visited then none else heap.pods.lookup key) with
              | none => exact quiet (by rw [Goroutine.step, picked]) rfl rfl rfl rfl
              | some pick =>
                  obtain ⟨key, _ | pm⟩ := pick
                  all_goals exact quiet (by rw [Goroutine.step, picked]) rfl rfl rfl rfl
  | some pc =>
      cases pc with
      | newPodMetrics pod => exact .inl ⟨_, _, rfl, .creates⟩
      | store pod pm => exact .inl ⟨_, _, rfl, .stores⟩
      | updatePod pod pm => exact .inl ⟨_, _, rfl, .updates⟩
      | stopRefreshLoop pm =>
          by_cases stopped : pm ∈ heap.stops
          · exact .inr ⟨pm, todo, rfl, stopped⟩
          · exact .inl ⟨_, _, by simp only [Goroutine.step, if_neg stopped], .stops stopped⟩
      | deleteFn active pm =>
          left
          by_cases named : (heap.pod pm).namespacedName.name ∈ active
          · exact quiet (by rw [Goroutine.step, if_pos named]) rfl rfl rfl rfl
          · exact quiet (by rw [Goroutine.step, if_neg named]) rfl rfl rfl rfl
      | deleteFnRemoves pm => exact .inl (quiet rfl rfl rfl rfl rfl)

/-! ## The life of an object -/

variable {ι : Type} [DecidableEq ι]

inductive Place (ι : Type)
  | unmade
  | owned (i : ι) (stage : Stage)
  | stored (key : NamespacedName)
  | stopped
  | lost
deriving DecidableEq

def Place.cleared : Place ι → Place ι
  | .stored _ => .lost
  | place => place

structure Tracks (place : Nat → Place ι) (owns : ι → Option (Stage × Nat)) (heap : Heap) : Prop where
  unmade : ∀ pm, place pm = .unmade ↔ heap.created ≤ pm
  owned : ∀ i stage pm, place pm = .owned i stage ↔ owns i = some (stage, pm)
  stored : ∀ key pm, place pm = .stored key ↔ heap.pods.lookup key = some pm
  stopped : ∀ pm, place pm = .stopped ↔ pm ∈ heap.stops
  once : heap.stops.Nodup

variable {place : Nat → Place ι} {owns : ι → Option (Stage × Nat)} {heap : Heap}

theorem Tracks.creates (tracks : Tracks place owns heap) {i : ι} (idle : owns i = none) (pod : Nat → BackendPod) :
    Tracks (Function.update place heap.created (.owned i .storing))
      (Function.update owns i (some (.storing, heap.created)))
      { heap with created := heap.created + 1, pod := pod } := by
  have fresh : place heap.created = .unmade := (tracks.unmade _).mpr le_rfl
  constructor
  · grind [tracks.unmade]
  · grind [tracks.owned]
  · grind [tracks.stored]
  · grind [tracks.stopped]
  · exact tracks.once

theorem Tracks.stores (tracks : Tracks place owns heap) {i : ι} {pm : Nat} {key : NamespacedName}
    (holds : owns i = some (.storing, pm)) :
    Tracks (fun x => if x = pm then .stored key else if place x = .stored key then .lost else place x)
      (Function.update owns i none) { heap with pods := heap.pods.insert key pm } := by
  have held : place pm = .owned i .storing := (tracks.owned i .storing pm).mpr holds
  constructor
  · grind [tracks.unmade]
  · grind [tracks.owned]
  · intro at_ x
    rw [lookup_insert_eq]
    grind [tracks.stored]
  · grind [tracks.stopped]
  · exact tracks.once

theorem Tracks.takes (tracks : Tracks place owns heap) {i : ι} (idle : owns i = none) {key : NamespacedName}
    {pm : Nat} (found : heap.pods.lookup key = some pm) :
    Tracks (Function.update place pm (.owned i .stopping)) (Function.update owns i (some (.stopping, pm)))
      { heap with pods := heap.pods.erase key } := by
  have stored : place pm = .stored key := (tracks.stored key pm).mpr found
  constructor
  · grind [tracks.unmade]
  · grind [tracks.owned]
  · intro at_ x
    rw [lookup_erase_eq]
    grind [tracks.stored]
  · grind [tracks.stopped]
  · exact tracks.once

theorem Tracks.stops (tracks : Tracks place owns heap) {i : ι} {pm : Nat} (holds : owns i = some (.stopping, pm)) :
    pm ∉ heap.stops ∧
      Tracks (Function.update place pm .stopped) (Function.update owns i none)
        { heap with stops := pm :: heap.stops } := by
  have taken : place pm = .owned i .stopping := (tracks.owned i .stopping pm).mpr holds
  have unstopped : pm ∉ heap.stops := by
    intro member
    rw [(tracks.stopped pm).mpr member] at taken
    cases taken
  refine ⟨unstopped, ?_⟩
  constructor
  · grind [tracks.unmade]
  · grind [tracks.owned]
  · grind [tracks.stored]
  · grind [tracks.stopped]
  · exact List.nodup_cons.mpr ⟨unstopped, tracks.once⟩

omit [DecidableEq ι] in
theorem Tracks.clears (tracks : Tracks place owns heap) :
    Tracks (fun x => (place x).cleared) owns { heap with pods := ∅ } := by
  have kept (x : Nat) (p : Place ι) (elsewhere : p ≠ .lost) :
      (place x).cleared = p ↔ place x = p ∧ ∀ key, p ≠ .stored key := by
    cases place x <;> grind [Place.cleared]
  constructor
  · simpa [kept] using tracks.unmade
  · simpa [kept] using tracks.owned
  · simp [kept]
  · simpa [kept] using tracks.stopped
  · exact tracks.once

/-! ## Runs -/

def Goroutine.storing (g : Goroutine) : Option NamespacedName :=
  match g.pc with
  | some (.store pod _) => some pod.namespacedName
  | _ => none

def Overwrites (s : State ι) (i : ι) : Prop := ∃ key ∈ (s.threads i).storing, key ∈ s.shared.pods

instance (s : State ι) (i : ι) : Decidable (Overwrites s i) :=
  inferInstanceAs (Decidable (∃ key ∈ (s.threads i).storing, key ∈ s.shared.pods))

def Clears (s : State ι) (i : ι) : Prop := ∃ todo, s.threads i = ⟨none, .clear :: todo⟩

def Tracked (place : Nat → Place ι) (s : State ι) : Prop := Tracks place (fun i => (s.threads i).owns) s.shared

theorem owns_update (threads : ι → Goroutine) (i : ι) (g : Goroutine) :
    (fun j => (Function.update threads i g j).owns) = Function.update (fun j => (threads j).owns) i g.owns := by
  funext j
  exact Function.apply_update (fun _ => Goroutine.owns) threads i g j

omit [DecidableEq ι] in
theorem anyLost_update {pm : Nat} {next : Place ι} (before : place pm ≠ .lost) (after : next ≠ .lost) :
    (∃ x, Function.update place pm next x = .lost) ↔ ∃ x, place x = .lost := by
  rw [Function.exists_update_iff place fun _ p => p = .lost]
  constructor
  · rintro (now | ⟨x, _, lost⟩)
    · exact absurd now after
    · exact ⟨x, lost⟩
  · rintro ⟨x, lost⟩
    exact .inr ⟨x, fun same => before (same ▸ lost), lost⟩

theorem Tracked.acts {s : State ι} (tracked : Tracked place s) {i : ι} {g' : Goroutine} {heap' : Heap}
    (acts : Acts s.shared (s.threads i) g' heap') :
    ∃ place', Tracked place' ⟨Function.update s.threads i g', heap'⟩ ∧
      (¬Clears s i → ((∃ pm, place' pm = .lost) ↔ (∃ pm, place pm = .lost) ∨ Overwrites s i)) := by
  have quiet (owns : (s.threads i).owns = none) : ¬Overwrites s i := by
    rintro ⟨key, storing, _⟩
    unfold Goroutine.storing at storing
    split at storing
    · rename_i at_
      rw [Goroutine.owns, at_] at owns
      cases owns
    · cases storing
  unfold Tracked
  simp only [owns_update]
  generalize at_ : s.threads i = g at acts
  have holds : (s.threads i).owns = g.owns := congrArg Goroutine.owns at_
  cases acts with
  | reads owns writes owns' writes' =>
      refine ⟨place, ?_, ?_⟩
      · rw [owns', Function.update_eq_self_iff.mpr (holds.trans owns).symm]
        exact tracked
      · simp [quiet (holds.trans owns)]
  | loads found =>
      refine ⟨place, ?_, ?_⟩
      · rw [Function.update_eq_self_iff.mpr holds.symm]
        exact tracked
      · simp [quiet holds]
  | creates =>
      refine ⟨_, Tracks.creates tracked holds _, fun _ => ?_⟩
      have fresh : place s.shared.created = .unmade := (tracked.unmade _).mpr le_rfl
      rw [anyLost_update (by simp [fresh]) (by simp)]
      simp [quiet holds]
  | @stores pod pm todo =>
      refine ⟨_, Tracks.stores tracked holds, fun _ => ?_⟩
      have held := (tracked.owned i .storing pm).mpr holds
      have overwrites : Overwrites s i ↔ ∃ x, place x = .stored pod.namespacedName := by
        simp [Overwrites, Goroutine.storing, at_, tracked.stored, Finmap.mem_iff]
      rw [overwrites]
      grind
  | updates =>
      refine ⟨place, ?_, ?_⟩
      · rw [Function.update_eq_self_iff.mpr holds.symm]
        exact ⟨tracked.unmade, tracked.owned, tracked.stored, tracked.stopped, tracked.once⟩
      · simp [quiet holds]
  | takes found =>
      refine ⟨_, Tracks.takes tracked holds found, fun _ => ?_⟩
      have stored := (tracked.stored _ _).mpr found
      rw [anyLost_update (by simp [stored]) (by simp)]
      simp [quiet holds]
  | stops unstopped =>
      refine ⟨_, (Tracks.stops tracked holds).2, fun _ => ?_⟩
      have taken := (tracked.owned i .stopping _).mpr holds
      rw [anyLost_update (by simp [taken]) (by simp)]
      have other : ¬Overwrites s i := by simp [Overwrites, Goroutine.storing, at_]
      simp [other]
  | clears =>
      refine ⟨fun x => (place x).cleared, ?_, fun unclear => absurd ⟨_, at_⟩ unclear⟩
      rw [Function.update_eq_self_iff.mpr holds.symm]
      exact Tracks.clears tracked

theorem Tracked.steps {s : State ι} (tracked : Tracked place s) (at_ : ι × Option NamespacedName) :
    ∃ g' heap', (s.threads at_.1).step at_.2 s.shared = some (g', heap') ∧
      Acts s.shared (s.threads at_.1) g' heap' := by
  rcases step_acts at_.2 (s.threads at_.1) s.shared with stepped | ⟨pm, todo, holds, stopped⟩
  · exact stepped
  · have owns : (s.threads at_.1).owns = some (.stopping, pm) := by
      rw [holds]
      rfl
    exact absurd stopped (tracked.stops owns).1

omit [DecidableEq ι] in
theorem tracked_start (program : ι → List Call) : Tracked (fun _ => .unmade) (start program) := by
  constructor <;> simp [start, Goroutine.owns]

theorem refresh_loop_stopped_once (program : ι → List Call) (schedule : List (ι × Option NamespacedName)) :
    ∃ s, run program schedule = some s ∧ s.shared.stops.Nodup := by
  have goesOn (s' : State ι) (at_ : ι × Option NamespacedName) (holds : ∃ place, Tracked place s') :
      ∃ s'', Threads.turn Goroutine.step s' at_ = some s'' ∧ ∃ place, Tracked place s'' := by
    obtain ⟨place, tracked⟩ := holds
    obtain ⟨g', heap', stepped, acts⟩ := tracked.steps at_
    obtain ⟨place', tracked', _⟩ := tracked.acts acts
    exact ⟨_, Threads.turn_of_step stepped, place', tracked'⟩
  obtain ⟨s, ran, place, tracked⟩ := Threads.run_rule (I := fun _ s => ∃ place, Tracked place s)
    ⟨_, tracked_start program⟩ (fun _ s' at_ _ => goesOn s' at_) schedule
  exact ⟨s, ran, tracked.once⟩

/-! ## What the objects hold -/

structure Named (s : State ι) : Prop where
  stored : ∀ key pm, s.shared.pods.lookup key = some pm →
    pm < s.shared.created ∧ (s.shared.pod pm).namespacedName = key
  writes : ∀ i pod pm, (s.threads i).writes = some (pod, pm) →
    pm < s.shared.created ∧ (s.shared.pod pm).namespacedName = pod.namespacedName

theorem Named.acts {s : State ι} (named : Named s) {i : ι} {g' : Goroutine} {heap' : Heap}
    (acts : Acts s.shared (s.threads i) g' heap') : Named ⟨Function.update s.threads i g', heap'⟩ := by
  have own := named.writes i
  -- the names of the objects stay, and the goroutine knows the name of the object it is about to write
  suffices names : (∀ pm < s.shared.created,
      pm < heap'.created ∧ (heap'.pod pm).namespacedName = (s.shared.pod pm).namespacedName) ∧
      (∀ key pm, heap'.pods.lookup key = some pm → s.shared.pods.lookup key = some pm ∨
        pm < s.shared.created ∧ (s.shared.pod pm).namespacedName = key) ∧
      ∀ pod pm, g'.writes = some (pod, pm) →
        pm < heap'.created ∧ (heap'.pod pm).namespacedName = pod.namespacedName by
    obtain ⟨kept, stored, writes⟩ := names
    constructor
    · intro key pm found
      obtain ⟨made, name⟩ : pm < s.shared.created ∧ (s.shared.pod pm).namespacedName = key :=
        (stored key pm found).elim (named.stored key pm) id
      exact ⟨(kept pm made).1, (kept pm made).2.trans name⟩
    · refine (Function.forall_update_iff s.threads fun _ g => ∀ pod pm, g.writes = some (pod, pm) →
        pm < heap'.created ∧ (heap'.pod pm).namespacedName = pod.namespacedName).mpr ⟨writes, ?_⟩
      intro j _ pod pm writing
      obtain ⟨made, name⟩ := named.writes j pod pm writing
      exact ⟨(kept pm made).1, (kept pm made).2.trans name⟩
  generalize s.threads i = g at acts own
  cases acts with
  | reads owns writes owns' writes' => exact ⟨by simp, by simp +contextual, by simp [writes']⟩
  | loads found =>
      refine ⟨by simp, by simp +contextual, ?_⟩
      rintro pod pm ⟨⟩
      exact named.stored _ _ found
  | creates =>
      refine ⟨fun pm made => ⟨Nat.lt_succ_of_lt made, by simp [made.ne]⟩, by simp +contextual, ?_⟩
      rintro pod pm ⟨⟩
      simp [toInternalPod]
  | stores =>
      refine ⟨by simp, fun key pm found => ?_, fun pod pm writing => own pod pm writing⟩
      rw [lookup_insert_eq] at found
      split_ifs at found with same
      · obtain rfl := Option.some.inj found
        rw [same]
        exact .inr (own _ _ rfl)
      · exact .inl found
  | @updates pod pm todo =>
      refine ⟨fun x made => ⟨made, ?_⟩, by simp +contextual, by simp [Goroutine.writes]⟩
      by_cases same : x = pm
      · simp [same, (own pod pm rfl).2, toInternalPod]
      · simp [same]
  | takes found =>
      refine ⟨by simp, fun key pm found => ?_, by simp [Goroutine.writes, Pc.writes]⟩
      rw [lookup_erase_eq] at found
      split_ifs at found
      exact .inl found
  | stops => exact ⟨by simp, by simp +contextual, by simp [Goroutine.writes]⟩
  | clears => exact ⟨by simp, by simp, by simp [Goroutine.writes]⟩

def Call.Adds (pod : Pod) : Call → Prop
  | .podUpdateOrAddIfNotExist added => added = pod
  | .podResyncAll client pool => ∃ items, client.listPods pool.spec.selector pool.ns = .ok items ∧
      pod ∈ items ∧ podIsReady pod = true
  | _ => False

def Pc.adding : Pc → Option Pod
  | .newPodMetrics pod | .store pod _ | .updatePod pod _ => some pod
  | _ => none

/-- The calls that a goroutine still makes, with the one it is in if that adds a pod. -/
def Goroutine.calls (g : Goroutine) : List Call :=
  ((g.pc.bind Pc.adding).map .podUpdateOrAddIfNotExist).toList ++ g.todo

def Allowed (program : List Call) (call : Call) : Prop :=
  call ≠ .clear ∧ ∀ pod, call.Adds pod → ∃ call ∈ program, call.Adds pod

theorem allowed_step {program : List Call} {g g' : Goroutine} {visit : Option NamespacedName} {heap heap' : Heap}
    (stepped : g.step visit heap = some (g', heap')) (allowed : ∀ call ∈ g.calls, Allowed program call) :
    ∀ call ∈ g'.calls, Allowed program call := by
  have deletes (key : NamespacedName) : Allowed program (.podDelete key) := ⟨by simp, by simp [Call.Adds]⟩
  have ranges (active : List String) (visited : List NamespacedName) : Allowed program (.range active visited) :=
    ⟨by simp, by simp [Call.Adds]⟩
  revert stepped
  fun_cases Goroutine.step visit g heap <;> intro stepped <;> cases stepped
  case case7 client pool todo items listed ready =>
    have resync := allowed (.podResyncAll client pool) (by simp [Goroutine.calls])
    intro call member
    simp only [Goroutine.calls, Option.bind_none, Option.map_none, Option.toList_none, List.nil_append,
      List.mem_append, List.mem_map, List.mem_cons] at member
    rcases member with ⟨pod, taken, rfl⟩ | rfl | later
    · obtain ⟨listedPod, isReady⟩ := List.mem_filter.mp taken
      refine ⟨by simp, ?_⟩
      rintro _ rfl
      exact resync.2 pod ⟨items, listed, listedPod, isReady⟩
    · exact ranges _ _
    · exact allowed call (by simp [Goroutine.calls, later])
  all_goals simp_all [Goroutine.calls, Pc.adding]

def Updates (i : ι) (pod : Pod) (pm : Nat) (s : State ι) (j : ι) : Prop :=
  j = i ∧ (s.threads i).pc = some (.updatePod pod pm)

/-- The object holds the pod of a call that is adding it or that has updated it. -/
def Carries (program : ι → List Call) (before : List (ι × Option NamespacedName)) (s : State ι) (pm : Nat) : Prop :=
  ∃ i pod, (∃ call ∈ program i, call.Adds pod) ∧ s.shared.pod pm = toInternalPod pod ∧
    ((s.threads i).writes = some (pod, pm) ∨
      Threads.Happens (Updates i pod pm) Goroutine.step before (start program))

structure Inv (program : ι → List Call) (before : List (ι × Option NamespacedName)) (s : State ι) : Prop where
  places : ∃ place, Tracked place s ∧
    ((∃ pm, place pm = .lost) ↔ Threads.Happens Overwrites Goroutine.step before (start program))
  named : Named s
  allowed : ∀ i, ∀ call ∈ (s.threads i).calls, Allowed (program i) call
  carries : ∀ pm < s.shared.created, Carries program before s pm

theorem Carries.keep {program : ι → List Call} {before : List (ι × Option NamespacedName)} {s : State ι} {pm : Nat}
    (carries : Carries program before s pm) (ran : run program before = some s) (at_ : ι × Option NamespacedName)
    {g' : Goroutine} {heap' : Heap} (same : heap'.pod pm = s.shared.pod pm)
    (own : ∀ pod, (s.threads at_.1).writes = some (pod, pm) → g'.writes = some (pod, pm)) :
    Carries program (before ++ [at_]) ⟨Function.update s.threads at_.1 g', heap'⟩ pm := by
  obtain ⟨i, pod, asked, holds, writing | updated⟩ := carries
  · refine ⟨i, pod, asked, same.trans holds, .inl ?_⟩
    by_cases mine : i = at_.1
    · rw [mine] at writing
      simpa [mine] using own pod writing
    · simpa [mine] using writing
  · exact ⟨i, pod, asked, same.trans holds, .inr ((Threads.happens_append_singleton ran at_).mpr (.inl updated))⟩

theorem Carries.acts {program : ι → List Call} {before : List (ι × Option NamespacedName)} {s : State ι}
    (carries : ∀ pm < s.shared.created, Carries program before s pm) (ran : run program before = some s)
    (at_ : ι × Option NamespacedName) (allowed : ∀ call ∈ (s.threads at_.1).calls, Allowed (program at_.1) call)
    {g' : Goroutine} {heap' : Heap} (acts : Acts s.shared (s.threads at_.1) g' heap') :
    ∀ pm < heap'.created, Carries program (before ++ [at_]) ⟨Function.update s.threads at_.1 g', heap'⟩ pm := by
  intro pm made
  generalize is : s.threads at_.1 = g at acts allowed
  have holds : (s.threads at_.1).writes = g.writes := congrArg Goroutine.writes is
  cases acts with
  | reads owns writes owns' writes' =>
      refine (carries pm made).keep ran at_ rfl ?_
      simp [holds.trans writes]
  | loads | takes | stops | clears =>
      refine (carries pm made).keep ran at_ rfl ?_
      rw [holds]
      intro pod writing
      cases writing
  | stores =>
      refine (carries pm made).keep ran at_ rfl ?_
      rw [holds]
      exact fun pod writing => writing
  | @creates pod todo =>
      by_cases fresh : pm = s.shared.created
      · refine ⟨at_.1, pod, (allowed (.podUpdateOrAddIfNotExist pod) (by simp [Goroutine.calls, Pc.adding])).2 pod rfl,
          by simp [fresh], .inl ?_⟩
        simp [Goroutine.writes, Pc.writes, fresh]
      · refine (carries pm (lt_of_le_of_ne (Nat.lt_succ_iff.mp made) fresh)).keep ran at_ (by simp [fresh]) ?_
        rw [holds]
        intro pod writing
        cases writing
  | @updates pod written todo =>
      by_cases same : pm = written
      · refine ⟨at_.1, pod, (allowed (.podUpdateOrAddIfNotExist pod) (by simp [Goroutine.calls, Pc.adding])).2 pod rfl,
          by simp [same], .inr ?_⟩
        rw [same]
        exact (Threads.happens_append_singleton ran at_).mpr (.inr ⟨rfl, by rw [is]⟩)
      · refine (carries pm made).keep ran at_ (by simp [same]) ?_
        rw [holds]
        rintro pod ⟨⟩
        exact absurd rfl same

theorem inv_start {program : ι → List Call} (unclear : ∀ i, .clear ∉ program i) :
    Inv program [] (start program) := by
  refine ⟨⟨_, tracked_start program, ?_⟩, ?_, ?_, ?_⟩
  · simp [Threads.happens_nil]
  · constructor <;> simp [start, Goroutine.writes]
  · intro i call member
    have mine : call ∈ program i := by simpa [start, Goroutine.calls] using member
    exact ⟨fun isClear => unclear i (isClear ▸ mine), fun pod adds => ⟨call, mine, adds⟩⟩
  · simp [start]

theorem Inv.turn {program : ι → List Call} {before : List (ι × Option NamespacedName)} {s : State ι}
    (ran : run program before = some s) (inv : Inv program before s) (at_ : ι × Option NamespacedName) :
    ∃ s', Threads.turn Goroutine.step s at_ = some s' ∧ Inv program (before ++ [at_]) s' := by
  obtain ⟨place, tracked, lost⟩ := inv.places
  obtain ⟨g', heap', stepped, acts⟩ := tracked.steps at_
  obtain ⟨place', tracked', lost'⟩ := tracked.acts acts
  have unclear : ¬Clears s at_.1 := by
    rintro ⟨todo, clears⟩
    exact (inv.allowed at_.1 .clear (by simp [Goroutine.calls, clears])).1 rfl
  refine ⟨_, Threads.turn_of_step stepped, ⟨place', tracked', ?_⟩, inv.named.acts acts, ?_,
    Carries.acts inv.carries ran at_ (inv.allowed at_.1) acts⟩
  · rw [lost' unclear, lost, Threads.happens_append_singleton ran]
  · exact (Function.forall_update_iff s.threads fun i g => ∀ call ∈ g.calls, Allowed (program i) call).mpr
      ⟨allowed_step stepped (inv.allowed at_.1), fun i _ => inv.allowed i⟩

def Finished (s : State ι) : Prop := ∀ i, (s.threads i).pc = none ∧ (s.threads i).todo = []

/-- Every object is the one stored for its pod or stopped, and the stored ones hold the pod of a call that
updated them. -/
structure AllKept (program : ι → List Call) (schedule : List (ι × Option NamespacedName)) (s : State ι) : Prop where
  kept : ∀ pm < s.shared.created,
    s.shared.pods.lookup (s.shared.pod pm).namespacedName = some pm ∨ pm ∈ s.shared.stops
  carries : ∀ key pm, s.shared.pods.lookup key = some pm →
    ∃ i pod, (∃ call ∈ program i, call.Adds pod) ∧
      Threads.Happens (Updates i pod pm) Goroutine.step schedule (start program) ∧
      s.shared.pod pm = toInternalPod pod

/-- Concurrent adds and deletes keep track of all objects exactly when no `Store` finds its key in the map. -/
theorem concurrent_adds_kept_iff (program : ι → List Call) (unclear : ∀ i, .clear ∉ program i)
    (schedule : List (ι × Option NamespacedName)) {s : State ι} (ran : run program schedule = some s)
    (finished : Finished s) :
    AllKept program schedule s ↔ ¬Threads.Happens Overwrites Goroutine.step schedule (start program) := by
  obtain ⟨s', ran', inv⟩ :=
    Threads.run_rule (inv_start unclear) (fun before s' at_ ran inv => inv.turn ran at_) schedule
  obtain rfl := Option.some.inj (ran.symm.trans ran')
  obtain ⟨place, tracked, lost⟩ := inv.places
  rw [← lost]
  constructor
  · rintro ⟨kept, _⟩ ⟨pm, isLost⟩
    have made : pm < s.shared.created := by
      rw [← not_le, ← tracked.unmade, isLost]
      simp
    rcases kept pm made with stored | stopped
    · simp [(tracked.stored _ pm).mpr stored] at isLost
    · simp [(tracked.stopped pm).mpr stopped] at isLost
  · intro noneLost
    constructor
    · intro pm made
      cases at_ : place pm with
      | unmade => exact absurd ((tracked.unmade pm).mp at_) (not_le.mpr made)
      | owned i stage =>
          have owns := (tracked.owned i stage pm).mp at_
          simp [Goroutine.owns, (finished i).1] at owns
      | stored key =>
          have found := (tracked.stored key pm).mp at_
          rw [(inv.named.stored key pm found).2]
          exact .inl found
      | stopped => exact .inr ((tracked.stopped pm).mp at_)
      | lost => exact absurd ⟨pm, at_⟩ noneLost
    · intro key pm found
      obtain ⟨i, pod, asked, holds, writing | updated⟩ := inv.carries pm (inv.named.stored key pm found).1
      · simp [Goroutine.writes, (finished i).1] at writing
      · exact ⟨i, pod, asked, updated, holds⟩

def addedPod : Pod := testPod "default" "vllm-0" "10.0.0.1"

def turns (order : List Bool) : List (Bool × Option NamespacedName) := order.map fun i => (i, none)

theorem finished_iff (s : State Bool) : ((s.threads true).pc.isNone && (s.threads true).todo.isEmpty &&
    ((s.threads false).pc.isNone && (s.threads false).todo.isEmpty)) = true ↔ Finished s := by
  simp [Finished, and_comm]

instance (s : State Bool) : Decidable (Finished s) := decidable_of_iff _ (finished_iff s)

-- one goroutine adds the pod; the other one deletes it and adds it again
def readds : Bool → List Call
  | true => [.podUpdateOrAddIfNotExist addedPod]
  | false => [.podDelete addedPod.namespacedName, .podUpdateOrAddIfNotExist addedPod]

def readdsTurns : List (Bool × Option NamespacedName) :=
  turns [true, true, true, false, true, false, false, false, false, false]

theorem delete_during_add_kept :
    ∃ s, run readds readdsTurns = some s ∧ Finished s ∧ AllKept readds readdsTurns s := by
  obtain ⟨s, ran, ends⟩ := (Option.any_eq_true (fun s => decide (Finished s)) (run readds readdsTurns)).mp
    (by decide +kernel)
  have finished : Finished s := of_decide_eq_true ends
  refine ⟨s, ran, finished, (concurrent_adds_kept_iff readds ?_ readdsTurns ran finished).mpr ?_⟩
  · intro i
    cases i <;> simp [readds]
  · decide +kernel

def racingAdds : Bool → List Call := fun _ => [.podUpdateOrAddIfNotExist addedPod]

def racingTurns : List (Bool × Option NamespacedName) :=
  turns [true, false, true, false, true, false, true, false]

theorem racing_adds_leak :
    ∃ s, run racingAdds racingTurns = some s ∧ Finished s ∧ ¬AllKept racingAdds racingTurns s := by
  obtain ⟨s, ran, ends⟩ := (Option.any_eq_true (fun s => decide (Finished s ∧ 0 < s.shared.created ∧
    s.shared.pods.lookup (s.shared.pod 0).namespacedName ≠ some 0 ∧ 0 ∉ s.shared.stops))
    (run racingAdds racingTurns)).mp (by decide +kernel)
  obtain ⟨finished, made, unstored, unstopped⟩ := of_decide_eq_true ends
  exact ⟨s, ran, finished, fun all => (all.kept 0 made).elim unstored unstopped⟩

end InferenceGateway.Datastore.Concurrent
