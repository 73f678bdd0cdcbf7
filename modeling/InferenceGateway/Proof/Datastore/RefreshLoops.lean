import InferenceGateway.Proof.Datastore.Pods

namespace InferenceGateway.Datastore
open Lib.Workqueue

inductive PodOp
  | podUpdateOrAddIfNotExist (pod : Pod)
  | podDelete (namespacedName : NamespacedName)
  | podResyncAll (client : Client) (pool : InferencePool) (order : List NamespacedName)
  | clear

def PodOp.run : PodOp → Datastore → Datastore
  | .podUpdateOrAddIfNotExist pod, ds => (ds.podUpdateOrAddIfNotExist pod).2
  | .podDelete namespacedName, ds => ds.podDelete namespacedName
  | .podResyncAll client pool order, ds => ds.podResyncAll client pool order
  | .clear, ds => ds.clear

def runOps (ops : List PodOp) : Datastore := ops.foldl (fun ds op => op.run ds) {}

def refAt (ds : Datastore) (key : NamespacedName) : Option Nat := (ds.pods.lookup key).map PodMetrics.ref

def Stored (ds : Datastore) (ref : Nat) : Prop := ∃ key, ds.refAt key = some ref

-- the parent context is alive
def Running (ds : Datastore) (ref : Nat) : Prop := ref < ds.created ∧ ref ∉ ds.stopped

def LoopsMatch (ds : Datastore) : Prop := ∀ ref, ds.Running ref ↔ ds.Stored ref

structure LoopsOwned (ds : Datastore) : Prop where
  loops : ds.LoopsMatch
  once : ∀ key key' ref, ds.refAt key = some ref → ds.refAt key' = some ref → key = key'
  past : ∀ ref ∈ ds.stopped, ref < ds.created

theorem loopsOwned_empty : LoopsOwned {} := by
  constructor
  · simp [LoopsMatch, Running, Stored, refAt]
  · simp [refAt]
  · simp

theorem podUpdate_refAt (ds : Datastore) (pod : Pod) (at_ : NamespacedName) :
    (ds.podUpdateOrAddIfNotExist pod).2.refAt at_ =
      if at_ = pod.namespacedName then some ((ds.refAt pod.namespacedName).getD ds.created) else ds.refAt at_ := by
  unfold podUpdateOrAddIfNotExist refAt
  cases ds.pods.lookup pod.namespacedName with
  | none | some =>
      simp only [lookup_insert_eq]
      split_ifs <;> rfl

theorem LoopsOwned.congr {ds ds' : Datastore} (owned : ds.LoopsOwned) (refs : ∀ key, ds'.refAt key = ds.refAt key)
    (created : ds'.created = ds.created) (stopped : ds'.stopped = ds.stopped) : ds'.LoopsOwned := by
  obtain ⟨loops, once, past⟩ := owned
  constructor
  · simpa only [LoopsMatch, Running, Stored, refs, created, stopped] using loops
  · simpa only [refs] using once
  · simpa only [created, stopped] using past

theorem LoopsOwned.podUpdate {ds : Datastore} (owned : ds.LoopsOwned) (pod : Pod) :
    (ds.podUpdateOrAddIfNotExist pod).2.LoopsOwned := by
  have refs := ds.podUpdate_refAt pod
  cases found : ds.pods.lookup pod.namespacedName with
  | some existing =>
      have held : ds.refAt pod.namespacedName = some existing.ref := by rw [refAt, found, Option.map_some]
      refine owned.congr (fun key => ?_) ?_ ?_
      · rw [refs, held]
        split_ifs with own
        · rw [own, held, Option.getD_some]
        · rfl
      all_goals simp only [podUpdateOrAddIfNotExist, found]
  | none =>
      have absent : ds.refAt pod.namespacedName = none := by rw [refAt, found, Option.map_none]
      rw [absent, Option.getD_none] at refs
      have created : (ds.podUpdateOrAddIfNotExist pod).2.created = ds.created + 1 := by
        simp only [podUpdateOrAddIfNotExist, found]
      have stopped : (ds.podUpdateOrAddIfNotExist pod).2.stopped = ds.stopped := by
        simp only [podUpdateOrAddIfNotExist, found]
      have older (key : NamespacedName) (ref : Nat) (stored : ds.refAt key = some ref) : ref < ds.created :=
        ((owned.loops ref).mpr ⟨key, stored⟩).1
      constructor
      · intro ref
        rw [Running, created, stopped]
        constructor
        · intro ⟨early, unstopped⟩
          rcases Nat.lt_succ_iff_lt_or_eq.mp early with early | rfl
          · obtain ⟨key, stored⟩ := (owned.loops ref).mp ⟨early, unstopped⟩
            have other : key ≠ pod.namespacedName := by
              intro own
              rw [own, absent] at stored
              cases stored
            exact ⟨key, by rw [refs, if_neg other, stored]⟩
          · exact ⟨pod.namespacedName, by rw [refs, if_pos rfl]⟩
        · intro ⟨key, stored⟩
          rw [refs] at stored
          split_ifs at stored
          · obtain rfl := Option.some.inj stored
            exact ⟨Nat.lt_succ_self _, fun member => lt_irrefl _ (owned.past _ member)⟩
          · obtain ⟨early, unstopped⟩ := (owned.loops ref).mpr ⟨key, stored⟩
            exact ⟨Nat.lt_succ_of_lt early, unstopped⟩
      · intro key key' ref stored stored'
        rw [refs] at stored stored'
        split_ifs at stored stored' with own own' own'
        · rw [own, own']
        · obtain rfl := Option.some.inj stored
          exact absurd (older key' _ stored') (lt_irrefl _)
        · obtain rfl := Option.some.inj stored'
          exact absurd (older key _ stored) (lt_irrefl _)
        · exact owned.once key key' ref stored stored'
      · rw [created, stopped]
        intro ref member
        exact Nat.lt_succ_of_lt (owned.past ref member)

theorem podDelete_refAt (ds : Datastore) (key at_ : NamespacedName) :
    (ds.podDelete key).refAt at_ = if at_ = key then none else ds.refAt at_ := by
  rw [refAt, podDelete_lookup]
  split_ifs <;> rfl

theorem LoopsOwned.podDelete {ds : Datastore} (owned : ds.LoopsOwned) (key : NamespacedName) :
    (ds.podDelete key).LoopsOwned := by
  have refs := ds.podDelete_refAt key
  cases found : ds.pods.lookup key with
  | none =>
      have same : ds.podDelete key = ds := by simp only [Datastore.podDelete, found]
      rw [same]
      exact owned
  | some pm =>
      have held : ds.refAt key = some pm.ref := by rw [refAt, found, Option.map_some]
      have created : (ds.podDelete key).created = ds.created := by simp only [Datastore.podDelete, found]
      have stopped : (ds.podDelete key).stopped = pm.ref :: ds.stopped := by
        simp only [Datastore.podDelete, found]
      constructor
      · intro ref
        rw [Running, created, stopped, List.mem_cons, not_or]
        constructor
        · intro ⟨early, other, unstopped⟩
          obtain ⟨at_, stored⟩ := (owned.loops ref).mp ⟨early, unstopped⟩
          have kept : at_ ≠ key := by
            intro own
            rw [own, held] at stored
            exact other (Option.some.inj stored).symm
          exact ⟨at_, by rw [refs, if_neg kept, stored]⟩
        · intro ⟨at_, stored⟩
          rw [refs] at stored
          split_ifs at stored with kept
          obtain ⟨early, unstopped⟩ := (owned.loops ref).mpr ⟨at_, stored⟩
          refine ⟨early, ?_, unstopped⟩
          rintro rfl
          exact kept (owned.once at_ key _ stored held)
      · intro at_ at_' ref stored stored'
        rw [refs] at stored stored'
        split_ifs at stored stored'
        exact owned.once at_ at_' ref stored stored'
      · rw [created, stopped]
        intro ref member
        rcases List.mem_cons.mp member with rfl | member
        · exact ((owned.loops _).mpr ⟨key, held⟩).1
        · exact owned.past ref member

theorem podStable_loopsOwned : PodStable LoopsOwned :=
  ⟨fun _ pod owned => owned.podUpdate pod, fun _ key owned => owned.podDelete key⟩

theorem LoopsOwned.clear {ds : Datastore} (owned : ds.LoopsOwned) (empty : ds.pods = ∅) :
    ds.clear.LoopsOwned := by
  refine owned.congr (fun key => ?_) rfl rfl
  rw [refAt, refAt, empty, Datastore.clear]

theorem LoopsMatch.empty_of_clear {ds : Datastore} (before : ds.LoopsMatch) (after : ds.clear.LoopsMatch) :
    ds.pods = ∅ := by
  apply Finmap.ext_lookup
  intro key
  cases found : ds.pods.lookup key with
  | none => rfl
  | some pm =>
      have running : ds.Running pm.ref := (before pm.ref).mpr ⟨key, by rw [refAt, found, Option.map_some]⟩
      obtain ⟨key', stored⟩ := (after pm.ref).mp running
      simp [Datastore.clear, refAt] at stored

/-- The running refresh loops are those of the stored pods throughout a run exactly when `Clear` is
only called without pods. -/
theorem no_loop_leaked_iff (ops : List PodOp) :
    (∀ before, before <+: ops → (runOps before).LoopsMatch) ↔
      ∀ before after, ops = before ++ .clear :: after → (runOps before).pods = ∅ := by
  constructor
  · intro matched before after split
    have cleared : runOps (before ++ [.clear]) = (runOps before).clear := by
      simp [runOps, PodOp.run]
    refine (matched before ⟨_, split.symm⟩).empty_of_clear ?_
    rw [← cleared]
    exact matched (before ++ [.clear]) ⟨after, by rw [split]; simp⟩
  · intro empties before isPrefix
    suffices owned : (runOps before).LoopsOwned from owned.loops
    induction before using List.reverseRecOn with
    | nil => exact loopsOwned_empty
    | append_singleton before op ih =>
        have owned := ih ((List.prefix_append before [op]).trans isPrefix)
        have ran : runOps (before ++ [op]) = op.run (runOps before) := by
          simp [runOps]
        rw [ran]
        cases op with
        | podUpdateOrAddIfNotExist pod => exact owned.podUpdate pod
        | podDelete key => exact owned.podDelete key
        | podResyncAll client pool order => exact podStable_loopsOwned.podResyncAll client pool order owned
        | clear =>
            obtain ⟨after, split⟩ := isPrefix
            exact owned.clear (empties before after (by rw [← split]; simp))

theorem clear_leaks_loop :
    let pod : Pod := { ns := "default", name := "vllm-0", labels := ∅, status := ⟨[], "10.0.0.1"⟩ }
    let ops : List PodOp := [.podUpdateOrAddIfNotExist pod, .clear]
    ¬∀ before, before <+: ops → (runOps before).LoopsMatch := by
  intro pod ops matched
  have running : (runOps ops).Running 0 := ⟨by decide +kernel, by decide +kernel⟩
  obtain ⟨key, stored⟩ := (matched ops List.prefix_rfl 0).mp running
  simp [ops, runOps, PodOp.run, Datastore.clear, refAt] at stored

end InferenceGateway.Datastore
