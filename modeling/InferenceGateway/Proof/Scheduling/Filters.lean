import InferenceGateway.Proof.Scheduling.Tree
import InferenceGateway.Scheduling.Scheduler
import Mathlib.Tactic.Linarith

namespace InferenceGateway
open Lib
open Lib.Dialogue (Returns returns_pure returns_ite returns_keep returns_foldlM)
variable {π ν : Type}

@[simp] theorem getMetrics_apply (site : Site) (pod : π) (env : Env π) (t : Nat) :
    (getMetrics site pod) env t = (env.getMetrics t pod, t + 1) := rfl

@[simp] theorem randFloat64_apply (env : Env π) (t : Nat) :
    randFloat64 env t = (.finite (env.float64 t), t + 1) := rfl

theorem zero_mem_draws : (0 : ℚ) ∈ Set.Ico (0 : ℚ) 1 := Set.left_mem_Ico.mpr zero_lt_one

/-! ## What the filter functions do under any observation -/

theorem toFilterFunc_apply (pp : PodPredicate π) (req : LLMRequest) (pods : List π) (env : Env π)
    (t : Nat) :
    (toFilterFunc pp req pods env t).1 =
      if (Dialogue.keep (pp req) pods env t).1 = [] then ([], some (.new "no pods left"))
      else ((Dialogue.keep (pp req) pods env t).1, none) := by
  simp only [toFilterFunc, Run.exec_bind, List.length_eq_zero_iff]
  split <;> rfl

theorem toFilterFunc_narrows (pp : PodPredicate π) : Narrows (toFilterFunc pp) := by
  intro req pods env t
  rw [toFilterFunc_apply]
  split
  · exact List.nil_sublist pods
  · exact Dialogue.keep_sublist _ _ _ _

theorem leastFilterFunc_narrows (value : Metrics → ν) (le : ν → ν → Bool) (top zero : ν)
    (bound : ν → ν → Nat → ν) : Narrows (π := π) (leastFilterFunc value le top zero bound) := by
  intro req pods env t
  simp only [leastFilterFunc, Run.exec_bind, Run.exec_pure]
  exact Dialogue.keep_sublist _ _ _ _

theorem categorize_cases (req : LLMRequest) (groups : List π × List π) (pod : π) (env : Env π)
    (t : Nat) :
    (categorize req groups pod env t).1 = (groups.1 ++ [pod], groups.2) ∨
    (categorize req groups pod env t).1 = (groups.1, groups.2 ++ [pod]) ∨
    (categorize req groups pod env t).1 = groups := by
  simp only [categorize, Run.exec_bind, Run.exec_ite]
  split
  · exact .inl rfl
  · split
    · exact .inr (.inl rfl)
    · exact .inr (.inr rfl)

theorem categorize_groups (req : LLMRequest) (pods : List π) (groups : List π × List π)
    (env : Env π) (t : Nat) :
    ∃ affinity available, (pods.foldlM (categorize req) groups env t).1 =
        (groups.1 ++ affinity, groups.2 ++ available) ∧
      affinity.Sublist pods ∧ available.Sublist pods := by
  induction pods generalizing groups t with
  | nil => exact ⟨[], [], by simp, .slnil, .slnil⟩
  | cons pod pods ih =>
      rw [List.foldlM_cons, Run.exec_bind]
      obtain ⟨affinity, available, result, left, right⟩ := ih (categorize req groups pod env t).1
        (categorize req groups pod env t).2
      rw [result]
      rcases categorize_cases req groups pod env t with step | step | step <;> rw [step]
      · exact ⟨pod :: affinity, available, by simp, left.cons_cons pod, right.cons pod⟩
      · exact ⟨affinity, pod :: available, by simp, left.cons pod, right.cons_cons pod⟩
      · exact ⟨affinity, available, rfl, left.cons pod, right.cons pod⟩

theorem loRASoftAffinityFilter_narrows (threshold : Float64) :
    Narrows (π := π) (loRASoftAffinityFilter threshold) := by
  intro req pods env t
  obtain ⟨affinity, available, result, left, right⟩ := categorize_groups req pods ([], []) env t
  simp only [loRASoftAffinityFilter, Run.exec_bind, result, Run.exec_ite]
  split
  · split
    · exact left
    · exact right
  · split
    · exact left
    · exact right

theorem dropRequest_narrows : Narrows (π := π) dropRequest :=
  fun _ pods _ _ => List.nil_sublist pods

/-! ## Readings -/

abbrev Event (π : Type) := Dialogue.Event (Query π) Query.Answer RunningFilter

structure Reading (π : Type) where
  site : Site
  pod : π
  metrics : Metrics

def Event.reading? : Event π → Option (Reading π)
  | .answered (.getMetrics site pod) metrics => some ⟨site, pod, metrics⟩
  | .answered .float64 _ | .answered .intn _ | .noted _ => none

/-- If this is a reading of one of the pods, then of that value. -/
def Reads (pods : List π) (value : Metrics → ν) (values : π → ν) (event : Event π) : Prop :=
  ∀ reading ∈ event.reading?, reading.pod ∈ pods → value reading.metrics = values reading.pod

section Readings
variable {α : Type} {pods : List π} {value : Metrics → ν} {values : π → ν} {pod : π}

theorem returns_read (member : pod ∈ pods) {site : Site} {f : Metrics → Run π α} {a : α}
    (rest : ∀ metrics, value metrics = values pod → Returns (Reads pods value values) (f metrics) a) :
    Returns (Reads pods value values) (getMetrics site pod >>= f) a := by
  intro answers t observed
  rw [Dialogue.log_bind] at observed
  have read : Reads pods value values (.answered (.getMetrics site pod) (answers t (.getMetrics site pod))) :=
    observed _ List.mem_cons_self
  exact rest _ (read _ rfl member) answers (t + 1) fun event after => observed event (List.mem_append_right _ after)

def trackBy (le : ν → ν → Bool) (range : ν × ν) (v : ν) : ν × ν :=
  (if le v range.1 then v else range.1, if le range.2 v then v else range.2)

theorem returns_widen (member : pod ∈ pods) (le : ν → ν → Bool) (range : ν × ν) :
    Returns (Reads pods value values) (widen value le range pod) (trackBy le range (values pod)) := by
  obtain ⟨min, max⟩ := range
  -- the second comparison and its assignment, for whatever minimum the first one left
  have second (min' : ν) : Returns (Reads pods value values) (do
      if le max (value (← getMetrics .maxTest pod)) then
        return (min', value (← getMetrics .maxSet pod))
      else
        return (min', max))
      (min', if le max (values pod) then values pod else max) := by
    apply returns_read member
    intro metrics same
    rw [same, apply_ite (Prod.mk min')]
    refine returns_ite (fun _ => returns_read member fun metrics same => ?_) fun _ => returns_pure _ _
    rw [same]
    exact returns_pure _ _
  apply returns_read member
  intro metrics same
  rw [same, trackBy, apply_ite (Prod.mk · _)]
  refine returns_ite (fun _ => returns_read member fun metrics same => ?_) fun _ => second _
  rw [same]
  exact second _

theorem returns_inFirstRange (member : pod ∈ pods) (le : ν → ν → Bool) (min bound : ν) :
    Returns (Reads pods value values) (inFirstRange value le min bound pod)
      (le min (values pod) && le (values pod) bound) := by
  have split : (le min (values pod) && le (values pod) bound) =
      if le min (values pod) then le (values pod) bound else false := by
    cases le min (values pod) <;> rfl
  rw [split]
  apply returns_read member
  intro metrics same
  rw [same]
  refine returns_ite (fun _ => returns_read member fun metrics same => ?_) fun _ => returns_pure _ _
  rw [same]
  exact returns_pure _ _

theorem returns_leastFilterFunc (le : ν → ν → Bool) (top zero : ν) (bound : ν → ν → Nat → ν) (req : LLMRequest) :
    let range := pods.foldl (fun range pod => trackBy le range (values pod)) (top, zero)
    Returns (Reads pods value values) (leastFilterFunc value le top zero bound req pods)
      (pods.filter (fun pod => le range.1 (values pod) && le (values pod) (bound range.1 range.2 pods.length)), none) :=
  (returns_foldlM pods (fun range _ member => returns_widen member le range) _).bind
    ((returns_keep pods fun _ member => returns_inFirstRange member le _ _).bind (returns_pure _ _))

theorem returns_lowQueueing {metrics : π → Metrics} (member : pod ∈ pods) (threshold : Int64) (req : LLMRequest) :
    Returns (Reads pods id metrics) (lowQueueingPodPredicate threshold req pod)
      (decide ((metrics pod).waitingQueueSize < threshold)) := by
  apply returns_read member
  rintro _ rfl
  exact returns_pure _ _

end Readings

/-! ## Steady metrics -/

/-- From query number `t` on, the metrics of these pods are not replaced. -/
def Steady (env : Env π) (t : Nat) (pods : List π) (metrics : π → Metrics) : Prop :=
  ∀ pod ∈ pods, ∀ k, t ≤ k → env.getMetrics k pod = metrics pod

section Steady
variable {α : Type} {env : Env π} {t : Nat} {pods : List π} {metrics : π → Metrics}

theorem Steady.run_eq (steady : Steady env t pods metrics) (value : Metrics → ν) {x : Run π α} {a : α}
    (returns : Returns (Reads pods value fun pod => value (metrics pod)) x a) : (x env t).1 = a := by
  apply returns
  refine Dialogue.forall_mem_log (fun _ _ none => by cases none) (fun k later query => ?_) x
  cases query with
  | getMetrics site pod =>
      rintro _ ⟨⟩ member
      exact congrArg value (steady pod member k later)
  | float64 => exact fun _ none => by cases none
  | intn => exact fun _ none => by cases none

theorem Steady.toFilterFunc (steady : Steady env t pods metrics) {pp : PodPredicate π} {req : LLMRequest}
    {test : π → Bool} (returns : ∀ pod ∈ pods, Returns (Reads pods id metrics) (pp req pod) (test pod)) :
    (toFilterFunc pp req pods env t).1 =
      (pods.filter test, if pods.filter test = [] then some (.new "no pods left") else none) := by
  rw [toFilterFunc_apply, steady.run_eq id (returns_keep pods returns)]
  split_ifs with empty
  · rw [empty]
  · rfl

end Steady

/-! ## LoRA adapters -/

/-- How a pod can serve a target model: its adapter is loaded, there is a free slot for it, or there
is none. -/
inductive LoRAClass
  | active
  | free
  | full
deriving DecidableEq

def loRAClass (target : String) (metrics : Metrics) : LoRAClass :=
  if target ∈ metrics.activeModels then .active
  else if Int64.ofNat metrics.activeModels.keys.card < metrics.maxActiveModels then .free
  else .full

def ofClass (metrics : π → Metrics) (target : String) (cls : LoRAClass) (pods : List π) : List π :=
  pods.filter fun pod => loRAClass target (metrics pod) = cls

def affinityGroup (threshold : Float64) (draw : ℚ) (affinity available : List π) : List π :=
  if affinity ≠ [] ∧ available ≠ [] then
    if (Float64.finite draw).lt threshold then affinity else available
  else if affinity ≠ [] then affinity
  else available

section LoRA
variable {env : Env π} {t : Nat} {pods : List π} {metrics : π → Metrics}

def addToGroup (cls : LoRAClass) (groups : List π × List π) (pod : π) : List π × List π :=
  match cls with
  | .active => (groups.1 ++ [pod], groups.2)
  | .free => (groups.1, groups.2 ++ [pod])
  | .full => groups

theorem returns_categorize (req : LLMRequest) (groups : List π × List π) {pod : π} (member : pod ∈ pods) :
    Returns (Reads pods id metrics) (categorize req groups pod)
      (addToGroup (loRAClass req.resolvedTargetModel (metrics pod)) groups pod) := by
  have split : addToGroup (loRAClass req.resolvedTargetModel (metrics pod)) groups pod =
      if req.resolvedTargetModel ∈ (metrics pod).activeModels then (groups.1 ++ [pod], groups.2)
      else if Int64.ofNat (metrics pod).activeModels.keys.card < (metrics pod).maxActiveModels then
        (groups.1, groups.2 ++ [pod])
      else groups := by
    unfold loRAClass
    split_ifs <;> rfl
  rw [split]
  apply returns_read member
  rintro _ rfl
  refine returns_ite (fun _ => returns_pure _ _) fun _ => returns_read member ?_
  rintro _ rfl
  apply returns_read member
  rintro _ rfl
  exact returns_ite (fun _ => returns_pure _ _) fun _ => returns_pure _ _

theorem addToGroup_foldl (cls : π → LoRAClass) (pods : List π) (groups : List π × List π) :
    pods.foldl (fun groups pod => addToGroup (cls pod) groups pod) groups =
      (groups.1 ++ pods.filter (cls · = .active), groups.2 ++ pods.filter (cls · = .free)) := by
  induction pods generalizing groups with
  | nil => simp
  | cons pod pods ih =>
      rw [List.foldl_cons, ih]
      cases own : cls pod <;> simp [addToGroup, own]

/-- The group that the filter returns, for the draw that it makes at some query. -/
theorem Steady.loRASoftAffinityFilter (steady : Steady env t pods metrics) (threshold : Float64) (req : LLMRequest) :
    ∃ k, (loRASoftAffinityFilter threshold req pods env t).1 =
      (affinityGroup threshold (env.float64 k) (ofClass metrics req.resolvedTargetModel .active pods)
        (ofClass metrics req.resolvedTargetModel .free pods), none) := by
  have returns : Returns (Reads pods id metrics) (pods.foldlM (categorize req) ([], [])) _ :=
    returns_foldlM pods (fun groups _ => returns_categorize req groups) ([], [])
  have grouped := steady.run_eq id returns
  rw [addToGroup_foldl (fun pod => loRAClass req.resolvedTargetModel (metrics pod))] at grouped
  simp only [List.nil_append] at grouped
  refine ⟨((pods.foldlM (categorize req) ([], [])) env t).2, ?_⟩
  simp only [InferenceGateway.loRASoftAffinityFilter, Run.exec_bind, grouped, Run.exec_ite, affinityGroup,
    ofClass, ne_eq, ← List.length_eq_zero_iff, ← Nat.pos_iff_ne_zero, gt_iff_lt, Bool.and_eq_true, decide_eq_true_eq]
  simp only [randFloat64_apply]
  split_ifs with both drawn
  · exact congrArg Prod.fst (if_pos drawn)
  · exact congrArg Prod.fst (if_neg drawn)
  · rfl
  · rfl

end LoRA

/-! ## The range found by the min/max loop -/

section Range
variable {κ : Type} [LinearOrder κ] {le : ν → ν → Bool} {good : ν → Prop} {rank : ν → κ}

/-- On the values that are `good`, `le` compares ranks, and only equal values have equal ranks. -/
structure Ranked (le : ν → ν → Bool) (good : ν → Prop) (rank : ν → κ) : Prop where
  compares : ∀ a b, good a → good b → (le a b = true ↔ rank a ≤ rank b)
  injective : ∀ a b, good a → good b → rank a = rank b → a = b
  trans : ∀ a b c, le a b = true → le b c = true → le a c = true

theorem Ranked.restrict (ranked : Ranked le good rank) {best : ν → Prop} (stronger : ∀ v, best v → good v) :
    Ranked le best rank where
  compares a b bestA bestB := ranked.compares a b (stronger a bestA) (stronger b bestB)
  injective a b bestA bestB := ranked.injective a b (stronger a bestA) (stronger b bestB)
  trans := ranked.trans

theorem Ranked.flip (ranked : Ranked le good rank) : Ranked (flip le) good fun v => OrderDual.toDual (rank v) where
  compares a b goodA goodB := ranked.compares b a goodB goodA
  injective a b goodA goodB same := ranked.injective a b goodA goodB (OrderDual.toDual.injective same)
  trans a b c first second := ranked.trans c b a second first

def better (le : ν → ν → Bool) (best v : ν) : ν := if le v best then v else best

theorem trackBy_foldl (v : π → ν) (pods : List π) (range : ν × ν) :
    pods.foldl (fun range pod => trackBy le range (v pod)) range =
      ((pods.map v).foldl (better le) range.1, (pods.map v).foldl (better (flip le)) range.2) := by
  induction pods generalizing range with
  | nil => rfl
  | cons pod pods ih => exact ih (trackBy le range (v pod))

theorem Ranked.better_cases (ranked : Ranked le good rank) {best v : ν} (goodBest : good best) (goodValue : good v) :
    better le best v = v ∧ rank v ≤ rank best ∨ better le best v = best ∧ rank best ≤ rank v := by
  have compares := ranked.compares v best goodValue goodBest
  by_cases h : le v best = true
  · exact .inl ⟨if_pos h, compares.mp h⟩
  · exact .inr ⟨if_neg h, (not_le.mp (h ∘ compares.mpr)).le⟩

theorem Ranked.foldl_better (ranked : Ranked le good rank) (values : List ν) (goods : ∀ v ∈ values, good v) (init : ν)
    (goodInit : good init) :
    (values.foldl (better le) init = init ∨ values.foldl (better le) init ∈ values) ∧
    rank (values.foldl (better le) init) ≤ rank init ∧
    ∀ v ∈ values, rank (values.foldl (better le) init) ≤ rank v := by
  induction values generalizing init with
  | nil => simp
  | cons v values ih =>
      have goodRest : ∀ w ∈ values, good w := fun w member => goods w (List.mem_cons_of_mem v member)
      rw [List.foldl_cons]
      rcases ranked.better_cases goodInit (goods v List.mem_cons_self) with ⟨eq, below⟩ | ⟨eq, below⟩
      · obtain ⟨source, bounded, least⟩ := ih goodRest v (goods v List.mem_cons_self)
        rw [eq]
        refine ⟨.inr (List.mem_cons.mpr source), bounded.trans below, ?_⟩
        exact List.forall_mem_cons.mpr ⟨bounded, least⟩
      · obtain ⟨source, bounded, least⟩ := ih goodRest init goodInit
        rw [eq]
        refine ⟨source.imp_right (List.mem_cons_of_mem v), bounded, ?_⟩
        exact List.forall_mem_cons.mpr ⟨bounded.trans below, least⟩

theorem Ranked.foldl_better_good (ranked : Ranked le good rank) (values : List ν) (goods : ∀ v ∈ values, good v)
    (init : ν) (goodInit : good init) : good (values.foldl (better le) init) := by
  rcases (ranked.foldl_better values goods init goodInit).1 with h | member
  · rw [h]
    exact goodInit
  · exact goods _ member

theorem Ranked.exists_best (ranked : Ranked le good rank) (values : List ν) (nonempty : values ≠ [])
    (goods : ∀ v ∈ values, good v) (init : ν) (goodInit : good init) (worst : ∀ v ∈ values, rank v ≤ rank init) :
    values.foldl (better le) init ∈ values := by
  obtain ⟨source, -, least⟩ := ranked.foldl_better values goods init goodInit
  rcases source with h | member
  · -- the initial value is left only if every value is as bad as it
    obtain ⟨v, member⟩ := List.exists_mem_of_ne_nil values nonempty
    have same : rank v = rank init := le_antisymm (worst v member) (h ▸ least v member)
    rw [h, ← ranked.injective v init (goods v member) goodInit same]
    exact member
  · exact member

theorem Ranked.foldl_better_le_of_perm (ranked : Ranked le good rank) {values values' : List ν}
    (perm : values.Perm values') (goods : ∀ v ∈ values, good v) (init : ν) (goodInit : good init) :
    rank (values.foldl (better le) init) ≤ rank (values'.foldl (better le) init) := by
  obtain ⟨-, below, least⟩ := ranked.foldl_better values goods init goodInit
  have goods' : ∀ v ∈ values', good v := fun v member => goods v (perm.mem_iff.mpr member)
  rcases (ranked.foldl_better values' goods' init goodInit).1 with h | member
  · rw [h]
    exact below
  · exact least _ (perm.mem_iff.mpr member)

theorem Ranked.foldl_better_perm (ranked : Ranked le good rank) {values values' : List ν}
    (perm : values.Perm values') (goods : ∀ v ∈ values, good v) (init : ν) (goodInit : good init) :
    values.foldl (better le) init = values'.foldl (better le) init := by
  have goods' : ∀ v ∈ values', good v := fun v member => goods v (perm.mem_iff.mpr member)
  refine ranked.injective _ _ (ranked.foldl_better_good values goods init goodInit)
    (ranked.foldl_better_good values' goods' init goodInit) (le_antisymm ?_ ?_)
  · exact ranked.foldl_better_le_of_perm perm goods init goodInit
  · exact ranked.foldl_better_le_of_perm perm.symm goods' init goodInit

end Range

/-! ## The pods in the first part of the range -/

section LeastOf
variable {κ : Type} [LinearOrder κ] {le : ν → ν → Bool} {good : ν → Prop} {rank : ν → κ}
  {value : Metrics → ν} {top zero : ν} {bound : ν → ν → Nat → ν} {metrics : π → Metrics} {pods pods' : List π}

def leastOf (value : Metrics → ν) (le : ν → ν → Bool) (top zero : ν) (bound : ν → ν → Nat → ν)
    (metrics : π → Metrics) (pods : List π) : List π :=
  let values := pods.map fun pod => value (metrics pod)
  let min := values.foldl (better le) top
  let max := values.foldl (better (flip le)) zero
  pods.filter fun pod => le min (value (metrics pod)) && le (value (metrics pod)) (bound min max pods.length)

theorem returns_leastOf (req : LLMRequest) :
    Returns (Reads pods value fun pod => value (metrics pod)) (leastFilterFunc value le top zero bound req pods)
      (leastOf value le top zero bound metrics pods, none) := by
  have returns : Returns (Reads pods value fun pod => value (metrics pod)) _ _ :=
    returns_leastFilterFunc le top zero bound req
  rw [trackBy_foldl fun pod => value (metrics pod)] at returns
  exact returns

theorem Steady.leastFilterFunc_eq {env : Env π} {t : Nat} (steady : Steady env t pods metrics) (req : LLMRequest) :
    (leastFilterFunc value le top zero bound req pods env t).1 =
      (leastOf value le top zero bound metrics pods, none) :=
  steady.run_eq value (returns_leastOf req)

theorem leastOf_sublist : (leastOf value le top zero bound metrics pods).Sublist pods := List.filter_sublist

section Ranked
variable (ranked : Ranked le good rank) (goods : ∀ pod ∈ pods, good (value (metrics pod))) (goodTop : good top)
include ranked goods goodTop

theorem mem_leastOf_of_le {pod other : π} (kept : pod ∈ leastOf value le top zero bound metrics pods)
    (member : other ∈ pods) (below : le (value (metrics other)) (value (metrics pod)) = true) :
    other ∈ leastOf value le top zero bound metrics pods := by
  have goodValues : ∀ v ∈ pods.map fun pod => value (metrics pod), good v := List.forall_mem_map.mpr goods
  have least := (ranked.foldl_better _ goodValues top goodTop).2.2 _ (List.mem_map_of_mem member)
  have goodMin := ranked.foldl_better_good _ goodValues top goodTop
  rw [leastOf, List.mem_filter, Bool.and_eq_true] at kept ⊢
  refine ⟨member, (ranked.compares _ _ goodMin (goods other member)).mpr least, ?_⟩
  exact ranked.trans _ _ _ below kept.2.2

variable (goodZero : good zero)
include goodZero

theorem leastOf_perm (perm : pods.Perm pods') :
    (leastOf value le top zero bound metrics pods).Perm (leastOf value le top zero bound metrics pods') := by
  have goodValues : ∀ v ∈ pods.map fun pod => value (metrics pod), good v := List.forall_mem_map.mpr goods
  have values := perm.map fun pod => value (metrics pod)
  simp only [leastOf, ← ranked.foldl_better_perm values goodValues top goodTop,
    ← ranked.flip.foldl_better_perm values goodValues zero goodZero, ← perm.length_eq]
  exact perm.filter _

theorem leastOf_ne_nil (nonempty : pods ≠ []) (worst : ∀ pod ∈ pods, rank (value (metrics pod)) ≤ rank top)
    (within : ∀ min max, good min → good max → rank min ≤ rank max → le min (bound min max pods.length) = true) :
    leastOf value le top zero bound metrics pods ≠ [] := by
  have goodValues : ∀ v ∈ pods.map fun pod => value (metrics pod), good v := List.forall_mem_map.mpr goods
  have goodMin := ranked.foldl_better_good _ goodValues top goodTop
  have goodMax := ranked.flip.foldl_better_good _ goodValues zero goodZero
  have least := ranked.exists_best _ (mt List.map_eq_nil_iff.mp nonempty) goodValues top goodTop
    (List.forall_mem_map.mpr worst)
  -- the least value is also below the greatest
  have width := (ranked.flip.foldl_better _ goodValues zero goodZero).2.2 _ least
  obtain ⟨pod, member, attains⟩ := List.mem_map.mp least
  apply List.ne_nil_of_mem (a := pod)
  rw [leastOf, List.mem_filter, Bool.and_eq_true, attains]
  exact ⟨member, (ranked.compares _ _ goodMin goodMin).mpr le_rfl, within _ _ goodMin goodMax width⟩

end Ranked

end LeastOf

/-! ## The last filter keeps a pod -/

def Float64.toRat : Float64 → ℚ
  | .finite q => q
  | _ => 0

theorem Float64.IsFinite.eq {x : Float64} (finite : x.IsFinite) : x = .finite x.toRat := by
  obtain ⟨q, rfl, _⟩ := finite
  rfl

theorem Float64.isFinite_of_abs_le_one {q : ℚ} (fraction : |q| ≤ 1) : IsFinite (.finite q) := by
  have large : (1 : ℚ) ≤ 2 ^ 971 := one_le_pow₀ (by norm_num)
  exact ⟨q, rfl, fraction.trans (one_le_mul_of_one_le_of_one_le (by norm_num) large)⟩

theorem Float64.le_trans {a b c : Float64} (first : a.le b = true) (second : b.le c = true) : a.le c = true := by
  cases a <;> cases b <;> cases c <;> simp_all [Float64.le]
  exact first.trans second

theorem float64_ranked : Ranked Float64.le (fun x => x = .finite x.toRat) Float64.toRat where
  compares a b ha hb := by
    rw [ha, hb]
    simp [Float64.toRat]
  injective a b ha hb same := by rw [ha, hb, same]
  trans _ _ _ := Float64.le_trans

theorem Float64.isFinite_maxFloat64 : maxFloat64.IsFinite := by
  have nonneg : 0 ≤ maxFinite := mul_nonneg (by norm_num) (pow_nonneg (by norm_num) _)
  exact ⟨maxFinite, rfl, (abs_of_nonneg nonneg).le⟩

section LeastKVCache
variable {env : Env π} {t : Nat} {pods : List π} {metrics : π → Metrics}

/-- The first part of a range has its least value. -/
structure KeepsLeast [Arithmetic] (good : Float64 → Prop) : Prop where
  finite : ∀ x, good x → x.IsFinite
  top : good Float64.maxFloat64
  zero : good (.finite 0)
  within : ∀ min max, good min → good max → min.toRat ≤ max.toRat →
    ∀ count, 0 < count → min.le (kvCacheBound min max count) = true

theorem keepsLeast_exact : KeepsLeast Float64.IsFinite where
  finite _ finite := finite
  top := Float64.isFinite_maxFloat64
  zero := Float64.isFinite_of_abs_le_one (by norm_num)
  within min max finiteMin finiteMax width count positive := by
    have nonzero : (count : ℚ) ≠ 0 := Nat.cast_ne_zero.mpr positive.ne'
    have part : 0 ≤ (max.toRat - min.toRat) / (count : ℚ) :=
      div_nonneg (sub_nonneg.mpr width) (Nat.cast_nonneg count)
    rw [finiteMin.eq, finiteMax.eq]
    simp only [kvCacheBound, Arithmetic.round_exact, Float64.sub_finite, Float64.divide_finite _ nonzero,
      Float64.add_finite, Float64.le_finite, decide_eq_true_eq]
    linarith

section Rounding
variable [Arithmetic]

def leastKVCacheOf (metrics : π → Metrics) (pods : List π) : List π :=
  leastOf Metrics.kvCacheUsagePercent Float64.le Float64.maxFloat64 (.finite 0) kvCacheBound metrics pods

theorem Steady.leastKVCacheFilterFunc (steady : Steady env t pods metrics) (req : LLMRequest) :
    (leastKVCacheFilterFunc req pods env t).1 = (leastKVCacheOf metrics pods, none) :=
  steady.leastFilterFunc_eq req

theorem leastKVCacheOf_ne_nil {good : Float64 → Prop} (keeps : KeepsLeast good) (nonempty : pods ≠ [])
    (goods : ∀ pod ∈ pods, good (metrics pod).kvCacheUsagePercent) : leastKVCacheOf metrics pods ≠ [] := by
  have ranked : Ranked Float64.le good Float64.toRat :=
    float64_ranked.restrict fun x goodX => (keeps.finite x goodX).eq
  refine leastOf_ne_nil ranked goods keeps.top keeps.zero nonempty (fun pod member => ?_) ?_
  · obtain ⟨q, same, magnitude⟩ := keeps.finite _ (goods pod member)
    rw [same]
    exact (abs_le.mp magnitude).2
  · intro min max goodMin goodMax width
    exact keeps.within min max goodMin goodMax width _ (List.length_pos_iff.mpr nonempty)

end Rounding

theorem Steady.leastKVCache_keeps (steady : Steady env t pods metrics) (nonempty : pods ≠ [])
    (finite : ∀ pod ∈ pods, (metrics pod).kvCacheUsagePercent.IsFinite) (req : LLMRequest) :
    ∃ kept, (InferenceGateway.leastKVCacheFilterFunc req pods env t).1 = (kept, none) ∧ kept ≠ [] :=
  ⟨_, steady.leastKVCacheFilterFunc req, leastKVCacheOf_ne_nil keepsLeast_exact nonempty finite⟩

end LeastKVCache

/-! ## The queues -/

theorem int64_ranked (good : Int64 → Prop) : Ranked (fun a b : Int64 => decide (a ≤ b)) good Int64.toInt where
  compares a b _ _ := by rw [decide_eq_true_eq, Int64.le_iff_toInt_le]
  injective _ _ _ _ same := Int64.toInt_inj.mp same
  trans a b c first second := by
    rw [decide_eq_true_eq] at first second ⊢
    exact Int64.le_trans first second

section QueueBound
variable {min max : Int64} {count : Nat} (nonneg : 0 ≤ min.toInt) (width : min.toInt ≤ max.toInt)

include nonneg width in
theorem queueSpan_toInt : (max - min).toInt = max.toInt - min.toInt := by
  have top := Int64.toInt_lt max
  rw [Int64.toInt_sub, Int.bmod_eq_of_le] <;> omega

include nonneg width in
theorem queueShare_toInt (small : count < 2 ^ 63) :
    ((max - min) / Int64.ofNat count).toInt = (max.toInt - min.toInt) / count := by
  have top := Int64.toInt_lt max
  have part : (max.toInt - min.toInt) / (count : Int) ≤ max.toInt - min.toInt :=
    Int.ediv_le_self _ (Int.sub_nonneg.mpr width)
  have nonnegPart : 0 ≤ (max.toInt - min.toInt) / (count : Int) :=
    Int.ediv_nonneg (Int.sub_nonneg.mpr width) (Int.natCast_nonneg count)
  rw [Int64.toInt_div, queueSpan_toInt nonneg width, Int64.toInt_ofNat_of_lt small,
    Int.tdiv_eq_ediv_of_nonneg (Int.sub_nonneg.mpr width), Int.bmod_eq_of_le] <;> omega

include nonneg width in
theorem queueBound_toInt (small : count < 2 ^ 63) :
    (queueBound min max count).toInt = min.toInt + (max.toInt - min.toInt) / count := by
  have top := Int64.toInt_lt max
  have part : (max.toInt - min.toInt) / (count : Int) ≤ max.toInt - min.toInt :=
    Int.ediv_le_self _ (Int.sub_nonneg.mpr width)
  have nonnegPart : 0 ≤ (max.toInt - min.toInt) / (count : Int) :=
    Int.ediv_nonneg (Int.sub_nonneg.mpr width) (Int.natCast_nonneg count)
  rw [queueBound, Int64.toInt_add, queueShare_toInt nonneg width small, Int.bmod_eq_of_le] <;> omega

-- the integer as an int, if it is one
def exactInt (n : Int) : Option Int64 := if (Int64.ofInt n).toInt = n then some (Int64.ofInt n) else none

theorem exactInt_of_toInt {n : Int} {x : Int64} (same : x.toInt = n) : exactInt n = some x := by
  rw [exactInt, ← same, Int64.ofInt_toInt, if_pos rfl]

/-- The bound with every intermediate value computed exactly: `none` where one does not fit an `int`,
or where the source divides by zero. -/
def checkedQueueBound (min max : Int64) (count : Nat) : Option Int64 := do
  let span ← exactInt (max.toInt - min.toInt)
  let length ← exactInt count
  let share ← if length = 0 then none else exactInt (span.toInt.tdiv length.toInt)
  exactInt (min.toInt + share.toInt)

include nonneg width in
theorem checkedQueueBound_eq (positive : 0 < count) (small : count < 2 ^ 63) :
    checkedQueueBound min max count = some (queueBound min max count) := by
  have length : (Int64.ofNat count).toInt = count := Int64.toInt_ofNat_of_lt small
  have divisor : Int64.ofNat count ≠ 0 := by
    intro zero
    rw [zero, Int64.toInt_zero] at length
    omega
  have span := queueSpan_toInt nonneg width
  have share : exactInt ((max - min).toInt.tdiv (Int64.ofNat count).toInt) =
      some ((max - min) / Int64.ofNat count) := by
    apply exactInt_of_toInt
    rw [queueShare_toInt nonneg width small, span, length, Int.tdiv_eq_ediv_of_nonneg (Int.sub_nonneg.mpr width)]
  have bound : exactInt (min.toInt + ((max - min) / Int64.ofNat count).toInt) = some (queueBound min max count) := by
    apply exactInt_of_toInt
    rw [queueBound_toInt nonneg width small, queueShare_toInt nonneg width small]
  simp only [checkedQueueBound, exactInt_of_toInt span, exactInt_of_toInt length, Option.bind_eq_bind, Option.bind_some,
    if_neg divisor, share, bound]

end QueueBound

section LeastQueuing
variable {env : Env π} {t : Nat} {pods : List π} {metrics : π → Metrics}

def leastQueuingOf (metrics : π → Metrics) (pods : List π) : List π :=
  leastOf Metrics.waitingQueueSize (fun a b => a ≤ b) Int64.maxValue 0 queueBound metrics pods

theorem Steady.leastQueuingFilterFunc (steady : Steady env t pods metrics) (req : LLMRequest) :
    (leastQueuingFilterFunc req pods env t).1 = (leastQueuingOf metrics pods, none) :=
  steady.leastFilterFunc_eq req

def queueSizes (metrics : π → Metrics) (pods : List π) : Set Int :=
  {size | ∃ pod ∈ pods, (metrics pod).waitingQueueSize.toInt = size}

/-- The range that the loop of `leastQueuingFilterFunc` finds. -/
def queueRange (metrics : π → Metrics) (pods : List π) : Int64 × Int64 :=
  let sizes := pods.map fun pod => (metrics pod).waitingQueueSize
  (sizes.foldl (better fun a b => decide (a ≤ b)) Int64.maxValue,
    sizes.foldl (better (flip fun a b => decide (a ≤ b))) 0)

theorem queueRange_of_steady (steady : Steady env t pods metrics) :
    (pods.foldlM (widen Metrics.waitingQueueSize fun a b => a ≤ b) (Int64.maxValue, 0) env t).1 =
      queueRange metrics pods := by
  have found := steady.run_eq Metrics.waitingQueueSize
    (returns_foldlM pods (fun range _ member => returns_widen member (fun a b => a ≤ b) range) (Int64.maxValue, 0))
  rw [found, trackBy_foldl fun pod => (metrics pod).waitingQueueSize]
  rfl

variable (queues : ∀ pod ∈ pods, 0 ≤ (metrics pod).waitingQueueSize.toInt) (slice : pods.length < 2 ^ 63)
  (nonempty : pods ≠ [])

theorem mem_queueSizes {size : Int64} (member : size ∈ pods.map fun pod => (metrics pod).waitingQueueSize) :
    size.toInt ∈ queueSizes metrics pods := by
  obtain ⟨pod, listed, rfl⟩ := List.mem_map.mp member
  exact ⟨pod, listed, rfl⟩

include queues nonempty

theorem isLeast_queueRange : IsLeast (queueSizes metrics pods) (queueRange metrics pods).1.toInt := by
  have ranked := int64_ranked fun v => 0 ≤ v.toInt
  have goods : ∀ v ∈ pods.map fun pod => (metrics pod).waitingQueueSize, 0 ≤ v.toInt := List.forall_mem_map.mpr queues
  constructor
  · apply mem_queueSizes
    exact ranked.exists_best _ (mt List.map_eq_nil_iff.mp nonempty) goods _ (by decide) fun v _ => Int64.toInt_le v
  · rintro _ ⟨pod, listed, rfl⟩
    exact (ranked.foldl_better _ goods _ (by decide)).2.2 _ (List.mem_map_of_mem listed)

theorem isGreatest_queueRange : IsGreatest (queueSizes metrics pods) (queueRange metrics pods).2.toInt := by
  have ranked := int64_ranked fun v => 0 ≤ v.toInt
  have goods : ∀ v ∈ pods.map fun pod => (metrics pod).waitingQueueSize, 0 ≤ v.toInt := List.forall_mem_map.mpr queues
  constructor
  · apply mem_queueSizes
    exact ranked.flip.exists_best _ (mt List.map_eq_nil_iff.mp nonempty) goods _ (by decide) goods
  · rintro _ ⟨pod, listed, rfl⟩
    exact (ranked.flip.foldl_better _ goods _ (by decide)).2.2 _ (List.mem_map_of_mem listed)

theorem queueRange_bounds :
    0 ≤ (queueRange metrics pods).1.toInt ∧ (queueRange metrics pods).1.toInt ≤ (queueRange metrics pods).2.toInt := by
  have least := isLeast_queueRange queues nonempty
  have greatest := isGreatest_queueRange queues nonempty
  obtain ⟨pod, listed, attains⟩ := least.1
  refine ⟨?_, greatest.2 least.1⟩
  rw [← attains]
  exact queues pod listed

include slice

theorem leastQueuingOf_eq {least greatest : Int} (isLeast : IsLeast (queueSizes metrics pods) least)
    (isGreatest : IsGreatest (queueSizes metrics pods) greatest) :
    leastQueuingOf metrics pods = pods.filter fun pod =>
      (metrics pod).waitingQueueSize.toInt ≤ least + (greatest - least) / pods.length := by
  obtain ⟨nonneg, width⟩ := queueRange_bounds queues nonempty
  have minimum := isLeast_queueRange queues nonempty
  rw [leastQueuingOf, leastOf]
  apply List.filter_congr
  intro pod listed
  have above : (queueRange metrics pods).1 ≤ (metrics pod).waitingQueueSize :=
    Int64.le_iff_toInt_le.mpr (minimum.2 ⟨pod, listed, rfl⟩)
  change (decide ((queueRange metrics pods).1 ≤ (metrics pod).waitingQueueSize) &&
    decide ((metrics pod).waitingQueueSize ≤
      queueBound (queueRange metrics pods).1 (queueRange metrics pods).2 pods.length)) = _
  rw [decide_eq_true above, Bool.true_and, decide_eq_decide, Int64.le_iff_toInt_le,
    queueBound_toInt nonneg width slice, minimum.unique isLeast,
    (isGreatest_queueRange queues nonempty).unique isGreatest]

theorem mem_leastQueuingOf_of_least {pod : π} (listed : pod ∈ pods) {least : Int}
    (isLeast : IsLeast (queueSizes metrics pods) least) (attains : (metrics pod).waitingQueueSize.toInt = least) :
    pod ∈ leastQueuingOf metrics pods := by
  have isGreatest := isGreatest_queueRange queues nonempty
  have part : 0 ≤ ((queueRange metrics pods).2.toInt - least) / (pods.length : Int) :=
    Int.ediv_nonneg (Int.sub_nonneg.mpr (isGreatest.2 isLeast.1)) (Int.natCast_nonneg _)
  rw [leastQueuingOf_eq queues slice nonempty isLeast isGreatest, List.mem_filter, decide_eq_true_eq]
  exact ⟨listed, by omega⟩

theorem leastQueuingOf_ne_nil : leastQueuingOf metrics pods ≠ [] := by
  have isLeast := isLeast_queueRange queues nonempty
  obtain ⟨pod, listed, attains⟩ := isLeast.1
  exact List.ne_nil_of_mem (mem_leastQueuingOf_of_least queues slice nonempty listed isLeast attains)

theorem le_of_mem_leastQueuingOf {pod : π} (kept : pod ∈ leastQueuingOf metrics pods) {least greatest : Int}
    (isLeast : IsLeast (queueSizes metrics pods) least) (isGreatest : IsGreatest (queueSizes metrics pods) greatest) :
    (metrics pod).waitingQueueSize.toInt ≤ least + (greatest - least) / pods.length := by
  rw [leastQueuingOf_eq queues slice nonempty isLeast isGreatest, List.mem_filter, decide_eq_true_eq] at kept
  exact kept.2

omit nonempty in
/-- The bound is evaluated once for each pod, from the range that the first loop found. -/
theorem least_queuing_first_range (steady : Steady env t pods metrics) (req : LLMRequest) :
    let range := (pods.foldlM (widen Metrics.waitingQueueSize fun a b => a ≤ b) (Int64.maxValue, 0) env t).1
    let result := (InferenceGateway.leastQueuingFilterFunc req pods env t).1
    (∀ pod ∈ pods, checkedQueueBound range.1 range.2 pods.length = some (queueBound range.1 range.2 pods.length)) ∧
    result.2 = none ∧ (pods = [] → result.1 = []) ∧
    (pods ≠ [] → ∃ least greatest, IsLeast (queueSizes metrics pods) least ∧
      IsGreatest (queueSizes metrics pods) greatest ∧
      result.1 = pods.filter (fun pod =>
        (metrics pod).waitingQueueSize.toInt ≤ least + (greatest - least) / pods.length) ∧
      (∀ pod ∈ pods, (metrics pod).waitingQueueSize.toInt = least → pod ∈ result.1) ∧ result.1 ≠ []) := by
  intro range result
  have found : range = queueRange metrics pods := queueRange_of_steady steady
  have returned : result = (leastQueuingOf metrics pods, none) := steady.leastQueuingFilterFunc req
  rw [found, returned]
  refine ⟨fun pod listed => ?_, rfl, fun empty => ?_, fun nonempty => ?_⟩
  · have nonempty := List.ne_nil_of_mem listed
    obtain ⟨nonneg, width⟩ := queueRange_bounds queues nonempty
    exact checkedQueueBound_eq nonneg width (List.length_pos_iff.mpr nonempty) slice
  · subst empty
    rfl
  · have isLeast := isLeast_queueRange queues nonempty
    have isGreatest := isGreatest_queueRange queues nonempty
    refine ⟨_, _, isLeast, isGreatest, leastQueuingOf_eq queues slice nonempty isLeast isGreatest, ?_, ?_⟩
    · intro pod listed attains
      exact mem_leastQueuingOf_of_least queues slice nonempty listed isLeast attains
    · exact leastQueuingOf_ne_nil queues slice nonempty

end LeastQueuing

theorem extreme_queues_first_range :
    let metrics (pod : Nat) : Metrics := { waitingQueueSize := if pod = 0 then Int64.maxValue else 0 }
    let env : Env Nat := ⟨fun _ => metrics, fun _ => ⟨0, zero_mem_draws⟩, fun _ => 0⟩
    let req : LLMRequest := ⟨"model", "model", true⟩
    let range := ([0, 1, 2].foldlM (widen Metrics.waitingQueueSize fun a b => a ≤ b) (Int64.maxValue, 0) env 0).1
    Steady env 0 [0, 1, 2] metrics ∧
    checkedQueueBound range.1 range.2 3 = some (queueBound range.1 range.2 3) ∧
    (leastQueuingFilterFunc req [0, 1, 2] env 0).1.1 = [1, 2] := by
  intro metrics env req range
  have steady : Steady env 0 [0, 1, 2] metrics := fun _ _ _ _ => rfl
  have queues : ∀ pod ∈ [0, 1, 2], 0 ≤ (metrics pod).waitingQueueSize.toInt := by decide
  have first := least_queuing_first_range queues (by decide) steady req
  exact ⟨steady, first.1 0 (by decide), by decide +kernel⟩

end InferenceGateway
