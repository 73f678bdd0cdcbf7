import InferenceGateway.LoadBalancer.Selectors
import InferenceGateway.Lib.Outcome

/-!
The selectors find positions in the list of pods they are given and look them up in the list of all
actors.
-/

namespace InferenceGateway.Simulator
open Lib.RunningBest Lib.Outcome

section Choice
variable {A : Type} {draw : Nat} {candidates : List A} {a : A}

theorem randomChoice_eq_none_iff : randomChoice draw candidates = none ↔ candidates = [] := by
  rw [randomChoice, List.getElem?_eq_none_iff]
  constructor
  · intro outside
    by_contra nonempty
    exact absurd (Nat.mod_lt draw (List.length_pos_iff.mpr nonempty)) (not_lt.mpr outside)
  · rintro rfl
    exact Nat.zero_le _

theorem mem_of_randomChoice (chosen : randomChoice draw candidates = some a) : a ∈ candidates :=
  List.mem_of_getElem? chosen

theorem exists_randomChoice (member : a ∈ candidates) : ∃ draw, randomChoice draw candidates = some a := by
  obtain ⟨i, small, rfl⟩ := List.mem_iff_getElem.mp member
  exact ⟨i, by rw [randomChoice, Nat.mod_eq_of_lt small, List.getElem?_eq_getElem small]⟩

theorem getItem_eq_ok_iff {list : List A} {i : Nat} : getItem list i = .ok a ↔ list[i]? = some a := by
  cases found : list[i]? <;> simp [getItem, found]

end Choice

namespace LoadBalancer
variable {ι : Type} {lb : LoadBalancer ι} {pods : List ι}

theorem randomPod_of_choice {draw i : Nat} {candidates : List Nat} {pod : ι}
    (chosen : randomChoice draw candidates = some i) (found : lb.listOfLlmactors[i]? = some pod) :
    lb.randomPod draw candidates = .ok (some pod) := by
  rw [randomPod, chosen]
  simp only [getItem_eq_ok_iff.mpr found]
  rfl

theorem randomPod_cases (lb : LoadBalancer ι) (draw : Nat) (candidates : List Nat) :
    candidates = [] ∧ lb.randomPod draw candidates = .ok none ∨
    ∃ i ∈ candidates, lb.randomPod draw candidates = do return some (← getItem lb.listOfLlmactors i) := by
  rw [randomPod]
  cases chosen : randomChoice draw candidates with
  | none => exact .inl ⟨randomChoice_eq_none_iff.mp chosen, rfl⟩
  | some i => exact .inr ⟨i, mem_of_randomChoice chosen, rfl⟩

/-! ## The positions with the least percentage -/

def perc (lb : LoadBalancer ι) (pod : ι) : ℚ := getPendingTokensPerc (lb.actor pod)

def Safe (lb : LoadBalancer ι) (maxKvPerc : ℚ) (pod : ι) : Prop :=
  (lb.actor pod).expectedKvcacheUsageAfterPrefill < maxKvPerc

instance (lb : LoadBalancer ι) (maxKvPerc : ℚ) (pod : ι) : Decidable (lb.Safe maxKvPerc pod) :=
  inferInstanceAs (Decidable (_ < maxKvPerc))

def pendingPositions (lb : LoadBalancer ι) (eligible : ι → Prop) [DecidablePred eligible] (pods : List ι) : List Nat :=
  (scanLeast (fun entry => (lb.pendingTokensPerc entry : WithTop ℚ)) (fun entry => eligible entry.1) ⊤ pods).positions

section Positions
variable {eligible : ι → Prop} [DecidablePred eligible]

/-- A pod behind an eligible one with the same percentage need not be eligible itself. -/
theorem mem_pendingPositions_iff {i : Nat} :
    i ∈ lb.pendingPositions eligible pods ↔
      ∃ pod, pods[i]? = some pod ∧
        (∃ j other, j ≤ i ∧ pods[j]? = some other ∧ eligible other ∧ lb.perc other = lb.perc pod) ∧
        ∀ other ∈ pods, eligible other → lb.perc pod ≤ lb.perc other := by
  rw [pendingPositions, mem_scanLeast_iff fun _ => WithTop.coe_lt_top _]
  simp only [Attained, WithTop.coe_inj, WithTop.coe_le_coe, decide_eq_true_eq, List.mem_iff_getElem?,
    forall_exists_index]
  simp only [@forall_comm _ Nat]
  rfl

theorem pendingPositions_eq_nil_iff :
    lb.pendingPositions eligible pods = [] ↔ ∀ pod ∈ pods, ¬eligible pod := by
  rw [pendingPositions, scanLeast_eq_nil_iff fun _ => WithTop.coe_lt_top _]
  simp only [decide_eq_false_iff_not, List.mem_iff_getElem?, forall_exists_index]
  exact forall_comm

theorem lt_length_of_mem_pendingPositions : ∀ i ∈ lb.pendingPositions eligible pods, i < pods.length :=
  lt_length_of_mem_scan pods

end Positions

theorem minPending_safe (lb : LoadBalancer ι) (pods : List ι) (maxKvPerc : ℚ) (draw : Nat) :
    lb.findTargetPodBasedOnMinPending pods true maxKvPerc draw =
      lb.randomPod draw (lb.pendingPositions (lb.Safe maxKvPerc) pods) := rfl

theorem maxPending_cases (lb : LoadBalancer ι) (pods : List ι) (inputSize outputSize : ℚ) (targetLatency : Latency)
    (outputError : ℚ) (maxTokens : ℕ+) (buffer : ℚ) (draws : Draws) :
    lb.findTargetPodBasedOnMaxPending pods inputSize outputSize targetLatency outputError maxTokens buffer draws =
      .ok (none, 0) ∨
    ∃ i < pods.length, ∃ latency : ℚ,
      lb.findTargetPodBasedOnMaxPending pods inputSize outputSize targetLatency outputError maxTokens buffer draws =
        do return (some (← getItem lb.listOfLlmactors i), latency) := by
  unfold findTargetPodBasedOnMaxPending
  extract_lets latency matching found
  cases chosen : randomChoice draws.choice found.positions with
  | none => exact .inl rfl
  | some i =>
      have small : i < pods.length := lt_length_of_mem_scan pods i (mem_of_randomChoice chosen)
      have estimated : getItem (pods.zipIdx.map latency) i = .ok (latency (pods[i], i)) := by
        rw [getItem_eq_ok_iff]
        simp [small]
      exact .inr ⟨i, small, latency (pods[i], i), by simp only [estimated]; rfl⟩

section Initial
variable (initial : pods <+: lb.listOfLlmactors)
include initial

theorem getElem?_of_initial {i : Nat} {pod : ι} (given : pods[i]? = some pod) : lb.listOfLlmactors[i]? = some pod := by
  obtain ⟨small, rfl⟩ := List.getElem?_eq_some_iff.mp given
  exact List.prefix_iff_getElem?.mp initial i small

theorem randomPod_of_initial (eligible : ι → Prop) [DecidablePred eligible] (draw : Nat) :
    lb.pendingPositions eligible pods = [] ∧ lb.randomPod draw (lb.pendingPositions eligible pods) = .ok none ∨
    ∃ i ∈ lb.pendingPositions eligible pods, ∃ pod, pods[i]? = some pod ∧
      lb.randomPod draw (lb.pendingPositions eligible pods) = .ok (some pod) := by
  rcases lb.randomPod_cases draw (lb.pendingPositions eligible pods) with absent | ⟨i, candidate, chosen⟩
  · exact .inl absent
  · right
    obtain ⟨pod, given, -⟩ := mem_pendingPositions_iff.mp candidate
    refine ⟨i, candidate, pod, given, ?_⟩
    rw [chosen, getItem_eq_ok_iff.mpr (getElem?_of_initial initial given)]
    rfl

end Initial

/-! ## What every random choice returns -/

end LoadBalancer

/-! ## Calls for a list of pods -/

/-- The arguments of a call. `normal` are the draws for the estimated output sizes. -/
structure PendingCall where
  inputSize : ℚ
  outputSize : ℚ
  targetLatency : Latency
  outputError : ℚ
  maxTokens : ℕ+
  buffer : ℚ
  normal : Nat → ℚ
  evictionSafe : Bool
  maxKvPerc : ℚ

namespace PendingCall
variable {ι : Type} (call : PendingCall) (lb : LoadBalancer ι) (pods : List ι)

def maxPending (choice : Nat) : Except PyError (Option ι × ℚ) :=
  lb.findTargetPodBasedOnMaxPending pods call.inputSize call.outputSize call.targetLatency call.outputError
    call.maxTokens call.buffer ⟨call.normal, choice⟩

def minPending (choice : Nat) : Except PyError (Option ι) :=
  lb.findTargetPodBasedOnMinPending pods call.evictionSafe call.maxKvPerc choice

def latency (pod : ι) (i : Nat) : ℚ :=
  lb.latencyPerOutputToken call.inputSize call.outputSize call.outputError call.maxTokens true ⟨call.normal, 0⟩ (pod, i)

/-- The pod is below the target latency and has room. -/
structure Matches (pod : ι) (i : Nat) : Prop where
  fast : belowTarget (call.latency lb pod i) call.buffer call.targetLatency = true
  safe : lb.Safe maxGPUMemoryPercBeforeRecompute pod
  room : (lb.actor pod).prefillStore.length < lb.maxPrefillQueueSize

structure MostPending (i : Nat) (pod : ι) : Prop where
  listed : pods[i]? = some pod
  fits : call.Matches lb pod i
  nonneg : 0 ≤ lb.perc pod
  most : ∀ j other, pods[j]? = some other → call.Matches lb other j → lb.perc other ≤ lb.perc pod

def Eligible (pod : ι) : Prop := call.evictionSafe = true → lb.Safe call.maxKvPerc pod

/-- The pod itself need not be eligible if one before it is and has the same percentage. -/
structure LeastPending (i : Nat) (pod : ι) : Prop where
  listed : pods[i]? = some pod
  eligible : ∃ j other, j ≤ i ∧ pods[j]? = some other ∧ call.Eligible lb other ∧ lb.perc other = lb.perc pod
  least : ∀ other ∈ pods, call.Eligible lb other → lb.perc pod ≤ lb.perc other

/-- Where `pods` has a pod that is offered, the list of all actors has one of `pods` too, and without the
eviction check one with the same percentage. -/
structure PositionsAgree : Prop where
  most : ∀ i pod, call.MostPending lb pods i pod → ∃ found, lb.listOfLlmactors[i]? = some found ∧ found ∈ pods
  least : ∀ i pod, call.LeastPending lb pods i pod → ∃ found, lb.listOfLlmactors[i]? = some found ∧ found ∈ pods ∧
    (call.evictionSafe = false → lb.perc found = lb.perc pod)

section Positions
variable {call} {lb} {pods}

/-! ### The pods with the most pending tokens -/

def matching (call : PendingCall) (lb : LoadBalancer ι) (entry : ι × Nat) : Bool :=
  belowTarget (call.latency lb entry.1 entry.2) call.buffer call.targetLatency &&
    lb.kvcacheUsage entry < maxGPUMemoryPercBeforeRecompute &&
      (lb.actor entry.1).prefillStore.length < lb.maxPrefillQueueSize

end Positions

end PendingCall

/-- This is so for the first ones of the list of all actors, in particular for all of them. -/
theorem PendingCall.positionsAgree_of_initial {ι : Type} {lb : LoadBalancer ι} {pods : List ι}
    (initial : pods <+: lb.listOfLlmactors) (call : PendingCall) : call.PositionsAgree lb pods where
  most _ pod offered :=
    ⟨pod, LoadBalancer.getElem?_of_initial initial offered.listed, List.mem_of_getElem? offered.listed⟩
  least _ pod offered :=
    ⟨pod, LoadBalancer.getElem?_of_initial initial offered.listed, List.mem_of_getElem? offered.listed, fun _ => rfl⟩

open LoadBalancer

theorem maxNumTokensAllowed_pos : 0 < ContinuousBatching.maxNumTokensAllowed := by decide

theorem maxNumBatchTokens_pos : 0 < ContinuousBatching.maxNumBatchTokens := by decide

def wholeCache : Request where
  toBatched := ContinuousBatching.createRequest "0" ContinuousBatching.maxNumBatchTokens
    (ContinuousBatching.maxNumTokensAllowed - ContinuousBatching.maxNumBatchTokens) none
  arrivalTime := 0
  nonempty := maxNumBatchTokens_pos

def idle : LLMActor where
  allowed := maxNumTokensAllowed_pos

def busy : LLMActor where
  prefillStore := [wholeCache]
  allowed := maxNumTokensAllowed_pos

structure SafeChoice {ι : Type} (lb : LoadBalancer ι) (maxKvPerc : ℚ) (target : Option ι) : Prop where
  safe : ∀ pod ∈ target, lb.Safe maxKvPerc pod
  least : ∀ pod ∈ target, ∀ other ∈ lb.listOfLlmactors, lb.Safe maxKvPerc other → lb.perc pod ≤ lb.perc other
  none_iff : target = none ↔ ∀ pod ∈ lb.listOfLlmactors, ¬lb.Safe maxKvPerc pod

/-- The choice is safe if and only if no unsafe actor stands behind a safe one with the same percentage,
unless another safe actor has less. -/
theorem eviction_safe_choice_iff {ι : Type} (lb : LoadBalancer ι) (maxKvPerc : ℚ) :
    (∀ draw, ∃ target, lb.findTargetPodBasedOnMinPending lb.listOfLlmactors true maxKvPerc draw = .ok target ∧
      SafeChoice lb maxKvPerc target) ↔
    ∀ (i j : Nat) (safe late : ι), i < j → lb.listOfLlmactors[i]? = some safe → lb.listOfLlmactors[j]? = some late →
      lb.Safe maxKvPerc safe → ¬lb.Safe maxKvPerc late → lb.perc safe = lb.perc late →
      ∃ other ∈ lb.listOfLlmactors, lb.Safe maxKvPerc other ∧ lb.perc other < lb.perc safe := by
  constructor
  · intro chooses i j safe late before first second isSafe isLate same
    by_contra lowest
    -- the unsafe actor is then a candidate itself
    have candidate : j ∈ lb.pendingPositions (lb.Safe maxKvPerc) lb.listOfLlmactors := by
      rw [mem_pendingPositions_iff]
      refine ⟨late, second, ⟨i, safe, before.le, first, isSafe, same⟩, fun other member safeToo => ?_⟩
      by_contra less
      exact lowest ⟨other, member, safeToo, same ▸ not_le.mp less⟩
    obtain ⟨draw, chosen⟩ := exists_randomChoice candidate
    obtain ⟨target, returned, safeChoice⟩ := chooses draw
    rw [minPending_safe, randomPod_of_choice chosen second] at returned
    cases returned
    exact isLate (safeChoice.safe late rfl)
  · intro condition draw
    rw [minPending_safe]
    rcases randomPod_of_initial List.prefix_rfl (lb.Safe maxKvPerc) draw with
      ⟨empty, returned⟩ | ⟨i, candidate, pod, found, returned⟩
    · have noneSafe := pendingPositions_eq_nil_iff.mp empty
      exact ⟨none, returned, by simp, by simp, by simpa using noneSafe⟩
    · obtain ⟨_, listed, ⟨j, other, before, first, isSafe, same⟩, least⟩ := mem_pendingPositions_iff.mp candidate
      rw [found] at listed
      cases listed
      have podSafe : lb.Safe maxKvPerc pod := by
        by_contra isLate
        have strict : j < i := by
          apply lt_of_le_of_ne before
          intro equal
          rw [equal, found] at first
          cases first
          exact isLate isSafe
        obtain ⟨lower, member, lowerSafe, less⟩ := condition j i other pod strict first found isSafe isLate same
        exact absurd (least lower member lowerSafe) (not_le.mpr (same ▸ less))
      refine ⟨some pod, returned, ?_, ?_, ?_⟩
      · simpa using podSafe
      · simpa using least
      · simpa using ⟨pod, List.mem_of_getElem? found, podSafe⟩

theorem wholeCache_started : 1 < wholeCache.outputSize := by decide

def lastToken : Running where
  toRequest := { wholeCache with outputSizeRemaining := 1 }
  endPrefillTime := 0
  endDecodeTime := 0
  remaining := Int.one_nonneg
  started := wholeCache_started

/-- The request waits at the first actor and is about to be finished at the second. -/
def tied : LoadBalancer Nat where
  listOfLlmactors := [0, 1]
  actor pod :=
    if pod = 0 then busy else { decodeStore := [lastToken], allowed := maxNumTokensAllowed_pos }

theorem evicting_actor_chosen :
    tied.Safe maxGPUMemoryPercBeforeRecompute 0 ∧ ¬tied.Safe maxGPUMemoryPercBeforeRecompute 1 ∧
    tied.findTargetPodBasedOnMinPending tied.listOfLlmactors true maxGPUMemoryPercBeforeRecompute 1 = .ok (some 1) := by
  decide +kernel

end InferenceGateway.Simulator
