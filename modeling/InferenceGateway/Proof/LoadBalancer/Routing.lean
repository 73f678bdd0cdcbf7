import InferenceGateway.LoadBalancer.Queue
import InferenceGateway.Proof.LoadBalancer.Selectors

/-!
Whatever the routing strategy and the random choices, a request is only routed to one of the actors.
-/

namespace InferenceGateway.Simulator
open Lib.RunningBest Lib.Outcome

namespace LoadBalancer
variable {ι : Type} {lb : LoadBalancer ι}

/-- A pod that is returned is one of the actors. -/
def Routes (lb : LoadBalancer ι) (outcome : Except PyError (Option ι × ℚ)) : Prop :=
  ∀ pod latency, outcome = .ok (some pod, latency) → pod ∈ lb.listOfLlmactors

theorem mem_of_randomPod {draw : Nat} {candidates : List Nat} {pod : ι}
    (returned : lb.randomPod draw candidates = .ok (some pod)) : pod ∈ lb.listOfLlmactors := by
  rcases lb.randomPod_cases draw candidates with ⟨-, absent⟩ | ⟨i, -, chosen⟩
  · rw [absent] at returned
    cases returned
  · rw [chosen] at returned
    obtain ⟨other, found, same⟩ := exists_of_bind_ok returned
    cases same
    exact List.mem_of_getElem? (getItem_eq_ok_iff.mp found)

theorem routes_none {latency : ℚ} : lb.Routes (pure (none, latency)) := by
  intro pod _ returned
  cases returned

theorem routes_bind {A : Type} {first : Except PyError A} {next : A → Except PyError (Option ι × ℚ)}
    (each : ∀ a, first = .ok a → lb.Routes (next a)) : lb.Routes (first >>= next) := by
  intro pod latency returned
  obtain ⟨a, ok, rest⟩ := exists_of_bind_ok returned
  exact each a ok pod latency rest

theorem routes_ite {condition : Prop} [Decidable condition] {first second : Except PyError (Option ι × ℚ)}
    (yes : lb.Routes first) (no : lb.Routes second) : lb.Routes (if condition then first else second) := by
  split_ifs
  · exact yes
  · exact no

theorem Routes.pure {outcome : Except PyError (Option ι × ℚ)} {target : Option ι} {latency : ℚ}
    (routes : lb.Routes outcome) (returned : outcome = .ok (target, latency)) :
    lb.Routes (Pure.pure (target, latency)) := by
  intro pod _ same
  cases same
  exact routes pod latency returned

theorem routes_randomPod {draw : Nat} {candidates : List Nat} {latency : ℚ} :
    lb.Routes (do return (← lb.randomPod draw candidates, latency)) := by
  apply routes_bind
  intro target returned pod _ same
  cases same
  exact mem_of_randomPod returned

theorem routes_minPending {pods : List ι} {evictionSafe : Bool} {draws : Draws} {latency : ℚ} :
    lb.Routes (do return (← lb.minPending pods evictionSafe draws, latency)) :=
  routes_randomPod

theorem routes_maxPending {pods : List ι} {inputSize outputSize : ℚ} {targetLatency : Latency} {draws : Draws} :
    lb.Routes (lb.maxPending pods inputSize outputSize targetLatency draws) := by
  rw [maxPending]
  rcases lb.maxPending_cases pods inputSize outputSize targetLatency 0 1024 (1 / 2) draws with
    absent | ⟨i, -, latency, returned⟩
  · rw [absent]
    exact routes_none
  · rw [returned]
    apply routes_bind
    intro target listed pod _ same
    cases same
    exact List.mem_of_getElem? (getItem_eq_ok_iff.mp listed)

theorem routes_minLatency {pods : List ι} {inputSize outputSize outputError : ℚ} {maxTokens : ℕ+} {draws : Draws} :
    lb.Routes (lb.findTargetPodBasedOnMinLatency pods inputSize outputSize outputError maxTokens draws) := by
  unfold findTargetPodBasedOnMinLatency
  extract_lets latency found
  apply routes_bind
  intro target returned pod _ same
  split at same
  · cases same
  · cases same
    exact mem_of_randomPod returned

theorem routes_findTargetPod {routingType : RoutingType} {inputSize outputSize : ℚ} {targetLatency : Latency}
    {loraRequested : Option String} {draws : Nat → Draws} :
    lb.Routes (lb.findTargetPod routingType inputSize outputSize targetLatency loraRequested draws) := by
  unfold findTargetPod
  extract_lets route
  have routed : lb.Routes (route ()) := by
    unfold route
    cases routingType with
    | random =>
        intro pod _ returned
        cases chosen : randomChoice (draws 0).choice lb.listOfLlmactors with
        | none =>
            simp only [chosen] at returned
            cases returned
        | some other =>
            simp only [chosen] at returned
            cases returned
            exact mem_of_randomChoice chosen
    | least => exact routes_randomPod
    | leastPseudo => exact routes_minPending
    | leastlatency => exact routes_minLatency
    | smart =>
        apply routes_ite
        · apply routes_bind
          intro loraPods _
          apply routes_bind
          intro outcome returned
          obtain ⟨target, estimated⟩ := outcome
          apply routes_ite
          · exact routes_maxPending.pure returned
          apply routes_bind
          intro outcome returned
          obtain ⟨target, estimated⟩ := outcome
          apply routes_ite
          · exact routes_maxPending.pure returned
          apply routes_bind
          intro target returned
          apply routes_ite
          · intro pod _ same
            cases same
            exact mem_of_randomPod returned
          · exact routes_minPending
        · apply routes_bind
          intro outcome returned
          obtain ⟨target, estimated⟩ := outcome
          apply routes_ite
          · exact routes_maxPending.pure returned
          · exact routes_minPending
  apply routes_ite
  · exact routes_ite routes_none (routes_ite routes_none routed)
  · exact routed

/-! ## No exceptions -/

theorem getItem_of_lt {A : Type} {list : List A} {i : Nat} (small : i < list.length) : getItem list i = .ok list[i] :=
  getItem_eq_ok_iff.mpr (List.getElem?_eq_getElem small)

theorem randomPod_of_lt {candidates : List Nat} (small : ∀ i ∈ candidates, i < lb.listOfLlmactors.length) (draw : Nat) :
    candidates = [] ∧ lb.randomPod draw candidates = .ok none ∨
      ∃ pod, lb.randomPod draw candidates = .ok (some pod) := by
  rcases lb.randomPod_cases draw candidates with absent | ⟨i, candidate, chosen⟩
  · exact .inl absent
  · right
    rw [chosen, getItem_of_lt (small i candidate)]
    exact ⟨_, rfl⟩

theorem maxPending_ok {pods : List ι} (short : pods.length ≤ lb.listOfLlmactors.length) (inputSize outputSize : ℚ)
    (targetLatency : Latency) (draws : Draws) :
    ∃ target latency, lb.maxPending pods inputSize outputSize targetLatency draws = .ok (target, latency) := by
  rw [maxPending]
  rcases lb.maxPending_cases pods inputSize outputSize targetLatency 0 1024 (1 / 2) draws with
    absent | ⟨i, small, latency, returned⟩
  · exact ⟨none, 0, absent⟩
  · rw [getItem_of_lt (small.trans_le short)] at returned
    exact ⟨_, latency, returned⟩

theorem minPending_ok {pods : List ι} (short : pods.length ≤ lb.listOfLlmactors.length) (evictionSafe : Bool)
    (draws : Draws) : ∃ target, lb.minPending pods evictionSafe draws = .ok target := by
  have among (eligible : ι → Prop) [DecidablePred eligible] :
      ∃ target, lb.randomPod draws.choice (lb.pendingPositions eligible pods) = .ok target := by
    have small : ∀ i ∈ lb.pendingPositions eligible pods, i < lb.listOfLlmactors.length :=
      fun i candidate => (lt_length_of_mem_pendingPositions i candidate).trans_le short
    rcases randomPod_of_lt small draws.choice with ⟨-, absent⟩ | ⟨pod, returned⟩
    · exact ⟨none, absent⟩
    · exact ⟨some pod, returned⟩
  cases evictionSafe with
  | true => exact among (lb.Safe maxGPUMemoryPercBeforeRecompute)
  | false => exact among fun _ => True

section Actors
variable (actors : lb.listOfLlmactors ≠ [])
include actors

theorem getLoraAffinity_ok (loraRequested : Option String) :
    ∃ pods, lb.getLoraAffinity loraRequested = .ok pods ∧ pods.Sublist lb.listOfLlmactors := by
  unfold getLoraAffinity
  split
  · exact ⟨_, rfl, .refl _⟩
  · exact ⟨_, rfl, .refl _⟩
  · split
    · rename_i pod pods loaded
      exact ⟨pod :: pods, rfl, loaded ▸ List.filter_sublist⟩
    · split
      · rename_i none
        rw [List.min?_eq_none_iff, List.map_eq_nil_iff] at none
        exact absurd none actors
      · exact ⟨_, rfl, List.filter_sublist⟩

theorem randomPod_scanLeast (value : ι × Nat → ℚ) (draw : Nat) :
    ∃ pod, lb.randomPod draw (scanLeast (fun entry => (value entry : WithTop ℚ)) (fun _ => true) ⊤
      lb.listOfLlmactors).positions = .ok (some pod) := by
  have small : ∀ i ∈ (scanLeast (fun entry => (value entry : WithTop ℚ)) (fun _ => true) ⊤
      lb.listOfLlmactors).positions, i < lb.listOfLlmactors.length := lt_length_of_mem_scan lb.listOfLlmactors
  rcases randomPod_of_lt small draw with ⟨empty, -⟩ | returned
  · rw [scanLeast_eq_nil_iff fun _ => WithTop.coe_lt_top _] at empty
    obtain ⟨pod, rest, first⟩ := List.exists_cons_of_ne_nil actors
    cases empty 0 pod (by rw [first]; rfl)
  · exact returned

theorem minPending_any_ok (draws : Draws) : ∃ pod, lb.minPending lb.listOfLlmactors false draws = .ok (some pod) :=
  randomPod_scanLeast actors lb.pendingTokensPerc draws.choice

theorem minLatency_ok (inputSize outputSize outputError : ℚ) (maxTokens : ℕ+) (draws : Draws) :
    ∃ pod latency, lb.findTargetPodBasedOnMinLatency lb.listOfLlmactors inputSize outputSize outputError maxTokens
      draws = .ok (some pod, latency) := by
  unfold findTargetPodBasedOnMinLatency
  extract_lets latency found
  obtain ⟨pod, returned⟩ := randomPod_scanLeast actors latency draws.choice
  cases last : lb.listOfLlmactors.zipIdx.getLast? with
  | none =>
      simp [actors] at last
  | some entry =>
      refine ⟨pod, latency entry, ?_⟩
      rw [returned]
      rfl

/-- A request with a finite target latency is always routed. -/
theorem findTargetPod_ok (routingType : RoutingType) (inputSize outputSize : ℚ) (seconds : ℚ≥0)
    (loraRequested : Option String) (draws : Nat → Draws) :
    ∃ pod latency, lb.findTargetPod routingType inputSize outputSize (.finite seconds) loraRequested draws =
      .ok (some pod, latency) := by
  unfold findTargetPod
  extract_lets route
  have routed : ∃ pod latency, route () = .ok (some pod, latency) := by
    unfold route
    cases routingType with
    | random =>
        cases chosen : randomChoice (draws 0).choice lb.listOfLlmactors with
        | none => exact absurd (randomChoice_eq_none_iff.mp chosen) actors
        | some pod => exact ⟨pod, 0, rfl⟩
    | least =>
        obtain ⟨pod, returned⟩ := randomPod_scanLeast actors lb.kvcacheUsage (draws 0).choice
        refine ⟨pod, 0, ?_⟩
        simp only [findTargetPodBasedOnMinKvCache, returned]
        rfl
    | leastPseudo =>
        obtain ⟨pod, returned⟩ := minPending_any_ok actors (draws 0)
        simp only [returned]
        exact ⟨pod, 0, rfl⟩
    | leastlatency => exact minLatency_ok actors ..
    | smart =>
        have all := maxPending_ok (le_refl lb.listOfLlmactors.length) inputSize outputSize (.finite seconds)
        by_cases lora : loraRequested ≠ some ""
        · obtain ⟨loraPods, affine, sublist⟩ := getLoraAffinity_ok actors loraRequested
          have affinity := maxPending_ok sublist.length_le inputSize outputSize (.finite seconds)
          obtain ⟨target, latency, first⟩ := affinity (draws 0)
          simp only [if_pos lora, affine, bind, Except.bind, first]
          cases target with
          | some pod => exact ⟨pod, latency, rfl⟩
          | none =>
              obtain ⟨target, latency, second⟩ := all (draws 1)
              simp only [second]
              cases target with
              | some pod => exact ⟨pod, latency, rfl⟩
              | none =>
                  obtain ⟨target, third⟩ := minPending_ok sublist.length_le true (draws 2)
                  simp only [third]
                  cases target with
                  | some pod => exact ⟨pod, latency, rfl⟩
                  | none =>
                      obtain ⟨pod, returned⟩ := minPending_any_ok actors (draws 3)
                      simp only [returned]
                      exact ⟨pod, latency, rfl⟩
        · obtain ⟨target, latency, first⟩ := all (draws 0)
          simp only [if_neg lora, bind, Except.bind, first]
          cases target with
          | some pod => exact ⟨pod, latency, rfl⟩
          | none =>
              obtain ⟨pod, returned⟩ := minPending_any_ok actors (draws 1)
              simp only [returned]
              exact ⟨pod, latency, rfl⟩
  exact routed

end Actors

end LoadBalancer

end InferenceGateway.Simulator
