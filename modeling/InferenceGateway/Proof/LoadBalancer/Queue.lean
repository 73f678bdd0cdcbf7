import InferenceGateway.Proof.LoadBalancer.Routing

/-!
The classes that `weighted_dequeue` chooses from are those of the requests that the actors hold, and
not those of the queues.
-/

namespace InferenceGateway.Simulator

theorem Latency.seconds?_eq_some_iff {latency : Latency} {seconds : ℚ≥0} :
    latency.seconds? = some seconds ↔ latency = .finite seconds := by
  cases latency <;> simp [Latency.seconds?]

/-! ## Weights -/

section Quotients
variable {A : Type}

theorem mapM_quotient_of_ne_zero {list : List A} (top bottom : A → ℚ) (nonzero : ∀ a ∈ list, bottom a ≠ 0) :
    (list.mapM fun a => quotient (top a) (bottom a)) = .ok (list.map fun a => top a / bottom a) := by
  induction list with
  | nil => rfl
  | cons a list ih =>
      have first : quotient (top a) (bottom a) = .ok (top a / bottom a) := if_neg (nonzero a (by simp))
      have rest := ih fun b member => nonzero b (by simp [member])
      rw [List.mapM_cons, first, rest]
      rfl

theorem mapM_quotient_of_zero {list : List A} (top bottom : A → ℚ) (zero : ∃ a ∈ list, bottom a = 0) :
    (list.mapM fun a => quotient (top a) (bottom a)) = .error .zeroDivisionError := by
  induction list with
  | nil => simp at zero
  | cons a list ih =>
      rw [List.mapM_cons]
      by_cases first : bottom a = 0
      · rw [quotient, if_pos first]
        rfl
      · have rest : ∃ b ∈ list, bottom b = 0 := by simpa [first] using zero
        rw [quotient, if_neg first, ih rest]
        rfl

end Quotients

namespace LoadBalancer
variable {ι : Type} {lb : LoadBalancer ι}

def Held (lb : LoadBalancer ι) (seconds : ℚ≥0) : Prop :=
  ∃ pod ∈ lb.listOfLlmactors,
    (∃ req ∈ (lb.actor pod).prefillStore, req.targetLatency = .finite seconds) ∨
    (∃ req ∈ (lb.actor pod).decodeStore, req.targetLatency = .finite seconds) ∨
    (∃ req ∈ (lb.actor pod).recomputeStore, req.targetLatency = .finite seconds) ∨
    ∃ req ∈ (lb.actor pod).decodedStore, req.targetLatency = .finite seconds

def offered (lb : LoadBalancer ι) : List ℚ≥0 := lb.getActiveReqTargetLatencyInWindow ⊤

theorem mem_offered_iff {seconds : ℚ≥0} : seconds ∈ lb.offered ↔ lb.Held seconds := by
  simp only [offered, getActiveReqTargetLatencyInWindow, WithTop.coe_lt_top, decide_true, List.filter_true]
  simp [Held, Latency.seconds?_eq_some_iff]

def weights (lb : LoadBalancer ι) : List ℚ := lb.offered.map fun target : ℚ≥0 => 1 / (target : ℚ)

def probs (lb : LoadBalancer ι) : List ℚ := lb.weights.map fun weight => weight / lb.weights.sum

section Positive
variable (positive : ¬lb.Held 0)
include positive

theorem ne_zero_of_mem_offered : ∀ target ∈ lb.offered, (target : ℚ) ≠ 0 := by
  intro target member zero
  rw [NNRat.cast_eq_zero] at zero
  rw [mem_offered_iff, zero] at member
  exact positive member

theorem pos_of_mem_weights : ∀ weight ∈ lb.weights, 0 < weight := by
  intro weight member
  obtain ⟨target, offered, rfl⟩ := List.mem_map.mp member
  have nonzero := ne_zero_of_mem_offered positive target offered
  positivity

theorem sum_weights_pos (nonempty : lb.offered ≠ []) : 0 < lb.weights.sum :=
  List.sum_pos _ (pos_of_mem_weights positive) (List.map_eq_nil_iff.not.mpr nonempty)

theorem sum_probs_pos (nonempty : lb.offered ≠ []) : 0 < lb.probs.sum := by
  apply List.sum_pos
  · intro prob member
    obtain ⟨weight, listed, rfl⟩ := List.mem_map.mp member
    exact div_pos (pos_of_mem_weights positive weight listed) (sum_weights_pos positive nonempty)
  · rwa [probs, weights, List.map_map, Ne, List.map_eq_nil_iff]

theorem weightedDequeue_of_positive (draws : Nat → Nat) :
    lb.weightedDequeue draws = lb.attempts lb.offered lb.probs draws 1000 0 := by
  have inverse : (lb.offered.mapM fun target : ℚ≥0 => quotient 1 target) = .ok lb.weights :=
    mapM_quotient_of_ne_zero (fun _ => 1) (fun target : ℚ≥0 => (target : ℚ)) (ne_zero_of_mem_offered positive)
  have normalized : (lb.weights.mapM fun weight => quotient weight lb.weights.sum) = .ok lb.probs := by
    apply mapM_quotient_of_ne_zero (fun weight => weight) fun _ => lb.weights.sum
    intro weight member
    have nonempty : lb.offered ≠ [] := by
      intro empty
      simp [weights, empty] at member
    exact (sum_weights_pos positive nonempty).ne'
  rw [weightedDequeue, ← offered, inverse]
  simp only [bind, Except.bind, normalized]

end Positive

theorem weightedDequeue_of_zero (zero : lb.Held 0) (draws : Nat → Nat) :
    lb.weightedDequeue draws = .error .zeroDivisionError := by
  have failed : (lb.offered.mapM fun target : ℚ≥0 => quotient 1 target) = .error .zeroDivisionError :=
    mapM_quotient_of_zero (fun _ => 1) (fun target : ℚ≥0 => (target : ℚ)) ⟨0, mem_offered_iff.mpr zero, rfl⟩
  rw [weightedDequeue, ← offered, failed]
  rfl

/-! ## Attempts -/

def Queued (lb : LoadBalancer ι) (target : Latency) : Prop := ∃ req rest, lb.queues.lookup target = some (req :: rest)

/-- The first request of one queue is taken out of it. -/
def TakesOne (lb : LoadBalancer ι) (outcome : Except PyError (Option Request × LoadBalancer ι)) : Prop :=
  ∃ target req rest, lb.queues.lookup target = some (req :: rest) ∧
    outcome = .ok (some req, { lb with queues := lb.queues.insert target rest })

def Picks (lb : LoadBalancer ι) (draws : Nat → Nat) (attempt : Nat) (target : ℚ≥0) : Prop :=
  randomChoice (draws attempt) lb.offered = some target

theorem exists_picks (nonempty : lb.offered ≠ []) (draws : Nat → Nat) (attempt : Nat) :
    ∃ target, lb.Picks draws attempt target := by
  apply Option.ne_none_iff_exists'.mp
  exact fun none => nonempty (randomChoice_eq_none_iff.mp none)

theorem held_of_picks {draws : Nat → Nat} {attempt : Nat} {target : ℚ≥0} (picks : lb.Picks draws attempt target) :
    lb.Held target := mem_offered_iff.mp (mem_of_randomChoice picks)

section Attempts
variable {probs : List ℚ} (positive : 0 < probs.sum) {draws : Nat → Nat} {left attempt : Nat} {target : ℚ≥0}
include positive

theorem randomChoices_of_picks (picks : lb.Picks draws attempt target) :
    randomChoices lb.offered probs (draws attempt) = .ok target := by
  rw [Picks] at picks
  rw [randomChoices, picks]
  exact if_neg positive.not_ge

theorem attempts_of_queued (picks : lb.Picks draws attempt target) {req : Request} {rest : List Request}
    (queue : lb.queues.lookup (.finite target) = some (req :: rest)) :
    lb.attempts lb.offered probs draws (left + 1) attempt =
      .ok (some req, { lb with queues := lb.queues.insert (.finite target) rest }) := by
  rw [attempts, randomChoices_of_picks positive picks]
  simp only [bind, Except.bind, queue]
  rfl

theorem attempts_of_not_queued (picks : lb.Picks draws attempt target) (absent : ¬lb.Queued (.finite target)) :
    lb.attempts lb.offered probs draws (left + 1) attempt = lb.attempts lb.offered probs draws left (attempt + 1) := by
  rw [attempts, randomChoices_of_picks positive picks]
  simp only [bind, Except.bind]
  split
  · rename_i req rest queue
    exact absurd ⟨req, rest, queue⟩ absent
  · rfl

theorem attempts_cases (nonempty : lb.offered ≠ []) (left attempt : Nat) :
    (∃ n target req rest, attempt ≤ n ∧ n < attempt + left ∧ lb.Picks draws n target ∧
      lb.queues.lookup (.finite target) = some (req :: rest) ∧
      lb.attempts lb.offered probs draws left attempt =
        .ok (some req, { lb with queues := lb.queues.insert (.finite target) rest })) ∨
    (∀ n target, attempt ≤ n → n < attempt + left → lb.Picks draws n target → ¬lb.Queued (.finite target)) ∧
      lb.attempts lb.offered probs draws left attempt = .ok (none, lb) := by
  -- the first choice of a class with a request in its queue decides
  induction left generalizing attempt with
  | zero =>
      right
      exact ⟨fun n target start stop => absurd stop (by omega), rfl⟩
  | succ left ih =>
      obtain ⟨target, picks⟩ := exists_picks nonempty draws attempt
      by_cases queued : lb.Queued (.finite target)
      · left
        obtain ⟨req, rest, queue⟩ := queued
        exact ⟨attempt, target, req, rest, le_rfl, by omega, picks, queue, attempts_of_queued positive picks queue⟩
      · rw [attempts_of_not_queued positive picks queued]
        cases ih (attempt + 1) with
        | inl served =>
            left
            obtain ⟨n, other, req, rest, start, stop, later, queue, outcome⟩ := served
            exact ⟨n, other, req, rest, by omega, by omega, later, queue, outcome⟩
        | inr unserved =>
            right
            refine ⟨fun n other start stop later => ?_, unserved.2⟩
            rcases start.eq_or_lt with rfl | after
            · cases picks.symm.trans later
              exact queued
            · exact unserved.1 n other after (by omega) later

end Attempts

theorem weightedDequeue_of_nil (empty : lb.offered = []) (draws : Nat → Nat) :
    lb.weightedDequeue draws = .error .indexError := by
  have positive : ¬lb.Held 0 := by
    rw [← mem_offered_iff, empty]
    exact List.not_mem_nil
  rw [weightedDequeue_of_positive positive, empty]
  rfl

theorem offered_eq_nil_iff : lb.offered = [] ↔ ∀ target, ¬lb.Held target := by
  simp only [List.eq_nil_iff_forall_not_mem, mem_offered_iff]

theorem weightedDequeue_cases (positive : ¬lb.Held 0) (nonempty : lb.offered ≠ []) (draws : Nat → Nat) :
    (∃ n target req rest, n < 1000 ∧ lb.Picks draws n target ∧
      lb.queues.lookup (.finite target) = some (req :: rest) ∧
      lb.weightedDequeue draws = .ok (some req, { lb with queues := lb.queues.insert (.finite target) rest })) ∨
    (∀ n target, n < 1000 → lb.Picks draws n target → ¬lb.Queued (.finite target)) ∧
      lb.weightedDequeue draws = .ok (none, lb) := by
  rw [weightedDequeue_of_positive positive]
  rcases attempts_cases (sum_probs_pos positive nonempty) nonempty 1000 0 with
    ⟨n, target, req, rest, -, stop, picks, queue, outcome⟩ | ⟨unserved, outcome⟩
  · exact .inl ⟨n, target, req, rest, by omega, picks, queue, outcome⟩
  · exact .inr ⟨fun n target stop => unserved n target (Nat.zero_le n) (by omega), outcome⟩

theorem weightedDequeue_of_held (held : ¬(lb.Held 0 ∨ ∀ target, ¬lb.Held target)) (draws : Nat → Nat) :
    ∃ outcome, lb.weightedDequeue draws = .ok outcome := by
  rw [not_or, ← offered_eq_nil_iff] at held
  rcases weightedDequeue_cases held.1 held.2 draws with ⟨_, _, _, _, _, _, _, served⟩ | ⟨_, unserved⟩
  · exact ⟨_, served⟩
  · exact ⟨_, unserved⟩

theorem takesOne_iff {draws : Nat → Nat} :
    lb.TakesOne (lb.weightedDequeue draws) ↔
      ¬lb.Held 0 ∧ ∃ n target, n < 1000 ∧ lb.Picks draws n target ∧ lb.Queued (.finite target) := by
  constructor
  · intro ⟨_, _, _, _, taken⟩
    have positive : ¬lb.Held 0 := by
      intro zero
      rw [weightedDequeue_of_zero zero] at taken
      cases taken
    have nonempty : lb.offered ≠ [] := by
      intro empty
      rw [weightedDequeue_of_nil empty] at taken
      cases taken
    rcases weightedDequeue_cases positive nonempty draws with
      ⟨n, target, req, rest, stop, picks, queue, -⟩ | ⟨-, outcome⟩
    · exact ⟨positive, n, target, stop, picks, req, rest, queue⟩
    · rw [outcome] at taken
      cases taken
  · intro ⟨positive, n, target, stop, picks, queued⟩
    have nonempty : lb.offered ≠ [] := List.ne_nil_of_mem (mem_of_randomChoice picks)
    rcases weightedDequeue_cases positive nonempty draws with
      ⟨_, other, req, rest, -, -, queue, outcome⟩ | ⟨unserved, -⟩
    · exact ⟨.finite other, req, rest, queue, outcome⟩
    · exact absurd queued (unserved n target stop picks)

theorem exists_picks_of_held {target : ℚ≥0} (held : lb.Held target) : ∃ n, lb.Picks (fun n => n) n target :=
  exists_randomChoice (mem_offered_iff.mpr held)

theorem picks_late {target : ℚ≥0} (held : lb.Held target) :
    ∃ draws, (∀ other ∈ lb.offered, ∃ n, lb.Picks draws n other) ∧
      ∀ n other, n < 1000 → lb.Picks draws n other → other = target := by
  obtain ⟨draw, chosen⟩ := exists_picks_of_held held
  -- all attempts of one call pick the same class, and every class is picked later
  refine ⟨fun n => if n < 1000 then draw else n - 1000, ?_, ?_⟩
  · intro other member
    obtain ⟨n, picked⟩ := exists_picks_of_held (mem_offered_iff.mp member)
    refine ⟨n + 1000, ?_⟩
    simpa [Picks] using picked
  · intro n other early picked
    rw [Picks, if_pos early] at picked
    exact Option.some.inj (picked.symm.trans chosen)

end LoadBalancer

open LoadBalancer

/-- Two readings of choices that eventually pick each offered class: at some time, where the attempts of
one call may all pick the same class, and within the attempts of the call. -/
theorem weighted_dequeue_takes_one_iff {ι : Type} (lb : LoadBalancer ι) :
    ((∀ draws, (∀ target ∈ lb.offered, ∃ n, lb.Picks draws n target) → lb.TakesOne (lb.weightedDequeue draws)) ↔
      (∃ target, lb.Held target) ∧ ∀ target, lb.Held target → target ≠ 0 ∧ lb.Queued (.finite target)) ∧
    ∀ draws, (∀ target ∈ lb.offered, ∃ n < 1000, lb.Picks draws n target) →
      (lb.TakesOne (lb.weightedDequeue draws) ↔
        ¬lb.Held 0 ∧ ∃ target, lb.Held target ∧ lb.Queued (.finite target)) := by
  constructor
  · constructor
    · intro takes
      have fair : ∀ target ∈ lb.offered, ∃ n, lb.Picks (fun n => n) n target :=
        fun target member => exists_picks_of_held (mem_offered_iff.mp member)
      obtain ⟨positive, _, target, -, picks, -⟩ := takesOne_iff.mp (takes _ fair)
      refine ⟨⟨target, held_of_picks picks⟩, fun other held => ⟨?_, ?_⟩⟩
      · intro zero
        exact positive (zero ▸ held)
      · obtain ⟨draws, fair, early⟩ := picks_late held
        obtain ⟨-, n, picked, stop, picks, queued⟩ := takesOne_iff.mp (takes draws fair)
        rwa [early n picked stop picks] at queued
    · intro ⟨⟨target, held⟩, all⟩ draws _
      have nonempty : lb.offered ≠ [] := List.ne_nil_of_mem (mem_offered_iff.mpr held)
      obtain ⟨first, picks⟩ := exists_picks nonempty draws 0
      rw [takesOne_iff]
      exact ⟨fun zero => (all 0 zero).1 rfl, 0, first, by decide, picks, (all first (held_of_picks picks)).2⟩
  · intro draws fair
    rw [takesOne_iff]
    constructor
    · intro ⟨positive, _, target, _, picks, queued⟩
      exact ⟨positive, target, held_of_picks picks, queued⟩
    · intro ⟨positive, target, held, queued⟩
      obtain ⟨n, early, picks⟩ := fair target (mem_offered_iff.mpr held)
      exact ⟨positive, n, target, early, picks, queued⟩

def queuedFor (target : Latency) (llmactor : LLMActor) : LoadBalancer Nat where
  listOfLlmactors := [0]
  actor _ := llmactor
  queues := Finmap.singleton target [{ wholeCache with targetLatency := target }]
  queueingPerc := (1 : ℚ)

def halfSecond : LLMActor where
  prefillStore := [{ wholeCache with targetLatency := .finite (1 / 2) }]
  allowed := maxNumTokensAllowed_pos

theorem dequeue_raises_or_finds_nothing :
    ((queuedFor (.finite (1 / 2)) idle).checkIfQueuesEmpty = false ∧
      (queuedFor (.finite (1 / 2)) idle).dequeueingSignal .smart = .ok true ∧
      (queuedFor (.finite (1 / 2)) idle).offered = [] ∧
      ((queuedFor (.finite (1 / 2)) idle).weightedDequeue id).map (·.1.isSome) = .error .indexError) ∧
    (queuedFor .inf halfSecond).checkIfQueuesEmpty = false ∧
      (queuedFor .inf halfSecond).dequeueingSignal .smart = .ok true ∧
      (queuedFor .inf halfSecond).offered = [1 / 2] ∧
      ((queuedFor .inf halfSecond).weightedDequeue id).map (·.1.isSome) = .ok false := by
  decide +kernel

end InferenceGateway.Simulator
