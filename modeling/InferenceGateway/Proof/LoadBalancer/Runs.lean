import Mathlib.Logic.Relation
import InferenceGateway.Proof.LoadBalancer.Queue

/-!
Runs of the gateway: requests arrive and are queued or routed, and a process takes them out of the
queues again.
-/

namespace InferenceGateway.Simulator
open Lib.Outcome

theorem targetLatency_setLora (newReq : Request) (loraRequested : String) :
    (newReq.setLora loraRequested).targetLatency = newReq.targetLatency := by
  rw [Request.setLora]
  split_ifs <;> rfl

namespace LoadBalancer
variable {ι : Type} {lb lb' : LoadBalancer ι}

def queue (lb : LoadBalancer ι) (target : Latency) : List Request := (lb.queues.lookup target).getD []

theorem weightedDequeue_ok {draws : Nat → Nat} {outcome : Option Request × LoadBalancer ι}
    (done : lb.weightedDequeue draws = .ok outcome) :
    outcome = (none, lb) ∨ ∃ target req rest, lb.queues.lookup (.finite target) = some (req :: rest) ∧
      outcome = (some req, { lb with queues := lb.queues.insert (.finite target) rest }) := by
  by_cases zero : lb.Held 0
  · rw [weightedDequeue_of_zero zero] at done
    cases done
  by_cases empty : lb.offered = []
  · rw [weightedDequeue_of_nil empty] at done
    cases done
  rcases weightedDequeue_cases zero empty draws with ⟨_, target, req, rest, -, -, queue, taken⟩ | ⟨-, unserved⟩
  · right
    rw [taken] at done
    exact ⟨target, req, rest, queue, (Except.ok.inj done).symm⟩
  · left
    rw [unserved] at done
    exact (Except.ok.inj done).symm

/-- A round changes nothing, or takes the first request of a class with a finite latency and drops it
when it is late or sends it to one of the actors. -/
theorem dequeueProcess_cases [DecidableEq ι] {routingType : RoutingType} {dropLateRequests : Bool}
    {picks : Nat → Nat} {draws : Nat → Draws}
    (done : lb.dequeueProcess routingType dropLateRequests picks draws = .ok lb') :
    lb' = lb ∨ ∃ target req rest, lb.queues.lookup (.finite target) = some (req :: rest) ∧
      let taken := { lb with queues := lb.queues.insert (.finite target) rest }
      dropLateRequests = true ∧ lb.inTime req = false ∧ lb' = taken ∨
      ∃ pod ∈ lb.listOfLlmactors, lb' = taken.putPrefill pod req := by
  rw [dequeueProcess] at done
  by_cases empty : lb.checkIfQueuesEmpty = true
  · rw [if_pos empty] at done
    exact .inl (Except.ok.inj done).symm
  rw [if_neg empty] at done
  obtain ⟨free, -, done⟩ := exists_of_bind_ok done
  cases free with
  | false => exact .inl (Except.ok.inj done).symm
  | true =>
      obtain ⟨outcome, dequeued, done⟩ := exists_of_bind_ok done
      rcases weightedDequeue_ok dequeued with rfl | ⟨target, req, rest, queue, rfl⟩
      · exact .inl (Except.ok.inj done).symm
      · right
        refine ⟨target, req, rest, queue, ?_⟩
        extract_lets taken
        simp only at done
        split at done
        · rename_i late
          left
          rw [Bool.and_eq_true, Bool.not_eq_true'] at late
          exact ⟨late.1, late.2, (Except.ok.inj done).symm⟩
        · right
          obtain ⟨outcome, routed, done⟩ := exists_of_bind_ok done
          obtain ⟨target, latency⟩ := outcome
          cases target with
          | none => cases done
          | some pod => exact ⟨pod, routes_findTargetPod pod latency routed, (Except.ok.inj done).symm⟩

theorem generateRequest_cases [DecidableEq ι] {newReq : Request} {routingType : RoutingType} {loraRequested : String}
    {estimatedOutputSize : Option ℚ} {draws : Nat → Draws}
    (done : lb.generateRequest newReq routingType loraRequested estimatedOutputSize draws = .ok lb') :
    lb' = lb.enqueueRequest newReq loraRequested newReq.targetLatency ∨
    lb' = lb ∨ ∃ pod ∈ lb.listOfLlmactors, lb' = lb.putPrefill pod (newReq.setLora loraRequested) := by
  obtain ⟨enqueue, -, done⟩ := exists_of_bind_ok done
  cases enqueue with
  | true => exact .inl (Except.ok.inj done).symm
  | false =>
      right
      obtain ⟨outcome, routed, done⟩ := exists_of_bind_ok done
      obtain ⟨target, latency⟩ := outcome
      cases target with
      | none => exact .inl (Except.ok.inj done).symm
      | some pod => exact .inr ⟨pod, routes_findTargetPod pod latency routed, (Except.ok.inj done).symm⟩

/-- A request arrives, the process that empties the queues makes a round, or other processes run. -/
inductive Step [DecidableEq ι] : LoadBalancer ι → LoadBalancer ι → Prop
  | generateRequest {lb lb' : LoadBalancer ι} {newReq : Request} {routingType : RoutingType} {loraRequested : String}
      {estimatedOutputSize : Option ℚ} {draws : Nat → Draws}
      (done : lb.generateRequest newReq routingType loraRequested estimatedOutputSize draws = .ok lb') : Step lb lb'
  | dequeueProcess {lb lb' : LoadBalancer ι} {routingType : RoutingType} {dropLateRequests : Bool} {picks : Nat → Nat}
      {draws : Nat → Draws} (done : lb.dequeueProcess routingType dropLateRequests picks draws = .ok lb') : Step lb lb'
  | other {lb lb' : LoadBalancer ι} (queues : lb'.queues = lb.queues)
      (actors : lb'.listOfLlmactors = lb.listOfLlmactors) : Step lb lb'

theorem Step.queues_cases [DecidableEq ι] (step : Step lb lb') :
    lb'.queues = lb.queues ∨
    (∃ req, lb'.queues = lb.queues.insert req.targetLatency (lb.queue req.targetLatency ++ [req])) ∨
    ∃ target req rest, lb.queues.lookup (.finite target) = some (req :: rest) ∧
      lb'.queues = lb.queues.insert (.finite target) rest := by
  cases step with
  | @generateRequest newReq _ loraRequested _ _ done =>
      rcases generateRequest_cases done with rfl | rfl | ⟨pod, -, rfl⟩
      · refine .inr (.inl ⟨newReq.setLora loraRequested, ?_⟩)
        rw [targetLatency_setLora]
        rfl
      · exact .inl rfl
      · exact .inl rfl
  | dequeueProcess done =>
      rcases dequeueProcess_cases done with rfl | ⟨target, req, rest, queue, ⟨-, -, rfl⟩ | ⟨pod, -, rfl⟩⟩
      · exact .inl rfl
      · exact .inr (.inr ⟨target, req, rest, queue, rfl⟩)
      · exact .inr (.inr ⟨target, req, rest, queue, rfl⟩)
  | other queues _ => exact .inl queues

theorem Step.actors [DecidableEq ι] (step : Step lb lb') : lb'.listOfLlmactors = lb.listOfLlmactors := by
  cases step with
  | generateRequest done => rcases generateRequest_cases done with rfl | rfl | ⟨pod, -, rfl⟩ <;> rfl
  | dequeueProcess done =>
      rcases dequeueProcess_cases done with rfl | ⟨_, _, _, _, ⟨-, -, rfl⟩ | ⟨pod, -, rfl⟩⟩ <;> rfl
  | other _ actors => exact actors

/-- What was queued and then added is what was taken and then remains. -/
def Fifo (lb lb' : LoadBalancer ι) (target : Latency) : Prop :=
  ∃ taken added, lb.queue target ++ added = taken ++ lb'.queue target ∧ (target = .inf → taken = [])

theorem Fifo.refl (lb : LoadBalancer ι) (target : Latency) : Fifo lb lb target :=
  ⟨[], [], by simp, fun _ => rfl⟩

theorem Fifo.trans {lb'' : LoadBalancer ι} {target : Latency} (first : Fifo lb lb' target)
    (second : Fifo lb' lb'' target) : Fifo lb lb'' target := by
  obtain ⟨taken, added, same, none⟩ := first
  obtain ⟨taken', added', same', none'⟩ := second
  refine ⟨taken ++ taken', added ++ added', ?_, ?_⟩
  · rw [← List.append_assoc, same, List.append_assoc, same', List.append_assoc]
  · intro inf
    rw [none inf, none' inf]
    rfl

theorem queue_insert {target other : Latency} {requests : List Request}
    (queues : lb'.queues = lb.queues.insert other requests) :
    lb'.queue target = if target = other then requests else lb.queue target := by
  rw [queue, queues]
  split_ifs with own
  · rw [own, Finmap.lookup_insert]
    rfl
  · rw [Finmap.lookup_insert_of_ne _ own]
    rfl

theorem queue_of_lookup {target : Latency} {requests : List Request}
    (found : lb.queues.lookup target = some requests) : lb.queue target = requests := by
  rw [queue, found]
  rfl

theorem Step.fifo [DecidableEq ι] (step : Step lb lb') (target : Latency) : Fifo lb lb' target := by
  rcases step.queues_cases with same | ⟨req, added⟩ | ⟨other, req, rest, found, taken⟩
  · refine ⟨[], [], ?_, fun _ => rfl⟩
    rw [queue, queue, same, List.append_nil, List.nil_append]
  · by_cases own : target = req.targetLatency
    · refine ⟨[], [req], ?_, fun _ => rfl⟩
      rw [queue_insert added, if_pos own, own, List.nil_append]
    · refine ⟨[], [], ?_, fun _ => rfl⟩
      rw [queue_insert added, if_neg own, List.append_nil, List.nil_append]
  · by_cases own : target = .finite other
    · refine ⟨[req], [], ?_, fun inf => ?_⟩
      · rw [queue_insert taken, if_pos own, own, queue_of_lookup found, List.append_nil]
        rfl
      · cases inf.symm.trans own
    · refine ⟨[], [], ?_, fun _ => rfl⟩
      rw [queue_insert taken, if_neg own, List.append_nil, List.nil_append]

/-- Over a whole run every queue is served in order, and the one with infinite latency not at all. -/
theorem fifo_of_run [DecidableEq ι] (run : Relation.ReflTransGen Step lb lb') (target : Latency) :
    Fifo lb lb' target := by
  induction run with
  | refl => exact .refl lb target
  | tail _ step ih => exact ih.trans (step.fifo target)

theorem infinite_class_waits [DecidableEq ι] (run : Relation.ReflTransGen Step lb lb') :
    lb.queue .inf <+: lb'.queue .inf := by
  obtain ⟨taken, added, same, none⟩ := fifo_of_run run .inf
  rw [none rfl, List.nil_append] at same
  exact ⟨added, same⟩

/-! ## Exceptions -/

structure Gateway (lb : LoadBalancer ι) : Prop where
  actors : lb.listOfLlmactors ≠ []
  classes : ∀ target, ∀ req ∈ lb.queue target, req.targetLatency = target

theorem Gateway.step [DecidableEq ι] (gateway : lb.Gateway) (step : Step lb lb') : lb'.Gateway where
  actors := by
    rw [step.actors]
    exact gateway.actors
  classes target req member := by
    rcases step.queues_cases with same | ⟨last, added⟩ | ⟨other, first, rest, found, taken⟩
    · apply gateway.classes target req
      rwa [queue, ← same]
    · rw [queue_insert added] at member
      split_ifs at member with own
      · rcases List.mem_append.mp member with before | single
        · rw [own]
          exact gateway.classes last.targetLatency req before
        · rw [own, List.mem_singleton.mp single]
      · exact gateway.classes target req member
    · rw [queue_insert taken] at member
      split_ifs at member with own
      · apply gateway.classes target req
        rw [own, queue_of_lookup found]
        exact List.mem_cons_of_mem first member
      · exact gateway.classes target req member

theorem Gateway.run [DecidableEq ι] (gateway : lb.Gateway) (run : Relation.ReflTransGen Step lb lb') : lb'.Gateway := by
  induction run with
  | refl => exact gateway
  | tail _ step ih => exact ih.step step

theorem Gateway.allServersQueued (gateway : lb.Gateway) : ∃ queued, lb.allServersQueued = .ok queued := by
  rw [LoadBalancer.allServersQueued]
  cases shortest : (lb.listOfLlmactors.map fun pod => (lb.actor pod).prefillStore.length).min? with
  | none =>
      rw [List.min?_eq_none_iff, List.map_eq_nil_iff] at shortest
      exact absurd shortest gateway.actors
  | some length => exact ⟨_, rfl⟩

theorem Gateway.dequeueingSignal (gateway : lb.Gateway) (routingType : RoutingType) :
    ∃ free, lb.dequeueingSignal routingType = .ok free := by
  obtain ⟨queued, returned⟩ := gateway.allServersQueued
  unfold LoadBalancer.dequeueingSignal
  extract_lets free
  rw [returned]
  split_ifs
  · exact ⟨!queued, rfl⟩
  · exact ⟨false, rfl⟩

theorem Gateway.findTargetPod (gateway : lb.Gateway) {target : ℚ≥0} {req : Request} {rest : List Request}
    (queue : lb.queues.lookup (.finite target) = some (req :: rest)) (routingType : RoutingType)
    (draws : Nat → Draws) : ∃ pod latency,
    { lb with queues := lb.queues.insert (.finite target) rest }.findTargetPod routingType req.inputSize
      req.outputSize req.targetLatency req.lora draws = .ok (some pod, latency) := by
  have own : req.targetLatency = .finite target := by
    apply gateway.classes
    rw [queue_of_lookup queue]
    exact List.mem_cons_self
  rw [own]
  exact findTargetPod_ok gateway.actors ..

section Round
variable [DecidableEq ι] {routingType : RoutingType} {dropLateRequests : Bool} {picks : Nat → Nat} {draws : Nat → Draws}

theorem dequeueProcess_of_error {error : PyError} (waiting : lb.checkIfQueuesEmpty = false)
    (signal : lb.dequeueingSignal routingType = .ok true) (raised : lb.weightedDequeue picks = .error error) :
    lb.dequeueProcess routingType dropLateRequests picks draws = .error error := by
  rw [dequeueProcess, waiting, signal, raised]
  rfl

theorem Gateway.round_ok (gateway : lb.Gateway) {outcome : Option Request × LoadBalancer ι}
    (dequeued : lb.weightedDequeue picks = .ok outcome) :
    ∃ lb', lb.dequeueProcess routingType dropLateRequests picks draws = .ok lb' := by
  obtain ⟨free, signal⟩ := gateway.dequeueingSignal routingType
  rw [dequeueProcess, signal, dequeued]
  by_cases empty : lb.checkIfQueuesEmpty = true
  · exact ⟨lb, if_pos empty⟩
  rw [if_neg empty]
  cases free with
  | false => exact ⟨lb, rfl⟩
  | true =>
      rcases weightedDequeue_ok dequeued with rfl | ⟨target, req, rest, queue, rfl⟩
      · exact ⟨lb, rfl⟩
      · obtain ⟨pod, latency, routed⟩ := gateway.findTargetPod queue routingType draws
        simp only [bind, Except.bind, routed, Bool.not_true, Bool.false_eq_true, if_false]
        split
        · exact ⟨_, rfl⟩
        · exact ⟨_, rfl⟩

/-- Unless actors hold a request with latency zero, or none with a finite latency, a round raises no
exception. -/
theorem Gateway.raises_iff (gateway : lb.Gateway) :
    (∃ error, lb.dequeueProcess routingType dropLateRequests picks draws = .error error) ↔
      lb.checkIfQueuesEmpty = false ∧ lb.dequeueingSignal routingType = .ok true ∧
        (lb.Held 0 ∨ ∀ target, ¬lb.Held target) := by
  constructor
  · intro ⟨error, raised⟩
    obtain ⟨free, signal⟩ := gateway.dequeueingSignal routingType
    cases waiting : lb.checkIfQueuesEmpty with
    | true =>
        rw [dequeueProcess, waiting] at raised
        cases raised
    | false =>
        cases free with
        | false =>
            rw [dequeueProcess, waiting, signal] at raised
            cases raised
        | true =>
            refine ⟨rfl, signal, ?_⟩
            by_contra held
            obtain ⟨outcome, dequeued⟩ := weightedDequeue_of_held held picks
            obtain ⟨lb', done⟩ := gateway.round_ok dequeued
            rw [done] at raised
            cases raised
  · intro ⟨waiting, signal, held⟩
    cases held with
    | inl zero => exact ⟨_, dequeueProcess_of_error waiting signal (weightedDequeue_of_zero zero picks)⟩
    | inr nothing =>
        have empty := weightedDequeue_of_nil (offered_eq_nil_iff.mpr nothing) picks
        exact ⟨_, dequeueProcess_of_error waiting signal empty⟩

theorem Gateway.raises_iff_of_run (gateway : lb.Gateway) (run : Relation.ReflTransGen Step lb lb') :
    (∃ error, lb'.dequeueProcess routingType dropLateRequests picks draws = .error error) ↔
      lb'.checkIfQueuesEmpty = false ∧ lb'.dequeueingSignal routingType = .ok true ∧
        (lb'.Held 0 ∨ ∀ target, ¬lb'.Held target) :=
  (gateway.run run).raises_iff

end Round

end LoadBalancer

end InferenceGateway.Simulator
