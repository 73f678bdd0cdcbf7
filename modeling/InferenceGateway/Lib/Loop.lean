import Mathlib.Tactic.TypeStar

/-!
# Loops over messages

A loop handles one message after the other. A step depends on the number of messages before it, and
either goes on with a new state or ends the loop, with the state at the end and how it ended. A loop
that gets through all messages ends with the stream.
-/

namespace InferenceGateway.Lib.Loop

variable {S M E : Type*} {step : Nat → S → M → Except (S × E) S}

def steps (step : Nat → S → M → Except (S × E) S) : Nat → List M → S → Except (S × E) S
  | _, [], s => .ok s
  | n, message :: messages, s =>
    match step n s message with
    | .error ended => .error ended
    | .ok s' => steps step (n + 1) messages s'

def runFrom (step : Nat → S → M → Except (S × E) S) (endOfStream : E) (n : Nat) (messages : List M) (s : S) : S × E :=
  match steps step n messages s with
  | .error ended => ended
  | .ok s' => (s', endOfStream)

def run (step : Nat → S → M → Except (S × E) S) (endOfStream : E) (messages : List M) (s : S) : S × E :=
  runFrom step endOfStream 0 messages s

/-- The loop gets through the messages. -/
def Passes (step : Nat → S → M → Except (S × E) S) (messages : List M) (s : S) : Prop :=
  ∃ s', steps step 0 messages s = .ok s'

theorem steps_cons_of_ok {n : Nat} {message : M} {messages : List M} {s s' : S}
    (first : step n s message = .ok s') :
    steps step n (message :: messages) s = steps step (n + 1) messages s' := by
  simp only [steps, first]

theorem steps_cons_of_error {n : Nat} {message : M} {messages : List M} {s : S} {ended : S × E}
    (first : step n s message = .error ended) :
    steps step n (message :: messages) s = .error ended := by
  simp only [steps, first]

theorem steps_append_of_ok {n : Nat} {before after : List M} {s s' : S}
    (first : steps step n before s = .ok s') :
    steps step n (before ++ after) s = steps step (n + before.length) after s' := by
  induction before generalizing n s with
  | nil =>
      cases first
      rfl
  | cons message messages ih =>
      cases moved : step n s message with
      | error ended =>
          rw [steps_cons_of_error moved] at first
          cases first
      | ok next =>
          rw [steps_cons_of_ok moved] at first
          rw [List.cons_append, steps_cons_of_ok moved, ih first, List.length_cons, Nat.add_right_comm,
            Nat.add_assoc]

theorem steps_cons_eq_ok {n : Nat} {message : M} {messages : List M} {s s' : S}
    (done : steps step n (message :: messages) s = .ok s') :
    ∃ next, step n s message = .ok next ∧ steps step (n + 1) messages next = .ok s' := by
  cases moved : step n s message with
  | error ended =>
      rw [steps_cons_of_error moved] at done
      cases done
  | ok next =>
      rw [steps_cons_of_ok moved] at done
      exact ⟨next, rfl, done⟩

theorem steps_append_eq_ok {n : Nat} {before after : List M} {s s' : S}
    (done : steps step n (before ++ after) s = .ok s') :
    ∃ next, steps step n before s = .ok next ∧ steps step (n + before.length) after next = .ok s' := by
  induction before generalizing n s with
  | nil => exact ⟨s, rfl, done⟩
  | cons message messages ih =>
      obtain ⟨first, moved, rest⟩ := steps_cons_eq_ok done
      obtain ⟨next, between, last⟩ := ih rest
      refine ⟨next, ?_, ?_⟩
      · rw [steps_cons_of_ok moved, between]
      · rw [List.length_cons, ← last, Nat.add_right_comm, Nat.add_assoc]

theorem view_steps {V : Type*} {view : S → V} {messages : List M}
    (each : ∀ message ∈ messages, ∀ {n s s'}, step n s message = .ok s' → view s' = view s) {n : Nat} {s s' : S}
    (done : steps step n messages s = .ok s') : view s' = view s := by
  induction messages generalizing n s with
  | nil =>
      cases done
      rfl
  | cons message messages ih =>
      obtain ⟨next, moved, rest⟩ := steps_cons_eq_ok done
      obtain ⟨first, others⟩ := List.forall_mem_cons.mp each
      rw [ih others rest, first moved]

/-- The state after a step, whether the loop goes on or not. -/
def outcome : Except (S × E) S → S
  | .ok s => s
  | .error ended => ended.1

theorem run_append_singleton {endOfStream : E} {before : List M} {s s' : S} (reached : steps step 0 before s = .ok s')
    (message : M) : (run step endOfStream (before ++ [message]) s).1 = outcome (step before.length s' message) := by
  unfold run runFrom
  rw [steps_append_of_ok reached, Nat.zero_add]
  cases moved : step before.length s' message with
  | error ended => rw [steps_cons_of_error moved, outcome]
  | ok next => rw [steps_cons_of_ok moved, steps, outcome]

/-- What every step keeps holds as long as the loop goes on. -/
theorem steps_keeps {I : S → Prop} (goesOn : ∀ {n s message s'}, I s → step n s message = .ok s' → I s') {n : Nat}
    {messages : List M} {s s' : S} (start : I s) (done : steps step n messages s = .ok s') : I s' := by
  induction messages generalizing n s with
  | nil =>
      cases done
      exact start
  | cons message messages ih =>
      obtain ⟨next, moved, rest⟩ := steps_cons_eq_ok done
      exact ih (goesOn start moved) rest

/-- Every message that is handled meets the guard, in the state in which it is handled. -/
def Always (guard : Nat → S → M → Prop) (step : Nat → S → M → Except (S × E) S) : Nat → List M → S → Prop
  | _, [], _ => True
  | n, message :: messages, s =>
    guard n s message ∧ ∀ s', step n s message = .ok s' → Always guard step (n + 1) messages s'

theorem always_cons_of_ok {guard : Nat → S → M → Prop} {n : Nat} {message : M} {messages : List M} {s s' : S}
    (first : step n s message = .ok s') :
    Always guard step n (message :: messages) s ↔
      guard n s message ∧ Always guard step (n + 1) messages s' := by
  simp [Always, first]

theorem always_cons_of_error {guard : Nat → S → M → Prop} {n : Nat} {message : M} {messages : List M} {s : S}
    {ended : S × E} (first : step n s message = .error ended) :
    Always guard step n (message :: messages) s ↔ guard n s message := by
  simp [Always, first]

theorem runFrom_cons_of_ok {endOfStream : E} {n : Nat} {message : M} {messages : List M} {s s' : S}
    (first : step n s message = .ok s') :
    runFrom step endOfStream n (message :: messages) s = runFrom step endOfStream (n + 1) messages s' := by
  simp only [runFrom, steps_cons_of_ok first]

theorem runFrom_cons_of_error {endOfStream : E} {n : Nat} {message : M} {messages : List M} {s : S} {ended : S × E}
    (first : step n s message = .error ended) :
    runFrom step endOfStream n (message :: messages) s = ended := by
  simp only [runFrom, steps_cons_of_error first]

/-- A loop ends well if and only if every message that is handled meets the guard, when the guard is
what keeps a step from ending the loop badly. -/
theorem runFrom_iff_always {guard : Nat → S → M → Prop} {J : E → Prop} {endOfStream : E}
    (stream : J endOfStream) {messages : List M}
    (each : ∀ message ∈ messages, ∀ n s,
      (∀ ended, step n s message = .error ended → J ended.2) ↔ guard n s message) (n : Nat) (s : S) :
    J (runFrom step endOfStream n messages s).2 ↔ Always guard step n messages s := by
  induction messages generalizing n s with
  | nil => exact iff_of_true stream trivial
  | cons message messages ih =>
      have first := each message List.mem_cons_self n s
      cases moved : step n s message with
      | error ended =>
          rw [runFrom_cons_of_error moved, always_cons_of_error moved, ← first, moved]
          simp
      | ok s' =>
          rw [moved] at first
          rw [runFrom_cons_of_ok moved, always_cons_of_ok moved, ← first,
            ih (fun message member => each message (List.mem_cons_of_mem _ member))]
          simp

/-- The rule for loops: what every step keeps holds as long as the loop goes on, and what every last
step establishes from it holds when the loop has ended. The invariant may speak of the number of the
messages before and of the messages to come. -/
theorem runFrom_rule {I : Nat → List M → S → Prop} {J : S × E → Prop} {endOfStream : E}
    (goesOn : ∀ {n s message rest s'}, I n (message :: rest) s → step n s message = .ok s' → I (n + 1) rest s')
    (ends : ∀ {n s message rest ended}, I n (message :: rest) s → step n s message = .error ended → J ended)
    (stream : ∀ {n s}, I n [] s → J (s, endOfStream)) {n : Nat} {messages : List M} {s : S} (start : I n messages s) :
    J (runFrom step endOfStream n messages s) := by
  induction messages generalizing n s with
  | nil => exact stream start
  | cons message messages ih =>
      cases moved : step n s message with
      | error ended =>
          rw [runFrom_cons_of_error moved]
          exact ends start moved
      | ok next =>
          rw [runFrom_cons_of_ok moved]
          exact ih (goesOn start moved)

end InferenceGateway.Lib.Loop
