import Mathlib.Logic.Function.Basic
import Mathlib.Logic.Relation
import Mathlib.Tactic.SplitIfs

/-!
# Operations under a reader/writer lock

Threads run operations on a shared memory. An operation is a program of single accesses, and it holds
the lock from its first access to its last: with other readers, or alone as a writer. Between two
accesses of one thread the others may go on. Which of the waiting threads gets the lock first is left
open, so that every policy of the lock is covered.

Every run is as if the operations had been executed at once, in the order in which they returned.
-/

namespace InferenceGateway.Lib.Locked

/-! ## Programs -/

/-- A program that ends, with one access to the memory after the other. What follows an access depends
on the memory as the access found it. -/
inductive Prog (S R : Type)
  | done (result : R)
  | access (effect : S → S) (next : S → Prog S R)

namespace Prog
variable {S A B : Type}

def exec : Prog S A → S → A × S
  | .done result, s => (result, s)
  | .access effect next, s => (next s).exec (effect s)

def bind : Prog S A → (A → Prog S B) → Prog S B
  | .done result, f => f result
  | .access effect next, f => .access effect fun s => (next s).bind f

instance : Monad (Prog S) where
  pure := .done
  bind := bind

def read (f : S → A) : Prog S A := .access id fun s => .done (f s)

def write (f : S → S) : Prog S Unit := .access f fun _ => .done ()

def ReadOnly : Prog S A → Prop
  | .done _ => True
  | .access effect next => (∀ s, effect s = s) ∧ ∀ s, (next s).ReadOnly

@[simp]
theorem exec_pure (a : A) (s : S) : (pure a : Prog S A).exec s = (a, s) := rfl

@[simp]
theorem exec_read (f : S → A) (s : S) : (read f).exec s = (f s, s) := rfl

@[simp]
theorem exec_write (f : S → S) (s : S) : (write f).exec s = ((), f s) := rfl

@[simp]
theorem exec_bind (p : Prog S A) (f : A → Prog S B) (s : S) :
    (p >>= f).exec s = (f (p.exec s).1).exec (p.exec s).2 := by
  change (p.bind f).exec s = _
  induction p generalizing s with
  | done result => rfl
  | access effect next ih => exact ih s (effect s)

theorem readOnly_pure (a : A) : (pure a : Prog S A).ReadOnly := trivial

theorem readOnly_read (f : S → A) : (read f).ReadOnly := ⟨fun _ => rfl, fun _ => trivial⟩

theorem ReadOnly.bind {p : Prog S A} {f : A → Prog S B} (first : p.ReadOnly) (second : ∀ a, (f a).ReadOnly) :
    (p >>= f).ReadOnly := by
  change (p.bind f).ReadOnly
  induction p with
  | done result => exact second result
  | access effect next ih => exact ⟨first.1, fun s => ih s (first.2 s)⟩

end Prog

/-! ## Histories -/

variable {ι O S T : Type} {R : O → Type}

/-- What returned, in that order: the thread, the operation and its result. -/
abbrev History (ι : Type) {O : Type} (R : O → Type) := List (ι × Σ op, R op)

/-- The history of operations that are executed at once, one after the other. -/
inductive Serial (exec : (op : O) → S → R op × S) (start : S) : History ι R → S → Prop
  | nil : Serial exec start [] start
  | snoc {history : History ι R} {s : S} (before : Serial exec start history s) (i : ι) (op : O) :
      Serial exec start (history ++ [(i, ⟨op, (exec op s).1⟩)]) (exec op s).2

/-- A serial history on a part of a state is one on the whole of it. -/
theorem Serial.lift {exec : (op : O) → S → R op × S} {whole : (op : O) → T → R op × T} {part : T → S}
    (agree : ∀ op t, exec op (part t) = ((whole op t).1, part (whole op t).2)) {t : T} {s : S}
    {history : History ι R} (serial : Serial exec (part t) history s) :
    ∃ t', Serial whole t history t' ∧ part t' = s := by
  induction serial with
  | nil => exact ⟨t, .nil, rfl⟩
  | snoc before i op ih =>
      obtain ⟨t', serial, rfl⟩ := ih
      refine ⟨(whole op t').2, ?_, ?_⟩
      · rw [agree]
        exact serial.snoc i op
      · rw [agree]

/-! ## Threads -/

inductive Thread (S : Type) {O : Type} (R : O → Type)
  | outside (todo : List O)
  | inside (op : O) (left : Prog S (R op)) (todo : List O)

def Thread.holds : Thread S R → Option O
  | .outside _ => none
  | .inside op _ _ => some op

/-- The operations that have not returned. -/
def Thread.remaining : Thread S R → List O
  | .outside todo => todo
  | .inside op _ todo => op :: todo

structure State (ι S : Type) {O : Type} (R : O → Type) where
  threads : ι → Thread S R
  memory : S
  history : History ι R := []

def start (todo : ι → List O) (memory : S) : State ι S R where
  threads := fun i => .outside (todo i)
  memory := memory

inductive Step [DecidableEq ι] (program : (op : O) → Prog S (R op)) (writes : O → Prop) :
    State ι S R → State ι S R → Prop
  | enter {s : State ι S R} (i : ι) (op : O) (todo : List O) (at_ : s.threads i = .outside (op :: todo))
      (granted : ∀ j other, (s.threads j).holds = some other → ¬writes op ∧ ¬writes other) :
      Step program writes s { s with threads := Function.update s.threads i (.inside op (program op) todo) }
  | access {s : State ι S R} (i : ι) (op : O) (effect : S → S) (next : S → Prog S (R op)) (todo : List O)
      (at_ : s.threads i = .inside op (.access effect next) todo) :
      Step program writes s { s with
        threads := Function.update s.threads i (.inside op (next s.memory) todo)
        memory := effect s.memory }
  | leave {s : State ι S R} (i : ι) (op : O) (result : R op) (todo : List O)
      (at_ : s.threads i = .inside op (.done result) todo) :
      Step program writes s { s with
        threads := Function.update s.threads i (.outside todo)
        history := s.history ++ [(i, ⟨op, result⟩)] }

abbrev Reaches [DecidableEq ι] (program : (op : O) → Prog S (R op)) (writes : O → Prop) :
    State ι S R → State ι S R → Prop :=
  Relation.ReflTransGen (Step program writes)

/-! ## The invariant -/

/-- `before` is the memory as what has returned leaves it. -/
structure Inv (program : (op : O) → Prog S (R op)) (writes : O → Prop) (first before : S) (s : State ι S R) :
    Prop where
  serial : Serial (fun op => (program op).exec) first s.history before
  exclusive : ∀ i j op other, i ≠ j → (s.threads i).holds = some op → (s.threads j).holds = some other →
    ¬writes op ∧ ¬writes other
  -- where an operation stands, it comes to the same end as from its beginning
  inside : ∀ i op left todo, s.threads i = .inside op left todo → left.exec s.memory = (program op).exec before
  readers : ∀ i op left todo, s.threads i = .inside op left todo → ¬writes op → left.ReadOnly
  still : (∀ i op, (s.threads i).holds = some op → ¬writes op) → s.memory = before

variable {program : (op : O) → Prog S (R op)} {writes : O → Prop} {s s' : State ι S R}

theorem holds_inside {i : ι} {op : O} {left : Prog S (R op)} {todo : List O}
    (at_ : s.threads i = .inside op left todo) : (s.threads i).holds = some op := by
  rw [at_]
  rfl

theorem Inv.start (todo : ι → List O) (memory : S) :
    Inv program writes memory memory (start todo memory : State ι S R) where
  serial := .nil
  exclusive := by simp [Locked.start, Thread.holds]
  inside := by simp [Locked.start]
  readers := by simp [Locked.start]
  still _ := rfl

theorem Inv.alone {first before : S} (inv : Inv program writes first before s) {i j : ι} {op : O}
    {left : Prog S (R op)} {todo : List O} (at_ : s.threads i = .inside op left todo) (writer : writes op)
    (other : j ≠ i) : (s.threads j).holds = none := by
  cases holds : (s.threads j).holds with
  | none => rfl
  | some op' => exact absurd writer (inv.exclusive j i op' op other holds (holds_inside at_)).2

theorem Inv.still_of_reader {first before : S} (inv : Inv program writes first before s) {i : ι} {op : O}
    {left : Prog S (R op)} {todo : List O} (at_ : s.threads i = .inside op left todo) (reader : ¬writes op) :
    s.memory = before := by
  apply inv.still
  intro j op' holds
  by_cases same : j = i
  · rw [same, holds_inside at_] at holds
    cases holds
    exact reader
  · exact (inv.exclusive j i op' op same holds (holds_inside at_)).1

variable [DecidableEq ι]

section Steps
variable {first before : S} (inv : Inv program writes first before s) {i : ι} {op : O} {todo : List O}
include inv

theorem Inv.enter (granted : ∀ j other, (s.threads j).holds = some other → ¬writes op ∧ ¬writes other)
    (readOnly : ¬writes op → (program op).ReadOnly) :
    Inv program writes first before
      { s with threads := Function.update s.threads i (.inside op (program op) todo) } where
  serial := inv.serial
  exclusive j k op₁ op₂ other holds₁ holds₂ := by
    simp only [Function.update_apply] at holds₁ holds₂
    split_ifs at holds₁ holds₂ with one two two
    · exact absurd (one.trans two.symm) other
    · cases holds₁
      exact granted k op₂ holds₂
    · cases holds₂
      exact (granted j op₁ holds₁).symm
    · exact inv.exclusive j k op₁ op₂ other holds₁ holds₂
  inside j op' left todo' at' := by
    simp only [Function.update_apply] at at'
    split_ifs at at' with here
    · cases at'
      rw [inv.still fun k other holds => (granted k other holds).2]
    · exact inv.inside j op' left todo' at'
  readers j op' left todo' at' reader := by
    simp only [Function.update_apply] at at'
    split_ifs at at' with here
    · cases at'
      exact readOnly reader
    · exact inv.readers j op' left todo' at' reader
  still _ := inv.still fun k other holds => (granted k other holds).2

theorem Inv.access {effect : S → S} {next : S → Prog S (R op)}
    (at_ : s.threads i = .inside op (.access effect next) todo) :
    Inv program writes first before { s with
      threads := Function.update s.threads i (.inside op (next s.memory) todo)
      memory := effect s.memory } := by
  -- a reader changes nothing, and a writer is alone
  have unchanged : ¬writes op → effect s.memory = s.memory := by
    intro reader
    exact (inv.readers i op _ todo at_ reader).1 s.memory
  have holds : ∀ j, (Function.update s.threads i (.inside op (next s.memory) todo) j).holds = (s.threads j).holds := by
    intro j
    by_cases same : j = i
    · rw [same, Function.update_self, holds_inside at_]
      rfl
    · rw [Function.update_of_ne same]
  refine ⟨inv.serial, ?_, ?_, ?_, ?_⟩
  · intro j k op₁ op₂ other holds₁ holds₂
    rw [holds] at holds₁ holds₂
    exact inv.exclusive j k op₁ op₂ other holds₁ holds₂
  · intro j op' left todo' at'
    simp only [Function.update_apply] at at'
    split_ifs at at' with here
    · cases at'
      exact inv.inside i op _ todo at_
    · by_cases writer : writes op
      · have none := inv.alone at_ writer here
        rw [at'] at none
        cases none
      · rw [unchanged writer]
        exact inv.inside j op' left todo' at'
  · intro j op' left todo' at' reader
    simp only [Function.update_apply] at at'
    split_ifs at at' with here
    · cases at'
      exact (inv.readers i op _ todo at_ reader).2 s.memory
    · exact inv.readers j op' left todo' at' reader
  · intro readers
    have reader : ¬writes op := readers i op ((holds i).trans (holds_inside at_))
    rw [unchanged reader]
    exact inv.still_of_reader at_ reader

theorem Inv.leave {result : R op} (at_ : s.threads i = .inside op (.done result) todo) :
    Inv program writes first s.memory { s with
      threads := Function.update s.threads i (.outside todo)
      history := s.history ++ [(i, ⟨op, result⟩)] } := by
  have ends : (result, s.memory) = (program op).exec before := inv.inside i op _ todo at_
  have elsewhere : ∀ j op', (Function.update s.threads i (.outside todo) j).holds = some op' →
      j ≠ i ∧ (s.threads j).holds = some op' := by
    intro j op' holds
    by_cases same : j = i
    · rw [same, Function.update_self] at holds
      cases holds
    · rw [Function.update_of_ne same] at holds
      exact ⟨same, holds⟩
  have stands : ∀ j op' left todo', Function.update s.threads i (.outside todo) j = .inside op' left todo' →
      j ≠ i ∧ s.threads j = .inside op' left todo' := by
    intro j op' left todo' at'
    by_cases same : j = i
    · rw [same, Function.update_self] at at'
      cases at'
    · rw [Function.update_of_ne same] at at'
      exact ⟨same, at'⟩
  refine ⟨?_, ?_, ?_, ?_, fun _ => rfl⟩
  · have serial := inv.serial.snoc i op
    rw [← ends] at serial
    exact serial
  · intro j k op₁ op₂ other holds₁ holds₂
    exact inv.exclusive j k op₁ op₂ other (elsewhere j op₁ holds₁).2 (elsewhere k op₂ holds₂).2
  · intro j op' left todo' at'
    obtain ⟨other, at'⟩ := stands j op' left todo' at'
    -- another operation is still inside, so this one was a reader
    have reader : ¬writes op := by
      intro writer
      have none := inv.alone at_ writer other
      rw [at'] at none
      cases none
    have same := inv.still_of_reader at_ reader
    have kept := inv.inside j op' left todo' at'
    rw [← same] at kept
    exact kept
  · intro j op' left todo' at' reader
    exact inv.readers j op' left todo' (stands j op' left todo' at').2 reader

end Steps

theorem Inv.step (readOnly : ∀ op, ¬writes op → (program op).ReadOnly) {first before : S}
    (inv : Inv program writes first before s) (step : Step program writes s s') :
    ∃ after, Inv program writes first after s' := by
  cases step with
  | enter i op todo at_ granted => exact ⟨before, inv.enter granted (readOnly op)⟩
  | access i op effect next todo at_ => exact ⟨before, inv.access at_⟩
  | leave i op result todo at_ => exact ⟨s.memory, inv.leave at_⟩

theorem Inv.reaches (readOnly : ∀ op, ¬writes op → (program op).ReadOnly) {todo : ι → List O} {memory : S}
    (run : Reaches program writes (Locked.start todo memory) s) :
    ∃ before, Inv program writes memory before s := by
  induction run with
  | refl => exact ⟨memory, .start todo memory⟩
  | tail _ step ih =>
      obtain ⟨before, inv⟩ := ih
      exact inv.step readOnly step

/-! ## What has returned -/

/-- The operations of a thread that have returned. -/
def returned (history : History ι R) (i : ι) : List O :=
  (history.filter fun entry => entry.1 = i).map fun entry => entry.2.1

theorem mem_returned {history : History ι R} {i : ι} {op : O} :
    op ∈ returned history i ↔ ∃ entry ∈ history, entry.1 = i ∧ entry.2.1 = op := by
  simp only [returned, List.mem_map, List.mem_filter, decide_eq_true_eq, and_assoc]

theorem returned_append (history : History ι R) (i j : ι) (op : O) (result : R op) :
    returned (history ++ [(j, ⟨op, result⟩)]) i = returned history i ++ if j = i then [op] else [] := by
  rw [returned, List.filter_append, List.map_append, ← returned]
  split_ifs with same <;> simp [same]

theorem remaining_update (threads : ι → Thread S R) {j : ι} {thread : Thread S R}
    (same : thread.remaining = (threads j).remaining) (i : ι) :
    (Function.update threads j thread i).remaining = (threads i).remaining := by
  by_cases here : i = j
  · rw [here, Function.update_self, same]
  · rw [Function.update_of_ne here]

/-- Every thread runs its operations in order, and none is lost or run twice. -/
theorem returned_remaining {todo : ι → List O} {memory : S}
    (run : Reaches program writes (start todo memory) s) (i : ι) :
    returned s.history i ++ (s.threads i).remaining = todo i := by
  induction run with
  | refl => rfl
  | tail _ step ih =>
      rw [← ih]
      cases step with
      | enter j op rest at_ =>
          congr 1
          apply remaining_update
          rw [at_]
          rfl
      | access j op effect next rest at_ =>
          congr 1
          apply remaining_update
          rw [at_]
          rfl
      | leave j op result rest at_ =>
          simp only [returned_append]
          by_cases here : i = j
          · rw [here, at_, Function.update_self, if_pos rfl, List.append_assoc]
            rfl
          · rw [Function.update_of_ne here, if_neg (Ne.symm here), List.append_nil]

/-! ## One operation alone -/

theorem reaches_exec {i : ι} {op : O} {todo : List O} (left : Prog S (R op)) (threads : ι → Thread S R)
    (memory : S) (history : History ι R) :
    Reaches program writes ⟨Function.update threads i (.inside op left todo), memory, history⟩
      ⟨Function.update threads i (.outside todo), (left.exec memory).2,
        history ++ [(i, ⟨op, (left.exec memory).1⟩)]⟩ := by
  induction left generalizing memory with
  | done result =>
      have step : Step program writes ⟨Function.update threads i (.inside op (.done result) todo), memory, history⟩ _ :=
        .leave i op result todo (Function.update_self ..)
      rw [Function.update_idem] at step
      exact .single step
  | access effect next ih =>
      have step : Step program writes
          ⟨Function.update threads i (.inside op (.access effect next) todo), memory, history⟩ _ :=
        .access i op effect next todo (Function.update_self ..)
      rw [Function.update_idem] at step
      exact .head step (ih memory (effect memory))

/-- While nobody holds the lock, an operation can run from its beginning to its end. -/
theorem reaches_alone {i : ι} {op : O} {todo : List O} (at_ : s.threads i = .outside (op :: todo))
    (free : ∀ j, (s.threads j).holds = none) :
    Reaches program writes s
      ⟨Function.update s.threads i (.outside todo), ((program op).exec s.memory).2,
        s.history ++ [(i, ⟨op, ((program op).exec s.memory).1⟩)]⟩ := by
  have entered : Step program writes s _ := .enter i op todo at_ fun j other holds => by
    rw [free j] at holds
    cases holds
  exact .head entered (reaches_exec (program op) s.threads s.memory s.history)

end InferenceGateway.Lib.Locked
