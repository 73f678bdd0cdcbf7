import Mathlib.Algebra.BigOperators.Group.Finset.Basic
import Mathlib.Algebra.Order.BigOperators.Group.Finset
import Mathlib.Data.Fintype.Basic
import Mathlib.Logic.Relation

/-!
# A reader/writer lock that prefers waiting writers

Threads run finite sequences of lock calls on one `sync.RWMutex`. A call to take the lock is made
first and granted later; calls are numbered in the order in which they are made. A reader is
granted the lock when no writer holds it and no write call made before its own is still waiting; a
writer when nobody holds the lock.

Threads whose calls come in read sections, nested read sections and write sections get stuck
exactly when one of them takes a nested read lock and another one takes the write lock.
-/

namespace InferenceGateway.Lib.RWMutex

inductive Call
  | rlock
  | runlock
  | lock
  | unlock
deriving DecidableEq, Repr

/-- A thread: the calls it has not completed, the number of the first of them if it has been made
and not been granted, and what the thread holds. -/
structure Thread where
  todo : List Call
  ticket : Option Nat := none
  reads : Nat := 0
  writing : Bool := false

structure State (ι : Type) where
  threads : ι → Thread
  clock : Nat := 0

variable {ι : Type} [DecidableEq ι]

def State.set (s : State ι) (i : ι) (thread : Thread) : State ι :=
  { s with threads := Function.update s.threads i thread }

def Thread.waitsToWrite (thread : Thread) (ticket : Nat) : Prop :=
  thread.todo.head? = some .lock ∧ thread.ticket = some ticket

inductive Step : State ι → State ι → Prop
  | call {s : State ι} (i : ι) (take : Call) (rest : List Call) (reads : Nat) (writing : Bool)
      (taking : take = .rlock ∨ take = .lock)
      (at_ : s.threads i = ⟨take :: rest, none, reads, writing⟩) :
      Step s { s.set i ⟨take :: rest, some s.clock, reads, writing⟩ with clock := s.clock + 1 }
  | rlock {s : State ι} (i : ι) (rest : List Call) (ticket reads : Nat) (writing : Bool)
      (at_ : s.threads i = ⟨.rlock :: rest, some ticket, reads, writing⟩)
      (noWriter : ∀ j, (s.threads j).writing = false)
      (first : ∀ j earlier, (s.threads j).waitsToWrite earlier → ticket ≤ earlier) :
      Step s (s.set i ⟨rest, none, reads + 1, writing⟩)
  | lock {s : State ι} (i : ι) (rest : List Call) (ticket reads : Nat) (writing : Bool)
      (at_ : s.threads i = ⟨.lock :: rest, some ticket, reads, writing⟩)
      (free : ∀ j, (s.threads j).writing = false ∧ (s.threads j).reads = 0) :
      Step s (s.set i ⟨rest, none, reads, true⟩)
  | runlock {s : State ι} (i : ι) (rest : List Call) (reads : Nat) (writing : Bool)
      (at_ : s.threads i = ⟨.runlock :: rest, none, reads + 1, writing⟩) :
      Step s (s.set i ⟨rest, none, reads, writing⟩)
  | unlock {s : State ι} (i : ι) (rest : List Call) (reads : Nat)
      (at_ : s.threads i = ⟨.unlock :: rest, none, reads, true⟩) :
      Step s (s.set i ⟨rest, none, reads, false⟩)

abbrev Reaches : State ι → State ι → Prop := Relation.ReflTransGen Step

def Unfinished (s : State ι) : Prop := ∃ i, (s.threads i).todo ≠ []

def Deadlocked (s : State ι) : Prop := Unfinished s ∧ ∀ s', ¬Step s s'

/-! ## Sections -/

inductive Section
  | read
  | nestedRead
  | write
deriving DecidableEq, Repr

def Section.calls : Section → List Call
  | .read => [.rlock, .runlock]
  | .nestedRead => [.rlock, .rlock, .runlock, .runlock]
  | .write => [.lock, .unlock]

def calls (sections : List Section) : List Call := sections.flatMap Section.calls

def start (program : ι → List Section) : State ι where
  threads := fun i => { todo := calls (program i) }

-- where a thread is that runs the sections of a program one after the other
inductive Within (program : List Section) : Thread → Prop
  | idle (rest : List Section) (suffix : rest <:+ program) : Within program ⟨calls rest, none, 0, false⟩
  | entering (now : Section) (rest : List Section) (ticket : Nat) (suffix : now :: rest <:+ program) :
      Within program ⟨calls (now :: rest), some ticket, 0, false⟩
  | reading (rest : List Section) (suffix : rest <:+ program) :
      Within program ⟨.runlock :: calls rest, none, 1, false⟩
  | nesting (rest : List Section) (ticket : Option Nat) (suffix : .nestedRead :: rest <:+ program) :
      Within program ⟨.rlock :: .runlock :: .runlock :: calls rest, ticket, 1, false⟩
  | nested (rest : List Section) (suffix : rest <:+ program) :
      Within program ⟨.runlock :: .runlock :: calls rest, none, 2, false⟩
  | writing (rest : List Section) (suffix : rest <:+ program) :
      Within program ⟨.unlock :: calls rest, none, 0, true⟩

structure Inv (program : ι → List Section) (s : State ι) : Prop where
  within : ∀ i, Within (program i) (s.threads i)
  exclusive : ∀ i j, (s.threads i).writing = true → (s.threads j).reads = 0

inductive Move : Thread → Thread → Prop
  | call (take : Call) (rest : List Call) (ticket reads : Nat) (writing : Bool)
      (taking : take = .rlock ∨ take = .lock) :
      Move ⟨take :: rest, none, reads, writing⟩ ⟨take :: rest, some ticket, reads, writing⟩
  | rlock (rest : List Call) (ticket reads : Nat) (writing : Bool) :
      Move ⟨.rlock :: rest, some ticket, reads, writing⟩ ⟨rest, none, reads + 1, writing⟩
  | lock (rest : List Call) (ticket reads : Nat) (writing : Bool) :
      Move ⟨.lock :: rest, some ticket, reads, writing⟩ ⟨rest, none, reads, true⟩
  | runlock (rest : List Call) (reads : Nat) (writing : Bool) :
      Move ⟨.runlock :: rest, none, reads + 1, writing⟩ ⟨rest, none, reads, writing⟩
  | unlock (rest : List Call) (reads : Nat) :
      Move ⟨.unlock :: rest, none, reads, true⟩ ⟨rest, none, reads, false⟩

theorem Step.move {s s' : State ι} (step : Step s s') :
    ∃ i, Move (s.threads i) (s'.threads i) ∧ ∀ j, j ≠ i → s'.threads j = s.threads j := by
  cases step with
  | call i take rest reads writing taking at_ =>
      refine ⟨i, ?_, fun j other => Function.update_of_ne other _ _⟩
      simpa [State.set, at_] using Move.call take rest s.clock reads writing taking
  | rlock i rest ticket reads writing at_ =>
      refine ⟨i, ?_, fun j other => Function.update_of_ne other _ _⟩
      simpa [State.set, at_] using Move.rlock rest ticket reads writing
  | lock i rest ticket reads writing at_ =>
      refine ⟨i, ?_, fun j other => Function.update_of_ne other _ _⟩
      simpa [State.set, at_] using Move.lock rest ticket reads writing
  | runlock i rest reads writing at_ =>
      refine ⟨i, ?_, fun j other => Function.update_of_ne other _ _⟩
      simpa [State.set, at_] using Move.runlock rest reads writing
  | unlock i rest reads at_ =>
      refine ⟨i, ?_, fun j other => Function.update_of_ne other _ _⟩
      simpa [State.set, at_] using Move.unlock rest reads

theorem calls_eq_cons {rest : List Section} {head : Call} {tail : List Call}
    (eq : calls rest = head :: tail) :
    ∃ now later, rest = now :: later ∧ now.calls ++ calls later = head :: tail := by
  cases rest with
  | nil => cases eq
  | cons now later => exact ⟨now, later, rfl, eq⟩

theorem Within.move {program : List Section} {thread thread' : Thread}
    (within : Within program thread) (move : Move thread thread') : Within program thread' := by
  cases within with
  | idle rest suffix =>
      generalize todo : calls rest = todo at move
      cases move with
      | call take rest' ticket reads writing taking =>
          obtain ⟨now, later, rfl, -⟩ := calls_eq_cons todo
          rw [← todo]
          exact .entering now later ticket suffix
  | entering now rest ticket suffix =>
      have tail : rest <:+ program := (List.suffix_cons now rest).trans suffix
      cases now with
      | read => cases move with | rlock => exact .reading rest tail
      | nestedRead => cases move with | rlock => exact .nesting rest none suffix
      | write => cases move with | lock => exact .writing rest tail
  | reading rest suffix =>
      cases move with
      | call take rest' ticket reads writing taking => simp at taking
      | runlock => exact .idle rest suffix
  | nesting rest ticket suffix =>
      have tail : rest <:+ program := (List.suffix_cons _ rest).trans suffix
      cases move with
      | call take rest' ticket' reads writing taking => exact .nesting rest (some ticket') suffix
      | rlock => exact .nested rest tail
  | nested rest suffix =>
      cases move with
      | call take rest' ticket reads writing taking => simp at taking
      | runlock => exact .reading rest suffix
  | writing rest suffix =>
      cases move with
      | call take rest' ticket reads writing taking => simp at taking
      | unlock => exact .idle rest suffix

theorem exclusive_set {s : State ι} {k : ι} {thread : Thread}
    (exclusive : ∀ i j, (s.threads i).writing = true → (s.threads j).reads = 0)
    (writer : thread.writing = true → thread.reads = 0 ∧ ∀ j, (s.threads j).reads = 0)
    (reader : thread.reads ≠ 0 → ∀ i, (s.threads i).writing = false) (i j : ι)
    (writing : ((s.set k thread).threads i).writing = true) :
    ((s.set k thread).threads j).reads = 0 := by
  simp only [State.set, Function.update_apply] at writing ⊢
  by_cases own : i = k
  · rw [if_pos own] at writing
    obtain ⟨here, others⟩ := writer writing
    split_ifs
    · exact here
    · exact others j
  · rw [if_neg own] at writing
    split_ifs
    · by_contra reads
      exact absurd ((reader reads i).symm.trans writing) Bool.false_ne_true
    · exact exclusive i j writing

section Exclusive
omit [DecidableEq ι]
variable {program : ι → List Section} {s : State ι}

theorem Inv.writer (inv : Inv program s) (k : ι) (writing : (s.threads k).writing = true) :
    (s.threads k).reads = 0 ∧ ∀ j, (s.threads j).reads = 0 :=
  ⟨inv.exclusive k k writing, fun j => inv.exclusive k j writing⟩

theorem Inv.reader (inv : Inv program s) (k : ι) (reads : (s.threads k).reads ≠ 0) (i : ι) :
    (s.threads i).writing = false := by
  rw [Bool.eq_false_iff]
  exact fun writing => reads (inv.exclusive i k writing)

end Exclusive

theorem Inv.step {program : ι → List Section} {s s' : State ι} (inv : Inv program s)
    (step : Step s s') : Inv program s' := by
  constructor
  · obtain ⟨i, move, others⟩ := step.move
    intro j
    by_cases h : j = i
    · subst h
      exact (inv.within j).move move
    · rw [others j h]
      exact inv.within j
  · cases step with
    | call k take rest reads writing taking at_ =>
        have writer := inv.writer k
        have reader := inv.reader k
        rw [at_] at writer reader
        exact exclusive_set inv.exclusive writer reader
    | rlock k rest ticket reads writing at_ noWriter first =>
        have idle := noWriter k
        rw [at_] at idle
        refine exclusive_set inv.exclusive (fun busy => ?_) fun _ => noWriter
        exact absurd (idle.symm.trans busy) Bool.false_ne_true
    | lock k rest ticket reads writing at_ free =>
        have none := (free k).2
        rw [at_] at none
        exact exclusive_set inv.exclusive (fun _ => ⟨none, fun j => (free j).2⟩) fun some => absurd none some
    | runlock k rest reads writing at_ =>
        have writer := inv.writer k
        have reader := inv.reader k
        rw [at_] at writer reader
        refine exclusive_set inv.exclusive (fun busy => ?_) fun _ => reader (Nat.succ_ne_zero reads)
        exact absurd (writer busy).1 (Nat.succ_ne_zero reads)
    | unlock k rest reads at_ =>
        have reader := inv.reader k
        rw [at_] at reader
        exact exclusive_set inv.exclusive (fun busy => absurd busy Bool.false_ne_true) reader

omit [DecidableEq ι] in
theorem Inv.start (program : ι → List Section) : Inv program (start program) where
  within := fun i => .idle (program i) (List.suffix_refl _)
  exclusive := fun _ _ writing => by cases writing

theorem Inv.reaches {program : ι → List Section} {s s' : State ι} (inv : Inv program s)
    (run : Reaches s s') : Inv program s' := by
  induction run with
  | refl => exact inv
  | tail _ step ih => exact ih.step step

/-! ## Progress -/

theorem Within.stuck {program : List Section} {s : State ι} {i : ι}
    (within : Within program (s.threads i)) (stuck : ∀ s', ¬Step s s') :
    s.threads i = ⟨[], none, 0, false⟩ ∨
    (∃ now rest ticket, now ∈ program ∧
      s.threads i = ⟨now.calls ++ calls rest, some ticket, 0, false⟩) ∨
    (∃ rest ticket, .nestedRead ∈ program ∧ s.threads i = ⟨.rlock :: rest, some ticket, 1, false⟩) := by
  generalize at_ : s.threads i = thread at within
  cases within with
  | idle rest suffix =>
      cases rest with
      | nil => exact .inl rfl
      | cons now rest =>
          cases now with
          | read => exact (stuck _ (.call i .rlock _ 0 false (.inl rfl) at_)).elim
          | nestedRead => exact (stuck _ (.call i .rlock _ 0 false (.inl rfl) at_)).elim
          | write => exact (stuck _ (.call i .lock _ 0 false (.inr rfl) at_)).elim
  | entering now rest ticket suffix =>
      exact .inr (.inl ⟨now, rest, ticket, suffix.subset (by simp), rfl⟩)
  | reading rest suffix => exact (stuck _ (.runlock i _ 0 false at_)).elim
  | nesting rest ticket suffix =>
      cases ticket with
      | none => exact (stuck _ (.call i .rlock _ 1 false (.inl rfl) at_)).elim
      | some ticket => exact .inr (.inr ⟨_, ticket, suffix.subset (by simp), rfl⟩)
  | nested rest suffix => exact (stuck _ (.runlock i _ 1 false at_)).elim
  | writing rest suffix => exact (stuck _ (.unlock i _ 0 at_)).elim

theorem Inv.progress {program : ι → List Section} {s : State ι} (inv : Inv program s)
    (apart : ∀ i j, i ≠ j → .nestedRead ∈ program i → .write ∉ program j)
    (unfinished : Unfinished s) : ∃ s', Step s s' := by
  by_contra none
  have stuck : ∀ s', ¬Step s s' := fun s' step => none ⟨s', step⟩
  have phase := fun i => (inv.within i).stuck stuck
  have noWriter : ∀ j, (s.threads j).writing = false := by
    intro j
    rcases phase j with h | ⟨_, _, _, _, h⟩ | ⟨_, _, _, h⟩ <;> rw [h]
  have writer : ∀ j ticket, (s.threads j).waitsToWrite ticket →
      .write ∈ program j ∧ (s.threads j).reads = 0 := by
    rintro j ticket ⟨head, -⟩
    rcases phase j with h | ⟨now, _, _, member, h⟩ | ⟨_, _, _, h⟩ <;> rw [h] at head
    · simp at head
    · cases now <;> simp [Section.calls] at head
      exact ⟨member, by rw [h]⟩
    · simp at head
  by_cases nesting : ∃ i, .nestedRead ∈ program i ∧
      ∃ rest ticket, s.threads i = ⟨.rlock :: rest, some ticket, 1, false⟩
  · -- a waiting write call can only be another thread's, and those do not write
    obtain ⟨i, nested, rest, ticket, at_⟩ := nesting
    refine stuck _ (.rlock i rest ticket 1 false at_ noWriter fun j earlier waits => ?_)
    have other : i ≠ j := by
      rintro rfl
      simp [Thread.waitsToWrite, at_] at waits
    exact absurd (writer j earlier waits).1 (apart i j other nested)
  · -- nobody holds the lock, so the first call in the queue is granted
    have free : ∀ j, (s.threads j).writing = false ∧ (s.threads j).reads = 0 := by
      intro j
      refine ⟨noWriter j, ?_⟩
      rcases phase j with h | ⟨_, _, _, _, h⟩ | ⟨rest, ticket, nested, h⟩
      · rw [h]
      · rw [h]
      · exact absurd ⟨j, nested, rest, ticket, h⟩ nesting
    by_cases waiting : ∃ j ticket, (s.threads j).waitsToWrite ticket
    · obtain ⟨j, ticket, waits⟩ := waiting
      rcases phase j with h | ⟨now, rest, ticket', _, h⟩ | ⟨rest, ticket', nested, h⟩
      · simp [Thread.waitsToWrite, h] at waits
      · cases now <;> simp [Thread.waitsToWrite, h, Section.calls] at waits
        exact stuck _ (.lock j _ ticket' 0 false h free)
      · exact nesting ⟨j, nested, rest, ticket', h⟩
    · have first (ticket : Nat) : ∀ j earlier, (s.threads j).waitsToWrite earlier → ticket ≤ earlier :=
        fun j earlier waits => absurd ⟨j, earlier, waits⟩ waiting
      obtain ⟨i, todo⟩ := unfinished
      rcases phase i with h | ⟨now, rest, ticket, _, h⟩ | ⟨rest, ticket, nested, h⟩
      · rw [h] at todo
        exact todo rfl
      · cases now with
        | read => exact stuck _ (.rlock i _ ticket 0 false h noWriter (first ticket))
        | nestedRead => exact stuck _ (.rlock i _ ticket 0 false h noWriter (first ticket))
        | write => exact waiting ⟨i, ticket, by rw [h]; exact ⟨rfl, rfl⟩⟩
      · exact nesting ⟨i, nested, rest, ticket, h⟩

/-! ## Deadlock -/

def Thread.moves (thread : Thread) : Nat :=
  2 * thread.todo.length - if thread.ticket.isSome then 1 else 0

theorem Move.moves_lt {thread thread' : Thread} (move : Move thread thread') :
    thread'.moves < thread.moves := by
  cases move <;> simp [Thread.moves] <;> omega

theorem Step.moves_lt [Fintype ι] {s s' : State ι} (step : Step s s') :
    ∑ i, (s'.threads i).moves < ∑ i, (s.threads i).moves := by
  obtain ⟨i, move, others⟩ := step.move
  refine Finset.sum_lt_sum (fun j _ => ?_) ⟨i, Finset.mem_univ i, move.moves_lt⟩
  by_cases h : j = i
  · exact h ▸ move.moves_lt.le
  · rw [others j h]

/-- Thread `i` waits for a nested read lock behind the write call of thread `j`, which waits for
`i` to release the lock. -/
def Jammed (s : State ι) (i j : ι) : Prop :=
  ∃ rest ticket reads rest' earlier reads',
    s.threads i = ⟨.rlock :: rest, some ticket, reads + 1, false⟩ ∧
    s.threads j = ⟨.lock :: rest', some earlier, reads', false⟩ ∧ earlier < ticket

theorem Jammed.step {s s' : State ι} {i j : ι} (jammed : Jammed s i j) (step : Step s s') :
    Jammed s' i j := by
  obtain ⟨rest, ticket, reads, rest', earlier, reads', reader, writer, before⟩ := jammed
  suffices s'.threads i = s.threads i ∧ s'.threads j = s.threads j from
    ⟨rest, ticket, reads, rest', earlier, reads', this.1.trans reader, this.2.trans writer, before⟩
  suffices ∃ k, k ≠ i ∧ k ≠ j ∧ ∀ l, l ≠ k → s'.threads l = s.threads l by
    obtain ⟨k, notReader, notWriter, others⟩ := this
    exact ⟨others i notReader.symm, others j notWriter.symm⟩
  have others (k : ι) (thread : Thread) : ∀ l, l ≠ k → (s.set k thread).threads l = s.threads l :=
    fun l other => Function.update_of_ne other _ _
  cases step with
  | call k take rest'' reads'' writing taking at_ =>
      exact ⟨k, by rintro rfl; simp [reader] at at_, by rintro rfl; simp [writer] at at_, others k _⟩
  | rlock k rest'' ticket' reads'' writing at_ noWriter first =>
      refine ⟨k, ?_, by rintro rfl; simp [writer] at at_, others k _⟩
      rintro rfl
      have own : ticket' = ticket := by simp_all
      have := first j earlier ⟨by rw [writer]; rfl, by rw [writer]⟩
      omega
  | lock k rest'' ticket' reads'' writing at_ free =>
      refine ⟨k, by rintro rfl; simp [reader] at at_, ?_, others k _⟩
      rintro rfl
      have := (free i).2
      simp [reader] at this
  | runlock k rest'' reads'' writing at_ =>
      exact ⟨k, by rintro rfl; simp [reader] at at_, by rintro rfl; simp [writer] at at_, others k _⟩
  | unlock k rest'' reads'' at_ =>
      exact ⟨k, by rintro rfl; simp [reader] at at_, by rintro rfl; simp [writer] at at_, others k _⟩

theorem Jammed.deadlock [Fintype ι] {s : State ι} {i j : ι} (jammed : Jammed s i j) :
    ∃ s', Reaches s s' ∧ Deadlocked s' := by
  -- the jammed threads stay jammed while the others run until nobody can move
  by_cases moves : ∃ s', Step s s'
  · obtain ⟨s', step⟩ := moves
    have decreases := step.moves_lt
    obtain ⟨s'', run, deadlocked⟩ := (jammed.step step).deadlock
    exact ⟨s'', .head step run, deadlocked⟩
  · obtain ⟨_, _, _, _, _, _, reader, -⟩ := jammed
    exact ⟨s, .refl, ⟨i, by simp [reader]⟩, fun s' step => moves ⟨s', step⟩⟩
termination_by ∑ i, (s.threads i).moves

def Calm (threads : ι → Thread) (i : ι) : Prop :=
  ∀ j, j ≠ i → (threads j).writing = false ∧ (threads j).ticket = none

section Sequential
variable {threads : ι → Thread} {i : ι}

abbrev placed (threads : ι → Thread) (i : ι) (thread : Thread) (clock : Nat) : State ι :=
  ⟨Function.update threads i thread, clock⟩

theorem step_call (take : Call) (taking : take = .rlock ∨ take = .lock) (rest : List Call)
    (reads clock : Nat) :
    Step (placed threads i ⟨take :: rest, none, reads, false⟩ clock)
      (placed threads i ⟨take :: rest, some clock, reads, false⟩ (clock + 1)) := by
  have made := Step.call (s := placed threads i ⟨take :: rest, none, reads, false⟩ clock)
    i take rest reads false taking (Function.update_self ..)
  simpa only [State.set, Function.update_idem] using made

theorem reaches_rlock (calm : Calm threads i) (rest : List Call) (reads clock : Nat) :
    Reaches (placed threads i ⟨.rlock :: rest, none, reads, false⟩ clock)
      (placed threads i ⟨rest, none, reads + 1, false⟩ (clock + 1)) := by
  have granted := Step.rlock (s := placed threads i ⟨.rlock :: rest, some clock, reads, false⟩ (clock + 1))
    i rest clock reads false (Function.update_self ..) (fun j => by
      by_cases h : j = i
      · simp [h]
      · simpa [h] using (calm j h).1) (fun j earlier waits => by
      by_cases h : j = i
      · simp [h, Thread.waitsToWrite] at waits
      · simp [h, Thread.waitsToWrite, (calm j h).2] at waits)
  simp only [State.set, Function.update_idem] at granted
  exact .head (step_call .rlock (.inl rfl) rest reads clock) (.single granted)

theorem reaches_runlock (rest : List Call) (reads clock : Nat) :
    Reaches (placed threads i ⟨.runlock :: rest, none, reads + 1, false⟩ clock)
      (placed threads i ⟨rest, none, reads, false⟩ clock) := by
  have released := Step.runlock (s := placed threads i ⟨.runlock :: rest, none, reads + 1, false⟩ clock)
    i rest reads false (Function.update_self ..)
  simp only [State.set, Function.update_idem] at released
  exact .single released

theorem reaches_write (calm : Calm threads i) (noReader : ∀ j, j ≠ i → (threads j).reads = 0)
    (rest : List Call) (clock : Nat) :
    Reaches (placed threads i ⟨.lock :: .unlock :: rest, none, 0, false⟩ clock)
      (placed threads i ⟨rest, none, 0, false⟩ (clock + 1)) := by
  have granted := Step.lock (s := placed threads i ⟨.lock :: .unlock :: rest, some clock, 0, false⟩ (clock + 1))
    i _ clock 0 false (Function.update_self ..) (fun j => by
      by_cases h : j = i
      · simp [h]
      · simpa [h] using ⟨(calm j h).1, noReader j h⟩)
  have released := Step.unlock (s := placed threads i ⟨.unlock :: rest, none, 0, true⟩ (clock + 1))
    i rest 0 (Function.update_self ..)
  simp only [State.set, Function.update_idem] at granted released
  exact .head (step_call .lock (.inr rfl) _ 0 clock) (.head granted (.single released))

theorem reaches_section (calm : Calm threads i) (now : Section)
    (noReader : now = .write → ∀ j, j ≠ i → (threads j).reads = 0) (rest : List Call) (clock : Nat) :
    ∃ clock', Reaches (placed threads i ⟨now.calls ++ rest, none, 0, false⟩ clock)
      (placed threads i ⟨rest, none, 0, false⟩ clock') := by
  cases now with
  | read => exact ⟨_, (reaches_rlock calm _ 0 clock).trans (reaches_runlock rest 0 _)⟩
  | nestedRead =>
      have taken := (reaches_rlock calm _ 0 clock).trans
        (reaches_rlock calm (.runlock :: .runlock :: rest) 1 _)
      exact ⟨_, taken.trans ((reaches_runlock _ 1 _).trans (reaches_runlock rest 0 _))⟩
  | write => exact ⟨_, reaches_write calm (noReader rfl) rest clock⟩

theorem reaches_sections (calm : Calm threads i) (sections : List Section)
    (noReader : .write ∈ sections → ∀ j, j ≠ i → (threads j).reads = 0) (rest : List Section)
    (clock : Nat) :
    ∃ clock', Reaches (placed threads i ⟨calls (sections ++ rest), none, 0, false⟩ clock)
      (placed threads i ⟨calls rest, none, 0, false⟩ clock') := by
  induction sections generalizing clock with
  | nil => exact ⟨clock, .refl⟩
  | cons now sections ih =>
      obtain ⟨clock', run⟩ := reaches_section calm now (fun h => noReader (by simp [h]))
        (calls (sections ++ rest)) clock
      obtain ⟨clock'', run'⟩ := ih (fun member => noReader (by simp [member])) clock'
      exact ⟨clock'', run.trans run'⟩

theorem reaches_jammed {j : ι} (other : i ≠ j) {rest : List Call} {reads : Nat}
    (reader : threads i = ⟨.rlock :: rest, none, reads + 1, false⟩) (rest' : List Call) (clock : Nat) :
    ∃ s, Reaches (placed threads j ⟨.lock :: rest', none, 0, false⟩ clock) s ∧ Jammed s i j := by
  let waiting : Thread := ⟨.lock :: rest', some clock, 0, false⟩
  have again := Step.call (s := placed threads j waiting (clock + 1)) i .rlock rest (reads + 1) false
    (.inl rfl) ((Function.update_of_ne other ..).trans reader)
  have writer : Function.update (Function.update threads j waiting) i
      ⟨.rlock :: rest, some (clock + 1), reads + 1, false⟩ j = waiting := by
    rw [Function.update_of_ne other.symm, Function.update_self]
  exact ⟨_, .head (step_call .lock (.inr rfl) rest' 0 clock) (.single again),
    rest, clock + 1, reads, rest', clock, 0, Function.update_self .., writer, Nat.lt_succ_self clock⟩

end Sequential

/-- A nested read section and a write section of different threads can deadlock: the reader takes
its outer lock, the writer calls, and the reader's nested call comes after it. -/
theorem deadlock_reachable [Fintype ι] {program : ι → List Section} {i j : ι} (other : i ≠ j)
    (nested : .nestedRead ∈ program i) (write : .write ∈ program j) :
    ∃ s, Reaches (start program) s ∧ Deadlocked s := by
  obtain ⟨before, after, splitReader⟩ := List.append_of_mem nested
  obtain ⟨before', after', splitWriter, onlyReads⟩ := List.eq_append_cons_of_mem write
  let threads := (start program).threads
  have reader : threads i = ⟨calls (before ++ .nestedRead :: after), none, 0, false⟩ := by
    rw [← splitReader]; rfl
  have calm : Calm threads i := fun _ _ => ⟨rfl, rfl⟩
  obtain ⟨clock, first⟩ := reaches_sections calm before (fun _ _ _ => rfl) (.nestedRead :: after) 0
  rw [placed, ← reader, Function.update_eq_self] at first
  have outer := reaches_rlock calm (.rlock :: .runlock :: .runlock :: calls after) 0 clock
  -- the reader holds its outer lock from here on, while the writer comes to its write section
  let holding := Function.update threads i
    ⟨.rlock :: .runlock :: .runlock :: calls after, none, 1, false⟩
  have writer : holding j = ⟨calls (before' ++ .write :: after'), none, 0, false⟩ := by
    rw [← splitWriter]
    exact Function.update_of_ne other.symm ..
  have calm' : Calm holding j := by
    intro k _
    by_cases h : k = i
    · simp [h, holding]
    · simp [h, holding, threads, start]
  obtain ⟨clock', second⟩ := reaches_sections calm' before' (fun member => absurd member onlyReads)
    (.write :: after') (clock + 1)
  rw [placed, ← writer, Function.update_eq_self] at second
  obtain ⟨s, third, jammed⟩ := reaches_jammed other (Function.update_self ..) (.unlock :: calls after') clock'
  obtain ⟨s', last, deadlocked⟩ := jammed.deadlock
  exact ⟨s', first.trans (outer.trans (second.trans (third.trans last))), deadlocked⟩

theorem progress_iff [Fintype ι] (program : ι → List Section) :
    (∀ s, Reaches (start program) s → Unfinished s → ∃ s', Step s s') ↔
      ∀ i j, i ≠ j → .nestedRead ∈ program i → .write ∉ program j := by
  constructor
  · intro progress i j other nested write
    obtain ⟨s, run, unfinished, stuck⟩ := deadlock_reachable other nested write
    obtain ⟨s', step⟩ := progress s run unfinished
    exact stuck s' step
  · intro apart s run unfinished
    exact ((Inv.start program).reaches run).progress apart unfinished

end InferenceGateway.Lib.RWMutex
