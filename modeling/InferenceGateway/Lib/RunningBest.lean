import Mathlib.Data.List.Induction
import Mathlib.Order.Lattice

/-!
# Running extrema with ties

A loop over a list that keeps the best value seen so far and the positions that have it: an item may
replace what was kept, join it, or be passed over.
-/

namespace InferenceGateway.Lib.RunningBest

variable {α β : Type}

structure Candidates (β : Type) where
  best : β
  positions : List Nat := []

def Candidates.visit (found : Candidates β) (position : Nat) (value : β) (replaces joins : Bool) : Candidates β :=
  if replaces then ⟨value, [position]⟩
  else if joins then { found with positions := found.positions ++ [position] }
  else found

/-- The items are visited with their positions. -/
def scan (value : α × Nat → β) (replaces joins : α × Nat → β → Bool) (init : β) (items : List α) : Candidates β :=
  items.zipIdx.foldl
    (fun found entry => found.visit entry.2 (value entry) (replaces entry found.best) (joins entry found.best))
    ⟨init, []⟩

section Scan
variable {value : α × Nat → β} {replaces joins : α × Nat → β → Bool} {init : β}

theorem scan_append_singleton (items : List α) (item : α) :
    scan value replaces joins init (items ++ [item]) =
      (scan value replaces joins init items).visit items.length (value (item, items.length))
        (replaces (item, items.length) (scan value replaces joins init items).best)
        (joins (item, items.length) (scan value replaces joins init items).best) := by
  simp [scan, List.zipIdx_append, List.foldl_append]

theorem lt_length_of_mem_scan (items : List α) :
    ∀ i ∈ (scan value replaces joins init items).positions, i < items.length := by
  induction items using List.reverseRecOn with
  | nil => simp [scan]
  | append_singleton items item ih =>
      rw [scan_append_singleton, List.length_append, List.length_singleton, Candidates.visit]
      intro i member
      split_ifs at member
      · rw [List.mem_singleton] at member
        omega
      · rw [List.mem_append, List.mem_singleton] at member
        cases member with
        | inl before =>
            have := ih i before
            omega
        | inr last => omega
      · have := ih i member
        omega

end Scan

/-! ## The least value of the eligible items -/

section Least
variable {value : α × Nat → β} {eligible : α × Nat → Bool}

/-- An eligible item at one of the positions up to `upTo` has the value. -/
def Attained (value : α × Nat → β) (eligible : α × Nat → Bool) (items : List α) (v : β) (upTo : Nat) : Prop :=
  ∃ j item, j ≤ upTo ∧ items[j]? = some item ∧ eligible (item, j) = true ∧ value (item, j) = v

theorem getElem?_append_singleton {items : List α} {last item : α} {j : Nat} :
    (items ++ [last])[j]? = some item ↔ items[j]? = some item ∨ j = items.length ∧ last = item := by
  rcases Nat.lt_trichotomy j items.length with before | rfl | after
  · simp [List.getElem?_append_left before, before.ne]
  · simp
  · have outside : (items ++ [last])[j]? = none := by
      rw [List.getElem?_eq_none_iff, List.length_append]
      exact after
    simp [outside, List.getElem?_eq_none after.le, after.ne']

theorem attained_append_singleton {items : List α} {last : α} {v : β} {upTo : Nat} :
    Attained value eligible (items ++ [last]) v upTo ↔
      Attained value eligible items v upTo ∨
        items.length ≤ upTo ∧ eligible (last, items.length) = true ∧ value (last, items.length) = v := by
  constructor
  · intro ⟨j, item, early, found, chosen, same⟩
    rcases getElem?_append_singleton.mp found with before | ⟨rfl, rfl⟩
    · exact .inl ⟨j, item, early, before, chosen, same⟩
    · exact .inr ⟨early, chosen, same⟩
  · rintro (⟨j, item, early, found, chosen, same⟩ | ⟨early, chosen, same⟩)
    · exact ⟨j, item, early, getElem?_append_singleton.mpr (.inl found), chosen, same⟩
    · exact ⟨items.length, last, early, getElem?_append_singleton.mpr (.inr ⟨rfl, rfl⟩), chosen, same⟩

theorem Attained.mono {items : List α} {v : β} {upTo upTo' : Nat} (attained : Attained value eligible items v upTo)
    (later : upTo ≤ upTo') : Attained value eligible items v upTo' := by
  obtain ⟨j, item, early, found, chosen, same⟩ := attained
  exact ⟨j, item, early.trans later, found, chosen, same⟩

variable [LinearOrder β] {init : β}

/-- Only an eligible item replaces what was kept, but any item may join it. -/
def scanLeast (value : α × Nat → β) (eligible : α × Nat → Bool) (init : β) (items : List α) : Candidates β :=
  scan value (fun entry best => decide (value entry < best) && eligible entry)
    (fun entry best => decide (value entry = best)) init items

structure IsScan (value : α × Nat → β) (eligible : α × Nat → Bool) (init : β) (items : List α) (found : Candidates β) :
    Prop where
  best : found.best = init ∨ Attained value eligible items found.best items.length
  least : ∀ j item, items[j]? = some item → eligible (item, j) = true → found.best ≤ value (item, j)
  positions : ∀ i, i ∈ found.positions ↔
    ∃ item, items[i]? = some item ∧ value (item, i) = found.best ∧ Attained value eligible items found.best i

section Step
variable {items : List α} {last : α} {found : Candidates β} (kept : IsScan value eligible init items found)
include kept

theorem IsScan.replace (better : value (last, items.length) < found.best)
    (chosen : eligible (last, items.length) = true) :
    IsScan value eligible init (items ++ [last]) ⟨value (last, items.length), [items.length]⟩ where
  best := by
    right
    rw [attained_append_singleton, List.length_append]
    exact .inr ⟨Nat.le_add_right _ _, chosen, rfl⟩
  least j item listed own := by
    rcases getElem?_append_singleton.mp listed with before | ⟨rfl, rfl⟩
    · exact better.le.trans (kept.least j item before own)
    · exact le_rfl
  positions i := by
    rw [List.mem_singleton]
    constructor
    · rintro rfl
      refine ⟨last, getElem?_append_singleton.mpr (.inr ⟨rfl, rfl⟩), rfl, ?_⟩
      exact attained_append_singleton.mpr (.inr ⟨le_rfl, chosen, rfl⟩)
    · intro ⟨item, listed, _, attained⟩
      -- an earlier item with the value would have been kept
      rcases attained_append_singleton.mp attained with ⟨j, other, -, before, own, same⟩ | ⟨late, -⟩
      · exact absurd (kept.least j other before own) (by rw [same]; exact not_le.mpr better)
      · rcases getElem?_append_singleton.mp listed with before | ⟨rfl, -⟩
        · exact absurd (List.getElem?_eq_some_iff.mp before).1 (not_lt.mpr late)
        · rfl

theorem IsScan.attained (below : ∀ entry, value entry < init) {item : α} {i : Nat}
    (same : value (item, i) = found.best) : Attained value eligible items found.best items.length := by
  cases kept.best with
  | inl untouched =>
      have less := below (item, i)
      rw [same, untouched] at less
      exact absurd less (lt_irrefl init)
  | inr attained => exact attained

theorem IsScan.keep (below : ∀ entry, value entry < init)
    (worse : eligible (last, items.length) = true → found.best ≤ value (last, items.length)) {positions : List Nat}
    (joined : ∀ i, i ∈ positions ↔ i ∈ found.positions ∨ i = items.length ∧ value (last, items.length) = found.best) :
    IsScan value eligible init (items ++ [last]) { found with positions := positions } where
  best := by
    apply kept.best.imp_right
    intro attained
    rw [List.length_append]
    exact (attained_append_singleton.mpr (.inl attained)).mono (Nat.le_add_right _ _)
  least j item listed own := by
    rcases getElem?_append_singleton.mp listed with before | ⟨rfl, rfl⟩
    · exact kept.least j item before own
    · exact worse own
  positions i := by
    rw [joined]
    constructor
    · rintro (before | ⟨rfl, same⟩)
      · obtain ⟨item, listed, same, attained⟩ := (kept.positions i).mp before
        exact ⟨item, getElem?_append_singleton.mpr (.inl listed), same, attained_append_singleton.mpr (.inl attained)⟩
      · refine ⟨last, getElem?_append_singleton.mpr (.inr ⟨rfl, rfl⟩), same, ?_⟩
        exact attained_append_singleton.mpr (.inl (kept.attained below same))
    · intro ⟨item, listed, same, attained⟩
      rcases getElem?_append_singleton.mp listed with before | ⟨rfl, rfl⟩
      · rcases attained_append_singleton.mp attained with attained | ⟨late, -⟩
        · exact .inl ((kept.positions i).mpr ⟨item, before, same, attained⟩)
        · exact absurd (List.getElem?_eq_some_iff.mp before).1 (not_lt.mpr late)
      · exact .inr ⟨rfl, same⟩

end Step

theorem isScan_scanLeast (below : ∀ entry, value entry < init) (items : List α) :
    IsScan value eligible init items (scanLeast value eligible init items) := by
  induction items using List.reverseRecOn with
  | nil => exact ⟨.inl rfl, by simp, by simp [scanLeast, scan]⟩
  | append_singleton items last kept =>
      rw [scanLeast, scan_append_singleton, ← scanLeast, Candidates.visit]
      split_ifs with replaces joins
      · rw [Bool.and_eq_true, decide_eq_true_eq] at replaces
        exact kept.replace replaces.1 replaces.2
      · rw [decide_eq_true_eq] at joins
        apply kept.keep below fun _ => joins.ge
        simp [joins]
      · rw [decide_eq_true_eq] at joins
        apply kept.keep below
        · intro chosen
          simpa [chosen] using replaces
        · intro i
          exact (or_iff_left fun last => joins last.2).symm

section Positions
variable (below : ∀ entry, value entry < init) {items : List α}
include below

theorem mem_scanLeast_iff {i : Nat} :
    i ∈ (scanLeast value eligible init items).positions ↔
      ∃ item, items[i]? = some item ∧ Attained value eligible items (value (item, i)) i ∧
        ∀ j other, items[j]? = some other → eligible (other, j) = true → value (item, i) ≤ value (other, j) := by
  have scanned := @isScan_scanLeast α β value eligible _ init below items
  rw [scanned.positions]
  constructor
  · intro ⟨item, listed, same, attained⟩
    rw [← same] at attained
    exact ⟨item, listed, attained, fun j other there chosen => same.trans_le (scanned.least j other there chosen)⟩
  · intro ⟨item, listed, attained, least⟩
    have best : value (item, i) = (scanLeast value eligible init items).best := by
      obtain ⟨j, other, -, there, chosen, same⟩ := attained
      have atMost := scanned.least j other there chosen
      rw [same] at atMost
      cases scanned.best with
      | inl untouched => exact absurd (below (item, i)) (not_lt.mpr (untouched ▸ atMost))
      | inr kept =>
          obtain ⟨k, third, -, found, own, value_eq⟩ := kept
          exact le_antisymm (value_eq ▸ least k third found own) atMost
    exact ⟨item, listed, best, best ▸ attained⟩

theorem scanLeast_eq_nil_iff :
    (scanLeast value eligible init items).positions = [] ↔
      ∀ j item, items[j]? = some item → eligible (item, j) = false := by
  have scanned := @isScan_scanLeast α β value eligible _ init below items
  rw [List.eq_nil_iff_forall_not_mem]
  constructor
  · intro empty j item listed
    by_contra chosen
    have least := scanned.least j item listed (eq_true_of_ne_false chosen)
    cases scanned.best with
    | inl untouched => exact absurd (below (item, j)) (not_lt.mpr (untouched ▸ least))
    | inr kept =>
        obtain ⟨k, other, -, found, own, same⟩ := kept
        exact empty k ((scanned.positions k).mpr ⟨other, found, same, k, other, le_rfl, found, own, same⟩)
  · intro none i member
    obtain ⟨-, -, -, j, item, -, listed, chosen, -⟩ := (scanned.positions i).mp member
    rw [none j item listed] at chosen
    cases chosen

end Positions

end Least

/-! ## The greatest value of the eligible items -/

section Greatest
variable [LinearOrder β] {value : α × Nat → β} {eligible : α × Nat → Bool} {init : β}

structure IsGreatestScan (value : α × Nat → β) (eligible : α × Nat → Bool) (init : β) (items : List α)
    (found : Candidates β) : Prop where
  init_le : init ≤ found.best
  best : found.best = init ∨ Attained value eligible items found.best items.length
  greatest : ∀ j item, items[j]? = some item → eligible (item, j) = true → value (item, j) ≤ found.best
  positions : ∀ i, i ∈ found.positions ↔
    ∃ item, items[i]? = some item ∧ eligible (item, i) = true ∧ value (item, i) = found.best

section Step
variable {items : List α} {last : α} {found : Candidates β} (kept : IsGreatestScan value eligible init items found)
include kept

theorem IsGreatestScan.replace (better : found.best < value (last, items.length))
    (chosen : eligible (last, items.length) = true) :
    IsGreatestScan value eligible init (items ++ [last]) ⟨value (last, items.length), [items.length]⟩ where
  init_le := kept.init_le.trans better.le
  best := by
    right
    rw [attained_append_singleton, List.length_append]
    exact .inr ⟨Nat.le_add_right _ _, chosen, rfl⟩
  greatest j item listed own := by
    rcases getElem?_append_singleton.mp listed with before | ⟨rfl, rfl⟩
    · exact (kept.greatest j item before own).trans better.le
    · exact le_rfl
  positions i := by
    rw [List.mem_singleton]
    constructor
    · rintro rfl
      exact ⟨last, getElem?_append_singleton.mpr (.inr ⟨rfl, rfl⟩), chosen, rfl⟩
    · intro ⟨item, listed, own, same⟩
      rcases getElem?_append_singleton.mp listed with before | ⟨rfl, -⟩
      · exact absurd (kept.greatest i item before own) (by rw [same]; exact not_le.mpr better)
      · rfl

theorem IsGreatestScan.keep
    (worse : eligible (last, items.length) = true → value (last, items.length) ≤ found.best) {positions : List Nat}
    (joined : ∀ i, i ∈ positions ↔ i ∈ found.positions ∨
      i = items.length ∧ eligible (last, items.length) = true ∧ value (last, items.length) = found.best) :
    IsGreatestScan value eligible init (items ++ [last]) { found with positions := positions } where
  init_le := kept.init_le
  best := by
    apply kept.best.imp_right
    intro attained
    rw [List.length_append]
    exact (attained_append_singleton.mpr (.inl attained)).mono (Nat.le_add_right _ _)
  greatest j item listed own := by
    rcases getElem?_append_singleton.mp listed with before | ⟨rfl, rfl⟩
    · exact kept.greatest j item before own
    · exact worse own
  positions i := by
    rw [joined, kept.positions]
    constructor
    · rintro (⟨item, listed, own, same⟩ | ⟨rfl, own, same⟩)
      · exact ⟨item, getElem?_append_singleton.mpr (.inl listed), own, same⟩
      · exact ⟨last, getElem?_append_singleton.mpr (.inr ⟨rfl, rfl⟩), own, same⟩
    · intro ⟨item, listed, own, same⟩
      rcases getElem?_append_singleton.mp listed with before | ⟨rfl, rfl⟩
      · exact .inl ⟨item, before, own, same⟩
      · exact .inr ⟨rfl, own, same⟩

end Step

end Greatest

end InferenceGateway.Lib.RunningBest
