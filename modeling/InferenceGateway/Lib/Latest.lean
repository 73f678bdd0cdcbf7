import Mathlib.Data.List.Basic
import Mathlib.Order.Lattice

/-!
# The latest element of a list

A scan keeps the element with the newest key so far, and starts with a key that the first one has to
exceed. Keys are compared by a relation of their own, which need not be an order: it only has to be
one, along `rank`, on the keys that the scan can have reached.
-/

namespace InferenceGateway.Lib.Latest

variable {α K R : Type*}

def scan (eligible : α → Bool) (key : α → K) (newer : K → K → Bool) (found : Option α × K) (a : α) : Option α × K :=
  if eligible a then
    if newer (key a) found.2 then (some a, key a) else found
  else found

def latest (eligible : α → Bool) (key : α → K) (newer : K → K → Bool) (seed : K) (items : List α) : Option α :=
  (items.foldl (scan eligible key newer) (none, seed)).1

theorem rel_latest {r : α → α → Prop} {eligible : α → Bool} {key : α → K} (newer : K → K → Bool) (seed : K)
    (same : ∀ a b, r a b → eligible a = eligible b ∧ key a = key b) {items items' : List α}
    (related : List.Forall₂ r items items') :
    Option.Rel r (latest eligible key newer seed items) (latest eligible key newer seed items') := by
  unfold latest
  suffices ∀ found found' : Option α × K, Option.Rel r found.1 found'.1 → found.2 = found'.2 →
      Option.Rel r (items.foldl (scan eligible key newer) found).1 (items'.foldl (scan eligible key newer) found').1 by
    exact this _ _ .none rfl
  induction related with
  | nil => exact fun _ _ first _ => first
  | @cons a b _ _ pair _ ih =>
      intro found found' first keys
      obtain ⟨meets, equal⟩ := same a b pair
      apply ih
      · unfold scan
        rw [meets, equal, keys]
        split_ifs
        · exact .some pair
        · exact first
        · exact first
      · unfold scan
        rw [meets, equal, keys]
        split_ifs <;> first | rfl | exact keys

section Order
variable [LinearOrder R]

/-- The first of the elements of the highest rank. -/
def IsLatest (eligible : α → Prop) (rank : α → R) (items : List α) (a : α) : Prop :=
  ∃ before after, items = before ++ a :: after ∧ eligible a ∧
    (∀ b ∈ before, eligible b → rank b < rank a) ∧ ∀ b ∈ after, eligible b → rank b ≤ rank a

theorem IsLatest.mem {eligible : α → Prop} {rank : α → R} {items : List α} {a : α}
    (isLatest : IsLatest eligible rank items a) : a ∈ items := by
  obtain ⟨before, after, rfl, _⟩ := isLatest
  exact List.mem_append_right _ List.mem_cons_self

theorem IsLatest.eligible {eligible : α → Prop} {rank : α → R} {items : List α} {a : α}
    (isLatest : IsLatest eligible rank items a) : eligible a := by
  obtain ⟨_, _, _, meets, _⟩ := isLatest
  exact meets

theorem IsLatest.unique {eligible : α → Prop} {rank : α → R} {items : List α} {a b : α}
    (first : IsLatest eligible rank items a) (second : IsLatest eligible rank items b) : a = b := by
  obtain ⟨before, after, rfl, meets, early, late⟩ := first
  obtain ⟨before', after', split, meets', early', late'⟩ := second
  rcases List.append_eq_append_iff.mp split with ⟨between, rfl, rest⟩ | ⟨between, rfl, rest⟩
  · cases between with
    | nil => exact (List.cons.inj rest).1
    | cons c between =>
        obtain ⟨rfl, rfl⟩ := List.cons.inj rest
        have above := early' a (by simp) meets
        exact absurd (late b (by simp) meets') (not_le.mpr above)
  · cases between with
    | nil => exact (List.cons.inj rest).1.symm
    | cons c between =>
        obtain ⟨rfl, rfl⟩ := List.cons.inj rest
        have above := early b (by simp) meets'
        exact absurd (late' a (by simp) meets) (not_le.mpr above)

end Order

section Scan
variable [LinearOrder R] {eligible : α → Bool} {key : α → K} {newer : K → K → Bool} {seed : K} {rank : K → R}
  (order : ∀ k k', rank seed ≤ rank k' → (newer k k' = true ↔ rank k' < rank k))
include order

theorem foldl_scan (items : List α) (found : Option α × K) (above : rank seed ≤ rank found.2) :
    ((∀ b ∈ items, eligible b = true → rank (key b) ≤ rank found.2) ∧
      items.foldl (scan eligible key newer) found = found) ∨
    ∃ a, IsLatest (eligible · = true) (rank ∘ key) items a ∧ rank found.2 < rank (key a) ∧
      items.foldl (scan eligible key newer) found = (some a, key a) := by
  induction items generalizing found with
  | nil => exact .inl ⟨List.forall_mem_nil _, rfl⟩
  | cons item items ih =>
      rw [List.foldl_cons]
      by_cases taken : eligible item = true ∧ rank found.2 < rank (key item)
      · obtain ⟨meets, exceeds⟩ := taken
        have step : scan eligible key newer found item = (some item, key item) := by
          rw [scan, if_pos meets, if_pos ((order _ _ above).mpr exceeds)]
        rw [step]
        right
        rcases ih (some item, key item) (above.trans exceeds.le) with ⟨lower, same⟩ | ⟨a, isLatest, higher, same⟩
        · exact ⟨item, ⟨[], items, rfl, meets, List.forall_mem_nil _, lower⟩, exceeds, same⟩
        · obtain ⟨before, after, rfl, meetsA, early, late⟩ := isLatest
          refine ⟨a, ⟨item :: before, after, rfl, meetsA, ?_, late⟩, exceeds.trans higher, same⟩
          exact List.forall_mem_cons.mpr ⟨fun _ => higher, early⟩
      · have step : scan eligible key newer found item = found := by
          rw [scan]
          split_ifs with meets exceeds
          · exact absurd ⟨meets, (order _ _ above).mp exceeds⟩ taken
          · rfl
          · rfl
        have below : eligible item = true → rank (key item) ≤ rank found.2 :=
          fun meets => not_lt.mp fun exceeds => taken ⟨meets, exceeds⟩
        rw [step]
        rcases ih found above with ⟨lower, same⟩ | ⟨a, isLatest, higher, same⟩
        · exact .inl ⟨List.forall_mem_cons.mpr ⟨below, lower⟩, same⟩
        · obtain ⟨before, after, rfl, meetsA, early, late⟩ := isLatest
          refine .inr ⟨a, ⟨item :: before, after, rfl, meetsA, ?_, late⟩, higher, same⟩
          exact List.forall_mem_cons.mpr ⟨fun meets => (below meets).trans_lt higher, early⟩

theorem latest_eq_none_iff {items : List α} :
    latest eligible key newer seed items = none ↔ ∀ b ∈ items, eligible b = true → rank (key b) ≤ rank seed := by
  unfold latest
  rcases foldl_scan order items (none, seed) le_rfl with ⟨lower, same⟩ | ⟨a, isLatest, higher, same⟩
  · rw [same]
    exact iff_of_true rfl lower
  · rw [same]
    apply iff_of_false (Option.some_ne_none a)
    intro lower
    exact absurd (lower a isLatest.mem isLatest.eligible) (not_le.mpr higher)

theorem latest_eq_some_iff {items : List α} {a : α} :
    latest eligible key newer seed items = some a ↔
      IsLatest (eligible · = true) (rank ∘ key) items a ∧ rank seed < rank (key a) := by
  unfold latest
  rcases foldl_scan order items (none, seed) le_rfl with ⟨lower, same⟩ | ⟨b, isLatest, higher, same⟩
  · rw [same]
    apply iff_of_false (Option.some_ne_none a).symm
    intro found
    exact absurd (lower a found.1.mem found.1.eligible) (not_le.mpr found.2)
  · rw [same]
    constructor
    · intro found
      cases found
      exact ⟨isLatest, higher⟩
    · intro again
      rw [isLatest.unique again.1]

end Scan

/-! ## The last value written -/

/-- A fold whose steps may write a field ends with the last value that was written. -/
theorem foldl_written {S E A : Type*} {step : S → E → S} {field : S → A} {written : E → Option A}
    (each : ∀ s event, field (step s event) = (written event).getD (field s)) (events : List E) (s : S) :
    field (events.foldl step s) = (events.filterMap written).getLast?.getD (field s) := by
  induction events generalizing s with
  | nil => rfl
  | cons event events ih =>
      rw [List.foldl_cons, ih, each, List.filterMap_cons]
      cases written event with
      | none => rfl
      | some value =>
          rw [List.getLast?_cons, Option.getD_some]
          cases (events.filterMap written).getLast? <;> rfl

theorem getLastD_append {A : Type*} (l l' : List A) (a : A) : (l ++ l').getLastD a = l'.getLastD (l.getLastD a) := by
  simp only [List.getLastD_eq_getLast?, List.getLast?_append]
  cases l'.getLast? <;> rfl

theorem getLast?_filterMap_eq_some_iff {E A : Type*} {written : E → Option A} {events : List E} {value : A} :
    (events.filterMap written).getLast? = some value ↔
      ∃ before event after, events = before ++ event :: after ∧ written event = some value ∧
        ∀ later ∈ after, written later = none := by
  rw [List.getLast?_eq_some_iff]
  constructor
  · rintro ⟨values, split⟩
    obtain ⟨before, rest, rfl, _, last⟩ := List.filterMap_eq_append_iff.mp split
    obtain ⟨silent, event, after, rfl, _, written, none⟩ := List.filterMap_eq_cons_iff.mp last
    exact ⟨before ++ silent, event, after, by simp, written, List.filterMap_eq_nil_iff.mp none⟩
  · rintro ⟨before, event, after, rfl, last, silent⟩
    refine ⟨before.filterMap written, ?_⟩
    rw [List.filterMap_append, List.filterMap_cons_some last, List.filterMap_eq_nil_iff.mpr silent]

end InferenceGateway.Lib.Latest
