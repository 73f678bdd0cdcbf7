import Mathlib.Algebra.BigOperators.Group.Multiset.Basic
import Mathlib.Algebra.Order.BigOperators.Group.Multiset
import InferenceGateway.Proof.ContinuousBatching

/-!
Every request that fits into a batch is served: an iteration pays for an output token of some request,
or evicts what the next one prefills again.
-/

namespace InferenceGateway.ContinuousBatching
open Lib.Outcome

variable {Id : Type}

/-! ## The output that is still to be paid for -/

def remaining (items : Multiset (Request Id)) : Int := (items.map Request.outputSizeRemaining).sum

@[simp] theorem remaining_zero : remaining (0 : Multiset (Request Id)) = 0 := rfl

@[simp] theorem remaining_cons (item : Request Id) (items : Multiset (Request Id)) :
    remaining (item ::ₘ items) = item.outputSizeRemaining + remaining items := by
  simp [remaining]

@[simp] theorem remaining_add (items others : Multiset (Request Id)) :
    remaining (items + others) = remaining items + remaining others := by
  rw [remaining, Multiset.map_add, Multiset.sum_add]
  rfl

theorem remaining_nonneg {items : Multiset (Request Id)} (nonneg : ∀ item ∈ items, 0 ≤ item.outputSizeRemaining) :
    0 ≤ remaining items := by
  apply Multiset.sum_nonneg
  intro tokens member
  obtain ⟨item, isItem, rfl⟩ := Multiset.mem_map.mp member
  exact nonneg item isItem

theorem remaining_pos {items : Multiset (Request Id)} (nonneg : ∀ item ∈ items, 0 ≤ item.outputSizeRemaining)
    {item : Request Id} (member : item ∈ items) (positive : 0 < item.outputSizeRemaining) : 0 < remaining items := by
  obtain ⟨others, rfl⟩ := Multiset.exists_cons_of_mem member
  have rest := remaining_nonneg fun other isOther => nonneg other (Multiset.mem_cons_of_mem isOther)
  rw [remaining_cons]
  omega

def Simulation.outstanding (s : Simulation Id) : Int :=
  remaining s.actor.requests + remaining (s.feed.flatten : Multiset (Request Id))

/-- The requests that no iteration has taken yet. -/
def Simulation.untaken (s : Simulation Id) : List (Request Id) := s.actor.prefillStore ++ s.feed.flatten

/-- What a part of an iteration does to the state and to the requests that it holds: it pays for `paid`
output tokens, and no request that is too large for a batch is taken. -/
structure Advances (paid : Int) (held : Multiset (Request Id)) (s : Simulation Id) (held' : Multiset (Request Id))
    (s' : Simulation Id) : Prop where
  outstanding : remaining held' + s'.outstanding + paid = remaining held + s.outstanding
  feed : s'.feed.length ≤ s.feed.length
  untaken : ∀ item ∈ s.untaken, maxNumBatchTokens < item.inputSize → item ∈ s'.untaken

variable {feed : List (List (Request Id))} {held held' held'' : Multiset (Request Id)} {s s' s'' : Simulation Id}
  {paid paid' : Int}

theorem Advances.refl (held : Multiset (Request Id)) (s : Simulation Id) : Advances 0 held s held s :=
  ⟨by simp, le_rfl, fun _ member _ => member⟩

theorem Advances.trans (first : Advances paid held s held' s') (second : Advances paid' held' s' held'' s'') :
    Advances (paid + paid') held s held'' s'' := by
  constructor
  · have := first.outstanding
    have := second.outstanding
    omega
  · exact second.feed.trans first.feed
  · intro item member large
    exact second.untaken item (first.untaken item member large) large

theorem advances_of_moved (moved : held' + s'.actor.requests = held + s.actor.requests) (fed : s'.feed = s.feed)
    (prefill : ∀ item ∈ s.actor.prefillStore, maxNumBatchTokens < item.inputSize → item ∈ s'.actor.prefillStore) :
    Advances 0 held s held' s' := by
  constructor
  · have tokens := congrArg remaining moved
    simp only [remaining_add] at tokens
    simp only [Simulation.outstanding, fed]
    omega
  · rw [fed]
  · intro item member large
    rw [Simulation.untaken, List.mem_append] at member ⊢
    rw [fed]
    exact member.imp_left fun stored => prefill item stored large

theorem advances_yields (held : Multiset (Request Id)) (s : Simulation Id) : Advances 0 held s held s.yields := by
  cases fed : s.feed with
  | nil =>
      have same : s.yields = s := by simp only [Simulation.yields, fed]
      rw [same]
      exact .refl held s
  | cons puts rest =>
      have next : s.yields = { s with actor.prefillStore := s.actor.prefillStore ++ puts, feed := rest } := by
        simp only [Simulation.yields, fed]
      rw [next]
      constructor
      · simp only [Simulation.outstanding, LLMActor.requests, fed, List.flatten_cons, ← Multiset.coe_add,
          remaining_add]
        omega
      · simp [fed]
      · intro item member large
        simpa [Simulation.untaken, fed] using member

theorem advances_spends (held : Multiset (Request Id)) (s : Simulation Id) (item : Request Id) :
    Advances 1 (item ::ₘ held) s ({ item with outputSizeRemaining := item.outputSizeRemaining - 1 } ::ₘ held) s := by
  refine ⟨?_, le_rfl, fun _ member _ => member⟩
  simp only [remaining_cons]
  omega

theorem advances_learns (held : Multiset (Request Id)) (s : Simulation Id) (ids : List Id) :
    Advances 0 held s held { s with reqDict := ids } :=
  advances_of_moved rfl rfl fun _ stored _ => stored

theorem advances_putDecode (held : Multiset (Request Id)) (s : Simulation Id) (item : Request Id) :
    Advances 0 (item ::ₘ held) s held (s.putDecode item) := by
  refine advances_of_moved ?_ rfl fun _ stored _ => stored
  simp only [LLMActor.requests, Simulation.putDecode, ← Multiset.coe_add, Multiset.coe_singleton,
    ← Multiset.singleton_add]
  abel

theorem advances_putDecoded (held : Multiset (Request Id)) (s : Simulation Id) (item : Request Id) :
    Advances 0 (item ::ₘ held) s held (s.putDecoded item) := by
  refine advances_of_moved ?_ rfl fun _ stored _ => stored
  simp only [LLMActor.requests, Simulation.putDecoded, ← Multiset.coe_add, Multiset.coe_singleton,
    ← Multiset.singleton_add]
  abel

theorem advances_leavesDecode (held : Multiset (Request Id)) {item : Request Id} {items : List (Request Id)}
    (stored : s.actor.decodeStore.Perm (item :: items)) :
    Advances 0 held s (item ::ₘ held) { s with actor.decodeStore := items } := by
  refine advances_of_moved ?_ rfl fun _ stored _ => stored
  simp only [LLMActor.requests, Multiset.coe_eq_coe.mpr stored, ← Multiset.cons_coe, ← Multiset.singleton_add]
  abel

theorem advances_takes (held : Multiset (Request Id)) {source : Source} {oldestItem : Request Id}
    {items : List (Request Id)} (stored : s.actor.items source = oldestItem :: items)
    (small : oldestItem.inputSize ≤ maxNumBatchTokens) :
    Advances 0 held s (oldestItem ::ₘ held) { s with actor := s.actor.withItems items source } := by
  cases source with
  | recompute =>
      simp only [LLMActor.items] at stored
      refine advances_of_moved ?_ rfl fun _ stored _ => stored
      simp only [LLMActor.requests, LLMActor.withItems, stored, ← Multiset.cons_coe, ← Multiset.singleton_add]
      abel
  | prefill =>
      simp only [LLMActor.items] at stored
      refine advances_of_moved ?_ rfl ?_
      · simp only [LLMActor.requests, LLMActor.withItems, stored, ← Multiset.cons_coe, ← Multiset.singleton_add]
        abel
      · intro item member large
        rw [stored, List.mem_cons] at member
        rcases member with rfl | member
        · exact absurd small (not_le.mpr large)
        · exact member

/-! ## Prefill -/

theorem Inv.exists_origin (inv : Inv feed held s) {item : Request Id} (member : item ∈ held + s.actor.requests) :
    ∃ created ∈ feed.flatten, created.origin = item.origin := by
  obtain ⟨put, split, conserved⟩ := inv.conserved
  have mapped : item.origin ∈ (put : Multiset (Request Id)).map Request.origin := by
    rw [← conserved]
    exact Multiset.mem_map_of_mem _ member
  obtain ⟨created, isPut, same⟩ := Multiset.mem_map.mp mapped
  refine ⟨created, ?_, same⟩
  rw [split]
  exact List.mem_append_left _ isPut

theorem Inv.exists_inputSize (inv : Inv feed held s) {item : Request Id} (member : item ∈ held + s.actor.requests) :
    ∃ created ∈ feed.flatten, created.inputSize = item.inputSize := by
  obtain ⟨created, isCreated, same⟩ := inv.exists_origin member
  have size : created.origin.inputSize = item.origin.inputSize := congrArg Request.inputSize same
  exact ⟨created, isCreated, size⟩

theorem mem_requests_of_items {actor : LLMActor Id} (source : Source) {item : Request Id}
    (member : item ∈ actor.items source) : item ∈ actor.requests := by
  cases source with
  | recompute => exact Multiset.mem_add.mpr (.inr (Multiset.mem_add.mpr (.inl member)))
  | prefill => exact Multiset.mem_add.mpr (.inl member)

theorem small_of_not_full {actor : LLMActor Id} {fetched : Fetched Id} {oldestItem : Request Id}
    (open_ : ¬actor.full fetched oldestItem = true) :
    fetched.prefillBatchSize + oldestItem.inputSize ≤ maxNumBatchTokens := by
  simp only [LLMActor.full, Bool.or_eq_true, decide_eq_true_eq, not_or, not_lt] at open_
  exact open_.1.2

theorem advances_fetchFrom (positive : ∀ item ∈ feed.flatten, 0 < item.inputSize) {fetched : Fetched Id}
    (fetching : Fetching feed fetched s) (batch : 0 ≤ fetched.prefillBatchSize) (source : Source) (rounds : Nat) :
    0 ≤ (fetchFrom source rounds fetched s).1.prefillBatchSize ∧
      Advances 0 fetched.itemsToPrefill s (fetchFrom source rounds fetched s).1.itemsToPrefill
        (fetchFrom source rounds fetched s).2 := by
  induction rounds generalizing fetched s with
  | zero => exact ⟨batch, .refl _ _⟩
  | succ rounds ih =>
      have next := fetching.fetchFrom source 1
      cases stored : s.actor.items source with
      | nil =>
          simp only [fetchFrom, stored]
          exact ⟨batch, .refl _ _⟩
      | cons oldestItem items =>
          simp only [fetchFrom, stored] at next ⊢
          split_ifs with full
          · exact ⟨batch, .refl _ _⟩
          · rw [if_neg full] at next
            have member : oldestItem ∈ s.actor.items source := stored ▸ List.mem_cons_self
            obtain ⟨created, isCreated, size⟩ :=
              fetching.inv.exists_inputSize (Multiset.mem_add.mpr (.inr (mem_requests_of_items source member)))
            have some_input := positive created isCreated
            have fits := small_of_not_full full
            obtain ⟨ready, -⟩ := fetching.inv.takes stored
            have taken := (advances_takes fetched.itemsToPrefill stored (by omega)).trans (advances_yields _ _)
            rw [Multiset.cons_coe, ← Multiset.coe_eq_coe.mpr (List.perm_append_singleton ..)] at taken
            obtain ⟨batch', rest⟩ := ih next (by simp only [Request.len]; omega)
            exact ⟨batch', taken.trans rest⟩

theorem advances_loadLora (held : Multiset (Request Id)) (s : Simulation Id) (lora : Option String) :
    Ensures (loadLora s lora) (fun s' => Advances 0 held s held s') fun _ => True := by
  cases lora with
  | none => exact .refl held s
  | some lora =>
      simp only [loadLora]
      split_ifs
      · exact .refl held s
      · cases loraDict.lookup lora with
        | none => trivial
        | some size => exact advances_of_moved rfl rfl fun _ stored _ => stored

theorem advances_processPrefillItem (held : Multiset (Request Id)) (s : Simulation Id) (fetched : Request Id) :
    Ensures (processPrefillItem s fetched) (fun s' => Advances 1 (fetched ::ₘ held) s held s') fun _ => True := by
  refine (advances_loadLora (fetched ::ₘ held) s fetched.lora).bind fun loaded advances => ?_
  have learned := advances.trans (advances_learns _ loaded (fetched.id :: loaded.reqDict))
  have spent := learned.trans (advances_spends held _ fetched)
  dsimp only
  split_ifs
  · exact spent.trans (advances_putDecoded held _ _)
  · trivial
  · exact spent.trans (advances_putDecode held _ _)

theorem advances_processPrefillItems (s : Simulation Id) (items : List (Request Id)) :
    Ensures (processPrefillItems s items) (fun s' => Advances items.length items s 0 s') fun _ => True := by
  let I (rest : List (Request Id)) (s' : Simulation Id) : Prop :=
    Advances (items.length - rest.length) items s rest s'
  have step (item : Request Id) (rest : List (Request Id)) (s' : Simulation Id) (holds : I (item :: rest) s') :
      Ensures (processPrefillItem s' item) (I rest) fun _ => True := by
    refine (advances_processPrefillItem rest s' item).mono fun s'' advances => ?_
    have all := holds.trans (Multiset.cons_coe item rest ▸ advances)
    have paid : (items.length : Int) - (item :: rest).length + 1 = items.length - rest.length := by
      rw [List.length_cons]
      push_cast
      omega
    rw [paid] at all
    exact all
  have start : I items s := by
    simp only [I, sub_self]
    exact .refl _ _
  refine (ensures_foldlM step start).mono fun s' holds => ?_
  simpa [I] using holds

/-! ## Decode -/

theorem advances_takeForDecode (rounds : Nat) (tempItems : List (Request Id)) (s : Simulation Id) :
    Ensures (takeForDecode rounds tempItems s) (fun result => Advances rounds tempItems s result.1 result.2)
      fun _ => True := by
  induction rounds generalizing tempItems s with
  | zero => exact .refl _ _
  | succ rounds ih =>
      cases stored : s.actor.decodeStore with
      | nil =>
          simp only [takeForDecode, stored]
          trivial
      | cons first items =>
          simp only [takeForDecode, stored]
          split_ifs
          · trivial
          · refine (ih _ _).mono fun result rest => ?_
            have left := (advances_leavesDecode tempItems (.of_eq stored)).trans (advances_yields _ _)
            have spent := left.trans (advances_spends tempItems _ first)
            rw [Multiset.cons_coe, ← Multiset.coe_eq_coe.mpr (List.perm_append_singleton ..)] at spent
            have all := (spent.trans (advances_learns _ _ _)).trans rest
            have paid : (0 + 0 + 1 + 0 + rounds : Int) = (rounds + 1 : Nat) := by
              push_cast
              omega
            rw [paid] at all
            exact all

theorem advances_putBack (items : List (Request Id)) (s : Simulation Id) :
    Advances 0 items s 0 (items.foldl putBack s) := by
  induction items generalizing s with
  | nil => exact .refl _ _
  | cons item rest ih =>
      rw [List.foldl_cons, ← Multiset.cons_coe]
      have put : Advances 0 (item ::ₘ rest) s rest (putBack s item) := by
        unfold putBack
        split_ifs
        · exact advances_putDecoded _ _ _
        · exact advances_putDecode _ _ _
      exact put.trans (ih _)

theorem advances_decodeItems (s : Simulation Id) :
    Ensures (decodeItems s) (fun s' => Advances s.actor.decodeStore.length 0 s 0 s') fun _ => True := by
  refine (advances_takeForDecode s.actor.decodeStore.length [] s).bind fun result taken => ?_
  have all := taken.trans (advances_putBack result.1 result.2)
  rw [add_zero] at all
  exact all

/-! ## What is left to do -/

theorem canPrefillFrom_of_small {actor : LLMActor Id} {source : Source} (idle : actor.decodeStore = [])
    (some_item : actor.items source ≠ []) (small : ∀ item ∈ actor.items source, item.inputSize ≤ maxNumBatchTokens) :
    canPrefillFrom actor source = true := by
  unfold canPrefillFrom
  cases stored : actor.items source with
  | nil => exact absurd stored some_item
  | cons oldestItem items =>
      have fits := small oldestItem (stored ▸ List.mem_cons_self)
      have positive : ¬maxGPUMemoryPercBeforeRecompute ≤ 0 := by decide +kernel
      have room : ¬maxNumSeq < 1 := by decide
      simpa [LLMActor.full, LLMActor.getNumTokensInDecode, idle, room, positive] using fits

/-- A request that fits is never kept from an actor that decodes nothing. -/
theorem canPrefillItems_of_small {actor : LLMActor Id} (idle : actor.decodeStore = [])
    (waits : ¬(actor.prefillStore = [] ∧ actor.recomputeStore = []))
    (small : ∀ item ∈ actor.requests, item.inputSize ≤ maxNumBatchTokens) : canPrefillItems actor = true := by
  have smallItems (source : Source) (item : Request Id) (member : item ∈ actor.items source) :=
    small item (mem_requests_of_items source member)
  rw [canPrefillItems, Bool.or_eq_true]
  by_cases recomputes : actor.recomputeStore = []
  · right
    exact canPrefillFrom_of_small idle (fun none => waits ⟨none, recomputes⟩) (smallItems .prefill)
  · left
    exact canPrefillFrom_of_small idle recomputes (smallItems .recompute)

def LLMActor.Idle (actor : LLMActor Id) : Prop :=
  actor.decodeStore = [] ∧ actor.prefillStore = [] ∧ actor.recomputeStore = []

/-- What an iteration comes to from the state after its first yield. -/
def Proceeds (s s' : Simulation Id) : Prop :=
  ∃ paid, Advances paid 0 s 0 s' ∧ (s.actor.Idle ∧ s' = s.yields ∨ 0 < paid ∨
    0 ≤ paid ∧ ¬s.actor.Idle ∧ canPrefillItems s.actor = false ∧ s'.actor.decodeStore = [])

theorem proceeds_decode (before : Advances 0 0 s 0 s') (some_item : s'.actor.decodeStore.length > 0) :
    Ensures (do return (← decodeItems s').yields) (Proceeds s) fun _ => True := by
  refine (advances_decodeItems s').bind fun s'' decoded => ?_
  exact ⟨_, (before.trans decoded).trans (advances_yields _ _), .inr (.inl (by omega))⟩

theorem proceeds_prefill (positive : ∀ item ∈ feed.flatten, 0 < item.inputSize) (inv : Inv feed 0 s)
    (prefills : canPrefillItems s.actor = true) :
    Ensures (do return (← processPrefillItems (fetchPrefillItems s).2 (fetchPrefillItems s).1).yields) (Proceeds s)
      fun _ => True := by
  have start : Fetching feed {} s := ⟨inv, by simp, rfl, by simpa using inv.size⟩
  obtain ⟨batch, recomputes⟩ := advances_fetchFrom positive start le_rfl .recompute maxNumSeq
  obtain ⟨-, rest⟩ := advances_fetchFrom positive (start.fetchFrom .recompute maxNumSeq) batch .prefill maxNumSeq
  have fetched : Advances 0 0 s (fetchPrefillItems s).1 (fetchPrefillItems s).2 := recomputes.trans rest
  have some_item := List.length_pos_iff.mpr ((canPrefillItems_iff s).mp prefills)
  refine (advances_processPrefillItems _ _).bind fun s' processed => ?_
  exact ⟨_, (fetched.trans processed).trans (advances_yields _ _), .inr (.inl (by omega))⟩

def Drained (s : Simulation Id) : Prop := s.feed = [] ∧ s.actor.Idle

/-- An eviction of everything that is decoded is paid for by the iteration that has put it there. -/
def Simulation.work (s : Simulation Id) : Int :=
  2 * s.outstanding + s.feed.length + if s.actor.decodeStore = [] then 0 else 1

theorem Inv.nonneg (inv : Inv feed 0 s) (item : Request Id) (member : item ∈ s.actor.requests) :
    0 ≤ item.outputSizeRemaining := by
  simp only [LLMActor.requests, Multiset.mem_add, Multiset.mem_coe] at member
  rcases member with prefill | recompute | decode | decoded
  · exact (inv.waiting item prefill).1.le
  · exact (inv.recomputed item recompute).1.le
  · exact (inv.started item decode).1.1.le
  · exact (inv.finished item decoded).ge

theorem Inv.drained_of_work (inv : Inv feed 0 s) (done : s.work ≤ 0) : Drained s := by
  have held := remaining_nonneg inv.nonneg
  have toCome : 0 ≤ remaining (s.feed.flatten : Multiset (Request Id)) :=
    remaining_nonneg fun item member => (inv.toCome item member).1.le
  simp only [Simulation.work, Simulation.outstanding] at done
  have unpaid (item : Request Id) (member : item ∈ s.actor.requests) : ¬0 < item.outputSizeRemaining := by
    intro positive
    have := remaining_pos inv.nonneg member positive
    split_ifs at done <;> omega
  refine ⟨?_, ?_, ?_, ?_⟩
  · apply List.eq_nil_of_length_eq_zero
    split_ifs at done <;> omega
  · by_contra used
    rw [if_neg used] at done
    omega
  · apply List.eq_nil_iff_forall_not_mem.mpr
    intro item member
    exact unpaid item (mem_requests_of_items .prefill member) (inv.waiting item member).1
  · apply List.eq_nil_iff_forall_not_mem.mpr
    intro item member
    exact unpaid item (mem_requests_of_items .recompute member) (inv.recomputed item member).1

theorem Inv.work_of_drained (inv : Inv feed 0 s) (drained : Drained s) : s.work = 0 := by
  obtain ⟨fed, decode, prefill, recompute⟩ := drained
  have finished : remaining (s.actor.decodedStore : Multiset (Request Id)) = 0 := by
    apply Multiset.sum_eq_zero
    intro tokens member
    obtain ⟨item, stored, rfl⟩ := Multiset.mem_map.mp member
    exact inv.finished item stored
  simp [Simulation.work, Simulation.outstanding, LLMActor.requests, fed, decode, prefill, recompute, finished]

theorem Proceeds.works (inv : Inv feed 0 s) (small : ∀ item ∈ feed.flatten, item.inputSize ≤ maxNumBatchTokens)
    (proceeds : Proceeds s.yields s') : s'.work ≤ max 0 (s.work - 1) := by
  obtain ⟨paid, rest, outcome⟩ := proceeds
  have yielded := advances_yields 0 s
  have tokens := (yielded.trans rest).outstanding
  have fed := (yielded.trans rest).feed
  simp only [remaining_zero, zero_add] at tokens
  rcases outcome with ⟨idle, rfl⟩ | pays | ⟨nonneg, busy, blocked, evicted⟩
  · cases feeds : s.feed with
    | nil =>
        have same : s.yields = s := by simp only [Simulation.yields, feeds]
        rw [same] at idle ⊢
        rw [same, inv.work_of_drained ⟨feeds, idle⟩]
        exact le_max_left _ _
    | cons puts others =>
        have fewer : s.yields.feed.length < s.feed.length := by simp [Simulation.yields, feeds]
        have again := advances_yields 0 s.yields
        have kept := again.outstanding
        have fed := again.feed
        have kept' := yielded.outstanding
        have unused : s.actor.decodeStore = [] := (yields_decodeStore s).symm.trans idle.1
        simp only [Simulation.work, yields_decodeStore, unused, if_true]
        omega
  · simp only [Simulation.work]
    split_ifs <;> omega
  · -- what fits would have been prefilled, had nothing been decoded
    have used : s.actor.decodeStore ≠ [] := by
      intro unused
      rw [← yields_decodeStore] at unused
      have fits (item : Request Id) (member : item ∈ s.yields.actor.requests) :
          item.inputSize ≤ maxNumBatchTokens := by
        obtain ⟨created, isCreated, size⟩ := inv.yields.exists_inputSize (Multiset.mem_add.mpr (.inr member))
        exact size ▸ small created isCreated
      have opens := canPrefillItems_of_small unused (fun none => busy ⟨unused, none⟩) fits
      rw [blocked] at opens
      cases opens
    simp only [Simulation.work, evicted, used, if_true, if_false]
    omega

/-! ## Completion -/

/-- All requests have been served. -/
def Completed (feed : List (List (Request Id))) (s : Simulation Id) : Prop :=
  (s.actor.decodedStore.map Request.origin).Perm feed.flatten

theorem Inv.completed (inv : Inv feed 0 s) (created : Created feed) (drained : Drained s) : Completed feed s := by
  obtain ⟨fed, decode, prefill, recompute⟩ := drained
  obtain ⟨put, split, same⟩ := (inv.conserves created).conserved
  rw [fed, List.flatten_nil, List.append_nil] at split
  rw [Completed, split, ← Multiset.coe_eq_coe, ← Multiset.map_coe, ← same]
  simp [LLMActor.requests, decode, prefill, recompute]

theorem Inv.untaken_of_completed (inv : Inv feed 0 s) (created : Created feed) (completed : Completed feed s) :
    s.untaken = [] := by
  obtain ⟨put, split, same⟩ := (inv.conserves created).conserved
  have stored := congrArg Multiset.card same
  have all := completed.length_eq
  have fed := congrArg List.length split
  simp only [LLMActor.requests, Multiset.map_add, Multiset.card_add, Multiset.card_map, Multiset.coe_card] at stored
  simp only [List.length_map, List.length_append] at all fed
  apply List.eq_nil_of_length_eq_zero
  rw [Simulation.untaken, List.length_append]
  omega

theorem Created.positive (created : Created feed) (item : Request Id) (member : item ∈ feed.flatten) :
    0 < item.inputSize := by
  obtain ⟨id, inputSize, outputSize, lora, positive, -, rfl⟩ := created.fresh item member
  exact positive

theorem Created.outstanding (created : Created feed) :
    ({ feed := feed } : Simulation Id).outstanding = (feed.flatten.map Request.outputSize).sum := by
  have same (item : Request Id) (member : item ∈ feed.flatten) : item.outputSizeRemaining = item.outputSize := by
    obtain ⟨id, inputSize, outputSize, lora, -, -, rfl⟩ := created.fresh item member
    rfl
  simp [Simulation.outstanding, LLMActor.requests, remaining, List.map_congr_left same]

/-! ## Eviction -/

variable [LinearOrder Id]

theorem advances_putRecompute (held : Multiset (Request Id)) (s : Simulation Id) (item : Request Id) :
    Advances 0 (item ::ₘ held) s held { s with actor := s.actor.putRecompute item } := by
  have inserted := List.perm_orderedInsert (fun a b : Request Id => a.id ≤ b.id) item s.actor.recomputeStore
  refine advances_of_moved ?_ rfl fun _ stored _ => stored
  simp only [LLMActor.requests, LLMActor.putRecompute, Multiset.coe_eq_coe.mpr inserted, ← Multiset.cons_coe,
    ← Multiset.singleton_add]
  abel

theorem advances_removeRounds (rounds : Nat) (s : Simulation Id) :
    Ensures (removeRounds rounds s) (fun s' => Advances 0 0 s 0 s') fun _ => True := by
  induction rounds generalizing s with
  | zero =>
      rw [removeRounds]
      split_ifs
      · trivial
      · exact .refl _ _
  | succ rounds ih =>
      rw [removeRounds]
      split_ifs
      · cases s.actor.decodeStore.getLast? with
        | none => trivial
        | some newest =>
            dsimp only
            split_ifs
            · cases found : s.actor.decodeStore.find? (fun req => req.id = newest.id) with
              | none => trivial
              | some newestDecodeItem =>
                  refine (ih _).mono fun s' rest => ?_
                  have left := (advances_leavesDecode 0 (perm_cons_eraseP_of_find? found)).trans (advances_yields _ _)
                  exact (left.trans (advances_putRecompute 0 _ _)).trans rest
            · trivial
      · exact .refl _ _

/-! ## The main loop -/

theorem proceeds_iteration (positive : ∀ item ∈ feed.flatten, 0 < item.inputSize) (inv : Inv feed 0 s) :
    Ensures (iteration s) (Proceeds s.yields) fun _ => True := by
  unfold iteration
  dsimp only
  split_ifs with idle prefills evicts
  · simp only [List.length_eq_zero_iff] at idle
    exact ⟨0, advances_yields _ _, .inl ⟨idle, rfl⟩⟩
  · exact proceeds_prefill positive inv.yields prefills
  all_goals simp only [List.length_eq_zero_iff] at idle
  · refine (advances_removeRounds _ s.yields).bind fun s' removed => ?_
    split_ifs with some_item
    · exact proceeds_decode removed some_item
    · rw [gt_iff_lt, Nat.pos_iff_ne_zero, not_not, List.length_eq_zero_iff] at some_item
      exact ⟨0, removed, .inr (.inr ⟨le_rfl, idle, Bool.eq_false_iff.mpr prefills, some_item⟩)⟩
  · rw [pure_bind]
    split_ifs with some_item
    · exact proceeds_decode (.refl _ _) some_item
    · rw [gt_iff_lt, Nat.pos_iff_ne_zero, not_not, List.length_eq_zero_iff] at some_item
      exact ⟨0, .refl _ _, .inr (.inr ⟨le_rfl, idle, Bool.eq_false_iff.mpr prefills, some_item⟩)⟩

theorem run_untaken (created : Created feed) (iterations : Nat) :
    Ensures (prefillOrDecode feed iterations) (fun s => Inv feed 0 s ∧
      ∀ item ∈ feed.flatten, maxNumBatchTokens < item.inputSize → item ∈ s.untaken) (UnknownLora feed) := by
  induction iterations with
  | zero =>
      refine ⟨created.prefillOrDecode 0, fun item member large => ?_⟩
      simpa [Simulation.untaken] using member
  | succ iterations ih =>
      refine ih.bind fun s holds => ?_
      obtain ⟨inv, untaken⟩ := holds
      refine (inv.iteration.and (proceeds_iteration created.positive inv)).mono fun s' after => ?_
      obtain ⟨inv', paid, rest, -⟩ := after
      refine ⟨inv', fun item member large => ?_⟩
      exact ((advances_yields 0 s).trans rest).untaken item (untaken item member large) large

theorem run_works (created : Created feed) (small : ∀ item ∈ feed.flatten, item.inputSize ≤ maxNumBatchTokens)
    (iterations : Nat) :
    Ensures (prefillOrDecode feed iterations) (fun s => Inv feed 0 s ∧
      s.work ≤ max 0 (feed.length + 2 * (feed.flatten.map Request.outputSize).sum - iterations))
      (UnknownLora feed) := by
  induction iterations with
  | zero =>
      have start : ({ feed := feed } : Simulation Id).work =
          feed.length + 2 * (feed.flatten.map Request.outputSize).sum := by
        simp only [Simulation.work, created.outstanding, if_true]
        omega
      refine ⟨created.prefillOrDecode 0, ?_⟩
      rw [start]
      simp
  | succ iterations ih =>
      refine ih.bind fun s holds => ?_
      obtain ⟨inv, works⟩ := holds
      refine (inv.iteration.and (proceeds_iteration created.positive inv)).mono fun s' after => ?_
      obtain ⟨inv', proceeds⟩ := after
      refine ⟨inv', (proceeds.works inv small).trans ?_⟩
      push_cast
      omega

/-- Requests with known adapters are all served in the end, unless one of them is too large for a batch:
that one is never taken. -/
theorem requests_completed_iff (created : Created feed)
    (known : ∀ item ∈ feed.flatten, ∀ lora, item.lora = some lora → loraDict.lookup lora ≠ none) {iterations : Nat}
    (enough : feed.length + 2 * (feed.flatten.map Request.outputSize).sum ≤ iterations) :
    (∃ s, prefillOrDecode feed iterations = .ok s ∧ Completed feed s) ↔
      ∀ item ∈ feed.flatten, item.inputSize ≤ maxNumBatchTokens := by
  constructor
  · rintro ⟨s, ran, completed⟩ item member
    have untaken := run_untaken created iterations
    rw [ran] at untaken
    by_contra large
    have waits := untaken.2 item member (not_le.mp large)
    rw [untaken.1.untaken_of_completed created completed] at waits
    cases waits
  · intro small
    have works := run_works created small iterations
    cases ran : prefillOrDecode feed iterations with
    | error crash =>
        rw [ran] at works
        obtain ⟨item, member, lora, named, unknown, -⟩ := works
        exact absurd unknown (known item member lora named)
    | ok s =>
        rw [ran] at works
        obtain ⟨inv, done⟩ := works
        have drained := inv.drained_of_work (done.trans (max_le le_rfl (by omega)))
        exact ⟨s, rfl, inv.completed created drained⟩

theorem test_requests_completed : ∃ s, prefillOrDecode testFeed 14 = .ok s ∧ Completed testFeed s := by
  refine (requests_completed_iff created_testFeed ?_ ?_).mpr ?_
  · decide +kernel
  · decide +kernel
  · decide +kernel

end InferenceGateway.ContinuousBatching
