import Mathlib.Algebra.Order.BigOperators.Group.Finset
import Mathlib.Data.Rat.Floor
import InferenceGateway.Proof.ContinuousBatching.Completion

/-!
The KV cache is never filled by more than one request over the share of the memory at which requests
are evicted.
-/

namespace InferenceGateway.ContinuousBatching
open Lib.Outcome

variable {Id : Type}

/-! ## What the adapters leave -/

def tokens (items : List (Request Id)) : Int := (items.map Request.len).sum

@[simp] theorem tokens_nil : tokens ([] : List (Request Id)) = 0 := rfl

@[simp] theorem tokens_cons (item : Request Id) (items : List (Request Id)) :
    tokens (item :: items) = item.len + tokens items := by
  simp [tokens]

@[simp] theorem tokens_append (items others : List (Request Id)) :
    tokens (items ++ others) = tokens items + tokens others := by
  simp [tokens]

def loraSize (lora : String) : Int := (loraDict.lookup lora).getD 0

structure Budget (actor : LLMActor Id) : Prop where
  distinct : actor.loraLoaded.Nodup
  known : ∀ lora ∈ actor.loraLoaded, lora ∈ loraDict.map Prod.fst
  allowed : actor.maxNumTokensAllowed = maxNumTokensAllowed - (actor.loraLoaded.map loraSize).sum

theorem loraSize_nonneg {lora : String} (known : lora ∈ loraDict.map Prod.fst) : 0 ≤ loraSize lora := by
  have all : ∀ lora ∈ loraDict.map Prod.fst, 0 ≤ loraSize lora := by decide
  exact all lora known

theorem Budget.bounds {actor : LLMActor Id} (budget : Budget actor) :
    0 < actor.maxNumTokensAllowed ∧ actor.maxNumTokensAllowed ≤ maxNumTokensAllowed := by
  obtain ⟨distinct, known, allowed⟩ := budget
  have nonneg : 0 ≤ (actor.loraLoaded.map loraSize).sum := by
    apply List.sum_nonneg
    intro size member
    obtain ⟨lora, loaded, rfl⟩ := List.mem_map.mp member
    exact loraSize_nonneg (known lora loaded)
  have most : (actor.loraLoaded.map loraSize).sum ≤ ((loraDict.map Prod.fst).map loraSize).sum := by
    rw [← List.sum_toFinset _ distinct, ← List.sum_toFinset _ (by decide : (loraDict.map Prod.fst).Nodup)]
    apply Finset.sum_le_sum_of_subset_of_nonneg
    · intro lora loaded
      exact List.mem_toFinset.mpr (known lora (List.mem_toFinset.mp loaded))
    · intro lora listed _
      exact loraSize_nonneg (List.mem_toFinset.mp listed)
  have room : ((loraDict.map Prod.fst).map loraSize).sum < maxNumTokensAllowed := by decide
  omega

/-- Nine tenths of the cache as it is without adapters. `shouldRecompute` evicts at nine tenths of what the adapters
leave of it, which is less. -/
def cacheLimit : Int := ⌊maxGPUMemoryPercBeforeRecompute * maxNumTokensAllowed⌋

example : cacheLimit = 40003 := by decide +kernel

theorem Budget.le_cacheLimit {actor : LLMActor Id} (budget : Budget actor) {tokens : Int}
    (within : (tokens : Rat) / actor.maxNumTokensAllowed ≤ maxGPUMemoryPercBeforeRecompute) : tokens ≤ cacheLimit := by
  have positive : (0 : Rat) < actor.maxNumTokensAllowed := Int.cast_pos.mpr budget.bounds.1
  have share : (0 : Rat) ≤ maxGPUMemoryPercBeforeRecompute := by decide +kernel
  apply Int.le_floor.mpr
  calc (tokens : Rat) ≤ maxGPUMemoryPercBeforeRecompute * actor.maxNumTokensAllowed := (div_le_iff₀ positive).mp within
    _ ≤ maxGPUMemoryPercBeforeRecompute * maxNumTokensAllowed :=
      mul_le_mul_of_nonneg_left (Int.cast_le.mpr budget.bounds.2) share

theorem Budget.le_of_not_full {actor : LLMActor Id} (budget : Budget actor) {fetched : Fetched Id}
    {oldestItem : Request Id} (open_ : ¬actor.full fetched oldestItem = true) :
    fetched.prefillBatchSize + fetched.numNewSeq + tokens actor.decodeStore ≤ cacheLimit := by
  simp only [LLMActor.full, Bool.or_eq_true, decide_eq_true_eq, not_or, not_le, ge_iff_le] at open_
  apply budget.le_cacheLimit
  rw [Int.cast_add, Int.cast_add, Int.cast_natCast]
  exact open_.2.le

theorem Budget.le_of_not_shouldRecompute {actor : LLMActor Id} (budget : Budget actor)
    (fits : shouldRecompute actor = false) : actor.decodeStore.length + tokens actor.decodeStore ≤ cacheLimit := by
  simp only [shouldRecompute, decide_eq_false_iff_not, not_lt, gt_iff_lt] at fits
  exact budget.le_cacheLimit fits

/-! ## Prefill -/

/-- The requests that are decoded, and what the adapters leave, are the same in both states. -/
structure SameMemory (s s' : Simulation Id) : Prop where
  decodeStore : s'.actor.decodeStore = s.actor.decodeStore
  loraLoaded : s'.actor.loraLoaded = s.actor.loraLoaded
  allowed : s'.actor.maxNumTokensAllowed = s.actor.maxNumTokensAllowed

variable {feed : List (List (Request Id))} {s s' : Simulation Id} {size : Nat}

theorem SameMemory.budget (same : SameMemory s s') (budget : Budget s.actor) : Budget s'.actor := by
  constructor
  · rw [same.loraLoaded]
    exact budget.distinct
  · rw [same.loraLoaded]
    exact budget.known
  · rw [same.allowed, same.loraLoaded]
    exact budget.allowed

theorem sameMemory_yields (s : Simulation Id) : SameMemory s s.yields := by
  unfold Simulation.yields
  cases s.feed with
  | nil | cons => exact ⟨rfl, rfl, rfl⟩

theorem sameMemory_takes (items : List (Request Id)) (source : Source) :
    SameMemory s ({ s with actor := s.actor.withItems items source } : Simulation Id).yields := by
  have yielded := sameMemory_yields { s with actor := s.actor.withItems items source }
  cases source with
  | recompute | prefill => exact ⟨yielded.decodeStore, yielded.loraLoaded, yielded.allowed⟩

structure Loading (size : Nat) (fetched : Fetched Id) (s : Simulation Id) : Prop where
  budget : Budget s.actor
  batch : fetched.prefillBatchSize = tokens fetched.itemsToPrefill
  fits : tokens s.actor.decodeStore + tokens fetched.itemsToPrefill + fetched.itemsToPrefill.length ≤ cacheLimit + size

theorem Inv.exists_sizes {held : Multiset (Request Id)} (inv : Inv feed held s) {item : Request Id}
    (member : item ∈ held + s.actor.requests) : ∃ created ∈ feed.flatten,
      created.inputSize = item.inputSize ∧ created.outputSize = item.outputSize := by
  obtain ⟨created, isCreated, same⟩ := inv.exists_origin member
  have input : created.origin.inputSize = item.origin.inputSize := congrArg Request.inputSize same
  have output : created.origin.outputSize = item.origin.outputSize := congrArg Request.outputSize same
  exact ⟨created, isCreated, input, output⟩

theorem Loading.fetchFrom (sizes : ∀ item ∈ feed.flatten, item.inputSize + item.outputSize ≤ size)
    {fetched : Fetched Id} (fetching : Fetching feed fetched s) (loading : Loading size fetched s) (source : Source)
    (rounds : Nat) :
    Loading size (ContinuousBatching.fetchFrom source rounds fetched s).1
      (ContinuousBatching.fetchFrom source rounds fetched s).2 := by
  induction rounds generalizing fetched s with
  | zero => exact loading
  | succ rounds ih =>
      have next := fetching.fetchFrom source 1
      cases stored : s.actor.items source with
      | nil =>
          simp only [ContinuousBatching.fetchFrom, stored]
          exact loading
      | cons oldestItem items =>
          simp only [ContinuousBatching.fetchFrom, stored] at next ⊢
          split_ifs with full
          · exact loading
          · rw [if_neg full] at next
            have same := sameMemory_takes (s := s) items source
            have member : oldestItem ∈ s.actor.items source := stored ▸ List.mem_cons_self
            obtain ⟨created, isCreated, input, output⟩ :=
              fetching.inv.exists_sizes (Multiset.mem_add.mpr (.inr (mem_requests_of_items source member)))
            obtain ⟨⟨positive, -⟩, -⟩ := fetching.inv.takes stored
            have within := loading.budget.le_of_not_full full
            have one : oldestItem.len + 1 ≤ size := by
              have := sizes created isCreated
              simp only [Request.len]
              omega
            rw [loading.batch, fetching.count] at within
            refine ih next ⟨same.budget loading.budget, ?_, ?_⟩
            · simp [loading.batch]
            · rw [same.decodeStore]
              simp only [tokens_append, tokens_cons, tokens_nil, List.length_append, List.length_singleton]
              push_cast
              omega

/-- What the memory holds once `held` is in it, too. -/
structure Within (size : Nat) (held : List (Request Id)) (s : Simulation Id) : Prop where
  budget : Budget s.actor
  fits : tokens s.actor.decodeStore + tokens held ≤ cacheLimit + size

theorem SameMemory.within {held : List (Request Id)} (same : SameMemory s s') (within : Within size held s) :
    Within size held s' := by
  refine ⟨same.budget within.budget, ?_⟩
  rw [same.decodeStore]
  exact within.fits

theorem Within.putDecode {item : Request Id} {held : List (Request Id)} (within : Within size (item :: held) s) :
    Within size held (s.putDecode item) := by
  refine ⟨⟨within.budget.distinct, within.budget.known, within.budget.allowed⟩, ?_⟩
  have fits := within.fits
  simp only [Simulation.putDecode, tokens_append, tokens_cons, tokens_nil] at fits ⊢
  omega

theorem Within.putDecoded {item : Request Id} {held : List (Request Id)} (within : Within size (item :: held) s)
    (nonneg : 0 ≤ item.len) : Within size held (s.putDecoded item) := by
  refine ⟨⟨within.budget.distinct, within.budget.known, within.budget.allowed⟩, ?_⟩
  have fits := within.fits
  simp only [Simulation.putDecoded, tokens_cons] at fits ⊢
  omega

theorem Within.loadLora {held : List (Request Id)} (within : Within size held s) (lora : Option String) :
    Ensures (loadLora s lora) (Within size held) fun _ => True := by
  cases lora with
  | none => exact within
  | some lora =>
      simp only [ContinuousBatching.loadLora]
      split_ifs with loaded
      · exact within
      · cases found : loraDict.lookup lora with
        | none => trivial
        | some space =>
            have listed : lora ∈ loraDict.map Prod.fst := by
              obtain ⟨entry, member, named⟩ := List.lookup_isSome_iff.mp (Option.isSome_of_eq_some found)
              exact List.mem_map.mpr ⟨entry, member, (beq_iff_eq.mp named).symm⟩
            refine ⟨⟨List.nodup_cons.mpr ⟨loaded, within.budget.distinct⟩, ?_, ?_⟩, within.fits⟩
            · exact List.forall_mem_cons.mpr ⟨listed, within.budget.known⟩
            · simp only [within.budget.allowed, List.map_cons, List.sum_cons, loraSize, found, Option.getD_some]
              omega

/-- The request with one more token. -/
def Request.next (item : Request Id) : Request Id := { item with outputSizeRemaining := item.outputSizeRemaining - 1 }

@[simp] theorem len_next (item : Request Id) : item.next.len = item.len + 1 := by
  simp only [Request.len, Request.next]
  omega

theorem Within.processPrefillItem {held : List (Request Id)} {fetched : Request Id}
    (within : Within size (fetched.next :: held) s) (nonneg : 0 ≤ fetched.len) :
    Ensures (processPrefillItem s fetched) (Within size held) fun _ => True := by
  refine (within.loadLora fetched.lora).bind fun loaded within => ?_
  have known : Within size (fetched.next :: held) { loaded with reqDict := fetched.id :: loaded.reqDict } :=
    ⟨within.budget, within.fits⟩
  dsimp only
  split_ifs
  · apply known.putDecoded
    rw [len_next]
    omega
  · trivial
  · exact known.putDecode

theorem tokens_map_next (items : List (Request Id)) :
    tokens (items.map Request.next) = tokens items + items.length := by
  induction items with
  | nil => rfl
  | cons item items ih =>
      simp only [List.map_cons, tokens_cons, len_next, ih, List.length_cons]
      push_cast
      omega

theorem Within.processPrefillItems {items : List (Request Id)} (within : Within size (items.map Request.next) s)
    (nonneg : ∀ item ∈ items, 0 ≤ item.len) :
    Ensures (processPrefillItems s items) (Within size []) fun _ => True := by
  let I (rest : List (Request Id)) (s : Simulation Id) : Prop :=
    Within size (rest.map Request.next) s ∧ ∀ item ∈ rest, 0 ≤ item.len
  have step (item : Request Id) (rest : List (Request Id)) (s : Simulation Id) (holds : I (item :: rest) s) :
      Ensures (ContinuousBatching.processPrefillItem s item) (I rest) fun _ => True := by
    obtain ⟨within, nonneg⟩ := holds
    rw [List.forall_mem_cons] at nonneg
    exact (within.processPrefillItem nonneg.1).mono fun s' after => ⟨after, nonneg.2⟩
  exact (ensures_foldlM step ⟨within, nonneg⟩).mono fun s' holds => holds.1

/-! ## Decode -/

theorem Within.takeForDecode {tempItems : List (Request Id)} (within : Within size tempItems s) (rounds : Nat)
    (room : tokens s.actor.decodeStore + tokens tempItems + rounds ≤ cacheLimit + size) :
    Ensures (takeForDecode rounds tempItems s) (fun result => Within size result.1 result.2) fun _ => True := by
  induction rounds generalizing tempItems s with
  | zero => exact within
  | succ rounds ih =>
      cases stored : s.actor.decodeStore with
      | nil =>
          simp only [ContinuousBatching.takeForDecode, stored]
          trivial
      | cons first items =>
          simp only [ContinuousBatching.takeForDecode, stored]
          rw [stored] at room
          have same := sameMemory_yields { s with actor.decodeStore := items }
          have tokens_next : tokens (tempItems ++ [first.next]) = tokens tempItems + (first.len + 1) := by simp
          rw [tokens_cons] at room
          push_cast at room
          split_ifs
          · trivial
          · refine ih ⟨?_, ?_⟩ ?_
            · exact same.budget ⟨within.budget.distinct, within.budget.known, within.budget.allowed⟩
            · rw [same.decodeStore]
              change _ + tokens (tempItems ++ [first.next]) ≤ _
              dsimp only
              omega
            · rw [same.decodeStore]
              change _ + tokens (tempItems ++ [first.next]) + _ ≤ _
              dsimp only
              omega

theorem Within.putBack {items : List (Request Id)} (within : Within size items s)
    (nonneg : ∀ item ∈ items, 0 ≤ item.len) : Within size [] (items.foldl putBack s) := by
  induction items generalizing s with
  | nil => exact within
  | cons item rest ih =>
      rw [List.forall_mem_cons] at nonneg
      rw [List.foldl_cons]
      refine ih ?_ nonneg.2
      unfold ContinuousBatching.putBack
      split_ifs
      · exact within.putDecoded nonneg.1
      · exact within.putDecode

theorem Budget.within (size : Nat) (budget : Budget s.actor) (fits : shouldRecompute s.actor = false) :
    Within size [] s := by
  have room := budget.le_of_not_shouldRecompute fits
  refine ⟨budget, ?_⟩
  rw [tokens_nil]
  omega

theorem Budget.decodeItems (size : Nat) (positive : ∀ item ∈ feed.flatten, 0 < item.inputSize) (inv : Inv feed 0 s)
    (budget : Budget s.actor) (fits : shouldRecompute s.actor = false) :
    Ensures (decodeItems s) (Within size []) fun _ => True := by
  have start : Decoding feed [] s := ⟨inv, by simp, by simpa using inv.size⟩
  have room := budget.le_of_not_shouldRecompute fits
  have within := (budget.within size fits).takeForDecode s.actor.decodeStore.length (by rw [tokens_nil]; omega)
  refine (within.and (start.takeForDecode rfl)).bind fun result taken => ?_
  obtain ⟨within, decoding⟩ := taken
  apply within.putBack
  intro item member
  obtain ⟨created, isCreated, input, -⟩ := decoding.inv.exists_sizes (Multiset.mem_add.mpr (.inl member))
  have := positive created isCreated
  have := (decoding.taken item member).1.2
  rw [Request.len]
  omega

/-! ## The main loop -/

theorem Within.prefillItems (positive : ∀ item ∈ feed.flatten, 0 < item.inputSize)
    (sizes : ∀ item ∈ feed.flatten, item.inputSize + item.outputSize ≤ size) (inv : Inv feed 0 s)
    (within : Within size [] s) :
    Ensures (ContinuousBatching.processPrefillItems (fetchPrefillItems s).2 (fetchPrefillItems s).1) (Within size [])
      fun _ => True := by
  have start : Fetching feed {} s := ⟨inv, by simp, rfl, by simpa using inv.size⟩
  have empty : Loading size {} s := ⟨within.budget, rfl, by simpa using within.fits⟩
  have fetching := (start.fetchFrom .recompute maxNumSeq).fetchFrom .prefill maxNumSeq
  have loading := (empty.fetchFrom sizes start .recompute maxNumSeq).fetchFrom sizes
    (start.fetchFrom .recompute maxNumSeq) .prefill maxNumSeq
  refine Within.processPrefillItems ⟨loading.budget, ?_⟩ ?_
  · rw [tokens_map_next, ← add_assoc]
    exact loading.fits
  · intro item member
    obtain ⟨created, isCreated, input, -⟩ := fetching.inv.exists_sizes (Multiset.mem_add.mpr (.inl member))
    have := positive created isCreated
    have := (fetching.ready item member).2
    rw [Request.len]
    omega

variable [LinearOrder Id]

theorem Budget.removeRounds (budget : Budget s.actor) (rounds : Nat) :
    Ensures (removeRounds rounds s) (fun s' => Budget s'.actor ∧ shouldRecompute s'.actor = false) fun _ => True := by
  induction rounds generalizing s with
  | zero =>
      rw [ContinuousBatching.removeRounds]
      split_ifs with evicts
      · trivial
      · exact ⟨budget, Bool.eq_false_iff.mpr evicts⟩
  | succ rounds ih =>
      rw [ContinuousBatching.removeRounds]
      split_ifs with evicts
      · cases s.actor.decodeStore.getLast? with
        | none => trivial
        | some newest =>
            dsimp only
            split_ifs
            · cases s.actor.decodeStore.find? (fun req => req.id = newest.id) with
              | none => trivial
              | some newestDecodeItem =>
                  have yielded := sameMemory_yields
                    { s with actor.decodeStore := s.actor.decodeStore.eraseP fun req => req.id = newest.id }
                  have kept := yielded.budget ⟨budget.distinct, budget.known, budget.allowed⟩
                  exact ih ⟨kept.distinct, kept.known, kept.allowed⟩
            · trivial
      · exact ⟨budget, Bool.eq_false_iff.mpr evicts⟩

theorem Within.iteration (positive : ∀ item ∈ feed.flatten, 0 < item.inputSize)
    (sizes : ∀ item ∈ feed.flatten, item.inputSize + item.outputSize ≤ size) (inv : Inv feed 0 s)
    (within : Within size [] s) : Ensures (iteration s) (Within size []) fun _ => True := by
  have inv := inv.yields
  have within := (sameMemory_yields s).within within
  have decodes (s' : Simulation Id) (inv : Inv feed 0 s') (budget : Budget s'.actor)
      (fits : shouldRecompute s'.actor = false) :
      Ensures (if s'.actor.decodeStore.length > 0 then do return (← decodeItems s').yields else pure s')
        (Within size []) fun _ => True := by
    split_ifs
    · exact (budget.decodeItems size positive inv fits).bind fun s'' decoded => (sameMemory_yields s'').within decoded
    · exact budget.within size fits
  unfold ContinuousBatching.iteration
  dsimp only
  split_ifs with idle prefills evicts
  · exact (sameMemory_yields _).within within
  · exact (within.prefillItems positive sizes inv).bind fun s' processed => (sameMemory_yields s').within processed
  · refine ((within.budget.removeRounds _).and (inv.removeRounds le_rfl)).bind fun s' removed => ?_
    exact decodes s' removed.2 removed.1.1 removed.1.2
  · rw [pure_bind]
    exact decodes s.yields inv within.budget (Bool.eq_false_iff.mpr evicts)

/-- Between iterations, what is decoded is larger than nine tenths of the cache without adapters by at most
one request. An adapter that is loaded into a full cache lowers the code's own threshold below that. -/
theorem kv_cache_bounded (created : Created feed)
    (sizes : ∀ item ∈ feed.flatten, item.inputSize + item.outputSize ≤ size) (iterations : Nat) :
    Ensures (prefillOrDecode feed iterations) (fun s => s.actor.getNumTokensInDecode ≤ cacheLimit + size)
      (UnknownLora feed) := by
  have kept : Ensures (prefillOrDecode feed iterations) (fun s => Inv feed 0 s ∧ Within size [] s)
      (UnknownLora feed) := by
    induction iterations with
    | zero =>
        have nonneg : 0 ≤ cacheLimit := by decide +kernel
        refine ⟨created.prefillOrDecode 0, ⟨List.nodup_nil, by simp, by simp⟩, ?_⟩
        rw [tokens_nil, zero_add]
        omega
    | succ iterations ih =>
        refine ih.bind fun s holds => ?_
        exact holds.1.iteration.and (holds.2.iteration created.positive sizes holds.1)
  refine kept.mono fun s holds => ?_
  have fits := holds.2.fits
  rw [tokens_nil, add_zero] at fits
  exact fits

theorem test_kv_cache_bounded :
    (prefillOrDecode testFeed 1).toOption.any (fun s => s.actor.getNumTokensInDecode = 101) = true ∧
      Ensures (prefillOrDecode testFeed 1) (fun s => s.actor.getNumTokensInDecode ≤ cacheLimit + 302)
        (UnknownLora testFeed) := by
  refine ⟨by decide +kernel, ?_⟩
  have sizes : ∀ item ∈ testFeed.flatten, item.inputSize + item.outputSize ≤ (302 : Nat) := by decide
  exact kv_cache_bounded created_testFeed sizes 1

end InferenceGateway.ContinuousBatching
