import Mathlib.Data.List.Sort
import Mathlib.Algebra.Order.Group.Multiset
import Mathlib.Tactic.Abel
import InferenceGateway.ContinuousBatching
import InferenceGateway.Lib.Outcome

namespace InferenceGateway.ContinuousBatching
open Lib.Outcome

variable {Id : Type}

/-! ## Where the requests are -/

def Request.origin (item : Request Id) : Request Id := { item with outputSizeRemaining := item.outputSize }

def Request.Waiting (item : Request Id) : Prop :=
  0 < item.outputSizeRemaining ∧ item.outputSizeRemaining = item.outputSize

def Request.Started (item : Request Id) : Prop :=
  0 < item.outputSizeRemaining ∧ item.outputSizeRemaining < item.outputSize

def LLMActor.requests (actor : LLMActor Id) : Multiset (Request Id) :=
  actor.prefillStore + (actor.recomputeStore + (actor.decodeStore + actor.decodedStore))

structure Inv (feed : List (List (Request Id))) (held : Multiset (Request Id)) (s : Simulation Id) : Prop where
  -- the requests that have been put into prefill_store are those that are not to come
  conserved : ∃ put, feed.flatten = put ++ s.feed.flatten ∧
    (held + s.actor.requests).map Request.origin = (put : Multiset (Request Id)).map Request.origin
  toCome : ∀ item ∈ s.feed.flatten, item.Waiting
  waiting : ∀ item ∈ s.actor.prefillStore, item.Waiting
  recomputed : ∀ item ∈ s.actor.recomputeStore, item.Started
  started : ∀ item ∈ s.actor.decodeStore, item.Started ∧ item.id ∈ s.reqDict
  finished : ∀ item ∈ s.actor.decodedStore, item.outputSizeRemaining = 0
  size : s.actor.decodeStore.length ≤ maxNumSeq
  peak : s.decodePeak ≤ maxNumSeq

variable {feed : List (List (Request Id))} {held : Multiset (Request Id)} {s : Simulation Id}

theorem Inv.yields (inv : Inv feed held s) : Inv feed held s.yields := by
  cases fed : s.feed with
  | nil =>
      have same : s.yields = s := by simp only [Simulation.yields, fed]
      rw [same]
      exact inv
  | cons puts rest =>
      have next : s.yields =
          { s with actor.prefillStore := s.actor.prefillStore ++ puts, feed := rest } := by
        simp only [Simulation.yields, fed]
      obtain ⟨put, split, same⟩ := inv.conserved
      have toCome := inv.toCome
      rw [fed, List.flatten_cons] at split toCome
      rw [List.forall_mem_append] at toCome
      have more : held + s.yields.actor.requests = held + s.actor.requests + (puts : Multiset (Request Id)) := by
        simp only [next, LLMActor.requests, ← Multiset.coe_add]
        abel
      rw [next] at more ⊢
      refine { inv with conserved := ⟨put ++ puts, by simp [split], ?_⟩, toCome := toCome.2, waiting := ?_ }
      · rw [more, ← Multiset.coe_add, Multiset.map_add, same, Multiset.map_add]
      · exact List.forall_mem_append.mpr ⟨inv.waiting, toCome.1⟩

@[simp] theorem yields_decodeStore (s : Simulation Id) : s.yields.actor.decodeStore = s.actor.decodeStore := by
  unfold Simulation.yields
  cases s.feed with
  | nil | cons => rfl

@[simp] theorem yields_reqDict (s : Simulation Id) : s.yields.reqDict = s.reqDict := by
  unfold Simulation.yields
  cases s.feed with
  | nil | cons => rfl

theorem Inv.carries (inv : Inv feed held s) {held' : Multiset (Request Id)} {s' : Simulation Id}
    (fed : s'.feed = s.feed) (moved : held' + s'.actor.requests = held + s.actor.requests) :
    ∃ put, feed.flatten = put ++ s'.feed.flatten ∧
      (held' + s'.actor.requests).map Request.origin = (put : Multiset (Request Id)).map Request.origin := by
  rw [fed, moved]
  exact inv.conserved

theorem Inv.takes (inv : Inv feed held s) {source : Source} {oldestItem : Request Id} {items : List (Request Id)}
    (stored : s.actor.items source = oldestItem :: items) :
    (0 < oldestItem.outputSizeRemaining ∧ oldestItem.outputSizeRemaining ≤ oldestItem.outputSize) ∧
      Inv feed (oldestItem ::ₘ held) { s with actor := s.actor.withItems items source } := by
  have moved : oldestItem ::ₘ held + (s.actor.withItems items source).requests = held + s.actor.requests := by
    cases source with
    | recompute | prefill =>
        simp only [LLMActor.items] at stored
        simp only [LLMActor.requests, LLMActor.withItems, stored, ← Multiset.cons_coe, ← Multiset.singleton_add]
        abel
  cases source with
  | recompute =>
      have recomputed := inv.recomputed
      rw [show s.actor.recomputeStore = oldestItem :: items from stored, List.forall_mem_cons] at recomputed
      exact ⟨⟨recomputed.1.1, recomputed.1.2.le⟩,
        { inv with conserved := inv.carries rfl moved, recomputed := recomputed.2 }⟩
  | prefill =>
      have waiting := inv.waiting
      rw [show s.actor.prefillStore = oldestItem :: items from stored, List.forall_mem_cons] at waiting
      exact ⟨⟨waiting.1.1, waiting.1.2.le⟩, { inv with conserved := inv.carries rfl moved, waiting := waiting.2 }⟩

theorem Inv.spends {item : Request Id} (inv : Inv feed (item ::ₘ held) s) (remaining : Int) :
    Inv feed ({ item with outputSizeRemaining := remaining } ::ₘ held) s := by
  obtain ⟨put, split, conserved⟩ := inv.conserved
  have same : ({ item with outputSizeRemaining := remaining } : Request Id).origin = item.origin := rfl
  refine { inv with conserved := ⟨put, split, ?_⟩ }
  rw [Multiset.cons_add, Multiset.map_cons, same, ← Multiset.map_cons, ← Multiset.cons_add, conserved]

theorem Inv.learns (inv : Inv feed held s) (id : Id) : Inv feed held { s with reqDict := id :: s.reqDict } where
  __ := inv
  started item member := ⟨(inv.started item member).1, List.mem_cons_of_mem _ (inv.started item member).2⟩

theorem Inv.putDecode {item : Request Id} (inv : Inv feed (item ::ₘ held) s) (started : item.Started)
    (known : item.id ∈ s.reqDict) (room : s.actor.decodeStore.length < maxNumSeq) :
    Inv feed held (s.putDecode item) := by
  have moved : held + (s.putDecode item).actor.requests = item ::ₘ held + s.actor.requests := by
    simp only [LLMActor.requests, Simulation.putDecode, ← Multiset.coe_add, Multiset.coe_singleton,
      ← Multiset.singleton_add]
    abel
  refine { inv with
    conserved := inv.carries rfl moved, started := ?_, size := ?_, peak := max_le inv.peak room }
  · exact List.forall_mem_append.mpr ⟨inv.started, List.forall_mem_singleton.mpr ⟨started, known⟩⟩
  · rw [Simulation.putDecode, List.length_append]
    exact room

theorem Inv.putDecoded {item : Request Id} (inv : Inv feed (item ::ₘ held) s)
    (finished : item.outputSizeRemaining = 0) : Inv feed held (s.putDecoded item) := by
  have moved : held + (s.putDecoded item).actor.requests = item ::ₘ held + s.actor.requests := by
    simp only [LLMActor.requests, Simulation.putDecoded, ← Multiset.coe_add, Multiset.coe_singleton,
      ← Multiset.singleton_add]
    abel
  refine { inv with conserved := inv.carries rfl moved, finished := ?_ }
  exact List.forall_mem_append.mpr ⟨inv.finished, List.forall_mem_singleton.mpr finished⟩

theorem Inv.leavesDecode (inv : Inv feed held s) {item : Request Id} {items : List (Request Id)}
    (stored : s.actor.decodeStore.Perm (item :: items)) :
    (item.Started ∧ item.id ∈ s.reqDict) ∧
      Inv feed (item ::ₘ held) { s with actor.decodeStore := items } := by
  have moved : item ::ₘ held + ({ s.actor with decodeStore := items } : LLMActor Id).requests =
      held + s.actor.requests := by
    simp only [LLMActor.requests, Multiset.coe_eq_coe.mpr stored, ← Multiset.cons_coe, ← Multiset.singleton_add]
    abel
  have started (other : Request Id) (member : other ∈ item :: items) := inv.started other (stored.mem_iff.mpr member)
  have size := inv.size
  rw [stored.length_eq, List.length_cons] at size
  refine ⟨started item List.mem_cons_self, { inv with
    conserved := inv.carries rfl moved
    started := fun other member => started other (List.mem_cons_of_mem _ member)
    size := (Nat.le_succ _).trans size }⟩

structure Created (feed : List (List (Request Id))) : Prop where
  fresh : ∀ item ∈ feed.flatten, ∃ id inputSize outputSize lora, 0 < inputSize ∧ 0 < outputSize ∧
    item = createRequest id inputSize outputSize lora
  distinct : (feed.flatten.map Request.id).Nodup

structure Conserved (feed : List (List (Request Id))) (s : Simulation Id) : Prop where
  -- the four stores together hold each request that has been put into prefill_store once
  conserved : ∃ put, feed.flatten = put ++ s.feed.flatten ∧ s.actor.requests.map Request.origin = put
  distinct : (s.actor.requests.map Request.id).Nodup
  started : ∀ item ∈ s.actor.decodeStore ++ s.actor.recomputeStore,
    0 < item.outputSizeRemaining ∧ item.outputSizeRemaining < item.outputSize
  finished : ∀ item ∈ s.actor.decodedStore, item.outputSizeRemaining = 0
  size : s.actor.decodeStore.length ≤ maxNumSeq
  peak : s.decodePeak ≤ maxNumSeq

theorem Created.origin (created : Created feed) {put rest : List (Request Id)} (split : feed.flatten = put ++ rest) :
    (put : Multiset (Request Id)).map Request.origin = put := by
  have same (item : Request Id) (member : item ∈ put) : item.origin = item := by
    have fed : item ∈ feed.flatten := split ▸ List.mem_append_left rest member
    obtain ⟨id, inputSize, outputSize, lora, -, -, rfl⟩ := created.fresh item fed
    rfl
  rw [Multiset.map_coe, List.map_congr_left same, List.map_id']

theorem Inv.conserves (inv : Inv feed 0 s) (created : Created feed) : Conserved feed s := by
  obtain ⟨put, split, same⟩ := inv.conserved
  rw [zero_add, created.origin split] at same
  have distinct : (put.map Request.id).Nodup := by
    have all := created.distinct
    rw [split, List.map_append] at all
    exact all.of_append_left
  refine ⟨⟨put, split, same⟩, ?_, ?_, inv.finished, inv.size, inv.peak⟩
  · have ids : s.actor.requests.map Request.id = (s.actor.requests.map Request.origin).map Request.id := by
      rw [Multiset.map_map]
      rfl
    rw [ids, same]
    exact distinct
  · exact List.forall_mem_append.mpr ⟨fun item member => (inv.started item member).1, inv.recomputed⟩

/-! ## Prefill -/

def Request.Ready (item : Request Id) : Prop :=
  0 < item.outputSizeRemaining ∧ item.outputSizeRemaining ≤ item.outputSize

structure Fetching (feed : List (List (Request Id))) (fetched : Fetched Id) (s : Simulation Id) : Prop where
  inv : Inv feed fetched.itemsToPrefill s
  ready : ∀ item ∈ fetched.itemsToPrefill, item.Ready
  count : fetched.numNewSeq = fetched.itemsToPrefill.length
  room : s.actor.decodeStore.length + fetched.itemsToPrefill.length ≤ maxNumSeq

theorem room_of_not_full {actor : LLMActor Id} {fetched : Fetched Id} {oldestItem : Request Id}
    (open_ : ¬actor.full fetched oldestItem = true) :
    actor.decodeStore.length + fetched.numNewSeq + 1 ≤ maxNumSeq := by
  simp only [LLMActor.full, Bool.or_eq_true, decide_eq_true_eq, not_or, not_lt] at open_
  exact open_.1.1

@[simp] theorem withItems_decodeStore (actor : LLMActor Id) (items : List (Request Id)) (source : Source) :
    (actor.withItems items source).decodeStore = actor.decodeStore := by
  cases source with
  | recompute | prefill => rfl

theorem Fetching.fetchFrom {fetched : Fetched Id} (fetching : Fetching feed fetched s) (source : Source)
    (rounds : Nat) :
    Fetching feed (fetchFrom source rounds fetched s).1 (fetchFrom source rounds fetched s).2 := by
  induction rounds generalizing fetched s with
  | zero => exact fetching
  | succ rounds ih =>
      cases stored : s.actor.items source with
      | nil =>
          simp only [ContinuousBatching.fetchFrom, stored]
          exact fetching
      | cons oldestItem items =>
          simp only [ContinuousBatching.fetchFrom, stored]
          split_ifs with full
          · exact fetching
          · apply ih
            obtain ⟨ready, taken⟩ := fetching.inv.takes stored
            have room := room_of_not_full full
            rw [fetching.count] at room
            constructor
            · rw [Multiset.coe_eq_coe.mpr (List.perm_append_singleton oldestItem fetched.itemsToPrefill)]
              exact taken.yields
            · exact List.forall_mem_append.mpr ⟨fetching.ready, List.forall_mem_singleton.mpr ready⟩
            · simp [fetching.count]
            · simpa [Nat.add_assoc] using room

theorem Inv.fetchPrefillItems (inv : Inv feed 0 s) :
    ∃ numNewSeq batch, Fetching feed ⟨(fetchPrefillItems s).1, batch, numNewSeq⟩ (fetchPrefillItems s).2 := by
  have start : Fetching feed {} s := ⟨inv, by simp, rfl, by simpa using inv.size⟩
  have fetching := (start.fetchFrom .recompute maxNumSeq).fetchFrom .prefill maxNumSeq
  exact ⟨_, _, fetching⟩

theorem full_of_maxNumSeq_le {fetched : Fetched Id} (many : maxNumSeq ≤ fetched.numNewSeq) (actor : LLMActor Id)
    (oldestItem : Request Id) : actor.full fetched oldestItem = true := by
  by_contra open_
  have room := room_of_not_full open_
  omega

/-- The loops of `fetch_prefill_items` end by their own guard. -/
theorem fetchFrom_add {source : Source} {rounds : Nat} {fetched : Fetched Id}
    (enough : maxNumSeq ≤ fetched.numNewSeq + rounds) (extra : Nat) :
    fetchFrom source (rounds + extra) fetched s = fetchFrom source rounds fetched s := by
  induction rounds generalizing fetched s with
  | zero =>
      rw [Nat.zero_add]
      cases extra with
      | zero => rfl
      | succ extra =>
          cases stored : s.actor.items source with
          | nil | cons => simp only [fetchFrom, stored, full_of_maxNumSeq_le enough, if_true]
  | succ rounds ih =>
      rw [Nat.succ_add]
      cases stored : s.actor.items source with
      | nil => simp only [fetchFrom, stored]
      | cons oldestItem items =>
          simp only [fetchFrom, stored]
          split_ifs
          · rfl
          · apply ih
            dsimp only
            omega

theorem itemsToPrefill_fetchFrom (source : Source) (rounds : Nat) (fetched : Fetched Id) (s : Simulation Id) :
    fetched.itemsToPrefill <+: (fetchFrom source rounds fetched s).1.itemsToPrefill := by
  induction rounds generalizing fetched s with
  | zero => exact List.prefix_rfl
  | succ rounds ih =>
      cases stored : s.actor.items source with
      | nil => simp only [fetchFrom, stored, List.prefix_rfl]
      | cons oldestItem items =>
          simp only [fetchFrom, stored]
          split_ifs
          · exact List.prefix_rfl
          · exact (List.prefix_append fetched.itemsToPrefill [oldestItem]).trans (ih ⟨_, _, _⟩ _)

theorem fetchFrom_of_not_canPrefillFrom {source : Source} (rounds : Nat)
    (blocked : canPrefillFrom s.actor source = false) : fetchFrom source rounds {} s = ({}, s) := by
  cases rounds with
  | zero => rfl
  | succ rounds =>
      unfold canPrefillFrom at blocked
      cases stored : s.actor.items source with
      | nil => simp only [fetchFrom, stored]
      | cons oldestItem items =>
          simp only [stored, Bool.not_eq_false'] at blocked
          simp only [fetchFrom, stored, blocked, if_true]

theorem fetchFrom_of_canPrefillFrom {source : Source} {rounds : Nat} (some_round : 0 < rounds)
    (opens : canPrefillFrom s.actor source = true) : (fetchFrom source rounds {} s).1.itemsToPrefill ≠ [] := by
  obtain ⟨rounds, rfl⟩ := Nat.exists_eq_add_one.mpr some_round
  unfold canPrefillFrom at opens
  cases stored : s.actor.items source with
  | nil => simp [stored] at opens
  | cons oldestItem items =>
      simp only [stored, Bool.not_eq_true'] at opens
      simp only [fetchFrom, stored, opens, Bool.false_eq_true, if_false]
      have fetched : oldestItem ∈ ([] : List (Request Id)) ++ [oldestItem] := List.mem_append_right _ (by simp)
      exact List.ne_nil_of_mem ((itemsToPrefill_fetchFrom ..).subset fetched)

theorem canPrefillItems_iff (s : Simulation Id) :
    canPrefillItems s.actor = true ↔ (fetchPrefillItems s).1 ≠ [] := by
  have rounds : 0 < maxNumSeq := by decide
  unfold canPrefillItems fetchPrefillItems
  cases recomputes : canPrefillFrom s.actor .recompute with
  | true =>
      have fetched := fetchFrom_of_canPrefillFrom rounds recomputes
      have kept := itemsToPrefill_fetchFrom .prefill maxNumSeq (fetchFrom .recompute maxNumSeq {} s).1
        (fetchFrom .recompute maxNumSeq {} s).2
      simpa using kept.ne_nil fetched
  | false =>
      simp only [fetchFrom_of_not_canPrefillFrom maxNumSeq recomputes, Bool.false_or]
      cases prefills : canPrefillFrom s.actor .prefill with
      | true => simpa using fetchFrom_of_canPrefillFrom rounds prefills
      | false => simp [fetchFrom_of_not_canPrefillFrom maxNumSeq prefills]

/-- The error of a simulation: a request names an unknown adapter. -/
def UnknownLora (feed : List (List (Request Id))) (crash : Crash) : Prop :=
  ∃ item ∈ feed.flatten, ∃ lora, item.lora = some lora ∧ loraDict.lookup lora = none ∧
    ∃ peak ≤ maxNumSeq, crash = .loraKeyError lora peak

theorem Inv.created (inv : Inv feed held s) {item : Request Id} (member : item ∈ held) :
    ∃ created ∈ feed.flatten, created.lora = item.lora := by
  obtain ⟨put, split, conserved⟩ := inv.conserved
  have mapped : item.origin ∈ (put : Multiset (Request Id)).map Request.origin := by
    rw [← conserved]
    exact Multiset.mem_map_of_mem _ (Multiset.mem_add.mpr (.inl member))
  obtain ⟨created, isPut, same⟩ := Multiset.mem_map.mp mapped
  have lora : created.origin.lora = item.origin.lora := congrArg Request.lora same
  refine ⟨created, ?_, lora⟩
  rw [split]
  exact List.mem_append_left _ isPut

theorem Inv.loadLora {fetched : Request Id} (inv : Inv feed (fetched ::ₘ held) s) :
    Ensures (loadLora s fetched.lora)
      (fun s' => s'.actor.decodeStore = s.actor.decodeStore ∧ Inv feed (fetched ::ₘ held) s') (UnknownLora feed) := by
  cases named : fetched.lora with
  | none => exact ⟨rfl, inv⟩
  | some lora =>
      simp only [ContinuousBatching.loadLora]
      split_ifs
      · exact ⟨rfl, inv⟩
      · cases found : loraDict.lookup lora with
        | none =>
            obtain ⟨created, member, same⟩ := inv.created (Multiset.mem_cons_self fetched held)
            exact ⟨created, member, lora, same.trans named, found, s.decodePeak, inv.peak, rfl⟩
        | some size => exact ⟨rfl, { inv with }⟩

theorem Inv.processPrefillItem {fetched : Request Id} (inv : Inv feed (fetched ::ₘ held) s) (ready : fetched.Ready)
    (room : s.actor.decodeStore.length < maxNumSeq) :
    Ensures (processPrefillItem s fetched)
      (fun s' => s'.actor.decodeStore.length ≤ s.actor.decodeStore.length + 1 ∧ Inv feed held s')
      (UnknownLora feed) := by
  refine inv.loadLora.bind fun loaded holds => ?_
  obtain ⟨same, inv⟩ := holds
  obtain ⟨positive, bounded⟩ := ready
  have spent := (inv.learns fetched.id).spends (fetched.outputSizeRemaining - 1)
  dsimp only
  split_ifs with done failed
  · refine ⟨?_, spent.putDecoded done⟩
    simp [Simulation.putDecoded, same]
  · omega
  · have started : 0 < fetched.outputSizeRemaining - 1 ∧ fetched.outputSizeRemaining - 1 < fetched.outputSize := by
      omega
    refine ⟨?_, spent.putDecode started List.mem_cons_self (same ▸ room)⟩
    simp [Simulation.putDecode, same]

theorem Fetching.processPrefillItems {fetched : Fetched Id} (fetching : Fetching feed fetched s) :
    Ensures (processPrefillItems s fetched.itemsToPrefill) (Inv feed 0) (UnknownLora feed) := by
  let I (rest : List (Request Id)) (s : Simulation Id) : Prop :=
    Inv feed rest s ∧ (∀ item ∈ rest, item.Ready) ∧ s.actor.decodeStore.length + rest.length ≤ maxNumSeq
  have step (item : Request Id) (rest : List (Request Id)) (s : Simulation Id) (holds : I (item :: rest) s) :
      Ensures (processPrefillItem s item) (I rest) (UnknownLora feed) := by
    obtain ⟨inv, ready, room⟩ := holds
    rw [List.forall_mem_cons] at ready
    rw [List.length_cons] at room
    refine (Inv.processPrefillItem (Multiset.cons_coe item rest ▸ inv) ready.1 (by omega)).mono fun s' processed => ?_
    exact ⟨processed.2, ready.2, by have := processed.1; omega⟩
  exact (ensures_foldlM step ⟨fetching.inv, fetching.ready, fetching.room⟩).mono fun s' holds => holds.1

/-! ## Decode -/

def Request.Taken (item : Request Id) : Prop :=
  0 ≤ item.outputSizeRemaining ∧ item.outputSizeRemaining < item.outputSize

structure Decoding (feed : List (List (Request Id))) (tempItems : List (Request Id)) (s : Simulation Id) : Prop where
  inv : Inv feed tempItems s
  taken : ∀ item ∈ tempItems, item.Taken ∧ item.id ∈ s.reqDict
  room : s.actor.decodeStore.length + tempItems.length ≤ maxNumSeq

theorem Decoding.takeForDecode {rounds : Nat} {tempItems : List (Request Id)} (decoding : Decoding feed tempItems s)
    (all : s.actor.decodeStore.length = rounds) :
    Ensures (takeForDecode rounds tempItems s) (fun result => Decoding feed result.1 result.2) (UnknownLora feed) := by
  -- decode_store has one request for each round to come, as other processes put none into it
  induction rounds generalizing tempItems s with
  | zero => exact decoding
  | succ rounds ih =>
      cases stored : s.actor.decodeStore with
      | nil => simp [stored] at all
      | cons first items =>
          obtain ⟨inv, taken, room⟩ := decoding
          obtain ⟨⟨started, known⟩, left⟩ := inv.leavesDecode (.of_eq stored)
          have spent := (left.yields.spends (first.outputSizeRemaining - 1)).learns first.id
          simp only [ContinuousBatching.takeForDecode, stored]
          rw [stored, List.length_cons] at all room
          obtain ⟨positive, bounded⟩ := started
          split_ifs with negative
          · omega
          · refine ih ⟨?_, ?_, ?_⟩ ?_
            · rw [Multiset.coe_eq_coe.mpr (List.perm_append_singleton _ tempItems)]
              exact spent
            · refine List.forall_mem_append.mpr ⟨fun item member => ?_, List.forall_mem_singleton.mpr ⟨?_, ?_⟩⟩
              · exact ⟨(taken item member).1, List.mem_cons_of_mem _ ((yields_reqDict _).symm ▸ (taken item member).2)⟩
              · exact ⟨not_lt.mp negative, by dsimp only; omega⟩
              · exact List.mem_cons_self
            · simp only [yields_decodeStore, List.length_append, List.length_singleton]
              omega
            · simp only [yields_decodeStore]
              omega

theorem Decoding.putBack {tempItems : List (Request Id)} (decoding : Decoding feed tempItems s) :
    Inv feed 0 (tempItems.foldl putBack s) := by
  induction tempItems generalizing s with
  | nil => exact decoding.inv
  | cons item rest ih =>
      obtain ⟨inv, taken, room⟩ := decoding
      rw [List.forall_mem_cons] at taken
      rw [List.length_cons] at room
      rw [List.foldl_cons]
      obtain ⟨⟨⟨nonneg, bounded⟩, known⟩, others⟩ := taken
      apply ih
      unfold ContinuousBatching.putBack
      split_ifs with done
      · exact ⟨Inv.putDecoded inv done, others, by simp only [Simulation.putDecoded]; omega⟩
      · have started : item.Started := ⟨by omega, bounded⟩
        refine ⟨Inv.putDecode inv started known (by omega), others, ?_⟩
        simp only [Simulation.putDecode, List.length_append, List.length_singleton]
        omega

theorem Inv.decodeItems (inv : Inv feed 0 s) : Ensures (decodeItems s) (Inv feed 0) (UnknownLora feed) := by
  have start : Decoding feed [] s := ⟨inv, by simp, by simpa using inv.size⟩
  exact (start.takeForDecode rfl).bind fun result decoding => decoding.putBack

/-! ## Eviction -/

theorem shouldRecompute_of_empty {actor : LLMActor Id} (empty : actor.decodeStore = []) :
    shouldRecompute actor = false := by
  have none_expected : actor.getExpectedNumTokensInKvcacheAfterDecode = 0 := by
    simp [LLMActor.getExpectedNumTokensInKvcacheAfterDecode, LLMActor.getNumTokensInDecode, empty]
  have positive : ¬maxGPUMemoryPercBeforeRecompute < 0 := by decide +kernel
  simpa [shouldRecompute, none_expected] using positive

theorem perm_cons_eraseP_of_find? {A : Type} {list : List A} {p : A → Bool} {a : A} (found : list.find? p = some a) :
    list.Perm (a :: list.eraseP p) := by
  obtain ⟨holds, before, after, rfl, others⟩ := List.find?_eq_some_iff_append.mp found
  have rest : (before ++ a :: after).eraseP p = before ++ after := by
    rw [List.eraseP_append_right _ (by simpa using others), List.eraseP_cons_of_pos holds]
  rw [rest]
  exact List.perm_middle

variable [LinearOrder Id]

theorem Inv.putRecompute {item : Request Id} (inv : Inv feed (item ::ₘ held) s) (started : item.Started) :
    Inv feed held { s with actor := s.actor.putRecompute item } := by
  have inserted := List.perm_orderedInsert (fun a b : Request Id => a.id ≤ b.id) item s.actor.recomputeStore
  have moved : held + (s.actor.putRecompute item).requests = item ::ₘ held + s.actor.requests := by
    simp only [LLMActor.requests, LLMActor.putRecompute, Multiset.coe_eq_coe.mpr inserted, ← Multiset.cons_coe,
      ← Multiset.singleton_add]
    abel
  refine { inv with conserved := inv.carries rfl moved, recomputed := fun other member => ?_ }
  have either := inserted.mem_iff.mp member
  exact List.forall_mem_cons.mpr ⟨started, inv.recomputed⟩ other either

theorem Inv.removeRounds (inv : Inv feed 0 s) {rounds : Nat} (enough : s.actor.decodeStore.length ≤ rounds) :
    Ensures (removeRounds rounds s) (Inv feed 0) (UnknownLora feed) := by
  -- each round evicts a request, and nothing is recomputed once decode_store is empty
  induction rounds generalizing s with
  | zero =>
      have empty : s.actor.decodeStore = [] := List.eq_nil_of_length_eq_zero (Nat.le_zero.mp enough)
      simpa [ContinuousBatching.removeRounds, shouldRecompute_of_empty empty] using inv
  | succ rounds ih =>
      rw [ContinuousBatching.removeRounds]
      split_ifs with evicts
      · cases last : s.actor.decodeStore.getLast? with
        | none =>
            rw [shouldRecompute_of_empty (List.getLast?_eq_none_iff.mp last)] at evicts
            contradiction
        | some newest =>
            have member := List.mem_of_getLast? last
            have known := (inv.started newest member).2
            dsimp only
            rw [if_neg (not_not.mpr known)]
            cases found : s.actor.decodeStore.find? (fun req => req.id = newest.id) with
            | none => simpa using List.find?_eq_none.mp found newest member
            | some newestDecodeItem =>
                have stored := perm_cons_eraseP_of_find? found
                obtain ⟨⟨started, -⟩, left⟩ := inv.leavesDecode stored
                apply ih (left.yields.putRecompute started)
                have fewer := stored.length_eq
                rw [List.length_cons] at fewer
                simp only [LLMActor.putRecompute, yields_decodeStore]
                omega
      · exact inv

/-! ## The main loop -/

theorem Inv.iteration (inv : Inv feed 0 s) : Ensures (iteration s) (Inv feed 0) (UnknownLora feed) := by
  have inv := inv.yields
  unfold ContinuousBatching.iteration
  dsimp only
  split_ifs with idle prefills evicts
  · exact inv.yields
  · obtain ⟨numNewSeq, batch, fetching⟩ := inv.fetchPrefillItems
    exact fetching.processPrefillItems.bind fun s processed => processed.yields
  · refine (inv.removeRounds le_rfl).bind fun s removed => ?_
    split_ifs
    · exact removed.decodeItems.bind fun s decoded => decoded.yields
    · exact removed
  · rw [pure_bind]
    split_ifs
    · exact inv.decodeItems.bind fun s decoded => decoded.yields
    · exact inv

theorem Created.prefillOrDecode (created : Created feed) (iterations : Nat) :
    Ensures (prefillOrDecode feed iterations) (Inv feed 0) (UnknownLora feed) := by
  induction iterations with
  | zero =>
      have waiting (item : Request Id) (member : item ∈ feed.flatten) : item.Waiting := by
        obtain ⟨id, inputSize, outputSize, lora, -, positive, rfl⟩ := created.fresh item member
        exact ⟨positive, rfl⟩
      exact ⟨⟨[], by simp, by simp [LLMActor.requests]⟩, waiting, by simp, by simp, by simp, by simp, by simp, by simp⟩
  | succ iterations ih => exact ih.bind fun s inv => inv.iteration

/-- The simulator conserves requests. It fails only on a request whose adapter is unknown, so neither the
assertion nor the `ValueError` is reached. -/
theorem requests_conserved (created : Created feed) (iterations : Nat) :
    Ensures (prefillOrDecode feed iterations) (Conserved feed) (UnknownLora feed) ∧
      ∀ s : Simulation Id, canPrefillItems s.actor = true ↔ (fetchPrefillItems s).1 ≠ [] :=
  ⟨(created.prefillOrDecode iterations).mono fun _ inv => inv.conserves created, canPrefillItems_iff⟩

def testFeed : List (List (Request Nat)) :=
  [[createRequest 0 100 3 none], [createRequest 1 300 1 (some "sql"), createRequest 2 300 2 none]]

theorem created_testFeed : Created testFeed := by
  constructor
  · intro item member
    simp only [testFeed, List.flatten_cons, List.flatten_nil, List.append_nil, List.cons_append, List.nil_append,
      List.mem_cons, List.not_mem_nil, or_false] at member
    obtain rfl | rfl | rfl := member
    · exact ⟨0, 100, 3, none, by decide, by decide, rfl⟩
    · exact ⟨1, 300, 1, some "sql", by decide, by decide, rfl⟩
    · exact ⟨2, 300, 2, none, by decide, by decide, rfl⟩
  · decide

theorem test_requests_conserved : ∃ s, prefillOrDecode testFeed 1 = .ok s ∧ Conserved testFeed s ∧
    s.actor.prefillStore.map Request.id = [2] ∧ s.actor.decodeStore.map Request.id = [0] ∧
    s.actor.decodedStore.map Request.id = [1] := by
  have conserved := (requests_conserved created_testFeed 1).1
  have stores : (prefillOrDecode testFeed 1).toOption.any (fun s => s.actor.prefillStore.map Request.id = [2] ∧
      s.actor.decodeStore.map Request.id = [0] ∧ s.actor.decodedStore.map Request.id = [1]) = true := by
    decide +kernel
  cases ran : prefillOrDecode testFeed 1 with
  | ok s =>
      rw [ran] at conserved stores
      exact ⟨s, rfl, conserved, of_decide_eq_true stores⟩
  | error crash =>
      rw [ran] at stores
      contradiction

end InferenceGateway.ContinuousBatching
