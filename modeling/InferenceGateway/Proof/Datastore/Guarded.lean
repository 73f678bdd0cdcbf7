import InferenceGateway.Datastore.Guarded
import InferenceGateway.Proof.Datastore.Models

/-!
The lock makes the calls on the pool and the models atomic: goroutines that make them one access at a
time see what they would see if every call were made at once.
-/

namespace InferenceGateway.Datastore
open Lib Lib.Locked Lib.Locked.Prog

/-! ## Each call by its accesses -/

section Accesses
variable {ds : Datastore}

@[simp]
theorem guarded_pool : ds.guarded.pool = ds.pool := rfl

@[simp]
theorem guarded_models : ds.guarded.models = ds.models := rfl

theorem exec_poolGet : Guarded.poolGet.exec ds.guarded = (ds.poolGet.map some, ds.guarded) := by
  unfold Guarded.poolGet Guarded.poolHasSynced Datastore.poolGet guarded
  cases synced : ds.pool with
  | none => rfl
  | some pool => rfl

theorem exec_poolLabelsMatch (podLabels : Labels) :
    (Guarded.poolLabelsMatch podLabels).exec ds.guarded = (ds.poolLabelsMatch podLabels, ds.guarded) := by
  unfold Guarded.poolLabelsMatch Datastore.poolLabelsMatch
  rw [exec_bind, exec_read, guarded_pool]
  cases ds.pool <;> rfl

theorem exec_modelSetIfOlder (m : InferenceModel) :
    (Guarded.modelSetIfOlder m).exec ds.guarded = ((ds.modelSetIfOlder m).1, (ds.modelSetIfOlder m).2.guarded) := by
  unfold Guarded.modelSetIfOlder Datastore.modelSetIfOlder
  cases stored : ds.models.lookup m.spec.modelName with
  | none =>
      simp only [exec_bind, exec_read, guarded, stored]
      rfl
  | some existing =>
      simp only [exec_bind, exec_read, guarded, stored, Option.any_some, decide_eq_true_eq]
      split <;> rfl

theorem exec_oldest {pool : InferencePool} (synced : ds.pool = some pool) (modelName : String)
    (items : List InferenceModel) : (Guarded.oldest modelName items none).exec ds.guarded =
      (some (oldest pool modelName items), ds.guarded) := by
  unfold Datastore.oldest
  generalize (none : Option InferenceModel) = older
  induction items generalizing older with
  | nil => rfl
  | cons m items ih =>
      rw [List.foldl_cons]
      unfold Guarded.oldest
      by_cases named : m.spec.modelName = modelName
      · simp only [named, ne_eq, not_true_eq_false, if_false, exec_bind, exec_read, guarded_pool, synced,
          false_or]
        split
        · exact ih older
        · cases older with
          | none => exact ih _
          | some older =>
              simp only
              split <;> exact ih _
      · simp only [named, ne_eq, not_false_eq_true, if_true, true_or]
        exact ih older

theorem exec_modelResync (client : Client) (modelName : String) :
    (Guarded.modelResync client modelName).exec ds.guarded =
      ((ds.modelResync client modelName).map Prod.fst,
        ((ds.modelResync client modelName).elim ds Prod.snd).guarded) := by
  unfold Guarded.modelResync Datastore.modelResync
  rw [exec_bind, exec_read, guarded_pool]
  cases synced : ds.pool with
  | none => rfl
  | some pool =>
      simp only [Option.bind_eq_bind, Option.bind_some]
      cases client.listInferenceModels modelName pool.ns with
      | error err => rfl
      | ok items =>
          cases items with
          | nil => rfl
          | cons m items =>
              simp only [exec_bind, exec_oldest synced]
              cases oldest pool modelName (m :: items) with
              | none => rfl
              | some m => simp [guarded, synced]

theorem exec_deleteFirst (namespacedName : NamespacedName) (keys : List String) :
    (Guarded.deleteFirst namespacedName keys).exec ds.guarded =
      ((ds.modelDelete keys namespacedName).1, (ds.modelDelete keys namespacedName).2.guarded) := by
  induction keys with
  | nil => rfl
  | cons key keys ih =>
      rw [Guarded.deleteFirst, exec_bind, exec_read, guarded_models]
      rw [Datastore.modelDelete] at ih ⊢
      rw [List.findSome?_cons]
      cases ds.models.lookup key with
      | none => exact ih
      | some m =>
          by_cases found : m.name = namespacedName.name ∧ m.ns = namespacedName.ns
          · simp only [found, and_self, if_true, Option.filter_some, decide_true]
            rfl
          · simp only [found, if_false, Option.filter_some, decide_false, Bool.false_eq_true]
            exact ih

theorem exec_collect (keys : List String) (res : List InferenceModel) :
    (Guarded.collect keys res).exec ds.guarded = (res ++ ds.modelGetAll keys, ds.guarded) := by
  induction keys generalizing res with
  | nil => simp [Guarded.collect, Datastore.modelGetAll]
  | cons key keys ih =>
      rw [Guarded.collect, exec_bind, exec_read, guarded_models]
      rw [Datastore.modelGetAll] at ih ⊢
      rw [List.filterMap_cons]
      cases ds.models.lookup key with
      | none => exact ih res
      | some m =>
          simp only [ih, List.append_assoc, List.singleton_append]

theorem exec_program (call : LockedCall) (ds : Datastore) :
    call.program.exec ds.guarded = ((call.run ds).1, (call.run ds).2.guarded) := by
  cases call with
  | clear => rfl
  | poolSet pool => rfl
  | poolGet => exact exec_poolGet
  | poolHasSynced => rfl
  | poolLabelsMatch podLabels => exact exec_poolLabelsMatch podLabels
  | modelSetIfOlder infModel => exact exec_modelSetIfOlder infModel
  | modelResync client modelName => exact exec_modelResync client modelName
  | modelGet modelName => rfl
  | modelDelete order namespacedName => exact exec_deleteFirst namespacedName (order.keys ds.models)
  | modelGetAll order => exact exec_collect (order.keys ds.models) []

theorem readOnly_collect (keys : List String) (res : List InferenceModel) : (Guarded.collect keys res).ReadOnly := by
  induction keys generalizing res with
  | nil => exact readOnly_pure _
  | cons key keys ih =>
      apply ReadOnly.bind (readOnly_read _)
      intro found
      cases found with
      | none => exact ih res
      | some m => exact ih _

theorem readOnly_program (call : LockedCall) (reads : ¬call.op.writes) : call.program.ReadOnly := by
  cases call with
  | poolGet =>
      apply ReadOnly.bind (readOnly_read _)
      intro synced
      cases synced with
      | false => exact readOnly_pure _
      | true => exact (readOnly_read _).bind fun _ => readOnly_pure _
  | poolHasSynced => exact readOnly_read _
  | poolLabelsMatch podLabels => exact (readOnly_read _).bind fun _ => readOnly_pure _
  | modelGet modelName => exact readOnly_read _
  | modelGetAll order => exact (readOnly_read _).bind fun keys => readOnly_collect keys []
  | _ => simp [LockedCall.op, Op.writes, Op.lockCalls, writeLocked] at reads

end Accesses

/-! ## Runs -/

/-- Goroutines that call the store concurrently get the answers of calls that are made at once, in the
order in which they return; no call is lost or made twice. While no writer is inside, the store is as
these calls leave it. -/
theorem locked_calls_serializable {ι : Type} [DecidableEq ι] (calls : ι → List LockedCall) (ds : Datastore)
    {s : Callers ι} (run : CallersReach (callers calls ds) s) :
    ∃ ds', Serial LockedCall.run ds s.history ds' ∧
      ((∀ i call, (s.threads i).holds = some call → ¬call.op.writes) → s.memory = ds'.guarded) ∧
      ∀ i, returned s.history i ++ (s.threads i).remaining = calls i := by
  obtain ⟨before, inv⟩ := Inv.reaches readOnly_program run
  obtain ⟨ds', serial, rfl⟩ := inv.serial.lift exec_program
  exact ⟨ds', serial, inv.still, returned_remaining run⟩

def olderModel : InferenceModel := testModel "chat-v1" "chat" 1

-- one goroutine sets a model and looks it up; the other one looks it up at the same time
def overlappingGets : Bool → List LockedCall
  | true => [.modelSetIfOlder olderModel, .modelGet "chat"]
  | false => [.modelGet "chat"]

theorem overlappingGets_inside : ∃ s, CallersReach (callers overlappingGets {}) s ∧
    ∀ i, (s.threads i).holds = some (.modelGet "chat") := by
  have set : CallersReach (callers overlappingGets {}) _ := reaches_alone (i := true) rfl fun _ => rfl
  have reads : ¬(LockedCall.modelGet "chat").op.writes := by
    simp [LockedCall.op, Op.writes, Op.lockCalls, readLocked]
  refine ⟨_, (set.tail (.enter true (.modelGet "chat") [] rfl ?_)).tail (.enter false (.modelGet "chat") [] rfl ?_), ?_⟩
  · intro j other holds
    cases j <;> cases holds
  · intro j other holds
    cases j <;> cases holds
    exact ⟨reads, reads⟩
  · intro i
    cases i <;> rfl

theorem overlapping_gets_serializable : ∃ s : Callers Bool,
    (∀ i, (s.threads i).holds = some (.modelGet "chat")) ∧
    ∃ ds', Serial LockedCall.run {} s.history ds' ∧
      ((∀ i call, (s.threads i).holds = some call → ¬call.op.writes) → s.memory = ds'.guarded) ∧
      ∀ i, returned s.history i ++ (s.threads i).remaining = overlappingGets i := by
  obtain ⟨s, run, inside⟩ := overlappingGets_inside
  exact ⟨s, inside, locked_calls_serializable overlappingGets {} run⟩

/-! ## Concurrent ModelSetIfOlder -/

/-- What is found under a name of the models that compete for it. -/
def OldestOf (competes : InferenceModel → Prop) : Option InferenceModel → Prop
  | none => ∀ m, ¬competes m
  | some oldest => competes oldest ∧ ∀ m, competes m → oldest.creationTimestamp ≤ m.creationTimestamp

theorem OldestOf.congr {competes competes' : InferenceModel → Prop} {found : Option InferenceModel}
    (oldest : OldestOf competes found) (same : ∀ m, competes' m ↔ competes m) : OldestOf competes' found := by
  have equal : competes' = competes := by
    funext m
    exact propext (same m)
  rw [equal]
  exact oldest

theorem OldestOf.modelSetIfOlder {ds : Datastore} {competes : InferenceModel → Prop} {m : InferenceModel}
    (oldest : OldestOf competes (ds.models.lookup m.spec.modelName))
    (oneVersion : ∀ other, competes other → other.namespacedName = m.namespacedName → other = m) :
    OldestOf (fun other => competes other ∨ other = m)
      ((ds.modelSetIfOlder m).2.models.lookup m.spec.modelName) := by
  by_cases keepsOut : ds.KeepsOut m
  · rw [modelSetIfOlder_of_keepsOut keepsOut]
    obtain ⟨existing, stored, _, older⟩ := keepsOut
    simp only [stored] at oldest ⊢
    refine ⟨.inl oldest.1, ?_⟩
    intro other competing
    cases competing with
    | inl before => exact oldest.2 other before
    | inr new =>
        rw [new]
        exact older.le
  · rw [modelSetIfOlder_of_not_keepsOut keepsOut, withModels_models, Finmap.lookup_insert]
    refine ⟨.inr rfl, ?_⟩
    intro other competing
    cases competing with
    | inr new => rw [new]
    | inl before =>
        -- the entry that is replaced is m itself or not older than m
        cases stored : ds.models.lookup m.spec.modelName with
        | none =>
            rw [stored] at oldest
            exact absurd before (oldest other)
        | some existing =>
            rw [stored] at oldest
            have least := oldest.2 other before
            by_cases same : existing.namespacedName = m.namespacedName
            · rw [← oneVersion existing oldest.1 same]
              exact least
            · have newer : ¬existing.creationTimestamp < m.creationTimestamp := by
                intro older
                exact keepsOut ⟨existing, stored, same, older⟩
              exact (not_lt.mp newer).trans least

theorem modelSetIfOlder_lookup_of_ne (ds : Datastore) {m : InferenceModel} {name : String}
    (other : name ≠ m.spec.modelName) : (ds.modelSetIfOlder m).2.models.lookup name = ds.models.lookup name := by
  by_cases keepsOut : ds.KeepsOut m
  · rw [modelSetIfOlder_of_keepsOut keepsOut]
  · rw [modelSetIfOlder_of_not_keepsOut keepsOut, withModels_models, Finmap.lookup_insert_of_ne _ other]

theorem writes_modelSetIfOlder (m : InferenceModel) : (LockedCall.modelSetIfOlder m).op.writes := by
  simp [LockedCall.op, Op.writes, Op.lockCalls, writeLocked]

theorem run_of_reads {call : LockedCall} (reads : ¬call.op.writes) (ds : Datastore) : (call.run ds).2 = ds := by
  cases call with
  | poolGet | poolHasSynced | poolLabelsMatch podLabels | modelGet modelName | modelGetAll order => rfl
  | _ => simp [LockedCall.op, Op.writes, Op.lockCalls, writeLocked] at reads

section Sets
variable {ι : Type} {ds : Datastore}

/-- The models that compete for a name: the one that was stored, and those that are set. -/
def Competes (ds : Datastore) (sets : InferenceModel → Prop) (name : String) (m : InferenceModel) : Prop :=
  ds.models.lookup name = some m ∨ m.spec.modelName = name ∧ sets m

def SetIn (history : History ι LockedCall.Result) (m : InferenceModel) : Prop :=
  ∃ entry ∈ history, entry.2.1 = .modelSetIfOlder m

theorem setIn_append (history : History ι LockedCall.Result) (i : ι) (call : LockedCall) (result : call.Result)
    (m : InferenceModel) :
    SetIn (history ++ [(i, ⟨call, result⟩)]) m ↔ SetIn history m ∨ call = .modelSetIfOlder m := by
  simp only [SetIn, List.mem_append, List.mem_singleton]
  constructor
  · intro ⟨entry, member, set⟩
    cases member with
    | inl before => exact .inl ⟨entry, before, set⟩
    | inr new =>
        rw [new] at set
        exact .inr set
  · intro set
    cases set with
    | inl before =>
        obtain ⟨entry, member, set⟩ := before
        exact ⟨entry, .inl member, set⟩
    | inr new => exact ⟨_, .inr rfl, new⟩

theorem competes_append (history : History ι LockedCall.Result) (i : ι) (call : LockedCall) (result : call.Result)
    (name : String) (m : InferenceModel) :
    Competes ds (SetIn (history ++ [(i, ⟨call, result⟩)])) name m ↔
      Competes ds (SetIn history) name m ∨ m.spec.modelName = name ∧ call = .modelSetIfOlder m := by
  rw [Competes, setIn_append, and_or_left, ← or_assoc, ← Competes]

theorem oldestOf_run {history : History ι LockedCall.Result} {ds' : Datastore} (i : ι) {call : LockedCall}
    {name : String} (oldest : OldestOf (Competes ds (SetIn history) name) (ds'.models.lookup name))
    (sets : call.op.writes → ∃ m, call = .modelSetIfOlder m ∧
      ∀ other, Competes ds (SetIn history) m.spec.modelName other →
        other.namespacedName = m.namespacedName → other = m) :
    OldestOf (Competes ds (SetIn (history ++ [(i, ⟨call, (call.run ds').1⟩)])) name)
      ((call.run ds').2.models.lookup name) := by
  by_cases writes : call.op.writes
  · obtain ⟨m, called, oneVersion⟩ := sets writes
    cases called
    by_cases here : name = m.spec.modelName
    · cases here
      apply (oldest.modelSetIfOlder oneVersion).congr
      intro other
      rw [competes_append, LockedCall.modelSetIfOlder.injEq]
      apply or_congr_right
      constructor
      · intro ⟨_, same⟩
        exact same.symm
      · intro same
        rw [same]
        exact ⟨rfl, rfl⟩
    · have kept : ((LockedCall.modelSetIfOlder m).run ds').2.models.lookup name = ds'.models.lookup name :=
        modelSetIfOlder_lookup_of_ne ds' here
      rw [kept]
      apply oldest.congr
      intro other
      rw [competes_append, LockedCall.modelSetIfOlder.injEq]
      apply or_iff_left
      intro ⟨named, same⟩
      rw [← same] at named
      exact here named.symm
  · rw [run_of_reads writes]
    apply oldest.congr
    intro other
    rw [competes_append]
    apply or_iff_left
    intro ⟨_, same⟩
    rw [same] at writes
    exact writes (writes_modelSetIfOlder other)

theorem oldestOf_serial {history : History ι LockedCall.Result} {ds' : Datastore} {sets : InferenceModel → Prop}
    (known : ∀ entry ∈ history, entry.2.1.op.writes → ∃ m, entry.2.1 = .modelSetIfOlder m ∧ sets m)
    (oneVersion : ∀ name m m', Competes ds sets name m → Competes ds sets name m' →
      m.namespacedName = m'.namespacedName → m = m')
    (serial : Serial LockedCall.run ds history ds') (name : String) :
    OldestOf (Competes ds (SetIn history) name) (ds'.models.lookup name) := by
  induction serial with
  | nil =>
      cases stored : ds.models.lookup name with
      | none => simp [OldestOf, Competes, SetIn, stored]
      | some m => simp [OldestOf, Competes, SetIn, stored]
  | @snoc history ds' before i call ih =>
      have earlier : ∀ entry ∈ history, entry.2.1.op.writes → ∃ m, entry.2.1 = .modelSetIfOlder m ∧ sets m :=
        fun entry member => known entry (List.mem_append_left _ member)
      apply oldestOf_run i (ih earlier)
      intro writes
      obtain ⟨m, called, set⟩ := known _ (List.mem_append_right _ (List.mem_singleton.mpr rfl)) writes
      refine ⟨m, called, ?_⟩
      intro other competing same
      refine oneVersion m.spec.modelName other m ?_ (.inr ⟨rfl, set⟩) same
      apply competing.imp id
      intro ⟨named, entry, member, setBefore⟩
      obtain ⟨m', same, set'⟩ := earlier entry member (setBefore ▸ writes_modelSetIfOlder other)
      rw [setBefore] at same
      cases same
      exact ⟨named, set'⟩

def Sets (calls : ι → List LockedCall) (m : InferenceModel) : Prop := ∃ i, .modelSetIfOlder m ∈ calls i

theorem setIn_returned [DecidableEq ι] {calls : ι → List LockedCall} {history : History ι LockedCall.Result}
    (all : ∀ i, returned history i = calls i) (m : InferenceModel) : Sets calls m ↔ SetIn history m := by
  constructor
  · intro ⟨i, set⟩
    rw [← all i] at set
    obtain ⟨entry, member, _, same⟩ := mem_returned.mp set
    exact ⟨entry, member, same⟩
  · intro ⟨entry, member, same⟩
    refine ⟨entry.1, ?_⟩
    rw [← all entry.1]
    exact mem_returned.mpr ⟨entry, member, rfl, same⟩

/-- Goroutines may race to set their models: once all calls have returned, the oldest of the models that
compete for a name is stored under it. -/
theorem concurrent_sets_keep_oldest [DecidableEq ι] (calls : ι → List LockedCall)
    (setsOnly : ∀ i, ∀ call ∈ calls i, call.op.writes → ∃ m, call = .modelSetIfOlder m)
    -- no object is set in two versions
    (oneVersion : ∀ name m m', Competes ds (Sets calls) name m → Competes ds (Sets calls) name m' →
      m.namespacedName = m'.namespacedName → m = m')
    {s : Callers ι} (run : CallersReach (callers calls ds) s) (idle : ∀ i, s.threads i = .outside [])
    (name : String) : OldestOf (Competes ds (Sets calls) name) (s.memory.models.lookup name) := by
  obtain ⟨before, inv⟩ := Inv.reaches readOnly_program run
  obtain ⟨ds', serial, rfl⟩ := inv.serial.lift exec_program
  have memory : s.memory = ds'.guarded := by
    apply inv.still
    intro i call holds
    rw [idle i] at holds
    cases holds
  have all : ∀ i, returned s.history i = calls i := by
    intro i
    have remaining := returned_remaining run i
    rw [idle i] at remaining
    simpa [Thread.remaining] using remaining
  have known : ∀ entry ∈ s.history, entry.2.1.op.writes → ∃ m, entry.2.1 = .modelSetIfOlder m ∧ Sets calls m := by
    intro entry member writes
    have called : entry.2.1 ∈ calls entry.1 := by
      rw [← all entry.1]
      exact mem_returned.mpr ⟨entry, member, rfl, rfl⟩
    obtain ⟨m, same⟩ := setsOnly entry.1 entry.2.1 called writes
    exact ⟨m, same, entry.1, same ▸ called⟩
  rw [memory, guarded_models]
  apply (oldestOf_serial known oneVersion serial name).congr
  intro m
  rw [Competes, setIn_returned all, ← Competes]

end Sets

def newerModel : InferenceModel := testModel "chat-v2" "chat" 2

def racingSets : Bool → List LockedCall
  | true => [.modelSetIfOlder olderModel]
  | false => [.modelSetIfOlder newerModel]

-- the newer one is set first
theorem racingSets_return : ∃ s, CallersReach (callers racingSets {}) s ∧ ∀ i, s.threads i = .outside [] := by
  have first : CallersReach (callers racingSets {}) _ := reaches_alone (i := false) rfl fun _ => rfl
  refine ⟨_, first.trans (reaches_alone (i := true) rfl ?_), ?_⟩
  · intro j
    cases j <;> rfl
  · intro i
    cases i <;> rfl

theorem racingSets_keep_older : ∃ s : Callers Bool, (∀ i, s.threads i = .outside []) ∧
    OldestOf (Competes {} (Sets racingSets) "chat") (s.memory.models.lookup "chat") := by
  obtain ⟨s, run, idle⟩ := racingSets_return
  have set : ∀ name m, Competes {} (Sets racingSets) name m → m = olderModel ∨ m = newerModel := by
    intro name m competing
    rcases competing with stored | ⟨_, i, set⟩
    · cases stored
    · cases i <;> simp_all [racingSets]
  refine ⟨s, idle, concurrent_sets_keep_oldest racingSets ?_ ?_ run idle "chat"⟩
  · intro i call member _
    cases i <;> exact ⟨_, List.mem_singleton.mp member⟩
  · intro name m m' competing competing' same
    rcases set name m competing with rfl | rfl <;> rcases set name m' competing' with rfl | rfl
    · rfl
    · exact absurd same (by decide)
    · exact absurd same (by decide)
    · rfl

end InferenceGateway.Datastore
