import InferenceGateway.Proof.Controller.Settling

/-!
As long as the InferencePool is not found deleted and no list of ModelResync fails, the store comes to hold
the oldest InferenceModel of every model name. The calls of the controllers, the changes of the cluster,
failed reads and retries may come in any order.
-/

namespace InferenceGateway
open Lib.Workqueue

/-! ## Calls that leave the InferenceModels alone -/

theorem InferencePoolReconciler.Pc.Goes.models {client : Client} {visit : Option NamespacedName} {pc pc' : Pc}
    {memory memory' : Memory} (keeps : pc ≠ .clear) (goes : pc.Goes client visit memory pc' memory') :
    memory'.ds.models = memory.ds.models := by
  cases goes with
  | cleared => exact absurd rfl keeps
  | updates called | updated called => exact called.blind Datastore.podBlind_models
  | deleted => exact Datastore.podBlind_models.podDelete _ _
  | _ => rfl

/-! ## The reconcile of an InferenceModel -/

/-- What an object keeps for as long as it exists. -/
def InferenceModel.identity (m : InferenceModel) : String × Int := (m.spec.modelName, m.creationTimestamp)

namespace InferenceModelReconciler

/-- The object that the reconcile is going to store or to remove. -/
def Pc.worksOn : Pc → Option NamespacedName
  | .get req | .modelDelete req | .failed req => some req
  | .modelSetIfOlder infModel => some infModel.namespacedName
  | .modelResync _ _ | .returned => none

def Pc.resyncs : Pc → Option String
  | .modelResync _ modelName => some modelName
  | _ => none

def Pc.fails : Pc → Bool
  | .failed _ => true
  | _ => false

/-- What the reconcile has read is current, unless the object is queued again. -/
def Pc.Current (identity : NamespacedName → String × Int) (live : Live) (queued : NamespacedName → Prop) : Pc → Prop
  | .modelSetIfOlder m => m.identity = identity m.namespacedName ∧
      (queued m.namespacedName ∨ live m.namespacedName = some m)
  | .modelDelete req => queued req ∨ live req = none
  | _ => True

structure Tracks (identity : NamespacedName → String × Int) (live : Live) (queued : NamespacedName → Prop)
    (models : Models) (pc : Pc) : Prop where
  named : ∀ name m, models.lookup name = some m →
    m.spec.modelName = name ∧ m.identity = identity m.namespacedName
  backed : ∀ name m, models.lookup name = some m →
    queued m.namespacedName ∨ pc.worksOn = some m.namespacedName ∨ live m.namespacedName = some m
  covered : ∀ key m, live key = some m →
    queued key ∨ pc.worksOn = some key ∨ pc.resyncs = some m.spec.modelName ∨
      ∃ entry, models.lookup m.spec.modelName = some entry ∧ entry.creationTimestamp ≤ m.creationTimestamp
  current : pc.Current identity live queued

section Reconcile
variable {identity : NamespacedName → String × Int} {live live' : Live} {queued queued' : NamespacedName → Prop}
  {models : Models} {pc pc' : Pc}

theorem Tracks.turn (tracks : Tracks identity live queued models pc) (works : pc'.worksOn = pc.worksOn)
    (resyncs : pc'.resyncs = pc.resyncs) (current : pc'.Current identity live queued) :
    Tracks identity live queued models pc' where
  named := tracks.named
  backed := by rw [works]; exact tracks.backed
  covered := by rw [works, resyncs]; exact tracks.covered
  current := current

theorem Pc.Current.unseen (current : pc.Current identity live queued) (grows : ∀ key, queued key → queued' key)
    (same : ∀ key, ¬queued' key → live' key = live key) : pc.Current identity live' queued' := by
  cases pc with
  | modelSetIfOlder m =>
      refine ⟨current.1, ?_⟩
      by_cases due : queued' m.namespacedName
      · exact .inl due
      · rw [same _ due]
        exact .inr (current.2.resolve_left fun before => due (grows _ before))
  | modelDelete req =>
      by_cases due : queued' req
      · exact .inl due
      · have gone := current.resolve_left fun before => due (grows _ before)
        exact .inr ((same _ due).trans gone)
  | get | modelResync | returned | failed => trivial

/-- An object that changes is queued. -/
theorem Tracks.unseen (tracks : Tracks identity live queued models pc) (grows : ∀ key, queued key → queued' key)
    (same : ∀ key, ¬queued' key → live' key = live key) : Tracks identity live' queued' models pc where
  named := tracks.named
  backed name m stored := by
    by_cases due : queued' m.namespacedName
    · exact .inl due
    · rw [same _ due]
      exact (tracks.backed name m stored).imp_left (grows _)
  covered key m found := by
    by_cases due : queued' key
    · exact .inl due
    · rw [same _ due] at found
      exact (tracks.covered key m found).imp_left (grows _)
  current := tracks.current.unseen grows same

theorem Tracks.same_entry (tracks : Tracks identity live queued models pc) {m entry : InferenceModel} {name : String}
    (identified : m.identity = identity m.namespacedName) (stored : models.lookup name = some entry)
    (own : entry.namespacedName = m.namespacedName) :
    name = m.spec.modelName ∧ entry.creationTimestamp = m.creationTimestamp := by
  obtain ⟨named, entry_identified⟩ := tracks.named name entry stored
  have same : entry.identity = m.identity := by rw [entry_identified, identified, own]
  exact ⟨named.symm.trans (congrArg Prod.fst same), congrArg Prod.snd same⟩

/-- What the reconcile has read is current, or read again. -/
theorem Tracks.mine {m m' : InferenceModel} {key : NamespacedName}
    (tracks : Tracks identity live queued models (.modelSetIfOlder m)) (found : live key = some m')
    (works : (Pc.modelSetIfOlder m).worksOn = some key) : queued key ∨ m' = m := by
  obtain rfl : m.namespacedName = key := Option.some.inj works
  rcases tracks.current.2 with due | still
  · exact .inl due
  · exact .inr (Option.some.inj (found.symm.trans still))

theorem Tracks.keptOut {m existing : InferenceModel}
    (tracks : Tracks identity live queued models (.modelSetIfOlder m))
    (stored : models.lookup m.spec.modelName = some existing) (other : existing.namespacedName ≠ m.namespacedName)
    (older : existing.creationTimestamp < m.creationTimestamp) : Tracks identity live queued models .returned where
  named := tracks.named
  backed name entry stored' := by
    rcases tracks.backed name entry stored' with due | works | still
    · exact .inl due
    · have own : entry.namespacedName = m.namespacedName := (Option.some.inj works).symm
      rw [(tracks.same_entry tracks.current.1 stored' own).1, stored] at stored'
      cases stored'
      exact absurd own other
    · exact .inr (.inr still)
  covered key m' found := by
    rcases tracks.covered key m' found with due | works | resyncs | present
    · exact .inl due
    · rcases tracks.mine found works with due | same
      · exact .inl due
      · cases same
        exact .inr (.inr (.inr ⟨existing, stored, older.le⟩))
    · cases resyncs
    · exact .inr (.inr (.inr present))
  current := trivial

theorem Tracks.set {ds : Datastore} {m : InferenceModel}
    (tracks : Tracks identity live queued ds.models (.modelSetIfOlder m)) (free : ¬ds.KeepsOut m) :
    Tracks identity live queued (ds.models.insert m.spec.modelName m) .returned where
  named name entry stored := by
    rw [lookup_insert_eq] at stored
    split_ifs at stored with same
    · cases stored
      exact ⟨same.symm, tracks.current.1⟩
    · exact tracks.named name entry stored
  backed name entry stored := by
    rw [lookup_insert_eq] at stored
    split_ifs at stored with same
    · cases stored
      exact tracks.current.2.imp_right .inr
    · rcases tracks.backed name entry stored with due | works | still
      · exact .inl due
      · have own : entry.namespacedName = m.namespacedName := (Option.some.inj works).symm
        exact absurd (tracks.same_entry tracks.current.1 stored own).1 same
      · exact .inr (.inr still)
  covered key m' found := by
    rcases tracks.covered key m' found with due | works | resyncs | ⟨entry, stored, notYounger⟩
    · exact .inl due
    · rcases tracks.mine found works with due | same
      · exact .inl due
      · cases same
        exact .inr (.inr (.inr ⟨m, Finmap.lookup_insert _, le_rfl⟩))
    · cases resyncs
    · refine .inr (.inr (.inr ?_))
      by_cases same : m'.spec.modelName = m.spec.modelName
      · refine ⟨m, by rw [same, Finmap.lookup_insert], le_trans ?_ notYounger⟩
        rw [same] at stored
        by_cases own : entry.namespacedName = m.namespacedName
        · exact (tracks.same_entry tracks.current.1 stored own).2.ge
        · exact not_lt.mp fun older => free ⟨entry, stored, own, older⟩
      · exact ⟨entry, by rw [lookup_insert_eq, if_neg same, stored], notYounger⟩
  current := trivial

/-- An object that is to be removed is not live, or queued again. -/
theorem Tracks.gone {m : InferenceModel} {req key : NamespacedName}
    (tracks : Tracks identity live queued models (.modelDelete req)) (found : live key = some m)
    (works : (Pc.modelDelete req).worksOn = some key) : queued key := by
  obtain rfl : req = key := Option.some.inj works
  exact tracks.current.resolve_right (by simp [found])

theorem Tracks.notStored {req : NamespacedName} (tracks : Tracks identity live queued models (.modelDelete req))
    (noEntry : ∀ name m, models.lookup name = some m → m.namespacedName ≠ req) :
    Tracks identity live queued models .returned where
  named := tracks.named
  backed name entry stored := by
    rcases tracks.backed name entry stored with due | works | still
    · exact .inl due
    · exact absurd (Option.some.inj works).symm (noEntry name entry stored)
    · exact .inr (.inr still)
  covered key m found := by
    rcases tracks.covered key m found with due | works | resyncs | present
    · exact .inl due
    · exact .inl (tracks.gone found works)
    · cases resyncs
    · exact .inr (.inr (.inr present))
  current := trivial

theorem Tracks.deleted {req : NamespacedName} {index : String} {existing : InferenceModel}
    (tracks : Tracks identity live queued models (.modelDelete req)) (stored : models.lookup index = some existing)
    (own : existing.namespacedName = req) :
    Tracks identity live queued (models.erase existing.spec.modelName)
      (.modelResync req existing.spec.modelName) where
  named name entry stored' := by
    rw [lookup_erase_eq] at stored'
    split_ifs at stored'
    exact tracks.named name entry stored'
  backed name entry stored' := by
    rw [lookup_erase_eq] at stored'
    split_ifs at stored' with same
    rcases tracks.backed name entry stored' with due | works | still
    · exact .inl due
    · have identified := (tracks.named index existing stored).2
      have own' : entry.namespacedName = existing.namespacedName := (Option.some.inj works).symm.trans own.symm
      exact absurd (tracks.same_entry identified stored' own').1 same
    · exact .inr (.inr still)
  covered key m found := by
    rcases tracks.covered key m found with due | works | resyncs | ⟨entry, stored', notYounger⟩
    · exact .inl due
    · exact .inl (tracks.gone found works)
    · cases resyncs
    · refine .inr (.inr ?_)
      by_cases same : m.spec.modelName = existing.spec.modelName
      · rw [same]
        exact .inl rfl
      · exact .inr ⟨entry, by rw [lookup_erase_eq, if_neg same, stored'], notYounger⟩
  current := trivial

theorem Tracks.insert_oldest {req : NamespacedName} {modelName : String} {next : InferenceModel}
    (tracks : Tracks identity live queued models (.modelResync req modelName))
    (found : live next.namespacedName = some next) (identified : next.identity = identity next.namespacedName)
    (named : next.spec.modelName = modelName)
    (oldest : ∀ other m, live other = some m → m.spec.modelName = modelName →
      next.creationTimestamp ≤ m.creationTimestamp) :
    Tracks identity live queued (models.insert modelName next) .returned := by
  refine ⟨?_, ?_, ?_, trivial⟩
  · intro name entry stored
    rw [lookup_insert_eq] at stored
    split_ifs at stored with same
    · cases stored
      exact ⟨named.trans same.symm, identified⟩
    · exact tracks.named name entry stored
  · intro name entry stored
    rw [lookup_insert_eq] at stored
    split_ifs at stored with same
    · cases stored
      exact .inr (.inr found)
    · exact tracks.backed name entry stored
  · intro key m live
    by_cases same : m.spec.modelName = modelName
    · exact .inr (.inr (.inr ⟨next, by rw [same, Finmap.lookup_insert], oldest key m live same⟩))
    · rw [lookup_insert_eq, if_neg same]
      rcases tracks.covered key m live with due | works | resyncs | present
      · exact .inl due
      · cases works
      · exact absurd (Option.some.inj resyncs).symm same
      · exact .inr (.inr (.inr present))

theorem Tracks.none_left {req : NamespacedName} {modelName : String}
    (tracks : Tracks identity live queued models (.modelResync req modelName))
    (last : ∀ key m, live key = some m → m.spec.modelName ≠ modelName) :
    Tracks identity live queued models .returned where
  named := tracks.named
  backed := tracks.backed
  covered key m found := by
    rcases tracks.covered key m found with due | works | resyncs | present
    · exact .inl due
    · cases works
    · exact absurd (Option.some.inj resyncs).symm (last key m found)
    · exact .inr (.inr (.inr present))
  current := trivial

theorem Pc.Goes.worksOn {c : InferenceModelReconciler} {client : Client} {memory memory' : Memory}
    {key : NamespacedName} (keyed : ∀ req m, client.getInferenceModel req = .ok m → m.namespacedName = req)
    (goes : pc.Goes c client memory pc' memory') (lists : pc.resyncs.isSome → pc'.fails = false)
    (works : pc'.worksOn = some key) : pc.worksOn = some key := by
  cases goes with
  | readFailed | notFound | refused | returned | failed => exact works
  | @accepted req m read =>
      rw [← works]
      exact congrArg some (keyed req m read).symm
  | keptOut | set | notStored | deleted | noneLeft | resynced => cases works
  | unsynced | listFailed => cases lists rfl

section Read
variable {pool : NamespacedName} {cluster : Cluster} {client : Client}

theorem liveModels_of_notFound (reads : client.Reads cluster) {req : NamespacedName} {msg : String}
    (absent : client.getInferenceModel req = .error (.notFound msg)) : cluster.liveModels pool req = none := by
  have missing := Controllers.lookup_of_notFound (reads.getInferenceModel req) absent
  simp [Cluster.liveModels, liveAt, missing]

theorem liveModels_of_refused (reads : client.Reads cluster) {req : NamespacedName} {m : InferenceModel}
    (read : client.getInferenceModel req = .ok m)
    (dead : m.deletionTimestamp ≠ none ∨ m.spec.poolRef.name ≠ pool.name) : cluster.liveModels pool req = none := by
  have found := Controllers.lookup_of_read (reads.getInferenceModel req) read
  have refused : ¬(InferenceModelReconciler.mk pool).live m = true := by
    rw [live_iff]
    intro live
    rcases dead with marked | other
    · exact marked live.2.2
    · exact other live.2.1
  simp [Cluster.liveModels, liveAt, found, refused]

/-- What ModelResync chooses from, when it reads the cluster. -/
theorem mem_candidates_of_read (reads : client.Reads cluster) {infPool : InferencePool}
    (ours : infPool.namespacedName = pool) {modelName : String} {items : List InferenceModel}
    (listed : client.listInferenceModels modelName infPool.ns = .ok items) (m : InferenceModel) :
    m ∈ items.filter (Datastore.candidate infPool modelName) ↔
      (∃ key, cluster.liveModels pool key = some m) ∧ m.spec.modelName = modelName := by
  obtain ⟨listing, lists, answers⟩ := reads.listInferenceModels modelName infPool.ns
  cases Controllers.ok_of_answers answers listed
  have current : Listing.Of ⟨listing.models, []⟩ { models := cluster.models } :=
    ⟨lists.models, List.nodup_nil, fun _ => iff_of_false List.not_mem_nil Finmap.notMem_empty⟩
  exact @mem_candidates ⟨pool⟩ infPool { current := cluster.models } ⟨listing.models, []⟩
    (congrArg NamespacedName.ns ours) (congrArg NamespacedName.name ours) current modelName m

end Read

theorem Tracks.goes {pool : NamespacedName} {cluster : Cluster} {client : Client} {memory memory' : Memory}
    (reads : client.Reads cluster) (keyed : ∀ key m, cluster.models.lookup key = some m → m.namespacedName = key)
    (identified : ∀ key m, cluster.models.lookup key = some m → m.identity = identity key)
    (watched : ∀ key, pc.worksOn = some key → key.ns = pool.ns)
    (pooled : ∀ infPool, memory.ds.pool = some infPool → infPool.namespacedName = pool)
    (lists : pc.resyncs.isSome → pc'.fails = false)
    (tracks : Tracks identity (cluster.liveModels pool) queued memory.ds.models pc)
    (goes : pc.Goes ⟨pool⟩ client memory pc' memory') :
    Tracks identity (cluster.liveModels pool) queued memory'.ds.models pc' := by
  cases goes with
  | returned | failed => exact tracks
  | readFailed => exact tracks.turn rfl rfl trivial
  | notFound absent => exact tracks.turn rfl rfl (.inr (liveModels_of_notFound reads absent))
  | refused read dead => exact tracks.turn rfl rfl (.inr (liveModels_of_refused reads read dead))
  | @accepted req m read unmarked ours =>
      have found := Controllers.lookup_of_read (reads.getInferenceModel req) read
      have own := keyed req m found
      have live : (InferenceModelReconciler.mk pool).live m = true :=
        live_iff.mpr ⟨(congrArg NamespacedName.ns own).trans (watched req rfl), ours, unmarked⟩
      refine tracks.turn (congrArg some own) rfl ⟨?_, .inr ?_⟩
      · rw [own]
        exact identified req m found
      · rw [own]
        exact liveAt_eq_some.mpr ⟨found, live⟩
  | keptOut keepsOut =>
      obtain ⟨existing, stored, other, older⟩ := keepsOut
      exact tracks.keptOut stored other older
  | set free => exact tracks.set free
  | notStored noEntry => exact tracks.notStored noEntry
  | deleted stored own => exact tracks.deleted stored own
  | unsynced | listFailed => cases lists rfl
  | @noneLeft _ _ infPool _ stored listed none =>
      have candidates := mem_candidates_of_read reads (pooled infPool stored) listed
      rw [Datastore.oldest_eq_argmin, List.argmin_eq_none] at none
      apply tracks.none_left
      intro key m live named
      have member := (candidates m).mpr ⟨⟨key, live⟩, named⟩
      rw [none] at member
      cases member
  | @resynced _ _ infPool _ next stored listed oldest =>
      have candidates := mem_candidates_of_read reads (pooled infPool stored) listed
      rw [Datastore.oldest_eq_argmin] at oldest
      obtain ⟨⟨key, found⟩, named⟩ := (candidates next).mp (List.argmin_mem oldest)
      have present := (liveAt_eq_some.mp found).1
      have own := keyed key next present
      apply tracks.insert_oldest _ _ named
      · intro other m live sameName
        exact List.le_of_mem_argmin ((candidates m).mpr ⟨⟨other, live⟩, sameName⟩) oldest
      · rw [own]
        exact found
      · rw [own]
        exact identified key next present

theorem Tracks.started {queue : Finset ManagerRequest} {req : NamespacedName}
    (tracks : Tracks identity live (fun key => .model key ∈ queue) models .returned) :
    Tracks identity live (fun key => .model key ∈ queue.erase (.model req)) models (.get req) where
  named := tracks.named
  backed name m stored := by
    rcases tracks.backed name m stored with due | works | still
    · by_cases same : m.namespacedName = req
      · exact .inr (.inl (congrArg some same.symm))
      · exact .inl (Finset.mem_erase.mpr ⟨by simpa using same, due⟩)
    · cases works
    · exact .inr (.inr still)
  covered key m found := by
    rcases tracks.covered key m found with due | works | resyncs | present
    · by_cases same : key = req
      · exact .inr (.inl (congrArg some same.symm))
      · exact .inl (Finset.mem_erase.mpr ⟨by simpa using same, due⟩)
    · cases works
    · cases resyncs
    · exact .inr (.inr (.inr present))
  current := trivial

theorem Tracks.retried {queue : Finset ManagerRequest} {req : NamespacedName}
    (tracks : Tracks identity live (fun key => .model key ∈ queue) models (.failed req)) :
    Tracks identity live (fun key => .model key ∈ insert (.model req) queue) models .returned where
  named := tracks.named
  backed name m stored := by
    rcases tracks.backed name m stored with due | works | still
    · exact .inl (Finset.mem_insert_of_mem due)
    · cases works
      exact .inl (Finset.mem_insert_self _ _)
    · exact .inr (.inr still)
  covered key m found := by
    rcases tracks.covered key m found with due | works | resyncs | present
    · exact .inl (Finset.mem_insert_of_mem due)
    · cases works
      exact .inl (Finset.mem_insert_self _ _)
    · cases resyncs
    · exact .inr (.inr (.inr present))
  current := trivial

end Reconcile

end InferenceModelReconciler

/-! ## Runs -/

namespace Controllers
variable {pool : NamespacedName} {admits : InferenceModel → Prop} {s s' : Controllers}
  {identity : NamespacedName → String × Int}

/-- The store is not cleared and ModelResync does not fail: its list is answered, and the pool has been stored
before, so that it does not panic. -/
def Keeps (s s' : Controllers) : Prop := s.pool ≠ .clear ∧ (s.model.resyncs.isSome → s'.model.fails = false)

instance : DecidableRel Keeps := fun _ _ => inferInstanceAs (Decidable (_ ∧ _))

def Steady (pool : NamespacedName) (admits : InferenceModel → Prop) (s s' : Controllers) : Prop :=
  Step pool admits s s' ∧ Keeps s s'

structure Caught (pool : NamespacedName) (identity : NamespacedName → String × Int) (s : Controllers) : Prop where
  identified : ∀ key m, s.cluster.models.lookup key = some m → m.identity = identity key
  queued : ∀ key, .model key ∈ s.pending → key.ns = pool.ns
  worksOn : ∀ key, s.model.worksOn = some key → key.ns = pool.ns
  tracks : InferenceModelReconciler.Tracks identity (s.cluster.liveModels pool) (fun key => .model key ∈ s.pending)
    s.memory.ds.models s.model

theorem ManagerChange.identified {cluster cluster' : Cluster} {requests : Finset ManagerRequest}
    (admitted : ∀ m, admits m → m.identity = identity m.namespacedName) (named : cluster'.Named pool)
    (before : ∀ key m, cluster.models.lookup key = some m → m.identity = identity key)
    (change : ManagerChange pool admits cluster requests cluster') (key : NamespacedName) (m : InferenceModel)
    (found : cluster'.models.lookup key = some m) : m.identity = identity key := by
  cases change with
  | model change accepted =>
      rcases accepted key m found with old | new
      · exact before key m old
      · rw [admitted m new, named.models key m found]
  | pods change =>
      rw [change.models] at found
      exact before key m found
  | requeue => exact before key m found

theorem Caught.step (caught : Caught pool identity s)
    (admitted : ∀ m, admits m → m.identity = identity m.namespacedName) (reached : Reaches pool admits {} s)
    (steady : Steady pool admits s s') : Caught pool identity s' := by
  obtain ⟨step, keeps, lists⟩ := steady
  obtain ⟨identified, queued, worksOn, tracks⟩ := caught
  have named := reached.named
  obtain ⟨_, vetted⟩ := reached.exists_vetted
  have pooled (infPool : InferencePool) (stored : s.memory.ds.pool = some infPool) : infPool.namespacedName = pool :=
    (vetted.holds.pool infPool stored).1
  cases step with
  | @change requests cluster changed =>
      have consistent : Consistent pool s.cluster s.pending s.memory.ds :=
        ⟨named.models, named.ownPool, pooled, queued⟩
      refine ⟨ManagerChange.identified admitted (changed.named named) identified changed,
        (consistent.change changed).watched, worksOn, ?_⟩
      apply tracks.unseen
      · intro key due
        exact Finset.mem_union_left _ due
      · intro key settled
        exact (managerView pool admits).event changed fun member => settled (Finset.mem_union_right _ member)
  | startModel req enqueued idle =>
      rw [idle] at tracks
      refine ⟨identified, fun key due => queued key (Finset.mem_of_mem_erase due), ?_, tracks.started⟩
      intro key works
      cases works
      exact queued req enqueued
  | startPod req enqueued idle =>
      refine ⟨identified, fun key due => queued key (Finset.mem_of_mem_erase due), worksOn, ?_⟩
      simpa using tracks
  | startPool enqueued idle =>
      refine ⟨identified, fun key due => queued key (Finset.mem_of_mem_erase due), worksOn, ?_⟩
      simpa using tracks
  | model reads ranges taken =>
      have goes := InferenceModelReconciler.Pc.Goes.of_next ranges taken
      refine ⟨identified, queued, ?_, tracks.goes reads named.models identified worksOn pooled lists goes⟩
      intro key works
      apply worksOn
      apply goes.worksOn _ lists works
      intro req m read
      exact named.models req m (lookup_of_read (reads.getInferenceModel req) read)
  | pod reads taken =>
      refine ⟨identified, queued, worksOn, ?_⟩
      dsimp only
      rw [(PodReconciler.Pc.Goes.of_next taken).blind Datastore.podBlind_models]
      exact tracks
  | pool reads visit taken =>
      refine ⟨identified, queued, worksOn, ?_⟩
      dsimp only
      rw [(InferencePoolReconciler.Pc.Goes.of_next taken).models keeps]
      exact tracks
  | retryModel req failed =>
      rw [failed] at tracks worksOn
      refine ⟨identified, ?_, fun _ works => (by cases works), tracks.retried⟩
      intro key due
      rcases Finset.mem_insert.mp due with same | due
      · cases same
        exact worksOn req rfl
      · exact queued key due
  | retryPod req failed =>
      refine ⟨identified, ?_, worksOn, ?_⟩
      · intro key due
        exact queued key (by simpa using due)
      · simpa using tracks
  | retryPool failed =>
      refine ⟨identified, ?_, worksOn, ?_⟩
      · intro key due
        exact queued key (by simpa using due)
      · simpa using tracks

theorem Caught.start : Caught pool identity {} where
  identified key m found := by cases found
  queued key due := by cases due
  worksOn key works := by cases works
  tracks := by
    refine ⟨?_, ?_, ?_, trivial⟩
    · intro name m stored
      cases stored
    · intro name m stored
      cases stored
    · intro key m found
      cases found

theorem Caught.run (admitted : ∀ m, admits m → m.identity = identity m.namespacedName)
    (run : Relation.ReflTransGen (Steady pool admits) {} s) :
    Reaches pool admits {} s ∧ Caught pool identity s := by
  induction run with
  | refl => exact ⟨.refl, .start⟩
  | tail _ steady ih =>
      exact ⟨ih.1.tail steady.1, ih.2.step admitted ih.1 steady⟩

theorem Caught.oldestWins (caught : Caught pool identity s) (settled : ∀ key, .model key ∉ s.pending)
    (idle : s.model = .returned) :
    (InferenceModelReconciler.mk pool).OldestWins s.cluster.models s.memory.ds.models := by
  have tracks := caught.tracks
  rw [idle] at tracks
  have backed : InferenceModelReconciler.Backed (s.cluster.liveModels pool) ∅ s.memory.ds.models := by
    refine ⟨fun name m stored => (tracks.named name m stored).1, ?_⟩
    intro name m stored _
    rcases tracks.backed name m stored with due | works | still
    · exact absurd due (settled _)
    · cases works
    · exact still
  have covered : InferenceModelReconciler.Covered (s.cluster.liveModels pool) ∅ s.memory.ds.models := by
    intro key m found _
    rcases tracks.covered key m found with due | works | resyncs | present
    · exact absurd due (settled _)
    · cases works
    · cases resyncs
    · exact present
  exact InferenceModelReconciler.oldestWins_of_settled backed covered

theorem oldest_models_settle (admitted : ∀ m, admits m → m.identity = identity m.namespacedName)
    (run : Relation.ReflTransGen (Steady pool admits) {} s) (settled : ∀ key, .model key ∉ s.pending)
    (idle : s.model = .returned) :
    (InferenceModelReconciler.mk pool).OldestWins s.cluster.models s.memory.ds.models := by
  have caught := (Caught.run admitted run).2
  exact caught.oldestWins settled idle

section Rivals
open InferenceModelReconciler

def rivalIdentity (key : NamespacedName) : String × Int := ("llama", if key.name = "a" then 1 else 2)

def rivalAdmits (m : InferenceModel) : Prop := m.identity = rivalIdentity m.namespacedName

instance : DecidablePred rivalAdmits := fun _ => inferInstanceAs (Decidable (_ = _))

-- the older one is created while the younger one is being stored, and takes its place until it is deleted
def rivalTurns : List Turn :=
  [.change (.pods (.createPool vllmPool)), .startPool] ++ List.replicate 6 (.pool {} none) ++
  [.change (.model (.create (testModel "b" "llama" 2))), .startModel (testKey "b"), .model ⟨[testKey "b"], []⟩ [],
    .change (.model (.create (testModel "a" "llama" 1))), .model ⟨[testKey "a", testKey "b"], []⟩ [],
    .startModel (testKey "a")] ++ List.replicate 2 (.model ⟨[testKey "a", testKey "b"], []⟩ ["llama"]) ++
  [.change (.model (.delete (testKey "a"))), .startModel (testKey "a")] ++
  List.replicate 2 (.model ⟨[testKey "b"], []⟩ ["llama"]) ++ [.model ⟨[testKey "b"], []⟩ []]

theorem rivalTurns_return : (rivalTurns.foldlM (performWhere ⟨"default", "pool"⟩ rivalAdmits Keeps) {}).isSome := by
  decide +kernel

def rivals : Controllers :=
  (rivalTurns.foldlM (performWhere ⟨"default", "pool"⟩ rivalAdmits Keeps) {}).get rivalTurns_return

theorem rivals_settle :
    rivals.memory.ds.models.lookup "llama" = some (testModel "b" "llama" 2) ∧
      (InferenceModelReconciler.mk ⟨"default", "pool"⟩).OldestWins rivals.cluster.models rivals.memory.ds.models := by
  have run : Relation.ReflTransGen (Steady ⟨"default", "pool"⟩ rivalAdmits) {} rivals :=
    reaches_performedWhere ⟨"default", "pool"⟩ rivalAdmits rivalTurns {} rivalTurns_return
  have worked : rivals.pending = ∅ := by decide +kernel
  refine ⟨by decide +kernel, oldest_models_settle (fun _ admitted => admitted) run ?_ (by decide +kernel)⟩
  intro key due
  rw [worked] at due
  cases due

end Rivals

end Controllers

end InferenceGateway
