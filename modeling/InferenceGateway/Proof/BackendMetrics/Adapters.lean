import InferenceGateway.Proof.BackendMetrics.Scrape
import InferenceGateway.Proof.Scheduling.Filters

/-!
The adapters that a scrape finds, and for which the scheduler then sees affinity.
-/

namespace InferenceGateway.BackendMetrics
open Lib

/-- The names in a label, which the model server protocol separates by a comma with or without spaces
after it. -/
def adapterNames (value : String) : List String :=
  if value = "" then []
  else (value.toList.splitOn ',').map fun name => String.ofList (name.dropWhile (· = ' '))

def Lists (m : Series) (adapter : String) : Prop :=
  ∃ label ∈ m.label,
    (label.name = loraInfoRunningAdaptersMetricName ∨ label.name = loraInfoWaitingAdaptersMetricName) ∧
    adapter ∈ adapterNames label.value

/-- The latest series with adapters, by its gauge, and the first one of several. -/
def LatestAdapters (mf : List Series) (m : Series) : Prop :=
  Latest.IsLatest HasAdapters (fun m => m.gaugeValue.rank) mf m

/-- The active models are the adapters of the latest series, and so are those for which a pod with these
metrics has affinity; without such a series nothing changes. -/
structure TracksAdapters (mf : List Series) (existing updated : InferenceGateway.Metrics) : Prop where
  listed : ∀ m, LatestAdapters mf m → ∀ adapter, adapter ∈ updated.activeModels ↔ Lists m adapter
  affinity : ∀ m, LatestAdapters mf m → ∀ {π : Type} (env : Env π) (t : Nat) (pod : π) (req : LLMRequest),
    Steady env t [pod] (fun _ => updated) →
    ((categorize req ([], []) pod env t).1.1 = [pod] ↔ Lists m req.resolvedTargetModel)
  unchanged : (∀ m, ¬ LatestAdapters mf m) → updated.activeModels = existing.activeModels

def Unspaced (m : Series) : Prop :=
  ∀ label ∈ m.label, isAdapterLabel label = true → ∀ name ∈ label.value.toList.splitOn ',', name.head? ≠ some ' '

section Names

theorem dropSpaces_of_head {name : List Char} (unspaced : name.head? ≠ some ' ') : name.dropWhile (· = ' ') = name := by
  cases name with
  | nil => rfl
  | cons first rest => simpa using unspaced

theorem head?_dropSpaces (name : List Char) : (name.dropWhile (· = ' ')).head? ≠ some ' ' := by
  intro space
  have first := List.head?_dropWhile_not (· = ' ') name
  rw [space] at first
  exact absurd first (by decide)

theorem mem_addAdapters {adapter value : String} {models : Finmap fun _ : String => Int64} :
    adapter ∈ addAdapters models value ↔ adapter ∈ models ∨ adapter ∈ splitAdapters value := by
  unfold addAdapters
  induction splitAdapters value generalizing models with
  | nil => simp
  | cons first rest ih =>
      rw [List.foldl_cons, ih, Finmap.mem_insert, List.mem_cons]
      tauto

theorem mem_adapterModels {adapter : String} {labels : List LabelPair} {models : Finmap fun _ : String => Int64} :
    adapter ∈ adapterModels labels models ↔
      adapter ∈ models ∨ ∃ label ∈ labels, isAdapterLabel label = true ∧ adapter ∈ splitAdapters label.value := by
  unfold adapterModels
  induction labels generalizing models with
  | nil => simp
  | cons label labels ih =>
      cases isAdapter : isAdapterLabel label with
      | true =>
          rw [List.filter_cons_of_pos isAdapter, List.foldl_cons, ih, mem_addAdapters]
          simp [isAdapter, or_assoc]
      | false =>
          rw [List.filter_cons_of_neg (by simp [isAdapter]), ih]
          simp [isAdapter]

theorem lists_iff {m : Series} {adapter : String} :
    Lists m adapter ↔ ∃ label ∈ m.label, isAdapterLabel label = true ∧ ∃ name ∈ label.value.toList.splitOn ',',
      String.ofList (name.dropWhile (· = ' ')) = adapter := by
  unfold Lists adapterNames isAdapterLabel
  constructor
  · rintro ⟨label, member, name, listed⟩
    split_ifs at listed with empty
    · cases listed
    · exact ⟨label, member, decide_eq_true ⟨empty, name⟩, List.mem_map.mp listed⟩
  · rintro ⟨label, member, isAdapter, listed⟩
    obtain ⟨nonempty, name⟩ := of_decide_eq_true isAdapter
    exact ⟨label, member, name, by rw [if_neg nonempty]; exact List.mem_map.mpr listed⟩

theorem keys_listed_iff {m : Series} :
    (∀ adapter, adapter ∈ adapterModels m.label ∅ ↔ Lists m adapter) ↔ Unspaced m := by
  simp only [mem_adapterModels, lists_iff, splitAdapters, List.mem_map, Finmap.notMem_empty, false_or]
  constructor
  · intro same label member isAdapter name split space
    obtain ⟨label', _, _, name', _, equal⟩ := (same (.ofList name)).mp ⟨label, member, isAdapter, name, split, rfl⟩
    rw [String.ofList_inj] at equal
    rw [← equal] at space
    exact head?_dropSpaces name' space
  · intro unspaced adapter
    refine exists_congr fun label => and_congr_right fun member => and_congr_right fun isAdapter =>
      exists_congr fun name => and_congr_right fun split => ?_
    rw [dropSpaces_of_head (unspaced label member isAdapter name split)]

end Names

section Updates
variable {mapping : MetricMapping} {families : MetricFamilies} {spec : MetricSpec} {mf : List Series}

theorem latestAdapters_iff (positive : ∀ m ∈ mf, m.gaugeValue.Positive) {m : Series} :
    LatestAdapters mf m ↔ latestLora mf = some m := by
  rw [latestLora_eq_some_iff]
  exact ⟨fun latest => ⟨latest, positive m latest.mem⟩, And.left⟩

theorem loraSeries_eq (configured : mapping.loraRequestInfo = some spec)
    (found : families.lookup spec.metricName = some mf) : loraSeries mapping families = latestLora mf := by
  simp [loraSeries, configured, found]

theorem affinity_iff {updated : InferenceGateway.Metrics} {π : Type} {env : Env π} {t : Nat} {pod : π}
    (steady : Steady env t [pod] fun _ => updated) (req : LLMRequest) :
    (categorize req ([], []) pod env t).1.1 = [pod] ↔ req.resolvedTargetModel ∈ updated.activeModels := by
  rw [steady.run_eq id (returns_categorize req ([], []) List.mem_cons_self), loRAClass]
  split_ifs with active
  · exact iff_of_true rfl active
  · exact iff_of_false nofun active
  · exact iff_of_false nofun active

end Updates

theorem lora_adapters_tracked_iff (outOfRange : Float64 → Int64) (mapping : MetricMapping)
    (families : MetricFamilies) (existing : Metrics) (spec : MetricSpec) (mf : List Series)
    (configured : mapping.loraRequestInfo = some spec) (found : families.lookup spec.metricName = some mf)
    (positive : ∀ m ∈ mf, m.gaugeValue.Positive) :
    TracksAdapters mf existing.toMetrics (promToPodMetrics outOfRange mapping families existing).1.toMetrics ↔
      ∀ m, LatestAdapters mf m → Unspaced m := by
  have models : (promToPodMetrics outOfRange mapping families existing).1.activeModels =
      ((latestLora mf).map fun m => adapterModels m.label ∅).getD existing.activeModels := by
    rw [promToPodMetrics_eq, loraSeries_eq configured found]
  constructor
  · intro tracks m latest
    rw [← keys_listed_iff]
    intro adapter
    rw [← tracks.listed m latest, models, (latestAdapters_iff positive).mp latest]
    rfl
  · intro unspaced
    have listed (m : Series) (latest : LatestAdapters mf m) (adapter : String) :
        adapter ∈ (promToPodMetrics outOfRange mapping families existing).1.activeModels ↔ Lists m adapter := by
      rw [models, (latestAdapters_iff positive).mp latest]
      exact keys_listed_iff.mpr (unspaced m latest) adapter
    refine ⟨listed, ?_, ?_⟩
    · intro m latest π env t pod req steady
      rw [affinity_iff steady req, listed m latest]
    · intro absent
      have noSeries : latestLora mf = none := by
        apply Option.eq_none_iff_forall_ne_some.mpr
        intro m latest
        exact absent m ((latestAdapters_iff positive).mpr latest)
      rw [models, noSeries]
      rfl

def runningSeries (adapters : String) : Series :=
  { label := [⟨"running_lora_adapters", adapters⟩, ⟨"max_lora", "4"⟩], gauge := some (.finite 1) }

theorem lookup_loraFamilies (adapters : String) :
    (loraFamilies (runningSeries adapters).label).lookup "vllm:lora_requests_info" = some [runningSeries adapters] :=
  Finmap.lookup_insert _

theorem unspaced_adapters_tracked :
    TracksAdapters [runningSeries "adapter1,adapter2"] {}
      (promToPodMetrics (fun _ => 0) loraMapping (loraFamilies (runningSeries "adapter1,adapter2").label)
        {}).1.toMetrics := by
  have positive : (runningSeries "adapter1,adapter2").gaugeValue.Positive := by rw [Float64.Positive]; decide
  apply (lora_adapters_tracked_iff (fun _ => 0) loraMapping (loraFamilies (runningSeries "adapter1,adapter2").label) {}
    ⟨"vllm:lora_requests_info", none⟩ [runningSeries "adapter1,adapter2"] rfl (lookup_loraFamilies _)
    (List.forall_mem_singleton.mpr positive)).mpr
  intro m latest
  rw [List.mem_singleton.mp latest.mem]
  exact (by decide +kernel : ∀ label ∈ (runningSeries "adapter1,adapter2").label, isAdapterLabel label = true →
    ∀ name ∈ label.value.toList.splitOn ',', name.head? ≠ some ' ')

/-- The example of the model server protocol. -/
theorem spaced_adapter_lost :
    LatestAdapters [runningSeries "adapter1, adapter2"] (runningSeries "adapter1, adapter2") ∧
    Lists (runningSeries "adapter1, adapter2") "adapter2" ∧
    ¬ TracksAdapters [runningSeries "adapter1, adapter2"] {}
      (promToPodMetrics (fun _ => 0) loraMapping (loraFamilies (runningSeries "adapter1, adapter2").label)
        {}).1.toMetrics := by
  have latest : LatestAdapters [runningSeries "adapter1, adapter2"] (runningSeries "adapter1, adapter2") :=
    ⟨[], [], rfl, .inl (by decide +kernel), List.forall_mem_nil _, List.forall_mem_nil _⟩
  have lists : Lists (runningSeries "adapter1, adapter2") "adapter2" :=
    ⟨_, List.mem_cons_self, .inl rfl, by decide +kernel⟩
  have lost : "adapter2" ∉ (promToPodMetrics (fun _ => 0) loraMapping
      (loraFamilies (runningSeries "adapter1, adapter2").label) {}).1.activeModels := by decide +kernel
  exact ⟨latest, lists, fun tracks => lost ((tracks.listed _ latest _).mpr lists)⟩

end InferenceGateway.BackendMetrics
