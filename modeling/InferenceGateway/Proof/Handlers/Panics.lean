import InferenceGateway.Handlers.JsonCodec
import InferenceGateway.Proof.Controller.Reachable
import InferenceGateway.Proof.Handlers.RequestBody

/-!
Where the streaming server can panic in the request phase.
-/

namespace InferenceGateway
open Lib

def ProcessingRequest.isRequest : ProcessingRequest → Bool
  | .requestHeaders _ | .requestBody _ _ => true
  | _ => false

/-- The calls of a message are answered from reachable stores, each call from a store of its own. -/
structure Backend.FromStores (backend : Backend) : Prop where
  modelGet : ∃ ds, Reachable ds ∧ backend.modelGet = (·.modelGet) ds
  podGetAll : ∃ ds order, Reachable ds ∧ RangesOver order ds.pods ∧
    backend.podGetAll = (ds.podGetAll order).map (·.pod)
  poolGet : ∃ ds, Reachable ds ∧ backend.poolGet = ds.poolGet

theorem fromStores_ofDatastore {ds : Datastore} {order : List NamespacedName} (reachable : Reachable ds)
    (ranges : RangesOver order ds.pods) (schedule : LLMRequest → Except Err BackendPod)
    (frontEnd : Bytes → Except Err String) (intn int31n : Nat) :
    (Backend.ofDatastore ds order schedule frontEnd intn int31n).FromStores where
  modelGet := ⟨ds, reachable, rfl⟩
  podGetAll := ⟨ds, order, reachable, ranges, rfl⟩
  poolGet := ⟨ds, reachable, rfl⟩

namespace StreamingServer
section Steps
variable {codec : Codec} {hint : DestinationHint} {canSend : Nat → Bool} {backend : Backend} {s : Stream}

theorem getRandomPod_eq_none_iff : getRandomPod backend = none ↔ backend.podGetAll = [] := by
  rw [getRandomPod, List.getElem?_eq_none_iff]
  constructor
  · intro outside
    by_contra nonempty
    exact absurd (Nat.mod_lt backend.intn (List.length_pos_iff.mpr nonempty)) (Nat.not_lt.mpr outside)
  · intro none
    rw [none]
    exact Nat.zero_le _

theorem handleRequestHeaders_eq_none_iff (hint : DestinationHint) {endOfStream : Bool} (ctx : RequestContext) :
    handleRequestHeaders hint backend endOfStream ctx = none ↔ endOfStream = true ∧ backend.podGetAll = [] := by
  rw [← getRandomPod_eq_none_iff]
  cases endOfStream with
  | false => simp [handleRequestHeaders]
  | true =>
      cases drawn : getRandomPod backend with
      | none => simp [handleRequestHeaders, drawn]
      | some pod => cases pooled : backend.poolGet <;> simp [handleRequestHeaders, drawn, pooled]

theorem handleRequestBody_isSome (codec : Codec) (hint : DestinationHint)
    (drawable : ∀ model m, backend.modelGet model = some m → Drawable m.spec) (map : Option Object)
    (ctx : RequestContext) : (handleRequestBody codec hint backend map ctx).isSome := by
  rcases handleRequestBody_cases codec hint backend map ctx with ⟨⟨model, m, found, stuck⟩, _⟩ | ⟨_, _, _, failed⟩ |
    ⟨_, _, _, _, _, _, _, _, _, routed⟩
  · exact absurd (drawable model m found) stuck
  · rw [failed]
    rfl
  · rw [routed]
    rfl

theorem receive_eq_none_iff (drawable : ∀ model m, backend.modelGet model = some m → Drawable m.spec)
    {message : ProcessingRequest} (request : message.isRequest = true) :
    receive codec hint backend s message = none ↔ message = .requestHeaders true ∧ backend.podGetAll = [] := by
  cases message with
  | requestHeaders endOfStream =>
      rw [ProcessingRequest.requestHeaders.injEq, ← handleRequestHeaders_eq_none_iff hint s.ctx]
      cases handled : handleRequestHeaders hint backend endOfStream s.ctx <;> simp [receive, handled]
  | requestBody chunk endOfStream =>
      refine iff_of_false ?_ (by simp)
      cases endOfStream with
      | false => simp [receive]
      | true =>
          obtain ⟨⟨err, ctx, map⟩, handled⟩ := Option.isSome_iff_exists.mp
            (handleRequestBody_isSome codec hint drawable
              (codec.unmarshalMap (s.body ++ chunk) s.requestBody).1 s.ctx)
          obtain ⟨_, received⟩ := receive_requestBody handled
          rw [received]
          exact Option.some_ne_none _
  | _ => cases request

theorem step_panics_iff (message : ProcessingRequest) :
    (∀ ended, step codec hint canSend backend s message = .error ended → ended.2 ≠ .panicked) ↔
      receive codec hint backend s message ≠ none := by
  cases received : receive codec hint backend s message with
  | none => simp [step, received]
  | some next =>
      refine iff_of_true ?_ nofun
      intro ended stopped
      simp only [step, received] at stopped
      split at stopped
      · split at stopped
        · cases stopped
          nofun
        · split at stopped <;> cases stopped <;> nofun
      · split at stopped <;> cases stopped
        nofun

end Steps

theorem requests_never_panic_iff (codec : Codec) (hint : DestinationHint) (canSend : Nat → Bool)
    {backends : Nat → Backend} (stores : ∀ n, (backends n).FromStores) {messages : List ProcessingRequest}
    (requests : ∀ message ∈ messages, message.isRequest = true) :
    (process codec hint canSend backends messages).2 ≠ .panicked ↔
      Loop.Always (fun n _ message => message = .requestHeaders true → (backends n).podGetAll ≠ [])
        (fun n => step codec hint canSend (backends n)) 0 messages {} := by
  have returned : Exit.returned none ≠ .panicked := nofun
  refine Loop.runFrom_iff_always (J := (· ≠ Exit.panicked)) returned ?_ 0 ({} : Stream)
  intro message member n s
  have drawable : ∀ model m, (backends n).modelGet model = some m → Drawable m.spec := by
    obtain ⟨ds, reachable, same⟩ := (stores n).modelGet
    intro model m found
    rw [same] at found
    exact drawable_of_valid (reachable.modelsValid model m found)
  rw [step_panics_iff, ne_eq, receive_eq_none_iff drawable (requests message member), not_and]

/-! ## A pool with and without pods -/

def readyPod : Pod := testPod "default" "pod" "10.0.0.1"

def syncedStore (pods : List Pod) : Datastore :=
  (InferencePoolReconciler.reconcile (listingClient pods) (pods.map Pod.namespacedName) testPool.namespacedName {}).2

theorem reachable_syncedStore (pods : List Pod) : Reachable (syncedStore pods) := .single (.pool ..)

def syncedBackend (pods : List Pod) : Backend :=
  Backend.ofDatastore (syncedStore pods) (pods.map Pod.namespacedName) (fun _ => .error (.new "no pods left"))
    (fun _ => .ok "worker") 0 0

theorem get_returns_with_pod :
    (process jsonCodec testHint (fun _ => true) (fun _ => syncedBackend [readyPod])
      [.requestHeaders true, .requestBody (bytes "not JSON") true]).2 ≠ .panicked := by
  have stores : (syncedBackend [readyPod]).FromStores :=
    fromStores_ofDatastore (reachable_syncedStore _) (by decide +kernel) _ _ _ _
  have stored : (syncedBackend [readyPod]).podGetAll ≠ [] := by decide +kernel
  refine (requests_never_panic_iff jsonCodec testHint (fun _ => true) (fun _ => stores) (by decide)).mpr ?_
  exact ⟨fun _ => stored, fun _ _ => ⟨fun _ => stored, fun _ _ => trivial⟩⟩

theorem get_without_pods_panics :
    (syncedBackend []).FromStores ∧ (syncedStore []).poolHasSynced = true ∧
    (process jsonCodec testHint (fun _ => true) (fun _ => syncedBackend []) [.requestHeaders true]).2 = .panicked := by
  refine ⟨fromStores_ofDatastore (reachable_syncedStore _) (by decide +kernel) _ _ _ _, rfl, rfl⟩

end StreamingServer

end InferenceGateway
