import Verixa.Authorization.AttributeObjects
import Verixa.Encoding.Text

/-!
# Resolving attributes from several providers

`AttributeResolutionPipeline` asks its providers in turn and merges the bags they return: a later
provider overlays the earlier ones, records being merged with records and everything else replaced.
A failing provider that is optional is reported and contributes nothing; one that is required
rejects the resolution.  The keys of the bags are other than `__proto__`, so that an assignment
makes an own property and a property that is a record is an own one.
-/

namespace Verixa.Authorization

open Encoding

/-- What is known of a request. -/
structure AttributeResolutionRequest where
  subjectId : String
  resourceRef : String
  action : String

/-- What a failure of a provider means. -/
inductive FailureMode where
  | failOpen
  | failClosed
  deriving DecidableEq

/-- A source of attributes. -/
structure AttributeProvider (ε : Type) where
  name : String
  failureMode : FailureMode
  resolve : AttributeResolutionRequest → Except ε ObjectContext

/-- A failure of an optional provider. -/
structure AttributeProviderFailure (ε : Type) where
  provider : String
  error : ε

/-- A failure of a required provider. -/
structure AttributeProviderResolutionError (ε : Type) where
  provider : String
  cause : ε

def AttributeProviderResolutionError.message {ε : Type}
    (error : AttributeProviderResolutionError ε) : String :=
  "Required attribute provider \"" ++ error.provider ++ "\" failed."

/-- Why a resolution is rejected. -/
inductive ResolutionError (ε : Type) where
  | provider (error : AttributeProviderResolutionError ε)
  | thrown (error : ThrownError)

structure AttributeResolutionResult (ε : Type) where
  context : ObjectContext
  failures : List (AttributeProviderFailure ε)

/-! ## Merging -/

/-- `isRecord(value)`. -/
def ObjectValue.isRecord : ObjectValue → Bool
  | .object own prototype => !(ObjectValue.object own prototype).isDate
  | _ => false

mutual

/-- The loop of `mergeRecords(earlier, later)`, over the entries of `later`. -/
def mergeRecords (merged : List (String × ObjectValue)) :
    List (String × ObjectValue) → List (String × ObjectValue)
  | [] => merged
  | (key, value) :: later =>
    let oldValue := OrderedMap.lookupEntry key merged
    mergeRecords (OrderedMap.upsertEntry key (overlay oldValue value) merged) later

/-- What is assigned for a value that is laid over another. -/
def overlay (oldValue : Option ObjectValue) : ObjectValue → ObjectValue
  | .object own prototype =>
    match oldValue with
    | some (.object earlier prototype') =>
      if (ObjectValue.object earlier prototype').isRecord &&
          (ObjectValue.object own prototype).isRecord then
        .object (mergeRecords earlier own) none
      else .object own prototype
    | _ => .object own prototype
  | value => value

end

/-! ## The pipeline -/

section

variable {ε : Type}

/-- The first objection to the names of providers, given those seen before. -/
def nameObjection (names : List String) : List (AttributeProvider ε) → Option ThrownError
  | [] => none
  | provider :: providers =>
    if trim provider.name = "" then
      some ⟨"TypeError", "Attribute providers need a non-empty name."⟩
    else if provider.name ∈ names then
      some ⟨"TypeError", "Duplicate attribute provider: " ++ provider.name⟩
    else nameObjection (provider.name :: names) providers

/-- Providers in the order of their registration, each with a name of its own. -/
structure AttributeResolutionPipeline (ε : Type) where
  providers : List (AttributeProvider ε)
  named : ∀ provider ∈ providers, trim provider.name ≠ ""
  distinct : (providers.map AttributeProvider.name).Nodup

/-- There is no objection to names exactly if none is blank or occurs before. -/
theorem nameObjection_eq_none_iff {providers : List (AttributeProvider ε)} {names : List String} :
    nameObjection names providers = none ↔
      (∀ provider ∈ providers, trim provider.name ≠ "" ∧ provider.name ∉ names) ∧
        (providers.map AttributeProvider.name).Nodup := by
  induction providers generalizing names with
  | nil => simp [nameObjection]
  | cons provider providers ih =>
    rw [nameObjection]
    by_cases hblank : trim provider.name = ""
    · simp [hblank]
    by_cases hseen : provider.name ∈ names
    · simp [hblank, hseen]
    rw [if_neg hblank, if_neg hseen, ih, List.forall_mem_cons, List.map_cons, List.nodup_cons]
    have hnot : provider.name ∉ providers.map AttributeProvider.name ↔
        ∀ other ∈ providers, other.name ≠ provider.name := by
      simp [eq_comm]
    rw [hnot]
    simp only [List.mem_cons, not_or]
    constructor
    · rintro ⟨hothers, hnodup⟩
      exact ⟨⟨⟨hblank, hseen⟩, fun other h => ⟨(hothers other h).1, (hothers other h).2.2⟩⟩,
        fun other h => (hothers other h).2.1, hnodup⟩
    · rintro ⟨⟨-, hothers⟩, hnew, hnodup⟩
      exact ⟨fun other h => ⟨(hothers other h).1, hnew other h, (hothers other h).2⟩, hnodup⟩

namespace AttributeResolutionPipeline

/-- `new AttributeResolutionPipeline(providers)`. -/
def create (providers : List (AttributeProvider ε)) :
    Except ThrownError (AttributeResolutionPipeline ε) :=
  match h : nameObjection [] providers with
  | some error => .error error
  | none => .ok
    { providers
      named := fun provider hmem => ((nameObjection_eq_none_iff.mp h).1 provider hmem).1
      distinct := (nameObjection_eq_none_iff.mp h).2 }

/-- The loop of `resolve`, with the bags merged and the failures met so far. -/
def resolveFrom (request : AttributeResolutionRequest)
    (bags : AttributeBagName → List (String × ObjectValue))
    (failures : List (AttributeProviderFailure ε)) :
    List (AttributeProvider ε) → Except (ResolutionError ε) (AttributeResolutionResult ε)
  | [] =>
    match ObjectContext.ofEntries bags with
    | .error error => .error (.thrown error)
    | .ok context => .ok { context, failures }
  | provider :: providers =>
    match provider.resolve request with
    | .error error =>
      match provider.failureMode with
      | .failClosed => .error (.provider { provider := provider.name, cause := error })
      | .failOpen =>
        resolveFrom request bags (failures ++ [{ provider := provider.name, error }]) providers
    | .ok context =>
      match context.toBags with
      | .error error => .error (.thrown error)
      | .ok next =>
        resolveFrom request (fun name => mergeRecords (bags name) (next.bag name).entries) failures
          providers

/-- `pipeline.resolve(request)`. -/
def resolve (pipeline : AttributeResolutionPipeline ε) (request : AttributeResolutionRequest) :
    Except (ResolutionError ε) (AttributeResolutionResult ε) :=
  resolveFrom request (fun _ => []) [] pipeline.providers

end AttributeResolutionPipeline

end

end Verixa.Authorization
