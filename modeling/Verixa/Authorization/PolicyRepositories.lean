import Mathlib.Data.List.Sort
import Verixa.Authorization.PolicyMapper
import Verixa.Concurrency.Run

/-!
# Repositories of policies

Two adapters keep every version of every policy that is saved: one in memory, one in a table.  The
table is searched for the target first and for the latest version then; that is the same, because
all versions of a policy have the same target.

`Latest` says what both are for: the version of a policy that applies is the greatest one saved,
and of several saves of one version the first counts.  Both adapters return exactly the latest
versions that are published and target the action, unless one of them has a literal without a text
in JSON, whose row cannot be read (`latest_applies_iff`).
-/

namespace Verixa.Authorization

open Concurrency PolicyMapper

/-! ## What applies -/

/-- A version of a policy. -/
def Policy.key (policy : Policy) : String × ℕ := (policy.id, policy.version)

/-- The policy was saved, and was the first of its id and version. -/
def Stored (history : List Policy) (policy : Policy) : Prop :=
  ∃ before after, history = before ++ policy :: after ∧ policy.key ∉ before.map Policy.key

/-- No greater version of the policy was saved. -/
def Latest (history : List Policy) (policy : Policy) : Prop :=
  Stored history policy ∧ ∀ other ∈ history, other.id = policy.id → other.version ≤ policy.version

/-- The latest version of a policy is published and targets the action. -/
def Applies (history : List Policy) (resourceType action : String) (policy : Policy) : Prop :=
  Latest history policy ∧ policy.status = .published ∧ policy.targets resourceType action = true

/-! ## In memory -/

structure InMemoryPolicyRepository where
  versionsById : OrderedMap String (List Policy)

namespace InMemoryPolicyRepository

def empty : InMemoryPolicyRepository := ⟨OrderedMap.empty⟩

/-- The versions of a policy, in their order. -/
def versionsOf (repository : InMemoryPolicyRepository) (id : String) : List Policy :=
  (repository.versionsById.get? id).getD []

/-- Adds a version, unless there is one with its number. -/
def save (repository : InMemoryPolicyRepository) (policy : Policy) : InMemoryPolicyRepository :=
  let versions := repository.versionsOf policy.id
  if versions.any fun existing => existing.version = policy.version then repository
  else
    let sorted := (versions ++ [policy]).insertionSort fun a b => a.version ≤ b.version
    ⟨repository.versionsById.set policy.id sorted⟩

def findApplicableTo (repository : InMemoryPolicyRepository) (resourceType action : String) :
    List Policy :=
  let latestVersions := repository.versionsById.values.filterMap List.getLast?
  latestVersions.filter fun policy =>
    decide (policy.status = .published) && policy.targets resourceType action

end InMemoryPolicyRepository

/-! ## In a table -/

structure PrismaPolicyRepository where
  rows : List PolicyRow

namespace PrismaPolicyRepository

def empty : PrismaPolicyRepository := ⟨[]⟩

/-- `createMany` with `skipDuplicates`. -/
def save (repository : PrismaPolicyRepository) (policy : Policy) : PrismaPolicyRepository :=
  if (policy.id, policy.version) ∈ repository.rows.map fun row => (row.id, row.version) then
    repository
  else ⟨repository.rows ++ [toRow policy]⟩

/-- `groupBy` the id, with the greatest version of the rows that match. -/
def latestVersions (repository : PrismaPolicyRepository) (resourceType action : String) :
    List (String × ℕ) :=
  let matching := repository.rows.filter fun row =>
    decide (row.resourceType = resourceType) && row.actions.contains action
  (matching.map PolicyRow.id).dedup.filterMap fun id =>
    ((matching.filter fun row => row.id = id).map PolicyRow.version).max?.map fun version =>
      (id, version)

def findApplicableTo (repository : PrismaPolicyRepository) (resourceType action : String) :
    Except ThrownError (List Policy) :=
  let latest := repository.latestVersions resourceType action
  if latest = [] then .ok []
  else
    let found := repository.rows.filter fun row =>
      decide ((row.id, row.version) ∈ latest) && decide (row.status = .published)
    (found.insertionSort fun a b => a.id ≤ b.id).mapM toDomain

end PrismaPolicyRepository

/-! ## Saving -/

/-- The policies that were built, those that were saved, and both repositories. -/
structure PolicyStores where
  built : List Policy
  saved : List Policy
  memory : InMemoryPolicyRepository
  prisma : PrismaPolicyRepository

/-- What may happen to policies; those that were built have numbers. -/
inductive PolicyOperation where
  | create (id name : String) (target : PolicyTarget) (rules : List Policy.Rule)
    (status : Option PolicyStatus) (dslSource : Option String) (now : ℤ)
  | publishNewVersion (policy : ℕ) (rules : List Policy.Rule) (dslSource : Option String) (now : ℤ)
  | save (policy : ℕ)

namespace PolicyStores

def empty : PolicyStores := ⟨[], [], .empty, .empty⟩

/-- The stores with what was built, if it was. -/
def addBuilt (s : PolicyStores) : Except ValidationError Policy → PolicyStores
  | .ok policy => { s with built := s.built ++ [policy] }
  | .error _ => s

/-- The stores after an operation; `createId` returns an id that no other policy has. -/
def step (s : PolicyStores) : PolicyOperation → Option PolicyStores
  | .create id name target rules status dslSource now =>
    if id ∈ s.built.map Policy.id then none
    else some (s.addBuilt (Policy.create id name target rules status dslSource now))
  | .publishNewVersion policy rules dslSource now =>
    s.built[policy]?.map fun policy =>
      s.addBuilt (policy.publishNewVersion rules dslSource now)
  | .save policy =>
    s.built[policy]?.map fun policy =>
      { s with saved := s.saved ++ [policy], memory := s.memory.save policy,
               prisma := s.prisma.save policy }

end PolicyStores

/-! ## The versions that are kept -/

/-- A save keeps the version, unless there is one with its number. -/
def keep (kept : List Policy) (policy : Policy) : List Policy :=
  if policy.key ∈ kept.map Policy.key then kept else kept ++ [policy]

/-- What is kept of a history. -/
def keptOf (history : List Policy) : List Policy := history.foldl keep []

theorem keptOf_append (history : List Policy) (policy : Policy) :
    keptOf (history ++ [policy]) = keep (keptOf history) policy := by
  rw [keptOf, List.foldl_append]
  rfl

/-- Every version that was saved is kept. -/
theorem map_key_keptOf (history : List Policy) (key : String × ℕ) :
    key ∈ (keptOf history).map Policy.key ↔ key ∈ history.map Policy.key := by
  induction history using List.reverseRecOn with
  | nil => rfl
  | append_singleton history policy ih =>
    rw [keptOf_append, keep, List.map_append, List.mem_append, ← ih]
    split
    · rename_i hmem
      refine ⟨Or.inl, ?_⟩
      rintro (h | h)
      · exact h
      · rw [List.map_singleton, List.mem_singleton] at h
        exact h ▸ hmem
    · rw [List.map_append, List.mem_append]

/-- No version is kept twice. -/
theorem nodup_keptOf (history : List Policy) : ((keptOf history).map Policy.key).Nodup := by
  induction history using List.reverseRecOn with
  | nil => exact List.nodup_nil
  | append_singleton history policy ih =>
    rw [keptOf_append, keep]
    split
    · exact ih
    · rename_i hmem
      rw [List.map_append, List.map_singleton]
      exact ih.append (List.nodup_singleton _) (by simpa using hmem)

/-- What is kept is what was saved first. -/
theorem mem_keptOf {history : List Policy} {policy : Policy} :
    policy ∈ keptOf history ↔ Stored history policy := by
  induction history using List.reverseRecOn with
  | nil => simp [keptOf, Stored]
  | append_singleton history next ih =>
    have hlater : Stored history policy → Stored (history ++ [next]) policy := by
      rintro ⟨before, after, rfl, hfirst⟩
      exact ⟨before, after ++ [next], by simp, hfirst⟩
    rw [keptOf_append, keep]
    constructor
    · intro h
      split at h
      · exact hlater (ih.mp h)
      · rename_i hnew
        rcases List.mem_append.mp h with h | h
        · exact hlater (ih.mp h)
        · obtain rfl := List.mem_singleton.mp h
          exact ⟨history, [], rfl, fun hmem => hnew ((map_key_keptOf _ _).mpr hmem)⟩
    · rintro ⟨before, after, heq, hfirst⟩
      rcases List.eq_nil_or_concat after with rfl | ⟨rest, last, rfl⟩
      · obtain ⟨rfl, hlast⟩ := List.append_inj' heq rfl
        obtain rfl : next = policy := by simpa using hlast
        rw [if_neg fun hmem => hfirst ((map_key_keptOf _ _).mp hmem)]
        exact List.mem_append_right _ (List.mem_singleton.mpr rfl)
      · rw [List.concat_eq_append, ← List.cons_append, ← List.append_assoc] at heq
        obtain ⟨rfl, -⟩ := List.append_inj' heq rfl
        have hkept := ih.mpr ⟨before, rest, rfl, hfirst⟩
        split
        · exact hkept
        · exact List.mem_append_left _ hkept

/-- Two kept policies of one version are the same. -/
theorem eq_of_key_eq {history : List Policy} {policy policy' : Policy}
    (h : policy ∈ keptOf history) (h' : policy' ∈ keptOf history)
    (hkey : policy.key = policy'.key) :
    policy = policy' :=
  List.inj_on_of_nodup_map (nodup_keptOf history) h h' hkey

/-- The latest version is the greatest that is kept. -/
theorem latest_iff {history : List Policy} {policy : Policy} :
    Latest history policy ↔ policy ∈ keptOf history ∧
      ∀ other ∈ keptOf history, other.id = policy.id → other.version ≤ policy.version := by
  rw [Latest, ← mem_keptOf]
  refine and_congr_right fun _ => ⟨fun h other hother => ?_, fun h other hother hid => ?_⟩
  · obtain ⟨before, after, rfl, -⟩ := mem_keptOf.mp hother
    exact h other (by simp)
  · obtain ⟨kept, hkept, hkey⟩ := List.mem_map.mp
      ((map_key_keptOf history other.key).mpr (List.mem_map_of_mem hother))
    obtain ⟨hid', hversion⟩ := Prod.ext_iff.mp hkey
    have hle := h kept hkept (hid'.trans hid)
    exact le_of_eq_of_le hversion.symm hle

/-! ## The invariant -/

namespace PolicyStores

/-- Versions of one policy have one target, and both repositories keep what was saved first. -/
structure Consistent (s : PolicyStores) : Prop where
  target : ∀ policy ∈ s.built, ∀ other ∈ s.built, policy.id = other.id →
    policy.target = other.target
  saved : ∀ policy ∈ s.saved, policy ∈ s.built
  rows : s.prisma.rows = (keptOf s.saved).map toRow
  mem_versionsOf : ∀ id policy, policy ∈ s.memory.versionsOf id ↔
    policy ∈ keptOf s.saved ∧ policy.id = id
  sorted : ∀ id, (s.memory.versionsOf id).Pairwise fun a b => a.version ≤ b.version

theorem consistent_empty : empty.Consistent where
  target _ h := nomatch h
  saved _ h := nomatch h
  rows := rfl
  mem_versionsOf id policy := by simp [empty, InMemoryPolicyRepository.empty,
    InMemoryPolicyRepository.versionsOf, keptOf]
  sorted _ := List.Pairwise.nil

variable {s s' : PolicyStores}

/-- Building a policy whose target is that of the others with its id. -/
theorem Consistent.addBuilt (h : s.Consistent) {built : Except ValidationError Policy}
    (hbuilt : ∀ policy, built = .ok policy → ∀ other ∈ s.built, other.id = policy.id →
      other.target = policy.target) : (s.addBuilt built).Consistent := by
  cases built with
  | error error => exact h
  | ok policy =>
    have hpolicy := hbuilt policy rfl
    refine ⟨fun a ha b hb hid => ?_, fun a ha => List.mem_append_left _ (h.saved a ha), h.rows,
      h.mem_versionsOf, h.sorted⟩
    rcases List.mem_append.mp ha with hbuilt_a | ha <;>
      rcases List.mem_append.mp hb with hbuilt_b | hb
    · exact h.target a hbuilt_a b hbuilt_b hid
    · obtain rfl := List.mem_singleton.mp hb
      exact hpolicy a hbuilt_a hid
    · obtain rfl := List.mem_singleton.mp ha
      exact (hpolicy b hbuilt_b hid.symm).symm
    · rw [List.mem_singleton.mp ha, List.mem_singleton.mp hb]

/-- The versions that a repository in memory has after a save. -/
theorem versionsOf_save (repository : InMemoryPolicyRepository) (policy : Policy) (id : String) :
    (repository.save policy).versionsOf id =
      if policy.id = id ∧ ¬∃ existing ∈ repository.versionsOf id, existing.version = policy.version
      then (repository.versionsOf id ++ [policy]).insertionSort fun a b => a.version ≤ b.version
      else repository.versionsOf id := by
  have hany : (repository.versionsOf policy.id).any
      (fun existing => existing.version = policy.version) = true ↔
        ∃ existing ∈ repository.versionsOf policy.id, existing.version = policy.version := by simp
  unfold InMemoryPolicyRepository.save
  simp only [hany]
  by_cases hexists : ∃ existing ∈ repository.versionsOf policy.id, existing.version = policy.version
  · rw [if_pos hexists, if_neg]
    rintro ⟨rfl, hnone⟩
    exact hnone hexists
  · rw [if_neg hexists, InMemoryPolicyRepository.versionsOf, OrderedMap.get?_set]
    by_cases hid : policy.id = id
    · subst hid
      rw [if_pos rfl, if_pos ⟨rfl, hexists⟩]
      rfl
    · rw [if_neg hid, if_neg fun h => hid h.1]
      rfl

/-- Saving a policy that was built. -/
theorem Consistent.save (h : s.Consistent) {policy : Policy} (hpolicy : policy ∈ s.built) :
    Consistent { s with saved := s.saved ++ [policy], memory := s.memory.save policy,
                        prisma := s.prisma.save policy } := by
  have hexists : (∃ existing ∈ s.memory.versionsOf policy.id, existing.version = policy.version) ↔
      policy.key ∈ (keptOf s.saved).map Policy.key := by
    rw [List.mem_map]
    refine exists_congr fun existing => ?_
    rw [h.mem_versionsOf, and_assoc, Policy.key, Policy.key, Prod.mk.injEq]
  refine ⟨h.target, fun a ha => ?_, ?_, fun id a => ?_, fun id => ?_⟩
  · rcases List.mem_append.mp ha with ha | ha
    · exact h.saved a ha
    · exact List.mem_singleton.mp ha ▸ hpolicy
  · have hkeys : s.prisma.rows.map (fun row => (row.id, row.version)) =
        (keptOf s.saved).map Policy.key := by
      rw [h.rows, List.map_map]
      rfl
    change (s.prisma.save policy).rows = (keptOf (s.saved ++ [policy])).map toRow
    rw [PrismaPolicyRepository.save, hkeys, keptOf_append, keep,
      show (policy.id, policy.version) = policy.key from rfl]
    by_cases hmem : policy.key ∈ (keptOf s.saved).map Policy.key
    · rw [if_pos hmem, if_pos hmem, h.rows]
    · rw [if_neg hmem, if_neg hmem, h.rows, List.map_append, List.map_singleton]
  · change a ∈ (s.memory.save policy).versionsOf id ↔ a ∈ keptOf (s.saved ++ [policy]) ∧ a.id = id
    rw [versionsOf_save, keptOf_append, keep]
    by_cases hid : policy.id = id
    · subst hid
      by_cases hmem : policy.key ∈ (keptOf s.saved).map Policy.key
      · rw [if_neg fun hnew => hnew.2 (hexists.mpr hmem), if_pos hmem, h.mem_versionsOf]
      · rw [if_pos ⟨rfl, hmem ∘ hexists.mp⟩, if_neg hmem, List.mem_insertionSort, List.mem_append,
          h.mem_versionsOf, List.mem_append, or_and_right]
        refine or_congr_right ⟨fun ha => ⟨ha, ?_⟩, And.left⟩
        rw [List.mem_singleton.mp ha]
    · rw [if_neg fun hnew => hid hnew.1, h.mem_versionsOf]
      split
      · rfl
      · rw [List.mem_append, or_and_right]
        refine ⟨Or.inl, fun ha => ha.resolve_right ?_⟩
        rintro ⟨ha, haid⟩
        exact hid (List.mem_singleton.mp ha ▸ haid)
  · change ((s.memory.save policy).versionsOf id).Pairwise _
    rw [versionsOf_save]
    split
    · have : Std.Total fun a b : Policy => a.version ≤ b.version := ⟨fun a b => le_total _ _⟩
      have : IsTrans Policy fun a b => a.version ≤ b.version := ⟨fun _ _ _ => le_trans⟩
      exact List.pairwise_insertionSort _ _
    · exact h.sorted id

/-- Every operation keeps the stores consistent. -/
theorem Consistent.step (h : s.Consistent) {operation : PolicyOperation}
    (hstep : s.step operation = some s') : s'.Consistent := by
  cases operation with
  | create id name target rules status dslSource now =>
    rw [PolicyStores.step] at hstep
    split at hstep
    · cases hstep
    · rename_i hfresh
      obtain rfl := Option.some.inj hstep
      refine h.addBuilt fun policy hpolicy other hother hid => ?_
      rw [Policy.create_ok hpolicy] at hid
      exact absurd (hid ▸ List.mem_map_of_mem hother) hfresh
  | publishNewVersion policy rules dslSource now =>
    obtain ⟨policy, hpolicy, rfl⟩ := Option.map_eq_some_iff.mp hstep
    refine h.addBuilt fun next hnext other hother hid => ?_
    obtain ⟨hid', htarget⟩ := Policy.publishNewVersion_ok hnext
    rw [htarget]
    exact h.target other hother policy (List.mem_of_getElem? hpolicy) (hid.trans hid')
  | save policy =>
    obtain ⟨policy, hpolicy, rfl⟩ := Option.map_eq_some_iff.mp hstep
    exact h.save (List.mem_of_getElem? hpolicy)

/-- And so does every run. -/
theorem consistent_of_run (hrun : Run step empty s) : s.Consistent :=
  hrun.invariant consistent_empty fun _ _ _ h _ hstep => h.step hstep

/-! ## What is found in memory -/

variable {resourceType action : String}

/-- The last version of a policy is its latest. -/
theorem Consistent.getLast?_versionsOf (h : s.Consistent) {id : String} {policy : Policy} :
    (s.memory.versionsOf id).getLast? = some policy ↔ Latest s.saved policy ∧ policy.id = id := by
  rw [latest_iff]
  constructor
  · intro hlast
    obtain ⟨hkept, rfl⟩ := (h.mem_versionsOf id policy).mp (List.mem_of_getLast? hlast)
    obtain ⟨earlier, hversions⟩ := List.getLast?_eq_some_iff.mp hlast
    refine ⟨⟨hkept, fun other hother hid => ?_⟩, rfl⟩
    have hmem := (h.mem_versionsOf _ other).mpr ⟨hother, hid⟩
    have hsorted := h.sorted policy.id
    rw [hversions] at hmem hsorted
    rcases List.mem_append.mp hmem with hearlier | hlast
    · exact (List.pairwise_append.mp hsorted).2.2 other hearlier policy (by simp)
    · exact le_of_eq (congrArg Policy.version (List.mem_singleton.mp hlast))
  · rintro ⟨⟨hkept, hgreatest⟩, rfl⟩
    have hmem := (h.mem_versionsOf _ policy).mpr ⟨hkept, rfl⟩
    cases hlast : (s.memory.versionsOf policy.id).getLast? with
    | none =>
      rw [List.getLast?_eq_none_iff.mp hlast] at hmem
      cases hmem
    | some last =>
      -- the last one is not less, so that it is the same version
      obtain ⟨hlast_kept, hid⟩ := (h.mem_versionsOf _ last).mp (List.mem_of_getLast? hlast)
      obtain ⟨earlier, hversions⟩ := List.getLast?_eq_some_iff.mp hlast
      have hle : policy.version ≤ last.version := by
        have hsorted := h.sorted policy.id
        rw [hversions] at hmem hsorted
        rcases List.mem_append.mp hmem with hearlier | hlast
        · exact (List.pairwise_append.mp hsorted).2.2 policy hearlier last (by simp)
        · exact le_of_eq (congrArg Policy.version (List.mem_singleton.mp hlast))
      have hversion := le_antisymm hle (hgreatest last hlast_kept hid)
      rw [eq_of_key_eq hlast_kept hkept (Prod.ext hid hversion.symm)]

/-- In memory exactly what applies is found. -/
theorem Consistent.mem_findApplicableTo (h : s.Consistent) {policy : Policy} :
    policy ∈ s.memory.findApplicableTo resourceType action ↔
      Applies s.saved resourceType action policy := by
  have hlast : policy ∈ s.memory.versionsById.values.filterMap List.getLast? ↔
      Latest s.saved policy := by
    rw [List.mem_filterMap]
    constructor
    · rintro ⟨versions, hversions, hlast⟩
      obtain ⟨id, hget⟩ := OrderedMap.mem_values_iff.mp hversions
      have hof : s.memory.versionsOf id = versions := by
        rw [InMemoryPolicyRepository.versionsOf, hget, Option.getD_some]
      exact (h.getLast?_versionsOf.mp (hof ▸ hlast)).1
    · intro hlatest
      have hlast := h.getLast?_versionsOf.mpr ⟨hlatest, rfl⟩
      rw [InMemoryPolicyRepository.versionsOf] at hlast
      cases hget : s.memory.versionsById.get? policy.id with
      | none =>
        rw [hget] at hlast
        cases hlast
      | some versions =>
        rw [hget, Option.getD_some] at hlast
        exact ⟨versions, OrderedMap.mem_values_iff.mpr ⟨_, hget⟩, hlast⟩
  rw [InMemoryPolicyRepository.findApplicableTo, List.mem_filter, hlast, Applies]
  simp

/-! ## What is found in the table -/

/-- The rows that match the target are those of the policies that do. -/
theorem Consistent.matching_eq (h : s.Consistent) :
    (s.prisma.rows.filter fun row =>
        decide (row.resourceType = resourceType) && row.actions.contains action) =
      ((keptOf s.saved).filter fun policy => policy.targets resourceType action).map toRow := by
  rw [h.rows, List.filter_map]
  rfl

/-- A version is the greatest that matches the target if and only if it is the latest and targets
the action: versions of one policy have one target. -/
theorem Consistent.key_mem_latestVersions (h : s.Consistent) {policy : Policy}
    (hkept : policy ∈ keptOf s.saved) :
    policy.key ∈ s.prisma.latestVersions resourceType action ↔
      Latest s.saved policy ∧ policy.targets resourceType action = true := by
  have hbuilt : ∀ other ∈ keptOf s.saved, other ∈ s.built := fun other hother => by
    obtain ⟨before, after, heq, -⟩ := mem_keptOf.mp hother
    exact h.saved other (by simp [heq])
  have htargets : ∀ other ∈ keptOf s.saved, other.id = policy.id →
      other.targets resourceType action = policy.targets resourceType action :=
    fun other hother hid => by
      rw [Policy.targets, Policy.targets,
        h.target other (hbuilt _ hother) policy (hbuilt _ hkept) hid]
  -- the versions among which the greatest is chosen
  have hversions : ∀ version, version ∈ ((((keptOf s.saved).filter fun policy =>
      policy.targets resourceType action).map toRow).filter fun row =>
        row.id = policy.id).map PolicyRow.version ↔
      ∃ other ∈ keptOf s.saved, other.targets resourceType action = true ∧
        other.id = policy.id ∧ other.version = version := by
    intro version
    rw [List.filter_map, List.map_map, List.mem_map]
    simp only [List.mem_filter, Function.comp_apply, decide_eq_true_eq]
    exact exists_congr fun other => by
      rw [and_assoc, and_assoc]
      rfl
  rw [PrismaPolicyRepository.latestVersions, latest_iff, h.matching_eq]
  simp only [List.mem_filterMap, List.mem_dedup, Option.map_eq_some_iff, List.max?_eq_some_iff]
  constructor
  · rintro ⟨id, -, version, ⟨hmem, hgreatest⟩, hkey⟩
    obtain ⟨rfl, rfl⟩ := Prod.ext_iff.mp hkey
    obtain ⟨other, hother, hmatches, hid, -⟩ := (hversions _).mp hmem
    have hmatches' := (htargets other hother hid) ▸ hmatches
    refine ⟨⟨hkept, fun other hother hid => hgreatest _ ((hversions _).mpr ?_)⟩, hmatches'⟩
    exact ⟨other, hother, (htargets other hother hid).trans hmatches', hid, rfl⟩
  · rintro ⟨⟨-, hgreatest⟩, hmatches⟩
    refine ⟨policy.id, ?_, policy.version, ⟨(hversions _).mpr ⟨policy, hkept, hmatches, rfl, rfl⟩,
      fun version hversion => ?_⟩, rfl⟩
    · rw [List.map_map, List.mem_map]
      exact ⟨policy, List.mem_filter.mpr ⟨hkept, hmatches⟩, rfl⟩
    · obtain ⟨other, hother, -, hid, rfl⟩ := (hversions _).mp hversion
      exact hgreatest other hother hid

/-- In the table the rows of exactly what applies are found, and read. -/
theorem Consistent.findApplicableTo_eq (h : s.Consistent) (resourceType action : String) :
    ∃ applicable : List Policy, (∀ policy, policy ∈ applicable ↔
        Applies s.saved resourceType action policy) ∧ (applicable.map Policy.id).Nodup ∧
      s.prisma.findApplicableTo resourceType action = (applicable.map toRow).mapM toDomain := by
  let latest := s.prisma.latestVersions resourceType action
  let chosen := (keptOf s.saved).filter fun policy =>
    decide (policy.key ∈ latest) && decide (policy.status = .published)
  have hmem : ∀ policy, policy ∈ chosen ↔ Applies s.saved resourceType action policy := by
    intro policy
    rw [List.mem_filter, Bool.and_eq_true, decide_eq_true_eq, decide_eq_true_eq]
    constructor
    · rintro ⟨hkept, hkey, hstatus⟩
      obtain ⟨hlatest, htargets⟩ := (h.key_mem_latestVersions hkept).mp hkey
      exact ⟨hlatest, hstatus, htargets⟩
    · rintro ⟨hlatest, hstatus, htargets⟩
      have hkept := (latest_iff.mp hlatest).1
      exact ⟨hkept, (h.key_mem_latestVersions hkept).mpr ⟨hlatest, htargets⟩, hstatus⟩
  have hfound : (s.prisma.rows.filter fun row =>
      decide ((row.id, row.version) ∈ latest) && decide (row.status = .published)) =
        chosen.map toRow := by
    rw [h.rows, List.filter_map]
    rfl
  refine ⟨chosen.insertionSort fun a b => a.id ≤ b.id, fun policy => ?_, ?_, ?_⟩
  · rw [List.mem_insertionSort, hmem]
  · refine ((List.perm_insertionSort _ chosen).map Policy.id).nodup_iff.mpr ?_
    refine List.Nodup.map_on (fun a ha b hb hid => ?_)
      ((nodup_keptOf s.saved).of_map _ |>.filter _)
    obtain ⟨hkept_a, hgreatest_a⟩ := latest_iff.mp ((hmem a).mp ha).1
    obtain ⟨hkept_b, hgreatest_b⟩ := latest_iff.mp ((hmem b).mp hb).1
    refine eq_of_key_eq hkept_a hkept_b (Prod.ext hid ?_)
    exact le_antisymm (hgreatest_b a hkept_a hid) (hgreatest_a b hkept_b hid.symm)
  · rw [List.map_insertionSort (fun a b : Policy => a.id ≤ b.id)
      (fun a b : PolicyRow => a.id ≤ b.id) toRow chosen fun _ _ _ _ => Iff.rfl, ← hfound]
    unfold PrismaPolicyRepository.findApplicableTo
    simp only
    split
    · rename_i hnone
      have hempty : (s.prisma.rows.filter fun row =>
          decide ((row.id, row.version) ∈ latest) && decide (row.status = .published)) = [] := by
        rw [List.filter_eq_nil_iff]
        intro row _
        simp [latest, hnone]
      rw [hempty]
      rfl
    · rfl

/-- Rows are read one after another. -/
theorem mapM_toDomain_toRow (policies : List Policy) :
    ((∀ policy ∈ policies, policy.isSerializable = true) →
      (policies.map toRow).mapM toDomain = .ok (policies.map Policy.asData)) ∧
    ((∃ policy ∈ policies, policy.isSerializable = false) →
      ∃ error, (policies.map toRow).mapM toDomain = .error error) := by
  induction policies with
  | nil => exact ⟨fun _ => rfl, fun h => by simp at h⟩
  | cons policy policies ih =>
    rw [List.map_cons, List.mapM_cons]
    constructor
    · intro h
      rw [toDomain_toRow (h policy List.mem_cons_self),
        ih.1 fun other hother => h other (List.mem_cons_of_mem _ hother)]
      rfl
    · rintro ⟨other, hother, hunreadable⟩
      cases hpolicy : policy.isSerializable with
      | false =>
        obtain ⟨error, herror⟩ := toDomain_toRow_error hpolicy
        rw [herror]
        exact ⟨error, rfl⟩
      | true =>
        have hrest : other ∈ policies := by
          rcases List.mem_cons.mp hother with rfl | hrest
          · simp [hpolicy] at hunreadable
          · exact hrest
        obtain ⟨error, herror⟩ := ih.2 ⟨other, hrest, hunreadable⟩
        rw [toDomain_toRow hpolicy, herror]
        exact ⟨error, rfl⟩

/-! ## Runs -/

/-- In memory exactly what applies is found, and in the table the same, as data. -/
structure LatestApplies (s : PolicyStores) (resourceType action : String) : Prop where
  memory : ∀ policy, policy ∈ s.memory.findApplicableTo resourceType action ↔
    Applies s.saved resourceType action policy
  prisma : ∃ found, s.prisma.findApplicableTo resourceType action = .ok found ∧
    (found.map Policy.id).Nodup ∧
    ∀ policy, policy ∈ found ↔
      policy ∈ (s.memory.findApplicableTo resourceType action).map Policy.asData

/-- A rule that permits what a number of the resource is less than. -/
def sampleLimit (limit : Number) : Policy.Rule where
  effect := .permit
  condition := .comparison ⟨"resource.size", .lt, .number limit⟩

/-- The id of the sample policy. -/
def samplePolicyId : String := "7d0c3f0a-52a0-4a52-9a6e-0d5bb1f0c001"

/-- A policy for reading documents is created with a limit. -/
def samplePolicy (limit : Number) : PolicyOperation :=
  .create samplePolicyId "small documents" ⟨"document", ["read"]⟩ [sampleLimit limit] none none
    1767225600000

/-- A policy without a limit is saved. -/
def sampleUnreadable : PolicyStores :=
  (exec step empty [samplePolicy .infinity, .save 0]).get (by decide +kernel)

/-- Infinity has no text in JSON: in the table the policy cannot be read. -/
theorem saved_policy_unreadable :
    ∃ s, Run step empty s ∧ ¬LatestApplies s "document" "read" := by
  refine ⟨sampleUnreadable, runWhile_get _, fun h => ?_⟩
  obtain ⟨found, hfound, -⟩ := h.prisma
  have hthrows : (sampleUnreadable.prisma.findApplicableTo "document" "read").isOk = false := by
    decide +kernel
  rw [hfound] at hthrows
  cases hthrows

/-- After every sequence of operations both repositories return, for each policy, exactly its latest
version if that is published and targets the action, if and only if all these versions have
literals with a text in JSON. -/
theorem latest_applies_iff (hrun : Run step empty s) (resourceType action : String) :
    LatestApplies s resourceType action ↔
      ∀ policy, Applies s.saved resourceType action policy → policy.isSerializable = true := by
  have hconsistent := consistent_of_run hrun
  obtain ⟨applicable, hmem, hnodup, heq⟩ := hconsistent.findApplicableTo_eq resourceType action
  obtain ⟨hok, herror⟩ := mapM_toDomain_toRow applicable
  constructor
  · rintro ⟨-, found, hfound, -⟩ policy hpolicy
    by_contra hunreadable
    obtain ⟨error, hthrows⟩ :=
      herror ⟨policy, (hmem policy).mpr hpolicy, by simpa using hunreadable⟩
    rw [heq, hthrows] at hfound
    cases hfound
  · intro h
    refine ⟨fun policy => hconsistent.mem_findApplicableTo, applicable.map Policy.asData, ?_, ?_,
      fun policy => ?_⟩
    · rw [heq, hok fun policy hpolicy => h policy ((hmem policy).mp hpolicy)]
    · rw [List.map_map]
      exact hnodup
    · rw [List.mem_map, List.mem_map]
      exact exists_congr fun other => by rw [hmem, hconsistent.mem_findApplicableTo]

/-- A policy is published twice, and its versions are saved in the other order. -/
def sampleRepublished : PolicyStores :=
  (exec step empty
    [samplePolicy (.finite 100),
      .publishNewVersion 0 [sampleLimit (.finite 200)] none 1767225700000, .save 1,
      .save 0]).get (by decide +kernel)

/-- The second version applies. -/
theorem latest_applies_iff_sample :
    LatestApplies sampleRepublished "document" "read" ∧
      (sampleRepublished.memory.findApplicableTo "document" "read").map Policy.key =
        [(samplePolicyId, 2)] := by
  refine ⟨(latest_applies_iff (runWhile_get _) "document" "read").mpr fun policy hpolicy => ?_,
    by decide +kernel⟩
  obtain ⟨before, after, heq, -⟩ := hpolicy.1.1
  have hreadable : ∀ policy ∈ sampleRepublished.saved, policy.isSerializable = true := by
    decide +kernel
  exact hreadable policy (heq ▸ List.mem_append_right _ List.mem_cons_self)

end PolicyStores

end Verixa.Authorization
