import Verixa.Authorization.RequirePermission

/-!
# Agreement of the permission evaluators

Four functions answer whether some grants cover a required permission: the role entity, the role
record, the matcher over the texts of the grants, as the guards use it, and the checker, for a user
who holds just that role.  The matcher and the checker always answer as `Permission.matches`.  The
role entity leaves the wildcards `*:*` and `*:action` out, the role record the latter, so that all
four agree exactly on the grants that do not rely on those (`evaluators_agree_iff`).
-/

namespace Verixa.Authorization

open Encoding

/-! ## The answers of the four -/

/-- Some grant covers the required permission. -/
def SomeGrantMatches (grants : List Permission) (required : Permission) : Prop :=
  ∃ granted ∈ grants, granted.matches required = true

instance (grants : List Permission) (required : Permission) :
    Decidable (SomeGrantMatches grants required) :=
  inferInstanceAs (Decidable (∃ granted ∈ grants, granted.matches required = true))

/-- The user holds the role by an assignment that counts, and by no counting assignment another. -/
def HoldsExactly (s : AuthorizationStore) (userId : String) (orgId : Option String) (now : ℤ)
    (role : Role) : Prop :=
  s.findRoleById role.id = some role ∧
    (∃ a ∈ s.assignmentsById.values, AppliesTo a userId orgId now ∧ a.roleId = role.id) ∧
    ∀ a ∈ s.assignmentsById.values, AppliesTo a userId orgId now → a.roleId = role.id

/-- The role entity knows the permission itself and the wildcard of its resource. -/
theorem role_hasPermission_iff {casing : LowerCasing} {role : Role} {required : Permission} :
    role.hasPermission casing (.permission required) = .ok true ↔
      role.permissions.Grants required ∨ role.permissions.Grants required.resourceWildcard := by
  have hanswer : role.hasPermission casing (.permission required) =
      .ok (role.permissions.has required.value ||
        role.permissions.has required.resourceWildcard.value) := by
    rw [Permission.value_resourceWildcard]
    simp only [Role.hasPermission, Role.required, PermissionArg.create]
    split <;> simp_all
  rw [hanswer, Except.ok.injEq, Bool.or_eq_true, PermissionSet.has_value, PermissionSet.has_value]

/-- The role record knows `*:*` besides. -/
theorem record_hasPermission_iff {record : RoleRecord} {grants : List Permission}
    (h : ∀ v, v ∈ record.permissions ↔ ∃ p ∈ grants, p.value = v) {required : Permission} :
    record.hasPermission required.value = true ↔
      required ∈ grants ∨ required.resourceWildcard ∈ grants ∨
        Permission.globalWildcard ∈ grants := by
  have hmem : ∀ p : Permission, p.value ∈ record.permissions ↔ p ∈ grants := fun p => by
    rw [h]
    simp [Permission.value_injective.eq_iff]
  simp only [RoleRecord.hasPermission, Permission.splitOn_value, List.headD_cons,
    String.ofList_toList, ← Permission.value_resourceWildcard, ← Permission.value_globalWildcard,
    hmem, Bool.or_eq_true, decide_eq_true_eq]
  tauto

/-- The matcher over the texts of the grants answers as the permissions do. -/
theorem matcher_iff {casing : LowerCasing} {values : List String} {grants : List Permission}
    (h : ∀ v, v ∈ values ↔ ∃ p ∈ grants, p.value = v) {required : Permission} :
    checkCachedPermission casing values (.permission required) = true ↔
      SomeGrantMatches grants required := by
  have hmatch : ∀ g : Permission, PermissionMatcher.matches casing (.string g.value)
      (.permission required) = g.matches required := fun g =>
    PermissionMatcher.matches_of_create (Permission.create_value casing g) rfl
  rw [checkCachedPermission, List.any_eq_true]
  constructor
  · rintro ⟨v, hv, hmatches⟩
    obtain ⟨g, hg, rfl⟩ := (h v).mp hv
    exact ⟨g, hg, hmatch g ▸ hmatches⟩
  · rintro ⟨g, hg, hmatches⟩
    exact ⟨g.value, (h _).mpr ⟨g, hg, rfl⟩, (hmatch g).trans hmatches⟩

/-- So does the checker. -/
theorem checker_iff {casing : LowerCasing} {s : AuthorizationStore} {userId : String}
    {orgId : Option String} {now : ℤ} {role : Role} (hholds : HoldsExactly s userId orgId now role)
    {grants : List Permission} (h : ∀ p, role.permissions.Grants p ↔ p ∈ grants)
    {required : Permission} :
    PermissionChecker.hasPermission casing s userId orgId (.permission required) now = .ok true ↔
      SomeGrantMatches grants required := by
  obtain ⟨hrole, ⟨a, ha, happlies, hroleId⟩, honly⟩ := hholds
  have hgranted : ∀ g, s.Granted userId orgId now g ↔ g ∈ grants := by
    intro g
    rw [← h]
    constructor
    · rintro ⟨b, hb, hbapplies, other, hother, hg⟩
      rw [honly b hb hbapplies, hrole] at hother
      exact Option.some.inj hother ▸ hg
    · exact fun hg => ⟨a, ha, happlies, role, hroleId ▸ hrole, hg⟩
  obtain ⟨answer, hanswer, hiff⟩ := PermissionChecker.hasPermission_ok
    (PermissionArg.create_permission casing required) s userId orgId now
  rw [hanswer, Except.ok.injEq, hiff]
  simp only [hgranted, SomeGrantMatches]

/-! ## When they agree -/

/-- All four answer whether some grant matches. -/
def EvaluatorsAgree (casing : LowerCasing) (grants : List Permission) (role : Role)
    (record : RoleRecord) (s : AuthorizationStore) (userId : String) (orgId : Option String)
    (now : ℤ) (required : Permission) : Prop :=
  role.hasPermission casing (.permission required) =
      .ok (decide (SomeGrantMatches grants required)) ∧
    record.hasPermission required.value = decide (SomeGrantMatches grants required) ∧
    checkCachedPermission casing role.permissions.values (.permission required) =
      decide (SomeGrantMatches grants required) ∧
    PermissionChecker.hasPermission casing s userId orgId (.permission required) now =
      .ok (decide (SomeGrantMatches grants required))

/-- The grants do not rely on `*:*` or `*:action` for the required permission: where they have one
of these, they have the permission itself or the wildcard of its resource as well. -/
def ReachedWithinResource (grants : List Permission) (required : Permission) : Prop :=
  Permission.globalWildcard ∈ grants ∨ required.actionWildcard ∈ grants →
    required ∈ grants ∨ required.resourceWildcard ∈ grants

/-- An answer that never fails is determined by when it is yes. -/
theorem eq_ok_decide_iff {ε : Type*} {answer : Except ε Bool} {p : Prop} [Decidable p]
    (h : ∃ b, answer = .ok b) : answer = .ok (decide p) ↔ (answer = .ok true ↔ p) := by
  obtain ⟨b, rfl⟩ := h
  by_cases hp : p <;> cases b <;> simp [hp]

/-- For any grants, held by a role, a record of it and a user of it, and any required permission,
the four evaluators agree exactly when the grants do not rely on a wildcard resource. -/
theorem evaluators_agree_iff (casing : LowerCasing) (grants : List Permission) (role : Role)
    (hrole : ∀ p, role.permissions.Grants p ↔ p ∈ grants) (record : RoleRecord)
    (hrecord : ∀ v, v ∈ record.permissions ↔ v ∈ role.permissions.values)
    (s : AuthorizationStore) (userId : String) (orgId : Option String) (now : ℤ)
    (hholds : HoldsExactly s userId orgId now role) (required : Permission) :
    EvaluatorsAgree casing grants role record s userId orgId now required ↔
      ReachedWithinResource grants required := by
  have hvalues : ∀ v, v ∈ role.permissions.values ↔ ∃ p ∈ grants, p.value = v := by
    intro v
    constructor
    · intro hv
      obtain ⟨p, rfl⟩ := role.permissions.canonical v hv
      exact ⟨p, (hrole p).mp hv, rfl⟩
    · rintro ⟨p, hp, rfl⟩
      exact (hrole p).mpr hp
  have hmatches : SomeGrantMatches grants required ↔ required ∈ grants ∨
      required.resourceWildcard ∈ grants ∨ required.actionWildcard ∈ grants ∨
        Permission.globalWildcard ∈ grants := by
    simp only [SomeGrantMatches, Permission.matches_iff_eq, and_or_left, exists_or,
      exists_eq_right]
  have hrole_answers : ∃ b, role.hasPermission casing (.permission required) = .ok b := by
    simp only [Role.hasPermission, Role.required, PermissionArg.create]
    split <;> exact ⟨_, rfl⟩
  have hchecker_answers : ∃ b,
      PermissionChecker.hasPermission casing s userId orgId (.permission required) now = .ok b :=
    (PermissionChecker.hasPermission_ok (PermissionArg.create_permission casing required) s userId
      orgId now).imp fun _ => And.left
  have hrecord_iff : record.hasPermission required.value = true ↔ _ :=
    record_hasPermission_iff fun v => (hrecord v).trans (hvalues v)
  have hdecide : ∀ b : Bool, b = decide (SomeGrantMatches grants required) ↔
      (b = true ↔ SomeGrantMatches grants required) := fun b => by
    rw [Bool.eq_iff_iff, decide_eq_true_iff]
  unfold EvaluatorsAgree
  rw [eq_ok_decide_iff hrole_answers, eq_ok_decide_iff hchecker_answers, role_hasPermission_iff,
    hrole, hrole, hdecide, hdecide, hrecord_iff, matcher_iff hvalues, checker_iff hholds hrole,
    hmatches, ReachedWithinResource]
  constructor
  · rintro ⟨hagree, -⟩ (hglobal | haction)
    · exact hagree.mpr (Or.inr (Or.inr (Or.inr hglobal)))
    · exact hagree.mpr (Or.inr (Or.inr (Or.inl haction)))
  · intro hreached
    clear * - hreached
    refine ⟨⟨?_, ?_⟩, ⟨?_, ?_⟩, Iff.rfl, Iff.rfl⟩ <;> tauto

/-- The record of a role. -/
def recordOf (role : Role) : RoleRecord where
  id := role.id
  name := role.name
  description := role.description.getD ""
  isSystemRole := role.isSystemRole
  permissions := role.permissions.values

theorem holdsExactly_holderStore (role : Role) (userId : String) (now : ℤ) :
    HoldsExactly (holderStore role userId none none) userId none now role := by
  refine ⟨KeyedMap.get?_put_self _ _, ⟨_, List.mem_singleton_self _, ⟨rfl, Or.inl rfl, rfl⟩, rfl⟩,
    fun a ha _ => ?_⟩
  obtain rfl := List.mem_singleton.mp ha
  rfl

/-- A reader of users is found to be one by all four. -/
theorem evaluators_agree_on_reader :
    EvaluatorsAgree asciiLowerCasing [usersRead] (roleGranting usersRead)
      (recordOf (roleGranting usersRead)) (readerStore "alice" none none) "alice" none 0
      usersRead :=
  (evaluators_agree_iff asciiLowerCasing [usersRead] (roleGranting usersRead)
    (fun _ => PermissionSet.grants_ofPermissions) (recordOf (roleGranting usersRead))
    (fun _ => Iff.rfl) (readerStore "alice" none none) "alice" none 0
    (holdsExactly_holderStore (roleGranting usersRead) "alice" 0) usersRead).mpr
    fun _ => Or.inl (List.mem_singleton_self _)

/-- A holder of `*:*` may read users by the matcher and the checker, but not by the role. -/
theorem evaluators_disagree_on_global_wildcard :
    HoldsExactly (holderStore (roleGranting Permission.globalWildcard) "root" none none) "root" none
        0 (roleGranting Permission.globalWildcard) ∧
      ¬ EvaluatorsAgree asciiLowerCasing [Permission.globalWildcard]
        (roleGranting Permission.globalWildcard)
        (recordOf (roleGranting Permission.globalWildcard))
        (holderStore (roleGranting Permission.globalWildcard) "root" none none) "root" none 0
        usersRead := by
  refine ⟨holdsExactly_holderStore _ "root" 0, fun hagree => ?_⟩
  have hrole : (roleGranting Permission.globalWildcard).hasPermission asciiLowerCasing
      (.permission usersRead) = .ok false := by decide +kernel
  have hmatches : SomeGrantMatches [Permission.globalWildcard] usersRead := by decide +kernel
  rw [EvaluatorsAgree, hrole, decide_eq_true hmatches] at hagree
  exact Bool.noConfusion (Except.ok.inj hagree.1)

end Verixa.Authorization
