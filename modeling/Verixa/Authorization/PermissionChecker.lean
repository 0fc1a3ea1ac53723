import Verixa.Authorization.Role

/-!
# The permission checker

The stores of roles and role assignments, the changes made to them, and the checker that resolves
the effective permissions of a user: the union of what the user's unexpired assignments in the
organization at hand, and in all organizations, grant.

`hasPermission_eq` says what the checker decides in terms of the stores alone, and
`hasPermission_exact` says it of every store that a sequence of changes leads to.
-/

namespace Verixa.Authorization

open Encoding

/-! ## The stores -/

/-- The role repository and the repository of role assignments. -/
structure AuthorizationStore where
  rolesById : KeyedMap Role.id
  assignmentsById : KeyedMap UserRoleAssignment.id

namespace AuthorizationStore

/-- Nothing is stored. -/
def empty : AuthorizationStore := ⟨KeyedMap.empty, KeyedMap.empty⟩

/-- `roleRepository.findById(id)`. -/
def findRoleById (s : AuthorizationStore) (id : String) : Option Role := s.rolesById.get? id

/-- The assignments of a user in one scope: an organization, or all of them for `none`. -/
def findByUserAndOrg (s : AuthorizationStore) (userId : String) (orgId : Option String)
    (includeExpired : Bool) (now : ℤ) : List UserRoleAssignment :=
  s.assignmentsById.values.filter fun assignment =>
    if assignment.userId ≠ userId ∨ assignment.orgId ≠ orgId then false
    else if !includeExpired && assignment.isExpired now then false
    else true

theorem mem_findByUserAndOrg {s : AuthorizationStore} {userId : String} {orgId : Option String}
    {now : ℤ} {a : UserRoleAssignment} :
    a ∈ s.findByUserAndOrg userId orgId false now ↔
      a ∈ s.assignmentsById.values ∧ a.userId = userId ∧ a.orgId = orgId ∧
        a.isExpired now = false := by
  rw [findByUserAndOrg, List.mem_filter]
  refine and_congr_right fun _ => ?_
  split_ifs with hother hexpired
  · simp only [false_iff]
    tauto
  · simp only [Bool.not_false, Bool.true_and] at hexpired
    simp [hexpired]
  · simp only [Bool.not_false, Bool.true_and, Bool.not_eq_true] at hexpired
    simp only [hexpired, and_true, true_iff]
    tauto

end AuthorizationStore

/-- A change made to the stores.  The repository hands out the stored role itself, so that a grant
on a role that was found is a change of the store. -/
inductive Change where
  | saveRole (role : Role)
  | deleteRole (id : String)
  | saveAssignment (assignment : UserRoleAssignment)
  | revokeAssignment (id : String)
  | grantPermission (roleId : String) (permission : PermissionArg) (now : ℤ)
  | revokePermission (roleId : String) (permission : PermissionArg) (now : ℤ)

/-- The stores after a change.  A change that is refused leaves them as they are. -/
def AuthorizationStore.apply (casing : LowerCasing) (s : AuthorizationStore) :
    Change → AuthorizationStore
  | .saveRole role => { s with rolesById := s.rolesById.put role }
  | .deleteRole id =>
    match s.findRoleById id with
    | none => s
    | some role => if role.isSystemRole then s else { s with rolesById := s.rolesById.erase id }
  | .saveAssignment assignment =>
    { s with assignmentsById := s.assignmentsById.put assignment }
  | .revokeAssignment id => { s with assignmentsById := s.assignmentsById.erase id }
  | .grantPermission roleId permission now =>
    match s.findRoleById roleId with
    | none => s
    | some role =>
      match role.grant casing permission now with
      | .error _ => s
      | .ok granted => { s with rolesById := s.rolesById.put granted }
  | .revokePermission roleId permission now =>
    match s.findRoleById roleId with
    | none => s
    | some role =>
      match role.revoke casing permission now with
      | .error _ => s
      | .ok revoked => { s with rolesById := s.rolesById.put revoked }

/-- The stores after a sequence of changes. -/
def storeAfter (casing : LowerCasing) (changes : List Change) : AuthorizationStore :=
  changes.foldl (AuthorizationStore.apply casing) AuthorizationStore.empty

/-! ## The checker -/

namespace PermissionChecker

/-- The texts of a role, read as permissions. -/
def permissionsOf (casing : LowerCasing) (role : Option Role) :
    Except ValidationError (List Permission) :=
  match role with
  | none => .ok []
  | some role => role.permissions.values.mapM (Permission.create casing)

/-- All that the active assignments of a user grant. -/
def resolveEffectivePermissions (casing : LowerCasing) (s : AuthorizationStore) (userId : String)
    (orgId : Option String) (now : ℤ) : Except ValidationError (List Permission) := do
  let scopedAssignments :=
    if orgId.isSome then s.findByUserAndOrg userId orgId false now else []
  let globalAssignments := s.findByUserAndOrg userId none false now
  let activeAssignments := scopedAssignments ++ globalAssignments
  let uniqueRoleIds := (activeAssignments.map (·.roleId)).eraseDups
  let granted ← uniqueRoleIds.mapM fun roleId => permissionsOf casing (s.findRoleById roleId)
  return granted.flatten

/-- Whether some of the granted permissions covers the required one. -/
def anyMatches (granted : List Permission) (required : Permission) : Bool :=
  granted.any fun g => g.matches required

/-- Whether a user has a permission. -/
def hasPermission (casing : LowerCasing) (s : AuthorizationStore) (userId : String)
    (orgId : Option String) (permission : PermissionArg) (now : ℤ) :
    Except ValidationError Bool := do
  let required ← permission.create casing
  let effectivePermissions ← resolveEffectivePermissions casing s userId orgId now
  return anyMatches effectivePermissions required

/-- Whether a user has at least one of some permissions. -/
def hasAnyPermission (casing : LowerCasing) (s : AuthorizationStore) (userId : String)
    (orgId : Option String) (permissions : List PermissionArg) (now : ℤ) :
    Except ValidationError Bool := do
  let requiredList ← permissions.mapM (PermissionArg.create casing)
  if requiredList.isEmpty then return false
  let effectivePermissions ← resolveEffectivePermissions casing s userId orgId now
  return requiredList.any fun required => anyMatches effectivePermissions required

/-- Whether a user has all of some permissions. -/
def hasAllPermissions (casing : LowerCasing) (s : AuthorizationStore) (userId : String)
    (orgId : Option String) (permissions : List PermissionArg) (now : ℤ) :
    Except ValidationError Bool := do
  let requiredList ← permissions.mapM (PermissionArg.create casing)
  if requiredList.isEmpty then return true
  let effectivePermissions ← resolveEffectivePermissions casing s userId orgId now
  return requiredList.all fun required => anyMatches effectivePermissions required

end PermissionChecker

/-! ## What the checker decides -/

/-- An assignment that counts for a user in an organization: the user's own, scoped to that
organization or to none, and not expired. -/
def AppliesTo (a : UserRoleAssignment) (userId : String) (orgId : Option String) (now : ℤ) : Prop :=
  a.userId = userId ∧ (a.orgId = orgId ∨ a.orgId = none) ∧ a.isExpired now = false

/-- The user is granted a permission by a stored role that a stored assignment gives. -/
def AuthorizationStore.Granted (s : AuthorizationStore) (userId : String) (orgId : Option String)
    (now : ℤ) (granted : Permission) : Prop :=
  ∃ a ∈ s.assignmentsById.values, AppliesTo a userId orgId now ∧
    ∃ role, s.findRoleById a.roleId = some role ∧ role.permissions.Grants granted

namespace PermissionChecker

/-- The texts of permissions are read back one by one. -/
theorem mapM_create_value (casing : LowerCasing) (permissions : List Permission) :
    (permissions.map Permission.value).mapM (Permission.create casing) = .ok permissions := by
  induction permissions with
  | nil => rfl
  | cons p permissions ih => simp [List.mapM_cons, ih, bind, Except.bind, pure, Except.pure]

/-- The texts of a permission set are those of a list of permissions. -/
theorem exists_permissions (set : PermissionSet) :
    ∃ permissions : List Permission, permissions.map Permission.value = set.values := by
  obtain ⟨permissions, h⟩ := (Set.ext_iff.mp (Set.range_list_map Permission.value) set.values).mpr
    set.canonical
  exact ⟨permissions, h⟩

/-- A role's texts never fail to be read. -/
theorem permissionsOf_ok (casing : LowerCasing) (role : Option Role) :
    ∃ permissions, permissionsOf casing role = .ok permissions ∧
      ∀ p, p ∈ permissions ↔ ∃ r, role = some r ∧ r.permissions.Grants p := by
  cases role with
  | none => exact ⟨[], rfl, by simp⟩
  | some role =>
    obtain ⟨permissions, h⟩ := exists_permissions role.permissions
    refine ⟨permissions, ?_, fun p => ?_⟩
    · rw [permissionsOf, ← h, mapM_create_value]
    · simp [PermissionSet.Grants, ← h, Permission.value_injective.eq_iff]

/-- A list of computations that all succeed. -/
theorem mapM_ok {α β ε : Type*} {f : α → Except ε (List β)} {r : α → β → Prop}
    (hf : ∀ a, ∃ l, f a = .ok l ∧ ∀ b, b ∈ l ↔ r a b) (as : List α) :
    ∃ ls, as.mapM f = .ok ls ∧ ∀ b, b ∈ ls.flatten ↔ ∃ a ∈ as, r a b := by
  induction as with
  | nil => exact ⟨[], rfl, by simp⟩
  | cons a as ih =>
    obtain ⟨l, hl, hmem⟩ := hf a
    obtain ⟨ls, hls, hmems⟩ := ih
    refine ⟨l :: ls, ?_, fun b => ?_⟩
    · simp [List.mapM_cons, hl, hls, bind, Except.bind, pure, Except.pure]
    · simp [hmem, hmems]

/-- The effective permissions are those that are granted. -/
theorem resolveEffectivePermissions_ok (casing : LowerCasing) (s : AuthorizationStore)
    (userId : String) (orgId : Option String) (now : ℤ) :
    ∃ permissions, resolveEffectivePermissions casing s userId orgId now = .ok permissions ∧
      ∀ p, p ∈ permissions ↔ s.Granted userId orgId now p := by
  obtain ⟨ls, hls, hmem⟩ := mapM_ok
    (fun roleId => permissionsOf_ok casing (s.findRoleById roleId))
    (((if orgId.isSome then s.findByUserAndOrg userId orgId false now else []) ++
      s.findByUserAndOrg userId none false now).map (·.roleId)).eraseDups
  refine ⟨ls.flatten, ?_, fun p => ?_⟩
  · simp only [resolveEffectivePermissions, hls]
    rfl
  · rw [hmem]
    have hactive : ∀ a, a ∈ (if orgId.isSome then s.findByUserAndOrg userId orgId false now
        else []) ++ s.findByUserAndOrg userId none false now ↔
        a ∈ s.assignmentsById.values ∧ AppliesTo a userId orgId now := by
      intro a
      rw [List.mem_append, AuthorizationStore.mem_findByUserAndOrg, AppliesTo]
      cases orgId with
      | none => simp
      | some o =>
        simp only [Option.isSome_some, if_true, AuthorizationStore.mem_findByUserAndOrg]
        tauto
    constructor
    · rintro ⟨roleId, hid, hgrant⟩
      obtain ⟨a, ha, rfl⟩ := List.mem_map.mp (List.mem_eraseDups.mp hid)
      exact ⟨a, ((hactive a).mp ha).1, ((hactive a).mp ha).2, hgrant⟩
    · rintro ⟨a, ha, happlies, hgrant⟩
      exact ⟨a.roleId,
        List.mem_eraseDups.mpr (List.mem_map_of_mem ((hactive a).mpr ⟨ha, happlies⟩)), hgrant⟩

theorem anyMatches_iff {granted : List Permission} {required : Permission} :
    anyMatches granted required = true ↔ ∃ g ∈ granted, g.matches required = true :=
  List.any_eq_true

/-- The checker finds a permission exactly when something granted covers it. -/
theorem hasPermission_ok {casing : LowerCasing} {permission : PermissionArg} {required : Permission}
    (hrequired : permission.create casing = .ok required) (s : AuthorizationStore)
    (userId : String) (orgId : Option String) (now : ℤ) :
    ∃ answer, hasPermission casing s userId orgId permission now = .ok answer ∧
      (answer = true ↔ ∃ g, s.Granted userId orgId now g ∧ g.matches required = true) := by
  obtain ⟨effective, heffective, hmem⟩ :=
    resolveEffectivePermissions_ok casing s userId orgId now
  refine ⟨anyMatches effective required, ?_, ?_⟩
  · simp only [hasPermission, hrequired, heffective]
    rfl
  · simp [anyMatches_iff, hmem]

/-- Two stores that grant the same to a user give the same answers. -/
theorem hasPermission_congr {s s' : AuthorizationStore} {userId : String} {orgId : Option String}
    {now : ℤ} (h : ∀ g, s.Granted userId orgId now g ↔ s'.Granted userId orgId now g)
    (casing : LowerCasing) (required : Permission) :
    hasPermission casing s userId orgId (.permission required) now =
      hasPermission casing s' userId orgId (.permission required) now := by
  have hread := PermissionArg.create_permission casing required
  obtain ⟨b, hb, hiff⟩ := hasPermission_ok hread s userId orgId now
  obtain ⟨b', hb', hiff'⟩ := hasPermission_ok hread s' userId orgId now
  rw [hb, hb']
  congr 1
  rw [Bool.eq_iff_iff, hiff, hiff']
  simp only [h]

end PermissionChecker

/-! ## Exactness and isolation of tenants -/

/-- Two stores with the same roles and the same assignments, those scoped to organizations other
than the given one aside. -/
def SameInScope (orgId : Option String) (s s' : AuthorizationStore) : Prop :=
  s'.rolesById = s.rolesById ∧
    ∀ a : UserRoleAssignment, a.orgId = orgId ∨ a.orgId = none →
      (a ∈ s'.assignmentsById.values ↔ a ∈ s.assignmentsById.values)

/-- What is granted in an organization does not depend on the assignments of the others. -/
theorem SameInScope.granted_iff {orgId : Option String} {s s' : AuthorizationStore}
    (h : SameInScope orgId s s') (userId : String) (now : ℤ) (g : Permission) :
    s.Granted userId orgId now g ↔ s'.Granted userId orgId now g := by
  have hrole : ∀ id, s'.findRoleById id = s.findRoleById id := fun id => by
    rw [AuthorizationStore.findRoleById, AuthorizationStore.findRoleById, h.1]
  simp only [AuthorizationStore.Granted, hrole]
  refine exists_congr fun a => ?_
  constructor
  · rintro ⟨ha, happlies, hgrant⟩
    exact ⟨(h.2 a happlies.2.1).mpr ha, happlies, hgrant⟩
  · rintro ⟨ha, happlies, hgrant⟩
    exact ⟨(h.2 a happlies.2.1).mp ha, happlies, hgrant⟩

/-- After any sequence of changes the checker finds a permission exactly when an unexpired
assignment of the user, scoped to the organization or to none, gives a role that exists and has a
grant covering it; otherwise it answers no.  Assignments scoped to other organizations never
matter. -/
theorem hasPermission_exact (casing : LowerCasing) (changes : List Change) (userId : String)
    (orgId : Option String) (required : Permission) (now : ℤ) :
    let s := storeAfter casing changes
    let answer := PermissionChecker.hasPermission casing s userId orgId (.permission required) now
    (answer = .ok true ↔
      ∃ a ∈ s.assignmentsById.values, a.userId = userId ∧ (a.orgId = orgId ∨ a.orgId = none) ∧
        a.isExpired now = false ∧ ∃ role, s.findRoleById a.roleId = some role ∧
          ∃ granted, role.permissions.Grants granted ∧ granted.matches required = true) ∧
      (answer = .ok true ∨ answer = .ok false) ∧
      ∀ s', SameInScope orgId s s' →
        PermissionChecker.hasPermission casing s' userId orgId (.permission required) now =
          answer := by
  intro s answer
  obtain ⟨b, hb, hiff⟩ := PermissionChecker.hasPermission_ok
    (PermissionArg.create_permission casing required) s userId orgId now
  refine ⟨?_, ?_, fun s' hsame => ?_⟩
  · have hanswer : answer = .ok true ↔ b = true := by
      change PermissionChecker.hasPermission casing s userId orgId _ now = _ ↔ _
      rw [hb, Except.ok.injEq]
    rw [hanswer, hiff]
    constructor
    · rintro ⟨g, ⟨a, ha, ⟨huser, hscope, hexpired⟩, role, hrole, hg⟩, hmatch⟩
      exact ⟨a, ha, huser, hscope, hexpired, role, hrole, g, hg, hmatch⟩
    · rintro ⟨a, ha, huser, hscope, hexpired, role, hrole, g, hg, hmatch⟩
      exact ⟨g, ⟨a, ha, ⟨huser, hscope, hexpired⟩, role, hrole, hg⟩, hmatch⟩
  · cases b
    · exact Or.inr hb
    · exact Or.inl hb
  · exact (PermissionChecker.hasPermission_congr (hsame.granted_iff userId now) casing
      required).symm

end Verixa.Authorization
