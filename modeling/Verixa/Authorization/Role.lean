import Verixa.Authorization.Permission
import Verixa.Collections.KeyedMap

/-!
# Roles and role assignments

A role is a named set of permissions; a role assignment gives a role to a user, in one organization
or in all of them, possibly for a limited time.  A role keeps the texts of its permissions.  They
enter the set through `Permission` only, so every one of them is the text of a permission; this is
what `PermissionSet` carries.  A second class `Role`, over the records of the administration
routes, answers `hasPermission` by text; here it is `RoleRecord`.
-/

namespace Verixa.Authorization

open Encoding

/-! ## Sets of permission texts -/

/-- A set of permission texts, in insertion order. -/
structure PermissionSet where
  values : List String
  /-- It is a set. -/
  nodup : values.Nodup
  /-- Every text is the text of a permission. -/
  canonical : ∀ v ∈ values, ∃ p : Permission, p.value = v

namespace PermissionSet

/-- The set without permissions. -/
def empty : PermissionSet := ⟨[], List.nodup_nil, by simp⟩

/-- `set.has(value)`. -/
def has (set : PermissionSet) (value : String) : Bool := decide (value ∈ set.values)

/-- `set.add(permission.value)`. -/
def add (set : PermissionSet) (permission : Permission) : PermissionSet :=
  if h : permission.value ∈ set.values then set
  else
    { values := set.values ++ [permission.value]
      nodup := by
        rw [List.nodup_append]
        refine ⟨set.nodup, List.nodup_singleton _, fun v hv w hw => ?_⟩
        rintro rfl
        exact h (List.mem_singleton.mp hw ▸ hv)
      canonical := by
        intro v hv
        rcases List.mem_append.mp hv with hv | hv
        · exact set.canonical v hv
        · exact ⟨permission, (List.mem_singleton.mp hv).symm⟩ }

/-- `set.delete(permission.value)`. -/
def delete (set : PermissionSet) (permission : Permission) : PermissionSet where
  values := set.values.filter fun v => decide (v ≠ permission.value)
  nodup := set.nodup.filter _
  canonical v hv := set.canonical v (List.mem_of_mem_filter hv)

/-- The set of the texts of some permissions. -/
def ofPermissions (permissions : List Permission) : PermissionSet :=
  permissions.foldl add empty

/-- Which permissions the set holds. -/
def Grants (set : PermissionSet) (permission : Permission) : Prop := permission.value ∈ set.values

theorem has_value {set : PermissionSet} {permission : Permission} :
    set.has permission.value = true ↔ set.Grants permission := by
  simp [has, Grants]

theorem grants_add {set : PermissionSet} {p q : Permission} :
    (set.add p).Grants q ↔ set.Grants q ∨ q = p := by
  unfold add Grants
  split
  · rename_i h
    constructor
    · exact Or.inl
    · rintro (hq | rfl)
      · exact hq
      · exact h
  · simp [Permission.value_injective.eq_iff]

theorem grants_delete {set : PermissionSet} {p q : Permission} :
    (set.delete p).Grants q ↔ set.Grants q ∧ q ≠ p := by
  simp [delete, Grants, Permission.value_injective.eq_iff]

theorem not_grants_empty {q : Permission} : ¬ empty.Grants q := by
  simp [empty, Grants]

theorem grants_foldl_add {permissions : List Permission} {set : PermissionSet} {q : Permission} :
    (permissions.foldl add set).Grants q ↔ set.Grants q ∨ q ∈ permissions := by
  induction permissions generalizing set with
  | nil => simp
  | cons p permissions ih => rw [List.foldl_cons, ih, grants_add, List.mem_cons, or_assoc]

@[simp] theorem grants_ofPermissions {permissions : List Permission} {q : Permission} :
    (ofPermissions permissions).Grants q ↔ q ∈ permissions := by
  rw [ofPermissions, grants_foldl_add]
  exact or_iff_right not_grants_empty

end PermissionSet

/-! ## Roles -/

/-- What is not allowed on a system role. -/
inductive SystemRoleAction where
  | revoke
  | rename
  | delete
  deriving DecidableEq

/-- The action, as the message describes it. -/
def SystemRoleAction.description : SystemRoleAction → String
  | .revoke => "revoke permissions from"
  | .rename => "rename"
  | .delete => "delete"

/-- What the methods of a role throw. -/
inductive RoleFault where
  | validation (error : ValidationError)
  | systemRoleImmutable (roleId roleName : String) (attemptedAction : SystemRoleAction)
  deriving DecidableEq

/-- The message of a thrown error. -/
def RoleFault.message : RoleFault → String
  | .validation error => error.message
  | .systemRoleImmutable roleId roleName attemptedAction =>
    "Cannot " ++ attemptedAction.description ++ " system role \"" ++ roleName ++ "\" (" ++ roleId ++
      "): system roles are protected against modification to guarantee system recoverability."

/-- A role. -/
structure Role where
  id : String
  name : String
  description : Option String
  isSystemRole : Bool
  permissions : PermissionSet
  createdAt : ℤ
  updatedAt : ℤ

/-- What a role is created from; `id` and `now` are the drawn id and the current time. -/
structure CreateRoleParams where
  id : String
  name : String
  description : Option String := none
  isSystemRole : Bool := false
  permissions : List PermissionArg := []
  now : ℤ

namespace Role

/-- The permission of an argument; a text that is no permission is thrown back. -/
def required (casing : LowerCasing) (arg : PermissionArg) : Except RoleFault Permission :=
  match arg.create casing with
  | .ok p => .ok p
  | .error e => .error (.validation e)

/-- A new role.  A missing name is a returned error, a malformed permission a thrown one. -/
def create (casing : LowerCasing) (params : CreateRoleParams) :
    Except RoleFault (Except ValidationError Role) :=
  if isBlank params.name then
    .ok (.error ⟨"Role name is required and must not be empty.", [("name", ["required"])]⟩)
  else
    match params.permissions.mapM (required casing) with
    | .error fault => .error fault
    | .ok permissions =>
      .ok (.ok { id := params.id, name := trim params.name,
                 description := params.description.map trim, isSystemRole := params.isSystemRole,
                 permissions := PermissionSet.ofPermissions permissions,
                 createdAt := params.now, updatedAt := params.now })

/-- Grants a permission, also to a system role. -/
def grant (casing : LowerCasing) (role : Role) (arg : PermissionArg) (now : ℤ) :
    Except RoleFault Role :=
  match required casing arg with
  | .error fault => .error fault
  | .ok perm =>
    if role.permissions.has perm.value then .ok role
    else .ok { role with permissions := role.permissions.add perm, updatedAt := now }

/-- Takes a permission away, unless the role is a system role. -/
def revoke (casing : LowerCasing) (role : Role) (arg : PermissionArg) (now : ℤ) :
    Except RoleFault Role :=
  if role.isSystemRole then .error (.systemRoleImmutable role.id role.name .revoke)
  else
    match required casing arg with
    | .error fault => .error fault
    | .ok perm =>
      if role.permissions.has perm.value then
        .ok { role with permissions := role.permissions.delete perm, updatedAt := now }
      else .ok role

/-- Gives the role another name, unless it is a system role. -/
def rename (role : Role) (newName : String) (now : ℤ) : Except RoleFault Role :=
  if role.isSystemRole then .error (.systemRoleImmutable role.id role.name .rename)
  else if isBlank newName then
    .error (.validation ⟨"Role name is required and cannot be empty.", [("name", ["required"])]⟩)
  else if role.name = trim newName then .ok role
  else .ok { role with name := trim newName, updatedAt := now }

/-- Whether the role has a permission, or all permissions on its resource. -/
def hasPermission (casing : LowerCasing) (role : Role) (arg : PermissionArg) :
    Except RoleFault Bool :=
  match required casing arg with
  | .error fault => .error fault
  | .ok perm =>
    if role.permissions.has perm.value then .ok true
    else .ok (role.permissions.has (perm.resource ++ ":*"))

/-- What a granted permission does to the grants. -/
theorem grants_of_grant {casing : LowerCasing} {role role' : Role} {arg : PermissionArg} {now : ℤ}
    (h : role.grant casing arg now = .ok role') :
    ∃ p, arg.create casing = .ok p ∧ role'.id = role.id ∧
      ∀ q, role'.permissions.Grants q ↔ role.permissions.Grants q ∨ q = p := by
  unfold grant required at h
  cases harg : arg.create casing with
  | error e => simp [harg] at h
  | ok p =>
    refine ⟨p, rfl, ?_⟩
    simp only [harg] at h
    split at h <;> obtain rfl := Except.ok.inj h
    · rename_i hhas
      refine ⟨rfl, fun q => ⟨Or.inl, ?_⟩⟩
      rintro (hq | rfl)
      · exact hq
      · exact PermissionSet.has_value.mp hhas
    · exact ⟨rfl, fun q => PermissionSet.grants_add⟩

/-- What a revoked permission does to the grants. -/
theorem grants_of_revoke {casing : LowerCasing} {role role' : Role} {arg : PermissionArg} {now : ℤ}
    (h : role.revoke casing arg now = .ok role') :
    ∃ p, arg.create casing = .ok p ∧ role'.id = role.id ∧
      ∀ q, role'.permissions.Grants q ↔ role.permissions.Grants q ∧ q ≠ p := by
  unfold revoke required at h
  split at h
  · cases h
  · cases harg : arg.create casing with
    | error e => simp [harg] at h
    | ok p =>
      refine ⟨p, rfl, ?_⟩
      simp only [harg] at h
      split at h <;> obtain rfl := Except.ok.inj h
      · exact ⟨rfl, fun q => PermissionSet.grants_delete⟩
      · rename_i hhas
        refine ⟨rfl, fun q => ⟨fun hq => ⟨hq, ?_⟩, And.left⟩⟩
        rintro rfl
        exact hhas (PermissionSet.has_value.mpr hq)

end Role

/-- A role as the administration routes record it. -/
structure RoleRecord where
  id : String
  name : String
  description : String
  isSystemRole : Bool
  permissions : List String
  deriving DecidableEq

/-- Whether the recorded role has the permission with the given text. -/
def RoleRecord.hasPermission (record : RoleRecord) (key : String) : Bool :=
  let resource := String.ofList ((key.toList.splitOn ':').headD [])
  decide ("*:*" ∈ record.permissions) || decide (key ∈ record.permissions) ||
    decide (resource ++ ":*" ∈ record.permissions)

/-! ## Role assignments -/

/-- A role given to a user: in one organization, or in all of them for `orgId = none`. -/
structure UserRoleAssignment where
  id : String
  userId : String
  roleId : String
  orgId : Option String
  assignedAt : ℤ
  assignedBy : String
  expiresAt : Option ℤ := none
  deriving DecidableEq

/-- Whether the assignment has run out. -/
def UserRoleAssignment.isExpired (assignment : UserRoleAssignment) (now : ℤ) : Bool :=
  match assignment.expiresAt with
  | none => false
  | some expiresAt => decide (expiresAt ≤ now)

end Verixa.Authorization
