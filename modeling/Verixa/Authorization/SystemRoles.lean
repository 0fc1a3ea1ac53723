import Verixa.Authorization.AdminRoles
import Verixa.Concurrency.Journal

/-!
# System roles under administration

Whatever requests are made to the administration routes, and in whatever way their statements
interleave: a system role stays, it loses no permission, no role becomes or ceases to be a system
role, and `*:*` is held by system roles only.  A request that deletes a role or takes a permission
from it has read before, in another statement, that the role is no system role; that stays so.
-/

namespace Verixa.Authorization

open Concurrency

/-! ## What is kept -/

/-- Only system roles hold the permission for everything. -/
def WildcardGuarded (s : AdminStore) : Prop :=
  ∀ id role, s.roleRecord? id = some role → "*:*" ∈ role.permissions → role.isSystemRole = true

/-- System roles stay with their permissions, and no role becomes one. -/
structure SystemRolesStay (s t : AdminStore) : Prop where
  stay : ∀ id role, s.roleRecord? id = some role → role.isSystemRole = true →
    ∃ role', t.roleRecord? id = some role' ∧ role'.isSystemRole = true ∧
      role.permissions ⊆ role'.permissions
  none_new : ∀ id role', t.roleRecord? id = some role' → role'.isSystemRole = true →
    ∃ role, s.roleRecord? id = some role ∧ role.isSystemRole = true

/-- The role is stored, as a system role. -/
def AdminStore.isSystemRole (s : AdminStore) (id : String) : Bool :=
  (s.rolesById.get? id).any RoleRow.isSystemRole

/-! ## The law of system roles -/

/-- The tables are well formed: permissions are joined to stored roles, permission ids are unique,
and `*:*` is joined to system roles only. -/
structure RolesWellFormed (s : AdminStore) : Prop where
  joined : ∀ roleId permissionId, (roleId, permissionId) ∈ s.rolePermissions →
    (s.rolesById.get? roleId).isSome = true
  distinct : ∀ key key' permission permission',
    s.permissionsByKey.get? key = some permission →
      s.permissionsByKey.get? key' = some permission' → permission.id = permission'.id →
        permission = permission'
  wildcard : ∀ roleId permission, s.permissionsByKey.get? "*:*" = some permission →
    (roleId, permission.id) ∈ s.rolePermissions → s.isSystemRole roleId = true

/-- Which roles are system roles stays, with their permissions and the catalog. -/
structure RolesFollow (s t : AdminStore) : Prop where
  catalog : t.permissionsByKey = s.permissionsByKey
  system : ∀ id, t.isSystemRole id = s.isSystemRole id
  grants : ∀ id permissionId, s.isSystemRole id = true → (id, permissionId) ∈ s.rolePermissions →
    (id, permissionId) ∈ t.rolePermissions

/-- The law of system roles. -/
def roleLaw : JournalLaw AdminStore AdminDeed where
  journal := AdminStore.journal
  inv := RolesWellFormed
  order := RolesFollow
  order_refl _ := ⟨rfl, fun _ => rfl, fun _ _ _ h => h⟩
  order_trans _ _ _ hst htu :=
    ⟨htu.catalog.trans hst.catalog, fun id => (htu.system id).trans (hst.system id),
      fun id permissionId hsystem hmem =>
        htu.grants id permissionId ((hst.system id).trans hsystem)
          (hst.grants id permissionId hsystem hmem)⟩

/-- What a request promises of its statements. -/
def RoleJustified (_ : ℕ) (s : AdminStore) : AdminCall → Prop
  | .createRole row => row.isSystemRole = false
  | .deleteRole id => s.isSystemRole id = false
  | .upsertRolePermission roleId permissionId =>
    (∀ permission, s.permissionsByKey.get? "*:*" = some permission →
      permission.id = permissionId → s.isSystemRole roleId = true)
  | .deleteRolePermissions roleId _ => s.isSystemRole roleId = false
  | _ => True

section Law

variable {s t : AdminStore} {i : ℕ}

/-- The law does not look at assignments and the journal. -/
theorem RolesWellFormed.of_same (h : RolesWellFormed s) (hroles : t.rolesById = s.rolesById)
    (hcatalog : t.permissionsByKey = s.permissionsByKey)
    (hjoined : t.rolePermissions = s.rolePermissions) : RolesWellFormed t := by
  constructor
  · rw [hjoined, hroles]
    exact h.joined
  · rw [hcatalog]
    exact h.distinct
  · rw [hcatalog, hjoined]
    intro roleId permission hpermission hmem
    rw [AdminStore.isSystemRole, hroles]
    exact h.wildcard roleId permission hpermission hmem

theorem RolesFollow.of_same (hroles : t.rolesById = s.rolesById)
    (hcatalog : t.permissionsByKey = s.permissionsByKey)
    (hjoined : t.rolePermissions = s.rolePermissions) : RolesFollow s t :=
  ⟨hcatalog, fun id => by rw [AdminStore.isSystemRole, hroles, AdminStore.isSystemRole],
    fun _ _ _ hmem => hjoined ▸ hmem⟩

/-- Putting a role that is a system role exactly if its id is one of a system role. -/
theorem isSystemRole_put {row : RoleRow} (hsame : row.isSystemRole = s.isSystemRole row.id)
    (hroles : t.rolesById = s.rolesById.put row) (id : String) :
    t.isSystemRole id = s.isSystemRole id := by
  rw [AdminStore.isSystemRole, hroles, KeyedMap.get?_put]
  split_ifs with hid
  · rw [← hid, ← hsame]
    rfl
  · rfl

/-- Such a role keeps the law. -/
theorem keeps_put {row : RoleRow} (h : RolesWellFormed s)
    (hsame : row.isSystemRole = s.isSystemRole row.id)
    (hroles : t.rolesById = s.rolesById.put row)
    (hcatalog : t.permissionsByKey = s.permissionsByKey)
    (hjoined : t.rolePermissions = s.rolePermissions) : RolesWellFormed t ∧ RolesFollow s t := by
  have hsystem := isSystemRole_put hsame hroles
  refine ⟨⟨fun roleId permissionId hmem => ?_, ?_, fun roleId permission hpermission hmem => ?_⟩,
    ⟨hcatalog, hsystem, fun _ _ _ hmem => hjoined ▸ hmem⟩⟩
  · rw [hroles, KeyedMap.get?_put]
    split_ifs
    · rfl
    · exact h.joined roleId permissionId (hjoined ▸ hmem)
  · rw [hcatalog]
    exact h.distinct
  · rw [hsystem]
    exact h.wildcard roleId permission (hcatalog ▸ hpermission) (hjoined ▸ hmem)

/-- Deleting a role that is no system role keeps the law. -/
theorem keeps_deleted {id : String} (h : RolesWellFormed s) (hid : s.isSystemRole id = false) :
    RolesWellFormed (s.deleted i id) ∧ RolesFollow s (s.deleted i id) := by
  have hget : ∀ roleId, (s.deleted i id).rolesById.get? roleId =
      if id = roleId then none else s.rolesById.get? roleId := fun roleId =>
    KeyedMap.get?_erase _ _ _
  have hmem : ∀ roleId permissionId, (roleId, permissionId) ∈ (s.deleted i id).rolePermissions ↔
      (roleId, permissionId) ∈ s.rolePermissions ∧ roleId ≠ id := by
    intro roleId permissionId
    exact List.mem_filter.trans (and_congr_right fun _ => by simp)
  have hsystem : ∀ roleId, (s.deleted i id).isSystemRole roleId = s.isSystemRole roleId := by
    intro roleId
    rw [AdminStore.isSystemRole, hget]
    split_ifs with heq
    · rw [← heq, hid]
      rfl
    · rfl
  refine ⟨⟨fun roleId permissionId hjoined => ?_, h.distinct,
    fun roleId permission hpermission hjoined => ?_⟩, rfl, hsystem, ?_⟩
  · obtain ⟨hbefore, hne⟩ := (hmem roleId permissionId).mp hjoined
    rw [hget, if_neg (Ne.symm hne)]
    exact h.joined roleId permissionId hbefore
  · rw [hsystem]
    exact h.wildcard roleId permission hpermission ((hmem _ _).mp hjoined).1
  · intro roleId permissionId hrole hbefore
    refine (hmem roleId permissionId).mpr ⟨hbefore, ?_⟩
    rintro rfl
    rw [hid] at hrole
    cases hrole

/-- A permission more, which is `*:*` for a system role only, keeps the law. -/
theorem keeps_granted {roleId permissionId : String} (h : RolesWellFormed s)
    (hrole : (s.rolesById.get? roleId).isSome = true)
    (hwildcard : ∀ permission, s.permissionsByKey.get? "*:*" = some permission →
      permission.id = permissionId → s.isSystemRole roleId = true) :
    RolesWellFormed (s.granted i roleId permissionId) ∧
      RolesFollow s (s.granted i roleId permissionId) := by
  have hmem : ∀ entry, entry ∈ (s.granted i roleId permissionId).rolePermissions ↔
      entry ∈ s.rolePermissions ∨ entry = (roleId, permissionId) := by
    intro entry
    change entry ∈ (if (roleId, permissionId) ∈ s.rolePermissions then s.rolePermissions
      else s.rolePermissions ++ [(roleId, permissionId)]) ↔ _
    split_ifs with hthere
    · constructor
      · exact .inl
      · rintro (hentry | rfl)
        · exact hentry
        · exact hthere
    · simp
  refine ⟨⟨fun role permission hjoined => ?_, h.distinct,
    fun role permission hpermission hjoined => ?_⟩, rfl, fun _ => rfl,
    fun id permission _ hbefore => (hmem _).mpr (.inl hbefore)⟩
  · rcases (hmem _).mp hjoined with hbefore | heq
    · exact h.joined role permission hbefore
    · obtain ⟨rfl, rfl⟩ := Prod.mk.inj heq
      exact hrole
  · rcases (hmem _).mp hjoined with hbefore | heq
    · exact h.wildcard role permission hpermission hbefore
    · obtain ⟨rfl, hid⟩ := Prod.mk.inj heq
      exact hwildcard permission hpermission hid

/-- A permission less for a role that is no system role keeps the law. -/
theorem keeps_revoked {roleId permissionId : String} (h : RolesWellFormed s)
    (hrole : s.isSystemRole roleId = false) :
    RolesWellFormed (s.revoked i roleId permissionId) ∧
      RolesFollow s (s.revoked i roleId permissionId) := by
  have hsubset : (s.revoked i roleId permissionId).rolePermissions ⊆ s.rolePermissions :=
    fun _ hmem => List.mem_of_mem_filter hmem
  refine ⟨⟨fun role permission hjoined => h.joined role permission (hsubset hjoined), h.distinct,
    fun role permission hpermission hjoined =>
      h.wildcard role permission hpermission (hsubset hjoined)⟩, rfl, fun _ => rfl, ?_⟩
  intro id permission hsystem hbefore
  refine List.mem_filter.mpr ⟨hbefore, ?_⟩
  have hne : id ≠ roleId := by
    rintro rfl
    rw [hrole] at hsystem
    cases hsystem
  simp [hne]

theorem isJournal_roleLaw : roleLaw.IsJournal AdminStore.serve :=
  fun _ _ _ _ _ _ hserve => journal_of_effect (effect_of_serve hserve)

/-- Justified statements keep the law. -/
theorem keptBy_roleLaw :
    roleLaw.KeptBy AdminStore.serve (fun _ _ _ _ => True) RoleJustified := by
  intro i s q ω r t hinv hjust _ hserve
  have hwell : RolesWellFormed s := hinv
  cases effect_of_serve hserve with
  | nothing => exact ⟨hwell, roleLaw.order_refl s⟩
  | saw hdeed => exact ⟨hwell.of_same rfl rfl rfl, .of_same rfl rfl rfl⟩
  | @created row hnew =>
    refine keeps_put hwell ?_ (rfl : _ = s.rolesById.put row) rfl rfl
    rw [AdminStore.isSystemRole, hnew]
    exact hjust
  | @updated id row name description hrow =>
    refine keeps_put hwell ?_ (rfl : _ = s.rolesById.put (row.withInput name description)) rfl rfl
    have hid : row.id = id := KeyedMap.key_of_get? hrow
    change row.isSystemRole = s.isSystemRole row.id
    rw [AdminStore.isSystemRole, hid, hrow]
    rfl
  | deleted => exact keeps_deleted hwell hjust
  | granted hrole => exact keeps_granted hwell hrole hjust
  | revoked => exact keeps_revoked hwell hjust
  | assigned => exact ⟨hwell.of_same rfl rfl rfl, .of_same rfl rfl rfl⟩
  | unassigned => exact ⟨hwell.of_same rfl rfl rfl, .of_same rfl rfl rfl⟩

end Law

/-! ## Walking through the routes -/

section Walk

variable {s : AdminStore} {i : ℕ} {α β : Type}

/-- The program keeps the law when the thread runs it. -/
def KeepsRoles (i : ℕ) (p : AdminProgram α) (s : AdminStore) : Prop :=
  Safe roleLaw.contract AdminStore.serve (fun _ _ _ _ => True) i (fun _ _ => True) p s

theorem keepsRoles_ret {a : α} : KeepsRoles i (.ret a) s :=
  roleLaw.safe_ret rfl fun _ _ _ _ => trivial

/-- A statement that is justified whenever it is carried out. -/
theorem keepsRoles_call {q : AdminCall} {k : q.Answer → AdminProgram α}
    (hjust : ∀ t, RolesFollow s t → RolesWellFormed t → RoleJustified i t q)
    (h : ∀ t ω r u, RolesFollow s t → AdminStore.serve i t q ω = some (r, u) →
      RolesFollow s u → KeepsRoles i (k r) u) : KeepsRoles i (.call q k) s := by
  refine roleLaw.safe_call isJournal_roleLaw keptBy_roleLaw rfl ?_ ?_
  · intro t hst hinv _
    exact hjust t hst hinv
  · intro t ω r u hst _ _ _ hserve _ htu
    exact h t ω r u hst hserve (roleLaw.order_trans _ _ _ hst htu)

/-- A statement that needs no justification. -/
theorem keepsRoles_plain {q : AdminCall} {k : q.Answer → AdminProgram α}
    (hq : ∀ i s, RoleJustified i s q) (h : ∀ r u, KeepsRoles i (k r) u) :
    KeepsRoles i (.call q k) s :=
  keepsRoles_call (fun t _ _ => hq i t) fun _ _ r u _ _ _ => h r u

/-- Sequencing. -/
theorem keepsRoles_bind {p : AdminProgram α} {f : α → AdminProgram β}
    (hp : KeepsRoles i p s) (hf : ∀ a t, KeepsRoles i (f a) t) :
    KeepsRoles i (p.bind f) s :=
  Safe.bind hp fun t a _ => hf a t

theorem keepsRoles_awaiting {method : AdminMethod α} {rest : α → AdminMethod β}
    (hmethod : KeepsRoles i method s) (hrest : ∀ value t, KeepsRoles i (rest value) t) :
    KeepsRoles i (awaiting method rest) s :=
  Safe.awaiting hmethod (fun _ _ _ => keepsRoles_ret) fun t value _ => hrest value t

theorem keepsRoles_trying {method : AdminMethod α} {reply : α → AdminReply}
    (hmethod : KeepsRoles i method s) : KeepsRoles i (trying method reply) s := by
  refine keepsRoles_bind hmethod fun outcome t => ?_
  cases outcome with
  | error fault => exact keepsRoles_ret
  | ok value => exact keepsRoles_ret

/-- What a thread has read of a role is so later. -/
theorem isSystemRole_of_found {t u : AdminStore} {id : String} {ω : AdminInput}
    {isSystemRole : Bool}
    (hserve : AdminStore.serve i t (.findIsSystemRole id) ω = some (.ok (some isSystemRole), u)) :
    u.isSystemRole id = isSystemRole := by
  cases ω with
  | carriedOut refusal =>
    obtain ⟨hfound, rfl⟩ := Prod.mk.inj (Option.some.inj hserve)
    obtain ⟨row, hrow, rfl⟩ := Option.map_eq_some_iff.mp (Except.ok.inj hfound)
    rw [AdminStore.isSystemRole, hrow]
    rfl
  | failed message =>
    obtain ⟨hfound, -⟩ := Prod.mk.inj (Option.some.inj hserve)
    cases hfound
  | _ => cases hserve

/-- Asking whether a role is a system role. -/
theorem keepsRoles_findIsSystemRole {id : String} {rest : Option Bool → AdminMethod α}
    (hnone : ∀ t, KeepsRoles i (rest none) t)
    (hsome : ∀ t isSystemRole, RolesFollow s t → t.isSystemRole id = isSystemRole →
      KeepsRoles i (rest (some isSystemRole)) t) :
    KeepsRoles i (awaiting (Program.perform (AdminCall.findIsSystemRole id)) rest) s := by
  refine keepsRoles_call (q := .findIsSystemRole id) (fun _ _ _ => trivial) ?_
  intro t ω outcome u _ hserve hsu
  rcases outcome with fault | (none | isSystemRole)
  · exact keepsRoles_ret
  · exact hnone u
  · exact hsome u isSystemRole hsu (isSystemRole_of_found hserve)

/-- Looking for a permission in the catalog. -/
theorem keepsRoles_findPermission {key : String} {rest : Option PermissionRow → AdminMethod α}
    (hnone : ∀ t, KeepsRoles i (rest none) t)
    (hsome : ∀ t permission, t.permissionsByKey.get? key = some permission →
      KeepsRoles i (rest (some permission)) t) :
    KeepsRoles i (awaiting (Program.perform (AdminCall.findPermission key)) rest) s := by
  refine keepsRoles_call (q := .findPermission key) (fun _ _ _ => trivial) ?_
  intro t ω outcome u _ hserve _
  cases ω with
  | carriedOut refusal =>
    obtain ⟨rfl, rfl⟩ := Prod.mk.inj (Option.some.inj hserve)
    change KeepsRoles i (rest (t.permissionsByKey.get? key)) t
    cases hfound : t.permissionsByKey.get? key with
    | none => exact hnone t
    | some permission => exact hsome t permission hfound
  | failed message =>
    obtain ⟨rfl, -⟩ := Prod.mk.inj (Option.some.inj hserve)
    exact keepsRoles_ret
  | _ => cases hserve

theorem keepsRoles_createRole {name description : String} :
    KeepsRoles i (PrismaAuthorizationRepository.createRole name description false) s := by
  refine keepsRoles_plain (q := .randomUUID) (fun _ _ => trivial) fun id t => ?_
  exact keepsRoles_call (fun _ _ _ => rfl) fun _ _ _ _ _ _ _ => keepsRoles_ret

theorem keepsRoles_deleteRole {id : String} :
    KeepsRoles i (PrismaAuthorizationRepository.deleteRole id) s := by
  refine keepsRoles_findIsSystemRole (fun _ => keepsRoles_ret) ?_
  intro t isSystemRole _ hsystem
  cases isSystemRole with
  | true => exact keepsRoles_ret
  | false =>
    refine keepsRoles_call (fun u htu _ => ?_) fun _ _ _ _ _ _ _ => keepsRoles_ret
    exact (htu.system id).trans hsystem

theorem keepsRoles_revokePermission {roleId key : String} :
    KeepsRoles i (PrismaAuthorizationRepository.revokePermission roleId key) s := by
  refine keepsRoles_findPermission (fun _ => keepsRoles_ret) fun t permission _ => ?_
  refine keepsRoles_findIsSystemRole (fun _ => keepsRoles_ret) ?_
  intro u isSystemRole _ hsystem
  cases isSystemRole with
  | true => exact keepsRoles_ret
  | false =>
    refine keepsRoles_awaiting ?_ fun _ v => ?_
    · refine keepsRoles_call (fun v huv _ => ?_) fun _ _ _ _ _ _ _ => keepsRoles_ret
      exact (huv.system roleId).trans hsystem
    · exact keepsRoles_plain (fun _ _ => trivial) fun _ _ => keepsRoles_ret

theorem keepsRoles_grantPermission {roleId key : String} :
    KeepsRoles i (PrismaAuthorizationRepository.grantPermission roleId key) s := by
  refine keepsRoles_findPermission (fun _ => keepsRoles_ret) fun t permission hpermission => ?_
  refine keepsRoles_findIsSystemRole (fun _ => keepsRoles_ret) ?_
  intro u isSystemRole htu hsystem
  change KeepsRoles i (if key = "*:*" ∧ isSystemRole = false then _ else _) u
  split_ifs with hrefused
  · exact keepsRoles_ret
  refine keepsRoles_awaiting ?_ fun _ v => ?_
  · refine keepsRoles_call ?_ fun _ _ _ _ _ _ _ => keepsRoles_ret
    intro v huv hwell everything heverything hid
    -- the catalog is as it was, so that the permission found is that for everything
    have hstored : v.permissionsByKey.get? key = some permission := by
      rw [huv.catalog, htu.catalog, hpermission]
    have hsame := hwell.distinct _ _ _ _ heverything hstored hid
    have hkey : key = "*:*" := by
      rw [← KeyedMap.key_of_get? hstored, ← hsame]
      exact KeyedMap.key_of_get? heverything
    rw [huv.system, hsystem]
    by_contra hnot
    exact hrefused ⟨hkey, by simpa using hnot⟩
  · exact keepsRoles_plain (fun _ _ => trivial) fun _ _ => keepsRoles_ret

/-- Asking for a permission before a handler. -/
theorem keepsRoles_hasPermission {userId key : String} {organizationId : Option String} :
    KeepsRoles i (PrismaAuthorizationRepository.hasPermission userId organizationId key) s := by
  cases organizationId with
  | none => exact keepsRoles_ret
  | some organizationId =>
    refine keepsRoles_plain (q := .now) (fun _ _ => trivial) fun now t => ?_
    refine keepsRoles_awaiting ?_ fun roles u => keepsRoles_ret
    exact keepsRoles_plain (fun _ _ => trivial) fun _ _ => keepsRoles_ret

theorem keepsRoles_requirePermission {request : AdminRequest} {permission : String}
    {handler : AdminMethod AdminReply} (h : ∀ t, KeepsRoles i handler t) :
    KeepsRoles i (requireRolePermission request permission handler) s := by
  rw [requireRolePermission]
  split
  · exact keepsRoles_ret
  · refine keepsRoles_awaiting keepsRoles_hasPermission fun allowed t => ?_
    cases allowed with
    | false => exact keepsRoles_ret
    | true => exact h t

theorem keepsRoles_canGrant {request : AdminRequest} {actorId : String}
    {permissions : List String} :
    KeepsRoles i (canGrant request actorId permissions) s := by
  induction permissions generalizing s with
  | nil => exact keepsRoles_ret
  | cons permission permissions ih =>
    refine keepsRoles_awaiting keepsRoles_hasPermission fun allowed t => ?_
    exact keepsRoles_awaiting ih fun others u => keepsRoles_ret

theorem keepsRoles_assign {request : AdminRequest} {userId roleId organizationId : String}
    {expiresAt : Option ℤ} :
    KeepsRoles i (assign request userId roleId organizationId expiresAt) s := by
  refine keepsRoles_awaiting ?_ fun assignment t => keepsRoles_ret
  refine keepsRoles_awaiting ?_ fun role t => ?_
  · exact keepsRoles_plain (fun _ _ => trivial) fun _ _ => keepsRoles_ret
  cases role with
  | none => exact keepsRoles_ret
  | some role =>
    refine keepsRoles_plain (q := .now) (fun _ _ => trivial) fun now u => ?_
    refine keepsRoles_awaiting ?_ fun existing v => ?_
    · exact keepsRoles_plain (fun _ _ => trivial) fun _ _ => keepsRoles_ret
    cases existing with
    | some existing => exact keepsRoles_ret
    | none =>
      refine keepsRoles_plain (q := .randomUUID) (fun _ _ => trivial) fun id w => ?_
      refine keepsRoles_plain (q := .now) (fun _ _ => trivial) fun assignedAt x => ?_
      exact keepsRoles_plain (fun _ _ => trivial) fun _ _ => keepsRoles_ret

theorem keepsRoles_postUserRole {request : AdminRequest} {userId roleId : String}
    {organizationId : Option String} {expiresAt : Option ℤ} :
    KeepsRoles i (postUserRole request userId roleId organizationId expiresAt) s := by
  rw [postUserRole]
  split
  · exact keepsRoles_ret
  split
  · exact keepsRoles_ret
  refine keepsRoles_trying ?_
  refine keepsRoles_awaiting ?_ fun role t => ?_
  · exact keepsRoles_plain (fun _ _ => trivial) fun _ _ => keepsRoles_ret
  cases role with
  | none => exact keepsRoles_ret
  | some targetRole =>
    cases request.userId with
    | none => exact keepsRoles_assign
    | some actorId =>
      change KeepsRoles i (if actorId = userId then _ else _) t
      split_ifs
      · refine keepsRoles_awaiting keepsRoles_canGrant fun allowed u => ?_
        change KeepsRoles i (if allowed.all id then _ else _) u
        split_ifs
        · exact keepsRoles_assign
        · exact keepsRoles_ret
      · exact keepsRoles_assign

/-- Every request keeps the law. -/
theorem keepsRoles_handle {request : AdminRequest} : KeepsRoles i (handle request) s := by
  rw [handle]
  split
  · refine keepsRoles_requirePermission fun t => keepsRoles_awaiting ?_ fun _ _ => keepsRoles_ret
    exact keepsRoles_plain (fun _ _ => trivial) fun _ _ => keepsRoles_ret
  · refine keepsRoles_requirePermission fun t => ?_
    split_ifs
    · exact keepsRoles_ret
    · exact keepsRoles_trying keepsRoles_createRole
  · refine keepsRoles_requirePermission fun t => keepsRoles_trying ?_
    exact keepsRoles_plain (fun _ _ => trivial) fun _ _ => keepsRoles_ret
  · exact keepsRoles_requirePermission fun t => keepsRoles_trying keepsRoles_deleteRole
  · refine keepsRoles_requirePermission fun t => keepsRoles_awaiting ?_ fun _ _ => keepsRoles_ret
    exact keepsRoles_plain (fun _ _ => trivial) fun _ _ => keepsRoles_ret
  · exact keepsRoles_requirePermission fun t => keepsRoles_trying keepsRoles_grantPermission
  · exact keepsRoles_requirePermission fun t => keepsRoles_trying keepsRoles_revokePermission
  · refine keepsRoles_requirePermission fun t => ?_
    rw [getUserRoles]
    split
    · exact keepsRoles_ret
    split_ifs
    · exact keepsRoles_ret
    refine keepsRoles_awaiting ?_ fun _ _ => keepsRoles_ret
    exact keepsRoles_plain (fun _ _ => trivial) fun _ _ => keepsRoles_ret
  · exact keepsRoles_requirePermission fun t => keepsRoles_postUserRole
  · refine keepsRoles_requirePermission fun t => keepsRoles_trying ?_
    exact keepsRoles_plain (fun _ _ => trivial) fun _ _ => keepsRoles_ret

end Walk

/-! ## Runs -/

section Runs

variable {s : AdminStore} {P P' : AdminPool}

/-- The well-formed tables in terms of the records that are read from them. -/
theorem mem_permissions_recordOf {row : RoleRow} {key : String} :
    key ∈ (s.recordOf row).permissions ↔
      ∃ permission, s.permissionsByKey.get? key = some permission ∧
        (row.id, permission.id) ∈ s.rolePermissions := by
  simp only [AdminStore.recordOf, List.mem_map, List.mem_filter, decide_eq_true_eq]
  constructor
  · rintro ⟨permission, ⟨hmem, hjoined⟩, rfl⟩
    exact ⟨permission, KeyedMap.get?_of_mem_values hmem, hjoined⟩
  · rintro ⟨permission, hstored, hjoined⟩
    exact ⟨permission, ⟨KeyedMap.mem_values_of_get? hstored, hjoined⟩,
      KeyedMap.key_of_get? hstored⟩

/-- A record that is read is that of a stored row. -/
theorem roleRecord?_eq_some_iff {id : String} {role : RoleRecord} :
    s.roleRecord? id = some role ↔
      ∃ row, s.rolesById.get? id = some row ∧ row.id = id ∧ s.recordOf row = role := by
  rw [AdminStore.roleRecord?, Option.map_eq_some_iff]
  constructor
  · rintro ⟨row, hrow, hrecord⟩
    exact ⟨row, hrow, KeyedMap.key_of_get? hrow, hrecord⟩
  · rintro ⟨row, hrow, -, hrecord⟩
    exact ⟨row, hrow, hrecord⟩

theorem isSystemRole_iff {id : String} :
    s.isSystemRole id = true ↔
      ∃ role, s.roleRecord? id = some role ∧ role.isSystemRole = true := by
  rw [AdminStore.isSystemRole, Option.any_eq_true]
  constructor
  · rintro ⟨row, hrow, hsystem⟩
    exact ⟨s.recordOf row, roleRecord?_eq_some_iff.mpr
      ⟨row, hrow, KeyedMap.key_of_get? hrow, rfl⟩, hsystem⟩
  · rintro ⟨role, hrole, hsystem⟩
    obtain ⟨row, hrow, -, rfl⟩ := roleRecord?_eq_some_iff.mp hrole
    exact ⟨row, hrow, hsystem⟩

theorem RolesWellFormed.wildcardGuarded (h : RolesWellFormed s) : WildcardGuarded s := by
  intro id role hrole hmem
  obtain ⟨row, hrow, hid, rfl⟩ := roleRecord?_eq_some_iff.mp hrole
  obtain ⟨permission, hpermission, hjoined⟩ := mem_permissions_recordOf.mp hmem
  have hsystem := h.wildcard row.id permission hpermission hjoined
  rw [AdminStore.isSystemRole, hid, hrow] at hsystem
  exact hsystem

theorem RolesFollow.systemRolesStay {t : AdminStore} (h : RolesFollow s t) :
    SystemRolesStay s t := by
  constructor
  · intro id role hrole hsystem
    have hbefore : s.isSystemRole id = true := isSystemRole_iff.mpr ⟨role, hrole, hsystem⟩
    obtain ⟨role', hrole', hsystem'⟩ := isSystemRole_iff.mp ((h.system id).trans hbefore)
    refine ⟨role', hrole', hsystem', fun key hkey => ?_⟩
    obtain ⟨row, -, hid, rfl⟩ := roleRecord?_eq_some_iff.mp hrole
    obtain ⟨row', -, hid', rfl⟩ := roleRecord?_eq_some_iff.mp hrole'
    obtain ⟨permission, hpermission, hjoined⟩ := mem_permissions_recordOf.mp hkey
    refine mem_permissions_recordOf.mpr ⟨permission, h.catalog ▸ hpermission, ?_⟩
    rw [hid] at hjoined
    rw [hid']
    exact h.grants id permission.id hbefore hjoined
  · intro id role' hrole' hsystem'
    have hafter : t.isSystemRole id = true := isSystemRole_iff.mpr ⟨role', hrole', hsystem'⟩
    exact isSystemRole_iff.mp ((h.system id).symm.trans hafter)

theorem sound_roles (hwell : RolesWellFormed s) (hjournal : s.journal = [])
    (hrun : Run AdminPool.step (Pool.initial s) P) :
    Sound roleLaw.contract AdminStore.serve (fun _ _ _ _ => True)
      (fun i t => roleLaw.deedsOf i t = []) (fun _ _ _ _ _ => True) P := by
  have hallowed : RunWhile AdminPool.step (fun Q e => Q.Allows (fun _ _ _ _ => True) e) _ P :=
    hrun.mono fun Q e _ => Pool.allows_of_forall (fun _ _ _ _ => trivial) Q e
  exact roleLaw.sound_of_run (fun _ _ _ _ _ => keepsRoles_handle) hwell hjournal hallowed

/-- At any moment, only system roles hold the permission for everything. -/
theorem wildcard_stays_guarded (hwell : RolesWellFormed s) (hjournal : s.journal = [])
    (hrun : Run AdminPool.step (Pool.initial s) P) : WildcardGuarded P.store := by
  have hinv : RolesWellFormed P.store := (sound_roles hwell hjournal hrun).inv
  exact hinv.wildcardGuarded

end Runs

/-- The permission for everything, as the catalog has it. -/
def everything : PermissionRow := ⟨"everything", "*:*", none⟩

/-- The permission to manage roles. -/
def managing : PermissionRow := ⟨"managing", "roles:write", none⟩

/-- A system role that holds everything, and a role whose holder `ann` manages roles. -/
def sampleTables : AdminStore where
  rolesById := (KeyedMap.empty.put ⟨"super", "super-admin", none, true⟩).put
    ⟨"manager", "role-manager", none, false⟩
  permissionsByKey := (KeyedMap.empty.put everything).put managing
  rolePermissions := [("super", "everything"), ("manager", "managing")]
  assignmentsById := KeyedMap.empty.put ⟨"assignment", "ann", "manager", "org", 0, none, none⟩
  journal := []

theorem rolesWellFormed_sampleTables : RolesWellFormed sampleTables := by
  have hvalues : ∀ p ∈ sampleTables.permissionsByKey.values,
      ∀ p' ∈ sampleTables.permissionsByKey.values, p.id = p'.id → p = p' := by decide
  have heverything : sampleTables.permissionsByKey.get? "*:*" = some everything := by decide
  have hjoined : ∀ entry ∈ sampleTables.rolePermissions,
      (sampleTables.rolesById.get? entry.1).isSome = true ∧
        (entry.2 = "everything" → sampleTables.isSystemRole entry.1 = true) := by decide
  refine ⟨fun roleId permissionId hmem => (hjoined _ hmem).1, ?_, ?_⟩
  · intro key key' permission permission' hget hget'
    exact hvalues _ (KeyedMap.mem_values_of_get? hget) _ (KeyedMap.mem_values_of_get? hget')
  · intro roleId permission hget hmem
    obtain rfl := Option.some.inj (heverything.symm.trans hget)
    exact (hjoined _ hmem).2 rfl

/-- A request of `ann`. -/
def annRequests (route : AdminRoute) : AdminRequest := ⟨some "ann", some "org", route⟩

/-- The manager gives her role everything. -/
def wildcardAsked : AdminPool :=
  (exec AdminPool.step (Pool.initial sampleTables)
    [.start 1 (annRequests (.postPermission "manager" "*:*")), .answer 1 (.time 0),
      .answer 1 (.carriedOut ""), .answer 1 (.carriedOut ""), .answer 1 (.carriedOut "")]).get
    (by decide +kernel)

/-- The request is refused. -/
theorem wildcard_stays_guarded_asked :
    WildcardGuarded wildcardAsked.store ∧
      wildcardAsked.returned 1 = some ⟨annRequests (.postPermission "manager" "*:*"),
        .ok ⟨403, .error "Forbidden"⟩⟩ :=
  ⟨wildcard_stays_guarded rolesWellFormed_sampleTables rfl (runWhile_get _), by rfl⟩

/-- Then she deletes the system role. -/
def systemRoleDeleted : AdminPool :=
  (exec AdminPool.step wildcardAsked
    [.start 2 (annRequests (.deleteRole "super")), .answer 2 (.time 0),
      .answer 2 (.carriedOut ""), .answer 2 (.carriedOut "")]).get (by decide +kernel)

end Verixa.Authorization
