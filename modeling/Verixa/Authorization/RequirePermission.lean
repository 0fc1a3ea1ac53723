import Verixa.Authorization.PermissionChecker

/-!
# Permission guards and the permissions of a request

A guard lets a request pass when its principal has the required permissions.  A hook may resolve
the effective permissions of the principal once and keep their texts on the request; the guards
then consult these texts instead of the permission checker.

`guards_unchanged_iff` says when the hook changes no decision: exactly when hook and guard look at
the same organization at the same time.
-/

namespace Verixa.Authorization

open Encoding

/-! ## Requests -/

/-- The authenticated principal of a request. -/
structure AuthenticatedPrincipal where
  userId : String
  orgId : Option String := none
  /-- The texts of the resolved permissions, once the hook has run. -/
  permissions : Option (List String) := none
  deriving DecidableEq

/-- A request; `rest` is what else a resolver may look at: parameters, query and headers. -/
structure RequestWithPrincipal (ρ : Type) where
  principal : Option AuthenticatedPrincipal
  rest : ρ

variable {ρ : Type}

/-- Finds the organization of a request. -/
abbrev OrgIdResolver (ρ : Type) := RequestWithPrincipal ρ → Option String

/-- The organization by the given resolver, or else the principal's own. -/
def resolveOrgId (orgIdResolver : Option (OrgIdResolver ρ)) (request : RequestWithPrincipal ρ)
    (principal : AuthenticatedPrincipal) : Option String :=
  match orgIdResolver with
  | some resolver => resolver request
  | none => principal.orgId

/-! ## Guards -/

/-- What a guard decides. -/
inductive GuardDecision where
  /-- The request goes on. -/
  | allowed
  /-- The reply is `403`. -/
  | forbidden
  deriving DecidableEq

/-- The decision for an answer. -/
def GuardDecision.of (allowed : Bool) : GuardDecision := if allowed then .allowed else .forbidden

/-- Whether one of the texts kept on the request covers the required permission. -/
def checkCachedPermission (casing : LowerCasing) (cachedPermissions : List String)
    (required : PermissionArg) : Bool :=
  cachedPermissions.any fun granted => PermissionMatcher.matches casing (.string granted) required

/-- The course of every guard: no principal, no access; the texts on the request come before the
checker, which is asked for the organization that the guard resolves. -/
def permissionGuard (checkCached : List String → Bool)
    (check : String → Option String → Except ValidationError Bool)
    (orgIdResolver : Option (OrgIdResolver ρ)) (request : RequestWithPrincipal ρ) :
    Except ValidationError GuardDecision :=
  match request.principal with
  | none => .ok .forbidden
  | some principal =>
    if principal.userId = "" then .ok .forbidden
    else
      match principal.permissions with
      | some permissions => .ok (.of (checkCached permissions))
      | none =>
        (check principal.userId (resolveOrgId orgIdResolver request principal)).map GuardDecision.of

/-- The guard of one permission. -/
def requirePermission (casing : LowerCasing) (s : AuthorizationStore) (permission : PermissionArg)
    (orgIdResolver : Option (OrgIdResolver ρ)) (now : ℤ) :
    RequestWithPrincipal ρ → Except ValidationError GuardDecision :=
  permissionGuard (fun cached => checkCachedPermission casing cached permission)
    (fun userId orgId => PermissionChecker.hasPermission casing s userId orgId permission now)
    orgIdResolver

/-- The guard of at least one of some permissions. -/
def requireAnyPermission (casing : LowerCasing) (s : AuthorizationStore)
    (permissions : List PermissionArg) (orgIdResolver : Option (OrgIdResolver ρ)) (now : ℤ) :
    RequestWithPrincipal ρ → Except ValidationError GuardDecision :=
  permissionGuard (fun cached => permissions.any (checkCachedPermission casing cached))
    (fun userId orgId => PermissionChecker.hasAnyPermission casing s userId orgId permissions now)
    orgIdResolver

/-- The guard of all of some permissions. -/
def requireAllPermissions (casing : LowerCasing) (s : AuthorizationStore)
    (permissions : List PermissionArg) (orgIdResolver : Option (OrgIdResolver ρ)) (now : ℤ) :
    RequestWithPrincipal ρ → Except ValidationError GuardDecision :=
  permissionGuard (fun cached => permissions.all (checkCachedPermission casing cached))
    (fun userId orgId => PermissionChecker.hasAllPermissions casing s userId orgId permissions now)
    orgIdResolver

/-! ## The hook -/

/-- Resolves the permissions of the principal, unless there is none or it has been done. -/
def resolvePrincipal (casing : LowerCasing) (s : AuthorizationStore)
    (orgIdResolver : Option (OrgIdResolver ρ)) (now : ℤ) (request : RequestWithPrincipal ρ) :
    Except ValidationError (RequestWithPrincipal ρ) :=
  match request.principal with
  | none => .ok request
  | some principal =>
    if principal.userId = "" then .ok request
    else
      match principal.permissions with
      | some _ => .ok request
      | none =>
        let orgId := resolveOrgId orgIdResolver request principal
        (PermissionChecker.resolveEffectivePermissions casing s principal.userId orgId now).map
          fun effective =>
            let permissionKeys := (effective.map Permission.key).eraseDups
            { request with principal := some { principal with permissions := some permissionKeys } }

/-! ## Texts and permissions -/

/-- A required permission that can be read. -/
def PermissionArg.WellFormed (casing : LowerCasing) (arg : PermissionArg) : Prop :=
  ∃ p, arg.create casing = .ok p

/-- The kept texts decide as the permissions themselves. -/
theorem checkCachedPermission_keys {casing : LowerCasing} {arg : PermissionArg}
    {required : Permission} (h : arg.create casing = .ok required) (effective : List Permission) :
    checkCachedPermission casing (effective.map Permission.key).eraseDups arg =
      PermissionChecker.anyMatches effective required := by
  have hmatch : ∀ g : Permission, PermissionMatcher.matches casing (.string g.key) arg =
      g.matches required := fun g =>
    PermissionMatcher.matches_of_create (Permission.create_value casing g) h
  rw [Bool.eq_iff_iff, PermissionChecker.anyMatches_iff, checkCachedPermission, List.any_eq_true]
  constructor
  · rintro ⟨key, hkey, hmatches⟩
    obtain ⟨g, hg, rfl⟩ := List.mem_map.mp (List.mem_eraseDups.mp hkey)
    exact ⟨g, hg, hmatch g ▸ hmatches⟩
  · rintro ⟨g, hg, hmatches⟩
    exact ⟨g.key, List.mem_eraseDups.mpr (List.mem_map_of_mem hg), (hmatch g).trans hmatches⟩

/-- A list of well-formed requirements is read as a list of permissions that decide alike. -/
theorem exists_requiredList {casing : LowerCasing} {args : List PermissionArg}
    (h : ∀ arg ∈ args, arg.WellFormed casing) :
    ∃ requiredList, args.mapM (PermissionArg.create casing) = .ok requiredList ∧
      ∀ (check : PermissionArg → Bool) (decide : Permission → Bool),
        (∀ arg p, arg.create casing = .ok p → check arg = decide p) →
          args.any check = requiredList.any decide ∧ args.all check = requiredList.all decide := by
  induction args with
  | nil => exact ⟨[], rfl, by simp⟩
  | cons arg args ih =>
    obtain ⟨p, hp⟩ := h arg List.mem_cons_self
    obtain ⟨requiredList, hlist, hdecide⟩ := ih fun a ha => h a (List.mem_cons_of_mem _ ha)
    refine ⟨p :: requiredList, ?_, fun check decide hcheck => ?_⟩
    · simp [List.mapM_cons, hp, hlist, bind, Except.bind, pure, Except.pure]
    · simp [hcheck arg p hp, hdecide check decide hcheck]

/-! ## What the guards decide -/

/-- What the checker answers, once the permissions are resolved. -/
theorem PermissionChecker.hasPermission_eq {casing : LowerCasing} {s : AuthorizationStore}
    {userId : String} {orgId : Option String} {now : ℤ} {effective : List Permission}
    (heffective : resolveEffectivePermissions casing s userId orgId now = .ok effective)
    {arg : PermissionArg} {required : Permission} (h : arg.create casing = .ok required) :
    hasPermission casing s userId orgId arg now = .ok (anyMatches effective required) := by
  simp only [hasPermission, h, heffective]
  rfl

theorem PermissionChecker.hasAnyPermission_eq {casing : LowerCasing} {s : AuthorizationStore}
    {userId : String} {orgId : Option String} {now : ℤ} {effective : List Permission}
    (heffective : resolveEffectivePermissions casing s userId orgId now = .ok effective)
    {args : List PermissionArg} {requiredList : List Permission}
    (h : args.mapM (PermissionArg.create casing) = .ok requiredList) :
    hasAnyPermission casing s userId orgId args now =
      .ok (requiredList.any (anyMatches effective)) := by
  simp only [hasAnyPermission, h, heffective]
  cases requiredList <;> rfl

theorem PermissionChecker.hasAllPermissions_eq {casing : LowerCasing} {s : AuthorizationStore}
    {userId : String} {orgId : Option String} {now : ℤ} {effective : List Permission}
    (heffective : resolveEffectivePermissions casing s userId orgId now = .ok effective)
    {args : List PermissionArg} {requiredList : List Permission}
    (h : args.mapM (PermissionArg.create casing) = .ok requiredList) :
    hasAllPermissions casing s userId orgId args now =
      .ok (requiredList.all (anyMatches effective)) := by
  simp only [hasAllPermissions, h, heffective]
  cases requiredList <;> rfl

/-- A request whose principal is known and has no resolved permissions yet. -/
def Unresolved (request : RequestWithPrincipal ρ) (principal : AuthenticatedPrincipal) : Prop :=
  request.principal = some principal ∧ principal.userId ≠ "" ∧ principal.permissions = none

/-- The decision of a guard by the checker. -/
theorem permissionGuard_unresolved {request : RequestWithPrincipal ρ}
    {principal : AuthenticatedPrincipal} (h : Unresolved request principal)
    {check : String → Option String → Except ValidationError Bool}
    {orgIdResolver : Option (OrgIdResolver ρ)} {answer : Bool}
    (hcheck : check principal.userId (resolveOrgId orgIdResolver request principal) = .ok answer)
    (checkCached : List String → Bool) :
    permissionGuard checkCached check orgIdResolver request = .ok (.of answer) := by
  obtain ⟨hprincipal, huser, hnone⟩ := h
  simp only [permissionGuard, hprincipal, if_neg huser, hnone, hcheck]
  rfl

/-- What the hook leaves on the request, and how a guard decides then. -/
theorem resolvePrincipal_unresolved {request : RequestWithPrincipal ρ}
    {principal : AuthenticatedPrincipal} (h : Unresolved request principal) {casing : LowerCasing}
    {s : AuthorizationStore} {hookResolver : Option (OrgIdResolver ρ)} {hookTime : ℤ}
    {effective : List Permission}
    (heffective : PermissionChecker.resolveEffectivePermissions casing s principal.userId
      (resolveOrgId hookResolver request principal) hookTime = .ok effective) :
    ∃ after, resolvePrincipal casing s hookResolver hookTime request = .ok after ∧
      ∀ (checkCached : List String → Bool)
        (check : String → Option String → Except ValidationError Bool)
        (orgIdResolver : Option (OrgIdResolver ρ)),
        permissionGuard checkCached check orgIdResolver after =
          .ok (.of (checkCached (effective.map Permission.key).eraseDups)) := by
  obtain ⟨hprincipal, huser, hnone⟩ := h
  refine ⟨_, by simp only [resolvePrincipal, hprincipal, if_neg huser, hnone, heffective]; rfl, ?_⟩
  intro checkCached check orgIdResolver
  simp only [permissionGuard, if_neg huser]

/-- Where the principal is missing or already resolved, the hook does nothing. -/
theorem resolvePrincipal_of_not_unresolved {request : RequestWithPrincipal ρ}
    (h : ∀ principal, ¬ Unresolved request principal) (casing : LowerCasing)
    (s : AuthorizationStore) (hookResolver : Option (OrgIdResolver ρ)) (hookTime : ℤ) :
    resolvePrincipal casing s hookResolver hookTime request = .ok request := by
  unfold resolvePrincipal
  cases hprincipal : request.principal with
  | none => rfl
  | some principal =>
    by_cases huser : principal.userId = ""
    · simp [huser]
    · cases hpermissions : principal.permissions with
      | none => exact absurd ⟨hprincipal, huser, hpermissions⟩ (h principal)
      | some permissions => simp [huser, hpermissions]

/-! ## The hook and the decisions -/

/-- The three kinds of guards decide alike on two requests. -/
def SameDecisions (casing : LowerCasing) (s : AuthorizationStore) (required : List PermissionArg)
    (guardResolver : Option (OrgIdResolver ρ)) (now : ℤ)
    (request request' : RequestWithPrincipal ρ) : Prop :=
  (∀ permission ∈ required, requirePermission casing s permission guardResolver now request =
    requirePermission casing s permission guardResolver now request') ∧
  requireAnyPermission casing s required guardResolver now request =
    requireAnyPermission casing s required guardResolver now request' ∧
  requireAllPermissions casing s required guardResolver now request =
    requireAllPermissions casing s required guardResolver now request'

/-- Whatever is stored and whatever is required, the guards decide about a request on which the
hook has run as they do about the request without it. -/
def HookKeepsDecisions (casing : LowerCasing) (request : RequestWithPrincipal ρ)
    (hookResolver guardResolver : Option (OrgIdResolver ρ)) (hookTime guardTime : ℤ) : Prop :=
  ∀ (s : AuthorizationStore) (required : List PermissionArg),
    (∀ permission ∈ required, permission.WellFormed casing) →
      ∃ after, resolvePrincipal casing s hookResolver hookTime request = .ok after ∧
        SameDecisions casing s required guardResolver guardTime after request

/-- The guards decide alike where the two resolutions find the same. -/
theorem sameDecisions_of_eq {request : RequestWithPrincipal ρ}
    {principal : AuthenticatedPrincipal} (h : Unresolved request principal)
    {hookResolver guardResolver : Option (OrgIdResolver ρ)}
    (horg : resolveOrgId hookResolver request principal =
      resolveOrgId guardResolver request principal)
    (casing : LowerCasing) (s : AuthorizationStore) (now : ℤ) {required : List PermissionArg}
    (hrequired : ∀ permission ∈ required, permission.WellFormed casing) :
    ∃ after, resolvePrincipal casing s hookResolver now request = .ok after ∧
      SameDecisions casing s required guardResolver now after request := by
  obtain ⟨effective, heffective, -⟩ := PermissionChecker.resolveEffectivePermissions_ok casing s
    principal.userId (resolveOrgId hookResolver request principal) now
  obtain ⟨after, hafter, hguard⟩ := resolvePrincipal_unresolved h heffective
  rw [horg] at heffective
  obtain ⟨requiredList, hlist, hdecide⟩ := exists_requiredList hrequired
  obtain ⟨hany, hall⟩ := hdecide _ _ fun _ _ hp =>
    checkCachedPermission_keys hp effective
  refine ⟨after, hafter, fun permission hmem => ?_, ?_, ?_⟩
  · obtain ⟨p, hp⟩ := hrequired permission hmem
    rw [requirePermission, hguard, permissionGuard_unresolved h
      (PermissionChecker.hasPermission_eq heffective hp), checkCachedPermission_keys hp]
  · rw [requireAnyPermission, hguard, permissionGuard_unresolved h
      (PermissionChecker.hasAnyPermission_eq heffective hlist)]
    exact congrArg _ (congrArg _ hany)
  · rw [requireAllPermissions, hguard, permissionGuard_unresolved h
      (PermissionChecker.hasAllPermissions_eq heffective hlist)]
    exact congrArg _ (congrArg _ hall)

/-! ## Telling two resolutions apart -/

/-- `users:read`. -/
def usersRead : Permission := ⟨"users", "read", by decide, by decide⟩

/-- A role with one permission. -/
def roleGranting (permission : Permission) : Role where
  id := "reader"
  name := "Reader"
  description := none
  isSystemRole := false
  permissions := PermissionSet.ofPermissions [permission]
  createdAt := 0
  updatedAt := 0

/-- A store in which a user holds one role. -/
def holderStore (role : Role) (userId : String) (orgId : Option String) (expiresAt : Option ℤ) :
    AuthorizationStore where
  rolesById := KeyedMap.empty.put role
  assignmentsById := KeyedMap.empty.put
    { id := "assignment", userId, roleId := role.id, orgId, assignedAt := 0, assignedBy := "admin",
      expiresAt }

/-- A store in which a user holds a role that grants `users:read`. -/
def readerStore (userId : String) (orgId : Option String) (expiresAt : Option ℤ) :
    AuthorizationStore := holderStore (roleGranting usersRead) userId orgId expiresAt

/-- What the user of that store is granted. -/
theorem granted_readerStore {userId : String} {orgId scope : Option String} {expiresAt : Option ℤ}
    {now : ℤ} : (∃ g, (readerStore userId orgId expiresAt).Granted userId scope now g ∧
      g.matches usersRead = true) ↔
        (orgId = scope ∨ orgId = none) ∧ ∀ t, expiresAt = some t → now < t := by
  have hexpired : ∀ a : UserRoleAssignment, a.expiresAt = expiresAt →
      (a.isExpired now = false ↔ ∀ t, expiresAt = some t → now < t) := by
    rintro a rfl
    unfold UserRoleAssignment.isExpired
    split <;> rename_i h <;> simp [h]
  constructor
  · rintro ⟨g, ⟨a, ha, ⟨-, hscope, hactive⟩, -⟩, -⟩
    obtain rfl := List.mem_singleton.mp ha
    exact ⟨hscope, (hexpired _ rfl).mp hactive⟩
  · rintro ⟨hscope, hactive⟩
    refine ⟨usersRead, ⟨_, List.mem_singleton_self _, ⟨rfl, hscope, (hexpired _ rfl).mpr hactive⟩,
      _, rfl, ?_⟩, by decide +kernel⟩
    exact PermissionSet.grants_ofPermissions.mpr (List.mem_singleton_self _)

/-- If the hook keeps all decisions, the two resolutions find the same in every store. -/
theorem HookKeepsDecisions.granted_iff {casing : LowerCasing} {request : RequestWithPrincipal ρ}
    {hookResolver guardResolver : Option (OrgIdResolver ρ)} {hookTime guardTime : ℤ}
    (hkeeps : HookKeepsDecisions casing request hookResolver guardResolver hookTime guardTime)
    {principal : AuthenticatedPrincipal} (h : Unresolved request principal)
    (s : AuthorizationStore) (required : Permission) :
    (∃ g, s.Granted principal.userId (resolveOrgId hookResolver request principal) hookTime g ∧
      g.matches required = true) ↔
    ∃ g, s.Granted principal.userId (resolveOrgId guardResolver request principal) guardTime g ∧
      g.matches required = true := by
  have hread : (PermissionArg.permission required).create casing = .ok required := rfl
  obtain ⟨effective, heffective, hmem⟩ := PermissionChecker.resolveEffectivePermissions_ok casing s
    principal.userId (resolveOrgId hookResolver request principal) hookTime
  obtain ⟨after, hafter, hguard⟩ := resolvePrincipal_unresolved h heffective
  obtain ⟨answer, hanswer, hiff⟩ := PermissionChecker.hasPermission_ok hread s principal.userId
    (resolveOrgId guardResolver request principal) guardTime
  obtain ⟨after', hafter', hsame, -⟩ := hkeeps s [.permission required] (by simpa using ⟨_, hread⟩)
  obtain rfl : after = after' := Except.ok.inj (hafter.symm.trans hafter')
  have hdecision := hsame _ (List.mem_singleton_self _)
  rw [requirePermission, hguard, permissionGuard_unresolved h hanswer,
    checkCachedPermission_keys hread] at hdecision
  have hbool : PermissionChecker.anyMatches effective required = answer := by
    cases hleft : PermissionChecker.anyMatches effective required <;> cases answer <;>
      simp [hleft, GuardDecision.of] at hdecision ⊢
  rw [← hiff, ← hbool, PermissionChecker.anyMatches_iff]
  simp [hmem]

/-- The hook changes no decision, whatever is stored and required, exactly when it does nothing or
resolves the organization that the guard would resolve, and does so at the time of the guard. -/
theorem guards_unchanged_iff (casing : LowerCasing) (request : RequestWithPrincipal ρ)
    (hookResolver guardResolver : Option (OrgIdResolver ρ)) (hookTime guardTime : ℤ) :
    HookKeepsDecisions casing request hookResolver guardResolver hookTime guardTime ↔
      ∀ principal, Unresolved request principal →
        resolveOrgId hookResolver request principal =
          resolveOrgId guardResolver request principal ∧ hookTime = guardTime := by
  constructor
  · intro hkeeps principal h
    have horgs := fun x =>
      hkeeps.granted_iff h (readerStore principal.userId (some x) none) usersRead
    have htimes := fun t =>
      hkeeps.granted_iff h (readerStore principal.userId none (some t)) usersRead
    simp only [granted_readerStore] at horgs htimes
    constructor
    · refine Option.ext fun x => ?_
      simpa [eq_comm] using horgs x
    · have hlt := htimes (max hookTime guardTime)
      simp only [or_true, true_and, Option.some.injEq, forall_eq', lt_max_iff, lt_irrefl,
        false_or, or_false] at hlt
      omega
  · intro hsame s required hrequired
    by_cases hunresolved : ∃ principal, Unresolved request principal
    · obtain ⟨principal, h⟩ := hunresolved
      obtain ⟨horg, rfl⟩ := hsame principal h
      exact sameDecisions_of_eq h horg casing s hookTime hrequired
    · refine ⟨request, resolvePrincipal_of_not_unresolved (not_exists.mp hunresolved) casing s
        hookResolver hookTime, fun _ _ => rfl, rfl, rfl⟩

/-- A request in one organization for a route of another: the hook, which has no resolver, grants
what the guard's own resolver would refuse. -/
theorem hook_grants_across_organizations :
    ¬ HookKeepsDecisions asciiLowerCasing
      (⟨some { userId := "alice", orgId := some "org-a" }, "org-b"⟩ : RequestWithPrincipal String)
      none (some fun request => some request.rest) 0 0 := by
  intro hkeeps
  have h := hkeeps.granted_iff ⟨rfl, by decide, rfl⟩ (readerStore "alice" (some "org-a") none)
    usersRead
  simp only [granted_readerStore] at h
  exact absurd (h.mp ⟨Or.inl rfl, by simp⟩).1 (by decide)

end Verixa.Authorization
