import Verixa.Authorization.SystemRoles

/-!
# Who may change roles and assignments

Of every change that a request makes, in whatever way the requests interleave, its journal shows
that the user of the request was seen to hold `roles:write` in the organization of the request
before.  An assignment is made in that organization and in the name of that user; one that users
make to themselves is of a role all of whose permissions they were seen to hold.
-/

namespace Verixa.Authorization

open Concurrency

/-! ## What a deed needs -/

/-- The user of the request was seen to hold a permission in the organization of the request. -/
def SeenHolding (request : AdminRequest) (key : String) (deeds : List AdminDeed) : Prop :=
  ∃ userId organizationId roles, request.userId = some userId ∧
    request.organizationId = some organizationId ∧
    .sawRoles userId organizationId roles ∈ deeds ∧
    (roles.any fun role => role.hasPermission key) = true

/-- The request may make an assignment. -/
structure AssignmentAllowed (request : AdminRequest) (deeds : List AdminDeed)
    (assignment : RoleAssignment) : Prop where
  own_organization : request.organizationId = some assignment.organizationId
  own_name : assignment.assignedBy = request.userId
  to_self : request.userId = some assignment.userId →
    ∃ role, .sawRole role ∈ deeds ∧ role.id = assignment.roleId ∧
      ∀ key ∈ role.permissions, SeenHolding request key deeds

/-- What a deed needs of the earlier deeds of its thread. -/
def DeedAllowed (request : AdminRequest) (deeds : List AdminDeed) (deed : AdminDeed) : Prop :=
  (deed.isReading = false → SeenHolding request "roles:write" deeds) ∧
    ∀ assignment, deed = .assigned assignment → AssignmentAllowed request deeds assignment

/-- The deeds of a thread in a part of the journal. -/
def deedsIn (i : ℕ) (journal : List (ℕ × AdminDeed)) : List AdminDeed :=
  (journal.filter fun p => p.1 = i).map Prod.snd

/-- Every deed of the requests is allowed by what its request had seen before. -/
def WritesAuthorized (P : AdminPool) : Prop :=
  ∀ i t, P.threads i = some t → ∀ deed earlier, (i, deed) :: earlier <:+ P.store.journal →
    DeedAllowed t.command (deedsIn i earlier) deed

/-! ## The law of changes -/

/-- The law of changes, when it is known which request each thread is. -/
def changeLaw (requests : ℕ → AdminRequest) : JournalLaw AdminStore AdminDeed where
  journal := AdminStore.journal
  inv s := ∀ i deed earlier, (i, deed) :: earlier <:+ s.journal →
    DeedAllowed (requests i) (deedsIn i earlier) deed
  order _ _ := True
  order_refl _ := trivial
  order_trans _ _ _ _ _ := trivial

/-- What a statement needs of the deeds of its thread. -/
def CallAllowed (request : AdminRequest) (deeds : List AdminDeed) : AdminCall → Prop
  | .createRole _ | .updateRole _ _ _ | .deleteRole _ | .upsertRolePermission _ _
  | .deleteRolePermissions _ _ | .deleteAssignment _ => SeenHolding request "roles:write" deeds
  | .createAssignment assignment =>
    SeenHolding request "roles:write" deeds ∧ AssignmentAllowed request deeds assignment
  | _ => True

section Law

variable {requests : ℕ → AdminRequest} {s t : AdminStore} {i : ℕ} {q : AdminCall}

/-- What is added to the journal is a deed that the statement is allowed to do. -/
theorem deed_of_effect (h : AdminEffect i s q t) :
    t.journal = s.journal ∨ ∃ deed, t.journal = (i, deed) :: s.journal ∧
      ∀ request deeds, CallAllowed request deeds q → DeedAllowed request deeds deed := by
  have hother : ∀ {deed : AdminDeed} {request deeds},
      SeenHolding request "roles:write" deeds → (∀ assignment, deed ≠ .assigned assignment) →
        DeedAllowed request deeds deed :=
    fun hseen hdeed => ⟨fun _ => hseen, fun assignment heq => absurd heq (hdeed assignment)⟩
  cases h with
  | nothing => exact .inl rfl
  | @saw _ deed hdeed =>
    refine .inr ⟨deed, rfl, fun request deeds _ => ⟨fun hwrite => ?_, fun assignment heq => ?_⟩⟩
    · rw [hdeed] at hwrite
      cases hwrite
    · rw [heq] at hdeed
      cases hdeed
  | assigned =>
    refine .inr ⟨_, rfl, fun request deeds hallowed => ⟨fun _ => hallowed.1, ?_⟩⟩
    rintro assignment ⟨⟩
    exact hallowed.2
  | _ => exact .inr ⟨_, rfl, fun request deeds hseen => hother hseen (by rintro _ ⟨⟩)⟩

theorem isJournal_changeLaw : (changeLaw requests).IsJournal AdminStore.serve :=
  fun _ _ _ _ _ _ hserve => journal_of_effect (effect_of_serve hserve)

/-- Allowed statements keep the law. -/
theorem keptBy_changeLaw :
    (changeLaw requests).KeptBy AdminStore.serve (fun _ _ _ _ => True) fun i s q =>
      CallAllowed (requests i) (deedsIn i s.journal) q := by
  intro i s q ω r t hinv hjust _ hserve
  refine ⟨?_, trivial⟩
  rcases deed_of_effect (effect_of_serve hserve) with hsame | ⟨deed, hdeed, hallows⟩
  · intro j other earlier hsuffix
    exact hinv j other earlier (hsame ▸ hsuffix)
  · intro j other earlier hsuffix
    rw [hdeed] at hsuffix
    rcases List.suffix_cons_iff.mp hsuffix with heq | hsuffix
    · obtain ⟨hentry, rfl⟩ := List.cons.inj heq
      obtain ⟨rfl, rfl⟩ := Prod.mk.inj hentry
      exact hallows _ _ hjust
    · exact hinv j other earlier hsuffix

end Law

/-! ## Walking through the routes -/

section Walk

variable {requests : ℕ → AdminRequest} {s : AdminStore} {i : ℕ} {α β : Type}
  {deeds : List AdminDeed}

theorem SeenHolding.mono {request : AdminRequest} {key : String} {more : List AdminDeed}
    (h : SeenHolding request key deeds) (hsubset : deeds ⊆ more) :
    SeenHolding request key more := by
  obtain ⟨userId, organizationId, roles, huser, horganization, hmem, hholds⟩ := h
  exact ⟨userId, organizationId, roles, huser, horganization, hsubset hmem, hholds⟩

/-- The method keeps the law when the thread runs it, and ends as `post` says of the deeds of the
thread. -/
def Accounts (requests : ℕ → AdminRequest) (i : ℕ)
    (post : List AdminDeed → Except AdminFault α → Prop) (method : AdminMethod α)
    (s : AdminStore) : Prop :=
  Safe (changeLaw requests).contract AdminStore.serve (fun _ _ _ _ => True) i
    (fun t outcome => post (deedsIn i t.journal) outcome) method s

variable {post : List AdminDeed → Except AdminFault α → Prop}

theorem accounts_ret {outcome : Except AdminFault α} (h : post (deedsIn i s.journal) outcome) :
    Accounts requests i post (.ret outcome) s :=
  (changeLaw requests).safe_ret rfl fun t _ _ hknows => by
    have hsame : deedsIn i t.journal = deedsIn i s.journal := hknows
    rwa [hsame]

theorem accounts_return {outcome : Except AdminFault α} :
    Accounts requests i (fun _ _ => True) (.ret outcome) s := accounts_ret trivial

/-- A statement that is allowed; the thread has more deeds after it. -/
theorem accounts_call {q : AdminCall} {k : q.Answer → AdminMethod α}
    (hallowed : CallAllowed (requests i) (deedsIn i s.journal) q)
    (h : ∀ t ω r u, AdminStore.serve i t q ω = some (r, u) →
      deedsIn i t.journal = deedsIn i s.journal →
        deedsIn i s.journal ⊆ deedsIn i u.journal → Accounts requests i post (k r) u) :
    Accounts requests i post (.call q k) s := by
  refine (changeLaw requests).safe_call isJournal_changeLaw keptBy_changeLaw rfl ?_ ?_
  · intro t _ _ hknows
    have hsame : deedsIn i t.journal = deedsIn i s.journal := hknows
    rwa [hsame]
  · intro t ω r u _ _ hknows _ hserve _ _
    have hsame : deedsIn i t.journal = deedsIn i s.journal := hknows
    refine h t ω r u hserve hsame ?_
    obtain ⟨added, hadded⟩ := journal_of_effect (effect_of_serve hserve)
    have hmore := JournalLaw.deedsOf_of_journal (J := changeLaw requests) (i := i) hadded
    have hu : deedsIn i u.journal = added ++ deedsIn i t.journal := hmore
    rw [hu, hsame]
    exact List.subset_append_right _ _

/-- Sequencing. -/
theorem accounts_awaiting (mid : List AdminDeed → Except AdminFault β → Prop)
    {method : AdminMethod β} {rest : β → AdminMethod α} (hmethod : Accounts requests i mid method s)
    (hfault : ∀ deeds fault, mid deeds (.error fault) → post deeds (.error fault))
    (hrest : ∀ t value, mid (deedsIn i t.journal) (.ok value) →
      Accounts requests i post (rest value) t) :
    Accounts requests i post (awaiting method rest) s :=
  Safe.awaiting hmethod (fun _ fault hmid => accounts_ret (hfault _ fault hmid)) hrest

theorem accounts_trying {mid : List AdminDeed → Except AdminFault α → Prop}
    {method : AdminMethod α} {reply : α → AdminReply} (hmethod : Accounts requests i mid method s) :
    Accounts requests i (fun _ _ => True) (trying method reply) s := by
  refine Safe.bind hmethod fun t outcome _ => ?_
  cases outcome with
  | error fault => exact accounts_return
  | ok value => exact accounts_return

/-- A program that makes no assignment, when changes are allowed. -/
theorem accounts_of_calls {p : AdminMethod α}
    (hp : p.Calls fun q => ∀ assignment, q ≠ .createAssignment assignment)
    (hseen : SeenHolding (requests i) "roles:write" (deedsIn i s.journal)) :
    Accounts requests i (fun _ _ => True) p s := by
  induction hp generalizing s with
  | ret a => exact accounts_ret trivial
  | @call q k hq _ ih =>
    refine accounts_call ?_ fun t ω r u _ _ hsubset => ih r (hseen.mono hsubset)
    cases q with
    | createAssignment assignment => exact absurd rfl (hq assignment)
    | createRole _ | updateRole _ _ _ | deleteRole _ | upsertRolePermission _ _
    | deleteRolePermissions _ _ | deleteAssignment _ => exact hseen
    | _ => trivial

/-- A call that reads. -/
def AdminCall.IsReading (q : AdminCall) : Prop := ∀ request deeds, CallAllowed request deeds q

/-- A program that only reads. -/
theorem accounts_of_reading {p : AdminMethod α} (hp : p.Calls AdminCall.IsReading) :
    Accounts requests i (fun _ _ => True) p s := by
  induction hp generalizing s with
  | ret a => exact accounts_ret trivial
  | call hq _ ih => exact accounts_call (hq _ _) fun t ω r u _ _ _ => ih r

theorem calls_trying {kind : AdminCall → Prop} {method : AdminMethod α} {reply : α → AdminReply}
    (hmethod : method.Calls kind) : (trying method reply).Calls kind := by
  refine Program.Calls.bind hmethod fun outcome => ?_
  cases outcome with
  | error fault => exact .ret _
  | ok value => exact .ret _

/-- What is known after a permission was asked for. -/
def HeldAfter (request : AdminRequest) (key : String) (before deeds : List AdminDeed)
    (outcome : Except AdminFault Bool) : Prop :=
  before ⊆ deeds ∧ (outcome = .ok true → SeenHolding request key deeds)

/-- Asking for a permission of the user of the request. -/
theorem accounts_hasPermission {userId key : String} (huser : (requests i).userId = some userId) :
    Accounts requests i (HeldAfter (requests i) key (deedsIn i s.journal))
      (PrismaAuthorizationRepository.hasPermission userId (requests i).organizationId key) s := by
  cases horganization : (requests i).organizationId with
  | none => exact accounts_ret ⟨List.Subset.refl _, by rintro ⟨⟩⟩
  | some organizationId =>
    refine accounts_call (q := .now) trivial fun t ω now u _ _ hsubset => ?_
    refine accounts_call (q := .findActiveRoles userId organizationId now) trivial ?_
    intro v ω outcome w hserve _ hsubset'
    have hmore := List.Subset.trans hsubset hsubset'
    cases ω with
    | carriedOut refusal =>
      obtain ⟨rfl, rfl⟩ := Prod.mk.inj (Option.some.inj hserve)
      refine accounts_ret ⟨hmore, fun hheld => ?_⟩
      refine ⟨userId, organizationId, _, huser, horganization, ?_, Except.ok.inj hheld⟩
      exact List.mem_map.mpr ⟨_, List.mem_filter.mpr ⟨List.mem_cons_self, by simp⟩, rfl⟩
    | failed message =>
      obtain ⟨rfl, rfl⟩ := Prod.mk.inj (Option.some.inj hserve)
      exact accounts_ret ⟨hmore, by rintro ⟨⟩⟩
    | _ => cases hserve

/-- A handler behind the check of a permission. -/
theorem accounts_requirePermission {permission : String} {handler : AdminMethod AdminReply}
    (h : ∀ t, SeenHolding (requests i) permission (deedsIn i t.journal) →
      Accounts requests i (fun _ _ => True) handler t) :
    Accounts requests i (fun _ _ => True)
      (requireRolePermission (requests i) permission handler) s := by
  rw [requireRolePermission]
  split
  · exact accounts_ret trivial
  · rename_i userId huser
    refine accounts_awaiting _ (accounts_hasPermission huser) (fun _ _ _ => trivial) ?_
    intro t allowed hheld
    cases allowed with
    | false => exact accounts_ret trivial
    | true => exact h t (hheld.2 rfl)

/-- Asking for all permissions of a role. -/
theorem accounts_canGrant {actorId : String} {permissions : List String}
    (huser : (requests i).userId = some actorId) :
    Accounts requests i (fun deeds outcome => deedsIn i s.journal ⊆ deeds ∧
        ∀ allowed, outcome = .ok allowed → allowed.all id = true →
          ∀ key ∈ permissions, SeenHolding (requests i) key deeds)
      (canGrant (requests i) actorId permissions) s := by
  induction permissions generalizing s with
  | nil => exact accounts_ret ⟨List.Subset.refl _, by simp⟩
  | cons permission permissions ih =>
    refine accounts_awaiting _ (accounts_hasPermission huser) ?_ ?_
    · rintro deeds fault ⟨hsubset, -⟩
      exact ⟨hsubset, by rintro _ ⟨⟩⟩
    rintro t allowed ⟨hsubset, hheld⟩
    refine accounts_awaiting _ ih ?_ ?_
    · rintro deeds fault ⟨hsubset', -⟩
      exact ⟨List.Subset.trans hsubset hsubset', by rintro _ ⟨⟩⟩
    rintro u others ⟨hsubset', hothers⟩
    refine accounts_ret ⟨List.Subset.trans hsubset hsubset', ?_⟩
    rintro _ ⟨⟩ hall key hkey
    obtain ⟨hfirst, hrest⟩ := Bool.and_eq_true_iff.mp hall
    rcases List.mem_cons.mp hkey with rfl | hkey
    · obtain rfl : allowed = true := hfirst
      exact (hheld rfl).mono hsubset'
    · exact hothers others rfl hrest key hkey

/-- Making an assignment that is allowed. -/
theorem accounts_assign {userId roleId organizationId : String} {expiresAt : Option ℤ}
    (hseen : SeenHolding (requests i) "roles:write" (deedsIn i s.journal))
    (horganization : (requests i).organizationId = some organizationId)
    (hself : (requests i).userId = some userId → ∃ role, .sawRole role ∈ deedsIn i s.journal ∧
      role.id = roleId ∧ ∀ key ∈ role.permissions,
        SeenHolding (requests i) key (deedsIn i s.journal)) :
    Accounts requests i (fun _ _ => True)
      (assign (requests i) userId roleId organizationId expiresAt) s := by
  refine accounts_awaiting (fun _ _ => True) ?_ (fun _ _ _ => trivial)
    fun t assignment _ => accounts_ret trivial
  refine accounts_awaiting (fun deeds _ => deedsIn i s.journal ⊆ deeds) ?_
    (fun _ _ _ => trivial) fun t role hsubset => ?_
  · exact accounts_call (q := .findRole roleId) trivial fun t ω r u _ _ hsubset =>
      accounts_ret hsubset
  cases role with
  | none => exact accounts_ret trivial
  | some role =>
    refine accounts_call (q := .now) trivial fun u ω now v _ _ hnow => ?_
    refine accounts_awaiting (fun deeds _ => deedsIn i v.journal ⊆ deeds) ?_
      (fun _ _ _ => trivial) fun w existing hfound => ?_
    · exact accounts_call (q := .findActiveAssignment userId roleId organizationId now) trivial
        fun t ω r u _ _ hsubset => accounts_ret hsubset
    cases existing with
    | some existing => exact accounts_ret trivial
    | none =>
      refine accounts_call (q := .randomUUID) trivial fun x ω id y _ _ hdrawn => ?_
      refine accounts_call (q := .now) trivial fun z ω assignedAt z' _ _ hread => ?_
      have hmore : deedsIn i s.journal ⊆ deedsIn i z'.journal :=
        fun deed hdeed => hread (hdrawn (hfound (hnow (hsubset hdeed))))
      refine accounts_call (q := .createAssignment _) ⟨hseen.mono hmore, horganization, rfl, ?_⟩
        fun t ω r u _ _ _ => accounts_ret trivial
      intro hactor
      obtain ⟨role, hmem, hrole, hholds⟩ := hself hactor
      exact ⟨role, hmore hmem, hrole, fun key hkey => (hholds key hkey).mono hmore⟩

/-- Reading a role of the catalog, which is seen. -/
theorem accounts_getRole {roleId : String} :
    Accounts requests i (fun deeds outcome => deedsIn i s.journal ⊆ deeds ∧
        ∀ role, outcome = .ok (some role) → .sawRole role ∈ deeds ∧ role.id = roleId)
      (PrismaAuthorizationRepository.getRole roleId) s := by
  refine accounts_call (q := .getRole roleId) trivial fun t ω outcome u hserve _ hsubset => ?_
  refine accounts_ret ⟨hsubset, fun role hrole => ?_⟩
  subst hrole
  cases ω with
  | carriedOut refusal =>
    change t.perform i refusal (.getRole roleId) = some (.ok (some role), u) at hserve
    simp only [AdminStore.perform] at hserve
    split at hserve
    · cases hserve
    · rename_i found hfound
      cases hserve
      obtain ⟨row, hrow, rfl⟩ := Option.map_eq_some_iff.mp hfound
      have hid : row.id = roleId := KeyedMap.key_of_get? hrow
      refine ⟨?_, hid⟩
      exact List.mem_map.mpr ⟨_, List.mem_filter.mpr ⟨List.mem_cons_self, by simp⟩, rfl⟩
  | _ => cases hserve

/-- The check before an assignment. -/
theorem accounts_assignChecked {userId roleId organizationId : String} {expiresAt : Option ℤ}
    (hseen : SeenHolding (requests i) "roles:write" (deedsIn i s.journal))
    (horganization : (requests i).organizationId = some organizationId) :
    Accounts requests i (fun _ _ => True)
      (assignChecked (requests i) userId roleId organizationId expiresAt) s := by
  refine accounts_awaiting _ accounts_getRole (fun _ _ _ => trivial) ?_
  rintro t role ⟨hsubset, hrole⟩
  have hseen_t := hseen.mono hsubset
  cases role with
  | none => exact accounts_ret trivial
  | some targetRole =>
    obtain ⟨hmem, hid⟩ := hrole targetRole rfl
    cases huser : (requests i).userId with
    | none =>
      refine accounts_assign hseen_t horganization fun hactor => ?_
      rw [huser] at hactor
      cases hactor
    | some actorId =>
      change Accounts requests i _ (if actorId = userId then _ else _) t
      split_ifs with hself
      · refine accounts_awaiting _ (accounts_canGrant huser) (fun _ _ _ => trivial) ?_
        rintro u allowed ⟨hmore, hgrants⟩
        split_ifs with hall
        · refine accounts_assign (hseen_t.mono hmore) horganization fun _ => ?_
          exact ⟨targetRole, hmore hmem, hid, hgrants allowed rfl hall⟩
        · exact accounts_ret trivial
      · refine accounts_assign hseen_t horganization fun hactor => ?_
        exact absurd (Option.some.inj (huser.symm.trans hactor)) hself

theorem accounts_postUserRole {userId roleId : String} {organizationId : Option String}
    {expiresAt : Option ℤ}
    (hseen : SeenHolding (requests i) "roles:write" (deedsIn i s.journal)) :
    Accounts requests i (fun _ _ => True)
      (postUserRole (requests i) userId roleId organizationId expiresAt) s := by
  rw [postUserRole]
  split
  · exact accounts_ret trivial
  split_ifs with horganization
  · exact accounts_ret trivial
  exact accounts_trying (accounts_assignChecked hseen (not_not.mp horganization))

end Walk

/-! ## The calls of the routes -/

section Calls

variable {α : Type}

/-- No assignment is made. -/
def AdminCall.AssignsNothing (q : AdminCall) : Prop :=
  ∀ assignment, q ≠ .createAssignment assignment

theorem calls_createRole {name description : String} :
    (PrismaAuthorizationRepository.createRole name description false).Calls
      AdminCall.AssignsNothing :=
  .call (by rintro _ ⟨⟩) fun _ => Program.Calls.perform (by rintro _ ⟨⟩)

theorem calls_deleteRole {id : String} :
    (PrismaAuthorizationRepository.deleteRole id).Calls AdminCall.AssignsNothing := by
  refine Program.Calls.awaiting (Program.Calls.perform (by rintro _ ⟨⟩)) fun found => ?_
  rcases found with _ | (_ | _)
  · exact .ret _
  · exact Program.Calls.perform (by rintro _ ⟨⟩)
  · exact .ret _

theorem calls_grantPermission {roleId key : String} :
    (PrismaAuthorizationRepository.grantPermission roleId key).Calls AdminCall.AssignsNothing := by
  refine Program.Calls.awaiting (Program.Calls.perform (by rintro _ ⟨⟩)) fun found => ?_
  cases found with
  | none => exact .ret _
  | some permission =>
    refine Program.Calls.awaiting (Program.Calls.perform (by rintro _ ⟨⟩)) fun found => ?_
    cases found with
    | none => exact .ret _
    | some isSystemRole =>
      dsimp only
      split_ifs
      · exact .ret _
      · refine Program.Calls.awaiting (Program.Calls.perform (by rintro _ ⟨⟩)) fun _ => ?_
        exact Program.Calls.perform (by rintro _ ⟨⟩)

theorem calls_revokePermission {roleId key : String} :
    (PrismaAuthorizationRepository.revokePermission roleId key).Calls AdminCall.AssignsNothing := by
  refine Program.Calls.awaiting (Program.Calls.perform (by rintro _ ⟨⟩)) fun found => ?_
  cases found with
  | none => exact .ret _
  | some permission =>
    refine Program.Calls.awaiting (Program.Calls.perform (by rintro _ ⟨⟩)) fun found => ?_
    rcases found with _ | (_ | _)
    · exact .ret _
    · refine Program.Calls.awaiting (Program.Calls.perform (by rintro _ ⟨⟩)) fun _ => ?_
      exact Program.Calls.perform (by rintro _ ⟨⟩)
    · exact .ret _

theorem calls_getUserRoles {kind : AdminCall → Prop} {request : AdminRequest} {userId : String}
    {organizationId : Option String} (hkind : ∀ asked, kind (.findAssignments userId asked)) :
    (getUserRoles request userId organizationId).Calls kind := by
  rw [getUserRoles]
  split
  · exact .ret _
  split_ifs
  · exact .ret _
  · exact Program.Calls.awaiting (Program.Calls.perform (hkind _)) fun _ => .ret _

end Calls

/-! ## Runs -/

section Runs

variable {requests : ℕ → AdminRequest} {s : AdminStore} {i : ℕ} {P : AdminPool}

/-- A route that assigns nothing. -/
theorem accounts_unassigning {method : AdminMethod AdminReply}
    (hmethod : method.Calls AdminCall.AssignsNothing) :
    Accounts requests i (fun _ _ => True)
      (requireRolePermission (requests i) "roles:write" method) s :=
  accounts_requirePermission fun _ hseen => accounts_of_calls hmethod hseen

/-- Every request keeps the law. -/
theorem accounts_handle : Accounts requests i (fun _ _ => True) (handle (requests i)) s := by
  rw [handle]
  split
  · refine accounts_requirePermission fun t _ => accounts_of_reading ?_
    exact Program.Calls.awaiting (Program.Calls.perform fun _ _ => trivial) fun _ => .ret _
  · refine accounts_unassigning ?_
    split_ifs
    · exact .ret _
    · exact calls_trying calls_createRole
  · exact accounts_unassigning (calls_trying (Program.Calls.perform (by rintro _ ⟨⟩)))
  · exact accounts_unassigning (calls_trying calls_deleteRole)
  · refine accounts_requirePermission fun t _ => accounts_of_reading ?_
    exact Program.Calls.awaiting (Program.Calls.perform fun _ _ => trivial) fun _ => .ret _
  · exact accounts_unassigning (calls_trying calls_grantPermission)
  · exact accounts_unassigning (calls_trying calls_revokePermission)
  · exact accounts_requirePermission fun t _ => accounts_of_reading <|
      calls_getUserRoles fun _ _ _ => trivial
  · exact accounts_requirePermission fun t hseen => accounts_postUserRole hseen
  · exact accounts_unassigning (calls_trying (Program.Calls.perform (by rintro _ ⟨⟩)))

instance : Nonempty AdminRequest := ⟨⟨none, none, .getRoles⟩⟩

/-- In every run, what the requests do is allowed by what they have seen before. -/
theorem writes_stay_authorized (hjournal : s.journal = [])
    (hrun : Run AdminPool.step (Pool.initial s) P) : WritesAuthorized P := by
  obtain ⟨requests, hrequests, hknown⟩ := exists_commands hrun
  have hallowed : RunWhile AdminPool.step
      (fun Q e => e.StartsIn (fun i c => c = requests i) ∧ Q.Allows (fun _ _ _ _ => True) e)
      (Pool.initial s) P :=
    hknown.mono fun Q e h => ⟨h.1, Pool.allows_of_forall (fun _ _ _ _ => trivial) Q e⟩
  have hbody : ∀ i request t, request = requests i → (changeLaw requests).inv t →
      (changeLaw requests).deedsOf i t = [] →
        Safe (changeLaw requests).contract AdminStore.serve (fun _ _ _ _ => True) i
          (fun _ _ => True) (handle request) t := by
    rintro i _ t rfl - -
    exact accounts_handle
  have hinv : (changeLaw requests).inv s := by
    intro j deed earlier hsuffix
    rw [hjournal] at hsuffix
    cases List.suffix_nil.mp hsuffix
  have hsound := (changeLaw requests).sound_of_run_startsIn hbody hinv hjournal hallowed
  intro j t hj deed earlier hsuffix
  rw [hrequests j t hj]
  exact hsound.inv j deed earlier hsuffix

end Runs

/-- The manager gives herself the system role, and then to `bob` the role she holds. -/
def rolesAssigned : AdminPool :=
  (exec AdminPool.step (Pool.initial sampleTables)
    [.start 1 (annRequests (.postUserRole "ann" "super" none none)),
      .start 2 (annRequests (.postUserRole "bob" "manager" none none)),
      .answer 2 (.time 0), .answer 1 (.time 0), .answer 1 (.carriedOut ""),
      .answer 2 (.carriedOut ""), .answer 1 (.carriedOut ""), .answer 2 (.carriedOut ""),
      .answer 1 (.time 1), .answer 1 (.carriedOut ""), .answer 2 (.carriedOut ""),
      .answer 2 (.time 1), .answer 2 (.carriedOut ""), .answer 2 (.drawn "given"),
      .answer 2 (.time 2), .answer 2 (.carriedOut "")]).get (by decide +kernel)

/-- The first is refused, the second is done. -/
theorem writes_stay_authorized_assigned :
    WritesAuthorized rolesAssigned ∧
      (rolesAssigned.returned 1).map (fun p => p.2) = some (.ok ⟨403, .error "Forbidden"⟩) ∧
      (2, AdminDeed.assigned ⟨"given", "bob", "manager", "org", 2, some "ann", none⟩) ∈
        rolesAssigned.store.journal :=
  ⟨writes_stay_authorized rfl (runWhile_get _), by rfl, by decide +kernel⟩

end Verixa.Authorization
