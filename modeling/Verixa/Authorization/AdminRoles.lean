import Verixa.Authorization.Role
import Verixa.Concurrency.Throwing

/-!
# The administration of roles

The routes under which roles, their permissions and their assignments are managed, over the tables
that `PrismaAuthorizationRepository` works on.  Every statement is one call; what several statements
of a request do is interleaved with other requests.

Reading the clock, drawing ids and a database that does not answer are outside.  A journal is kept
for what is said about runs, and read by nothing else.
-/

namespace Verixa.Authorization

open Concurrency Encoding

/-! ## The tables -/

/-- A row of `roles`. -/
structure RoleRow where
  id : String
  name : String
  description : Option String
  isSystemRole : Bool
  deriving DecidableEq

/-- The row after an update with the fields that are given. -/
def RoleRow.withInput (row : RoleRow) (name description : Option String) : RoleRow :=
  { row with name := name.getD row.name, description := description <|> row.description }

/-- A row of `permissions`. -/
structure PermissionRow where
  id : String
  key : String
  description : Option String
  deriving DecidableEq

/-- A row of `user_role_assignments`. -/
structure RoleAssignment where
  id : String
  userId : String
  roleId : String
  organizationId : String
  assignedAt : ℤ
  assignedBy : Option String
  expiresAt : Option ℤ
  deriving DecidableEq

/-- `OR: [{ expiresAt: null }, { expiresAt: { gt: now } }]`. -/
def RoleAssignment.isActive (assignment : RoleAssignment) (now : ℤ) : Bool :=
  match assignment.expiresAt with
  | none => true
  | some expiresAt => decide (now < expiresAt)

/-- What a request has seen or changed. -/
inductive AdminDeed where
  | sawRoles (userId organizationId : String) (roles : List RoleRecord)
  | sawRole (role : RoleRecord)
  | createdRole (role : RoleRow)
  | updatedRole (role : RoleRow)
  | deletedRole (id : String)
  | granted (roleId permissionId : String)
  | revoked (roleId permissionId : String)
  | assigned (assignment : RoleAssignment)
  | unassigned (id : String)
  deriving DecidableEq

/-- The tables, and what the requests have done. -/
structure AdminStore where
  rolesById : KeyedMap RoleRow.id
  permissionsByKey : KeyedMap PermissionRow.key
  rolePermissions : List (String × String)
  assignmentsById : KeyedMap RoleAssignment.id
  journal : List (ℕ × AdminDeed)

namespace AdminStore

/-- Enters a deed of a thread. -/
def note (s : AdminStore) (i : ℕ) (deed : AdminDeed) : AdminStore :=
  { s with journal := (i, deed) :: s.journal }

/-- `map(row)`, with the keys of the permissions that are joined. -/
def recordOf (s : AdminStore) (row : RoleRow) : RoleRecord where
  id := row.id
  name := row.name
  description := row.description.getD ""
  isSystemRole := row.isSystemRole
  permissions := (s.permissionsByKey.values.filter fun permission =>
    decide ((row.id, permission.id) ∈ s.rolePermissions)).map PermissionRow.key

/-- The record of a stored role. -/
def roleRecord? (s : AdminStore) (id : String) : Option RoleRecord :=
  (s.rolesById.get? id).map s.recordOf

/-- The roles of the active assignments of a user in an organization. -/
def activeRoles (s : AdminStore) (userId organizationId : String) (now : ℤ) : List RoleRecord :=
  (s.assignmentsById.values.filter fun assignment =>
    decide (assignment.userId = userId) && decide (assignment.organizationId = organizationId) &&
      assignment.isActive now).filterMap fun assignment => s.roleRecord? assignment.roleId

/-- The assignments that are left when a role is gone. -/
def assignmentsWithout (s : AdminStore) (roleId : String) : KeyedMap RoleAssignment.id :=
  let gone := s.assignmentsById.values.filter fun assignment => decide (assignment.roleId = roleId)
  gone.foldl (fun left assignment => left.erase assignment.id) s.assignmentsById

/-- Some other role has the name. -/
def isNameTaken (s : AdminStore) (id name : String) : Bool :=
  s.rolesById.values.any fun row => decide (row.id ≠ id ∧ row.name = name)

end AdminStore

/-! ## Calls -/

inductive AuthorizationErrorCode where
  | notFound
  | forbidden
  | conflict
  | invalid
  deriving DecidableEq

/-- `code`, which is the message too. -/
def AuthorizationErrorCode.text : AuthorizationErrorCode → String
  | .notFound => "NOT_FOUND"
  | .forbidden => "FORBIDDEN"
  | .conflict => "CONFLICT"
  | .invalid => "INVALID"

/-- What the repository throws: an error of its own, or what the database throws. -/
inductive AdminFault where
  | authorization (code : AuthorizationErrorCode)
  | database (message : String)
  deriving DecidableEq

def AdminFault.message : AdminFault → String
  | .authorization code => code.text
  | .database message => message

/-- A call made by the routes: the clock, a random id, or a statement. -/
inductive AdminCall where
  | now
  | randomUUID
  | findActiveRoles (userId organizationId : String) (now : ℤ)
  | findRoles
  | getRole (id : String)
  | findRole (id : String)
  | findIsSystemRole (id : String)
  | createRole (row : RoleRow)
  | updateRole (id : String) (name description : Option String)
  | deleteRole (id : String)
  | findPermissions
  | findPermission (key : String)
  | upsertRolePermission (roleId permissionId : String)
  | deleteRolePermissions (roleId permissionId : String)
  | findAssignments (userId : String) (organizationId : Option String)
  | findActiveAssignment (userId roleId organizationId : String) (now : ℤ)
  | createAssignment (assignment : RoleAssignment)
  | deleteAssignment (id : String)

/-- What a call is answered with, or throws. -/
def AdminCall.Answer : AdminCall → Type
  | .now => ℤ
  | .randomUUID => String
  | .findActiveRoles _ _ _ | .findRoles => Except AdminFault (List RoleRecord)
  | .getRole _ => Except AdminFault (Option RoleRecord)
  | .findRole _ => Except AdminFault (Option RoleRow)
  | .findIsSystemRole _ => Except AdminFault (Option Bool)
  | .createRole _ | .updateRole _ _ _ => Except AdminFault RoleRecord
  | .findPermissions => Except AdminFault (List PermissionRow)
  | .findPermission _ => Except AdminFault (Option PermissionRow)
  | .findAssignments _ _ => Except AdminFault (List RoleAssignment)
  | .findActiveAssignment _ _ _ _ => Except AdminFault (Option RoleAssignment)
  | .createAssignment _ => Except AdminFault RoleAssignment
  | .deleteRole _ | .upsertRolePermission _ _ | .deleteRolePermissions _ _
  | .deleteAssignment _ => Except AdminFault Unit

/-- A program over these calls. -/
abbrev AdminProgram := Program AdminCall AdminCall.Answer

/-- A program that may throw. -/
abbrev AdminMethod (α : Type) := ThrowingProgram AdminCall AdminCall.Answer AdminFault α

/-- `throw new AuthorizationError(code)`. -/
def throwing {α : Type} (code : AuthorizationErrorCode) : AdminMethod α :=
  .ret (.error (.authorization code))

/-- `new Date()`. -/
def atNow {α : Type} (rest : ℤ → AdminMethod α) : AdminMethod α := .call .now rest

/-- `randomUUID()`. -/
def withRandomUUID {α : Type} (rest : String → AdminMethod α) : AdminMethod α :=
  .call .randomUUID rest

/-! ## The repository -/

namespace PrismaAuthorizationRepository

def listRoles : AdminMethod (List RoleRecord) := Program.perform AdminCall.findRoles

def getRole (id : String) : AdminMethod (Option RoleRecord) :=
  Program.perform (AdminCall.getRole id)

/-- `createRole({ name, description, isSystemRole })`. -/
def createRole (name description : String) (isSystemRole : Bool) : AdminMethod RoleRecord :=
  withRandomUUID fun id =>
    Program.perform (AdminCall.createRole ⟨id, name, some description, isSystemRole⟩)

def updateRole (id : String) (name description : Option String) : AdminMethod RoleRecord :=
  Program.perform (AdminCall.updateRole id name description)

def deleteRole (id : String) : AdminMethod Unit :=
  awaiting (Program.perform (AdminCall.findIsSystemRole id)) fun
    | none => throwing .notFound
    | some true => throwing .forbidden
    | some false => Program.perform (AdminCall.deleteRole id)

def listPermissions : AdminMethod (List PermissionRow) := Program.perform AdminCall.findPermissions

/-- `(await this.getRole(roleId))!`: a role that is gone by then is `undefined`. -/
def reload (roleId : String) : AdminMethod (Option RoleRecord) := getRole roleId

def grantPermission (roleId key : String) : AdminMethod (Option RoleRecord) :=
  awaiting (Program.perform (AdminCall.findPermission key)) fun
    | none => throwing .notFound
    | some permission =>
      awaiting (Program.perform (AdminCall.findIsSystemRole roleId)) fun
        | none => throwing .notFound
        | some isSystemRole =>
          if key = "*:*" ∧ isSystemRole = false then throwing .forbidden
          else
            awaiting (Program.perform (AdminCall.upsertRolePermission roleId permission.id))
              fun () => reload roleId

def revokePermission (roleId key : String) : AdminMethod (Option RoleRecord) :=
  awaiting (Program.perform (AdminCall.findPermission key)) fun
    | none => throwing .notFound
    | some permission =>
      awaiting (Program.perform (AdminCall.findIsSystemRole roleId)) fun
        | none => throwing .notFound
        | some true => throwing .forbidden
        | some false =>
          awaiting (Program.perform (AdminCall.deleteRolePermissions roleId permission.id))
            fun () => reload roleId

def listAssignments (userId : String) (organizationId : Option String) :
    AdminMethod (List RoleAssignment) :=
  Program.perform (AdminCall.findAssignments userId organizationId)

/-- `assignRole(input)`. -/
def assignRole (userId roleId organizationId : String) (assignedBy : Option String)
    (expiresAt : Option ℤ) : AdminMethod RoleAssignment :=
  awaiting (Program.perform (AdminCall.findRole roleId)) fun
    | none => throwing .notFound
    | some _ =>
      atNow fun now =>
        awaiting (Program.perform (AdminCall.findActiveAssignment userId roleId organizationId now))
          fun
            | some existing => returning existing
            | none =>
              withRandomUUID fun id =>
                atNow fun assignedAt =>
                  Program.perform (AdminCall.createAssignment
                    ⟨id, userId, roleId, organizationId, assignedAt, assignedBy, expiresAt⟩)

def revokeAssignment (id : String) : AdminMethod Unit :=
  Program.perform (AdminCall.deleteAssignment id)

def hasPermission (userId : String) (organizationId : Option String) (key : String) :
    AdminMethod Bool :=
  match organizationId with
  | none => returning false
  | some organizationId =>
    atNow fun now =>
      awaiting (Program.perform (AdminCall.findActiveRoles userId organizationId now)) fun roles =>
        returning (roles.any fun role => role.hasPermission key)

end PrismaAuthorizationRepository

/-! ## The routes -/

/-- A request that the schema of its route has let pass. -/
inductive AdminRoute where
  | getRoles
  | postRole (name description : String)
  | patchRole (roleId : String) (name description : Option String)
  | deleteRole (roleId : String)
  | getPermissions
  | postPermission (roleId key : String)
  | deletePermission (roleId key : String)
  | getUserRoles (userId : String) (organizationId : Option String)
  | postUserRole (userId roleId : String) (organizationId : Option String) (expiresAt : Option ℤ)
  | deleteAssignment (assignmentId : String)
  deriving DecidableEq

/-- The headers `x-user-id` and `x-organization-id`, and the route. -/
structure AdminRequest where
  userId : Option String
  organizationId : Option String
  route : AdminRoute
  deriving DecidableEq

inductive AdminBody where
  | empty
  | error (text : String)
  | roles (roles : List RoleRecord)
  | role (role : Option RoleRecord)
  | permissions (permissions : List PermissionRow)
  | assignments (assignments : List RoleAssignment)
  | assignment (assignment : RoleAssignment)
  deriving DecidableEq

structure AdminReply where
  status : ℕ
  body : AdminBody
  deriving DecidableEq

/-- `errorStatus(error)`. -/
def errorStatus : AdminFault → ℕ
  | .authorization .notFound => 404
  | .authorization .conflict => 409
  | .authorization .invalid => 400
  | .authorization .forbidden => 403
  | .database _ => 500

/-- `replyError(reply, error)`. -/
def replyError (fault : AdminFault) : AdminReply where
  status := errorStatus fault
  body := .error (if errorStatus fault = 403 then "Forbidden" else fault.message)

/-- The reply to a request that may not be made. -/
def forbidden : AdminReply := ⟨403, .error "Forbidden"⟩

/-- What is thrown in a handler with `try` is replied, not thrown on. -/
def trying {α : Type} (method : AdminMethod α) (reply : α → AdminReply) : AdminMethod AdminReply :=
  Program.bind method fun
    | .error fault => returning (replyError fault)
    | .ok value => returning (reply value)

section Routes

variable (request : AdminRequest)

/-- `requirePermission`, and the handler behind it. -/
def requireRolePermission (permission : String) (handler : AdminMethod AdminReply) :
    AdminMethod AdminReply :=
  match request.userId with
  | none => returning forbidden
  | some userId =>
    awaiting (PrismaAuthorizationRepository.hasPermission userId request.organizationId permission)
      fun allowed => if allowed then handler else returning forbidden

/-- `Promise.all(permissions.map(hasPermission))`, one after the other. -/
def canGrant (actorId : String) : List String → AdminMethod (List Bool)
  | [] => returning []
  | permission :: permissions =>
    awaiting
      (PrismaAuthorizationRepository.hasPermission actorId request.organizationId permission)
      fun allowed =>
        awaiting (canGrant actorId permissions) fun others => returning (allowed :: others)

/-- `assignRole` of the repository, with the reply. -/
def assign (userId roleId organizationId : String) (expiresAt : Option ℤ) :
    AdminMethod AdminReply :=
  awaiting (PrismaAuthorizationRepository.assignRole userId roleId organizationId request.userId
    expiresAt) fun assignment => returning ⟨201, .assignment assignment⟩

/-- A user who assigns a role to himself must have all of its permissions. -/
def assignChecked (userId roleId organizationId : String) (expiresAt : Option ℤ) :
    AdminMethod AdminReply :=
  awaiting (PrismaAuthorizationRepository.getRole roleId) fun
    | none => returning ⟨404, .error "Role not found"⟩
    | some targetRole =>
      match request.userId with
      | none => assign request userId roleId organizationId expiresAt
      | some actorId =>
        if actorId = userId then
          awaiting (canGrant request actorId targetRole.permissions) fun allowed =>
            if allowed.all id then assign request userId roleId organizationId expiresAt
            else returning forbidden
        else assign request userId roleId organizationId expiresAt

/-- `POST /users/:userId/roles`. -/
def postUserRole (userId roleId : String) (organizationId : Option String)
    (expiresAt : Option ℤ) : AdminMethod AdminReply :=
  match organizationId <|> request.organizationId with
  | none => returning forbidden
  | some target =>
    if request.organizationId ≠ some target then returning forbidden
    else trying (assignChecked request userId roleId target expiresAt) id

/-- `GET /users/:userId/roles`. -/
def getUserRoles (userId : String) (organizationId : Option String) : AdminMethod AdminReply :=
  match request.organizationId with
  | none => returning forbidden
  | some callerOrganizationId =>
    if organizationId.any fun asked => decide (asked ≠ callerOrganizationId) then
      returning forbidden
    else
      awaiting (PrismaAuthorizationRepository.listAssignments userId (some callerOrganizationId))
        fun assignments => returning ⟨200, .assignments assignments⟩

/-- What the handler of the route does. -/
def handle : AdminMethod AdminReply :=
  match request.route with
  | .getRoles =>
    requireRolePermission request "roles:read" <|
      awaiting PrismaAuthorizationRepository.listRoles fun roles => returning ⟨200, .roles roles⟩
  | .postRole name description =>
    requireRolePermission request "roles:write" <|
      if isBlank name ∨ isBlank description then
        returning ⟨400, .error "name and description are required"⟩
      else
        trying (PrismaAuthorizationRepository.createRole name description false) fun role =>
          ⟨201, .role (some role)⟩
  | .patchRole roleId name description =>
    requireRolePermission request "roles:write" <|
      trying (PrismaAuthorizationRepository.updateRole roleId name description) fun role =>
        ⟨200, .role (some role)⟩
  | .deleteRole roleId =>
    requireRolePermission request "roles:write" <|
      trying (PrismaAuthorizationRepository.deleteRole roleId) fun () => ⟨204, .empty⟩
  | .getPermissions =>
    requireRolePermission request "roles:read" <|
      awaiting PrismaAuthorizationRepository.listPermissions fun permissions =>
        returning ⟨200, .permissions permissions⟩
  | .postPermission roleId key =>
    requireRolePermission request "roles:write" <|
      trying (PrismaAuthorizationRepository.grantPermission roleId key) fun role =>
        ⟨200, .role role⟩
  | .deletePermission roleId key =>
    requireRolePermission request "roles:write" <|
      trying (PrismaAuthorizationRepository.revokePermission roleId key) fun role =>
        ⟨200, .role role⟩
  | .getUserRoles userId organizationId =>
    requireRolePermission request "roles:read" <| getUserRoles request userId organizationId
  | .postUserRole userId roleId organizationId expiresAt =>
    requireRolePermission request "roles:write" <|
      postUserRole request userId roleId organizationId expiresAt
  | .deleteAssignment assignmentId =>
    requireRolePermission request "roles:write" <|
      trying (PrismaAuthorizationRepository.revokeAssignment assignmentId) fun () => ⟨204, .empty⟩

end Routes

/-! ## The database -/

/-- What comes from outside: the time, a random id, a statement that is carried out (with the
message of a refusal, if it is refused), or one that is not. -/
inductive AdminInput where
  | time (now : ℤ)
  | drawn (id : String)
  | carriedOut (refusal : String)
  | failed (message : String)

namespace AdminStore

/-- The tables with a role more. -/
def created (s : AdminStore) (i : ℕ) (row : RoleRow) : AdminStore :=
  { s with rolesById := s.rolesById.put row }.note i (.createdRole row)

/-- The tables with a role changed. -/
def updated (s : AdminStore) (i : ℕ) (row : RoleRow) : AdminStore :=
  { s with rolesById := s.rolesById.put row }.note i (.updatedRole row)

/-- The tables without a role, whose permissions and assignments go with it. -/
def deleted (s : AdminStore) (i : ℕ) (id : String) : AdminStore :=
  { s with
    rolesById := s.rolesById.erase id
    rolePermissions := s.rolePermissions.filter fun entry => decide (entry.1 ≠ id)
    assignmentsById := s.assignmentsWithout id }.note i (.deletedRole id)

/-- The tables in which the role has the permission. -/
def granted (s : AdminStore) (i : ℕ) (roleId permissionId : String) : AdminStore :=
  { s with
    rolePermissions :=
      if (roleId, permissionId) ∈ s.rolePermissions then s.rolePermissions
      else s.rolePermissions ++ [(roleId, permissionId)] }.note i (.granted roleId permissionId)

/-- The tables in which the role has the permission no longer. -/
def revoked (s : AdminStore) (i : ℕ) (roleId permissionId : String) : AdminStore :=
  { s with
    rolePermissions := s.rolePermissions.filter fun entry =>
      decide (entry ≠ (roleId, permissionId)) }.note i (.revoked roleId permissionId)

/-- The tables with an assignment more. -/
def assigned (s : AdminStore) (i : ℕ) (assignment : RoleAssignment) : AdminStore :=
  { s with assignmentsById := s.assignmentsById.put assignment }.note i (.assigned assignment)

/-- The tables without an assignment. -/
def unassigned (s : AdminStore) (i : ℕ) (id : String) : AdminStore :=
  { s with assignmentsById := s.assignmentsById.erase id }.note i (.unassigned id)

/-- What the statement answers and leaves behind; a refusal changes nothing. -/
def perform (s : AdminStore) (i : ℕ) (refusal : String) :
    (call : AdminCall) → Option (call.Answer × AdminStore)
  | .now | .randomUUID => none
  | .findActiveRoles userId organizationId now =>
    let roles := s.activeRoles userId organizationId now
    some (.ok roles, s.note i (.sawRoles userId organizationId roles))
  | .findRoles => some (.ok (s.rolesById.values.map s.recordOf), s)
  | .getRole id =>
    match s.roleRecord? id with
    | none => some (.ok none, s)
    | some role => some (.ok (some role), s.note i (.sawRole role))
  | .findRole id => some (.ok (s.rolesById.get? id), s)
  | .findIsSystemRole id => some (.ok ((s.rolesById.get? id).map RoleRow.isSystemRole), s)
  | .createRole row =>
    if (s.rolesById.get? row.id).isSome || s.isNameTaken row.id row.name then
      some (.error (.database refusal), s)
    else some (.ok ((s.created i row).recordOf row), s.created i row)
  | .updateRole id name description =>
    match s.rolesById.get? id with
    | none => some (.error (.database refusal), s)
    | some row =>
      let changed := row.withInput name description
      if s.isNameTaken changed.id changed.name then some (.error (.database refusal), s)
      else some (.ok ((s.updated i changed).recordOf changed), s.updated i changed)
  | .deleteRole id =>
    match s.rolesById.get? id with
    | none => some (.error (.database refusal), s)
    | some _ => some (.ok (), s.deleted i id)
  | .findPermissions => some (.ok s.permissionsByKey.values, s)
  | .findPermission key => some (.ok (s.permissionsByKey.get? key), s)
  | .upsertRolePermission roleId permissionId =>
    if (s.rolesById.get? roleId).isNone ||
        s.permissionsByKey.values.all fun permission => decide (permission.id ≠ permissionId) then
      some (.error (.database refusal), s)
    else some (.ok (), s.granted i roleId permissionId)
  | .deleteRolePermissions roleId permissionId => some (.ok (), s.revoked i roleId permissionId)
  | .findAssignments userId organizationId =>
    some (.ok (s.assignmentsById.values.filter fun assignment =>
      decide (assignment.userId = userId) &&
        organizationId.all fun asked => decide (assignment.organizationId = asked)), s)
  | .findActiveAssignment userId roleId organizationId now =>
    some (.ok (s.assignmentsById.values.find? fun assignment =>
      decide (assignment.userId = userId ∧ assignment.roleId = roleId ∧
        assignment.organizationId = organizationId) && assignment.isActive now), s)
  | .createAssignment assignment =>
    if (s.rolesById.get? assignment.roleId).isNone ||
        (s.assignmentsById.get? assignment.id).isSome then
      some (.error (.database refusal), s)
    else some (.ok assignment, s.assigned i assignment)
  | .deleteAssignment id =>
    match s.assignmentsById.get? id with
    | none => some (.error (.database refusal), s)
    | some _ => some (.ok (), s.unassigned i id)

/-- What a statement throws that is not carried out. -/
def throwFor (message : String) : (call : AdminCall) → Option call.Answer
  | .now | .randomUUID => none
  | .findActiveRoles _ _ _ | .findRoles => some (.error (.database message))
  | .getRole _ => some (.error (.database message))
  | .findRole _ => some (.error (.database message))
  | .findIsSystemRole _ => some (.error (.database message))
  | .createRole _ | .updateRole _ _ _ => some (.error (.database message))
  | .findPermissions => some (.error (.database message))
  | .findPermission _ => some (.error (.database message))
  | .findAssignments _ _ => some (.error (.database message))
  | .findActiveAssignment _ _ _ _ => some (.error (.database message))
  | .createAssignment _ => some (.error (.database message))
  | .deleteRole _ | .upsertRolePermission _ _ | .deleteRolePermissions _ _
  | .deleteAssignment _ => some (.error (.database message))

/-- How a call of thread `i` is answered. -/
def serve : Server AdminStore AdminInput AdminCall AdminCall.Answer
  | _, s, .now, .time now => some (now, s)
  | _, s, .randomUUID, .drawn id => some (id, s)
  | i, s, call, .carriedOut refusal => s.perform i refusal call
  | _, s, call, .failed message => (throwFor message call).map fun answer => (answer, s)
  | _, _, _, _ => none

end AdminStore

/-! ## What a call does -/

/-- A deed that changes no table. -/
def AdminDeed.isReading : AdminDeed → Bool
  | .sawRoles _ _ _ | .sawRole _ => true
  | _ => false

/-- What a call of thread `i` can make of the tables. -/
inductive AdminEffect (i : ℕ) (s : AdminStore) : AdminCall → AdminStore → Prop
  | nothing (call : AdminCall) : AdminEffect i s call s
  | saw {call : AdminCall} {deed : AdminDeed} (hdeed : deed.isReading = true) :
      AdminEffect i s call (s.note i deed)
  | created {row : RoleRow} (hnew : s.rolesById.get? row.id = none) :
      AdminEffect i s (.createRole row) (s.created i row)
  | updated {id : String} {row : RoleRow} {name description : Option String}
      (hrow : s.rolesById.get? id = some row) :
      AdminEffect i s (.updateRole id name description)
        (s.updated i (row.withInput name description))
  | deleted {id : String} : AdminEffect i s (.deleteRole id) (s.deleted i id)
  | granted {roleId permissionId : String} (hrole : (s.rolesById.get? roleId).isSome = true) :
      AdminEffect i s (.upsertRolePermission roleId permissionId)
        (s.granted i roleId permissionId)
  | revoked {roleId permissionId : String} :
      AdminEffect i s (.deleteRolePermissions roleId permissionId)
        (s.revoked i roleId permissionId)
  | assigned {assignment : RoleAssignment} :
      AdminEffect i s (.createAssignment assignment) (s.assigned i assignment)
  | unassigned {id : String} : AdminEffect i s (.deleteAssignment id) (s.unassigned i id)

theorem effect_of_perform {i : ℕ} {s t : AdminStore} {refusal : String} {call : AdminCall}
    {r : call.Answer} (h : s.perform i refusal call = some (r, t)) : AdminEffect i s call t := by
  cases call with
  | now | randomUUID => cases h
  | findActiveRoles userId organizationId now =>
    cases h
    exact .saw rfl
  | getRole id =>
    simp only [AdminStore.perform] at h
    split at h
    · cases h
      exact .nothing _
    · cases h
      exact .saw rfl
  | createRole row =>
    simp only [AdminStore.perform] at h
    split_ifs at h with htaken
    · cases h
      exact .nothing _
    · cases h
      rw [Bool.or_eq_true, not_or, Bool.not_eq_true, Option.isSome_eq_false_iff,
        Option.isNone_iff_eq_none] at htaken
      exact .created htaken.1
  | updateRole id name description =>
    simp only [AdminStore.perform] at h
    split at h
    · cases h
      exact .nothing _
    · rename_i row hrow
      split_ifs at h
      · cases h
        exact .nothing _
      · cases h
        exact .updated hrow
  | deleteRole id =>
    simp only [AdminStore.perform] at h
    split at h
    · cases h
      exact .nothing _
    · cases h
      exact .deleted
  | upsertRolePermission roleId permissionId =>
    simp only [AdminStore.perform] at h
    split_ifs at h with hmissing
    · cases h
      exact .nothing _
    · cases h
      rw [Bool.or_eq_true, not_or, Bool.not_eq_true, Option.isNone_eq_false_iff] at hmissing
      exact .granted hmissing.1
  | deleteRolePermissions roleId permissionId =>
    cases h
    exact .revoked
  | createAssignment assignment =>
    simp only [AdminStore.perform] at h
    split_ifs at h
    · cases h
      exact .nothing _
    · cases h
      exact .assigned
  | deleteAssignment id =>
    simp only [AdminStore.perform] at h
    split at h
    · cases h
      exact .nothing _
    · cases h
      exact .unassigned
  | _ =>
    cases h
    exact .nothing _

/-- A call that is answered has one of these effects. -/
theorem effect_of_serve {i : ℕ} {s t : AdminStore} {ω : AdminInput} {call : AdminCall}
    {r : call.Answer} (h : AdminStore.serve i s call ω = some (r, t)) :
    AdminEffect i s call t := by
  cases ω with
  | carriedOut refusal =>
    have hperform : s.perform i refusal call = some (r, t) := by
      cases call <;> exact h
    exact effect_of_perform hperform
  | time now =>
    cases call <;> cases h
    exact .nothing _
  | drawn id =>
    cases call <;> cases h
    exact .nothing _
  | failed message =>
    have hsame : t = s := by
      cases call <;> cases h <;> rfl
    rw [hsame]
    exact .nothing _

/-- Every call adds at most one deed of its thread to the journal. -/
theorem journal_of_effect {i : ℕ} {s t : AdminStore} {call : AdminCall}
    (h : AdminEffect i s call t) :
    ∃ deeds : List AdminDeed, t.journal = deeds.map (Prod.mk i) ++ s.journal := by
  cases h with
  | nothing => exact ⟨[], rfl⟩
  | saw hdeed => exact ⟨[_], rfl⟩
  | created hnew => exact ⟨[_], rfl⟩
  | updated hrow => exact ⟨[_], rfl⟩
  | deleted => exact ⟨[_], rfl⟩
  | granted hrole => exact ⟨[_], rfl⟩
  | revoked => exact ⟨[_], rfl⟩
  | assigned => exact ⟨[_], rfl⟩
  | unassigned => exact ⟨[_], rfl⟩

/-- Any number of requests at work on the tables. -/
abbrev AdminPool := Pool AdminStore AdminCall AdminCall.Answer
  fun _ : AdminRequest => Except AdminFault AdminReply

/-- A step of the pool. -/
def AdminPool.step : AdminPool → PoolEvent AdminRequest AdminInput → Option AdminPool :=
  Pool.step AdminStore.serve handle

end Verixa.Authorization
