import Verixa.Concurrency.Solo
import Verixa.Identity.UserUseCases

/-!
# Suspensions

When the use cases are executed one after another, a suspension is lifted by `ReactivateUser` only.
Confirming an email address would make a suspended user active, too, but no suspended user holds a
link that still works: links are sent to pending users only, each retires those sent before, and the
one that makes its user active is consumed by that (`OnlyPendingHoldLinks`).
-/

namespace Verixa.Identity

open Concurrency

variable {D : UserDeployment} {s t : UserStore}

/-! ## The calls of an execution that runs alone -/

section Calls

variable {i : ℕ} {γ : Type} {a : γ}

/-- The use cases run one after another, and nothing is asked of what the outside adds. -/
abbrev RunsAlone (i : ℕ) (p : UserProgram γ) (s : UserStore) (a : γ) (t : UserStore) : Prop :=
  Runs UserStore.serve (fun _ _ _ _ => True) i p s a t

theorem of_runs_now {f : ℤ → UserProgram γ} (h : RunsAlone i (UserCalls.now >>= f) s a t) :
    ∃ now, RunsAlone i (f now) s a t := by
  obtain ⟨r, u, ⟨ω, -, hserve⟩, hrest⟩ := runs_call.mp h
  cases ω <;> cases hserve
  exact ⟨_, hrest⟩

theorem of_runs_createId {f : String → UserProgram γ}
    (h : RunsAlone i (UserCalls.createId >>= f) s a t) :
    ∃ id, s.usersById.get? id = none ∧ RunsAlone i (f id) s a t := by
  obtain ⟨r, u, ⟨ω, -, hserve⟩, hrest⟩ := runs_call.mp h
  cases ω <;> simp only [UserStore.serve, reduceCtorEq] at hserve
  split at hserve <;> cases hserve
  rename_i hfresh
  simp only [Bool.and_eq_true, Option.isNone_iff_eq_none] at hfresh
  exact ⟨_, hfresh.1, hrest⟩

theorem of_runs_generateToken {f : String → UserProgram γ}
    (h : RunsAlone i (UserCalls.generateToken >>= f) s a t) :
    ∃ rawToken, RunsAlone i (f rawToken) s a t := by
  obtain ⟨r, u, ⟨ω, -, hserve⟩, hrest⟩ := runs_call.mp h
  cases ω <;> cases hserve
  exact ⟨_, hrest⟩

theorem of_runs_findUserById {id : String} {f : Option User → UserProgram γ}
    (h : RunsAlone i (UserCalls.findUserById id >>= f) s a t) :
    RunsAlone i (f (s.findUserById id)) s a t := by
  obtain ⟨r, u, ⟨ω, -, hserve⟩, hrest⟩ := runs_call.mp h
  cases ω <;> cases hserve
  exact hrest

theorem of_runs_findUserByEmail {email : Email} {f : Option User → UserProgram γ}
    (h : RunsAlone i (UserCalls.findUserByEmail email >>= f) s a t) :
    RunsAlone i (f (s.findUserByEmail email)) s a t := by
  obtain ⟨r, u, ⟨ω, -, hserve⟩, hrest⟩ := runs_call.mp h
  cases ω <;> cases hserve
  exact hrest

theorem of_runs_existsByEmail {email : Email} {f : Bool → UserProgram γ}
    (h : RunsAlone i (UserCalls.existsByEmail email >>= f) s a t) :
    RunsAlone i (f (s.existsByEmail email)) s a t := by
  obtain ⟨r, u, ⟨ω, -, hserve⟩, hrest⟩ := runs_call.mp h
  cases ω <;> cases hserve
  exact hrest

theorem of_runs_saveUser {useCase : UserUseCase} {found : Option UserStatus} {user : User}
    {f : Unit → UserProgram γ}
    (h : RunsAlone i (UserCalls.saveUser useCase found user >>= f) s a t) :
    RunsAlone i (f ()) (s.saveUser useCase user) a t := by
  obtain ⟨r, u, ⟨ω, -, hserve⟩, hrest⟩ := runs_call.mp h
  cases ω <;> cases hserve
  exact hrest

theorem of_runs_findTokenByHash {tokenHash : String}
    {f : Option EmailVerificationToken → UserProgram γ}
    (h : RunsAlone i (UserCalls.findTokenByHash tokenHash >>= f) s a t) :
    RunsAlone i (f (s.findTokenByHash tokenHash)) s a t := by
  obtain ⟨r, u, ⟨ω, -, hserve⟩, hrest⟩ := runs_call.mp h
  cases ω <;> cases hserve
  exact hrest

theorem of_runs_saveToken {token : EmailVerificationToken} {f : Unit → UserProgram γ}
    (h : RunsAlone i (UserCalls.saveToken token >>= f) s a t) :
    RunsAlone i (f ()) (s.saveToken token) a t := by
  obtain ⟨r, u, ⟨ω, -, hserve⟩, hrest⟩ := runs_call.mp h
  cases ω <;> cases hserve
  exact hrest

theorem of_runs_invalidateOutstandingForUser {userId : String} {now : ℤ}
    {f : Unit → UserProgram γ}
    (h : RunsAlone i (UserCalls.invalidateOutstandingForUser userId now >>= f) s a t) :
    RunsAlone i (f ()) (s.invalidateOutstandingForUser userId now) a t := by
  obtain ⟨r, u, ⟨ω, -, hserve⟩, hrest⟩ := runs_call.mp h
  cases ω <;> cases hserve
  exact hrest

theorem of_runs_sendEmailVerification {email rawToken : String} {expiresAt : ℤ}
    {f : Bool → UserProgram γ}
    (h : RunsAlone i (UserCalls.sendEmailVerification email rawToken expiresAt >>= f) s a t) :
    ∃ succeeded, RunsAlone i (f succeeded) s a t := by
  obtain ⟨r, u, ⟨ω, -, hserve⟩, hrest⟩ := runs_call.mp h
  cases ω <;> cases hserve
  exact ⟨_, hrest⟩

end Calls

/-- A user that is found is stored under its id. -/
theorem get?_of_findUserById {id : String} {user : User} (h : s.findUserById id = some user) :
    s.usersById.get? id = some user :=
  (Option.filter_eq_some_iff.mp h).1

theorem get?_of_findUserByEmail {email : Email} {user : User}
    (h : s.findUserByEmail email = some user) : s.usersById.get? user.id = some user :=
  KeyedMap.get?_of_mem_values (List.mem_of_find?_eq_some h)

theorem get?_of_findTokenByHash {tokenHash : String} {token : EmailVerificationToken}
    (h : s.findTokenByHash tokenHash = some token) : s.tokensById.get? token.id = some token :=
  KeyedMap.get?_of_mem_values (List.mem_of_find?_eq_some h)

/-! ## What an execution does to the store -/

/-- What the execution of a command, alone, does to a store. -/
inductive Effect : UserCommand → UserStore → UserStore → Prop
  | nothing (c : UserCommand) (s : UserStore) : Effect c s s
  | registered {command : RegisterUserCommand} {s : UserStore} {user : User}
      (hfresh : s.usersById.get? user.id = none) :
      Effect (.registerUser command) s (s.saveUser .registerUser user)
  | issued {email : String} {s : UserStore} {user : User} {now : ℤ}
      {token : EmailVerificationToken} (hstored : s.usersById.get? user.id = some user)
      (hpending : user.status = .pending) (htoken : token.userId = user.id) :
      Effect (.requestEmailVerification email) s
        ((s.invalidateOutstandingForUser user.id now).saveToken token)
  | consumed {rawToken : String} {s : UserStore} {token : EmailVerificationToken} {now : ℤ} :
      Effect (.confirmEmailVerification rawToken) s
        (s.saveToken { token with consumedAt := some now })
  | confirmed {rawToken : String} {s : UserStore} {token : EmailVerificationToken} {now : ℤ}
      {user : User} (htoken : s.tokensById.get? token.id = some token)
      (hopen : token.consumedAt = none) (huser : user.id = token.userId) :
      Effect (.confirmEmailVerification rawToken) s
        ((s.saveToken { token with consumedAt := some now }).saveUser .confirmEmailVerification
          user)
  | suspended {command : SuspensionCommand} {s : UserStore} {found user : User}
      (hstored : s.usersById.get? user.id = some found) (hactive : found.status = .active) :
      Effect (.suspendUser command) s (s.saveUser .suspendUser user)
  | reactivated {command : SuspensionCommand} {s : UserStore} {found user : User}
      (hstored : s.usersById.get? user.id = some found) (hsuspended : found.status = .suspended)
      (hactive : user.status = .active) (huser : user.id = command.userId) :
      Effect (.reactivateUser command) s (s.saveUser .reactivateUser user)
  | edited {command : UpdateUserProfileCommand} {s : UserStore} {found user : User}
      (hstored : s.usersById.get? user.id = some found) (hstatus : user.status = found.status) :
      Effect (.updateUserProfile command) s (s.saveUser .updateUserProfile user)

section Effects

variable {i : ℕ}

theorem effect_registerUser {command : RegisterUserCommand} {a : Except UserError User}
    (h : RunsAlone i (RegisterUser.execute D command) s a t) :
    Effect (.registerUser command) s t := by
  unfold RegisterUser.execute at h
  split at h
  · obtain ⟨-, rfl⟩ := runs_ret.mp h
    exact .nothing _ _
  · obtain ⟨-, rfl⟩ := runs_ret.mp h
    exact .nothing _ _
  · obtain ⟨-, rfl⟩ := runs_ret.mp h
    exact .nothing _ _
  · replace h := of_runs_existsByEmail h
    split at h
    · obtain ⟨-, rfl⟩ := runs_ret.mp h
      exact .nothing _ _
    · obtain ⟨now, h⟩ := of_runs_now h
      obtain ⟨id, hfresh, h⟩ := of_runs_createId h
      replace h := of_runs_saveUser h
      obtain ⟨-, rfl⟩ := runs_ret.mp h
      exact .registered hfresh

theorem effect_requestEmailVerification {email : String} {a : Bool}
    (h : RunsAlone i (RequestEmailVerification.execute D email) s a t) :
    Effect (.requestEmailVerification email) s t := by
  unfold RequestEmailVerification.execute at h
  split at h
  · obtain ⟨-, rfl⟩ := runs_ret.mp h
    exact .nothing _ _
  · obtain ⟨now, h⟩ := of_runs_now h
    replace h := of_runs_findUserByEmail h
    split at h
    · obtain ⟨-, rfl⟩ := runs_ret.mp h
      exact .nothing _ _
    · rename_i user hfound
      split at h
      · obtain ⟨-, rfl⟩ := runs_ret.mp h
        exact .nothing _ _
      · rename_i hstatus
        replace h := of_runs_invalidateOutstandingForUser h
        obtain ⟨rawToken, h⟩ := of_runs_generateToken h
        obtain ⟨id, -, h⟩ := of_runs_createId h
        obtain ⟨succeeded, h⟩ := of_runs_sendEmailVerification (of_runs_saveToken h)
        obtain ⟨-, rfl⟩ := runs_ret.mp h
        exact .issued (get?_of_findUserByEmail hfound) (not_not.mp hstatus) rfl

theorem effect_confirmEmailVerification {rawToken : String} {a : Except ValidationError User}
    (h : RunsAlone i (ConfirmEmailVerification.execute D rawToken) s a t) :
    Effect (.confirmEmailVerification rawToken) s t := by
  obtain ⟨now, h⟩ := of_runs_now h
  replace h := of_runs_findTokenByHash h
  split at h
  · obtain ⟨-, rfl⟩ := runs_ret.mp h
    exact .nothing _ _
  rename_i token hfoundToken
  split at h
  · obtain ⟨-, rfl⟩ := runs_ret.mp h
    exact .nothing _ _
  split at h
  · obtain ⟨-, rfl⟩ := runs_ret.mp h
    exact .nothing _ _
  rename_i consumed hconsumed
  obtain ⟨hopen, rfl⟩ := EmailVerificationToken.consume_ok hconsumed
  replace h := of_runs_findUserById h
  split at h
  · obtain ⟨-, rfl⟩ := runs_ret.mp h
    exact .nothing _ _
  rename_i user hfound
  obtain ⟨later, h⟩ := of_runs_now (of_runs_saveToken h)
  split at h
  · obtain ⟨-, rfl⟩ := runs_ret.mp h
    exact .consumed
  · rename_i activated hactivated
    replace h := of_runs_saveUser h
    obtain ⟨-, rfl⟩ := runs_ret.mp h
    obtain ⟨-, hid, -⟩ := User.transitionTo_ok hactivated
    have hstored := get?_of_findUserById hfound
    exact .confirmed (get?_of_findTokenByHash hfoundToken) hopen
      (hid.trans (KeyedMap.key_of_get? hstored))

theorem effect_suspendUser {command : SuspensionCommand} {a : Except UserError User}
    (h : RunsAlone i (SuspendUser.execute command) s a t) : Effect (.suspendUser command) s t := by
  replace h := of_runs_findUserById h
  split at h
  · obtain ⟨-, rfl⟩ := runs_ret.mp h
    exact .nothing _ _
  rename_i user hfound
  split at h
  · obtain ⟨-, rfl⟩ := runs_ret.mp h
    exact .nothing _ _
  obtain ⟨now, h⟩ := of_runs_now h
  split at h
  · obtain ⟨-, rfl⟩ := runs_ret.mp h
    exact .nothing _ _
  · rename_i suspended hsuspended
    replace h := of_runs_saveUser h
    obtain ⟨-, rfl⟩ := runs_ret.mp h
    obtain ⟨hallowed, hid, -⟩ := User.transitionTo_ok hsuspended
    have hstored := get?_of_findUserById hfound
    have hfound' : s.usersById.get? suspended.id = some user := by
      rw [hid, KeyedMap.key_of_get? hstored, hstored]
    refine .suspended hfound' ?_
    cases hstatus : user.status <;> simp [hstatus, allowedTransitions] at hallowed ⊢

theorem effect_reactivateUser {command : SuspensionCommand} {a : Except UserError User}
    (h : RunsAlone i (ReactivateUser.execute command) s a t) :
    Effect (.reactivateUser command) s t := by
  replace h := of_runs_findUserById h
  split at h
  · obtain ⟨-, rfl⟩ := runs_ret.mp h
    exact .nothing _ _
  rename_i user hfound
  split at h
  · obtain ⟨-, rfl⟩ := runs_ret.mp h
    exact .nothing _ _
  rename_i hstatus
  split at h
  · obtain ⟨-, rfl⟩ := runs_ret.mp h
    exact .nothing _ _
  obtain ⟨now, h⟩ := of_runs_now h
  split at h
  · obtain ⟨-, rfl⟩ := runs_ret.mp h
    exact .nothing _ _
  · rename_i activated hactivated
    replace h := of_runs_saveUser h
    obtain ⟨-, rfl⟩ := runs_ret.mp h
    obtain ⟨-, hid, hactive⟩ := User.transitionTo_ok hactivated
    have hstored := get?_of_findUserById hfound
    have hkey := hid.trans (KeyedMap.key_of_get? hstored)
    exact .reactivated (by rw [hkey, hstored]) (not_not.mp hstatus) hactive hkey

theorem effect_updateUserProfile {command : UpdateUserProfileCommand} {a : Except UserError User}
    (h : RunsAlone i (UpdateUserProfile.execute command) s a t) :
    Effect (.updateUserProfile command) s t := by
  replace h := of_runs_findUserById h
  split at h
  · obtain ⟨-, rfl⟩ := runs_ret.mp h
    exact .nothing _ _
  rename_i user hfound
  have hstored := get?_of_findUserById hfound
  dsimp only at h
  split at h
  · obtain ⟨-, rfl⟩ := runs_ret.mp h
    exact .nothing _ _
  · obtain ⟨now, h⟩ := of_runs_now h
    replace h := of_runs_saveUser h
    obtain ⟨-, rfl⟩ := runs_ret.mp h
    have hfound' : s.usersById.get? user.id = some user := by
      rw [KeyedMap.key_of_get? hstored, hstored]
    exact .edited hfound' rfl

/-- Every execution has one of these effects. -/
theorem effect_of_runs {c : UserCommand} {a : c.Result} (h : RunsAlone i (D.body c) s a t) :
    Effect c s t := by
  cases c with
  | registerUser command => exact effect_registerUser h
  | requestEmailVerification email => exact effect_requestEmailVerification h
  | confirmEmailVerification rawToken => exact effect_confirmEmailVerification h
  | suspendUser command => exact effect_suspendUser h
  | reactivateUser command => exact effect_reactivateUser h
  | updateUserProfile command => exact effect_updateUserProfile h

end Effects

/-! ## Links -/

/-- The links that still work are held by pending users, one by each. -/
structure OnlyPendingHoldLinks (s : UserStore) : Prop where
  pending : ∀ token, s.tokensById.get? token.id = some token → token.consumedAt = none →
    ∃ user, s.usersById.get? token.userId = some user ∧ user.status = .pending
  single : ∀ token token', s.tokensById.get? token.id = some token → token.consumedAt = none →
    s.tokensById.get? token'.id = some token' → token'.consumedAt = none →
    token.userId = token'.userId → token.id = token'.id

/-- What was stored before a token was saved, or the token itself. -/
theorem of_get?_put {m : KeyedMap EmailVerificationToken.id} {saved token : EmailVerificationToken}
    (h : (m.put saved).get? token.id = some token) :
    token = saved ∨ token.id ≠ saved.id ∧ m.get? token.id = some token := by
  rw [KeyedMap.get?_put] at h
  split at h
  · exact .inl (Option.some.inj h).symm
  · rename_i hid
    exact .inr ⟨Ne.symm hid, h⟩

/-- Saving a user who holds no link that works. -/
theorem OnlyPendingHoldLinks.saveUser (h : OnlyPendingHoldLinks s) {useCase : UserUseCase}
    {user : User} (hnone : ∀ token, s.tokensById.get? token.id = some token →
      token.consumedAt = none → token.userId ≠ user.id) :
    OnlyPendingHoldLinks (s.saveUser useCase user) where
  pending token htoken hopen := by
    obtain ⟨holder, hholder, hpending⟩ := h.pending token htoken hopen
    refine ⟨holder, ?_, hpending⟩
    rw [UserStore.saveUser, KeyedMap.get?_put_of_ne _ (hnone token htoken hopen).symm]
    exact hholder
  single := h.single

/-- Saving a user in the status that is stored. -/
theorem OnlyPendingHoldLinks.saveUser_of_status (h : OnlyPendingHoldLinks s)
    {useCase : UserUseCase} {found user : User}
    (hstored : s.usersById.get? user.id = some found) (hstatus : user.status = found.status) :
    OnlyPendingHoldLinks (s.saveUser useCase user) where
  pending token htoken hopen := by
    obtain ⟨holder, hholder, hpending⟩ := h.pending token htoken hopen
    rw [UserStore.saveUser, KeyedMap.get?_put]
    split
    · rename_i hid
      rw [← hid, hstored] at hholder
      obtain rfl := Option.some.inj hholder
      exact ⟨user, rfl, hstatus.trans hpending⟩
    · exact ⟨holder, hholder, hpending⟩
  single := h.single

/-- Saving a token that has been consumed. -/
theorem OnlyPendingHoldLinks.saveToken (h : OnlyPendingHoldLinks s)
    {saved : EmailVerificationToken} (hconsumed : saved.consumedAt ≠ none) :
    OnlyPendingHoldLinks (s.saveToken saved) := by
  have hold : ∀ token, (s.saveToken saved).tokensById.get? token.id = some token →
      token.consumedAt = none → s.tokensById.get? token.id = some token := by
    intro token htoken hopen
    rcases of_get?_put htoken with rfl | ⟨-, htoken⟩
    · exact absurd hopen hconsumed
    · exact htoken
  exact ⟨fun token htoken hopen => h.pending token (hold token htoken hopen) hopen,
    fun token token' htoken hopen htoken' hopen' =>
      h.single token token' (hold token htoken hopen) hopen (hold token' htoken' hopen') hopen'⟩

/-- The links that still work after the others of a user were retired. -/
theorem of_get?_invalidate {userId : String} {now : ℤ} {token : EmailVerificationToken}
    (h : (s.invalidateOutstandingForUser userId now).tokensById.get? token.id = some token)
    (hopen : token.consumedAt = none) :
    token.userId ≠ userId ∧ s.tokensById.get? token.id = some token := by
  rw [UserStore.invalidateOutstandingForUser, KeyedMap.get?_mapValues, Option.map_eq_some_iff] at h
  obtain ⟨before, hbefore, rfl⟩ := h
  unfold UserStore.retire at hopen hbefore ⊢
  split at hopen
  · exact absurd hopen (EmailVerificationToken.consumedAt_invalidate _ _)
  · rename_i huser
    simp only [if_neg huser] at hbefore ⊢
    exact ⟨huser, hbefore⟩

/-- Sending a link to a pending user. -/
theorem OnlyPendingHoldLinks.issue (h : OnlyPendingHoldLinks s) {user : User} {now : ℤ}
    {issued : EmailVerificationToken} (hstored : s.usersById.get? user.id = some user)
    (hpending : user.status = .pending) (hissued : issued.userId = user.id) :
    OnlyPendingHoldLinks ((s.invalidateOutstandingForUser user.id now).saveToken issued) := by
  have hold : ∀ token, ((s.invalidateOutstandingForUser user.id now).saveToken
      issued).tokensById.get? token.id = some token → token.consumedAt = none →
      token = issued ∨ token.userId ≠ user.id ∧ s.tokensById.get? token.id = some token := by
    intro token htoken hopen
    rcases of_get?_put htoken with rfl | ⟨-, htoken⟩
    · exact .inl rfl
    · exact .inr (of_get?_invalidate htoken hopen)
  constructor
  · intro token htoken hopen
    rcases hold token htoken hopen with rfl | ⟨-, htoken⟩
    · exact ⟨user, by rw [hissued]; exact hstored, hpending⟩
    · exact h.pending token htoken hopen
  · intro token token' htoken hopen htoken' hopen' huser
    rcases hold token htoken hopen with rfl | ⟨hne, hold_token⟩ <;>
      rcases hold token' htoken' hopen' with rfl | ⟨hne', hold_token'⟩
    · rfl
    · exact absurd (huser.symm.trans hissued) hne'
    · exact absurd (huser.trans hissued) hne
    · exact h.single token token' hold_token hopen hold_token' hopen' huser

/-- A user who is not pending holds no link that works. -/
theorem OnlyPendingHoldLinks.none_of_status (h : OnlyPendingHoldLinks s) {userId : String}
    {found : User} (hstored : s.usersById.get? userId = some found)
    (hstatus : found.status ≠ .pending) (token : EmailVerificationToken)
    (htoken : s.tokensById.get? token.id = some token) (hopen : token.consumedAt = none) :
    token.userId ≠ userId := by
  rintro rfl
  obtain ⟨holder, hholder, hpending⟩ := h.pending token htoken hopen
  rw [hstored] at hholder
  obtain rfl := Option.some.inj hholder
  exact hstatus hpending

/-- Every execution keeps the links with pending users. -/
theorem OnlyPendingHoldLinks.effect (h : OnlyPendingHoldLinks s) {c : UserCommand}
    (heffect : Effect c s t) : OnlyPendingHoldLinks t := by
  cases heffect with
  | nothing => exact h
  | registered hfresh =>
    refine h.saveUser fun token htoken hopen huser => ?_
    obtain ⟨holder, hholder, -⟩ := h.pending token htoken hopen
    rw [huser, hfresh] at hholder
    cases hholder
  | issued hstored hpending htoken => exact h.issue hstored hpending htoken
  | consumed => exact h.saveToken (by simp)
  | @confirmed _ _ token now user htoken hopen huser =>
    refine (h.saveToken (by simp)).saveUser fun other hother hother_open hother_user => ?_
    rcases of_get?_put hother with rfl | ⟨hne, hother⟩
    · cases hother_open
    · exact hne (h.single other token hother hother_open htoken hopen (hother_user.trans huser))
  | suspended hstored hactive =>
    exact h.saveUser (h.none_of_status hstored (by rw [hactive]; decide))
  | reactivated hstored hsuspended _ _ =>
    exact h.saveUser (h.none_of_status hstored (by rw [hsuspended]; decide))
  | edited hstored hstatus => exact h.saveUser_of_status hstored hstatus

/-- Nobody holds a link in the empty store. -/
theorem onlyPendingHoldLinks_empty : OnlyPendingHoldLinks .empty where
  pending _ htoken := nomatch htoken
  single _ _ htoken := nomatch htoken

/-! ## Suspensions -/

/-- A suspended user stays suspended, or is made active by `ReactivateUser`. -/
theorem OnlyPendingHoldLinks.suspended_effect (h : OnlyPendingHoldLinks s) {c : UserCommand}
    (heffect : Effect c s t) {userId : String} {user : User}
    (hstored : s.usersById.get? userId = some user) (hsuspended : user.status = .suspended) :
    ∃ user', t.usersById.get? userId = some user' ∧
      (user'.status = .suspended ∨ user'.status = .active ∧
        ∃ command, c = .reactivateUser command ∧ command.userId = userId) := by
  -- what is saved of another user leaves this one as it is
  have hother : ∀ {useCase : UserUseCase} {saved : User} {u : UserStore},
      u.usersById = s.usersById → saved.id ≠ userId →
      ∃ user', (u.saveUser useCase saved).usersById.get? userId = some user' ∧
        (user'.status = .suspended ∨ user'.status = .active ∧
          ∃ command, c = .reactivateUser command ∧ command.userId = userId) := by
    intro useCase saved u hu hne
    refine ⟨user, ?_, .inl hsuspended⟩
    rw [UserStore.saveUser, KeyedMap.get?_put_of_ne _ hne, hu]
    exact hstored
  cases heffect with
  | nothing => exact ⟨user, hstored, .inl hsuspended⟩
  | registered hfresh =>
    refine hother rfl fun hid => ?_
    rw [hid, hstored] at hfresh
    cases hfresh
  | issued => exact ⟨user, hstored, .inl hsuspended⟩
  | consumed => exact ⟨user, hstored, .inl hsuspended⟩
  | confirmed htoken hopen huser =>
    refine hother rfl fun hid => ?_
    refine h.none_of_status hstored ?_ _ htoken hopen (huser.symm.trans hid)
    rw [hsuspended]
    decide
  | suspended hfound hactive =>
    refine hother rfl fun hid => ?_
    rw [hid, hstored] at hfound
    obtain rfl := Option.some.inj hfound
    rw [hsuspended] at hactive
    cases hactive
  | @reactivated command _ found saved hfound _ hactive huser =>
    by_cases hid : saved.id = userId
    · refine ⟨saved, ?_, .inr ⟨hactive, command, rfl, huser.symm.trans hid⟩⟩
      rw [UserStore.saveUser, ← hid]
      exact KeyedMap.get?_put_self _ _
    · exact hother rfl hid
  | @edited _ _ found saved hfound hstatus =>
    by_cases hid : saved.id = userId
    · rw [hid, hstored] at hfound
      obtain rfl := Option.some.inj hfound
      refine ⟨saved, ?_, .inl (hstatus.trans hsuspended)⟩
      rw [UserStore.saveUser, ← hid]
      exact KeyedMap.get?_put_self _ _
    · exact hother rfl hid

/-- Whatever is executed one after another: a user who is suspended stays so, unless
`ReactivateUser` is executed for this user. -/
theorem suspension_lifted_only_by_reactivation (D : UserDeployment) {s t : UserStore} {i : ℕ}
    {c : UserCommand} {a : c.Result} {userId : String} {user : User}
    (hturn : InTurn UserStore.serve (fun _ _ _ _ => True) D.body .empty s)
    (hruns : Runs UserStore.serve (fun _ _ _ _ => True) i (D.body c) s a t)
    (hstored : s.usersById.get? userId = some user) (hsuspended : user.status = .suspended) :
    ∃ user', t.usersById.get? userId = some user' ∧
      (user'.status = .suspended ∨ user'.status = .active ∧
        ∃ command, c = .reactivateUser command ∧ command.userId = userId) := by
  have hlinks : OnlyPendingHoldLinks s :=
    hturn.invariant onlyPendingHoldLinks_empty fun _ _ _ _ _ h hruns =>
      h.effect (effect_of_runs hruns)
  exact hlinks.suspended_effect (effect_of_runs hruns) hstored hsuspended

/-- A deployment whose digest is the text itself. -/
def sampleUserDeployment : UserDeployment := ⟨id, id, none⟩

/-- What is done until a user is suspended: she registers, asks for a link and redeems it. -/
def sampleSuspension : List (UserCommand × List UserInput) :=
  [(.registerUser ⟨"ada@example.com", "Ada", none, none⟩,
      [.served, .time 0, .text "u1", .served]),
    (.requestEmailVerification "ada@example.com",
      [.time 1, .served, .served, .text "link", .text "t1", .served, .delivered true]),
    (.confirmEmailVerification "link", [.time 2, .served, .served, .served, .time 2, .served]),
    (.suspendUser ⟨"u1", "abuse"⟩, [.served, .time 3, .served])]

def sampleSuspended : UserStore :=
  (execInTurn UserStore.serve sampleUserDeployment.body .empty sampleSuspension).get
    (by decide +kernel)

/-- What redeeming the link once more returns and leaves. -/
def sampleRedeemedAgain : Except ValidationError User × UserStore :=
  (Program.runAlone UserStore.serve 0
    (sampleUserDeployment.body (.confirmEmailVerification "link")) sampleSuspended
    [.time 4, .served]).get (by decide +kernel)

/-- She stays suspended. -/
theorem suspension_lifted_only_by_reactivation_sample :
    ∃ user', sampleRedeemedAgain.2.usersById.get? "u1" = some user' ∧
      (user'.status = .suspended ∨ user'.status = .active ∧
        ∃ command, UserCommand.confirmEmailVerification "link" = .reactivateUser command ∧
          command.userId = "u1") := by
  have hstored : ∃ user, sampleSuspended.usersById.get? "u1" = some user ∧
      user.status = .suspended :=
    ⟨(sampleSuspended.usersById.get? "u1").get (by decide +kernel), (Option.some_get _).symm,
      by decide +kernel⟩
  obtain ⟨user, hstored, hsuspended⟩ := hstored
  have halone : Program.runAlone UserStore.serve 0
      (sampleUserDeployment.body (.confirmEmailVerification "link")) sampleSuspended
      [.time 4, .served] = some (sampleRedeemedAgain.1, sampleRedeemedAgain.2) :=
    (Option.some_get (by decide +kernel)).symm
  exact suspension_lifted_only_by_reactivation sampleUserDeployment (inTurn_get _)
    (runs_of_runAlone halone) hstored hsuspended

end Verixa.Identity
