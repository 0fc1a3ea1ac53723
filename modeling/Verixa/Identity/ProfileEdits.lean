import Verixa.Identity.UserUseCases

/-!
# Profile edits and status changes

The use cases save a user as a whole, in the status in which they have found it.  When their calls
interleave, a profile edit that was slow can therefore take a suspension back
(`profile_edit_reactivates`).  As long as no save finds a status other than its use case has found,
the stored statuses follow the table of transitions, and a profile edit leaves them as they are.
-/

namespace Verixa.Identity

open Concurrency

/-! ## Lawful histories -/

/-- What a use case does to the status of a stored user. -/
def UserUseCase.Performs (useCase : UserUseCase) (before after : UserStatus) : Prop :=
  match useCase with
  | .registerUser => False
  | .confirmEmailVerification => (before = .pending ∨ before = .suspended) ∧ after = .active
  | .suspendUser => before = .active ∧ after = .suspended
  | .reactivateUser => before = .suspended ∧ after = .active
  | .updateUserProfile => after = before

/-- What is performed is no change, or a transition of the table. -/
theorem UserUseCase.Performs.allowed {useCase : UserUseCase} {before after : UserStatus}
    (h : useCase.Performs before after) :
    useCase = .updateUserProfile ∧ after = before ∨ after ∈ allowedTransitions before := by
  cases useCase with
  | registerUser => exact h.elim
  | confirmEmailVerification =>
    obtain ⟨rfl | rfl, rfl⟩ := h
    · exact .inr (by decide)
    · exact .inr (by decide)
  | suspendUser =>
    obtain ⟨rfl, rfl⟩ := h
    exact .inr (by decide)
  | reactivateUser =>
    obtain ⟨rfl, rfl⟩ := h
    exact .inr (by decide)
  | updateUserProfile => exact .inl ⟨rfl, h⟩

/-- The status of a user after the saves of a journal. -/
def statusAfter (start : UserStore) (journal : List UserSave) (userId : String) :
    Option UserStatus :=
  match journal.find? fun save => Decidable.decide (save.userId = userId) with
  | some save => some save.status
  | none => (start.usersById.get? userId).map User.status

/-- Every save has done to the status what its use case performs. -/
structure StatusesLawful (start s : UserStore) : Prop where
  stored : ∀ userId,
    (s.usersById.get? userId).map User.status = statusAfter start s.journal userId
  performed : ∀ later save earlier, s.journal = later ++ save :: earlier →
    ∃ before, statusAfter start earlier save.userId = some before ∧
      save.useCase.Performs before save.status ∧
      (save.useCase = .updateUserProfile ∧ save.status = before ∨
        save.status ∈ allowedTransitions before)

/-- The save finds the user in the status in which its use case has found it. -/
def FindsStatus (_ : ℕ) (s : UserStore) : UserCall → UserInput → Prop
  | .saveUser _ found user, _ => (s.usersById.get? user.id).map User.status = found
  | _, _ => True

instance (i : ℕ) (s : UserStore) (q : UserCall) (ω : UserInput) :
    Decidable (FindsStatus i s q ω) := by
  unfold FindsStatus
  split <;> infer_instance

/-- The use cases that write users who are stored already. -/
def UserCommand.writesStored : UserCommand → Bool
  | .registerUser _ => false
  | .requestEmailVerification _ => false
  | _ => true

/-! ## What the use cases save -/

/-- A save does to the status what its use case performs. -/
def Performed : UserCall → Prop
  | .saveUser useCase found user =>
    ∃ before, found = some before ∧ useCase.Performs before user.status
  | _ => True

/-- A call that saves no user is followed by whatever its answer is. -/
theorem calls_perform_bind {q : UserCall} {γ : Type} {f : q.Answer → UserProgram γ}
    (hq : Performed q) (hf : ∀ r, (f r).Calls Performed) :
    ((Program.perform q : UserProgram q.Answer) >>= f).Calls Performed :=
  (Program.Calls.perform hq).bind hf

/-- Saving a user, and returning. -/
theorem calls_saveUser {useCase : UserUseCase} {found user : User} {γ : Type} {a : γ}
    (h : useCase.Performs found.status user.status) :
    (UserCalls.saveUser useCase (some found.status) user >>= fun _ => pure a).Calls Performed :=
  calls_perform_bind ⟨found.status, rfl, h⟩ fun _ => .ret a

theorem calls_confirmEmailVerification (D : UserDeployment) (rawToken : String) :
    (ConfirmEmailVerification.execute D rawToken).Calls Performed := by
  refine calls_perform_bind trivial fun now => ?_
  refine calls_perform_bind trivial fun token => ?_
  split
  · exact .ret _
  split
  · exact .ret _
  split
  · exact .ret _
  refine calls_perform_bind trivial fun user => ?_
  split
  · exact .ret _
  rename_i user
  refine calls_perform_bind trivial fun _ => ?_
  refine calls_perform_bind trivial fun later => ?_
  split
  · exact .ret _
  · rename_i activated hactivated
    obtain ⟨hallowed, -, hstatus⟩ := User.transitionTo_ok hactivated
    refine calls_saveUser ⟨?_, hstatus⟩
    cases hfound : user.status <;> simp [hfound, allowedTransitions] at hallowed ⊢

theorem calls_suspendUser (command : SuspensionCommand) :
    (SuspendUser.execute command).Calls Performed := by
  refine calls_perform_bind trivial fun user => ?_
  split
  · exact .ret _
  rename_i user
  split
  · exact .ret _
  refine calls_perform_bind trivial fun now => ?_
  split
  · exact .ret _
  · rename_i suspended hsuspended
    obtain ⟨hallowed, -, hstatus⟩ := User.transitionTo_ok hsuspended
    refine calls_saveUser ⟨?_, hstatus⟩
    cases hfound : user.status <;> simp [hfound, allowedTransitions] at hallowed ⊢

theorem calls_reactivateUser (command : SuspensionCommand) :
    (ReactivateUser.execute command).Calls Performed := by
  refine calls_perform_bind trivial fun user => ?_
  split
  · exact .ret _
  split
  · exact .ret _
  rename_i hfound
  split
  · exact .ret _
  refine calls_perform_bind trivial fun now => ?_
  split
  · exact .ret _
  · rename_i activated hactivated
    obtain ⟨-, -, hstatus⟩ := User.transitionTo_ok hactivated
    exact calls_saveUser ⟨not_not.mp hfound, hstatus⟩

theorem calls_updateUserProfile (command : UpdateUserProfileCommand) :
    (UpdateUserProfile.execute command).Calls Performed := by
  refine calls_perform_bind trivial fun user => ?_
  split
  · exact .ret _
  dsimp only
  split
  · exact .ret _
  · refine calls_perform_bind trivial fun now => ?_
    exact calls_saveUser rfl

/-- The use cases save what they perform. -/
theorem calls_body (D : UserDeployment) {c : UserCommand} (h : c.writesStored = true) :
    (D.body c).Calls Performed := by
  cases c with
  | registerUser command => cases h
  | requestEmailVerification email => cases h
  | confirmEmailVerification rawToken => exact calls_confirmEmailVerification D rawToken
  | suspendUser command => exact calls_suspendUser command
  | reactivateUser command => exact calls_reactivateUser command
  | updateUserProfile command => exact calls_updateUserProfile command

/-! ## Histories -/

variable {start s t : UserStore}

/-- A call that saves no user leaves the users and the journal as they are. -/
theorem untouched_of_serve {i : ℕ} {q : UserCall} {ω : UserInput} {r : q.Answer}
    (h : UserStore.serve i s q ω = some (r, t))
    (hq : ∀ useCase found user, q ≠ .saveUser useCase found user) :
    t.usersById = s.usersById ∧ t.journal = s.journal := by
  cases q with
  | saveUser useCase found user => exact absurd rfl (hq useCase found user)
  | createId =>
    cases ω <;> simp only [UserStore.serve, reduceCtorEq] at h
    split at h <;> cases h
    exact ⟨rfl, rfl⟩
  | _ =>
    cases ω <;> cases h
    exact ⟨rfl, rfl⟩

/-- Saving a user, found in the stored status, after what its use case performs. -/
theorem StatusesLawful.saveUser (h : StatusesLawful start s) {useCase : UserUseCase} {user : User}
    {before : UserStatus} (hfound : (s.usersById.get? user.id).map User.status = some before)
    (hperforms : useCase.Performs before user.status) :
    StatusesLawful start (s.saveUser useCase user) where
  stored userId := by
    rw [UserStore.saveUser, KeyedMap.get?_put, statusAfter]
    by_cases hid : user.id = userId
    · simp [hid]
    · simp only [hid, if_false, List.find?_cons, decide_false]
      exact h.stored userId
  performed later save earlier hjournal := by
    cases later with
    | nil =>
      obtain ⟨rfl, rfl⟩ := List.cons.inj hjournal
      exact ⟨before, (h.stored user.id).symm.trans hfound, hperforms, hperforms.allowed⟩
    | cons last later =>
      obtain ⟨-, hjournal⟩ := List.cons.inj hjournal
      exact h.performed later save earlier hjournal

/-- The journal begins empty. -/
theorem statusesLawful_start (hjournal : start.journal = []) : StatusesLawful start start where
  stored userId := by rw [hjournal, statusAfter, List.find?_nil]
  performed later save earlier hsplit := by
    rw [hjournal] at hsplit
    cases later <;> cases hsplit

/-- Whatever profile edits, suspensions, reactivations and confirmations interleave: as long as no
save finds a status other than its use case has found, the stored statuses follow the table of
transitions, each by the use case that performs it, and profile edits leave them as they are. -/
theorem profile_edits_keep_status (D : UserDeployment) (hjournal : start.journal = [])
    {P : UserPool}
    (hrun : RunWhile D.step
      (fun P e => Starts (fun c => c.writesStored = true) e ∧ P.Allows FindsStatus e)
      (Pool.initial start) P) :
    StatusesLawful start P.store := by
  have hcalls := allows_of_starts (fun c hc => calls_body D hc) hrun
  refine hcalls.invariant (I := fun P => StatusesLawful start P.store)
    (statusesLawful_start hjournal) ?_
  intro P e P' hlawful hok hstep
  rcases Pool.step_cases hstep with ⟨i, c, rfl, -, rfl⟩ |
    ⟨i, ω, c, begun, q, k, r, t, rfl, hi, hserve, rfl⟩
  · exact hlawful
  · have hcall : Performed q ∧ FindsStatus i P.store q ω := by simpa [Pool.Allows, hi] using hok
    by_cases hq : ∃ useCase found user, q = .saveUser useCase found user
    · obtain ⟨useCase, found, user, rfl⟩ := hq
      obtain ⟨⟨before, rfl, hperforms⟩, hfinds⟩ := hcall
      cases ω <;> cases hserve
      exact hlawful.saveUser hfinds hperforms
    · push Not at hq
      obtain ⟨husers, hjournal⟩ := untouched_of_serve hserve hq
      exact ⟨by rw [husers, hjournal]; exact hlawful.stored,
        by rw [hjournal]; exact hlawful.performed⟩

/-! ## Runs that are lawful, and one that is not -/

theorem sampleEmail_valid : Email.problem "ada@example.com" = none := by decide +kernel

/-- A store with one active user. -/
def sampleActive : UserStore :=
  { UserStore.empty with
    usersById := KeyedMap.empty.put
      { id := "u1", email := ⟨"ada@example.com", sampleEmail_valid⟩, displayName := ⟨"Ada"⟩,
        personName := none, status := .active, createdAt := 0, updatedAt := 0 } }

/-- A deployment whose digest is the text itself. -/
def plainDeployment : UserDeployment := ⟨id, id, none⟩

/-- Her profile is edited, and then she is suspended. -/
def sampleEditedFirst : UserPool :=
  (execWhile plainDeployment.step
    (fun P e => Starts (fun c => c.writesStored = true) e ∧ P.Allows FindsStatus e)
    (Pool.initial sampleActive)
    [.start 0 (.updateUserProfile ⟨"u1", some "Ada L.", none, none⟩),
      .start 1 (.suspendUser ⟨"u1", "abuse"⟩), .answer 0 .served, .answer 0 (.time 1),
      .answer 0 .served, .answer 1 .served, .answer 1 (.time 2), .answer 1 .served]).get
    (by decide +kernel)

theorem profile_edits_keep_status_sample :
    (sampleEditedFirst.store.usersById.get? "u1").map User.status = some .suspended ∧
      StatusesLawful sampleActive sampleEditedFirst.store :=
  ⟨by decide +kernel, profile_edits_keep_status plainDeployment rfl (runWhile_get _)⟩

/-- She is suspended while her profile is being edited. -/
def sampleSlowEdit : UserPool :=
  (execWhile plainDeployment.step (fun _ e => Starts (fun c => c.writesStored = true) e)
    (Pool.initial sampleActive)
    [.start 0 (.updateUserProfile ⟨"u1", some "Ada L.", none, none⟩),
      .start 1 (.suspendUser ⟨"u1", "abuse"⟩), .answer 0 .served, .answer 1 .served,
      .answer 1 (.time 1), .answer 1 .served, .answer 0 (.time 2), .answer 0 .served]).get
    (by decide +kernel)

/-- The edit makes her active again. -/
theorem profile_edit_reactivates :
    RunWhile plainDeployment.step (fun _ e => Starts (fun c => c.writesStored = true) e)
        (Pool.initial sampleActive) sampleSlowEdit ∧
      ¬ StatusesLawful sampleActive sampleSlowEdit.store := by
  refine ⟨runWhile_get _, fun hlawful => ?_⟩
  have hjournal : sampleSlowEdit.store.journal =
      [] ++ ⟨.updateUserProfile, "u1", some .suspended, .active⟩ ::
        [⟨.suspendUser, "u1", some .active, .suspended⟩] := by decide +kernel
  obtain ⟨before, hbefore, hperforms, -⟩ := hlawful.performed _ _ _ hjournal
  have hsuspended : some UserStatus.suspended = some before := hbefore
  obtain rfl := Option.some.inj hsuspended
  cases hperforms

end Verixa.Identity
