import Verixa.Concurrency.Journal
import Verixa.Mfa.BackupCodes

/-!
# The redemption of backup codes

Executions of both use cases over a store, in any interleaving.  An execution redeems a code by
saving the set without its hash, which it has read in an earlier call, so that two executions at
once can redeem the same code (`code_redeemed_twice`).

In runs in which every such save finds the set stored as it was read, the codes that are redeemed
of a method are among those that were stored for it, each as often as it was stored at most.
-/

namespace Verixa.Mfa

open Concurrency Encoding

/-! ## What is redeemed -/

/-- The hash that a save redeems of a method. -/
def BackupDeed.redeemed? (id : String) : BackupDeed → Option CodeUnits
  | .saved hash method => if method.id = id then hash else none
  | _ => none

/-- The hashes of a new set that is saved as a method. -/
def BackupDeed.issued (id : String) : BackupDeed → List CodeUnits
  | .saved none method => if method.id = id then method.storedHashes.getD [] else []
  | _ => []

namespace BackupStore

/-- The hashes that are stored for a method. -/
def hashesAt (s : BackupStore) (id : String) : List CodeUnits :=
  ((s.methodsById.get? id).bind MfaMethod.storedHashes).getD []

/-- The hashes that saves have redeemed of a method, the latest first. -/
def redemptions (s : BackupStore) (id : String) : List CodeUnits :=
  s.journal.filterMap fun entry => entry.2.redeemed? id

/-- The hashes of the new sets that were saved as a method. -/
def issues (s : BackupStore) (id : String) : List CodeUnits :=
  s.journal.flatMap fun entry => entry.2.issued id

/-- A thread that has matched a hash finds the set stored that it has found. -/
def isSetFound (s : BackupStore) (i : ℕ) (id : String) : Bool :=
  (s.matchedBy i).isNone || (s.foundBy i).any fun found =>
    (s.methodsById.get? id).any fun stored => decide (stored.secret = found.secret)

end BackupStore

/-- What an execution has left of the codes, if it has redeemed one. -/
def remaining? : Except ThrownError ConsumeBackupCodeOutcome → Option ℕ
  | .ok (.ok codesRemaining) => some codesRemaining
  | .ok .exhausted => some 0
  | _ => none

/-- The command for which the thread has redeemed a code, and how many are left. -/
def BackupPool.consumedFor (P : BackupPool) (i : ℕ) : Option (ConsumeBackupCodeCommand × ℕ) :=
  match P.returned i with
  | some ⟨.consume command, result⟩ => (remaining? result).map fun remaining => (command, remaining)
  | _ => none

/-- The hashes that the threads which have redeemed a code have redeemed of a method. -/
def BackupPool.redeemedHashes (P : BackupPool) (id : String) : List CodeUnits :=
  (P.store.journal.filter fun entry => (P.consumedFor entry.1).isSome).filterMap fun entry =>
    entry.2.redeemed? id

/-- What is redeemed of a method is among what was stored for it, as often at most. -/
def CodesRedeemOnce (s : BackupStore) (P : BackupPool) : Prop :=
  ∀ id, (P.redeemedHashes id).Subperm (s.hashesAt id ++ P.store.issues id)

/-- A save after a match finds stored what its thread has found. -/
def SetsUntouched (i : ℕ) (s : BackupStore) (q : BackupRequest) (_ : BackupInput) : Prop :=
  match q with
  | .save method => s.isSetFound i method.id = true
  | _ => True

instance (i : ℕ) (s : BackupStore) (q : BackupRequest) (ω : BackupInput) :
    Decidable (SetsUntouched i s q ω) :=
  match q with
  | .save _ => inferInstanceAs (Decidable (_ = true))
  | .now | .createId | .randomBytes | .argon2Hash _ | .argon2Verify _ _ | .findActiveByUserId _
  | .findPendingByUserId _ | .delete _ | .record _ _ _ => isTrue trivial

/-! ## The law of redemption -/

/-- What was redeemed and what is left was stored. -/
def Conserved (s₀ s : BackupStore) : Prop :=
  ∀ id, (s.redemptions id ++ s.hashesAt id).Subperm (s₀.hashesAt id ++ s.issues id)

/-- A law of stored sets, with its invariant. -/
def backupLaw (inv : BackupStore → Prop) : JournalLaw BackupStore BackupDeed where
  journal := BackupStore.journal
  inv := inv
  order _ _ := True
  order_refl _ := trivial
  order_trans _ _ _ _ _ := trivial

/-- What an execution promises of a call: after a match it saves what it has found without the
hash. -/
def BackupJustified (i : ℕ) (s : BackupStore) : BackupRequest → Prop
  | .save method => ∀ hash, s.matchedBy i = some hash → ∃ found hashes index,
    s.foundBy i = some found ∧ method.id = found.id ∧ found.storedHashes = some hashes ∧
      hashes[index]? = some hash ∧ method.storedHashes = some (hashes.eraseIdx index)
  | _ => True

section Law

variable {i : ℕ} {s₀ s t : BackupStore} {id : String}

/-- The hashes of a method are those of its secret. -/
theorem storedHashes_congr {method other : MfaMethod} (h : method.secret = other.secret) :
    method.storedHashes = other.storedHashes := by
  rw [MfaMethod.storedHashes, presentSecret, h, MfaMethod.storedHashes, presentSecret]

theorem hashesAt_saved {method : MfaMethod} :
    (s.saved i method).hashesAt id =
      if method.id = id then method.storedHashes.getD [] else s.hashesAt id := by
  rw [BackupStore.hashesAt]
  change (((s.methodsById.put method).get? id).bind MfaMethod.storedHashes).getD [] = _
  rw [KeyedMap.get?_put]
  split_ifs
  · rfl
  · rfl

/-- A deed that is no save redeems nothing and stores nothing. -/
theorem Conserved.of_deed (h : Conserved s₀ s) {deed : BackupDeed}
    (hdeed : ∀ matched method, deed ≠ .saved matched method) : Conserved s₀ (s.note i deed) := by
  intro id
  have hredeemed : deed.redeemed? id = none ∧ deed.issued id = [] := by
    cases deed with
    | saved matched method => exact absurd rfl (hdeed matched method)
    | _ => exact ⟨rfl, rfl⟩
  have hredemptions : (s.note i deed).redemptions id = s.redemptions id :=
    List.filterMap_cons_none hredeemed.1
  have hissues : (s.note i deed).issues id = s.issues id := by
    change deed.issued id ++ s.issues id = _
    rw [hredeemed.2, List.nil_append]
  rw [hredemptions, hissues]
  exact h id

/-- What is deleted is no longer left. -/
theorem Conserved.deleted (h : Conserved s₀ s) : Conserved s₀ (s.deleted id) := by
  intro other
  have hsub : ((s.deleted id).hashesAt other).Sublist (s.hashesAt other) := by
    change ((((s.methodsById.erase id).get? other).bind MfaMethod.storedHashes).getD []).Sublist _
    rw [KeyedMap.get?_erase]
    split_ifs
    · exact List.nil_sublist _
    · exact List.Sublist.refl _
  exact (hsub.append_left _).subperm.trans (h other)

/-- A new set is stored with its own hashes. -/
theorem Conserved.save_new (h : Conserved s₀ s) {method : MfaMethod}
    (hmatched : s.matchedBy i = none) : Conserved s₀ (s.saved i method) := by
  intro other
  have hredemptions : (s.saved i method).redemptions other = s.redemptions other := by
    refine List.filterMap_cons_none ?_
    change (if method.id = other then s.matchedBy i else none) = none
    rw [hmatched, ite_self]
  have hissues : (s.saved i method).issues other =
      (if method.id = other then method.storedHashes.getD [] else []) ++ s.issues other := by
    change BackupDeed.issued other (.saved (s.matchedBy i) method) ++ s.issues other = _
    rw [hmatched]
    rfl
  rw [hredemptions, hissues, hashesAt_saved]
  split_ifs
  · have hbefore : (s.redemptions other).Subperm (s₀.hashesAt other ++ s.issues other) :=
      (List.sublist_append_left _ _).subperm.trans (h other)
    rw [← Multiset.coe_le] at hbefore ⊢
    rw [← Multiset.coe_add] at hbefore ⊢
    rw [← Multiset.coe_add, ← Multiset.coe_add, add_left_comm, add_comm]
    exact add_le_add_right hbefore _
  · exact h other

/-- A hash that is redeemed is no longer left. -/
theorem Conserved.save_redeemed (h : Conserved s₀ s) {method : MfaMethod}
    {hash : CodeUnits} {hashes : List CodeUnits} {index : ℕ}
    (hmatched : s.matchedBy i = some hash) (hbefore : s.hashesAt method.id = hashes)
    (hindex : hashes[index]? = some hash)
    (hleft : method.storedHashes = some (hashes.eraseIdx index)) :
    Conserved s₀ (s.saved i method) := by
  intro other
  have hissues : (s.saved i method).issues other = s.issues other := by
    change BackupDeed.issued other (.saved (s.matchedBy i) method) ++ s.issues other = _
    rw [hmatched]
    rfl
  rw [hissues, hashesAt_saved]
  by_cases hid : method.id = other
  · have hredemptions : (s.saved i method).redemptions other = hash :: s.redemptions other := by
      refine List.filterMap_cons_some ?_
      change (if method.id = other then s.matchedBy i else none) = some hash
      rw [if_pos hid, hmatched]
    obtain ⟨hlt, hget⟩ := List.getElem?_eq_some_iff.mp hindex
    have hperm : (hash :: hashes.eraseIdx index).Perm hashes := by
      rw [← hget]
      exact List.getElem_cons_eraseIdx_perm hlt
    rw [hredemptions, if_pos hid, hleft, Option.getD_some]
    have hsame : (hash :: s.redemptions other ++ hashes.eraseIdx index).Perm
        (s.redemptions other ++ s.hashesAt other) := by
      rw [List.cons_append, ← hid, hbefore]
      exact List.perm_middle.symm.trans (hperm.append_left _)
    exact hsame.subperm.trans (h other)
  · have hredemptions : (s.saved i method).redemptions other = s.redemptions other := by
      refine List.filterMap_cons_none ?_
      exact if_neg hid
    rw [hredemptions, if_neg hid]
    exact h other

theorem isJournal_backupLaw {inv : BackupStore → Prop} :
    (backupLaw inv).IsJournal BackupStore.serve :=
  fun _ _ _ _ _ _ hserve => journal_of_backupEffect (BackupStore.effect_of_serve hserve)

/-- Justified saves of untouched sets keep the law. -/
theorem keptBy_backupLaw :
    (backupLaw (Conserved s₀)).KeptBy BackupStore.serve SetsUntouched BackupJustified := by
  intro i s q ω r t hinv hjust hallowed hserve
  have hconserved : Conserved s₀ s := hinv
  refine ⟨?_, trivial⟩
  cases BackupStore.effect_of_serve hserve with
  | nothing => exact hconserved
  | found => exact hconserved.of_deed (by rintro _ _ ⟨⟩)
  | matched => exact hconserved.of_deed (by rintro _ _ ⟨⟩)
  | deleted => exact hconserved.deleted
  | @saved method =>
    cases hmatched : s.matchedBy i with
    | none => exact hconserved.save_new hmatched
    | some hash =>
      obtain ⟨found, hashes, index, hfound, -, hhashes, hindex, hleft⟩ := hjust hash hmatched
      have huntouched : s.isSetFound i method.id = true := hallowed
      rw [BackupStore.isSetFound, hmatched, hfound] at huntouched
      obtain ⟨stored, hstored, hsecret⟩ := (Option.any_eq_true _ _).mp huntouched
      refine hconserved.save_redeemed hmatched ?_ hindex hleft
      rw [BackupStore.hashesAt, hstored, Option.bind_some,
        storedHashes_congr (of_decide_eq_true hsecret), hhashes, Option.getD_some]

end Law

/-! ## The walk through the use cases -/

/-- The thread has saved an active backup method of the user, without a hash that its code was
verified against, and so many hashes are left. -/
def Redeems (upper : UpperCasing) (i : ℕ) (command : ConsumeBackupCodeCommand) (remaining : ℕ)
    (s : BackupStore) : Prop :=
  ∃ hash method left, (i, .saved (some hash) method) ∈ s.journal ∧
    (i, .matched hash (BackupCodeSet.expectedFormat upper command.code)) ∈ s.journal ∧
    method.userId = command.userId ∧ method.type = .backup_codes ∧ method.status = .active ∧
    method.storedHashes = some left ∧ left.length = remaining

/-- An execution that has redeemed a code has done so in the store. -/
def AnswersRedemption (upper : UpperCasing) (i : ℕ) (command : ConsumeBackupCodeCommand)
    (s : BackupStore) (result : Except ThrownError ConsumeBackupCodeOutcome) : Prop :=
  ∀ remaining, remaining? result = some remaining → Redeems upper i command remaining s

section Walk

variable {upper : UpperCasing} {inv : BackupStore → Prop}
  {allowed : ℕ → BackupStore → BackupRequest → BackupInput → Prop} {i : ℕ} {s : BackupStore}
  {γ : Type} {deeds : List BackupDeed}

/-- The program keeps the law when the thread runs it, and ends with `post`. -/
def KeepsSets (inv : BackupStore → Prop)
    (allowed : ℕ → BackupStore → BackupRequest → BackupInput → Prop) (i : ℕ)
    (post : BackupStore → γ → Prop) (p : Program BackupRequest BackupRequest.Answer γ)
    (s : BackupStore) : Prop :=
  Safe (backupLaw inv).contract BackupStore.serve allowed i post p s

variable {post : BackupStore → γ → Prop}

theorem keepsSets_ret {a : γ} (hknows : (backupLaw inv).deedsOf i s = deeds)
    (h : ∀ t, (backupLaw inv).deedsOf i t = deeds → post t a) :
    KeepsSets inv allowed i post (.ret a) s :=
  (backupLaw inv).safe_ret hknows fun t _ _ => h t

variable (hkept : (backupLaw inv).KeptBy BackupStore.serve allowed BackupJustified)
include hkept

/-- A call, of which the thread knows what it has done before. -/
theorem keepsSets_call {q : BackupRequest}
    {k : q.Answer → Program BackupRequest BackupRequest.Answer γ}
    (hknows : (backupLaw inv).deedsOf i s = deeds)
    (hjust : ∀ t, (backupLaw inv).deedsOf i t = deeds → BackupJustified i t q)
    (h : ∀ t ω r u, (backupLaw inv).deedsOf i t = deeds →
      BackupStore.serve i t q ω = some (r, u) → KeepsSets inv allowed i post (k r) u) :
    KeepsSets inv allowed i post (.call q k) s := by
  refine (backupLaw inv).safe_call isJournal_backupLaw hkept hknows ?_ ?_
  · exact fun t _ _ => hjust t
  · exact fun t ω r u _ _ hknows_t _ hserve _ _ => h t ω r u hknows_t hserve

/-- A call that the law does not look at. -/
theorem keepsSets_quiet {q : BackupRequest}
    {k : q.Answer → Program BackupRequest BackupRequest.Answer γ}
    (hknows : (backupLaw inv).deedsOf i s = deeds) (hsave : ∀ method, q ≠ .save method)
    (hquiet : ∀ t ω r u, BackupStore.serve i t q ω = some (r, u) → u.journal = t.journal)
    (h : ∀ u r, (backupLaw inv).deedsOf i u = deeds → KeepsSets inv allowed i post (k r) u) :
    KeepsSets inv allowed i post (.call q k) s := by
  refine keepsSets_call hkept hknows (fun t _ => ?_) fun t ω r u hknows_t hserve => ?_
  · cases q with
    | save method => exact absurd rfl (hsave method)
    | _ => trivial
  · exact h u r ((JournalLaw.deedsOf_of_same (hquiet t ω r u hserve)).trans hknows_t)

/-- Recording an entry of the audit log. -/
theorem keepsSets_record {action actorId : String} {metadata : List (String × String)}
    {rest : Unit → BackupMethod γ} {post : BackupStore → Except ThrownError γ → Prop}
    (hknows : (backupLaw inv).deedsOf i s = deeds)
    (hthrown : ∀ t thrown, (backupLaw inv).deedsOf i t = deeds → post t (.error thrown))
    (h : ∀ t, (backupLaw inv).deedsOf i t = deeds → KeepsSets inv allowed i post (rest ()) t) :
    KeepsSets inv allowed i post (awaiting (BackupCalls.record action actorId metadata) rest)
      s := by
  refine keepsSets_quiet (q := .record action actorId metadata) hkept hknows (by rintro _ ⟨⟩) ?_ ?_
  · intro t ω r u hserve
    cases ω <;> cases hserve <;> rfl
  · intro u answer hknows_u
    cases answer with
    | error thrown => exact keepsSets_ret hknows_u fun t => hthrown t thrown
    | ok value => exact h u hknows_u

/-- Looking for the hash that a code verifies. -/
theorem keepsSets_matchedIndex {code : CodeUnits} {hashes : List CodeUnits}
    (hknows : (backupLaw inv).deedsOf i s = deeds) :
    KeepsSets inv allowed i (fun t outcome => ∀ found, outcome = .ok found →
        found = none ∧ (backupLaw inv).deedsOf i t = deeds ∨
          ∃ index hash, found = some index ∧ hashes[index]? = some hash ∧
            (backupLaw inv).deedsOf i t =
              .matched hash (BackupCodeSet.expectedFormat upper code) :: deeds)
      (ConsumeBackupCode.matchedIndex upper code hashes) s := by
  induction hashes generalizing s with
  | nil =>
    refine keepsSets_ret hknows fun t hknows_t found hfound => ?_
    exact .inl ⟨(Except.ok.inj hfound).symm, hknows_t⟩
  | cons hash hashes ih =>
    refine keepsSets_call (q := .argon2Verify hash _) hkept hknows (fun _ _ => trivial) ?_
    intro t ω r u hknows_t hserve
    rcases serve_argon2Verify hserve with ⟨rfl, rfl⟩ | ⟨hr, rfl⟩
    · refine keepsSets_ret (JournalLaw.deedsOf_of_deed rfl hknows_t) ?_
      intro v hknows_v found hfound
      exact .inr ⟨0, hash, (Except.ok.inj hfound).symm, rfl, hknows_v⟩
    · rcases r with thrown | (_ | _)
      · exact keepsSets_ret hknows_t fun v _ found hfound => by cases hfound
      · change KeepsSets inv allowed i _
          (awaiting (ConsumeBackupCode.matchedIndex upper code hashes) _) u
        refine Safe.awaiting (ih hknows_t) ?_ ?_
        · exact fun v thrown _ => keepsSets_ret rfl fun w _ found hfound => by cases hfound
        · intro v found hpost
          rcases hpost found rfl with ⟨rfl, hknows_v⟩ | ⟨index, hash', rfl, hget, hknows_v⟩
          · refine keepsSets_ret hknows_v fun w hknows_w found hfound => ?_
            exact .inl ⟨(Except.ok.inj hfound).symm, hknows_w⟩
          · refine keepsSets_ret hknows_v fun w hknows_w found hfound => ?_
            exact .inr ⟨index + 1, hash', (Except.ok.inj hfound).symm, hget, hknows_w⟩
      · exact absurd rfl hr

/-- Saving the set without the hash that was matched, and recording it. -/
theorem keepsSets_consume {command : ConsumeBackupCodeCommand} {method : MfaMethod}
    {methods : List MfaMethod} {hashes : List CodeUnits} {index : ℕ} {hash : CodeUnits}
    (hmethod : backupMethod? methods = some method) (huser : method.userId = command.userId)
    (hactive : method.status = .active) (hhashes : method.storedHashes = some hashes)
    (hget : hashes[index]? = some hash)
    (hknows : (backupLaw inv).deedsOf i s =
      [.matched hash (BackupCodeSet.expectedFormat upper command.code), .found methods]) :
    KeepsSets inv allowed i (AnswersRedemption upper i command)
      (ConsumeBackupCode.consume command.userId method (hashes.eraseIdx index)) s := by
  refine keepsSets_quiet (q := .now) hkept hknows (by rintro _ ⟨⟩) ?_ fun t now hknows_t => ?_
  · intro t ω r u hserve
    cases ω <;> cases hserve
    rfl
  have hleft : (method.updateSecret (hashesText (hashes.eraseIdx index)) now).storedHashes =
      some (hashes.eraseIdx index) := storedHashes_of_secret rfl
  have hfound : [BackupDeed.matched hash (BackupCodeSet.expectedFormat upper command.code),
      .found methods].findSome? BackupDeed.found? = some method := by
    have hdeed : BackupDeed.found? (.found methods) = some method := hmethod
    rw [List.findSome?_cons, List.findSome?_cons, hdeed]
    rfl
  have hghost : ∀ u, (backupLaw inv).deedsOf i u =
        [.matched hash (BackupCodeSet.expectedFormat upper command.code), .found methods] →
      u.matchedBy i = some hash ∧ u.foundBy i = some method := fun u hknows_u =>
    ⟨congrArg (List.findSome? BackupDeed.matched?) hknows_u,
      (congrArg (List.findSome? BackupDeed.found?) hknows_u).trans hfound⟩
  refine keepsSets_call (q := .save _) hkept hknows_t ?_ ?_
  · intro u hknows_u other hmatched
    obtain rfl := Option.some.inj ((hghost u hknows_u).1.symm.trans hmatched)
    exact ⟨method, hashes, index, (hghost u hknows_u).2, rfl, hhashes, hget, hleft⟩
  · intro u ω r v hknows_u hserve
    rcases serve_save hserve with ⟨rfl, rfl⟩ | ⟨⟨thrown, rfl⟩, rfl⟩
    · have hknows_v := JournalLaw.deedsOf_of_deed (J := backupLaw inv) (i := i)
        (t := u.saved i (method.updateSecret (hashesText (hashes.eraseIdx index)) now)) rfl hknows_u
      rw [(hghost u hknows_u).1] at hknows_v
      refine keepsSets_record hkept hknows_v ?_ fun w hknows_w => ?_
      · rintro w thrown - remaining ⟨⟩
      refine keepsSets_ret hknows_w fun x hknows_x remaining hremaining => ?_
      have hmem : ∀ deed ∈ (backupLaw inv).deedsOf i x, (i, deed) ∈ x.journal := fun deed hdeed =>
        JournalLaw.mem_deedsOf.mp hdeed
      rw [hknows_x] at hmem
      refine ⟨hash, _, _, hmem _ List.mem_cons_self, hmem _ (by simp), huser, ?_, hactive, hleft,
        ?_⟩
      · have htype : decide (method.type = .backup_codes) = true :=
          List.find?_some (p := fun m : MfaMethod => decide (m.type = .backup_codes)) hmethod
        exact of_decide_eq_true htype
      · split_ifs at hremaining with hempty
        · exact hempty.trans (Option.some.inj hremaining)
        · exact Option.some.inj hremaining
    · refine keepsSets_ret hknows_u ?_
      rintro w - remaining ⟨⟩

/-- Redeeming a code, once the active methods are found. -/
theorem keepsSets_redeem {command : ConsumeBackupCodeCommand} {methods : List MfaMethod}
    (hmethods : ∀ method ∈ methods, method.userId = command.userId ∧ method.status = .active)
    (hknows : (backupLaw inv).deedsOf i s = [.found methods]) :
    KeepsSets inv allowed i (AnswersRedemption upper i command)
      (ConsumeBackupCode.redeem upper command methods) s := by
  rw [ConsumeBackupCode.redeem]
  split
  · exact keepsSets_ret hknows (by rintro t - remaining ⟨⟩)
  rename_i method hmethod
  obtain ⟨huser, hactive⟩ := hmethods method (List.mem_of_find?_eq_some hmethod)
  split
  · exact keepsSets_ret hknows (by rintro t - remaining ⟨⟩)
  rename_i hashes hhashes
  refine Safe.awaiting (keepsSets_matchedIndex hkept hknows) ?_ ?_
  · exact fun t thrown _ => keepsSets_ret rfl (by rintro u - remaining ⟨⟩)
  · intro t found hpost
    rcases hpost found rfl with ⟨rfl, hknows_t⟩ | ⟨index, hash, rfl, hget, hknows_t⟩
    · refine keepsSets_record hkept hknows_t ?_ fun u hknows_u => ?_
      · rintro u thrown - remaining ⟨⟩
      · exact keepsSets_ret hknows_u (by rintro v - remaining ⟨⟩)
    · exact keepsSets_consume hkept hmethod huser hactive hhashes hget hknows_t

/-- Redeeming a code. -/
theorem keepsSets_execute {command : ConsumeBackupCodeCommand}
    (hidle : (backupLaw inv).deedsOf i s = []) :
    KeepsSets inv allowed i (AnswersRedemption upper i command)
      (ConsumeBackupCode.execute upper command) s := by
  refine keepsSets_call (q := .findActiveByUserId _) hkept hidle (fun _ _ => trivial) ?_
  intro t ω r u hknows_t hserve
  rcases serve_findActive hserve with ⟨rfl, rfl⟩ | ⟨⟨thrown, rfl⟩, rfl⟩
  · refine keepsSets_redeem hkept ?_ (JournalLaw.deedsOf_of_deed rfl hknows_t)
    intro method hmem
    have hstored := (List.mem_filter.mp hmem).2
    rw [Bool.and_eq_true, decide_eq_true_eq, decide_eq_true_eq] at hstored
    exact hstored
  · exact keepsSets_ret hknows_t (by rintro v - remaining ⟨⟩)

/-- A program that verifies no code. -/
theorem keepsSets_of_calls {p : Program BackupRequest BackupRequest.Answer γ}
    (hp : p.Calls fun q => ∀ hash code, q ≠ .argon2Verify hash code)
    (hnone : s.matchedBy i = none) : KeepsSets inv allowed i (fun _ _ => True) p s := by
  induction hp generalizing s with
  | ret a => exact keepsSets_ret rfl fun _ _ => trivial
  | @call q k hq _ ih =>
    have hunmatched : ∀ t, (backupLaw inv).deedsOf i t = s.deedsOf i → t.matchedBy i = none :=
      fun t hknows => (congrArg (List.findSome? BackupDeed.matched?) hknows).trans hnone
    refine keepsSets_call hkept (rfl : (backupLaw inv).deedsOf i s = s.deedsOf i) ?_ ?_
    · intro t hknows
      cases q with
      | save method =>
        intro hash hmatched
        rw [hunmatched t hknows] at hmatched
        cases hmatched
      | _ => trivial
    · intro t ω r u hknows hserve
      have hnone_t := hunmatched t hknows
      refine ih r ?_
      -- what the call adds to the deeds of the thread is no match
      have hadds : ∀ deed : BackupDeed, deed.matched? = none →
          (t.note i deed).matchedBy i = none := by
        intro deed hdeed
        have hdeeds := JournalLaw.deedsOf_of_deed (J := backupLaw inv) (i := i) (s := t)
          (t := t.note i deed) rfl rfl
        refine (congrArg (List.findSome? BackupDeed.matched?) hdeeds).trans ?_
        rw [List.findSome?_cons, hdeed]
        exact hnone_t
      cases BackupStore.effect_of_serve hserve with
      | nothing => exact hnone_t
      | found => exact hadds _ rfl
      | @matched hash code => exact absurd rfl (hq hash code)
      | saved => exact hadds _ rfl
      | deleted => exact hnone_t

end Walk

/-! ## The calls of a generation -/

section Calls

/-- No code is verified. -/
def BackupRequest.VerifiesNothing (q : BackupRequest) : Prop :=
  ∀ hash code, q ≠ .argon2Verify hash code

theorem calls_generate (count : ℕ) :
    (GenerateBackupCodes.generate count).Calls BackupRequest.VerifiesNothing := by
  induction count with
  | zero => exact .ret _
  | succ count ih =>
    refine .call (by rintro _ _ ⟨⟩) fun randomBuffer => ?_
    refine Program.Calls.awaiting (.perform (by rintro _ _ ⟨⟩)) fun hash => ?_
    exact Program.Calls.awaiting ih fun others => .ret _

theorem calls_deleteAll (methods : List MfaMethod) :
    (GenerateBackupCodes.deleteAll methods).Calls BackupRequest.VerifiesNothing := by
  induction methods with
  | nil => exact .ret _
  | cons method methods ih =>
    exact Program.Calls.awaiting (.perform (by rintro _ _ ⟨⟩)) fun _ => ih

theorem calls_store {userId : String} {generated : List (CodeUnits × CodeUnits)} :
    (GenerateBackupCodes.store userId generated).Calls BackupRequest.VerifiesNothing := by
  refine .call (by rintro _ _ ⟨⟩) fun createdAt => .call (by rintro _ _ ⟨⟩) fun id =>
    .call (by rintro _ _ ⟨⟩) fun activatedAt => ?_
  refine Program.Calls.awaiting (.perform (by rintro _ _ ⟨⟩)) fun _ => ?_
  exact Program.Calls.awaiting (.perform (by rintro _ _ ⟨⟩)) fun _ => .ret _

theorem calls_generateBackupCodes {userId : String} :
    (GenerateBackupCodes.execute userId).Calls BackupRequest.VerifiesNothing := by
  refine Program.Calls.awaiting (calls_generate _) fun generated => ?_
  refine Program.Calls.awaiting (.perform (by rintro _ _ ⟨⟩)) fun active => ?_
  refine Program.Calls.awaiting (.perform (by rintro _ _ ⟨⟩)) fun pending => ?_
  exact Program.Calls.awaiting (calls_deleteAll _) fun _ => calls_store

end Calls

/-! ## Runs -/

/-- What an execution answers for. -/
def AnswersBackup (upper : UpperCasing) (i : ℕ) :
    (operation : BackupOperation) → BackupStore → operation.Returns → Prop
  | .consume command, s, result => AnswersRedemption upper i command s result
  | .generate _, _, _ => True

section Runs

variable {upper : UpperCasing} {inv : BackupStore → Prop}
  {allowed : ℕ → BackupStore → BackupRequest → BackupInput → Prop} {i : ℕ} {s : BackupStore}
  {P : BackupPool}

/-- Every execution keeps the law, and answers for the code that it redeems. -/
theorem keepsSets_operation
    (hkept : (backupLaw inv).KeptBy BackupStore.serve allowed BackupJustified)
    {operation : BackupOperation} (hidle : (backupLaw inv).deedsOf i s = []) :
    KeepsSets inv allowed i (AnswersBackup upper i operation) (operation.execute upper) s := by
  cases operation with
  | consume command => exact keepsSets_execute hkept hidle
  | generate userId =>
    refine keepsSets_of_calls hkept calls_generateBackupCodes ?_
    exact congrArg (List.findSome? BackupDeed.matched?) hidle

/-- A law that is kept holds in every run, and the executions answer for what they redeem. -/
theorem sound_backups (hkept : (backupLaw inv).KeptBy BackupStore.serve allowed BackupJustified)
    (hinv : inv s) (hjournal : s.journal = [])
    (hrun : RunWhile (BackupPool.step upper) (fun P e => P.Allows allowed e) (Pool.initial s) P) :
    Sound (backupLaw inv).contract BackupStore.serve allowed
      (fun i t => (backupLaw inv).deedsOf i t = [])
      (fun i operation _ t result => AnswersBackup upper i operation t result) P :=
  (backupLaw inv).sound_of_run (fun _ _ _ _ hidle => keepsSets_operation hkept hidle) hinv
    hjournal hrun

/-- In runs whose saves find the sets untouched, what is redeemed of a method is among what was
stored for it, as often at most. -/
theorem codes_redeem_once (hjournal : s.journal = [])
    (hrun : RunWhile (BackupPool.step upper) (fun P e => P.Allows SetsUntouched e)
      (Pool.initial s) P) : CodesRedeemOnce s P := by
  have hinitial : Conserved s s := by
    intro id
    have hnone : s.redemptions id = [] ∧ s.issues id = [] := by
      rw [BackupStore.redemptions, BackupStore.issues, hjournal]
      exact ⟨rfl, rfl⟩
    rw [hnone.1, hnone.2, List.nil_append, List.append_nil]
  have hconserved : Conserved s P.store :=
    (sound_backups keptBy_backupLaw hinitial hjournal hrun).inv
  intro id
  have hamong : (P.redeemedHashes id).Sublist (P.store.redemptions id) :=
    List.filter_sublist.filterMap _
  have hleft : (P.store.redemptions id).Sublist
      (P.store.redemptions id ++ P.store.hashesAt id) := List.sublist_append_left _ _
  exact (hamong.trans hleft).subperm.trans (hconserved id)

end Runs

/-- A set of two codes. -/
def sampleSet : MfaMethod where
  id := "set"
  userId := "user"
  type := .backup_codes
  status := .active
  secret := some (hashesText [unitsOf "one", unitsOf "two"])
  lastUsedAt := none
  createdAt := 0
  updatedAt := 0
  failedAttempts := 0
  lockedUntil := none
  lastUsedStep := none

/-- The store of that set. -/
def sampleSets : BackupStore := ⟨KeyedMap.empty.put sampleSet, []⟩

/-- A code is presented. -/
def sampleConsumption : ConsumeBackupCodeCommand := ⟨"user", unitsOf "23456-789AB"⟩

/-- Threads 1 and 2 read the set at the same time and match the first hash. -/
def redeemedAtOnce : BackupPool :=
  (exec (BackupPool.step asciiUpperCasing) (Pool.initial sampleSets)
    [.start 1 (.consume sampleConsumption), .start 2 (.consume sampleConsumption),
      .answer 1 .served, .answer 2 .served, .answer 1 (.verified (.ok true)),
      .answer 2 (.verified (.ok true)), .answer 1 (.time 1), .answer 2 (.time 1),
      .answer 1 .served, .answer 2 .served, .answer 1 .served, .answer 2 .served]).get
    (by decide +kernel)

/-- A code can be redeemed twice. -/
theorem code_redeemed_twice :
    ∃ P, Run (BackupPool.step asciiUpperCasing) (Pool.initial sampleSets) P ∧
      ¬CodesRedeemOnce sampleSets P := by
  refine ⟨redeemedAtOnce, runWhile_get _, fun honce => ?_⟩
  have hcount := (honce "set").count_le (unitsOf "one")
  have htwice : (redeemedAtOnce.redeemedHashes "set").count (unitsOf "one") = 2 := by
    decide +kernel
  have hstored : (sampleSets.hashesAt "set" ++ redeemedAtOnce.store.issues "set").count
      (unitsOf "one") = 1 := by
    decide +kernel
  omega

/-- Thread 1 replaces the set, and threads 2 and 3 redeem codes of the new one, one after the
other. -/
def redeemedInARow : BackupPool :=
  (execWhile (BackupPool.step asciiUpperCasing) (fun P e => P.Allows SetsUntouched e)
    (Pool.initial sampleSets)
    (.start 1 (.generate "user") ::
      ((List.range 10).flatMap fun k =>
        [.answer 1 (.bytes sampleBytes), .answer 1 (.hashed (.ok [UInt16.ofNat k]))]) ++
      [.answer 1 .served, .answer 1 .served, .answer 1 .served, .answer 1 (.time 1),
        .answer 1 (.drawn "new"), .answer 1 (.time 1), .answer 1 .served, .answer 1 .served,
        .start 2 (.consume sampleConsumption), .answer 2 .served,
        .answer 2 (.verified (.ok false)), .answer 2 (.verified (.ok true)),
        .answer 2 (.time 2), .answer 2 .served, .answer 2 .served,
        .start 3 (.consume sampleConsumption), .answer 3 .served,
        .answer 3 (.verified (.ok true)), .answer 3 (.time 3), .answer 3 .served,
        .answer 3 .served])).get
    (by decide +kernel)

/-- Two of the ten new codes are redeemed. -/
theorem codes_redeem_once_inARow :
    CodesRedeemOnce sampleSets redeemedInARow ∧ redeemedInARow.redeemedHashes "new" = [[0], [1]] :=
  ⟨codes_redeem_once rfl (runWhile_get _), by decide +kernel⟩

end Verixa.Mfa
