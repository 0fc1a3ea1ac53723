import Verixa.SharedKernel.IsoDate
import Verixa.Audit.AuditMetadata

/-!
# Audit log entries and chain verification

An entry commits to its predecessor: its hash is the SHA-256 digest of a canonical text of its
content, which includes the hash of the entry before it.  The digest is a parameter `sha256` of
every definition here; the texts are well-formed Unicode.

`canonicalize` frames each of seven fields by its byte length.  It takes equal values exactly on
contents that agree field by field, an absent actor or subject counting as the empty text and the
metadata as a map (`canonicalize_eq_iff`).

`verifyChainFrom` is the verification loop.  `Follows` says what it checks of one entry, and the
lemmas about it are the only ones later modules use: acceptance entry by entry
(`verifyChainFrom_cons_eq_none_iff`), splitting at any point (`verifyChainFrom_append`) and the
numbering of an accepted run (`sequence_getElem`).
-/

namespace Verixa

open Encoding

/-- The label prefixed to every canonical form. -/
def CANONICAL_FORM_VERSION : String := "verixa-audit-v2"

/-- The genesis link: what stands in the place of a previous hash in the first entry. -/
def GENESIS_HASH : String := String.ofList (List.replicate 64 '0')

/-- What happened: the closed set of actions that can be recorded. -/
inductive AuditAction where
  | userRegistered
  | userEmailVerified
  | userPasswordChanged
  | userStatusChanged
  | userProfileUpdated
  | organizationInvitationCreated
  | userLoginSucceeded
  | userLoginFailed
  | userLockedOut
  | userPasswordResetRequested
  | userPasswordResetCompleted
  | auditQueried
  | auditExported
  | auditAccessDenied
  | apiKeyCreated
  deriving DecidableEq

/-- The text an action is stored under. -/
def AuditAction.text : AuditAction → String
  | .userRegistered => "user.registered"
  | .userEmailVerified => "user.email_verified"
  | .userPasswordChanged => "user.password_changed"
  | .userStatusChanged => "user.status_changed"
  | .userProfileUpdated => "user.profile_updated"
  | .organizationInvitationCreated => "organization.invitation_created"
  | .userLoginSucceeded => "user.login_succeeded"
  | .userLoginFailed => "user.login_failed"
  | .userLockedOut => "user.locked_out"
  | .userPasswordResetRequested => "user.password_reset_requested"
  | .userPasswordResetCompleted => "user.password_reset_completed"
  | .auditQueried => "audit.queried"
  | .auditExported => "audit.exported"
  | .auditAccessDenied => "audit.access_denied"
  | .apiKeyCreated => "api_key.created"

/-- The part of an entry its hash is computed over.  The action is a text: a row read back from
the database is cast to an action without a check. -/
structure HashedProps where
  sequence : ℤ
  action : String
  actorId : Option String
  subjectId : Option String
  metadata : StringRecord
  occurredAt : Date
  previousHash : String
  deriving DecidableEq

/-- One record of something that happened. -/
structure AuditLogEntry extends HashedProps where
  id : String
  hash : String
  deriving DecidableEq

/-- The seven fields the hash covers, as texts in the order they are hashed in. -/
def HashedProps.fields (props : HashedProps) : List String :=
  [toString props.sequence,
    props.action,
    props.actorId.getD "",
    props.subjectId.getD "",
    props.occurredAt.toISOString,
    props.previousHash,
    AuditMetadata.canonicalForm props.metadata]

/-- The canonical text of a content: a version, the number of fields, and each field behind its
byte length. -/
def canonicalize (props : HashedProps) : String :=
  CANONICAL_FORM_VERSION ++ " " ++ toString props.fields.length ++ " "
    ++ String.intercalate "|" (props.fields.map framed)

/-- Every content has seven hashed fields. -/
@[simp] theorem HashedProps.length_fields (props : HashedProps) : props.fields.length = 7 := rfl

/-- Canonical texts are equal exactly when the fields behind them are. -/
theorem canonicalize_eq_iff_fields (p q : HashedProps) :
    canonicalize p = canonicalize q ↔ p.fields = q.fields := by
  constructor
  · intro h
    simp only [canonicalize, HashedProps.length_fields, String.append_right_inj] at h
    have hlist := congrArg String.toList h
    simp only [String.toList_intercalate, List.map_map] at hlist
    exact selfDelimiting_framed.intercalate_cancel "|".toList (by simp) hlist
  · intro h
    rw [canonicalize, canonicalize, h]

/-- Two contents agree on every hashed field: an absent id reads as the empty text, and metadata
is compared as a map from keys to values. -/
structure HashedProps.Agree (p q : HashedProps) : Prop where
  sequence : p.sequence = q.sequence
  action : p.action = q.action
  actorId : p.actorId.getD "" = q.actorId.getD ""
  subjectId : p.subjectId.getD "" = q.subjectId.getD ""
  occurredAt : p.occurredAt = q.occurredAt
  previousHash : p.previousHash = q.previousHash
  metadata : ∀ key, p.metadata.get? key = q.metadata.get? key

/-- The canonical text determines the content on every hashed field, and nothing more. -/
theorem canonicalize_eq_iff (p q : HashedProps) :
    canonicalize p = canonicalize q ↔ p.Agree q := by
  rw [canonicalize_eq_iff_fields]
  constructor
  · intro h
    simp only [HashedProps.fields, List.cons.injEq, and_true] at h
    obtain ⟨hseq, hact, hactor, hsubj, hat, hprev, hmeta⟩ := h
    exact ⟨Int.repr_injective hseq, hact, hactor, hsubj, Date.toISOString_injective hat, hprev,
      AuditMetadata.canonicalForm_injective hmeta⟩
  · intro h
    simp only [HashedProps.fields, h.sequence, h.action, h.actorId, h.subjectId, h.occurredAt,
      h.previousHash, AuditMetadata.canonicalForm_congr h.metadata]

/-- Canonical texts are equal exactly on contents that agree, and the order in which the metadata
were set never matters. -/
theorem canonicalize_separates (p q : HashedProps) :
    (canonicalize p = canonicalize q ↔
      p.sequence = q.sequence ∧ p.action = q.action ∧
        p.actorId.getD "" = q.actorId.getD "" ∧ p.subjectId.getD "" = q.subjectId.getD "" ∧
        p.occurredAt = q.occurredAt ∧ p.previousHash = q.previousHash ∧
        ∀ key, p.metadata.get? key = q.metadata.get? key) ∧
    ∀ reordered : StringRecord, reordered.entries.Perm p.metadata.entries →
      canonicalize { p with metadata := reordered } = canonicalize p := by
  constructor
  · rw [canonicalize_eq_iff]
    constructor
    · intro h
      exact ⟨h.sequence, h.action, h.actorId, h.subjectId, h.occurredAt, h.previousHash,
        h.metadata⟩
    · rintro ⟨hseq, hact, hactor, hsubj, hat, hprev, hmeta⟩
      exact ⟨hseq, hact, hactor, hsubj, hat, hprev, hmeta⟩
  · intro reordered hperm
    have hsame : ∀ key, reordered.get? key = p.metadata.get? key := by
      intro key
      apply Option.ext
      intro value
      rw [OrderedMap.get?_eq_some_iff, OrderedMap.get?_eq_some_iff]
      exact hperm.mem_iff
    rw [canonicalize_eq_iff]
    exact ⟨rfl, rfl, rfl, rfl, rfl, rfl, hsame⟩

/-- `previous?.hash ?? GENESIS_HASH`: the hash the next entry has to link to. -/
def headHash : Option AuditLogEntry → String
  | none => GENESIS_HASH
  | some previous => previous.hash

/-- The sequence number the next entry has to carry. -/
def nextSequence : Option AuditLogEntry → ℤ
  | none => 1
  | some previous => previous.sequence + 1

/-- Why a chain failed verification. -/
inductive ChainBreakReason where
  | contentAltered
  | linkBroken
  | sequenceGap
  deriving DecidableEq

/-- The first place where a chain failed verification. -/
structure ChainBreak where
  sequence : ℤ
  reason : ChainBreakReason
  deriving DecidableEq

/-- What `toISOString` throws for an invalid date. -/
structure RangeError where
  message : String
  deriving DecidableEq

/-- What an entry is built from; `occurredAt := some none` is an invalid date. -/
structure AppendParams where
  action : AuditAction
  actorId : Option String
  subjectId : Option String
  metadata : Option StringRecord
  previous : Option AuditLogEntry
  occurredAt : Option (Option Date)

section Digest

variable (sha256 : String → String)

/-- SHA-256 over the canonical text, hex-encoded. -/
def computeHash (props : HashedProps) : String :=
  sha256 (canonicalize props)

/-- Appends an entry after `previous`, or starts a chain.  `id` is what `createId` returns and
`now` what `new Date()` returns; an invalid date makes the canonical form throw. -/
def AuditLogEntry.append (id : String) (now : Date) (params : AppendParams) :
    Except RangeError AuditLogEntry :=
  match params.occurredAt.getD (some now) with
  | none => .error ⟨"Invalid time value"⟩
  | some occurredAt =>
    let body : HashedProps :=
      { sequence := nextSequence params.previous
        action := params.action.text
        actorId := params.actorId
        subjectId := params.subjectId
        metadata := params.metadata.getD OrderedMap.empty
        occurredAt := occurredAt
        previousHash := headHash params.previous }
    .ok { body with id := id, hash := computeHash sha256 body }

/-- The hash the entry's content produces, computed from scratch. -/
def AuditLogEntry.recomputedHash (entry : AuditLogEntry) : String :=
  computeHash sha256 entry.toHashedProps

/-- Whether the stored hash matches the content. -/
def AuditLogEntry.hasValidHash (entry : AuditLogEntry) : Bool :=
  entry.hash == entry.recomputedHash sha256

/-- Verifies a contiguous run of entries, seeded with the entry that precedes the run. -/
def verifyChainFrom (previous : Option AuditLogEntry) :
    List AuditLogEntry → Option ChainBreak
  | [] => none
  | entry :: entries =>
    if !entry.hasValidHash sha256 then some ⟨entry.sequence, .contentAltered⟩
    else if entry.previousHash ≠ headHash previous then some ⟨entry.sequence, .linkBroken⟩
    else if entry.sequence ≠ nextSequence previous then some ⟨entry.sequence, .sequenceGap⟩
    else verifyChainFrom (some entry) entries

/-- Verifies a chain from its genesis and reports the first break. -/
def verifyChain (entries : List AuditLogEntry) : Option ChainBreak :=
  verifyChainFrom sha256 none entries

/-- What verification checks of one entry: its hash, its link and its number. -/
structure Follows (previous : Option AuditLogEntry) (entry : AuditLogEntry) : Prop where
  validHash : entry.hash = entry.recomputedHash sha256
  linked : entry.previousHash = headHash previous
  numbered : entry.sequence = nextSequence previous

/-- Collision freedom of the digest on the texts it is given. -/
def InjectiveOnCanonical : Prop :=
  ∀ p q : HashedProps, sha256 (canonicalize p) = sha256 (canonicalize q) →
    canonicalize p = canonicalize q

end Digest

variable {sha256 : String → String}

/-- The stored hash is checked against the content. -/
theorem AuditLogEntry.hasValidHash_iff {entry : AuditLogEntry} :
    entry.hasValidHash sha256 = true ↔ entry.hash = entry.recomputedHash sha256 := by
  simp [AuditLogEntry.hasValidHash]

/-- Verification goes on behind an entry that follows its predecessor. -/
theorem verifyChainFrom_cons_of_follows {previous : Option AuditLogEntry}
    {entry : AuditLogEntry} (h : Follows sha256 previous entry) (entries : List AuditLogEntry) :
    verifyChainFrom sha256 previous (entry :: entries)
      = verifyChainFrom sha256 (some entry) entries := by
  rw [verifyChainFrom.eq_def]
  simp [AuditLogEntry.hasValidHash_iff.mpr h.validHash, h.linked, h.numbered]

/-- Verification stops at an entry that does not follow its predecessor, whatever comes after. -/
theorem verifyChainFrom_cons_of_not_follows {previous : Option AuditLogEntry}
    {entry : AuditLogEntry} (h : ¬ Follows sha256 previous entry) :
    ∃ reason, ∀ entries, verifyChainFrom sha256 previous (entry :: entries)
      = some ⟨entry.sequence, reason⟩ := by
  by_cases hhash : entry.hasValidHash sha256 = true
  · by_cases hlink : entry.previousHash = headHash previous
    · have hseq : entry.sequence ≠ nextSequence previous := fun hseq =>
        h ⟨AuditLogEntry.hasValidHash_iff.mp hhash, hlink, hseq⟩
      exact ⟨.sequenceGap, fun entries => by simp [verifyChainFrom, hhash, hlink, hseq]⟩
    · exact ⟨.linkBroken, fun entries => by simp [verifyChainFrom, hhash, hlink]⟩
  · exact ⟨.contentAltered, fun entries => by simp [verifyChainFrom, hhash]⟩

/-- Verification accepts a run entry by entry. -/
theorem verifyChainFrom_cons_eq_none_iff {previous : Option AuditLogEntry}
    {entry : AuditLogEntry} {entries : List AuditLogEntry} :
    verifyChainFrom sha256 previous (entry :: entries) = none ↔
      Follows sha256 previous entry ∧ verifyChainFrom sha256 (some entry) entries = none := by
  by_cases h : Follows sha256 previous entry
  · rw [verifyChainFrom_cons_of_follows h]
    exact ⟨fun hrest => ⟨h, hrest⟩, fun hboth => hboth.2⟩
  · obtain ⟨reason, hbreak⟩ := verifyChainFrom_cons_of_not_follows h
    rw [hbreak]
    constructor
    · intro hnone
      cases hnone
    · intro hboth
      exact absurd hboth.1 h

/-- The last entry of a run, or the seed when the run is empty, seeds what comes after. -/
theorem getLast?_cons_or (x : AuditLogEntry) (xs : List AuditLogEntry)
    (previous : Option AuditLogEntry) :
    ((x :: xs).getLast?).or previous = xs.getLast?.or (some x) := by
  cases xs with
  | nil => rfl
  | cons y ys => simp [List.getLast?_eq_some_getLast]

/-- Verification of two runs in a row: the second is seeded with the end of the first. -/
theorem verifyChainFrom_append (previous : Option AuditLogEntry) (xs ys : List AuditLogEntry) :
    verifyChainFrom sha256 previous (xs ++ ys) =
      (verifyChainFrom sha256 previous xs).or
        (verifyChainFrom sha256 (xs.getLast?.or previous) ys) := by
  induction xs generalizing previous with
  | nil => simp [verifyChainFrom]
  | cons x xs ih =>
    rw [getLast?_cons_or, List.cons_append]
    by_cases hx : Follows sha256 previous x
    · rw [verifyChainFrom_cons_of_follows hx, verifyChainFrom_cons_of_follows hx, ih]
    · obtain ⟨reason, hbreak⟩ := verifyChainFrom_cons_of_not_follows hx
      rw [hbreak, hbreak, Option.some_or]

/-- An accepted list stays accepted when it is cut short. -/
theorem verifyChainFrom_eq_none_of_append {previous : Option AuditLogEntry}
    {xs ys : List AuditLogEntry} (h : verifyChainFrom sha256 previous (xs ++ ys) = none) :
    verifyChainFrom sha256 previous xs = none ∧
      verifyChainFrom sha256 (xs.getLast?.or previous) ys = none := by
  rw [verifyChainFrom_append, Option.or_eq_none_iff] at h
  exact h

/-- An accepted run is numbered without gaps. -/
theorem sequence_getElem {previous : Option AuditLogEntry} {entries : List AuditLogEntry}
    (h : verifyChainFrom sha256 previous entries = none) (i : ℕ) (hi : i < entries.length) :
    entries[i].sequence = nextSequence previous + i := by
  induction entries generalizing previous i with
  | nil => exact absurd hi (Nat.not_lt_zero i)
  | cons entry entries ih =>
    obtain ⟨hfollows, hrest⟩ := verifyChainFrom_cons_eq_none_iff.mp h
    cases i with
    | zero => simpa using hfollows.numbered
    | succ i =>
      have hi' : i < entries.length := by simpa using hi
      rw [List.getElem_cons_succ, ih hrest i hi', nextSequence, hfollows.numbered]
      push_cast
      ring

/-- The last entry of an accepted chain carries the length of the chain as its number. -/
theorem sequence_getLast {entries : List AuditLogEntry} {last : AuditLogEntry}
    (h : verifyChain sha256 entries = none) (hlast : entries.getLast? = some last) :
    last.sequence = entries.length := by
  have hne : entries ≠ [] := by
    rintro rfl
    simp at hlast
  have hlen : 0 < entries.length := List.length_pos_iff.mpr hne
  rw [List.getLast?_eq_getElem?, List.getElem?_eq_some_iff] at hlast
  obtain ⟨hi, rfl⟩ := hlast
  rw [sequence_getElem h _ hi, nextSequence]
  omega

/-- An accepted run has no two entries with the same number. -/
theorem nodup_sequence {previous : Option AuditLogEntry} {entries : List AuditLogEntry}
    (h : verifyChainFrom sha256 previous entries = none) :
    (entries.map fun entry => entry.sequence).Nodup := by
  rw [List.nodup_iff_injective_getElem]
  intro i j hij
  simp only [List.getElem_map] at hij
  have hi := sequence_getElem h i (by simpa using i.isLt)
  have hj := sequence_getElem h j (by simpa using j.isLt)
  rw [hi, hj] at hij
  exact Fin.ext (by omega)

/-- What is appended: an entry with the given content and the digest of it. -/
theorem content_of_append {id : String} {now : Date} {params : AppendParams}
    {entry : AuditLogEntry} (h : AuditLogEntry.append sha256 id now params = .ok entry) :
    ∃ occurredAt, params.occurredAt.getD (some now) = some occurredAt ∧
      entry.id = id ∧ entry.hash = entry.recomputedHash sha256 ∧
      entry.toHashedProps =
        { sequence := nextSequence params.previous
          action := params.action.text
          actorId := params.actorId
          subjectId := params.subjectId
          metadata := params.metadata.getD OrderedMap.empty
          occurredAt := occurredAt
          previousHash := headHash params.previous } := by
  unfold AuditLogEntry.append at h
  split at h
  · cases h
  · rename_i occurredAt hoccurredAt
    cases h
    exact ⟨occurredAt, hoccurredAt, rfl, rfl, rfl⟩

/-- An entry built after `previous` follows it. -/
theorem follows_of_append {id : String} {now : Date} {params : AppendParams}
    {entry : AuditLogEntry} (h : AuditLogEntry.append sha256 id now params = .ok entry) :
    Follows sha256 params.previous entry := by
  obtain ⟨occurredAt, -, -, hhash, hcontent⟩ := content_of_append h
  exact ⟨hhash, congrArg HashedProps.previousHash hcontent, congrArg HashedProps.sequence hcontent⟩

end Verixa
