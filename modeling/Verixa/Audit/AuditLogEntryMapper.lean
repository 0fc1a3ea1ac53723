import Verixa.Audit.ChainIntegrity

/-!
# Audit rows

`AuditLogEntryMapper` turns entries into database rows and back.  The `metadata` column holds any
JSON value.  `toMetadata` reads it as a flat map of strings: members that are not strings are
dropped, and so is one named `__proto__`; what is not an object reads as the empty map.

A row that carries the hash of an entry and was edited by hand is meant not to verify.  It does
not, exactly when the edit can be seen through this reading (`altered_row_detected_iff`); adding a
member that is not a string cannot (`altered_row_verifies`).
-/

namespace Verixa

/-- A JSON value; a number is its decimal mantissa and the number of places behind the point. -/
inductive Json where
  | null
  | bool (value : Bool)
  | num (mantissa : ℤ) (places : ℕ)
  | str (value : String)
  | arr (items : List Json)
  | obj (members : List (String × Json))

namespace Json

/-- The members of an object; other values have none. -/
def members : Json → List (String × Json)
  | obj members => members
  | _ => []

/-- The member under a key is a string. -/
def text? (json : Json) (key : String) : Option String :=
  match OrderedMap.lookupEntry key json.members with
  | some (str value) => some value
  | _ => none

/-- Equality of JSON values, members of an object being compared whatever their order. -/
def Same : Json → Json → Prop
  | obj members, obj members' =>
    ∀ key, OrderedMap.lookupEntry key members = OrderedMap.lookupEntry key members'
  | value, value' => value = value'

/-- The object with the given string members. -/
def ofStrings (record : StringRecord) : Json :=
  obj (record.entries.map fun p => (p.1, str p.2))

theorem text?_ofStrings (record : StringRecord) (key : String) :
    (ofStrings record).text? key = record.get? key := by
  have hlookup : OrderedMap.lookupEntry key (record.entries.map fun p => (p.1, str p.2)) =
      (record.get? key).map str := OrderedMap.lookupEntry_map str key record.entries
  rw [text?, ofStrings, members, hlookup]
  cases record.get? key <;> rfl

end Json

/-- A row of the audit table.  A JSON column holds one value under each key. -/
structure AuditRow where
  id : String
  sequence : ℤ
  action : String
  actorId : Option String
  subjectId : Option String
  metadata : Json
  occurredAt : Date
  previousHash : String
  hash : String
  nodup_members : (metadata.members.map Prod.fst).Nodup

/-- The loop of `toMetadata` over the members of an object. -/
def toMetadataLoop : List (String × Json) → StringRecord → StringRecord
  | [], result => result
  | (key, .str entry) :: members, result => toMetadataLoop members (result.assign key entry)
  | _ :: members, result => toMetadataLoop members result

/-- Reads `metadata` back as the flat string map the domain expects. -/
def toMetadata : Json → StringRecord
  | .obj members => toMetadataLoop members OrderedMap.empty
  | _ => OrderedMap.empty

namespace AuditLogEntryMapper

/-- The entry a row is read as. -/
def toDomain (row : AuditRow) : AuditLogEntry where
  id := row.id
  sequence := row.sequence
  action := row.action
  actorId := row.actorId
  subjectId := row.subjectId
  metadata := toMetadata row.metadata
  occurredAt := row.occurredAt
  previousHash := row.previousHash
  hash := row.hash

/-- The row an entry is written as. -/
def toRow (entry : AuditLogEntry) : AuditRow where
  id := entry.id
  sequence := entry.sequence
  action := entry.action
  actorId := entry.actorId
  subjectId := entry.subjectId
  metadata := Json.ofStrings entry.metadata
  occurredAt := entry.occurredAt
  previousHash := entry.previousHash
  hash := entry.hash
  nodup_members := by
    simpa [Json.ofStrings, Json.members, Function.comp_def] using entry.metadata.nodup

end AuditLogEntryMapper

open AuditLogEntryMapper

/-! ## What the reader sees of a JSON column -/

/-- What can be read under a key: a string member, unless the key is `__proto__`. -/
def Json.visibleText (json : Json) (key : String) : Option String :=
  if key = protoKey then none else json.text? key

/-- The loop reads the string members, the last one under a key. -/
theorem get?_toMetadataLoop {members : List (String × Json)}
    (hnodup : (members.map Prod.fst).Nodup) (result : StringRecord) (key : String) :
    (toMetadataLoop members result).get? key =
      ((Json.obj members).visibleText key).or (result.get? key) := by
  induction members generalizing result with
  | nil => simp [toMetadataLoop, Json.visibleText, Json.text?, Json.members, OrderedMap.lookupEntry]
  | cons member members ih =>
    obtain ⟨name, value⟩ := member
    simp only [List.map_cons, List.nodup_cons] at hnodup
    have habsent : name = key → OrderedMap.lookupEntry key members = none := by
      rintro rfl
      cases hlookup : OrderedMap.lookupEntry name members with
      | none => rfl
      | some value' =>
        have hmem := (OrderedMap.lookupEntry_eq_some_iff hnodup.2).mp hlookup
        exact absurd (List.mem_map_of_mem hmem) hnodup.1
    cases value with
    | str text =>
      rw [toMetadataLoop, ih hnodup.2, StringRecord.get?_assign]
      by_cases hname : name = key
      · subst hname
        by_cases hproto : name = protoKey
        · simp [Json.visibleText, hproto]
        · simp [Json.visibleText, Json.text?, Json.members, OrderedMap.lookupEntry, hproto,
            habsent rfl]
      · simp [Json.visibleText, Json.text?, Json.members, OrderedMap.lookupEntry, hname]
    | _ =>
      refine (ih hnodup.2 result).trans ?_
      by_cases hname : name = key
      · simp [Json.visibleText, Json.text?, Json.members, OrderedMap.lookupEntry, hname,
          habsent hname]
      · simp [Json.visibleText, Json.text?, Json.members, OrderedMap.lookupEntry, hname]

/-- `toMetadata` reads exactly what is visible of the column. -/
theorem get?_toMetadata {json : Json} (hnodup : (json.members.map Prod.fst).Nodup) (key : String) :
    (toMetadata json).get? key = json.visibleText key := by
  cases json with
  | obj members =>
    have hmembers : (members.map Prod.fst).Nodup := hnodup
    rw [toMetadata, get?_toMetadataLoop hmembers]
    simp
  | _ => simp [toMetadata, Json.visibleText, Json.text?, Json.members, OrderedMap.lookupEntry]

/-! ## Altered rows -/

/-- Two rows agree in every column that is part of the evidence. -/
structure SameColumns (row row' : AuditRow) : Prop where
  sequence : row.sequence = row'.sequence
  action : row.action = row'.action
  actorId : row.actorId = row'.actorId
  subjectId : row.subjectId = row'.subjectId
  metadata : row.metadata.Same row'.metadata
  occurredAt : row.occurredAt = row'.occurredAt
  previousHash : row.previousHash = row'.previousHash

/-- The reader cannot tell the evidence of two rows apart: an id that is NULL reads as an empty
one, and of the metadata only what is visible counts. -/
structure ReadsSame (row row' : AuditRow) : Prop where
  sequence : row.sequence = row'.sequence
  action : row.action = row'.action
  actorId : row.actorId.getD "" = row'.actorId.getD ""
  subjectId : row.subjectId.getD "" = row'.subjectId.getD ""
  metadata : ∀ key, row.metadata.visibleText key = row'.metadata.text? key
  occurredAt : row.occurredAt = row'.occurredAt
  previousHash : row.previousHash = row'.previousHash

/-- Reading the same is agreeing with the entry on every hashed field. -/
theorem agree_toDomain_iff (row : AuditRow) (entry : AuditLogEntry) :
    (toDomain row).toHashedProps.Agree entry.toHashedProps ↔ ReadsSame row (toRow entry) := by
  have hmetadata : ∀ key, (toDomain row).metadata.get? key = row.metadata.visibleText key :=
    fun key => get?_toMetadata row.nodup_members key
  have htext : ∀ key, (toRow entry).metadata.text? key = entry.metadata.get? key :=
    fun key => Json.text?_ofStrings entry.metadata key
  constructor
  · intro h
    refine ⟨h.sequence, h.action, h.actorId, h.subjectId, fun key => ?_, h.occurredAt,
      h.previousHash⟩
    rw [← hmetadata, htext]
    exact h.metadata key
  · intro h
    refine ⟨h.sequence, h.action, h.actorId, h.subjectId, h.occurredAt, h.previousHash,
      fun key => ?_⟩
    rw [← htext, ← h.metadata key]
    exact hmetadata key

variable {sha256 : String → String}

/-- A row that carries the hash of an entry verifies exactly when it reads as the entry's row. -/
theorem hasValidHash_toDomain_iff (hsha : InjectiveOnCanonical sha256) {entry : AuditLogEntry}
    (hentry : entry.hash = entry.recomputedHash sha256) {row : AuditRow}
    (hhash : row.hash = entry.hash) :
    (toDomain row).hasValidHash sha256 = true ↔ ReadsSame row (toRow entry) := by
  rw [AuditLogEntry.hasValidHash_iff, ← agree_toDomain_iff, ← canonicalize_eq_iff]
  have hrow : (toDomain row).hash = entry.recomputedHash sha256 := hhash.trans hentry
  rw [hrow]
  constructor
  · intro h
    exact (hsha _ _ h).symm
  · intro h
    exact congrArg sha256 h.symm

/-- An altered row keeps the hash of its entry.  It does not verify if and only if it is not
altered at all or the alteration can be read. -/
theorem altered_row_detected_iff (hsha : InjectiveOnCanonical sha256) {id : String} {now : Date}
    {params : AppendParams} {entry : AuditLogEntry}
    (hentry : AuditLogEntry.append sha256 id now params = .ok entry) {row : AuditRow}
    (hhash : row.hash = (toRow entry).hash) :
    (¬ SameColumns row (toRow entry) → (toDomain row).hasValidHash sha256 = false) ↔
      (SameColumns row (toRow entry) ∨ ¬ ReadsSame row (toRow entry)) := by
  have hvalid := hasValidHash_toDomain_iff hsha (follows_of_append hentry).validHash hhash
  constructor
  · intro h
    by_cases hsame : SameColumns row (toRow entry)
    · exact .inl hsame
    · right
      intro hreads
      rw [hvalid.mpr hreads] at h
      exact absurd (h hsame) (by simp)
  · rintro (hsame | hreads) hdiffers
    · exact absurd hsame hdiffers
    · exact Bool.eq_false_iff.mpr fun htrue => hreads (hvalid.mp htrue)

/-- What the first sample entry was appended from. -/
def sampleAppend : AppendParams where
  previous := none
  action := .userRegistered
  actorId := some "u1"
  subjectId := some "u1"
  metadata := some sampleMetadata
  occurredAt := none

/-- The row of that entry, in which somebody has put a number among the metadata. -/
def sampleAlteredRow : AuditRow :=
  { toRow sampleGenesis with
    metadata := .obj [("source", .str "signup"), ("extra", .num 5 0)]
    nodup_members := by decide }

/-- The row of that entry, in which the metadata say something else. -/
def sampleReworded : AuditRow :=
  { toRow sampleGenesis with
    metadata := .obj [("source", .str "import")]
    nodup_members := by decide }

/-- The sample entry is what `append` builds. -/
theorem append_sample :
    AuditLogEntry.append sampleSha256 "a1" sampleTime sampleAppend = .ok sampleGenesis := by
  decide +kernel

/-- An altered row with the hash of its entry can verify. -/
theorem altered_row_verifies :
    AuditLogEntry.append sampleSha256 "a1" sampleTime sampleAppend = .ok sampleGenesis ∧
      sampleAlteredRow.hash = (toRow sampleGenesis).hash ∧
      ¬ SameColumns sampleAlteredRow (toRow sampleGenesis) ∧
      (toDomain sampleAlteredRow).hasValidHash sampleSha256 = true := by
  refine ⟨append_sample, rfl, fun hsame => ?_, by decide +kernel⟩
  have hextra := hsame.metadata "extra"
  revert hextra
  exact fun h => nomatch h

/-- The reworded row is found out. -/
theorem altered_row_detected_iff_sample :
    (¬ SameColumns sampleReworded (toRow sampleGenesis) →
        (toDomain sampleReworded).hasValidHash sampleSha256 = false) ↔
      (SameColumns sampleReworded (toRow sampleGenesis) ∨
        ¬ ReadsSame sampleReworded (toRow sampleGenesis)) :=
  altered_row_detected_iff injectiveOnCanonical_sampleSha256 append_sample rfl

end Verixa
