import Verixa.Encoding.Text
import Verixa.SharedKernel.Record

/-!
# Audit metadata

The metadata bag of an audit entry: the bounds `AuditMetadata.create` puts on it, the marker that
replaces a refused bag, and the canonical form that enters the hash of an entry.

`canonicalForm` lists the pairs by sorted key as `byteLength:key=byteLength:value` behind their
number, so it determines the bag as a map (`canonicalForm_injective`) and nothing but the map
(`canonicalForm_congr`).
-/

namespace Verixa

open Encoding

/-! ## Escaping for text -/

/-- The characters a textual sink reads as structure. -/
def isTextUnsafe (c : Char) : Bool :=
  c == '\\' || c.toNat ≤ 0x1f || (0x7f ≤ c.toNat && c.toNat ≤ 0x9f)

/-- The visible escape of an unsafe character. -/
def escapeCharacter (c : Char) : String :=
  if c = '\\' then "\\\\"
  else if c = '\n' then "\\n"
  else if c = '\r' then "\\r"
  else if c = '\t' then "\\t"
  else "\\u" ++ String.ofList ((Nat.toDigits 16 c.toNat).leftpad 4 '0')

/-- Escapes characters that a textual sink would read as structure. -/
def escapeForText (value : String) : String :=
  String.join (value.toList.map fun c =>
    if isTextUnsafe c then escapeCharacter c else String.singleton c)

/-- A value's type, named for an error message. -/
def describeType : Unknown → String
  | .string _ => "string"
  | .null => "null"
  | .array => "array"
  | .other t => t.text

/-- A rejected key's name, truncated to 24 code points and escaped for an error message. -/
def describeKey (key : String) : String :=
  let preview :=
    if key.toList.length > 24 then String.ofList (key.toList.take 24) ++ "…" else key
  "\"" ++ escapeForText preview ++ "\""

/-! ## Bounds on input -/

def METADATA_REJECTED_KEY : String := "metadataRejected"
def MAX_METADATA_ENTRIES : ℕ := 32
def MAX_METADATA_KEY_LENGTH : ℕ := 64
def MAX_METADATA_VALUE_LENGTH : ℕ := 1024

/-- Why `AuditMetadata.create` refused a bag. -/
inductive AuditMetadataRejectionReason where
  | tooManyFields
  | emptyKey
  | keyTooLong
  | nonStringValue
  | valueTooLong
  | unclassified
  deriving DecidableEq

/-- The code under which a reason is reported. -/
def AuditMetadataRejectionReason.code : AuditMetadataRejectionReason → String
  | .tooManyFields => "too_many_fields"
  | .emptyKey => "empty_key"
  | .keyTooLong => "key_too_long"
  | .nonStringValue => "non_string_value"
  | .valueTooLong => "value_too_long"
  | .unclassified => "unclassified"

/-- The bound a rejection was about, recovered from the error. -/
def rejectionReasonOf (error : ValidationError) : AuditMetadataRejectionReason :=
  match (error.errorsOf "metadata").head? with
  | some "too_many_fields" => .tooManyFields
  | some "empty_key" => .emptyKey
  | some "key_too_long" => .keyTooLong
  | some "non_string_value" => .nonStringValue
  | some "value_too_long" => .valueTooLong
  | _ => .unclassified

namespace AuditMetadata

/-- The error `create` returns: every refusal is about the field `metadata`. -/
def rejection (reason : AuditMetadataRejectionReason) (message : String) : ValidationError :=
  ⟨message, [("metadata", [reason.code])]⟩

/-- The check of one field of the bag. -/
def checkField (key : String) (value : Unknown) : Except ValidationError String :=
  if utf16Length key = 0 then
    .error (rejection .emptyKey "Audit metadata keys may not be empty.")
  else if utf16Length key > MAX_METADATA_KEY_LENGTH then
    .error (rejection .keyTooLong
      s!"Audit metadata key {describeKey key} exceeds {MAX_METADATA_KEY_LENGTH} characters.")
  else match value with
    | .string text =>
      if utf16Length text > MAX_METADATA_VALUE_LENGTH then
        .error (rejection .valueTooLong
          s!"Audit metadata value for {describeKey key} exceeds {MAX_METADATA_VALUE_LENGTH} characters.")
      else .ok text
    | _ =>
      .error (rejection .nonStringValue
        s!"Audit metadata value for {describeKey key} must be a string; received {describeType value}.")

/-- The loop of `create` over the fields of the bag. -/
def createLoop : List (String × Unknown) → StringRecord → Except ValidationError StringRecord
  | [], values => .ok values
  | (key, value) :: fields, values =>
    match checkField key value with
    | .error error => .error error
    | .ok text => createLoop fields (values.assign key text)

/-- Validates metadata arriving from outside the domain. -/
def create (input : UnknownRecord) : Except ValidationError StringRecord :=
  if input.entries.length > MAX_METADATA_ENTRIES then
    .error (rejection .tooManyFields
      s!"Audit metadata may not exceed {MAX_METADATA_ENTRIES} fields.")
  else createLoop input.entries OrderedMap.empty

/-- The bag recorded in place of metadata that failed `create`. -/
def rejected (reason : AuditMetadataRejectionReason) : StringRecord :=
  OrderedMap.empty.set METADATA_REJECTED_KEY reason.code

/-- Every refusal of `create` carries the code of the bound it is about. -/
theorem rejectionReasonOf_rejection (reason : AuditMetadataRejectionReason) (message : String) :
    rejectionReasonOf (rejection reason message) = reason := by
  cases reason <;> rfl

/-! ## The canonical form -/

/-- One pair of the canonical form: `byteLength:key=byteLength:value`. -/
def canonicalPair (p : String × String) : String :=
  framed p.1 ++ "=" ++ framed p.2

/-- The bag's pairs by sorted key. -/
def sortedPairs (values : StringRecord) : List (String × String) :=
  (sortByCodeUnits values.keys).map fun key => (key, (values.get? key).getD "")

/-- The hash pre-image of a bag. -/
def canonicalForm (values : StringRecord) : String :=
  String.intercalate ";"
    (Nat.repr (sortByCodeUnits values.keys).length :: (sortedPairs values).map canonicalPair)

/-- The canonical pair is self-delimiting: lengths make any character content. -/
theorem selfDelimiting_canonicalPair :
    SelfDelimiting fun p : String × String => (canonicalPair p).toList := by
  have h := (selfDelimiting_framed.append_const ['=']).prod selfDelimiting_framed
  have heq : (fun p : String × String => (canonicalPair p).toList) =
      fun p : String × String => ((framed p.1).toList ++ ['=']) ++ (framed p.2).toList := by
    funext p
    simp [canonicalPair]
  rw [heq]
  exact h

/-- A list joined by a separator is its head followed by the tail, each word behind a separator. -/
theorem intercalate_cons_eq_flatMap (sep a : List Char) (l : List (List Char)) :
    sep.intercalate (a :: l) = a ++ l.flatMap (sep ++ ·) := by
  induction l generalizing a with
  | nil => simp
  | cons b l ih =>
    rw [List.intercalate_cons_cons, ih, List.flatMap_cons]
    simp

/-- The letters of the canonical form: the number of pairs, then each pair behind a semicolon. -/
theorem toList_canonicalForm (values : StringRecord) :
    (canonicalForm values).toList = (Nat.repr values.keys.length).toList
      ++ (sortedPairs values).flatMap fun p => [';'] ++ (canonicalPair p).toList := by
  simp only [canonicalForm, String.toList_intercalate, List.map_cons,
    intercalate_cons_eq_flatMap, length_sortByCodeUnits]
  simp [List.flatMap_map]

/-- The canonical form determines the sorted pairs. -/
theorem sortedPairs_eq_of_canonicalForm_eq {v w : StringRecord}
    (h : canonicalForm v = canonicalForm w) : sortedPairs v = sortedPairs w := by
  have hlist := congrArg String.toList h
  rw [toList_canonicalForm, toList_canonicalForm] at hlist
  have hsemi : ∀ n : ℕ, ';' ∉ (Nat.repr n).toList := fun n hmem => by
    have := isDigit_of_mem_repr hmem
    revert this
    decide
  have hhead : ∀ l : List (String × String),
      ∀ c ∈ (l.flatMap fun p => [';'] ++ (canonicalPair p).toList).head?, c = ';' := by
    intro l c hc
    cases l with
    | nil => simp at hc
    | cons p l => simpa [eq_comm] using hc
  obtain ⟨hcount, hpairs⟩ :=
    append_cancel_of_not_mem (hsemi _) (hsemi _) (hhead _) (hhead _) hlist
  have hlen : (sortedPairs v).length = (sortedPairs w).length := by
    have hkeys : v.keys.length = w.keys.length := toList_repr_injective hcount
    simpa [sortedPairs] using hkeys
  have hcode := selfDelimiting_canonicalPair.prepend [';']
  exact (hcode.flatMap_append_cancel (r := []) (s := []) hlen (by simpa using hpairs)).1

/-- The sorted pairs are the entries of the bag. -/
theorem mem_sortedPairs {values : StringRecord} {key value : String} :
    (key, value) ∈ sortedPairs values ↔ values.get? key = some value := by
  simp only [sortedPairs, List.mem_map, mem_sortByCodeUnits, OrderedMap.mem_keys_iff,
    Prod.mk.injEq]
  constructor
  · rintro ⟨k, ⟨v, hv⟩, rfl, rfl⟩
    rw [hv, Option.getD_some]
  · intro h
    exact ⟨key, ⟨value, h⟩, rfl, by rw [h, Option.getD_some]⟩

/-- The canonical form determines the bag as a map from keys to values. -/
theorem canonicalForm_injective {v w : StringRecord} (h : canonicalForm v = canonicalForm w)
    (key : String) : v.get? key = w.get? key := by
  have hpairs := sortedPairs_eq_of_canonicalForm_eq h
  apply Option.ext
  intro value
  rw [← mem_sortedPairs, ← mem_sortedPairs, hpairs]

/-- The canonical form depends on the bag as a map only. -/
theorem canonicalForm_congr {v w : StringRecord} (h : ∀ key, v.get? key = w.get? key) :
    canonicalForm v = canonicalForm w := by
  have hkeys : sortByCodeUnits v.keys = sortByCodeUnits w.keys :=
    sortByCodeUnits_eq_of_perm (OrderedMap.perm_keys_of_get?_eq h)
  simp only [canonicalForm, sortedPairs, hkeys, h]

end AuditMetadata

end Verixa
