import Verixa.Encoding.PlainValue
import Verixa.Encoding.Text
import Verixa.SharedKernel.Record

/-!
# Notification templates

A template is made from a definition, whose fields are checked at run time because it may come
from anywhere; `none` is a field that is not there.  `NotificationTemplate.create` reports all that
is wrong with a definition at once.  What it lets through is a field of `NotificationTemplate`.
-/

namespace Verixa.Notifications

open Encoding

/-- The delivery channels. -/
inductive NotificationChannel where
  | email
  | sms
  | webhook
  deriving DecidableEq

/-- A channel as it is written. -/
def NotificationChannel.text : NotificationChannel → String
  | .email => "email"
  | .sms => "sms"
  | .webhook => "webhook"

def CHANNELS : List NotificationChannel := [.email, .sms, .webhook]

/-- A character of `KEY_SEGMENT`. -/
def isKeyChar (c : Char) : Bool := decide ('a' ≤ c ∧ c ≤ 'z') || c.isDigit

/-- Segments between dots and hyphens, none of them empty. -/
def isValidKey (key : String) : Bool :=
  (key.toList.splitOnP fun c => c == '.' || c == '-').all fun segment =>
    segment != [] && segment.all isKeyChar

/-- A definition as it is received. -/
structure NotificationTemplateDefinition where
  key : Option PlainValue
  channel : Option PlainValue
  subjectTemplate : Option PlainValue := none
  bodyTemplate : Option PlainValue
  requiredPayloadFields : Option PlainValue

/-- The content side of a notification. -/
structure NotificationTemplate where
  key : String
  channel : NotificationChannel
  subjectTemplate : Option String
  bodyTemplate : String
  requiredPayloadFields : List String
  key_valid : isValidKey key = true
  subject_iff : subjectTemplate.isSome = true ↔ channel = .email
  subject_nonBlank : ∀ subject ∈ subjectTemplate, isBlank subject = false
  body_nonBlank : isBlank bodyTemplate = false
  fields_nonBlank : ∀ field ∈ requiredPayloadFields, isBlank field = false
  fields_nodup : requiredPayloadFields.Nodup
  deriving DecidableEq

/-! ## Checks -/

/-- `isNonBlankString`. -/
def isNonBlankString : Option PlainValue → Bool
  | some (.string value) => !isBlank value
  | _ => false

/-- `value as string`. -/
def textOf : Option PlainValue → String
  | some (.string value) => value
  | _ => ""

/-- `values as string[]`. -/
def textsOf : Option PlainValue → List String
  | some (.array items) => items.map fun item => textOf (some item)
  | _ => []

/-- What is wrong with a key. -/
def keyError : Option PlainValue → Option String
  | some (.string key) =>
    if key = "" then some "required" else if isValidKey key then none else some "invalid_format"
  | _ => some "required"

/-- The channel that a value names. -/
def knownChannel (channel : Option PlainValue) : Option NotificationChannel :=
  CHANNELS.find? fun candidate =>
    match channel with
    | some (.string text) => candidate.text == text
    | _ => false

/-- What is wrong with a channel. -/
def channelError : Option NotificationChannel → Option String
  | some _ => none
  | none => some "invalid"

/-- What is wrong with a subject: an e-mail needs one, the other channels have none. -/
def subjectError (subjectTemplate : Option PlainValue) :
    Option NotificationChannel → Option String
  | some .email => if isNonBlankString subjectTemplate then none else some "required"
  | some _ => if subjectTemplate.isSome then some "not_supported" else none
  | none => none

/-- What is wrong with a body. -/
def bodyError (bodyTemplate : Option PlainValue) : Option String :=
  if isNonBlankString bodyTemplate then none else some "required"

/-- What is wrong with the fields that a payload needs. -/
def payloadFieldsError : Option PlainValue → Option String
  | some (.array items) =>
    if !items.all fun item => isNonBlankString (some item) then some "invalid_entry"
    else if (textsOf (some (.array items))).dedup.length != items.length then some "duplicate"
    else none
  | _ => some "required"

/-- What is wrong with each field. -/
def NotificationTemplateDefinition.problems (definition : NotificationTemplateDefinition) :
    List (String × Option String) :=
  [("key", keyError definition.key),
    ("channel", channelError (knownChannel definition.channel)),
    ("subjectTemplate",
      subjectError definition.subjectTemplate (knownChannel definition.channel)),
    ("bodyTemplate", bodyError definition.bodyTemplate),
    ("requiredPayloadFields", payloadFieldsError definition.requiredPayloadFields)]

/-- All that is wrong with a definition. -/
def NotificationTemplateDefinition.fieldErrors (definition : NotificationTemplateDefinition) :
    List (String × List String) :=
  definition.problems.filterMap fun (field, code) => code.map fun code => (field, [code])

/-- Nothing is wrong with a definition. -/
structure IsComplete (definition : NotificationTemplateDefinition) : Prop where
  key : keyError definition.key = none
  channel : channelError (knownChannel definition.channel) = none
  subject : subjectError definition.subjectTemplate (knownChannel definition.channel) = none
  body : bodyError definition.bodyTemplate = none
  fields : payloadFieldsError definition.requiredPayloadFields = none

section Checks

variable {value : Option PlainValue} {definition : NotificationTemplateDefinition}

/-- Each field with an error has one code. -/
theorem exists_code_of_mem {entry : String × List String} (h : entry ∈ definition.fieldErrors) :
    ∃ code, entry.2 = [code] := by
  obtain ⟨problem, -, hentry⟩ := List.mem_filterMap.mp h
  obtain ⟨code, -, rfl⟩ := Option.map_eq_some_iff.mp hentry
  exact ⟨code, rfl⟩

/-- Without an error nothing is wrong. -/
theorem isComplete_of_fieldErrors (h : definition.fieldErrors = []) : IsComplete definition := by
  have hmap := List.filterMap_eq_nil_iff.mp h
  simp only [NotificationTemplateDefinition.problems, List.forall_mem_cons,
    Option.map_eq_none_iff] at hmap
  exact ⟨hmap.1, hmap.2.1, hmap.2.2.1, hmap.2.2.2.1, hmap.2.2.2.2.1⟩

theorem isBlank_textOf (h : isNonBlankString value = true) : isBlank (textOf value) = false := by
  rcases value with _ | (_ | _ | _ | text | _ | _) <;> simp_all [isNonBlankString, textOf]

/-- A key without an error. -/
theorem eq_string_of_keyError (h : keyError value = none) :
    value = some (.string (textOf value)) ∧ isValidKey (textOf value) = true := by
  rcases value with _ | (_ | _ | _ | key | _ | _) <;> try cases h
  rw [keyError] at h
  split_ifs at h with hempty hvalid
  exact ⟨rfl, hvalid⟩

theorem exists_of_channelError {channel : Option NotificationChannel}
    (h : channelError channel = none) : ∃ known, channel = some known := by
  rcases channel with _ | known
  · cases h
  · exact ⟨known, rfl⟩

theorem isBlank_of_subjectError (h : subjectError value (some .email) = none) :
    isBlank (textOf value) = false := by
  rw [subjectError] at h
  split_ifs at h with hnonBlank
  exact isBlank_textOf hnonBlank

theorem isBlank_of_bodyError (h : bodyError value = none) : isBlank (textOf value) = false := by
  rw [bodyError] at h
  split_ifs at h with hnonBlank
  exact isBlank_textOf hnonBlank

/-- Fields without an error. -/
theorem textsOf_of_payloadFieldsError (h : payloadFieldsError value = none) :
    (∀ field ∈ textsOf value, isBlank field = false) ∧ (textsOf value).Nodup := by
  rcases value with _ | (_ | _ | _ | _ | items | _) <;> try cases h
  rw [payloadFieldsError] at h
  split_ifs at h with hinvalid hduplicate
  constructor
  · intro field hfield
    obtain ⟨item, hitem, rfl⟩ := List.mem_map.mp hfield
    have hitems : items.all (fun item => isNonBlankString (some item)) = true := by
      simpa using hinvalid
    exact isBlank_textOf (List.all_eq_true.mp hitems item hitem)
  · have hlength : (textsOf (some (.array items))).dedup.length =
        (textsOf (some (.array items))).length := by
      simpa [textsOf] using hduplicate
    have hsublist := List.dedup_sublist (textsOf (some (.array items)))
    rw [← hsublist.eq_of_length hlength]
    exact List.nodup_dedup _

end Checks

/-! ## Creation -/

/-- `NotificationTemplate.create`. -/
def NotificationTemplate.create (definition : NotificationTemplateDefinition) :
    Except ValidationError NotificationTemplate :=
  if h : definition.fieldErrors = [] then
    have hcomplete := isComplete_of_fieldErrors h
    .ok
      { key := textOf definition.key
        channel := (knownChannel definition.channel).getD .email
        subjectTemplate :=
          if knownChannel definition.channel = some .email then
            some (textOf definition.subjectTemplate)
          else none
        bodyTemplate := textOf definition.bodyTemplate
        requiredPayloadFields := textsOf definition.requiredPayloadFields
        key_valid := (eq_string_of_keyError hcomplete.key).2
        subject_iff := by
          obtain ⟨known, hknown⟩ := exists_of_channelError hcomplete.channel
          simp [hknown]
        subject_nonBlank := by
          intro subject hsubject
          split at hsubject
          · rename_i hemail
            rw [← Option.mem_some.mp hsubject]
            exact isBlank_of_subjectError (hemail ▸ hcomplete.subject)
          · cases hsubject
        body_nonBlank := isBlank_of_bodyError hcomplete.body
        fields_nonBlank := (textsOf_of_payloadFieldsError hcomplete.fields).1
        fields_nodup := (textsOf_of_payloadFieldsError hcomplete.fields).2 }
  else .error ⟨"Notification template is invalid.", definition.fieldErrors⟩

section Create

variable {definition : NotificationTemplateDefinition} {template : NotificationTemplate}

theorem NotificationTemplate.key_ne_empty (template : NotificationTemplate) :
    template.key ≠ "" := by
  intro hempty
  have hvalid := template.key_valid
  rw [hempty] at hvalid
  exact absurd hvalid (by decide)

/-- A template has the key of its definition. -/
theorem NotificationTemplate.key_of_create (h : create definition = .ok template) :
    definition.key = some (.string template.key) := by
  rw [create] at h
  split at h
  · rename_i hnone
    rw [← Except.ok.inj h]
    exact (eq_string_of_keyError (isComplete_of_fieldErrors hnone).key).1
  · cases h

/-- The error of a definition lists what is wrong with it, which is not nothing. -/
theorem NotificationTemplate.fieldErrors_of_create {error : ValidationError}
    (h : create definition = .error error) :
    error.fieldErrors = definition.fieldErrors ∧ definition.fieldErrors ≠ [] := by
  rw [create] at h
  split at h
  · cases h
  · rename_i hsome
    rw [← Except.error.inj h]
    exact ⟨rfl, hsome⟩

end Create

end Verixa.Notifications
