import Verixa.Authorization.Condition
import Verixa.Notifications.NotificationTemplate
import Verixa.SharedKernel.Errors

/-!
# The template registry

`TemplateRegistry.create` checks every definition and every key for duplicates, and either builds a
registry or returns one error with all that it found, under the keys of the definitions.

The errors are collected in a plain object, where reading a key that is not there may still find a
property of `Object.prototype`, which is no list of errors.  `isLawful_create_iff` says that this
is all that can go wrong.
-/

namespace Verixa.Notifications

open Verixa.Authorization (inheritedKeys)

/-! ## Elements and those before them -/

/-- A property of each element of a list and the elements before it. -/
def Along {α : Type} (p : List α → α → Prop) (l : List α) : Prop :=
  ∀ before a behind, l = before ++ a :: behind → p before a

section Along

variable {α : Type} {p q : List α → α → Prop} {l : List α} {a : α}

theorem along_nil : Along p [] := by
  intro before a behind h
  exact absurd h.symm (by simp)

theorem along_concat_iff : Along p (l ++ [a]) ↔ Along p l ∧ p l a := by
  constructor
  · intro h
    refine ⟨fun before b behind hl => ?_, h l a [] rfl⟩
    exact h before b (behind ++ [a]) (by rw [hl, List.append_assoc, List.cons_append])
  · rintro ⟨hl, ha⟩ before b behind h
    rcases behind.eq_nil_or_concat with rfl | ⟨front, last, rfl⟩
    · obtain ⟨rfl, hb⟩ := List.append_inj' h rfl
      exact (List.cons.inj hb).1 ▸ ha
    · rw [List.concat_eq_append, ← List.cons_append, ← List.append_assoc] at h
      obtain ⟨rfl, -⟩ := List.append_inj' h rfl
      exact hl before b front rfl

theorem Along.imp (h : Along p l) (himp : ∀ before a, p before a → q before a) : Along q l :=
  fun before a behind hl => himp before a (h before a behind hl)

end Along

/-! ## Registries -/

/-- A lookup that found nothing. -/
structure NotFoundError where
  message : String
  deriving DecidableEq

/-- Templates under their keys. -/
structure Templates where
  map : OrderedMap String NotificationTemplate
  keyed : ∀ key template, map.get? key = some template → template.key = key

/-- No templates. -/
def Templates.empty : Templates := ⟨.empty, fun _ _ h => by cases h⟩

/-- `templates.set(template.key, template)`. -/
def Templates.set (templates : Templates) (template : NotificationTemplate) : Templates where
  map := templates.map.set template.key template
  keyed key other h := by
    rw [OrderedMap.get?_set] at h
    split_ifs at h with hkey
    · rw [← Option.some.inj h, hkey]
    · exact templates.keyed key other h

/-- A read-only map of templates. -/
structure TemplateRegistry where
  templates : Templates

/-- `registry.keys`. -/
def TemplateRegistry.keys (registry : TemplateRegistry) : List String := registry.templates.map.keys

/-- `registry.resolve(key)`. -/
def TemplateRegistry.resolve (registry : TemplateRegistry) (key : String) :
    Except NotFoundError NotificationTemplate :=
  match registry.templates.map.get? key with
  | none => .error ⟨"No notification template is registered for \"" ++ key ++ "\"."⟩
  | some template => .ok template

/-- `registry.has(key)`. -/
def TemplateRegistry.has (registry : TemplateRegistry) (key : String) : Bool :=
  (registry.templates.map.get? key).isSome

/-! ## Errors by label -/

/-- The own properties of the object that collects the errors. -/
abbrev FieldErrors := OrderedMap String (List String)

/-- `fieldErrors[label] ??= []`: what is inherited is no list of errors. -/
def existingErrors (fieldErrors : FieldErrors) (label : String) :
    Except ThrownError (List String) :=
  match fieldErrors.get? label with
  | some existing => .ok existing
  | none =>
    if label ∈ inheritedKeys then .error ⟨"TypeError", "existing.includes is not a function"⟩
    else .ok []

/-- `addError(label, error)`. -/
def addError (label : String) (fieldErrors : FieldErrors) (error : String) :
    Except ThrownError FieldErrors := do
  let existing ← existingErrors fieldErrors label
  return fieldErrors.set label (if error ∈ existing then existing else existing ++ [error])

/-- `addError` for each of several errors. -/
def addErrors (label : String) (fieldErrors : FieldErrors) (errors : List String) :
    Except ThrownError FieldErrors :=
  errors.foldlM (addError label) fieldErrors

/-! ## Creation -/

/-- A key that is a text and not empty. -/
def NotificationTemplateDefinition.usableKey (definition : NotificationTemplateDefinition) :
    Option String :=
  match definition.key with
  | some (.string key) => if key = "" then none else some key
  | _ => none

/-- What the errors of a definition are collected under. -/
def NotificationTemplateDefinition.label (definition : NotificationTemplateDefinition)
    (index : ℕ) : String :=
  definition.usableKey.getD ("templates[" ++ Nat.repr index ++ "]")

/-- The errors as they are collected. -/
def namedErrors (error : ValidationError) : List String :=
  error.fieldErrors.flatMap fun (field, codes) => codes.map fun code => field ++ ":" ++ code

/-- What the loop over the definitions has collected. -/
structure Collected where
  templates : Templates
  fieldErrors : FieldErrors

/-- Whether an earlier definition had the key. -/
def Collected.hasSeen (collected : Collected) : Option String → Bool
  | none => false
  | some key =>
    (collected.templates.map.get? key).isSome || (collected.fieldErrors.get? key).isSome

/-- The check for a duplicate. -/
def checkDuplicate (collected : Collected) (key : Option String) (label : String) :
    Except ThrownError FieldErrors :=
  if collected.hasSeen key then addError label collected.fieldErrors "duplicate_key"
  else .ok collected.fieldErrors

/-- One turn of the loop. -/
def checkDefinition (collected : Collected) (definition : NotificationTemplateDefinition)
    (index : ℕ) : Except ThrownError Collected := do
  let label := definition.label index
  let fieldErrors ← checkDuplicate collected definition.usableKey label
  match NotificationTemplate.create definition with
  | .ok template => return ⟨collected.templates.set template, fieldErrors⟩
  | .error error =>
    let fieldErrors ← addErrors label fieldErrors (namedErrors error)
    return ⟨collected.templates, fieldErrors⟩

/-- The loop. -/
def checkDefinitions (definitions : List NotificationTemplateDefinition) :
    Except ThrownError Collected :=
  definitions.zipIdx.foldlM (fun collected (definition, index) =>
    checkDefinition collected definition index) ⟨.empty, .empty⟩

/-- `TemplateRegistry.create`. -/
def TemplateRegistry.create (definitions : List NotificationTemplateDefinition) :
    Except ThrownError (Except ValidationError TemplateRegistry) := do
  let collected ← checkDefinitions definitions
  if 0 < collected.fieldErrors.entries.length then
    return .error ⟨"Notification template registry is invalid.", collected.fieldErrors.entries⟩
  else return .ok ⟨collected.templates⟩

/-! ## The law -/

/-- Every definition is accepted, and the keys are distinct. -/
def IsValidSet (definitions : List NotificationTemplateDefinition) : Prop :=
  (∀ definition ∈ definitions, ∃ template,
      NotificationTemplate.create definition = .ok template) ∧
    (definitions.map NotificationTemplateDefinition.usableKey).Nodup

/-- The label is listed, and with it the errors. -/
def Lists (fieldErrors : List (String × List String)) (label : String) (errors : List String) :
    Prop :=
  ∃ listed, (label, listed) ∈ fieldErrors ∧ ∀ error ∈ errors, error ∈ listed

/-- What a registry is to find and what an error is to name. -/
structure IsLawful (definitions : List NotificationTemplateDefinition)
    (result : Except ValidationError TemplateRegistry) : Prop where
  isOk_iff : (∃ registry, result = .ok registry) ↔ IsValidSet definitions
  resolves : ∀ registry, result = .ok registry → ∀ key,
    (∀ definition ∈ definitions, definition.usableKey = some key → ∃ template,
      NotificationTemplate.create definition = .ok template ∧
        registry.resolve key = .ok template) ∧
    ((∀ definition ∈ definitions, definition.usableKey ≠ some key) →
      ∃ error, registry.resolve key = .error error)
  invalid : ∀ error, result = .error error → Along (fun before definition =>
    ∀ reason, NotificationTemplate.create definition = .error reason →
      Lists error.fieldErrors (definition.label before.length) (namedErrors reason)) definitions
  duplicated : ∀ error, result = .error error → Along (fun before definition =>
    ∀ key, definition.usableKey = some key → (∃ other ∈ before, other.usableKey = some key) →
      Lists error.fieldErrors key ["duplicate_key"]) definitions

/-- A definition whose key is the name of an inherited property is accepted and no duplicate. -/
def IsHarmless (before : List NotificationTemplateDefinition)
    (definition : NotificationTemplateDefinition) : Prop :=
  ∀ key ∈ inheritedKeys, definition.usableKey = some key →
    (∃ template, NotificationTemplate.create definition = .ok template) ∧
      ∀ other ∈ before, other.usableKey ≠ some key

/-! ## Adding errors -/

section Adding

variable {label : String} {errors more : List String} {fieldErrors added behind : FieldErrors}

theorem lists_iff : Lists fieldErrors.entries label errors ↔
    ∃ listed, fieldErrors.get? label = some listed ∧ ∀ error ∈ errors, error ∈ listed := by
  simp only [Lists, OrderedMap.get?_eq_some_iff]

theorem Lists.append (h : Lists fieldErrors.entries label errors)
    (hmore : Lists fieldErrors.entries label more) :
    Lists fieldErrors.entries label (errors ++ more) := by
  obtain ⟨listed, hlisted, herrors⟩ := lists_iff.mp h
  obtain ⟨listed', hlisted', herrors'⟩ := lists_iff.mp hmore
  obtain rfl : listed = listed' := Option.some.inj (hlisted.symm.trans hlisted')
  refine lists_iff.mpr ⟨listed, hlisted, fun error herror => ?_⟩
  exact (List.mem_append.mp herror).elim (herrors error) (herrors' error)

/-- Errors are added under a label. -/
structure AddsErrors (label : String) (errors : List String) (fieldErrors added : FieldErrors) :
    Prop where
  others : ∀ key, key ≠ label → added.get? key = fieldErrors.get? key
  kept : ∀ key listed, Lists fieldErrors.entries key listed → Lists added.entries key listed
  listed : errors ≠ [] → Lists added.entries label errors
  same : errors = [] → added = fieldErrors

theorem addsErrors_nil : AddsErrors label [] fieldErrors fieldErrors :=
  ⟨fun _ _ => rfl, fun _ _ h => h, fun h => absurd rfl h, fun _ => rfl⟩

theorem AddsErrors.append (h : AddsErrors label errors fieldErrors added)
    (hmore : AddsErrors label more added behind) :
    AddsErrors label (errors ++ more) fieldErrors behind where
  others key hkey := (hmore.others key hkey).trans (h.others key hkey)
  kept key listed hlisted := hmore.kept key listed (h.kept key listed hlisted)
  listed hne := by
    by_cases hnil : errors = []
    · subst hnil
      exact hmore.listed hne
    · have herrors := hmore.kept label errors (h.listed hnil)
      by_cases hnil' : more = []
      · rwa [hnil', List.append_nil]
      · exact herrors.append (hmore.listed hnil')
  same hnil := by
    obtain ⟨hfirst, hsecond⟩ := List.append_eq_nil_iff.mp hnil
    rw [hmore.same hsecond, h.same hfirst]

/-- One error under a label that is not inherited. -/
theorem exists_addError (hlabel : label ∉ inheritedKeys) (error : String) :
    ∃ added, addError label fieldErrors error = .ok added ∧
      AddsErrors label [error] fieldErrors added := by
  obtain ⟨existing, hexisting, hown⟩ : ∃ existing,
      existingErrors fieldErrors label = .ok existing ∧
        ∀ listed, fieldErrors.get? label = some listed → listed = existing := by
    rw [existingErrors]
    split
    · rename_i existing hget
      exact ⟨existing, rfl, fun listed hlisted => Option.some.inj (hlisted.symm.trans hget)⟩
    · rename_i hget
      refine ⟨[], if_neg hlabel, fun listed hlisted => ?_⟩
      rw [hget] at hlisted
      cases hlisted
  let extended := if error ∈ existing then existing else existing ++ [error]
  have hextended : ∀ other ∈ existing, other ∈ extended := by
    intro other hother
    simp only [extended]
    split
    · exact hother
    · exact List.mem_append_left _ hother
  have herror : error ∈ extended := by
    simp only [extended]
    split
    · assumption
    · exact List.mem_append_right _ (List.mem_singleton.mpr rfl)
  refine ⟨fieldErrors.set label extended, by rw [addError, hexisting]; rfl, ?_⟩
  refine ⟨fun key hkey => OrderedMap.get?_set_of_ne _ (Ne.symm hkey) _, fun key listed h => ?_,
    fun _ => ?_, fun h => absurd h (List.cons_ne_nil _ _)⟩
  · obtain ⟨present, hpresent, hlisted⟩ := lists_iff.mp h
    by_cases hkey : key = label
    · rw [hkey] at hpresent ⊢
      refine lists_iff.mpr ⟨extended, OrderedMap.get?_set_self _ _ _, fun other hother => ?_⟩
      exact hextended other (hown present hpresent ▸ hlisted other hother)
    · exact lists_iff.mpr
        ⟨present, (OrderedMap.get?_set_of_ne _ (Ne.symm hkey) _).trans hpresent, hlisted⟩
  · refine lists_iff.mpr ⟨extended, OrderedMap.get?_set_self _ _ _, fun other hother => ?_⟩
    rwa [List.mem_singleton.mp hother]

/-- Any errors under a label that is not inherited. -/
theorem exists_addErrors (h : errors = [] ∨ label ∉ inheritedKeys) :
    ∃ added, addErrors label fieldErrors errors = .ok added ∧
      AddsErrors label errors fieldErrors added := by
  induction errors generalizing fieldErrors with
  | nil => exact ⟨fieldErrors, rfl, addsErrors_nil⟩
  | cons error errors ih =>
    have hlabel : label ∉ inheritedKeys := h.resolve_left (List.cons_ne_nil _ _)
    obtain ⟨first, hfirst, hadds⟩ : ∃ first, addError label fieldErrors error = .ok first ∧
        AddsErrors label [error] fieldErrors first := exists_addError hlabel error
    obtain ⟨added, hadded, hrest⟩ : ∃ added, addErrors label first errors = .ok added ∧
        AddsErrors label errors first added := ih (.inr hlabel)
    refine ⟨added, ?_, hadds.append hrest⟩
    rw [addErrors, List.foldlM_cons, hfirst]
    exact hadded

/-- What an inherited label comes to. -/
theorem addErrors_throws (hlabel : label ∈ inheritedKeys) (hnone : fieldErrors.get? label = none)
    (hne : errors ≠ []) : ∃ error, addErrors label fieldErrors errors = .error error := by
  rcases errors with _ | ⟨error, errors⟩
  · exact absurd rfl hne
  · have hexisting : existingErrors fieldErrors label =
        .error ⟨"TypeError", "existing.includes is not a function"⟩ := by
      rw [existingErrors, hnone]
      exact if_pos hlabel
    refine ⟨⟨"TypeError", "existing.includes is not a function"⟩, ?_⟩
    rw [addErrors, List.foldlM_cons, addError, hexisting]
    rfl

end Adding

/-! ## One definition -/

section Definition

variable {definition : NotificationTemplateDefinition} {collected : Collected} {index : ℕ}

/-- The errors that a definition adds. -/
def newErrors (collected : Collected) (definition : NotificationTemplateDefinition) :
    List String :=
  (if collected.hasSeen definition.usableKey then ["duplicate_key"] else []) ++
    match NotificationTemplate.create definition with
    | .ok _ => []
    | .error error => namedErrors error

/-- The templates behind a definition. -/
def newTemplates (collected : Collected) (definition : NotificationTemplateDefinition) :
    Templates :=
  match NotificationTemplate.create definition with
  | .ok template => collected.templates.set template
  | .error _ => collected.templates

/-- The errors of a definition are added one behind the other. -/
theorem checkDefinition_eq : checkDefinition collected definition index =
    (addErrors (definition.label index) collected.fieldErrors (newErrors collected definition)).map
      fun fieldErrors => ⟨newTemplates collected definition, fieldErrors⟩ := by
  have hduplicate : checkDuplicate collected definition.usableKey (definition.label index) =
      addErrors (definition.label index) collected.fieldErrors
        (if collected.hasSeen definition.usableKey then ["duplicate_key"] else []) := by
    rw [checkDuplicate]
    split
    · rw [addErrors, List.foldlM_cons]
      cases addError (definition.label index) collected.fieldErrors "duplicate_key" <;> rfl
    · rfl
  rw [checkDefinition, newErrors, newTemplates, hduplicate]
  unfold addErrors
  rw [List.foldlM_append]
  cases List.foldlM (addError (definition.label index)) collected.fieldErrors
    (if collected.hasSeen definition.usableKey then ["duplicate_key"] else []) with
  | error error => rfl
  | ok fieldErrors =>
    cases NotificationTemplate.create definition with
    | ok template => rfl
    | error error =>
      simp only [bind, Except.bind]
      cases List.foldlM (addError (definition.label index)) fieldErrors (namedErrors error) <;> rfl

/-- A definition without a key is not labelled with an inherited name. -/
theorem usableKey_of_label (h : definition.label index ∈ inheritedKeys) :
    definition.usableKey = some (definition.label index) := by
  rcases hkey : definition.usableKey with _ | key
  · have hletters : ∀ key ∈ inheritedKeys, '[' ∉ key.toList := by
      simp [inheritedKeys, Authorization.prototypeKey]
    refine absurd ?_ (hletters _ h)
    rw [NotificationTemplateDefinition.label, hkey, Option.getD_none, String.toList_append]
    simp
  · rw [NotificationTemplateDefinition.label, hkey, Option.getD_some]

theorem usableKey_of_create {template : NotificationTemplate}
    (h : NotificationTemplate.create definition = .ok template) :
    definition.usableKey = some template.key := by
  rw [NotificationTemplateDefinition.usableKey, NotificationTemplate.key_of_create h]
  exact if_neg template.key_ne_empty

theorem label_of_usableKey {key : String} (h : definition.usableKey = some key) :
    definition.label index = key := by
  rw [NotificationTemplateDefinition.label, h, Option.getD_some]

/-- The error of a definition is not empty. -/
theorem namedErrors_ne_nil {reason : ValidationError}
    (h : NotificationTemplate.create definition = .error reason) : namedErrors reason ≠ [] := by
  obtain ⟨herrors, hne⟩ := NotificationTemplate.fieldErrors_of_create h
  intro hnil
  rw [namedErrors, herrors, List.flatMap_eq_nil_iff] at hnil
  obtain ⟨⟨field, codes⟩, hentry⟩ := List.exists_mem_of_ne_nil _ hne
  obtain ⟨code, rfl⟩ : ∃ code, codes = [code] := exists_code_of_mem hentry
  exact absurd (hnil _ hentry) (List.cons_ne_nil _ _)

end Definition

/-! ## All definitions -/

section Run

variable {before : List NotificationTemplateDefinition} {collected : Collected}
  {definition : NotificationTemplateDefinition} {key : String}

/-- What the loop has collected from the definitions before. -/
structure Reflects (before : List NotificationTemplateDefinition) (collected : Collected) :
    Prop where
  template : ∀ key template, collected.templates.map.get? key = some template →
    ∃ definition ∈ before, NotificationTemplate.create definition = .ok template
  registered : ∀ definition ∈ before, ∀ template,
    NotificationTemplate.create definition = .ok template →
      ∃ other, collected.templates.map.get? template.key = some other
  inherited : ∀ key ∈ inheritedKeys, collected.fieldErrors.get? key = none
  invalid : Along (fun before definition =>
    ∀ reason, NotificationTemplate.create definition = .error reason →
      Lists collected.fieldErrors.entries (definition.label before.length) (namedErrors reason))
    before
  duplicated : Along (fun before definition =>
    ∀ key, definition.usableKey = some key → (∃ other ∈ before, other.usableKey = some key) →
      Lists collected.fieldErrors.entries key ["duplicate_key"]) before
  clean : IsValidSet before → collected.fieldErrors.entries = []

theorem reflects_nil : Reflects [] ⟨.empty, .empty⟩ where
  template _ _ h := by cases h
  registered _ h := by cases h
  inherited _ _ := rfl
  invalid := along_nil
  duplicated := along_nil
  clean _ := rfl

/-- A key that an earlier definition has is seen. -/
theorem Reflects.hasSeen (h : Reflects before collected) {other : NotificationTemplateDefinition}
    (hother : other ∈ before) (hkey : other.usableKey = some key) :
    collected.hasSeen (some key) = true := by
  rw [Collected.hasSeen, Bool.or_eq_true]
  cases hcreate : NotificationTemplate.create other with
  | ok template =>
    obtain ⟨found, hfound⟩ := h.registered other hother template hcreate
    have hsame := (usableKey_of_create hcreate).symm.trans hkey
    rw [Option.some.inj hsame] at hfound
    exact .inl (Option.isSome_iff_exists.mpr ⟨found, hfound⟩)
  | error reason =>
    obtain ⟨front, behind, rfl⟩ := List.mem_iff_append.mp hother
    have hlists := h.invalid front other behind rfl reason hcreate
    rw [label_of_usableKey hkey] at hlists
    obtain ⟨listed, hlisted, -⟩ := lists_iff.mp hlists
    exact .inr (Option.isSome_iff_exists.mpr ⟨listed, hlisted⟩)

/-- A key that is seen without an error is that of an earlier definition. -/
theorem Reflects.exists_of_hasSeen (h : Reflects before collected)
    (hnone : collected.fieldErrors.get? key = none)
    (hseen : collected.hasSeen (some key) = true) :
    ∃ other ∈ before, other.usableKey = some key := by
  rw [Collected.hasSeen, hnone, Option.isSome_none, Bool.or_false] at hseen
  obtain ⟨template, htemplate⟩ := Option.isSome_iff_exists.mp hseen
  obtain ⟨other, hother, hcreate⟩ := h.template key template htemplate
  refine ⟨other, hother, ?_⟩
  rw [usableKey_of_create hcreate, collected.templates.keyed key template htemplate]

/-- When a definition adds no errors. -/
theorem Reflects.newErrors_eq_nil_iff (h : Reflects before collected)
    (hnone : ∀ key, definition.usableKey = some key → collected.fieldErrors.get? key = none) :
    newErrors collected definition = [] ↔
      (∃ template, NotificationTemplate.create definition = .ok template) ∧
        ∀ key, definition.usableKey = some key → ∀ other ∈ before, other.usableKey ≠ some key := by
  have hseen : collected.hasSeen definition.usableKey = false ↔
      ∀ key, definition.usableKey = some key → ∀ other ∈ before, other.usableKey ≠ some key := by
    constructor
    · intro hfalse key hkey other hother heq
      rw [hkey, h.hasSeen hother heq] at hfalse
      cases hfalse
    · intro hothers
      rcases hkey : definition.usableKey with _ | key
      · rfl
      · rw [Bool.eq_false_iff]
        intro htrue
        obtain ⟨other, hother, heq⟩ := h.exists_of_hasSeen (hnone key hkey) htrue
        exact hothers key hkey other hother heq
  rw [newErrors, List.append_eq_nil_iff, ← hseen, and_comm]
  refine and_congr ?_ ?_
  · cases hcreate : NotificationTemplate.create definition with
    | ok template => simp
    | error reason => simp [namedErrors_ne_nil hcreate]
  · cases collected.hasSeen definition.usableKey <;> simp

/-- A definition is harmless if it adds no errors, or if its label is not inherited. -/
theorem Reflects.isHarmless_iff (h : Reflects before collected) (index : ℕ) :
    IsHarmless before definition ↔
      newErrors collected definition = [] ∨ definition.label index ∉ inheritedKeys := by
  by_cases hlabel : definition.label index ∈ inheritedKeys
  · have hkey := usableKey_of_label hlabel
    have hnone : ∀ key, definition.usableKey = some key →
        collected.fieldErrors.get? key = none := by
      intro key hsome
      rw [← Option.some.inj (hkey.symm.trans hsome)]
      exact h.inherited _ hlabel
    rw [h.newErrors_eq_nil_iff hnone, or_iff_left (not_not.mpr hlabel)]
    constructor
    · intro hharmless
      obtain ⟨hcreate, hothers⟩ := hharmless _ hlabel hkey
      refine ⟨hcreate, fun key hsome => ?_⟩
      rwa [← Option.some.inj (hkey.symm.trans hsome)]
    · rintro ⟨hcreate, hothers⟩ key - hsome
      exact ⟨hcreate, hothers key hsome⟩
  · refine iff_of_true (fun key hinherited hkey => ?_) (.inr hlabel)
    rw [label_of_usableKey hkey] at hlabel
    exact absurd hinherited hlabel

theorem isValidSet_concat_iff : IsValidSet (before ++ [definition]) ↔ IsValidSet before ∧
    (∃ template, NotificationTemplate.create definition = .ok template) ∧
      ∀ other ∈ before, other.usableKey ≠ definition.usableKey := by
  simp only [IsValidSet, List.map_append, List.map_cons, List.map_nil, List.nodup_append,
    List.mem_append, List.mem_singleton, List.nodup_singleton, List.mem_map, or_imp, forall_and,
    forall_eq, true_and, ne_eq, forall_exists_index, and_imp, forall_apply_eq_imp_iff₂]
  tauto

/-- What a definition that is harmless adds. -/
theorem Reflects.concat (h : Reflects before collected) {added : FieldErrors}
    (hadds : AddsErrors (definition.label before.length) (newErrors collected definition)
      collected.fieldErrors added)
    (hharmless : newErrors collected definition = [] ∨
      definition.label before.length ∉ inheritedKeys) :
    Reflects (before ++ [definition]) ⟨newTemplates collected definition, added⟩ where
  template key template htemplate := by
    simp only [newTemplates] at htemplate
    split at htemplate
    · rename_i new hcreate
      rw [Templates.set, OrderedMap.get?_set] at htemplate
      split_ifs at htemplate
      · rw [← Option.some.inj htemplate]
        exact ⟨definition, List.mem_append_right _ (List.mem_singleton.mpr rfl), hcreate⟩
      · obtain ⟨other, hother, heq⟩ := h.template key template htemplate
        exact ⟨other, List.mem_append_left _ hother, heq⟩
    · obtain ⟨other, hother, heq⟩ := h.template key template htemplate
      exact ⟨other, List.mem_append_left _ hother, heq⟩
  registered other hother template hcreate := by
    simp only [newTemplates]
    rcases List.mem_append.mp hother with hbefore | hlast
    · obtain ⟨found, hfound⟩ := h.registered other hbefore template hcreate
      split
      · rename_i new hnew
        rw [Templates.set, OrderedMap.get?_set]
        split_ifs
        · exact ⟨new, rfl⟩
        · exact ⟨found, hfound⟩
      · exact ⟨found, hfound⟩
    · rw [List.mem_singleton.mp hlast] at hcreate
      rw [hcreate]
      exact ⟨template, OrderedMap.get?_set_self _ _ _⟩
  inherited key hkey := by
    rcases hharmless with hnil | hlabel
    · rw [hadds.same hnil]
      exact h.inherited key hkey
    · rw [hadds.others key fun heq => hlabel (heq ▸ hkey)]
      exact h.inherited key hkey
  invalid := by
    refine along_concat_iff.mpr ⟨h.invalid.imp fun before other hother reason hreason =>
      hadds.kept _ _ (hother reason hreason), fun reason hreason => ?_⟩
    have hnamed : newErrors collected definition =
        (if collected.hasSeen definition.usableKey then ["duplicate_key"] else []) ++
          namedErrors reason := by
      rw [newErrors, hreason]
    have hne : newErrors collected definition ≠ [] := by
      rw [hnamed]
      exact List.append_ne_nil_of_right_ne_nil _ (namedErrors_ne_nil hreason)
    obtain ⟨listed, hlisted, hall⟩ := hadds.listed hne
    exact ⟨listed, hlisted, fun error herror =>
      hall error (hnamed ▸ List.mem_append_right _ herror)⟩
  duplicated := by
    refine along_concat_iff.mpr ⟨h.duplicated.imp fun before other hother key hkey hex =>
      hadds.kept _ _ (hother key hkey hex), fun key hkey => ?_⟩
    rintro ⟨other, hother, heq⟩
    have hseen := h.hasSeen hother heq
    have hmem : "duplicate_key" ∈ newErrors collected definition := by
      rw [newErrors, hkey, if_pos hseen]
      exact List.mem_append_left _ (List.mem_singleton.mpr rfl)
    obtain ⟨listed, hlisted, hall⟩ := hadds.listed (List.ne_nil_of_mem hmem)
    rw [label_of_usableKey hkey] at hlisted
    refine ⟨listed, hlisted, fun error herror => ?_⟩
    rw [List.mem_singleton.mp herror]
    exact hall _ hmem
  clean hvalid := by
    obtain ⟨hbefore, hcreate, hothers⟩ := isValidSet_concat_iff.mp hvalid
    have hempty := h.clean hbefore
    have hnone : ∀ key, definition.usableKey = some key →
        collected.fieldErrors.get? key = none := by
      intro key _
      rw [OrderedMap.get?, hempty]
      rfl
    have hnil : newErrors collected definition = [] :=
      (h.newErrors_eq_nil_iff hnone).mpr
        ⟨hcreate, fun key hkey other hother => hkey ▸ hothers other hother⟩
    rw [hadds.same hnil, hempty]

/-- The loop comes to its end just if all definitions are harmless. -/
theorem checkDefinitions_spec (definitions : List NotificationTemplateDefinition) :
    (Along IsHarmless definitions ∧ ∃ collected,
      checkDefinitions definitions = .ok collected ∧ Reflects definitions collected) ∨
    ¬ Along IsHarmless definitions ∧ ∃ error, checkDefinitions definitions = .error error := by
  induction definitions using List.reverseRecOn with
  | nil => exact .inl ⟨along_nil, _, rfl, reflects_nil⟩
  | append_singleton before definition ih =>
    have hstep : checkDefinitions (before ++ [definition]) =
        checkDefinitions before >>= fun collected =>
          checkDefinition collected definition before.length := by
      rw [checkDefinitions, List.zipIdx_append, List.foldlM_append, Nat.zero_add]
      refine bind_congr fun collected => ?_
      rw [List.zipIdx_cons, List.zipIdx_nil, List.foldlM_cons]
      exact bind_pure _
    rw [hstep, along_concat_iff]
    rcases ih with ⟨hbefore, collected, hcollected, hreflects⟩ | ⟨hbefore, error, herror⟩
    · rw [hcollected]
      change _ ∧ (∃ after, checkDefinition collected definition before.length = .ok after ∧ _) ∨
        _ ∧ ∃ error, checkDefinition collected definition before.length = .error error
      rw [checkDefinition_eq]
      by_cases hharmless : IsHarmless before definition
      · have hcases := (hreflects.isHarmless_iff before.length).mp hharmless
        obtain ⟨added, hadded, hadds⟩ := exists_addErrors hcases
        rw [hadded]
        exact .inl ⟨⟨hbefore, hharmless⟩, _, rfl, hreflects.concat hadds hcases⟩
      · have hcases := (not_congr (hreflects.isHarmless_iff before.length)).mp hharmless
        obtain ⟨hne, hlabel⟩ := not_or.mp hcases
        have hinherited := not_not.mp hlabel
        obtain ⟨error, herror⟩ :=
          addErrors_throws hinherited (hreflects.inherited _ hinherited) hne
        rw [herror]
        exact .inr ⟨fun hall => hharmless hall.2, error, rfl⟩
    · rw [herror]
      exact .inr ⟨fun hall => hbefore hall.1, error, rfl⟩

theorem isValidSet_iff_along : IsValidSet before ↔ Along (fun before definition =>
    (∃ template, NotificationTemplate.create definition = .ok template) ∧
      ∀ other ∈ before, other.usableKey ≠ definition.usableKey) before := by
  induction before using List.reverseRecOn with
  | nil => exact iff_of_true ⟨by simp, List.nodup_nil⟩ along_nil
  | append_singleton before definition ih => rw [isValidSet_concat_iff, along_concat_iff, ih]

/-- The loop collects no errors from a valid set, and only from one. -/
theorem Reflects.entries_eq_nil_iff (h : Reflects before collected) :
    collected.fieldErrors.entries = [] ↔ IsValidSet before := by
  refine ⟨fun hempty => ?_, h.clean⟩
  have hlists : ∀ label errors, ¬ Lists collected.fieldErrors.entries label errors := by
    rintro label errors ⟨listed, hlisted, -⟩
    rw [hempty] at hlisted
    cases hlisted
  refine isValidSet_iff_along.mpr fun front definition behind hsplit => ?_
  cases hcreate : NotificationTemplate.create definition with
  | error reason =>
    exact absurd (h.invalid front definition behind hsplit reason hcreate) (hlists _ _)
  | ok template =>
    have hkey := usableKey_of_create hcreate
    refine ⟨⟨template, hcreate⟩, fun other hother heq => ?_⟩
    exact absurd (h.duplicated front definition behind hsplit template.key hkey
      ⟨other, hother, heq.trans hkey⟩) (hlists _ _)

/-- What the registry of a valid set finds. -/
theorem Reflects.resolves (h : Reflects before collected) (hvalid : IsValidSet before)
    (key : String) :
    (∀ definition ∈ before, definition.usableKey = some key → ∃ template,
      NotificationTemplate.create definition = .ok template ∧
        TemplateRegistry.resolve ⟨collected.templates⟩ key = .ok template) ∧
    ((∀ definition ∈ before, definition.usableKey ≠ some key) →
      ∃ error, TemplateRegistry.resolve ⟨collected.templates⟩ key = .error error) := by
  constructor
  · intro definition hdefinition hkey
    obtain ⟨template, hcreate⟩ := hvalid.1 definition hdefinition
    obtain ⟨found, hfound⟩ := h.registered definition hdefinition template hcreate
    rw [← Option.some.inj (hkey.symm.trans (usableKey_of_create hcreate))] at hfound
    obtain ⟨other, hother, hcreated⟩ := h.template key found hfound
    have hotherKey : other.usableKey = some key := by
      rw [usableKey_of_create hcreated, collected.templates.keyed key found hfound]
    have hsame : definition = other :=
      List.inj_on_of_nodup_map hvalid.2 hdefinition hother (hkey.trans hotherKey.symm)
    refine ⟨found, hsame ▸ hcreated, ?_⟩
    rw [TemplateRegistry.resolve, hfound]
  · intro hothers
    rcases hfound : collected.templates.map.get? key with _ | template
    · exact ⟨_, by rw [TemplateRegistry.resolve, hfound]⟩
    · obtain ⟨other, hother, hcreated⟩ := h.template key template hfound
      refine absurd ?_ (hothers other hother)
      rw [usableKey_of_create hcreated, collected.templates.keyed key template hfound]

end Run

/-- Creation obeys the law just if every definition with the key of an inherited property is
accepted and no duplicate. -/
theorem isLawful_create_iff (definitions : List NotificationTemplateDefinition) :
    (∃ result, TemplateRegistry.create definitions = .ok result ∧ IsLawful definitions result) ↔
      Along IsHarmless definitions := by
  rcases checkDefinitions_spec definitions with
    ⟨hharmless, collected, hcollected, hreflects⟩ | ⟨hharmful, error, herror⟩
  · refine iff_of_true ?_ hharmless
    rw [TemplateRegistry.create, hcollected]
    change ∃ result, (if 0 < collected.fieldErrors.entries.length then _ else _) = _ ∧ _
    by_cases hempty : collected.fieldErrors.entries = []
    · have hvalid := hreflects.entries_eq_nil_iff.mp hempty
      refine ⟨.ok ⟨collected.templates⟩, by rw [hempty]; rfl, ?_⟩
      refine ⟨iff_of_true ⟨_, rfl⟩ hvalid, ?_, ?_, ?_⟩
      · rintro registry ⟨rfl⟩
        exact hreflects.resolves hvalid
      · rintro error ⟨⟩
      · rintro error ⟨⟩
    · have hinvalid := (not_congr hreflects.entries_eq_nil_iff).mp hempty
      refine ⟨.error ⟨"Notification template registry is invalid.",
        collected.fieldErrors.entries⟩, if_pos (List.length_pos_iff.mpr hempty), ?_⟩
      refine ⟨iff_of_false ?_ hinvalid, ?_, ?_, ?_⟩
      · rintro ⟨registry, ⟨⟩⟩
      · rintro registry ⟨⟩
      · rintro error ⟨rfl⟩
        exact hreflects.invalid
      · rintro error ⟨rfl⟩
        exact hreflects.duplicated
  · refine iff_of_false ?_ hharmful
    rintro ⟨result, hresult, -⟩
    rw [TemplateRegistry.create, herror] at hresult
    cases hresult

/-- A definition that is accepted, with the name of an inherited property for its key. -/
def constructorDefinition : NotificationTemplateDefinition where
  key := some (.string "constructor")
  channel := some (.string "sms")
  bodyTemplate := some (.string "Hello.")
  requiredPayloadFields := some (.array [])

/-- The duplicate of such a definition is not reported but throws. -/
theorem not_isLawful_create_constructor :
    ¬ ∃ result, TemplateRegistry.create [constructorDefinition, constructorDefinition] =
        .ok result ∧
      IsLawful [constructorDefinition, constructorDefinition] result := by
  rintro ⟨result, hresult, -⟩
  rcases checkDefinitions_spec [constructorDefinition, constructorDefinition] with
    ⟨hharmless, -⟩ | ⟨-, error, herror⟩
  · have hduplicate := hharmless [constructorDefinition] constructorDefinition [] rfl
      "constructor" (by simp [inheritedKeys]) rfl
    exact hduplicate.2 constructorDefinition List.mem_cons_self rfl
  · rw [TemplateRegistry.create, herror] at hresult
    cases hresult

end Verixa.Notifications
