import Verixa.Encoding.Text
import Verixa.SharedKernel.Record

/-!
# Permissions

A permission is a text `resource:action`.  Both parts consist of lower-case letters, digits,
hyphens, underscores and the wildcard `*`, and neither is empty, so that the text determines the
two parts.  `Permission.create` normalizes and checks a text, `Permission.matches` says which
permissions a granted one stands for, and `PermissionMatcher.matches` says the same of texts.
-/

namespace Verixa.Authorization

open Encoding

/-! ## The value object -/

/-- The letters that both parts of a permission may consist of. -/
def isPermissionChar (c : Char) : Bool :=
  (0x61 ≤ c.toNat && c.toNat ≤ 0x7a) || (0x30 ≤ c.toNat && c.toNat ≤ 0x39) || c = '_' || c = '*' ||
    c = '-'

/-- Whether a text may be a part of a permission. -/
def isPermissionPart (part : List Char) : Bool :=
  !part.isEmpty && part.all isPermissionChar

/-- An immutable permission. -/
structure Permission where
  resource : String
  action : String
  resource_valid : isPermissionPart resource.toList = true
  action_valid : isPermissionPart action.toList = true
  deriving DecidableEq

namespace Permission

/-- `resource:action`. -/
def value (permission : Permission) : String := permission.resource ++ ":" ++ permission.action

/-- The same text. -/
def key (permission : Permission) : String := permission.value

/-- `${raw}` between quotation marks, as the messages show it. -/
def quoted (raw : String) : String := "Permission identifier \"" ++ raw ++ "\""

/-- Normalizes and checks a text. -/
def create (casing : LowerCasing) (raw : String) : Except ValidationError Permission :=
  let normalized := casing.toLowerCase (trim raw)
  if normalized = "" then
    .error ⟨"Permission identifier is required.", [("permission", ["required"])]⟩
  else
    match normalized.toList.splitOn ':' with
    | [resource, action] =>
      if resource.all isWhiteSpace then
        .error ⟨quoted raw ++ " is missing a resource component before the colon.",
          [("permission", ["empty_resource"])]⟩
      else if action.all isWhiteSpace then
        .error ⟨quoted raw ++ " is missing an action component after the colon.",
          [("permission", ["empty_action"])]⟩
      else if h : isPermissionPart resource = true ∧ isPermissionPart action = true then
        .ok ⟨String.ofList resource, String.ofList action, by simpa using h.1, by simpa using h.2⟩
      else
        .error ⟨quoted raw ++ " contains invalid characters. Allowed: lowercase alphanumeric, " ++
          "hyphen, underscore, and wildcard \"*\".", [("permission", ["invalid_characters"])]⟩
    | _ =>
      .error ⟨quoted raw ++ " must be formatted as \"resource:action\" with exactly one colon.",
        [("permission", ["invalid_format"])]⟩

/-- Whether the permission, granted, covers a required one. -/
def «matches» (granted required : Permission) : Bool :=
  if granted.value = required.value then true
  else if granted.resource = "*" ∧ granted.action = "*" then true
  else if granted.resource = required.resource ∧ granted.action = "*" then true
  else if granted.resource = "*" ∧ granted.action = required.action then true
  else false

end Permission

/-! ## Reading a permission back -/

theorem isPermissionChar_lower {c : Char} (h : isPermissionChar c = true) :
    c.toNat < 0x80 ∧ c.toLower = c := by
  have hrange : c.toNat < 0x80 ∧ ¬ (0x41 ≤ c.toNat ∧ c.toNat ≤ 0x5a) := by
    simp only [isPermissionChar, Bool.or_eq_true, Bool.and_eq_true, decide_eq_true_eq] at h
    rcases h with (((h | h) | rfl) | rfl) | rfl
    · omega
    · omega
    all_goals decide
  refine ⟨hrange.1, ?_⟩
  rw [Char.toLower, dif_neg]
  rintro ⟨hlow, hhigh⟩
  exact hrange.2 ⟨UInt32.le_iff_toNat_le.mp hlow, UInt32.le_iff_toNat_le.mp hhigh⟩

theorem not_isWhiteSpace_of_isPermissionChar {c : Char} (h : isPermissionChar c = true) :
    isWhiteSpace c = false := by
  have hrange : 0x21 ≤ c.toNat ∧ c.toNat < 0x80 := by
    simp only [isPermissionChar, Bool.or_eq_true, Bool.and_eq_true, decide_eq_true_eq] at h
    rcases h with (((h | h) | rfl) | rfl) | rfl
    · omega
    · omega
    all_goals decide
  have hval : c.val.toNat = c.toNat := rfl
  simp only [isWhiteSpace, ← UInt32.toNat_inj, UInt32.le_iff_toNat_le, UInt32.reduceToNat, hval,
    Bool.or_eq_false_iff, Bool.and_eq_false_iff, decide_eq_false_iff_not]
  omega

namespace Permission

/-- The letters of the text. -/
theorem toList_value (permission : Permission) :
    permission.value.toList = permission.resource.toList ++ ':' :: permission.action.toList := by
  simp [value, String.toList_append]

/-- The letters of a part. -/
theorem isPermissionChar_of_mem {part : List Char} (hpart : isPermissionPart part = true)
    {c : Char} (hc : c ∈ part) : isPermissionChar c = true := by
  rw [isPermissionPart, Bool.and_eq_true, List.all_eq_true] at hpart
  exact hpart.2 c hc

theorem colon_notMem {part : List Char} (hpart : isPermissionPart part = true) : ':' ∉ part := by
  intro hmem
  exact absurd (isPermissionChar_of_mem hpart hmem) (by decide)

/-- A letter of the text is the colon or may stand in a part. -/
theorem mem_value {permission : Permission} {c : Char} (hc : c ∈ permission.value.toList) :
    isPermissionChar c = true ∨ c = ':' := by
  rw [toList_value, List.mem_append, List.mem_cons] at hc
  rcases hc with hc | rfl | hc
  · exact Or.inl (isPermissionChar_of_mem permission.resource_valid hc)
  · exact Or.inr rfl
  · exact Or.inl (isPermissionChar_of_mem permission.action_valid hc)

/-- Splitting the text at the colon gives the two parts. -/
theorem splitOn_value (permission : Permission) :
    permission.value.toList.splitOn ':' =
      [permission.resource.toList, permission.action.toList] := by
  rw [toList_value,
    List.splitOn_append_cons_self_of_not_mem (colon_notMem permission.resource_valid),
    List.splitOn_eq_singleton (colon_notMem permission.action_valid)]

/-- The text determines the permission. -/
theorem value_injective : Function.Injective value := by
  intro p q h
  have hparts := splitOn_value p
  rw [h, splitOn_value, List.cons.injEq, List.cons.injEq] at hparts
  cases p
  cases q
  simp only [mk.injEq]
  exact ⟨(String.toList_injective hparts.1).symm, (String.toList_injective hparts.2.1).symm⟩

/-- A part is not blank. -/
theorem not_blank {part : List Char} (hpart : isPermissionPart part = true) :
    part.all isWhiteSpace = false := by
  have hne : part ≠ [] := by
    rintro rfl
    exact absurd hpart (by decide)
  obtain ⟨c, rest, rfl⟩ := List.exists_cons_of_ne_nil hne
  have hc := not_isWhiteSpace_of_isPermissionChar
    (isPermissionChar_of_mem hpart (List.mem_cons_self))
  simp [hc]

/-- Normalizing the text of a permission leaves it as it is. -/
theorem normalize_value (casing : LowerCasing) (permission : Permission) :
    casing.toLowerCase (trim permission.value) = permission.value := by
  rw [trim_of_forall_not_isWhiteSpace, casing.toLowerCase_of_lower]
  · intro c hc
    rcases mem_value hc with hc | rfl
    · exact isPermissionChar_lower hc
    · decide
  · intro c hc
    rcases mem_value hc with hc | rfl
    · exact not_isWhiteSpace_of_isPermissionChar hc
    · decide

/-- A text that is normalized to that of a permission is read as that permission. -/
theorem create_of_normalized {casing : LowerCasing} {permission : Permission} {raw : String}
    (h : casing.toLowerCase (trim raw) = permission.value) :
    create casing raw = .ok permission := by
  have hne : permission.value ≠ "" := by
    intro h
    have := congrArg String.toList h
    simp [toList_value] at this
  simp only [create, h, if_neg hne, splitOn_value, not_blank permission.resource_valid,
    not_blank permission.action_valid, Bool.false_eq_true, if_false]
  rw [dif_pos ⟨permission.resource_valid, permission.action_valid⟩]
  simp

/-- The text of a permission is read back as that permission. -/
@[simp] theorem create_value (casing : LowerCasing) (permission : Permission) :
    create casing permission.value = .ok permission :=
  create_of_normalized (normalize_value casing permission)

/-! ## Wildcards -/

/-- Each part of the granted permission is the wildcard or the part that is required. -/
theorem matches_iff {granted required : Permission} :
    granted.matches required = true ↔
      (granted.resource = "*" ∨ granted.resource = required.resource) ∧
        (granted.action = "*" ∨ granted.action = required.action) := by
  have hvalue : granted.value = required.value ↔
      granted.resource = required.resource ∧ granted.action = required.action := by
    rw [value_injective.eq_iff]
    cases granted
    cases required
    simp
  unfold «matches»
  simp only [hvalue]
  split_ifs <;> tauto

/-- `resource:*` for the resource of a permission. -/
def resourceWildcard (permission : Permission) : Permission :=
  ⟨permission.resource, "*", permission.resource_valid, by decide⟩

/-- `*:action` for the action of a permission. -/
def actionWildcard (permission : Permission) : Permission :=
  ⟨"*", permission.action, by decide, permission.action_valid⟩

/-- `*:*`. -/
def globalWildcard : Permission := ⟨"*", "*", by decide, by decide⟩

theorem value_resourceWildcard (permission : Permission) :
    permission.resourceWildcard.value = permission.resource ++ ":*" := by
  rw [value, String.append_assoc]
  rfl

theorem value_globalWildcard : globalWildcard.value = "*:*" := by decide +kernel

/-- Four permissions cover a required one. -/
theorem matches_iff_eq {granted required : Permission} :
    granted.matches required = true ↔
      granted = required ∨ granted = required.resourceWildcard ∨
        granted = required.actionWildcard ∨ granted = globalWildcard := by
  rw [matches_iff]
  cases granted
  cases required
  simp only [resourceWildcard, actionWildcard, globalWildcard, mk.injEq]
  tauto

end Permission

/-! ## Permissions and texts -/

/-- What the functions that take `Permission | string` are given. -/
inductive PermissionArg where
  | permission (permission : Permission)
  | string (raw : String)
  deriving DecidableEq

/-- A text is normalized and checked, a permission is taken as it is. -/
def PermissionArg.create (casing : LowerCasing) : PermissionArg → Except ValidationError Permission
  | .permission p => .ok p
  | .string raw => Permission.create casing raw

theorem PermissionArg.create_permission (casing : LowerCasing) (p : Permission) :
    (PermissionArg.permission p).create casing = .ok p := rfl

/-- Whether the granted permission covers the required one; a text that is no permission neither
covers nor is covered. -/
def PermissionMatcher.«matches» (casing : LowerCasing) (granted required : PermissionArg) : Bool :=
  match granted.create casing, required.create casing with
  | .ok grantedPerm, .ok requiredPerm =>
    if grantedPerm.value = requiredPerm.value then true
    else if grantedPerm.resource = "*" ∧ grantedPerm.action = "*" then true
    else if grantedPerm.resource = requiredPerm.resource ∧ grantedPerm.action = "*" then true
    else if grantedPerm.resource = "*" ∧ grantedPerm.action = requiredPerm.action then true
    else false
  | _, _ => false

/-- Whether a permission is the reserved `*:*`. -/
def PermissionMatcher.isGlobalWildcard (casing : LowerCasing) (permission : PermissionArg) : Bool :=
  match permission.create casing with
  | .ok perm => perm.resource = "*" ∧ perm.action = "*"
  | .error _ => false

/-- The matcher decides as the value object does. -/
theorem PermissionMatcher.matches_of_create {casing : LowerCasing}
    {granted required : PermissionArg} {g r : Permission} (hg : granted.create casing = .ok g)
    (hr : required.create casing = .ok r) :
    PermissionMatcher.matches casing granted required = g.matches r := by
  simp only [PermissionMatcher.«matches», hg, hr]
  rfl

example : Permission.create asciiLowerCasing " Users:READ" =
    .ok ⟨"users", "read", by decide, by decide⟩ := by decide +kernel

example : (Permission.create asciiLowerCasing "users:read:all").toOption = none := by
  decide +kernel

end Verixa.Authorization
