import Verixa.Authorization.Permission

/-!
# Wildcards as inclusion

A permission with a wildcard stands for a set of concrete ones, those without a wildcard.  A granted
permission covers a required one if it matches every concrete permission that the required one
matches; `matches_iff_covers` says that `Permission.matches` decides just that, for wildcards on
either side, and that the matcher answers in the same way for any spelling of the two.
-/

namespace Verixa.Authorization

open Encoding

/-! ## The set of concrete permissions -/

namespace Permission

/-- Neither part is the wildcard. -/
def IsConcrete (permission : Permission) : Prop :=
  permission.resource ≠ "*" ∧ permission.action ≠ "*"

/-- Every concrete permission that the required one matches is matched by the granted one. -/
def Covers (granted required : Permission) : Prop :=
  ∀ concrete : Permission, concrete.IsConcrete → required.matches concrete = true →
    granted.matches concrete = true

theorem Covers.refl (permission : Permission) : permission.Covers permission :=
  fun _ _ hmatches => hmatches

theorem Covers.trans {a b c : Permission} (hab : a.Covers b) (hbc : b.Covers c) : a.Covers c := by
  intro concrete hconcrete hmatches
  exact hab concrete hconcrete (hbc concrete hconcrete hmatches)

/-! ## A part that stands for a wildcard -/

/-- One letter more than a part makes another part, which is no wildcard. -/
def another (part : String) : String := part ++ "a"

theorem another_valid {part : String} (h : isPermissionPart part.toList = true) :
    isPermissionPart (another part).toList = true := by
  rw [isPermissionPart, Bool.and_eq_true, List.all_eq_true] at h ⊢
  rw [another, String.toList_append]
  refine ⟨by simp, ?_⟩
  intro c hc
  rcases List.mem_append.mp hc with hpart | hletter
  · exact h.2 c hpart
  · obtain rfl : c = 'a' := by simpa using hletter
    decide

theorem another_ne_self (part : String) : another part ≠ part := by
  intro h
  have hlength := congrArg String.length h
  rw [another, String.length_append] at hlength
  have hletter : "a".length = 1 := rfl
  omega

theorem another_ne_wildcard {part : String} : another part ≠ "*" := by
  intro h
  have hletters := congrArg (fun text => text.toList.getLast?) h
  simp [another] at hletters

/-- A part that a required part stands for, and that a granted part stands for only if it stands
for the required part altogether. -/
def instanceOf (granted required : String) : String :=
  if required = "*" then another granted else required

theorem instanceOf_valid {granted required : String}
    (hgranted : isPermissionPart granted.toList = true)
    (hrequired : isPermissionPart required.toList = true) :
    isPermissionPart (instanceOf granted required).toList = true := by
  unfold instanceOf
  split
  · exact another_valid hgranted
  · exact hrequired

theorem instanceOf_ne_wildcard (granted required : String) :
    instanceOf granted required ≠ "*" := by
  unfold instanceOf
  split
  · exact another_ne_wildcard
  · assumption

theorem eq_or_eq_instanceOf (granted required : String) :
    required = "*" ∨ required = instanceOf granted required := by
  unfold instanceOf
  split
  · exact .inl ‹_›
  · exact .inr rfl

/-- What a granted part has to be if it stands for that part. -/
theorem eq_or_eq_of_instanceOf {granted required : String}
    (h : granted = "*" ∨ granted = instanceOf granted required) :
    granted = "*" ∨ granted = required := by
  rcases h with hwildcard | hinstance
  · exact .inl hwildcard
  · unfold instanceOf at hinstance
    split at hinstance
    · exact absurd hinstance.symm (another_ne_self granted)
    · exact .inr hinstance

/-- A concrete permission of a required one that tells whether a granted one covers it. -/
def witnessOf (granted required : Permission) : Permission where
  resource := instanceOf granted.resource required.resource
  action := instanceOf granted.action required.action
  resource_valid := instanceOf_valid granted.resource_valid required.resource_valid
  action_valid := instanceOf_valid granted.action_valid required.action_valid

/-! ## Matching is inclusion -/

theorem Covers.of_matches {granted required : Permission} (h : granted.matches required = true) :
    granted.Covers required := by
  intro concrete _ hmatches
  rw [matches_iff] at h hmatches ⊢
  obtain ⟨hresource, haction⟩ := h
  obtain ⟨hresource', haction'⟩ := hmatches
  constructor
  · rcases hresource with hwildcard | hsame
    · exact .inl hwildcard
    · rw [hsame]
      exact hresource'
  · rcases haction with hwildcard | hsame
    · exact .inl hwildcard
    · rw [hsame]
      exact haction'

theorem Covers.matches {granted required : Permission} (h : granted.Covers required) :
    granted.matches required = true := by
  have hrequired : required.matches (witnessOf granted required) = true := by
    rw [matches_iff]
    exact ⟨eq_or_eq_instanceOf _ _, eq_or_eq_instanceOf _ _⟩
  have hconcrete : (witnessOf granted required).IsConcrete :=
    ⟨instanceOf_ne_wildcard _ _, instanceOf_ne_wildcard _ _⟩
  have hgranted := h _ hconcrete hrequired
  rw [matches_iff] at hgranted ⊢
  exact ⟨eq_or_eq_of_instanceOf hgranted.1, eq_or_eq_of_instanceOf hgranted.2⟩

theorem matches_eq_true_iff {granted required : Permission} :
    granted.matches required = true ↔ granted.Covers required :=
  ⟨Covers.of_matches, Covers.matches⟩

/-! ## Spellings -/

/-- The text of the permission with letters of either case, and blanks around it. -/
def IsSpelling (permission : Permission) (raw : String) : Prop :=
  ∃ before letters behind : List Char, raw.toList = before ++ (letters ++ behind) ∧
    (∀ c ∈ before, isWhiteSpace c = true) ∧ (∀ c ∈ behind, isWhiteSpace c = true) ∧
    letters.map Char.toLower = permission.value.toList

/-- A letter whose lower case stands in the text is an ASCII letter and no blank. -/
theorem spelled_letter {permission : Permission} {c : Char}
    (h : c.toLower ∈ permission.value.toList) :
    c.toNat < 0x80 ∧ isWhiteSpace c = false := by
  have hlower : c.toLower.toNat < 0x80 ∧ isWhiteSpace c.toLower = false := by
    rcases mem_value h with hletter | hcolon
    · exact ⟨(isPermissionChar_lower hletter).1, not_isWhiteSpace_of_isPermissionChar hletter⟩
    · rw [hcolon]
      decide
  by_cases hcapital : 'A'.val ≤ c.val ∧ c.val ≤ 'Z'.val
  · have hlow : 0x41 ≤ c.toNat := UInt32.le_iff_toNat_le.mp hcapital.1
    have hhigh : c.toNat ≤ 0x5a := UInt32.le_iff_toNat_le.mp hcapital.2
    have hval : c.val.toNat = c.toNat := rfl
    refine ⟨by omega, ?_⟩
    simp only [isWhiteSpace, ← UInt32.toNat_inj, UInt32.le_iff_toNat_le, UInt32.reduceToNat, hval,
      Bool.or_eq_false_iff, Bool.and_eq_false_iff, decide_eq_false_iff_not]
    omega
  · rw [Char.toLower, dif_neg hcapital] at hlower
    exact hlower

/-- A spelling is read as the permission. -/
theorem create_of_isSpelling (casing : LowerCasing) {permission : Permission} {raw : String}
    (h : permission.IsSpelling raw) : create casing raw = .ok permission := by
  obtain ⟨before, letters, behind, hraw, hbefore, hbehind, hletters⟩ := h
  have hletter : ∀ c ∈ letters, c.toNat < 0x80 ∧ isWhiteSpace c = false := by
    intro c hc
    apply @spelled_letter permission
    rw [← hletters]
    exact List.mem_map_of_mem hc
  have hne : letters ≠ [] := by
    rintro rfl
    rw [List.map_nil, toList_value] at hletters
    simp at hletters
  apply create_of_normalized
  rw [trim_blanks hraw hbefore hbehind hne fun c hc => (hletter c hc).2, casing.ascii]
  · rw [String.toList_ofList, hletters, String.ofList_toList]
  · intro c hc
    rw [String.toList_ofList] at hc
    exact (hletter c hc).1

end Permission

/-! ## The claim of the matcher -/

/-- Matching is inclusion of the sets of concrete permissions, for wildcards on either side; the
matcher answers in the same way, for permissions and for all texts that stand for them, whatever
their case and the blanks around them. -/
theorem matches_iff_covers (casing : LowerCasing) :
    (∀ (granted required : PermissionArg) (g r : Permission), granted.create casing = .ok g →
      required.create casing = .ok r →
      PermissionMatcher.matches casing granted required = g.matches r) ∧
    (∀ (permission : Permission) (raw : String), permission.IsSpelling raw →
      (PermissionArg.string raw).create casing = .ok permission) ∧
    (∀ granted required : Permission,
      granted.matches required = true ↔ granted.Covers required) ∧
    (∀ permission : Permission, permission.matches permission = true) ∧
    ∀ a b c : Permission, a.matches b = true → b.matches c = true → a.matches c = true := by
  refine ⟨?_, ?_, ?_, ?_, ?_⟩
  · intro granted required g r hg hr
    exact PermissionMatcher.matches_of_create hg hr
  · intro permission raw hspelling
    exact Permission.create_of_isSpelling casing hspelling
  · intro granted required
    exact Permission.matches_eq_true_iff
  · intro permission
    exact (Permission.Covers.refl permission).matches
  · intro a b c hab hbc
    exact ((Permission.Covers.of_matches hab).trans (Permission.Covers.of_matches hbc)).matches

theorem matches_iff_covers_sample :
    PermissionMatcher.matches asciiLowerCasing (.string " Users:* ") (.string "users:READ") =
      true := by
  have hgranted : (PermissionArg.string " Users:* ").create asciiLowerCasing =
      .ok ⟨"users", "*", by decide, by decide⟩ := by
    decide +kernel
  have hrequired : (PermissionArg.string "users:READ").create asciiLowerCasing =
      .ok ⟨"users", "read", by decide, by decide⟩ := by
    decide +kernel
  rw [(matches_iff_covers asciiLowerCasing).1 _ _ _ _ hgranted hrequired]
  decide +kernel

end Verixa.Authorization
