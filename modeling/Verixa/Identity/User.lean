import Verixa.Encoding.Text
import Verixa.SharedKernel.Record

/-!
# Users and email addresses

What the other contexts see of a user.  `toLowerCase` stands for the built-in function on texts,
whose Unicode tables are not spelled out here.
-/

namespace Verixa

open Encoding

/-! ## Email addresses -/

namespace Email

/-- RFC 5321 total-path length limit. -/
def MAX_LENGTH : ℕ := 254

/-- A letter of `[^\s@]`. -/
def isAddressLetter (c : Char) : Bool := !isWhiteSpace c && c != '@'

/-- `^[^\s@]+@[^\s@]+\.[^\s@]+$`: two parts of address letters on the sides of an at sign, the
second with a dot that is neither its first nor its last letter. -/
def matchesPattern (text : List Char) : Bool :=
  let localPart := text.takeWhile (· != '@')
  let domain := (text.dropWhile (· != '@')).drop 1
  text.contains '@' && !localPart.isEmpty && localPart.all isAddressLetter &&
    domain.all isAddressLetter && (domain.drop 1).dropLast.contains '.'

/-- What is wrong with a normalized address. -/
def problem (normalized : String) : Option ValidationError :=
  if utf16Length normalized = 0 then some ⟨"Email is required.", [("email", ["required"])]⟩
  else if MAX_LENGTH < utf16Length normalized then
    some ⟨"Email must be at most " ++ Nat.repr MAX_LENGTH ++ " characters.",
      [("email", ["too_long"])]⟩
  else if !matchesPattern normalized.toList then
    some ⟨"Email is not a valid address.", [("email", ["invalid_format"])]⟩
  else none

end Email

/-- A normalized email address. -/
structure Email where
  value : String
  /-- Nothing is wrong with it. -/
  valid : Email.problem value = none
  deriving DecidableEq

/-- Normalizes and checks an address. -/
def Email.create (toLowerCase : String → String) (raw : String) : Except ValidationError Email :=
  let normalized := toLowerCase (trim raw)
  match h : Email.problem normalized with
  | some error => .error error
  | none => .ok ⟨normalized, h⟩

/-! ## Users -/

/-- Where a user stands in its life. -/
inductive UserStatus where
  | pending
  | active
  | suspended
  | deleted
  deriving DecidableEq

/-- A user. -/
structure User where
  id : String
  email : Email
  displayName : String
  status : UserStatus
  createdAt : ℤ
  updatedAt : ℤ
  deriving DecidableEq

/-- The user was soft-deleted. -/
def User.isDeleted (user : User) : Bool := decide (user.status = .deleted)

example : (Email.create String.toLower " Ada@Example.com ").toOption.map Email.value =
    some "ada@example.com" := by decide +kernel

example : (Email.create String.toLower "ada@example.").toOption = none := by decide +kernel

end Verixa
