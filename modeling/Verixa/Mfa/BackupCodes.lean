import Verixa.Collections.KeyedMap
import Verixa.Concurrency.Throwing
import Verixa.Encoding.JsonArray
import Verixa.Mfa.TotpUseCases

/-!
# Backup codes

`BackupCodeSet`, which makes and verifies codes, and the two use cases over a store of methods:
`GenerateBackupCodes` replaces the set of a user, and `ConsumeBackupCode` redeems one of its codes.
A set is stored as the JSON text of the hashes that are left.

Argon2, random bytes and drawn ids come from outside, and so do calls that throw.  A code that is
presented is brought into the form of the codes that are made (`expectedFormat_eq_iff`).
-/

namespace Verixa.Mfa

open Concurrency Encoding

/-! ## Codes -/

namespace BackupCodeSet

def CODE_COUNT : ℕ := 10

def CODE_LENGTH : ℕ := 10

/-- The characters of codes, without those that look alike. -/
def CHARSET : CodeUnits := unitsOf "23456789ABCDEFGHJKLMNPQRSTUVWXYZ"

/-- A dash behind the fifth code unit. -/
def withDash (units : CodeUnits) : CodeUnits := units.take 5 ++ 45 :: units.drop 5

/-- The code that is made of random bytes. -/
def generateSingleCode (randomBuffer : Bytes) : CodeUnits :=
  withDash (randomBuffer.map fun byte => CHARSET.getD (byte.toNat % CHARSET.length) 0)

/-- A capital letter or a digit of ASCII. -/
def isCodeUnit (unit : UInt16) : Bool :=
  decide (65 ≤ unit.toNat ∧ unit.toNat ≤ 90 ∨ 48 ≤ unit.toNat ∧ unit.toNat ≤ 57)

/-- What a code is verified as. -/
def expectedFormat (upper : UpperCasing) (rawCode : CodeUnits) : CodeUnits :=
  withDash ((upper.toUpperCase rawCode).filter isCodeUnit)

/-- The letters and digits of a spelling, the letters as capitals. -/
def letters (rawCode : CodeUnits) : CodeUnits := (rawCode.map upperUnit).filter isCodeUnit

section

variable {upper : UpperCasing} {random : Bytes} {spelling units : CodeUnits}

theorem isCodeUnit_charset : ∀ n < CHARSET.length, isCodeUnit (CHARSET.getD n 0) = true ∧
    upperUnit (CHARSET.getD n 0) = CHARSET.getD n 0 := by
  decide +kernel

theorem length_charset_pos : 0 < CHARSET.length := by decide +kernel

/-- What stands around the dash is found again. -/
theorem withDash_inj {others : CodeUnits} (hunits : units.length = CODE_LENGTH)
    (h : withDash others = withDash units) : others = units := by
  have hlength : others.length = units.length := by
    have := congrArg List.length h
    simp only [withDash, List.length_append, List.length_take, List.length_cons,
      List.length_drop] at this
    omega
  have hfirst : (others.take 5).length = (units.take 5).length := by
    rw [List.length_take, List.length_take, hlength]
  obtain ⟨htake, hdrop⟩ := List.append_inj h hfirst
  rw [← List.take_append_drop 5 others, htake, (List.cons.inj hdrop).2, List.take_append_drop]

/-- The letters of a code that is made are all of it but the dash. -/
theorem letters_generateSingleCode :
    letters (generateSingleCode random) =
      random.map fun byte => CHARSET.getD (byte.toNat % CHARSET.length) 0 := by
  have hunits : ∀ part : Bytes,
      letters (part.map fun byte => CHARSET.getD (byte.toNat % CHARSET.length) 0) =
        part.map fun byte => CHARSET.getD (byte.toNat % CHARSET.length) 0 := by
    intro part
    have hspec : ∀ byte : UInt8, _ := fun byte =>
      isCodeUnit_charset _ (Nat.mod_lt byte.toNat length_charset_pos)
    rw [letters, List.map_map, List.filter_eq_self.mpr]
    · exact List.map_congr_left fun byte _ => (hspec byte).2
    · intro unit hunit
      obtain ⟨byte, -, rfl⟩ := List.mem_map.mp hunit
      rw [Function.comp_apply, (hspec byte).2]
      exact (hspec byte).1
  have happend : ∀ a b, letters (a ++ 45 :: b) = letters a ++ letters b := by
    intro a b
    rw [letters, List.map_append, List.filter_append, List.map_cons, List.filter_cons_of_neg
      (by decide), letters, letters]
  rw [generateSingleCode, withDash, happend, ← List.map_take, ← List.map_drop, hunits, hunits,
    ← List.map_append, List.take_append_drop]

/-- An ASCII spelling is verified as a code that was made exactly if its letters and digits are
those of the code, in whatever case they are and whatever stands between them. -/
theorem expectedFormat_eq_iff (hrandom : random.length = CODE_LENGTH)
    (hascii : IsAscii spelling) :
    expectedFormat upper spelling = generateSingleCode random ↔
      letters spelling = letters (generateSingleCode random) := by
  rw [letters_generateSingleCode, expectedFormat, upper.ascii spelling hascii]
  constructor
  · intro h
    exact withDash_inj (by rw [List.length_map, hrandom]) h
  · intro h
    exact congrArg withDash h

end

end BackupCodeSet

/-- The bytes of a code. -/
def sampleBytes : Bytes := [0, 1, 2, 3, 40, 250, 6, 7, 8, 31]

/-- The code in small letters and in groups of two is verified as it was made. -/
theorem expectedFormat_eq_iff_spelled :
    BackupCodeSet.expectedFormat asciiUpperCasing (unitsOf "23 45 au 89 az") =
      BackupCodeSet.generateSingleCode sampleBytes := by
  have hascii : (unitsOf "23 45 au 89 az").all (fun unit => decide (unit.toNat < 0x80)) = true := by
    decide +kernel
  refine (BackupCodeSet.expectedFormat_eq_iff rfl fun unit hunit => ?_).mpr (by decide +kernel)
  exact of_decide_eq_true (List.all_eq_true.mp hascii unit hunit)

/-! ## Calls -/

/-- A call made by the use cases. -/
inductive BackupRequest where
  | now
  | createId
  | randomBytes
  | argon2Hash (code : CodeUnits)
  | argon2Verify (hash code : CodeUnits)
  | findActiveByUserId (userId : String)
  | findPendingByUserId (userId : String)
  | save (method : MfaMethod)
  | delete (id : String)
  | record (action actorId : String) (metadata : List (String × String))
  deriving DecidableEq

/-- What a call is answered with, or throws. -/
def BackupRequest.Answer : BackupRequest → Type
  | .now => ℤ
  | .createId => String
  | .randomBytes => Bytes
  | .argon2Hash _ => Except ThrownError CodeUnits
  | .argon2Verify _ _ => Except ThrownError Bool
  | .findActiveByUserId _ | .findPendingByUserId _ => Except ThrownError (List MfaMethod)
  | .save _ | .delete _ | .record _ _ _ => Except ThrownError Unit

/-- A program over these calls that may throw. -/
abbrev BackupMethod (α : Type) := ThrowingProgram BackupRequest BackupRequest.Answer ThrownError α

namespace BackupCalls

def argon2Hash (code : CodeUnits) : BackupMethod CodeUnits :=
  Program.perform (BackupRequest.argon2Hash code)

def argon2Verify (hash code : CodeUnits) : BackupMethod Bool :=
  Program.perform (BackupRequest.argon2Verify hash code)

def findActiveByUserId (userId : String) : BackupMethod (List MfaMethod) :=
  Program.perform (BackupRequest.findActiveByUserId userId)

def findPendingByUserId (userId : String) : BackupMethod (List MfaMethod) :=
  Program.perform (BackupRequest.findPendingByUserId userId)

def save (method : MfaMethod) : BackupMethod Unit := Program.perform (BackupRequest.save method)

def delete (id : String) : BackupMethod Unit := Program.perform (BackupRequest.delete id)

/-- `auditLogger.record`. -/
def record (action actorId : String) (metadata : List (String × String)) : BackupMethod Unit :=
  Program.perform (BackupRequest.record action actorId metadata)

end BackupCalls

/-! ## Stored sets -/

/-- `JSON.stringify(hashes)`. -/
def hashesText (hashes : List CodeUnits) : String := String.ofList (Json.arrayText hashes)

/-- The stored hashes, if the secret is the text of an array of strings. -/
def parseStoredHashes (secret : String) : Option (List CodeUnits) :=
  (Json.parse secret.toList).bind Json.Value.texts?

/-- What is stored is read back. -/
theorem parseStoredHashes_hashesText (hashes : List CodeUnits) :
    parseStoredHashes (hashesText hashes) = some hashes := by
  rw [parseStoredHashes, hashesText, String.toList_ofList, Json.parse_arrayText]
  exact Json.texts?_array_string hashes

/-- The hashes of a method, unless its secret is missing or no such text. -/
def MfaMethod.storedHashes (method : MfaMethod) : Option (List CodeUnits) :=
  (presentSecret method).bind parseStoredHashes

theorem storedHashes_of_secret {method : MfaMethod} {hashes : List CodeUnits}
    (h : method.secret = some (hashesText hashes)) : method.storedHashes = some hashes := by
  have hne : hashesText hashes ≠ "" := by
    intro hempty
    have hlist := congrArg String.toList hempty
    rw [hashesText, String.toList_ofList, Json.arrayText] at hlist
    cases hlist
  rw [MfaMethod.storedHashes, presentSecret, h, Option.filter_some_pos (by simpa using hne)]
  exact parseStoredHashes_hashesText hashes

/-- The first backup method. -/
def backupMethod? (methods : List MfaMethod) : Option MfaMethod :=
  methods.find? fun method => decide (method.type = .backup_codes)

/-! ## The use cases -/

structure ConsumeBackupCodeCommand where
  userId : String
  code : CodeUnits
  deriving DecidableEq

inductive ConsumeBackupCodeOutcome where
  | ok (codesRemaining : ℕ)
  | exhausted
  | failed
  deriving DecidableEq

namespace ConsumeBackupCode

variable (upper : UpperCasing)

/-- The first hash that the code verifies. -/
def matchedIndex (code : CodeUnits) : List CodeUnits → BackupMethod (Option ℕ)
  | [] => returning none
  | hash :: hashes =>
    awaiting (BackupCalls.argon2Verify hash (BackupCodeSet.expectedFormat upper code))
      fun isValid =>
        if isValid then returning (some 0)
        else
          awaiting (matchedIndex code hashes) fun index => returning (index.map fun i => i + 1)

/-- Stores the hashes that are left. -/
def consume (userId : String) (method : MfaMethod) (left : List CodeUnits) :
    BackupMethod ConsumeBackupCodeOutcome :=
  .call .now fun now =>
    awaiting (BackupCalls.save (method.updateSecret (hashesText left) now)) fun () =>
      awaiting (BackupCalls.record "backup_code.consumed" userId
        [("remaining", Nat.repr left.length)]) fun () =>
          returning (if left.length = 0 then .exhausted else .ok left.length)

/-- Redeems a code, given the active methods of the user. -/
def redeem (command : ConsumeBackupCodeCommand) (activeMethods : List MfaMethod) :
    BackupMethod ConsumeBackupCodeOutcome :=
  match backupMethod? activeMethods with
  | none => returning .failed
  | some method =>
    -- a missing secret and one that cannot be read fail alike
    match method.storedHashes with
    | none => returning .failed
    | some hashes =>
      awaiting (matchedIndex upper command.code hashes) fun
        | none =>
          awaiting (BackupCalls.record "backup_code.failed" command.userId []) fun () =>
            returning .failed
        | some index => consume command.userId method (hashes.eraseIdx index)

/-- Redeems a code of the user. -/
def execute (command : ConsumeBackupCodeCommand) : BackupMethod ConsumeBackupCodeOutcome :=
  awaiting (BackupCalls.findActiveByUserId command.userId) (redeem upper command)

end ConsumeBackupCode

namespace GenerateBackupCodes

/-- Codes with their hashes. -/
def generate : ℕ → BackupMethod (List (CodeUnits × CodeUnits))
  | 0 => returning []
  | count + 1 =>
    .call .randomBytes fun randomBuffer =>
      let code := BackupCodeSet.generateSingleCode randomBuffer
      awaiting (BackupCalls.argon2Hash code) fun hash =>
        awaiting (generate count) fun others => returning ((code, hash) :: others)

/-- Deletes methods, one after the other. -/
def deleteAll : List MfaMethod → BackupMethod Unit
  | [] => returning ()
  | method :: methods => awaiting (BackupCalls.delete method.id) fun () => deleteAll methods

/-- Stores a set as a new method. -/
def store (userId : String) (generated : List (CodeUnits × CodeUnits)) :
    BackupMethod (List (CodeUnits × CodeUnits)) :=
  .call .now fun createdAt => .call .createId fun id => .call .now fun activatedAt =>
    let secret := hashesText (generated.map Prod.snd)
    match (MfaMethod.create id userId .backup_codes (some secret) createdAt).activate
      activatedAt with
    | .error thrown => .ret (.error thrown)
    | .ok newMethod =>
      awaiting (BackupCalls.save newMethod) fun () =>
        awaiting (BackupCalls.record "backup_codes.generated" userId
          [("count", Nat.repr generated.length)]) fun () => returning generated

/-- Replaces the codes of the user. -/
def execute (userId : String) : BackupMethod (List (CodeUnits × CodeUnits)) :=
  awaiting (generate BackupCodeSet.CODE_COUNT) fun generated =>
    awaiting (BackupCalls.findActiveByUserId userId) fun active =>
      awaiting (BackupCalls.findPendingByUserId userId) fun pending =>
        let existing := (active ++ pending).filter fun method =>
          decide (method.type = .backup_codes)
        awaiting (deleteAll existing) fun () => store userId generated

end GenerateBackupCodes

/-! ## The store -/

/-- An execution of one of the use cases. -/
inductive BackupOperation where
  | consume (command : ConsumeBackupCodeCommand)
  | generate (userId : String)
  deriving DecidableEq

/-- What the execution returns. -/
def BackupOperation.Returns : BackupOperation → Type
  | .consume _ => Except ThrownError ConsumeBackupCodeOutcome
  | .generate _ => Except ThrownError (List (CodeUnits × CodeUnits))

/-- What the execution runs. -/
def BackupOperation.execute (upper : UpperCasing) :
    (operation : BackupOperation) →
      Program BackupRequest BackupRequest.Answer operation.Returns
  | .consume command => ConsumeBackupCode.execute upper command
  | .generate userId => GenerateBackupCodes.execute userId

/-- What a thread has done.  With a save goes the hash that the thread had matched before. -/
inductive BackupDeed where
  | found (methods : List MfaMethod)
  | matched (hash code : CodeUnits)
  | saved (matched : Option CodeUnits) (method : MfaMethod)
  deriving DecidableEq

/-- The backup method that was found, if the deed is that. -/
def BackupDeed.found? : BackupDeed → Option MfaMethod
  | .found methods => backupMethod? methods
  | _ => none

/-- The hash that was matched, if the deed is that. -/
def BackupDeed.matched? : BackupDeed → Option CodeUnits
  | .matched hash _ => some hash
  | _ => none

/-- The stored methods, and what the threads have done. -/
structure BackupStore where
  methodsById : KeyedMap MfaMethod.id
  journal : List (ℕ × BackupDeed)

/-- What comes from outside: the time, a drawn id, random bytes, what Argon2 answers, a call that
is carried out, or one that throws. -/
inductive BackupInput where
  | time (now : ℤ)
  | drawn (id : String)
  | bytes (random : Bytes)
  | hashed (answer : Except ThrownError CodeUnits)
  | verified (answer : Except ThrownError Bool)
  | served
  | failed (thrown : ThrownError)

namespace BackupStore

/-- Enters a deed of a thread. -/
def note (s : BackupStore) (i : ℕ) (deed : BackupDeed) : BackupStore :=
  { s with journal := (i, deed) :: s.journal }

/-- The deeds of a thread, the latest first. -/
def deedsOf (s : BackupStore) (i : ℕ) : List BackupDeed :=
  (s.journal.filter fun p => p.1 = i).map Prod.snd

/-- The backup method that the thread has found. -/
def foundBy (s : BackupStore) (i : ℕ) : Option MfaMethod :=
  (s.deedsOf i).findSome? BackupDeed.found?

/-- The hash that the thread has matched. -/
def matchedBy (s : BackupStore) (i : ℕ) : Option CodeUnits :=
  (s.deedsOf i).findSome? BackupDeed.matched?

/-- The stored methods of a user in a status. -/
def methodsOf (s : BackupStore) (userId : String) (status : MfaMethodStatus) : List MfaMethod :=
  s.methodsById.values.filter fun method =>
    decide (method.userId = userId) && decide (method.status = status)

/-- The store after a thread's save. -/
def saved (s : BackupStore) (i : ℕ) (method : MfaMethod) : BackupStore :=
  { s with methodsById := s.methodsById.put method }.note i (.saved (s.matchedBy i) method)

/-- The store without a method. -/
def deleted (s : BackupStore) (id : String) : BackupStore :=
  { s with methodsById := s.methodsById.erase id }

/-- How a call is answered; one that throws has changed nothing. -/
def serve : Server BackupStore BackupInput BackupRequest BackupRequest.Answer
  | _, s, .now, .time now => some (now, s)
  | _, s, .createId, .drawn id => some (id, s)
  | _, s, .randomBytes, .bytes random =>
    if random.length = BackupCodeSet.CODE_LENGTH then some (random, s) else none
  | _, s, .argon2Hash _, .hashed answer => some (answer, s)
  | i, s, .argon2Verify hash code, .verified answer =>
    match answer with
    | .ok true => some (.ok true, s.note i (.matched hash code))
    | other => some (other, s)
  | i, s, .findActiveByUserId userId, .served =>
    let methods := s.methodsOf userId .active
    some (.ok methods, s.note i (.found methods))
  | _, s, .findActiveByUserId _, .failed thrown => some (.error thrown, s)
  | _, s, .findPendingByUserId userId, .served => some (.ok (s.methodsOf userId .pending), s)
  | _, s, .findPendingByUserId _, .failed thrown => some (.error thrown, s)
  | i, s, .save method, .served => some (.ok (), s.saved i method)
  | _, s, .save _, .failed thrown => some (.error thrown, s)
  | _, s, .delete id, .served => some (.ok (), s.deleted id)
  | _, s, .delete _, .failed thrown => some (.error thrown, s)
  | _, s, .record _ _ _, .served => some (.ok (), s)
  | _, s, .record _ _ _, .failed thrown => some (.error thrown, s)
  | _, _, _, _ => none

end BackupStore

/-- What a call of thread `i` can make of the store. -/
inductive BackupEffect (i : ℕ) (s : BackupStore) : BackupRequest → BackupStore → Prop
  | nothing (q : BackupRequest) : BackupEffect i s q s
  | found {userId : String} : BackupEffect i s (.findActiveByUserId userId)
      (s.note i (.found (s.methodsOf userId .active)))
  | matched {hash code : CodeUnits} :
      BackupEffect i s (.argon2Verify hash code) (s.note i (.matched hash code))
  | saved {method : MfaMethod} : BackupEffect i s (.save method) (s.saved i method)
  | deleted {id : String} : BackupEffect i s (.delete id) (s.deleted id)

section

variable {i : ℕ} {s t : BackupStore} {ω : BackupInput}

/-- The methods of a user are found as they are stored; a call that throws finds nothing. -/
theorem serve_findActive {userId : String} {r : Except ThrownError (List MfaMethod)}
    (h : BackupStore.serve i s (.findActiveByUserId userId) ω = some (r, t)) :
    (r = .ok (s.methodsOf userId .active) ∧
        t = s.note i (.found (s.methodsOf userId .active))) ∨
      (∃ thrown, r = .error thrown) ∧ t = s := by
  cases ω with
  | served =>
    cases h
    exact .inl ⟨rfl, rfl⟩
  | failed thrown =>
    cases h
    exact .inr ⟨⟨thrown, rfl⟩, rfl⟩
  | _ => cases h

/-- A code that is verified is remembered. -/
theorem serve_argon2Verify {hash code : CodeUnits} {r : Except ThrownError Bool}
    (h : BackupStore.serve i s (.argon2Verify hash code) ω = some (r, t)) :
    (r = .ok true ∧ t = s.note i (.matched hash code)) ∨ r ≠ .ok true ∧ t = s := by
  cases ω with
  | verified answer =>
    rcases answer with thrown | (_ | _)
    · cases h
      exact .inr ⟨by rintro ⟨⟩, rfl⟩
    · cases h
      exact .inr ⟨by rintro ⟨⟩, rfl⟩
    · cases h
      exact .inl ⟨rfl, rfl⟩
  | _ => cases h

/-- A save is carried out, or throws. -/
theorem serve_save {method : MfaMethod} {r : Except ThrownError Unit}
    (h : BackupStore.serve i s (.save method) ω = some (r, t)) :
    (r = .ok () ∧ t = s.saved i method) ∨ (∃ thrown, r = .error thrown) ∧ t = s := by
  cases ω with
  | served =>
    cases h
    exact .inl ⟨rfl, rfl⟩
  | failed thrown =>
    cases h
    exact .inr ⟨⟨thrown, rfl⟩, rfl⟩
  | _ => cases h

/-- A call that is answered has one of the effects. -/
theorem BackupStore.effect_of_serve {q : BackupRequest} {r : q.Answer}
    (h : BackupStore.serve i s q ω = some (r, t)) : BackupEffect i s q t := by
  cases q with
  | randomBytes =>
    cases ω with
    | bytes random =>
      simp only [BackupStore.serve] at h
      split_ifs at h
      cases h
      exact .nothing _
    | _ => cases h
  | argon2Verify hash code =>
    rcases serve_argon2Verify h with ⟨-, rfl⟩ | ⟨-, rfl⟩
    · exact .matched
    · exact .nothing _
  | findActiveByUserId userId =>
    rcases serve_findActive h with ⟨-, rfl⟩ | ⟨-, rfl⟩
    · exact .found
    · exact .nothing _
  | save method =>
    rcases serve_save h with ⟨-, rfl⟩ | ⟨-, rfl⟩
    · exact .saved
    · exact .nothing _
  | delete id =>
    cases ω with
    | served =>
      cases h
      exact .deleted
    | failed thrown =>
      cases h
      exact .nothing _
    | _ => cases h
  | _ =>
    have hsame : t = s := by
      cases ω <;> cases h <;> rfl
    rw [hsame]
    exact .nothing _

/-- Every call adds at most one deed of its thread to the journal. -/
theorem journal_of_backupEffect {q : BackupRequest} (h : BackupEffect i s q t) :
    ∃ deeds : List BackupDeed, t.journal = deeds.map (Prod.mk i) ++ s.journal := by
  cases h with
  | nothing => exact ⟨[], rfl⟩
  | found => exact ⟨[_], rfl⟩
  | matched => exact ⟨[_], rfl⟩
  | saved => exact ⟨[_], rfl⟩
  | deleted => exact ⟨[], rfl⟩

end

/-- Any number of executions over a store. -/
abbrev BackupPool := Pool BackupStore BackupRequest BackupRequest.Answer BackupOperation.Returns

/-- A step of the pool. -/
def BackupPool.step (upper : UpperCasing) :
    BackupPool → PoolEvent BackupOperation BackupInput → Option BackupPool :=
  Pool.step BackupStore.serve (BackupOperation.execute upper)

end Verixa.Mfa
