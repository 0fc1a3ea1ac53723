import Verixa.Collections.KeyedMap
import Verixa.Concurrency.Program
import Verixa.SharedKernel.Errors

/-!
# MFA challenges

A login that asks for a second factor leaves a challenge behind, which is exchanged for a session
once the factor was verified.  `ConsumeMfaChallenge` finds the challenge, checks it, saves it as
consumed, and only then has a session issued.  The repository answers with what was last saved;
who issues sessions is outside.

A journal is kept for what is said about runs, and read by nothing else.
-/

namespace Verixa.Mfa

open Concurrency

/-! ## Challenges -/

structure MfaChallenge where
  id : String
  userId : String
  expiresAt : ℤ
  consumedAt : Option ℤ := none
  createdAt : ℤ
  deriving DecidableEq

namespace MfaChallenge

/-- A new challenge, of five minutes unless said otherwise; `id` is what `createId` returns. -/
def create (id userId : String) (expiresAt : Option ℤ) (now : ℤ) : MfaChallenge where
  id := id
  userId := userId
  expiresAt := expiresAt.getD (now + 5 * 60 * 1000)
  createdAt := now

def isExpired (challenge : MfaChallenge) (now : ℤ) : Bool := decide (challenge.expiresAt ≤ now)

def isConsumed (challenge : MfaChallenge) : Bool := challenge.consumedAt.isSome

/-- The challenge can still be consumed. -/
def isValid (challenge : MfaChallenge) (now : ℤ) : Bool :=
  !challenge.isConsumed && !challenge.isExpired now

/-- Marks the challenge consumed; throws if that cannot be. -/
def consume (challenge : MfaChallenge) (now : ℤ) : Except ThrownError MfaChallenge :=
  if challenge.isConsumed then .error { message := "MfaChallenge has already been consumed." }
  else if challenge.isExpired now then .error { message := "MfaChallenge has expired." }
  else .ok { challenge with consumedAt := some now }

/-- A valid challenge can be consumed, and differs in nothing else. -/
theorem consume_of_isValid {challenge : MfaChallenge} {now : ℤ}
    (h : challenge.isValid now = true) :
    challenge.consume now = .ok { challenge with consumedAt := some now } := by
  have hvalid : challenge.isConsumed = false ∧ challenge.isExpired now = false := by
    simpa [isValid] using h
  simp [consume, hvalid]

end MfaChallenge

/-! ## The store and its calls -/

/-- What issues a session learns of the request. -/
structure SessionIssuerCommand where
  userId : String
  ipAddress : String
  userAgent : String
  now : Option ℤ := none
  deriving DecidableEq

/-- Something a call has read or written. -/
inductive ChallengeDeed where
  | readClock (now : ℤ)
  | found (challenge : MfaChallenge)
  | saved (challenge : MfaChallenge)
  deriving DecidableEq

/-- The challenges, and what has been done with them. -/
structure ChallengeStore where
  challengesById : KeyedMap MfaChallenge.id
  journal : List (ℕ × ChallengeDeed)

/-- A call made by the use case. -/
inductive ChallengeRequest where
  | now
  | findById (id : String)
  | save (challenge : MfaChallenge)
  | issueSession (command : SessionIssuerCommand)
  deriving DecidableEq

/-- What a call is answered with; a session, and the reason why there is none, are texts here. -/
def ChallengeRequest.Answer : ChallengeRequest → Type
  | .now => ℤ
  | .findById _ => Option MfaChallenge
  | .save _ => Unit
  | .issueSession _ => Except String String

/-- A program over these calls. -/
abbrev ChallengeProgram := Program ChallengeRequest ChallengeRequest.Answer

/-- What the outside adds to a call. -/
inductive ChallengeInput where
  | served
  | time (t : ℤ)
  | session (issued : Except String String)
  deriving DecidableEq

namespace ChallengeStore

/-- The store with these challenges, in which nothing has happened. -/
def fresh (challengesById : KeyedMap MfaChallenge.id) : ChallengeStore := ⟨challengesById, []⟩

/-- Add a deed to the journal. -/
def note (s : ChallengeStore) (i : ℕ) (deed : ChallengeDeed) : ChallengeStore :=
  { s with journal := (i, deed) :: s.journal }

/-- How a call of thread `i` is answered. -/
def serve : Server ChallengeStore ChallengeInput ChallengeRequest ChallengeRequest.Answer
  | i, s, .now, .time t => some (t, s.note i (.readClock t))
  | i, s, .findById id, .served =>
    match s.challengesById.get? id with
    | none => some (none, s)
    | some challenge => some (some challenge, s.note i (.found challenge))
  | i, s, .save challenge, .served =>
    some ((), { s with challengesById := s.challengesById.put challenge }.note i (.saved challenge))
  | _, s, .issueSession _, .session issued => some (issued, s)
  | _, _, _, _ => none

end ChallengeStore

/-! ## Exchanging a challenge for a session -/

/-- `new Date()`. -/
def readClock : ChallengeProgram ℤ := Program.perform ChallengeRequest.now

/-- `challengeRepository.findById`. -/
def findChallengeById (id : String) : ChallengeProgram (Option MfaChallenge) :=
  Program.perform (ChallengeRequest.findById id)

/-- `challengeRepository.save`. -/
def saveChallenge (challenge : MfaChallenge) : ChallengeProgram Unit :=
  Program.perform (ChallengeRequest.save challenge)

/-- `sessionIssuer.execute`. -/
def issueSession (command : SessionIssuerCommand) : ChallengeProgram (Except String String) :=
  Program.perform (ChallengeRequest.issueSession command)

structure ConsumeMfaChallengeCommand where
  challengeId : String
  issueSessionCommand : SessionIssuerCommand
  now : Option ℤ := none
  deriving DecidableEq

inductive ConsumeMfaChallengeError where
  | CHALLENGE_NOT_FOUND
  | CHALLENGE_EXPIRED
  | CHALLENGE_ALREADY_CONSUMED
  deriving DecidableEq

/-- What is returned: why the challenge is of no use, or what the issuer of sessions answered. -/
inductive ConsumeMfaChallengeResult where
  | rejected (error : ConsumeMfaChallengeError)
  | forwarded (answer : Except String String)
  deriving DecidableEq

namespace ConsumeMfaChallenge

/-- `command.now ?? new Date()`. -/
def readNow : Option ℤ → ChallengeProgram ℤ
  | some now => return now
  | none => readClock

/-- What an execution does that knows the time. -/
def exchange (command : ConsumeMfaChallengeCommand) (now : ℤ) :
    ChallengeProgram (Except ThrownError ConsumeMfaChallengeResult) := do
  match ← findChallengeById command.challengeId with
  | none => return .ok (.rejected .CHALLENGE_NOT_FOUND)
  | some challenge =>
    if challenge.isExpired now then return .ok (.rejected .CHALLENGE_EXPIRED)
    else if challenge.isConsumed then return .ok (.rejected .CHALLENGE_ALREADY_CONSUMED)
    else
      match challenge.consume now with
      | .error error => return .error error
      | .ok consumed => do
        saveChallenge consumed
        let answer ← issueSession command.issueSessionCommand
        return .ok (.forwarded answer)

/-- Exchanges a verified challenge for a session. -/
def execute (command : ConsumeMfaChallengeCommand) :
    ChallengeProgram (Except ThrownError ConsumeMfaChallengeResult) := do
  let now ← readNow command.now
  exchange command now

/-- Any number of executions at work on one store. -/
abbrev ChallengePool := Pool ChallengeStore ChallengeRequest ChallengeRequest.Answer
  fun _ : ConsumeMfaChallengeCommand => Except ThrownError ConsumeMfaChallengeResult

/-- One step of the executions. -/
def step : ChallengePool → PoolEvent ConsumeMfaChallengeCommand ChallengeInput →
    Option ChallengePool :=
  Pool.step ChallengeStore.serve execute

end ConsumeMfaChallenge

end Verixa.Mfa
