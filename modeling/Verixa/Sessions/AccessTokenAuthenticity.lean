import Verixa.Sessions.JwtTokenSigner

/-!
# Authenticity of access tokens

A string is accepted exactly when it is a token that was signed under the current secret and has not
expired, and then with the payload that was signed (`access_tokens_authentic`).  This rests on the
secret: whoever presents a string knows the HMAC value of a segment only if the segment was signed.
-/

namespace Verixa

open Encoding

namespace JwtTokenSigner

/-- One call of `sign`. -/
structure SignCall where
  provider : SigningKeyProvider
  payload : AccessTokenPayload
  ttlSeconds : ℤ
  time : ℤ

/-- What is signed in a call. -/
def SignCall.segment (call : SignCall) : CodeUnits :=
  HEADER ++ dot :: body (claimsAt call.payload call.ttlSeconds call.time)

/-- What the call returns. -/
def SignCall.token (hmac : Hmac) (call : SignCall) : CodeUnits :=
  sign hmac call.provider call.payload call.ttlSeconds call.time

/-- The second at which the token expires. -/
def SignCall.exp (call : SignCall) : ℤ := (claimsAt call.payload call.ttlSeconds call.time).exp

/-- The calls under a secret. -/
def SignCall.IsUnder (call : SignCall) (secret : String) : Prop :=
  call.provider.currentSecret = secret

/-- A string carries the HMAC value of a segment only if the segment was signed in one of the
calls under the secret. -/
def CarriesOnlySigned (hmac : Hmac) (calls : Set SignCall) (secret : String) (token : CodeUnits) :
    Prop :=
  ∀ segment, token = segment ++ dot :: computeSignature hmac segment secret →
    ∃ call ∈ calls, call.IsUnder secret ∧ call.segment = segment

/-- A token is its segment with the signature. -/
theorem SignCall.token_eq (hmac : Hmac) (call : SignCall) :
    call.token hmac =
      call.segment ++ dot :: computeSignature hmac call.segment call.provider.currentSecret :=
  rfl

/-- A string is accepted with a payload if and only if a call of `sign` with that payload returned
it and the token has not expired; and what `sign` returns is accepted until then. -/
theorem access_tokens_authentic (hmac : Hmac) (provider : SigningKeyProvider)
    (calls : Set SignCall) :
    (∀ token, CarriesOnlySigned hmac calls provider.currentSecret token →
      ∀ (now : ℤ) (payload : AccessTokenPayload),
        verify hmac provider token now = .ok payload ↔
          ∃ call ∈ calls, call.IsUnder provider.currentSecret ∧ call.payload = payload ∧
            call.token hmac = token ∧ now < call.exp * 1000) ∧
    (∀ (payload : AccessTokenPayload) (ttlSeconds time now : ℤ),
      now < (claimsAt payload ttlSeconds time).exp * 1000 →
        verify hmac provider (sign hmac provider payload ttlSeconds time) now = .ok payload) := by
  have haccepted : ∀ call : SignCall, call.IsUnder provider.currentSecret → ∀ now : ℤ,
      verify hmac provider (call.token hmac) now =
        if call.exp * 1000 ≤ now then .error ⟨"Access token has expired.", []⟩
        else .ok call.payload := by
    intro call hunder now
    have htoken : call.token hmac =
        sign hmac provider call.payload call.ttlSeconds call.time := by
      rw [SignCall.token, sign, sign]
      rw [SignCall.IsUnder] at hunder
      rw [hunder]
    rw [htoken, verify_sign]
    rfl
  constructor
  · intro token hcarries now payload
    constructor
    · intro hok
      obtain ⟨segment, htoken⟩ := signed_of_verify_eq_ok hok
      obtain ⟨call, hcall, hunder, hsegment⟩ := hcarries segment htoken
      have hreturned : call.token hmac = token := by
        rw [SignCall.token_eq, hsegment, hunder, htoken]
      have hverify := haccepted call hunder now
      rw [hreturned, hok] at hverify
      split at hverify
      · cases hverify
      · rename_i hbefore
        exact ⟨call, hcall, hunder, (Except.ok.inj hverify).symm, hreturned, not_le.mp hbefore⟩
    · rintro ⟨call, _, hunder, rfl, rfl, hbefore⟩
      rw [haccepted call hunder, if_neg (not_le.mpr hbefore)]
  · intro payload ttlSeconds time now hbefore
    rw [verify_sign, if_neg (not_le.mpr hbefore)]

/-- The digest of the sample's segment under its secret. -/
def sampleDigest : Bytes :=
  [134, 38, 25, 161, 80, 244, 64, 51, 226, 40, 56, 54, 210, 199, 94, 47, 197, 31, 159, 113, 114, 26,
    143, 182, 109, 101, 187, 94, 114, 239, 221, 60]

def sampleProvider : SigningKeyProvider where
  secret := "test-signing-secret-value"
  nonBlank := by decide +kernel

/-- A session's token for an hour. -/
def sampleCall : SignCall where
  provider := sampleProvider
  payload := ⟨unitsOf "session-1", unitsOf "user-1"⟩
  ttlSeconds := 3600
  time := 1767225600000

def sampleToken : CodeUnits :=
  unitsOf ("eyJhbGciOiJIUzI1NiIsInR5cCI6IkpXVCJ9." ++
    "eyJzZXNzaW9uSWQiOiJzZXNzaW9uLTEiLCJ1c2VySWQiOiJ1c2VyLTEiLCJpYXQiOjE3NjcyMjU2MDAsImV4cCI6" ++
    "MTc2NzIyOTIwMH0.hiYZoVD0QDPiKDg20sdeL8Ufn3FyGo-2bWW7XnLv3Tw")

/-- The sample's token is accepted a second before it expires. -/
theorem access_tokens_authentic_sample :
    verify (fun _ _ => sampleDigest) sampleProvider sampleToken 1767229199000 =
      .ok sampleCall.payload := by
  have htoken : sampleCall.token (fun _ _ => sampleDigest) = sampleToken := by decide +kernel
  have hcarries : CarriesOnlySigned (fun _ _ => sampleDigest) {sampleCall}
      sampleProvider.currentSecret sampleToken := by
    intro segment hsegment
    refine ⟨sampleCall, rfl, rfl, ?_⟩
    rw [← htoken, SignCall.token_eq] at hsegment
    exact List.append_cancel_right hsegment
  have hiff := (access_tokens_authentic (fun _ _ => sampleDigest) sampleProvider {sampleCall}).1
    sampleToken hcarries 1767229199000 sampleCall.payload
  exact hiff.mpr ⟨sampleCall, rfl, rfl, rfl, htoken, by decide +kernel⟩

end JwtTokenSigner

end Verixa
