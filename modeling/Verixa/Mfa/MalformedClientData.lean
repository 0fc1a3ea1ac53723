import Verixa.Mfa.WebAuthnVerifiers

/-!
# Malformed client data

When the WebAuthn verifiers return a result.  Everything that is read from the attestation object,
the authenticator data, the signature and the public key is guarded or caught, so these decide
nothing.  The client data does: what it parses to must not be `null`, and the first of its checked
members that is not as expected must be a value that has a text.
-/

namespace Verixa.Mfa

open Encoding Returning

/-- The client data parses to a value. -/
def ParsesTo (host : WebAuthnHost) (clientDataJSON : BytesInput) (clientData : PlainValue) : Prop :=
  ∃ bytes text, host.clientDataOf clientDataJSON = .ok (bytes, text) ∧
    host.parseJson text = .ok clientData

/-- The members of the client data that are checked, each with what is expected of it. -/
def checkedMembers (expectedType expectedChallenge expectedOrigin : String) :
    List (String × String) :=
  [("type", expectedType), ("challenge", expectedChallenge), ("origin", expectedOrigin)]

/-- What stands under the first key that does not hold what is expected there. -/
def firstUnexpected (fields : List (String × PlainValue)) :
    List (String × String) → Option PlainValue
  | [] => none
  | (key, expected) :: members =>
    if isText expected (PlainValue.property fields key) then firstUnexpected fields members
    else PlainValue.property fields key

/-- The members of a value can be read, and the first that is not as expected has a text. -/
def Reportable (stack : ℕ) (members : List (String × String)) : PlainValue → Prop
  | .null => False
  | .object fields => ∀ value, firstUnexpected fields members = some value → value.HasText stack
  | _ => True

variable {host : WebAuthnHost}

/-! ## The client data -/

/-- A member of an object is checked without throwing if it is as expected, undefined or has a
text. -/
theorem returns_checkMember_iff {fields : List (String × PlainValue)}
    {key expected message : String} :
    Returns (checkMember host (.object fields) key expected message) ↔
      isText expected (PlainValue.property fields key) = true ∨
        ∀ value, PlainValue.property fields key = some value → value.HasText host.stack := by
  have hmember : PlainValue.member (.object fields) key =
      .ok (PlainValue.property fields key) := rfl
  rw [checkMember, hmember, returns_bind_iff]
  simp only [yields_raised_iff, Except.ok.injEq, forall_eq']
  have hread : Returns (raised (.ok (PlainValue.property fields key)) :
      Returning ValidationError _) := returns_raised_iff.mpr ⟨_, rfl⟩
  rw [and_iff_right hread]
  by_cases hexpected : isText expected (PlainValue.property fields key) = true
  · simp only [hexpected, if_true, true_or, iff_true]
    exact returns_pure _
  · rw [if_neg hexpected, or_iff_right hexpected, returns_bind_iff, returns_raised_iff,
      and_iff_left fun text _ => returns_refuse _]
    cases hvalue : PlainValue.property fields key with
    | none => simp [WebAuthnHost.memberText]
    | some value =>
      simp only [WebAuthnHost.memberText, PlainValue.exists_text_ok_iff, Option.some.injEq,
        forall_eq']

/-- The check goes on only if the member is as expected. -/
theorem yields_checkMember_iff {fields : List (String × PlainValue)}
    {key expected message : String} {a : PUnit} :
    Yields (checkMember host (.object fields) key expected message) a ↔
      isText expected (PlainValue.property fields key) = true := by
  have hmember : PlainValue.member (.object fields) key =
      .ok (PlainValue.property fields key) := rfl
  rw [checkMember, hmember]
  have hraised : (raised (.ok (PlainValue.property fields key)) : Returning ValidationError _) =
      pure (PlainValue.property fields key) := rfl
  rw [hraised, pure_bind]
  by_cases hexpected : isText expected (PlainValue.property fields key) = true
  · simp [hexpected, yields_pure_iff]
  · rw [if_neg hexpected]
    simp only [hexpected, Bool.false_eq_true, iff_false]
    cases host.memberText (PlainValue.property fields key) <;>
      simp [Yields, raised, refuse, Except.map, ExceptT.run, bind, ExceptT.bind, ExceptT.mk,
        ExceptT.bindCont, Except.bind]

/-- A value that is no object has no member that could be as expected. -/
theorem not_yields_checkMember {clientData : PlainValue} (h : ∀ fields, clientData ≠ .object fields)
    {key expected message : String} {a : PUnit} :
    ¬ Yields (checkMember host clientData key expected message) a := by
  cases clientData with
  | object fields => exact absurd rfl (h fields)
  | _ =>
    simp [checkMember, PlainValue.member, isText, WebAuthnHost.memberText, Yields, raised, refuse,
      Except.map, ExceptT.run, bind, ExceptT.bind, ExceptT.mk, ExceptT.bindCont, Except.bind]

/-- The three checks of a value that was parsed. -/
theorem returns_checkMembers_iff {clientData : PlainValue} {bytes : Bytes}
    {expectedType expectedChallenge expectedOrigin : String} :
    Returns (do
      checkMember host clientData "type" expectedType "Invalid clientDataJSON type"
      checkMember host clientData "challenge" expectedChallenge "Challenge mismatch"
      checkMember host clientData "origin" expectedOrigin "Origin mismatch"
      return bytes) ↔
    Reportable host.stack (checkedMembers expectedType expectedChallenge expectedOrigin)
      clientData := by
  cases clientData with
  | null =>
    rw [returns_bind_iff]
    refine iff_of_false (fun h => ?_) not_false
    obtain ⟨result, hresult⟩ := h.1
    cases hresult
  | object fields =>
    simp only [returns_bind_iff, returns_checkMember_iff, yields_checkMember_iff, Reportable,
      checkedMembers, firstUnexpected, returns_pure, and_true, forall_const, implies_true]
    by_cases htype : isText expectedType (PlainValue.property fields "type") = true
    · by_cases hchallenge :
          isText expectedChallenge (PlainValue.property fields "challenge") = true
      · by_cases horigin : isText expectedOrigin (PlainValue.property fields "origin") = true
        · simp [htype, hchallenge, horigin]
        · simp [htype, hchallenge, horigin]
      · simp [htype, hchallenge]
    · simp [htype]
  | _ =>
    rw [returns_bind_iff]
    refine iff_of_true ⟨⟨_, rfl⟩, fun a ha => ?_⟩ trivial
    exact absurd ha (not_yields_checkMember fun fields h => by cases h)

/-- When the check of the client data returns. -/
theorem returns_checkClientData_iff {clientDataJSON : BytesInput}
    {expectedType expectedChallenge expectedOrigin : String} :
    Returns (checkClientData host expectedType clientDataJSON expectedChallenge expectedOrigin) ↔
      ∀ clientData, ParsesTo host clientDataJSON clientData →
        Reportable host.stack (checkedMembers expectedType expectedChallenge expectedOrigin)
          clientData := by
  rw [checkClientData, returns_bind_iff, and_iff_right (returns_caught _ _)]
  simp only [yields_caught_iff]
  constructor
  · rintro h clientData ⟨bytes, text, htext, hparse⟩
    have hrest := h (bytes, text) htext
    rw [returns_bind_iff] at hrest
    exact returns_checkMembers_iff.mp (hrest.2 clientData (yields_caught_iff.mpr hparse))
  · rintro h ⟨bytes, text⟩ htext
    refine returns_bind (returns_caught _ _) fun clientData hparse => ?_
    exact returns_checkMembers_iff.mpr
      (h clientData ⟨bytes, text, htext, yields_caught_iff.mp hparse⟩)

/-! ## The guarded steps -/

/-- A view into the bytes that are there. -/
theorem returns_dataView {bytes : Bytes} {offset length : ℕ} (h : offset + length ≤ bytes.length) :
    Returns (raised (dataView bytes offset length) : Returning ValidationError Bytes) :=
  returns_raised_iff.mpr ⟨_, if_pos h⟩

/-- Reading the attestation object. -/
theorem returns_decodeAttestationObject (attestationObject : BytesInput) :
    Returns (WebAuthnAttestationVerifier.decodeAttestationObject host attestationObject) := by
  refine returns_bind (returns_caught _ _) fun attestationBytes _ => ?_
  refine returns_bind (returns_caught _ _) fun decoded _ => ?_
  cases decoded with
  | map entries => exact returns_pure entries
  | _ => exact returns_refuse _

/-- The hash of the relying party is compared with one of the same length. -/
theorem returns_checkAuthData {expectedRpId : String} {authData : Bytes}
    (h : 37 ≤ authData.length) :
    Returns (WebAuthnAttestationVerifier.checkAuthData host expectedRpId authData) := by
  have hlength : (subarray authData 0 32).length =
      (host.sha256 (utf8 expectedRpId)).val.length := by
    rw [length_subarray, (host.sha256 (utf8 expectedRpId)).property]
    omega
  refine returns_bind (returns_raised_iff.mpr ⟨_, if_pos hlength⟩) fun same _ => ?_
  refine returns_bind (returns_refuseIf _ _) fun _ _ => ?_
  cases authData[32]? with
  | none => exact returns_refuse _
  | some flags =>
    exact returns_bind (returns_refuseIf _ _) fun _ _ => returns_refuseIf _ _

/-- The offsets of the attested credential data lie inside the data. -/
theorem returns_readAttestedCredential {authData : Bytes} (h : 37 ≤ authData.length) :
    Returns (WebAuthnAttestationVerifier.readAttestedCredential host authData) := by
  refine returns_bind (returns_dataView h) fun signCountView _ => ?_
  refine returns_bind (returns_refuseIf _ _) fun _ hheader => ?_
  have hlength : 55 ≤ authData.length := by
    simpa using yields_refuseIf_iff.mp hheader
  refine returns_bind (returns_dataView hlength) fun credIdLenView _ => ?_
  refine returns_bind (returns_refuseIf _ _) fun _ _ => ?_
  exact returns_bind (returns_refuseIf _ _) fun _ _ => returns_pure _

/-- Checking the signature. -/
theorem returns_checkSignature (options : VerifyAssertionOptions)
    (authDataBytes clientDataBytes : Bytes) :
    Returns (WebAuthnAssertionVerifier.checkSignature host options authDataBytes
      clientDataBytes) := by
  refine returns_bind (returns_caught _ _) fun signatureBytes _ => ?_
  refine returns_bind (returns_caught _ _) fun publicKeyObject _ => ?_
  exact returns_bind (returns_caught _ _) fun isSignatureValid _ => returns_refuseIf _ _

/-! ## The verifiers -/

/-- The attestation verifier returns when the check of the client data does. -/
theorem returns_verifyAttestation_iff {options : VerifyAttestationOptions} :
    Returns (WebAuthnAttestationVerifier.verify host options) ↔
      Returns (checkClientData host "webauthn.create" options.clientDataJSON
        options.expectedChallenge options.expectedOrigin) := by
  rw [WebAuthnAttestationVerifier.verify, returns_bind_iff]
  refine and_iff_left fun clientDataBytes _ => ?_
  refine returns_bind (returns_decodeAttestationObject _) fun attestationMap _ => ?_
  split
  · rename_i fmt authData _ _
    refine returns_bind (returns_refuseIf _ _) fun _ hlength => ?_
    have hlength : 37 ≤ authData.length := by simpa using yields_refuseIf_iff.mp hlength
    refine returns_bind (returns_checkAuthData hlength) fun _ _ => ?_
    refine returns_bind (returns_readAttestedCredential hlength) fun attested _ => ?_
    exact returns_bind (returns_refuseIf _ _) fun _ _ => returns_pure _
  · exact returns_refuse _
  · exact returns_refuse _

/-- The assertion verifier returns when the check of the client data does. -/
theorem returns_verifyAssertion_iff {options : VerifyAssertionOptions} :
    Returns (WebAuthnAssertionVerifier.verify host options) ↔
      Returns (checkClientData host "webauthn.get" options.clientDataJSON
        options.expectedChallenge options.expectedOrigin) := by
  rw [WebAuthnAssertionVerifier.verify, returns_bind_iff]
  refine and_iff_left fun clientDataBytes _ => ?_
  refine returns_bind (returns_caught _ _) fun authDataBytes _ => ?_
  refine returns_bind (returns_refuseIf _ _) fun _ hlength => ?_
  have hlength : 37 ≤ authDataBytes.length := by simpa using yields_refuseIf_iff.mp hlength
  refine returns_bind (returns_refuseIf _ _) fun _ _ => ?_
  refine returns_bind (returns_refuseIf _ _) fun _ _ => ?_
  refine returns_bind (returns_dataView hlength) fun signCountView _ => ?_
  exact returns_bind (returns_checkSignature _ _ _) fun _ _ => returns_pure _

/-- The verifiers return a result exactly if what the client data parses to, if anything, is not
`null` and the first of its checked members that is not as expected has a text. -/
theorem verifiers_return_iff (host : WebAuthnHost) (registration : VerifyAttestationOptions)
    (authentication : VerifyAssertionOptions) :
    (Returns (WebAuthnAttestationVerifier.verify host registration) ↔
      ∀ clientData, ParsesTo host registration.clientDataJSON clientData →
        Reportable host.stack (checkedMembers "webauthn.create" registration.expectedChallenge
          registration.expectedOrigin) clientData) ∧
    (Returns (WebAuthnAssertionVerifier.verify host authentication) ↔
      ∀ clientData, ParsesTo host authentication.clientDataJSON clientData →
        Reportable host.stack (checkedMembers "webauthn.get" authentication.expectedChallenge
          authentication.expectedOrigin) clientData) := by
  constructor
  · rw [returns_verifyAttestation_iff]
    exact returns_checkClientData_iff
  · rw [returns_verifyAssertion_iff]
    exact returns_checkClientData_iff

/-- A platform that parses `null`, with idle functions for what is not reached after that. -/
def sampleHost : WebAuthnHost where
  stack := 1000
  parseJson text := if text = "null" then .ok .null else .error ⟨"SyntaxError", "Unexpected token"⟩
  numberText _ := "0"
  decodeText bytes := String.ofList (bytes.map fun byte => Char.ofNat byte.toNat)
  decodeBase64 _ := []
  encodeBase64url _ := ""
  sha256 _ := ⟨List.replicate 32 0, rfl⟩
  KeyObject := Unit
  createPublicKeyFromPem _ := .ok ()
  createPublicKeyFromJwk _ _ := .ok ()
  createPublicKeyFromDer _ := .ok ()
  verifySignature _ _ _ := .ok true

/-- A registration whose client data are the four bytes of `null`. -/
def nullRegistration : VerifyAttestationOptions where
  clientDataJSON := .bytes [110, 117, 108, 108]
  attestationObject := .bytes []
  expectedChallenge := "challenge"
  expectedOrigin := "https://example.com"
  expectedRpId := "example.com"

/-- An authentication with the same client data. -/
def nullAuthentication : VerifyAssertionOptions where
  credentialId := "credential"
  clientDataJSON := .bytes [110, 117, 108, 108]
  authenticatorData := .bytes []
  signature := .bytes []
  credentialPublicKey := ""
  expectedChallenge := "challenge"
  expectedOrigin := "https://example.com"
  expectedRpId := "example.com"

/-- Neither verifier returns a result for client data that parse to `null`. -/
theorem null_client_data_throws :
    ¬ (∀ host registration authentication,
      Returns (WebAuthnAttestationVerifier.verify host registration) ∧
        Returns (WebAuthnAssertionVerifier.verify host authentication)) ∧
    WebAuthnAttestationVerifier.verify sampleHost nullRegistration =
      (Except.error ⟨"TypeError", "Cannot read properties of null (reading 'type')"⟩ :
        Except ThrownError _) ∧
    WebAuthnAssertionVerifier.verify sampleHost nullAuthentication =
      (Except.error ⟨"TypeError", "Cannot read properties of null (reading 'type')"⟩ :
        Except ThrownError _) := by
  have hattestation : WebAuthnAttestationVerifier.verify sampleHost nullRegistration =
      (Except.error ⟨"TypeError", "Cannot read properties of null (reading 'type')"⟩ :
        Except ThrownError _) := by rfl
  refine ⟨fun h => ?_, hattestation, by rfl⟩
  obtain ⟨result, hresult⟩ := (h sampleHost nullRegistration nullAuthentication).1
  rw [hattestation] at hresult
  cases hresult

end Verixa.Mfa
