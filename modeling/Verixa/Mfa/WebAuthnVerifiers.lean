import Verixa.Mfa.Cbor
import Verixa.SharedKernel.Record
import Verixa.SharedKernel.Returning

/-!
# The WebAuthn verifiers

The verifiers of attestations and of assertions.  Both first check the client data, then read the
authenticator data at fixed offsets.  What they call of the platform is a `WebAuthnHost`; its
functions that can throw are called where the source calls them, inside or outside a `try`.

Whether the verifiers return a result is decided by the client data alone
(`verifiers_return_iff`): every other step is guarded or caught, but the members of the parsed value
are read, and put into a message, outside any `try`.
-/

namespace Verixa.Mfa

open Encoding Returning

/-- What the verifiers call of the platform. -/
structure WebAuthnHost where
  /-- How many nested calls the stack holds. -/
  stack : ℕ
  /-- `JSON.parse`; an error is known by its message. -/
  parseJson : String → Except ThrownError PlainValue
  /-- `String(number)`. -/
  numberText : Number → String
  /-- `new TextDecoder("utf-8").decode(bytes)`, which replaces what is malformed. -/
  decodeText : Bytes → String
  /-- `Buffer.from(text, "base64")`, which leaves out what is malformed. -/
  decodeBase64 : String → Bytes
  /-- `buffer.toString("base64url")`. -/
  encodeBase64url : Bytes → String
  /-- `crypto.createHash("sha256").update(bytes).digest()`. -/
  sha256 : Bytes → { digest : Bytes // digest.length = 32 }
  /-- A `crypto.KeyObject`. -/
  KeyObject : Type
  /-- `crypto.createPublicKey` of a text in PEM. -/
  createPublicKeyFromPem : String → Except ThrownError KeyObject
  /-- `crypto.createPublicKey` of a JWK of type `EC` on the curve `P-256`. -/
  createPublicKeyFromJwk : String → String → Except ThrownError KeyObject
  /-- `crypto.createPublicKey` of a public key in DER. -/
  createPublicKeyFromDer : Bytes → Except ThrownError KeyObject
  /-- `crypto.verify("sha256", data, key, signature)`. -/
  verifySignature : Bytes → KeyObject → Bytes → Except ThrownError Bool

/-- An argument of type `string | Uint8Array`, or of another type in spite of it. -/
inductive BytesInput where
  | text (value : String)
  | bytes (value : Bytes)
  | other
  deriving DecidableEq

/-- The error result of a verifier. -/
def invalid (message : String) : ValidationError := ⟨message, []⟩

/-- `crypto.timingSafeEqual(a, b)`. -/
def timingSafeEqual (a b : Bytes) : Except ThrownError Bool :=
  if a.length = b.length then .ok (a == b)
  else .error ⟨"RangeError", "Input buffers must have the same byte length"⟩

/-- The bytes of `new DataView(bytes.buffer, bytes.byteOffset + offset, length)`. -/
def dataView (bytes : Bytes) (offset length : ℕ) : Except ThrownError Bytes :=
  if offset + length ≤ bytes.length then .ok (subarray bytes offset (offset + length))
  else .error ⟨"RangeError", s!"Invalid DataView length {length}"⟩

/-- `formatAaguid(bytes)`. -/
def formatAaguid (bytes : Bytes) : String :=
  let hex := bufferToHex bytes
  slice hex 0 8 ++ "-" ++ slice hex 8 12 ++ "-" ++ slice hex 12 16 ++ "-" ++ slice hex 16 20 ++
    "-" ++ slice hex 20 hex.length

namespace WebAuthnHost

variable (host : WebAuthnHost)

/-- `toUint8Array(input)`. -/
def toUint8Array : BytesInput → Except ThrownError Bytes
  | .bytes bytes => .ok bytes
  | .text input =>
    let trimmed := trim input
    if startsWith trimmed "\x7b" || startsWith trimmed "[" then .ok (utf8 input)
    else
      let base64 := String.ofList <| trimmed.toList.map fun c =>
        if c = '-' then '+' else if c = '_' then '/' else c
      let padLen := (4 - utf16Length base64 % 4) % 4
      .ok (host.decodeBase64 (base64 ++ String.ofList (List.replicate padLen '=')))
  | .other => .error (Cbor.thrown "Invalid input format: expected string or Uint8Array")

/-- The bytes of the client data, and their text. -/
def clientDataOf (clientDataJSON : BytesInput) : Except ThrownError (Bytes × String) :=
  let decoded := (host.toUint8Array clientDataJSON).map fun bytes => (bytes, host.decodeText bytes)
  match clientDataJSON with
  | .text input => if startsWith (trim input) "\x7b" then .ok (utf8 input, input) else decoded
  | _ => decoded

/-- `${value}` of a member that may be undefined. -/
def memberText : Option PlainValue → Except ThrownError String
  | none => .ok "undefined"
  | some value => value.text host.numberText host.stack

end WebAuthnHost

/-- `value === expected`, for an expected text. -/
def isText (expected : String) : Option PlainValue → Bool
  | some (.string value) => decide (value = expected)
  | _ => false

section ClientData

variable (host : WebAuthnHost)

/-- The check of a member of the client data.  Neither reading the member nor putting it into the
message is inside a `try`. -/
def checkMember (clientData : PlainValue) (key expected message : String) :
    Returning ValidationError PUnit := do
  let value ← raised (clientData.member key)
  if isText expected value then pure ⟨⟩
  else do
    let got ← raised (host.memberText value)
    refuse (invalid (message ++ ": expected \"" ++ expected ++ "\", got \"" ++ got ++ "\""))

/-- The steps 1 to 4 of both verifiers: the client data is parsed, and has the expected type,
challenge and origin.  Returns the bytes of the client data. -/
def checkClientData (expectedType : String) (clientDataJSON : BytesInput)
    (expectedChallenge expectedOrigin : String) : Returning ValidationError Bytes := do
  let (clientDataBytes, clientDataString) ← caught (host.clientDataOf clientDataJSON) fun err =>
    invalid ("Malformed clientDataJSON buffer: " ++ err.message)
  let clientData ← caught (host.parseJson clientDataString) fun err =>
    invalid ("Invalid clientDataJSON: JSON parse error - " ++ err.message)
  checkMember host clientData "type" expectedType "Invalid clientDataJSON type"
  checkMember host clientData "challenge" expectedChallenge "Challenge mismatch"
  checkMember host clientData "origin" expectedOrigin "Origin mismatch"
  return clientDataBytes

end ClientData

/-! ## The attestation verifier -/

/-- What a registration presents, and what is expected of it. -/
structure VerifyAttestationOptions where
  clientDataJSON : BytesInput
  attestationObject : BytesInput
  expectedChallenge : String
  expectedOrigin : String
  expectedRpId : String

/-- What a verified attestation says. -/
structure VerifiedAttestation where
  credentialId : String
  credentialPublicKey : String
  signCounter : ℕ
  aaguid : Option String
  attestationType : String
  rpId : String
  origin : String
  deriving DecidableEq

namespace WebAuthnAttestationVerifier

variable (host : WebAuthnHost)

/-- The statement of the format `none` is empty: a map of size 0, a falsy value, or one without
enumerable keys of its own. -/
def isEmptyStatement : Option CborValue → Bool
  | none => true
  | some (.map entries) => entries.isEmpty
  | some (.bytes bytes) => bytes.isEmpty
  | some (.text text) => decide (text = "")
  | some (.array items) => items.isEmpty
  | some _ => true

/-- Step 5: the root map of the attestation object. -/
def decodeAttestationObject (attestationObject : BytesInput) :
    Returning ValidationError (List (CborValue × CborValue)) := do
  let attestationBytes ← caught (host.toUint8Array attestationObject) fun err =>
    invalid ("Failed to parse attestationObject bytes: " ++ err.message)
  let decoded ← caught (Cbor.decodeCbor attestationBytes host.decodeText host.stack) fun err =>
    invalid ("Malformed attestationObject: CBOR decode failed - " ++ err.message)
  match decoded with
  | .map entries => pure entries
  | _ => refuse (invalid "Malformed attestationObject: root CBOR value is not a map")

/-- Steps 7 and 8: the hash of the relying party and the flags. -/
def checkAuthData (expectedRpId : String) (authData : Bytes) : Returning ValidationError PUnit := do
  let rpIdHash := subarray authData 0 32
  let same ← raised (timingSafeEqual rpIdHash (host.sha256 (utf8 expectedRpId)))
  refuseIf (!same) (invalid ("RP ID hash mismatch: authenticator RP ID hash does not match " ++
    "expected \"" ++ expectedRpId ++ "\""))
  match authData[32]? with
  | none => refuse (invalid "Malformed authData: missing flags byte")
  | some flags =>
    refuseIf (flags &&& 0x01 == 0)
      (invalid "User Present (UP) flag was not set by the authenticator")
    refuseIf (flags &&& 0x40 == 0)
      (invalid "Attested Credential Data (AT) flag was not set in registration authData")

/-- What steps 9 and 10 read. -/
structure AttestedCredential where
  credentialId : String
  credentialPublicKey : String
  signCounter : ℕ
  aaguid : String

/-- Steps 9 and 10: the counter and the attested credential data. -/
def readAttestedCredential (authData : Bytes) : Returning ValidationError AttestedCredential := do
  let signCountView ← raised (dataView authData 33 4)
  refuseIf (decide (authData.length < 55))
    (invalid "Malformed authData: insufficient length for attested credential data header")
  let aaguid := formatAaguid (subarray authData 37 53)
  let credIdLenView ← raised (dataView authData 53 2)
  let credentialIdLength := bigEndian credIdLenView
  refuseIf (decide (authData.length < 55 + credentialIdLength))
    (invalid ("Malformed authData: credentialId extends past buffer length " ++
      s!"(length {credentialIdLength})"))
  let credentialIdBytes := subarray authData 55 (55 + credentialIdLength)
  let credentialPublicKeyBytes := authData.drop (55 + credentialIdLength)
  refuseIf credentialPublicKeyBytes.isEmpty
    (invalid "Malformed authData: missing public key in attested credential data")
  return {
    credentialId := host.encodeBase64url credentialIdBytes
    credentialPublicKey := host.encodeBase64url credentialPublicKeyBytes
    signCounter := bigEndian signCountView
    aaguid := aaguid }

/-- `WebAuthnAttestationVerifier.verify(options)`. -/
def verify (options : VerifyAttestationOptions) :
    Returning ValidationError VerifiedAttestation := do
  let _ ← checkClientData host "webauthn.create" options.clientDataJSON options.expectedChallenge
    options.expectedOrigin
  let attestationMap ← decodeAttestationObject host options.attestationObject
  match Cbor.getEntry attestationMap (.text "fmt"),
      Cbor.getEntry attestationMap (.text "authData") with
  | some (.text fmt), some (.bytes authData) =>
    refuseIf (decide (authData.length < 37))
      (invalid s!"Malformed authData: length {authData.length} is less than minimum 37 bytes")
    checkAuthData host options.expectedRpId authData
    let attested ← readAttestedCredential host authData
    refuseIf (fmt == "none" &&
        !isEmptyStatement (Cbor.getEntry attestationMap (.text "attStmt")))
      (invalid "Attestation statement for \"none\" format must be empty")
    return {
      credentialId := attested.credentialId
      credentialPublicKey := attested.credentialPublicKey
      signCounter := attested.signCounter
      aaguid := some attested.aaguid
      attestationType := fmt
      rpId := options.expectedRpId
      origin := options.expectedOrigin }
  | some (.text _), _ =>
    refuse (invalid "Malformed attestationObject: missing or invalid \"authData\" byte string")
  | _, _ => refuse (invalid "Malformed attestationObject: missing or invalid \"fmt\" field")

end WebAuthnAttestationVerifier

/-! ## The assertion verifier -/

/-- What an authentication presents, and what is expected of it. -/
structure VerifyAssertionOptions where
  credentialId : String
  clientDataJSON : BytesInput
  authenticatorData : BytesInput
  signature : BytesInput
  credentialPublicKey : String
  expectedChallenge : String
  expectedOrigin : String
  expectedRpId : String

/-- What a verified assertion says. -/
structure VerifiedAssertion where
  credentialId : String
  signCounter : ℕ
  userPresent : Bool
  userVerified : Bool
  rpId : String
  origin : String
  deriving DecidableEq

namespace WebAuthnAssertionVerifier

variable (host : WebAuthnHost)

/-- The key that bytes in CBOR hold, if they hold one. -/
def coseKeyOf (keyBytes : Bytes) : Except ThrownError (Option host.KeyObject) := do
  match ← Cbor.decodeCbor keyBytes host.decodeText host.stack with
  | .map keyMap =>
    match Cbor.getEntry keyMap (.number 1), Cbor.getEntry keyMap (.number (-2)),
        Cbor.getEntry keyMap (.number (-3)) with
    | some (.number 2), some (.bytes x), some (.bytes y) =>
      let key ← host.createPublicKeyFromJwk (host.encodeBase64url x) (host.encodeBase64url y)
      return some key
    | _, _, _ => return none
  | _ => return none

/-- `parseCoseKeyToPublicKey(keyBytes)`: what is no key in CBOR is taken for DER. -/
def parseCoseKeyToPublicKey (keyBytes : Bytes) : Except ThrownError host.KeyObject :=
  match coseKeyOf host keyBytes with
  | .ok (some key) => .ok key
  | _ => host.createPublicKeyFromDer keyBytes

/-- `importPublicKey(keyInput)`. -/
def importPublicKey (keyInput : String) : Except ThrownError host.KeyObject := do
  let trimmed := trim keyInput
  if startsWith trimmed "-----BEGIN" then host.createPublicKeyFromPem trimmed
  else
    let keyBytes ← host.toUint8Array (.text trimmed)
    parseCoseKeyToPublicKey host keyBytes

/-- Step 9: the signature over the authenticator data and the hash of the client data. -/
def checkSignature (options : VerifyAssertionOptions) (authDataBytes clientDataBytes : Bytes) :
    Returning ValidationError PUnit := do
  let signatureBytes ← caught (host.toUint8Array options.signature) fun err =>
    invalid ("Malformed signature: " ++ err.message)
  let publicKeyObject ← caught (importPublicKey host options.credentialPublicKey) fun err =>
    invalid ("Invalid credential public key: " ++ err.message)
  let verifyData := authDataBytes ++ (host.sha256 clientDataBytes).val
  let isSignatureValid ← caught (host.verifySignature verifyData publicKeyObject signatureBytes)
    fun err => invalid ("Error during signature verification: " ++ err.message)
  refuseIf (!isSignatureValid) (invalid "WebAuthn assertion signature verification failed")

/-- `WebAuthnAssertionVerifier.verify(options)`. -/
def verify (options : VerifyAssertionOptions) : Returning ValidationError VerifiedAssertion := do
  let clientDataBytes ← checkClientData host "webauthn.get" options.clientDataJSON
    options.expectedChallenge options.expectedOrigin
  let authDataBytes ← caught (host.toUint8Array options.authenticatorData) fun err =>
    invalid ("Malformed authenticatorData: " ++ err.message)
  refuseIf (decide (authDataBytes.length < 37))
    (invalid (s!"Malformed authenticatorData: length {authDataBytes.length} is less than " ++
      "required 37 bytes"))
  let actualRpIdHash := subarray authDataBytes 0 32
  refuseIf (!((host.sha256 (utf8 options.expectedRpId)).val == actualRpIdHash))
    (invalid ("RP ID hash mismatch for expected RP ID \"" ++ options.expectedRpId ++ "\""))
  -- the source asserts that the byte is there; without it, both flags would read as not set
  let flags := authDataBytes[32]?.getD 0
  let userPresent := flags &&& 0x01 != 0
  let userVerified := flags &&& 0x04 != 0
  refuseIf (!userPresent) (invalid "User Present (UP) flag is not set in authenticatorData")
  let signCountView ← raised (dataView authDataBytes 33 4)
  checkSignature host options authDataBytes clientDataBytes
  return {
    credentialId := options.credentialId
    signCounter := bigEndian signCountView
    userPresent := userPresent
    userVerified := userVerified
    rpId := options.expectedRpId
    origin := options.expectedOrigin }

end WebAuthnAssertionVerifier

end Verixa.Mfa
