import Verixa.Encoding.Base64Url
import Verixa.Encoding.JsonRoundTrip
import Verixa.SharedKernel.Record

/-!
# Access tokens

`JwtTokenSigner`: a header, a body and a signature in base64url, with dots between them.  The body
is the JSON of the claims, and the signature is the HMAC of what comes before it.

Strings are sequences of code units, so a token that is presented may be any string.  HMAC-SHA256
is a function given from outside; times are whole milliseconds, and the claims' times whole seconds.
-/

namespace Verixa

open Encoding

namespace JwtTokenSigner

/-- `SigningKeyProvider`, which refuses a blank secret. -/
structure SigningKeyProvider where
  secret : String
  nonBlank : isBlank secret = false

/-- The secret new tokens are signed with. -/
def SigningKeyProvider.currentSecret (provider : SigningKeyProvider) : String := provider.secret

/-- `createHmac("sha256", secret).update(data).digest()`. -/
abbrev Hmac := String → Bytes → Bytes

/-- The claims an access token carries. -/
structure AccessTokenPayload where
  sessionId : CodeUnits
  userId : CodeUnits
  deriving DecidableEq

/-- The payload with the seconds since the epoch at which it was signed and at which it expires. -/
structure AccessTokenClaims extends AccessTokenPayload where
  iat : ℤ
  exp : ℤ

/-- The dot between the parts of a token. -/
def dot : UInt16 := 46

/-- `Buffer.from(input, "utf8").toString("base64url")`, for the text of a JSON value. -/
def base64UrlEncode (input : List Char) : CodeUnits :=
  Base64Url.encode (utf8 (String.ofList input))

def HEADER : CodeUnits :=
  base64UrlEncode (Json.stringify
    [("alg", .string (unitsOf "HS256")), ("typ", .string (unitsOf "JWT"))])

/-- The claims as a record, in the order in which they are written. -/
def AccessTokenClaims.record (claims : AccessTokenClaims) : List (String × Json.Field) :=
  [("sessionId", .string claims.sessionId), ("userId", .string claims.userId),
    ("iat", .whole claims.iat), ("exp", .whole claims.exp)]

/-- The signature of a segment. -/
def computeSignature (hmac : Hmac) (segment : CodeUnits) (secret : String) : CodeUnits :=
  Base64Url.encode (hmac secret (bufferFrom segment))

/-- The claims that are signed at a time, in milliseconds. -/
def claimsAt (payload : AccessTokenPayload) (ttlSeconds time : ℤ) : AccessTokenClaims where
  toAccessTokenPayload := payload
  iat := time / 1000
  exp := time / 1000 + ttlSeconds

/-- The body of a token. -/
def body (claims : AccessTokenClaims) : CodeUnits := base64UrlEncode (Json.stringify claims.record)

/-- `sign(payload, ttlSeconds)`, at a time in milliseconds. -/
def sign (hmac : Hmac) (provider : SigningKeyProvider) (payload : AccessTokenPayload)
    (ttlSeconds time : ℤ) : CodeUnits :=
  let segment := HEADER ++ dot :: body (claimsAt payload ttlSeconds time)
  segment ++ dot :: computeSignature hmac segment provider.currentSecret

/-- Whether two strings have the same bytes. -/
def timingSafeEqualStrings (a b : CodeUnits) : Bool :=
  (bufferFrom a).length == (bufferFrom b).length && bufferFrom a == bufferFrom b

/-- The claims that `verify` reads. -/
structure DecodedClaims extends AccessTokenPayload where
  exp : ℚ

/-- The claims of a parsed value, where `isAccessTokenClaims` finds them. -/
def isAccessTokenClaims (value : Json.Value) : Option DecodedClaims :=
  match value.property (unitsOf "sessionId"), value.property (unitsOf "userId"),
    value.property (unitsOf "exp") with
  | some (.string sessionId), some (.string userId), some (.number exp) =>
    some ⟨⟨sessionId, userId⟩, exp⟩
  | _, _, _ => none

/-- `verify(token)`, at a time in milliseconds. -/
def verify (hmac : Hmac) (provider : SigningKeyProvider) (token : CodeUnits) (now : ℤ) :
    Except ValidationError AccessTokenPayload :=
  match token.splitOn dot with
  | [header, body, signature] =>
    let expectedSignature :=
      computeSignature hmac (header ++ dot :: body) provider.currentSecret
    if timingSafeEqualStrings signature expectedSignature then
      match Json.parse (Utf8.decode (Base64Url.decode body)) with
      | none => .error ⟨"Malformed access token payload.", []⟩
      | some decoded =>
        match isAccessTokenClaims decoded with
        | none => .error ⟨"Malformed access token payload.", []⟩
        | some claims =>
          if claims.exp * 1000 ≤ now then .error ⟨"Access token has expired.", []⟩
          else .ok claims.toAccessTokenPayload
    else .error ⟨"Access token signature is invalid.", []⟩
  | _ => .error ⟨"Malformed access token.", []⟩

/-! ## The parts of a token -/

/-- Nothing that is encoded has a dot in it. -/
theorem dot_not_mem_base64UrlEncode (input : List Char) : dot ∉ base64UrlEncode input :=
  Base64Url.dot_not_mem_encode _

theorem dot_not_mem_computeSignature (hmac : Hmac) (segment : CodeUnits) (secret : String) :
    dot ∉ computeSignature hmac segment secret :=
  Base64Url.dot_not_mem_encode _

/-- Three parts without dots are found again. -/
theorem splitOn_parts {header body signature : CodeUnits} (hheader : dot ∉ header)
    (hbody : dot ∉ body) (hsignature : dot ∉ signature) :
    (header ++ dot :: body ++ dot :: signature).splitOn dot = [header, body, signature] := by
  rw [List.append_assoc, List.cons_append, List.splitOn_append_cons_self_of_not_mem hheader,
    List.splitOn_append_cons_self_of_not_mem hbody, List.splitOn_eq_singleton hsignature]

/-- A string that falls into three parts is made of them. -/
theorem eq_of_splitOn_eq {token header body signature : CodeUnits}
    (h : token.splitOn dot = [header, body, signature]) :
    token = header ++ dot :: body ++ dot :: signature := by
  have hjoin : [dot].intercalate (token.splitOn dot) = token := List.intercalate_splitOn dot
  rw [h, List.intercalate_cons_cons, List.intercalate_cons_cons, List.intercalate_singleton]
    at hjoin
  rw [← hjoin]
  simp only [List.append_assoc, List.cons_append, List.nil_append]

/-- Only the signature itself has its bytes. -/
theorem timingSafeEqualStrings_signature (hmac : Hmac) (signature segment : CodeUnits)
    (secret : String) :
    timingSafeEqualStrings signature (computeSignature hmac segment secret) = true ↔
      signature = computeSignature hmac segment secret := by
  rw [timingSafeEqualStrings, Bool.and_eq_true, beq_iff_eq, beq_iff_eq]
  constructor
  · intro hbytes
    exact eq_of_bufferFrom_eq (Base64Url.isAscii_encode _) hbytes.2
  · rintro rfl
    exact ⟨rfl, rfl⟩

/-! ## The body -/

/-- The body of a token is read back as the JSON of its claims. -/
theorem parse_body (claims : AccessTokenClaims) :
    Json.parse (Utf8.decode (Base64Url.decode (body claims))) =
      some (.object (claims.record.map Json.memberValue)) := by
  rw [body, base64UrlEncode, Base64Url.decode_of_encode, decode_utf8, String.toList_ofList,
    Json.parse_stringify]

/-- The claims are found in it. -/
theorem isAccessTokenClaims_record (claims : AccessTokenClaims) :
    isAccessTokenClaims (.object (claims.record.map Json.memberValue)) =
      some ⟨claims.toAccessTokenPayload, claims.exp⟩ := by
  have hsession : unitsOf "exp" ≠ unitsOf "sessionId" ∧ unitsOf "iat" ≠ unitsOf "sessionId" ∧
      unitsOf "userId" ≠ unitsOf "sessionId" := by decide +kernel
  have huser : unitsOf "exp" ≠ unitsOf "userId" ∧ unitsOf "iat" ≠ unitsOf "userId" := by
    decide +kernel
  simp [isAccessTokenClaims, Json.Value.property, AccessTokenClaims.record, Json.memberValue,
    Json.Field.value, hsession, huser]

/-- What was signed is verified until it expires. -/
theorem verify_sign (hmac : Hmac) (provider : SigningKeyProvider) (payload : AccessTokenPayload)
    (ttlSeconds time now : ℤ) :
    verify hmac provider (sign hmac provider payload ttlSeconds time) now =
      if (claimsAt payload ttlSeconds time).exp * 1000 ≤ now then
        .error ⟨"Access token has expired.", []⟩
      else .ok payload := by
  have hheader : dot ∉ HEADER := dot_not_mem_base64UrlEncode _
  have hbody : dot ∉ body (claimsAt payload ttlSeconds time) := dot_not_mem_base64UrlEncode _
  have hsplit := splitOn_parts hheader hbody (dot_not_mem_computeSignature hmac
    (HEADER ++ dot :: body (claimsAt payload ttlSeconds time)) provider.currentSecret)
  have htime : ((claimsAt payload ttlSeconds time).exp : ℚ) * 1000 ≤ now ↔
      (claimsAt payload ttlSeconds time).exp * 1000 ≤ now := by
    exact_mod_cast Iff.rfl
  rw [verify, sign, hsplit]
  dsimp only
  rw [if_pos ((timingSafeEqualStrings_signature hmac _ _ _).mpr rfl), parse_body]
  dsimp only
  rw [isAccessTokenClaims_record]
  dsimp only
  by_cases hexpired : (claimsAt payload ttlSeconds time).exp * 1000 ≤ now
  · rw [if_pos hexpired, if_pos (htime.mpr hexpired)]
  · rw [if_neg hexpired, if_neg fun hle => hexpired (htime.mp hle)]
    rfl

/-- A token is accepted only with the signature of what comes before it. -/
theorem signed_of_verify_eq_ok {hmac : Hmac} {provider : SigningKeyProvider} {token : CodeUnits}
    {now : ℤ} {payload : AccessTokenPayload} (h : verify hmac provider token now = .ok payload) :
    ∃ segment, token = segment ++ dot :: computeSignature hmac segment provider.currentSecret := by
  unfold verify at h
  split at h
  · rename_i header body signature hsplit
    dsimp only at h
    split at h
    · rename_i hsafe
      have hsignature := (timingSafeEqualStrings_signature hmac _ _ _).mp hsafe
      refine ⟨header ++ dot :: body, ?_⟩
      rw [← hsignature]
      exact eq_of_splitOn_eq hsplit
    · exact nomatch h
  · exact nomatch h

end JwtTokenSigner

end Verixa
