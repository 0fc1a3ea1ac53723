import Verixa.Mfa.CborReaderFidelity
import Verixa.Mfa.MalformedClientData

/-!
# What the attestation verifier reads

The authenticator data of a registration: the hash of the relying party, the flags, the counter, the
AAGUID, the length of the credential id, the id itself, and the public key up to the end.  The
verifier reads them at offsets, of which the last is computed.

For an attestation object that wraps some authenticator data, and client data that match, the
verifier returns the parts if the data are put together of them, and an error otherwise
(`verify_parses_exactly`): wherever a part is cut short, and where a flag is missing.
-/

namespace Verixa.Mfa

open Encoding CborItem Returning

/-- The parts of the authenticator data behind the hash of the relying party. -/
structure AttestationParts where
  flags : UInt8
  counter : ℕ
  aaguid : Bytes
  credentialId : Bytes
  key : Bytes
  userPresent : (flags &&& 0x01 == 0) = false
  attested : (flags &&& 0x40 == 0) = false
  counter_lt : counter < 2 ^ 32
  length_aaguid : aaguid.length = 16
  credentialId_lt : credentialId.length < 65536
  key_ne : key ≠ []

/-- The parts in their order. -/
def AttestationParts.toBytes (rpIdHash : Bytes) (parts : AttestationParts) : Bytes :=
  rpIdHash ++ ([parts.flags] ++ (toBigEndian 4 parts.counter ++ (parts.aaguid ++
    (toBigEndian 2 parts.credentialId.length ++ (parts.credentialId ++ parts.key)))))

/-- The attestation object is a map of a text, an empty statement and the authenticator data, in any
order and with heads of any width. -/
def Wraps (fmt : String) (authData : Bytes) (item : CborItem) : Prop :=
  CborItem.Counted item ∧
    ∃ mapArgument fmtKey fmtArgument stmtKey stmtArgument dataKey dataArgument entries,
      item = .map mapArgument entries ∧
        entries.Perm [(.text fmtKey (utf8 "fmt"), .text fmtArgument (utf8 fmt)),
          (.text stmtKey (utf8 "attStmt"), .map stmtArgument []),
          (.text dataKey (utf8 "authData"), .bytes dataArgument authData)]

section

variable (host : WebAuthnHost) (options : VerifyAttestationOptions)

/-- The client data parse to an object with the type, the challenge and the origin expected. -/
def ClientDataMatch : Prop :=
  ∃ fields, ParsesTo host options.clientDataJSON (.object fields) ∧
    PlainValue.property fields "type" = some (.string "webauthn.create") ∧
    PlainValue.property fields "challenge" = some (.string options.expectedChallenge) ∧
    PlainValue.property fields "origin" = some (.string options.expectedOrigin)

/-- The hash of the expected relying party. -/
def expectedHash : Bytes := (host.sha256 (utf8 options.expectedRpId)).val

/-- What the verifier returns for the parts. -/
def attestationOf (fmt : String) (parts : AttestationParts) : VerifiedAttestation where
  credentialId := host.encodeBase64url parts.credentialId
  credentialPublicKey := host.encodeBase64url parts.key
  signCounter := parts.counter
  aaguid := some (formatAaguid parts.aaguid)
  attestationType := host.decodeText (utf8 fmt)
  rpId := options.expectedRpId
  origin := options.expectedOrigin

end

/-! ## The layout -/

section Layout

variable {rpIdHash authData : Bytes}

/-- The parts stand at their offsets, one behind the other up to the end. -/
structure Layout (rpIdHash authData : Bytes) (parts : AttestationParts) : Prop where
  hash : authData = rpIdHash ++ authData.drop 32
  flags : authData.drop 32 = [parts.flags] ++ authData.drop 33
  counter : authData.drop 33 = toBigEndian 4 parts.counter ++ authData.drop 37
  aaguid : authData.drop 37 = parts.aaguid ++ authData.drop 53
  length : authData.drop 53 = toBigEndian 2 parts.credentialId.length ++ authData.drop 55
  credentialId : authData.drop 55 =
    parts.credentialId ++ authData.drop (55 + parts.credentialId.length)
  key : authData.drop (55 + parts.credentialId.length) = parts.key

/-- Data put together of the parts have them at their offsets, and no other data do. -/
theorem eq_toBytes_iff (parts : AttestationParts) (hhash : rpIdHash.length = 32) :
    authData = parts.toBytes rpIdHash ↔ Layout rpIdHash authData parts := by
  constructor
  · intro hdata
    have hstart : authData.drop 0 = rpIdHash ++ _ := hdata
    have h32 := Cbor.drop_behind hstart
    rw [hhash, Nat.zero_add] at h32
    have h33 : authData.drop 33 = _ := Cbor.drop_behind h32
    have h37 := Cbor.drop_behind h33
    rw [length_toBigEndian] at h37
    have h53 := Cbor.drop_behind h37
    rw [parts.length_aaguid] at h53
    have h55 := Cbor.drop_behind h53
    rw [length_toBigEndian] at h55
    have hkey := Cbor.drop_behind h55
    exact ⟨by rw [h32]; exact hdata, by rw [h32, h33], by rw [h33, h37], by rw [h37, h53],
      by rw [h53, h55], by rw [h55, hkey], hkey⟩
  · intro h
    rw [h.hash, h.flags, h.counter, h.aaguid, h.length, h.credentialId, h.key]
    rfl

variable {parts : AttestationParts}

theorem Layout.length_eq (h : Layout rpIdHash authData parts) (hhash : rpIdHash.length = 32) :
    authData.length = 55 + parts.credentialId.length + parts.key.length := by
  rw [(eq_toBytes_iff parts hhash).mpr h, AttestationParts.toBytes]
  simp only [List.length_append, length_toBigEndian, List.length_singleton, hhash,
    parts.length_aaguid]
  omega

theorem Layout.flags_eq (h : Layout rpIdHash authData parts) :
    authData[32]? = some parts.flags := by
  have hflags := congrArg (fun bytes : Bytes => bytes[0]?) h.flags
  simpa using hflags

/-- What stands in the two bytes before the credential id. -/
theorem Layout.length_value (h : Layout rpIdHash authData parts) :
    bigEndian (subarray authData 53 55) = parts.credentialId.length := by
  have hpart := Cbor.subarray_of_drop h.length
  rw [length_toBigEndian] at hpart
  rw [hpart, bigEndian_toBigEndian, Nat.mod_eq_of_lt (show _ < 256 ^ 2 from parts.credentialId_lt)]

theorem Layout.hash_eq (h : Layout rpIdHash authData parts) (hhash : rpIdHash.length = 32) :
    subarray authData 0 32 = rpIdHash := by
  have hpart := @Cbor.subarray_of_drop authData _ 0 rpIdHash h.hash
  rwa [hhash, Nat.zero_add] at hpart

theorem Layout.counter_eq (h : Layout rpIdHash authData parts) :
    bigEndian (subarray authData 33 37) = parts.counter := by
  have hpart := Cbor.subarray_of_drop h.counter
  rw [length_toBigEndian] at hpart
  rw [hpart, bigEndian_toBigEndian, Nat.mod_eq_of_lt (show _ < 256 ^ 4 from parts.counter_lt)]

theorem Layout.aaguid_eq (h : Layout rpIdHash authData parts) :
    subarray authData 37 53 = parts.aaguid := by
  have hpart := Cbor.subarray_of_drop h.aaguid
  rwa [parts.length_aaguid] at hpart

theorem Layout.credentialId_eq (h : Layout rpIdHash authData parts) :
    subarray authData 55 (55 + parts.credentialId.length) = parts.credentialId :=
  Cbor.subarray_of_drop h.credentialId

/-- Data with the right hash and flags and a key behind the credential id are put together of
parts. -/
theorem exists_layout {flags : UInt8} (hhash : subarray authData 0 32 = rpIdHash)
    (hflags : authData[32]? = some flags) (hpresent : (flags &&& 0x01 == 0) = false)
    (hattested : (flags &&& 0x40 == 0) = false)
    (hlength : 55 + bigEndian (subarray authData 53 55) < authData.length) :
    ∃ parts, Layout rpIdHash authData parts := by
  obtain ⟨hbyte, hflags⟩ := List.getElem?_eq_some_iff.mp hflags
  have hcounter : (subarray authData 33 37).length = 4 := by rw [length_subarray]; omega
  have haaguid : (subarray authData 37 53).length = 16 := by rw [length_subarray]; omega
  have hannounced : (subarray authData 53 55).length = 2 := by rw [length_subarray]; omega
  have hcounterLt := bigEndian_lt (subarray authData 33 37)
  have hannouncedLt := bigEndian_lt (subarray authData 53 55)
  rw [hcounter] at hcounterLt
  rw [hannounced] at hannouncedLt
  have hcounterBytes := toBigEndian_bigEndian (subarray authData 33 37)
  have hannouncedBytes := toBigEndian_bigEndian (subarray authData 53 55)
  rw [hcounter] at hcounterBytes
  rw [hannounced] at hannouncedBytes
  generalize bigEndian (subarray authData 53 55) = announced at *
  have hid : (subarray authData 55 (55 + announced)).length = announced := by
    rw [length_subarray]
    omega
  have hbehind : authData.drop (55 + (subarray authData 55 (55 + announced)).length) =
      authData.drop (55 + announced) := by rw [hid]
  refine ⟨⟨flags, bigEndian (subarray authData 33 37), subarray authData 37 53,
    subarray authData 55 (55 + announced), authData.drop (55 + announced), hpresent, hattested,
    hcounterLt, haaguid, by rw [hid]; exact hannouncedLt, ?_⟩, ?_⟩
  · rw [ne_eq, List.drop_eq_nil_iff]
    omega
  · exact
      { hash := by rw [← hhash]; exact Cbor.drop_eq_subarray (show 0 ≤ 32 by decide)
        flags := by rw [List.drop_eq_getElem_cons hbyte, hflags]; rfl
        counter := by rw [hcounterBytes]; exact Cbor.drop_eq_subarray (by decide)
        aaguid := Cbor.drop_eq_subarray (by decide)
        length := by rw [hid, hannouncedBytes]; exact Cbor.drop_eq_subarray (by decide)
        credentialId := (Cbor.drop_eq_subarray (Nat.le_add_right 55 announced)).trans
          (congrArg (subarray authData 55 (55 + announced) ++ ·) hbehind.symm)
        key := hbehind }

end Layout

/-! ## Reading the parts -/

section Reading

variable {host : WebAuthnHost} {authData : Bytes}

theorem yields_dataView_iff {offset length : ℕ} {view : Bytes} :
    Yields (raised (dataView authData offset length) : Returning ValidationError Bytes) view ↔
      offset + length ≤ authData.length ∧ view = subarray authData offset (offset + length) := by
  rw [yields_raised_iff, dataView]
  split
  · rename_i hfits
    rw [and_iff_right hfits, Except.ok.injEq]
    exact eq_comm
  · rename_i hshort
    exact iff_of_false (fun h => nomatch h) fun h => hshort h.1

/-- The hash and the flags are as they should be. -/
theorem yields_checkAuthData_iff {expectedRpId : String} {a : PUnit} :
    Yields (WebAuthnAttestationVerifier.checkAuthData host expectedRpId authData) a ↔
      subarray authData 0 32 = (host.sha256 (utf8 expectedRpId)).val ∧
        ∃ flags, authData[32]? = some flags ∧ (flags &&& 0x01 == 0) = false ∧
          (flags &&& 0x40 == 0) = false := by
  unfold WebAuthnAttestationVerifier.checkAuthData
  rw [yields_bind_iff]
  simp only [yields_raised_iff, yields_bind_iff, yields_refuseIf_iff]
  constructor
  · rintro ⟨same, hcompared, _, hsame, hflags⟩
    have hequal : subarray authData 0 32 = (host.sha256 (utf8 expectedRpId)).val := by
      rw [timingSafeEqual] at hcompared
      split at hcompared
      · obtain rfl := Except.ok.inj hcompared
        simpa using hsame
      · exact nomatch hcompared
    refine ⟨hequal, ?_⟩
    cases hbyte : authData[32]? with
    | none =>
      rw [hbyte] at hflags
      exact absurd hflags (not_yields_refuse _ _)
    | some flags =>
      rw [hbyte] at hflags
      obtain ⟨_, hpresent, hattested⟩ := yields_bind_iff.mp hflags
      exact ⟨flags, rfl, yields_refuseIf_iff.mp hpresent, yields_refuseIf_iff.mp hattested⟩
  · rintro ⟨hequal, flags, hbyte, hpresent, hattested⟩
    refine ⟨true, ?_, ⟨⟩, rfl, ?_⟩
    · rw [timingSafeEqual, hequal, if_pos rfl, beq_self_eq_true]
    · rw [hbyte]
      exact yields_bind_iff.mpr
        ⟨⟨⟩, yields_refuseIf_iff.mpr hpresent, yields_refuseIf_iff.mpr hattested⟩

/-- The attested credential data are read if they have the announced length and a key behind. -/
theorem yields_readAttestedCredential_iff
    {attested : WebAuthnAttestationVerifier.AttestedCredential} :
    Yields (WebAuthnAttestationVerifier.readAttestedCredential host authData) attested ↔
      55 ≤ authData.length ∧
        55 + bigEndian (subarray authData 53 55) < authData.length ∧
          attested =
            { credentialId := host.encodeBase64url
                (subarray authData 55 (55 + bigEndian (subarray authData 53 55)))
              credentialPublicKey := host.encodeBase64url
                (authData.drop (55 + bigEndian (subarray authData 53 55)))
              signCounter := bigEndian (subarray authData 33 37)
              aaguid := formatAaguid (subarray authData 37 53) } := by
  unfold WebAuthnAttestationVerifier.readAttestedCredential
  simp only [yields_bind_iff, yields_dataView_iff, yields_refuseIf_iff, yields_pure_iff,
    decide_eq_false_iff_not, Nat.not_lt, List.isEmpty_eq_false_iff, ne_eq, List.drop_eq_nil_iff,
    Nat.reduceAdd]
  constructor
  · rintro ⟨_, ⟨_, rfl⟩, _, hheader, _, ⟨_, rfl⟩, _, hid, _, hkey, rfl⟩
    exact ⟨hheader, by omega, rfl⟩
  · rintro ⟨hheader, hlength, rfl⟩
    exact ⟨_, ⟨by omega, rfl⟩, ⟨⟩, hheader, _, ⟨by omega, rfl⟩, ⟨⟩, by omega, ⟨⟩, by omega, rfl⟩

end Reading

/-! ## The client data and the attestation object -/

section Wrapping

variable {host : WebAuthnHost} {options : VerifyAttestationOptions}

/-- Client data that match pass the check. -/
theorem yields_checkClientData (h : ClientDataMatch host options) :
    ∃ bytes, Yields (checkClientData host "webauthn.create" options.clientDataJSON
      options.expectedChallenge options.expectedOrigin) bytes := by
  obtain ⟨fields, ⟨bytes, text, htext, hparse⟩, htype, hchallenge, horigin⟩ := h
  have hmember : ∀ {key expected : String} (message : String),
      PlainValue.property fields key = some (.string expected) →
        Yields (checkMember host (.object fields) key expected message) ⟨⟩ := by
    intro key expected message hvalue
    rw [yields_checkMember_iff, hvalue]
    exact decide_eq_true rfl
  refine ⟨bytes, yields_bind_iff.mpr ⟨(bytes, text), yields_caught_iff.mpr htext, ?_⟩⟩
  refine yields_bind_iff.mpr ⟨.object fields, yields_caught_iff.mpr hparse, ?_⟩
  refine yields_bind_iff.mpr ⟨⟨⟩, hmember _ htype, ?_⟩
  refine yields_bind_iff.mpr ⟨⟨⟩, hmember _ hchallenge, ?_⟩
  exact yields_bind_iff.mpr ⟨⟨⟩, hmember _ horigin, yields_pure_iff.mpr rfl⟩

theorem depthEntries_le {entries : List (CborItem × CborItem)} {n : ℕ}
    (h : ∀ entry ∈ entries, entry.1.depth ≤ n ∧ entry.2.depth ≤ n) :
    depthEntries entries ≤ n := by
  induction entries with
  | nil => exact Nat.zero_le n
  | cons entry entries ih =>
    have hfirst := h entry List.mem_cons_self
    have hrest := ih fun other hother => h other (List.mem_cons_of_mem _ hother)
    exact max_le (max_le hfirst.1 hfirst.2) hrest

theorem depth_of_wraps {fmt : String} {authData : Bytes} {item : CborItem}
    (h : Wraps fmt authData item) : item.depth ≤ 2 := by
  obtain ⟨-, mapArgument, fmtKey, fmtArgument, stmtKey, stmtArgument, dataKey, dataArgument,
    entries, rfl, hentries⟩ := h
  refine Nat.succ_le_succ (depthEntries_le fun entry hentry => ?_)
  have hmem := hentries.subset hentry
  simp only [List.mem_cons, List.not_mem_nil, or_false] at hmem
  rcases hmem with rfl | rfl | rfl <;> simp [depth, depthEntries]

theorem sameKey_text_iff {key : CborValue} {text : String} :
    Cbor.sameKey key (.text text) = true ↔ key = .text text := by
  cases key <;> simp [Cbor.sameKey]

theorem sameKey_comm (a b : CborValue) : Cbor.sameKey a b = Cbor.sameKey b a := by
  cases a <;> cases b <;> simp [Cbor.sameKey, Bool.beq_eq_decide_eq, eq_comm]

/-- What stands under a text does not depend on the order of entries with distinct keys. -/
theorem getEntry_perm {entries pairs : List (CborValue × CborValue)} (h : entries.Perm pairs)
    (hdistinct : Cbor.DistinctKeys pairs) (key : String) :
    Cbor.getEntry entries (.text key) = Cbor.getEntry pairs (.text key) := by
  have hunique : ∀ entry ∈ pairs, entry.1 = .text key → ∀ other ∈ pairs, other.1 = .text key →
      entry = other := by
    intro entry hentry hkey other hother hotherKey
    by_contra hne
    have : Std.Symm fun a b : CborValue × CborValue => Cbor.sameKey a.1 b.1 = false :=
      ⟨fun _ _ hdiffer => (sameKey_comm _ _).trans hdiffer⟩
    have hdiffer := List.Pairwise.forall hdistinct hentry hother hne
    rw [hkey, hotherKey, sameKey_text_iff.mpr rfl] at hdiffer
    exact nomatch hdiffer
  have hfind : entries.find? (fun entry => Cbor.sameKey entry.1 (.text key)) =
      pairs.find? fun entry => Cbor.sameKey entry.1 (.text key) := by
    cases hfound : pairs.find? fun entry => Cbor.sameKey entry.1 (.text key) with
    | none =>
      rw [List.find?_eq_none] at hfound ⊢
      exact fun entry hentry => hfound entry (h.mem_iff.mp hentry)
    | some entry =>
      have hmem := List.mem_of_find?_eq_some hfound
      have hsame := List.find?_some hfound
      cases hother : entries.find? fun entry => Cbor.sameKey entry.1 (.text key) with
      | none => exact absurd hsame (List.find?_eq_none.mp hother entry (h.mem_iff.mpr hmem))
      | some other =>
        have hotherSame := List.find?_some hother
        exact congrArg some (hunique other (h.mem_iff.mp (List.mem_of_find?_eq_some hother))
          (sameKey_text_iff.mp hotherSame) entry hmem (sameKey_text_iff.mp hsame))
  rw [Cbor.getEntry, hfind, Cbor.getEntry]

/-- A map that wraps authenticator data is read with its three entries. -/
theorem yields_decodeAttestationObject {fmt : String} {authData rest : Bytes} {item : CborItem}
    (hdecode : host.decodeText = decodeText) (hstack : 2 < host.stack)
    (hbytes : host.toUint8Array options.attestationObject = .ok (toBytes item ++ rest))
    (hlength : (toBytes item ++ rest).length < 2 ^ 53) (h : Wraps fmt authData item) :
    ∃ entries,
      Yields (WebAuthnAttestationVerifier.decodeAttestationObject host options.attestationObject)
        entries ∧
      Cbor.getEntry entries (.text "fmt") = some (.text (decodeText (utf8 fmt))) ∧
      Cbor.getEntry entries (.text "attStmt") = some (.map []) ∧
      Cbor.getEntry entries (.text "authData") = some (.bytes authData) := by
  have hread := @Cbor.read_item decodeText item h.1 _ rest 0 host.stack hlength rfl
    (lt_of_le_of_lt (depth_of_wraps h) hstack)
  obtain ⟨-, mapArgument, fmtKey, fmtArgument, stmtKey, stmtArgument, dataKey, dataArgument,
    entries, rfl, hentries⟩ := h
  have hkey : ∀ key : String, key.toList.head? ≠ some byteOrderMark →
      decodeText (utf8 key) = key := fun key hmark => (decodeText_utf8_iff key).mpr hmark
  have hpairs : (Cbor.readerPairs decodeText entries).Perm
      [(.text "fmt", .text (decodeText (utf8 fmt))), (.text "attStmt", .map []),
        (.text "authData", .bytes authData)] := by
    have hmapped := hentries.map fun entry =>
      (Cbor.readerValue decodeText entry.1, Cbor.readerValue decodeText entry.2)
    simpa [Cbor.readerPairs, Cbor.readerValue, Cbor.readerEntries, hkey "fmt" (by decide),
      hkey "attStmt" (by decide), hkey "authData" (by decide)] using hmapped
  have hdistinct : Cbor.DistinctKeys [(.text "fmt", .text (decodeText (utf8 fmt))),
      (.text "attStmt", .map []), (.text "authData", .bytes authData)] := by
    simp [Cbor.DistinctKeys, Cbor.sameKey]
  refine ⟨Cbor.readerPairs decodeText entries, ?_, getEntry_perm hpairs hdistinct "fmt",
    getEntry_perm hpairs hdistinct "attStmt", getEntry_perm hpairs hdistinct "authData"⟩
  have hsymm : ∀ {a b : CborValue × CborValue}, Cbor.sameKey a.1 b.1 = false →
      Cbor.sameKey b.1 a.1 = false := fun hother => (sameKey_comm _ _).trans hother
  have hkept := @Cbor.setEntries_of_distinct (Cbor.readerPairs decodeText entries) []
    ((hpairs.pairwise_iff hsymm).mpr hdistinct)
  refine yields_bind_iff.mpr ⟨_, yields_caught_iff.mpr hbytes, ?_⟩
  refine yields_bind_iff.mpr ⟨.map (Cbor.readerPairs decodeText entries), ?_,
    yields_pure_iff.mpr rfl⟩
  rw [yields_caught_iff, Cbor.decodeCbor, hdecode, hread, Cbor.readerValue,
    Cbor.readerEntries_eq, hkept]
  rfl

end Wrapping

/-! ## The verifier -/

section Verify

variable {host : WebAuthnHost} {options : VerifyAttestationOptions} {fmt : String}
  {authData rest : Bytes} {item : CborItem}

/-- The verifier goes on with the parts that the data are put together of. -/
theorem yields_verify_iff (hdecode : host.decodeText = decodeText) (hstack : 2 < host.stack)
    (hmatch : ClientDataMatch host options)
    (hbytes : host.toUint8Array options.attestationObject = .ok (toBytes item ++ rest))
    (hlength : (toBytes item ++ rest).length < 2 ^ 53) (hwraps : Wraps fmt authData item)
    {attestation : VerifiedAttestation} :
    Yields (WebAuthnAttestationVerifier.verify host options) attestation ↔
      ∃ parts : AttestationParts, Layout (expectedHash host options) authData parts ∧
        attestation = attestationOf host options fmt parts := by
  obtain ⟨clientDataBytes, hclient⟩ := yields_checkClientData hmatch
  obtain ⟨entries, hentries, hfmt, hstmt, hdata⟩ :=
    yields_decodeAttestationObject hdecode hstack hbytes hlength hwraps
  have hhash : (expectedHash host options).length = 32 :=
    (host.sha256 (utf8 options.expectedRpId)).property
  rw [WebAuthnAttestationVerifier.verify, yields_bind_of_yields hclient,
    yields_bind_of_yields hentries, hfmt, hdata, hstmt]
  simp only [yields_bind_iff, yields_refuseIf_iff, yields_checkAuthData_iff,
    yields_readAttestedCredential_iff, yields_pure_iff]
  constructor
  · rintro ⟨_, -, _, ⟨hequal, flags, hflags, hpresent, hattested⟩, _, ⟨-, hbehind, rfl⟩, _, -, rfl⟩
    obtain ⟨parts, hparts⟩ := exists_layout hequal hflags hpresent hattested hbehind
    refine ⟨parts, hparts, ?_⟩
    rw [attestationOf, hparts.length_value, hparts.counter_eq, hparts.aaguid_eq,
      hparts.credentialId_eq, hparts.key, hdecode]
  · rintro ⟨parts, hparts, rfl⟩
    have htotal := hparts.length_eq hhash
    have hkey := List.length_pos_iff.mpr parts.key_ne
    refine ⟨⟨⟩, by rw [decide_eq_false_iff_not]; omega, ⟨⟩, ⟨hparts.hash_eq hhash, parts.flags,
      hparts.flags_eq, parts.userPresent, parts.attested⟩, _, ⟨by omega, ?_, rfl⟩, ⟨⟩, ?_, ?_⟩
    · rw [hparts.length_value]
      omega
    · rw [WebAuthnAttestationVerifier.isEmptyStatement, List.isEmpty_nil, Bool.not_true,
        Bool.and_false]
    · rw [attestationOf, hparts.length_value, hparts.counter_eq, hparts.aaguid_eq,
        hparts.credentialId_eq, hparts.key, hdecode]

/-- Data that are cut off before the end of the key's first byte are no data of parts. -/
theorem not_layout_of_cut {rpIdHash : Bytes} {parts other : AttestationParts} {n : ℕ}
    (hhash : rpIdHash.length = 32) (hn : n ≤ 55 + parts.credentialId.length) :
    ¬Layout rpIdHash ((parts.toBytes rpIdHash).take n) other := by
  intro h
  have htotal := h.length_eq hhash
  have hkey := List.length_pos_iff.mpr other.key_ne
  rw [List.length_take] at htotal
  have hfull : Layout rpIdHash (parts.toBytes rpIdHash) parts := (eq_toBytes_iff parts hhash).mp rfl
  -- the announced length is not cut off, as more than 55 bytes are there
  have hannounced : subarray ((parts.toBytes rpIdHash).take n) 53 55 =
      subarray (parts.toBytes rpIdHash) 53 55 := by
    rw [subarray, List.take_take, min_eq_left (by omega), subarray]
  have hsame := h.length_value
  rw [hannounced, hfull.length_value] at hsame
  omega

/-- For client data that match and an attestation object that wraps the authenticator data: the
verifier returns the parts that the data are put together of; it returns an error for all other
data, so where the data are cut off before the end of the key's first byte, and where a flag is not
set. -/
theorem verify_parses_exactly (host : WebAuthnHost) (options : VerifyAttestationOptions)
    (fmt : String) (authData rest : Bytes) (item : CborItem)
    (hdecode : host.decodeText = decodeText) (hstack : 2 < host.stack)
    (hmatch : ClientDataMatch host options)
    (hbytes : host.toUint8Array options.attestationObject = .ok (toBytes item ++ rest))
    (hlength : (toBytes item ++ rest).length < 2 ^ 53) (hwraps : Wraps fmt authData item) :
    (∀ parts : AttestationParts, authData = parts.toBytes (expectedHash host options) →
      (WebAuthnAttestationVerifier.verify host options).run =
        .ok (.ok (attestationOf host options fmt parts))) ∧
    ((∀ parts : AttestationParts, authData ≠ parts.toBytes (expectedHash host options)) →
      ∃ error, (WebAuthnAttestationVerifier.verify host options).run = .ok (.error error)) ∧
    (∀ (parts : AttestationParts) (n : ℕ), n ≤ 55 + parts.credentialId.length →
      authData = (parts.toBytes (expectedHash host options)).take n →
        ∃ error, (WebAuthnAttestationVerifier.verify host options).run = .ok (.error error)) ∧
    ∀ flags : UInt8, authData[32]? = some flags → flags &&& 0x01 = 0 ∨ flags &&& 0x40 = 0 →
      ∃ error, (WebAuthnAttestationVerifier.verify host options).run = .ok (.error error) := by
  have hhash : (expectedHash host options).length = 32 :=
    (host.sha256 (utf8 options.expectedRpId)).property
  have hyields := fun attestation => @yields_verify_iff host options fmt authData rest item hdecode
    hstack hmatch hbytes hlength hwraps attestation
  obtain ⟨clientDataBytes, hclient⟩ := yields_checkClientData hmatch
  have hreturns : Returns (WebAuthnAttestationVerifier.verify host options) :=
    returns_verifyAttestation_iff.mpr ⟨_, hclient⟩
  have herror : (∀ parts, ¬Layout (expectedHash host options) authData parts) →
      ∃ error, (WebAuthnAttestationVerifier.verify host options).run = .ok (.error error) := by
    intro hnone
    refine exists_error_of_returns hreturns fun attestation hattestation => ?_
    obtain ⟨parts, hparts, -⟩ := (hyields attestation).mp hattestation
    exact hnone parts hparts
  refine ⟨?_, ?_, ?_, ?_⟩
  · intro parts hdata
    exact (hyields _).mpr ⟨parts, (eq_toBytes_iff parts hhash).mp hdata, rfl⟩
  · intro hother
    exact herror fun parts hparts => hother parts ((eq_toBytes_iff parts hhash).mpr hparts)
  · intro parts n hn hdata
    subst hdata
    exact herror fun other => not_layout_of_cut hhash hn
  · intro flags hflags hmissing
    refine herror fun parts hparts => ?_
    obtain rfl := Option.some.inj (hparts.flags_eq.symm.trans hflags)
    have hset := hmissing.imp beq_iff_eq.mpr beq_iff_eq.mpr
    rw [parts.userPresent, parts.attested] at hset
    simp at hset

end Verify

/-- The parts of a short attestation. -/
def sampleParts : AttestationParts where
  flags := 0x41
  counter := 7
  aaguid := List.replicate 16 1
  credentialId := [1, 2, 3]
  key := [9]
  userPresent := by decide
  attested := by decide
  counter_lt := by norm_num
  length_aaguid := by decide
  credentialId_lt := by decide
  key_ne := by decide

/-- The data of the parts in a map. -/
def sampleAttestation : CborItem :=
  .map (fewest 3)
    [(.text (fewest 3) (utf8 "fmt"), .text (fewest 4) (utf8 "none")),
      (.text (fewest 7) (utf8 "attStmt"), .map (fewest 0) []),
      (.text (fewest 8) (utf8 "authData"),
        .bytes (fewest 59) (sampleParts.toBytes (List.replicate 32 0)))]

/-- A platform that parses client data that match. -/
def registeringHost : WebAuthnHost :=
  { sampleHost with
    decodeText := decodeText
    parseJson _ := .ok <| .object [("type", .string "webauthn.create"),
      ("challenge", .string "challenge"), ("origin", .string "https://example.com")] }

/-- A registration with the data of the parts. -/
def sampleRegistration : VerifyAttestationOptions :=
  { nullRegistration with attestationObject := .bytes (toBytes sampleAttestation) }

/-- The verifier reads the parts. -/
theorem verify_parses_exactly_sample :
    (WebAuthnAttestationVerifier.verify registeringHost sampleRegistration).run =
      .ok (.ok (attestationOf registeringHost sampleRegistration "none" sampleParts)) := by
  refine (verify_parses_exactly registeringHost sampleRegistration "none"
    (sampleParts.toBytes (List.replicate 32 0)) [] sampleAttestation rfl (by decide) ?_ ?_ ?_ ?_).1
    sampleParts rfl
  · exact ⟨_, ⟨_, _, rfl, rfl⟩, rfl, rfl, rfl⟩
  · exact congrArg Except.ok (List.append_nil _).symm
  · decide +kernel
  · refine ⟨?_, fewest 3, fewest 3, fewest 4, fewest 7, fewest 0, fewest 8, fewest 59, _, rfl,
      List.Perm.refl _⟩
    simp only [sampleAttestation, CborItem.Counted, CountedEntries, value_fewest]
    decide +kernel

end Verixa.Mfa
