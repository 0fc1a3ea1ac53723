import Verixa.Audit.AnchorAuditLog
import Verixa.Encoding.Base64Url
import Verixa.Encoding.Json

/-!
# Ledgers that hashes are anchored to

`HashAnchor` is the port: anchoring changes the state of a ledger and hands out a receipt, verifying
asks the ledger whether a reference commits to a hash.  Its laws are the contract that all adapters
are tested against: what was anchored verifies under the reference of its receipt, and goes on to
verify whatever is anchored later.

Two adapters meet it.  `InMemoryHashAnchor` keeps the hashes in a map, under references that are new
ones.  `StellarHashAnchor` has the hash written into the memo of a transaction; the network includes
transactions and does not take them back, also those whose submission was reported as failed.
-/

namespace Verixa

open Encoding

/-- A 64-character lowercase hex SHA-256 digest. -/
def isValidSha256Hex (value : String) : Bool :=
  decide (value.toList.length = 64) &&
    value.toList.all fun c => c.isDigit || decide ('a' ≤ c ∧ c ≤ 'f')

/-! ## The port -/

/-- What an outside value `Ω` makes of a call on a ledger in a state `Λ`. -/
structure HashAnchor (Λ Ω : Type) where
  /-- `anchor(hash)`; an error of the first kind is thrown, one of the second returned. -/
  anchor : Λ → String → Ω → Except Failure (Except AnchorFailure AnchorReceiptLike) × Λ
  /-- `verify(hash, anchorRef)`, when the ledger can be read. -/
  verify : Λ → String → String → Except AnchorFailure Bool
  /-- The outside values that can occur. -/
  occurs : Λ → Ω → Prop
  /-- A receipt is for the hash, which verifies under its reference. -/
  verify_anchored : ∀ {ledger ledger' hash ω receipt}, occurs ledger ω →
    anchor ledger hash ω = (.ok (.ok receipt), ledger') →
      receipt.hash = hash ∧ verify ledger' hash receipt.anchorRef = .ok true
  /-- What verifies goes on to verify. -/
  verify_kept : ∀ {ledger hash ω hash' anchorRef}, occurs ledger ω →
    verify ledger hash' anchorRef = .ok true →
      verify (anchor ledger hash ω).2 hash' anchorRef = .ok true

/-! ## In memory -/

/-- The hashes under their references, and whether the next call is made to fail. -/
structure InMemoryHashAnchor where
  anchorsByRef : OrderedMap String String
  nextAnchorFails : Bool

namespace InMemoryHashAnchor

/-- Anchors a hash; `ω` is what `randomUUID` and `new Date()` return. -/
def anchor (ledger : InMemoryHashAnchor) (hash : String) (ω : String × Date) :
    Except AnchorFailure AnchorReceiptLike × InMemoryHashAnchor :=
  if ledger.nextAnchorFails then
    (.error ⟨"Simulated anchoring failure."⟩, { ledger with nextAnchorFails := false })
  else if !isValidSha256Hex hash then
    (.error ⟨"Expected a 64-character lowercase hex SHA-256 digest."⟩, ledger)
  else
    (.ok ⟨hash, ω.1, ω.2, "in-memory"⟩,
      { ledger with anchorsByRef := ledger.anchorsByRef.set ω.1 hash })

/-- Whether the reference stands for the hash. -/
def verify (ledger : InMemoryHashAnchor) (hash anchorRef : String) : Except AnchorFailure Bool :=
  if !isValidSha256Hex hash then
    .error ⟨"Expected a 64-character lowercase hex SHA-256 digest."⟩
  else .ok (ledger.anchorsByRef.get? anchorRef == some hash)

variable {ledger : InMemoryHashAnchor} {hash anchorRef : String} {ω : String × Date}

theorem verify_eq_ok_true_iff : ledger.verify hash anchorRef = .ok true ↔
    isValidSha256Hex hash = true ∧ ledger.anchorsByRef.get? anchorRef = some hash := by
  unfold verify
  cases isValidSha256Hex hash with
  | true => simp
  | false => simp

/-- Anchoring returns a receipt when it is not made to fail and the hash is one. -/
theorem anchor_cases (ledger : InMemoryHashAnchor) (hash : String) (ω : String × Date) :
    ((∃ failure, (ledger.anchor hash ω).1 = .error failure) ∧
        (ledger.anchor hash ω).2.anchorsByRef = ledger.anchorsByRef) ∨
      (isValidSha256Hex hash = true ∧
        (ledger.anchor hash ω).1 = .ok ⟨hash, ω.1, ω.2, "in-memory"⟩ ∧
        (ledger.anchor hash ω).2.anchorsByRef = ledger.anchorsByRef.set ω.1 hash) := by
  unfold anchor
  split
  · exact .inl ⟨⟨_, rfl⟩, rfl⟩
  · split
    · exact .inl ⟨⟨_, rfl⟩, rfl⟩
    · rename_i hvalid
      exact .inr ⟨by simpa using hvalid, rfl, rfl⟩

/-- The in-memory adapter, whose references are new ones. -/
def adapter : HashAnchor InMemoryHashAnchor (String × Date) where
  anchor ledger hash ω := (.ok (ledger.anchor hash ω).1, (ledger.anchor hash ω).2)
  verify := verify
  occurs ledger ω := ledger.anchorsByRef.get? ω.1 = none
  verify_anchored := by
    intro ledger ledger' hash ω receipt _ h
    obtain ⟨hreceipt, rfl⟩ := Prod.mk.inj h
    have hreceipt := Except.ok.inj hreceipt
    rcases anchor_cases ledger hash ω with ⟨⟨failure, hfailed⟩, -⟩ | ⟨hvalid, hanchored, hstored⟩
    · rw [hfailed] at hreceipt
      cases hreceipt
    · obtain rfl := Except.ok.inj (hanchored.symm.trans hreceipt)
      refine ⟨rfl, verify_eq_ok_true_iff.mpr ⟨hvalid, ?_⟩⟩
      rw [hstored]
      exact OrderedMap.get?_set_self _ _ _
  verify_kept := by
    intro ledger hash ω hash' anchorRef hnew h
    obtain ⟨hvalid, hfound⟩ := verify_eq_ok_true_iff.mp h
    refine verify_eq_ok_true_iff.mpr ⟨hvalid, ?_⟩
    rcases anchor_cases ledger hash ω with ⟨-, hstored⟩ | ⟨-, -, hstored⟩
    · rw [hstored]
      exact hfound
    · have hother : ω.1 ≠ anchorRef := by
        rintro rfl
        rw [hnew] at hfound
        cases hfound
      rw [hstored, OrderedMap.get?_set_of_ne _ hother]
      exact hfound

end InMemoryHashAnchor

/-! ## Hexadecimal digits and bytes -/

/-- `Buffer.from(text, "hex")`, for digits in pairs. -/
def bufferFromHex : List Char → Bytes
  | high :: low :: digits =>
    UInt8.ofNat ((Json.hexValue? high).getD 0 * 16 + (Json.hexValue? low).getD 0) ::
      bufferFromHex digits
  | _ => []

/-- A lowercase digit is written as it was read. -/
theorem exists_hexValue {c : Char} (h : (c.isDigit || decide ('a' ≤ c ∧ c ≤ 'f')) = true) :
    ∃ n < 16, Json.hexValue? c = some n ∧ Nat.digitChar n = c := by
  have hdigit : ∀ n < 10, Nat.digitChar n = Char.ofNat (n + 48) := by decide
  have hletter : ∀ n < 6, Nat.digitChar (n + 10) = Char.ofNat (n + 97) := by decide
  rcases Bool.or_eq_true_iff.mp h with h | h
  · obtain ⟨hlow, hhigh⟩ := isDigit_iff.mp h
    refine ⟨c.toNat - 48, by omega, by rw [Json.hexValue?, if_pos h], ?_⟩
    rw [hdigit _ (by omega), Nat.sub_add_cancel hlow, Char.ofNat_toNat]
  · obtain ⟨hlow, hhigh⟩ := of_decide_eq_true h
    have hlow : 97 ≤ c.toNat := hlow
    have hhigh : c.toNat ≤ 102 := hhigh
    have hnoDigit : ¬ c.isDigit = true := fun hc => by have := isDigit_iff.mp hc; omega
    refine ⟨c.toNat - 97 + 10, by omega, ?_, ?_⟩
    · rw [Json.hexValue?, if_neg hnoDigit, if_pos ⟨hlow, hhigh⟩]
      congr 1
      omega
    · rw [hletter _ (by omega), Nat.sub_add_cancel hlow, Char.ofNat_toNat]

/-- Digits in pairs are read and written again. -/
theorem flatMap_hexOfByte_bufferFromHex {digits : List Char}
    (heven : digits.length % 2 = 0)
    (h : digits.all (fun c => c.isDigit || decide ('a' ≤ c ∧ c ≤ 'f')) = true) :
    (bufferFromHex digits).flatMap hexOfByte = digits := by
  fun_induction bufferFromHex digits with
  | case1 high low digits ih =>
    simp only [List.all_cons, Bool.and_eq_true] at h
    obtain ⟨n, hn, hhigh, hcn⟩ := exists_hexValue h.1
    obtain ⟨m, hm, hlow, hcm⟩ := exists_hexValue h.2.1
    have hrest : digits.length % 2 = 0 := by
      rw [List.length_cons, List.length_cons] at heven
      omega
    rw [List.flatMap_cons, ih hrest h.2.2, hhigh, hlow]
    have hbyte : (UInt8.ofNat (n * 16 + m)).toNat = n * 16 + m :=
      UInt8.toNat_ofNat_of_lt' (by change n * 16 + m < 256; omega)
    rw [Option.getD_some, Option.getD_some, hexOfByte, hbyte,
      show (n * 16 + m) / 16 = n by omega, show (n * 16 + m) % 16 = m by omega, hcn, hcm]
    rfl
  | case2 digits hshort =>
    rcases digits with _ | ⟨high, _ | ⟨low, digits⟩⟩
    · rfl
    · cases heven
    · exact absurd rfl (hshort high low digits)

/-- A digest is the text of its bytes. -/
theorem bufferToHex_bufferFromHex {hash : String} (h : isValidSha256Hex hash = true) :
    bufferToHex (bufferFromHex hash.toList) = hash := by
  obtain ⟨hlength, hdigits⟩ := Bool.and_eq_true_iff.mp h
  have heven : hash.toList.length % 2 = 0 := by rw [of_decide_eq_true hlength]
  rw [bufferToHex, flatMap_hexOfByte_bufferFromHex heven hdigits, String.ofList_toList]

/-! ## Stellar -/

/-- What the network shows of an included transaction. -/
structure LedgerTransaction where
  hash : String
  memo_type : String
  memo : Option CodeUnits

/-- The network's server: it shows memos in base64, and what reading an unknown transaction
throws. -/
structure Horizon where
  memoText : Bytes → CodeUnits
  decode_memoText : ∀ bytes, Base64Url.decode (memoText bytes) = bytes
  notFound : String

/-- What a `StellarHashAnchor` was made with. -/
structure StellarHashAnchor where
  networkId : String
  hasSigner : Bool
  hasFundingGuard : Bool

/-- What the signer, the guard and the network answer in the course of one call. -/
structure StellarReplies where
  /-- `signer.accountId()`. -/
  account : Except Failure (Except String String)
  /-- `fundingGuard.beforeAnchor()`. -/
  cleared : Except Failure (Except AnchorFailure Unit)
  /-- Loading the account and building the transaction. -/
  loaded : Except String Unit
  /-- `signer.sign(digest)`. -/
  signed : Except String (Except String Bytes)
  /-- `transaction.addSignature`. -/
  attached : Except String Unit
  /-- `submitTransaction`: the hash of the transaction. -/
  response : Except String String
  /-- The hash under which the network includes the transaction, if it does. -/
  included : Option String
  /-- What reporting a failure to the guard ends in. -/
  reported : Except Failure Unit
  now : Date

namespace StellarHashAnchor

/-- How the `try` block ends before anything is submitted, if it does. -/
def notSubmitted (replies : StellarReplies) : Option (Except String AnchorFailure) :=
  match replies.loaded with
  | .error thrown => some (.error thrown)
  | .ok () =>
    match replies.signed with
    | .error thrown => some (.error thrown)
    | .ok (.error message) => some (.ok ⟨message⟩)
    | .ok (.ok _) =>
      match replies.attached with
      | .error thrown => some (.error thrown)
      | .ok () => none

/-- The `catch` block. -/
def failed (replies : StellarReplies) (thrown : String) :
    Except Failure (Except AnchorFailure AnchorReceiptLike) :=
  match replies.reported with
  | .error failure => .error failure
  | .ok () => .ok (.error ⟨"Failed to anchor hash to Stellar: " ++ thrown⟩)

/-- The ledger after a submission. -/
def includes (server : Horizon) (ledger : List LedgerTransaction) (hash : String)
    (included : Option String) : List LedgerTransaction :=
  match included with
  | none => ledger
  | some txHash => ledger ++ [⟨txHash, "hash", some (server.memoText (bufferFromHex hash.toList))⟩]

/-- Anchors a hash in the memo of a transaction. -/
def anchor (server : Horizon) (adapter : StellarHashAnchor) (ledger : List LedgerTransaction)
    (hash : String) (replies : StellarReplies) :
    Except Failure (Except AnchorFailure AnchorReceiptLike) × List LedgerTransaction :=
  if !isValidSha256Hex hash then
    (.ok (.error ⟨"Expected a 64-character lowercase hex SHA-256 digest, received " ++
      Nat.repr (utf16Length hash) ++ " characters."⟩), ledger)
  else if !adapter.hasSigner then
    (.ok (.error ⟨"Anchoring is not available: this adapter was configured without a signer, " ++
      "so it can verify anchors but not create them."⟩), ledger)
  else match replies.account with
    | .error failure => (.error failure, ledger)
    | .ok (.error message) => (.ok (.error ⟨message⟩), ledger)
    | .ok (.ok _) =>
      match (if adapter.hasFundingGuard then replies.cleared else .ok (.ok ())) with
      | .error failure => (.error failure, ledger)
      | .ok (.error error) => (.ok (.error error), ledger)
      | .ok (.ok ()) =>
        match notSubmitted replies with
        | some (.error thrown) => (failed replies thrown, ledger)
        | some (.ok error) => (.ok (.error error), ledger)
        | none =>
          match replies.response with
          | .error thrown =>
            (failed replies thrown, includes server ledger hash replies.included)
          | .ok txHash =>
            (.ok (.ok ⟨hash, txHash, replies.now, adapter.networkId⟩),
              includes server ledger hash replies.included)

/-- Whether the memo of the transaction is the hash. -/
def verify (server : Horizon) (ledger : List LedgerTransaction) (hash anchorRef : String) :
    Except AnchorFailure Bool :=
  if !isValidSha256Hex hash then
    .error ⟨"Expected a 64-character lowercase hex SHA-256 digest."⟩
  else if !isValidSha256Hex anchorRef then
    .error ⟨"Expected a 64-character lowercase hex transaction hash for anchorRef."⟩
  else match ledger.find? fun transaction => transaction.hash == anchorRef with
    | none => .error ⟨"Failed to verify anchor " ++ anchorRef ++ ": " ++ server.notFound⟩
    | some transaction =>
      match transaction.memo with
      | none => .ok false
      | some memo =>
        if transaction.memo_type ≠ "hash" then .ok false
        else .ok (bufferToHex (Base64Url.decode memo) == hash)

variable {server : Horizon} {settings : StellarHashAnchor} {ledger : List LedgerTransaction}
  {hash anchorRef : String} {replies : StellarReplies}

/-- A hash verifies under the hash of the transaction whose memo it is. -/
theorem verify_eq_ok_true_iff : verify server ledger hash anchorRef = .ok true ↔
    isValidSha256Hex hash = true ∧ isValidSha256Hex anchorRef = true ∧
      ∃ transaction memo, ledger.find? (fun t => t.hash == anchorRef) = some transaction ∧
        transaction.memo_type = "hash" ∧ transaction.memo = some memo ∧
          bufferToHex (Base64Url.decode memo) = hash := by
  unfold verify
  cases isValidSha256Hex hash with
  | false => simp
  | true =>
    cases isValidSha256Hex anchorRef with
    | false => simp
    | true =>
      cases ledger.find? fun t => t.hash == anchorRef with
      | none => simp
      | some transaction =>
        obtain ⟨txHash, memoType, memo⟩ := transaction
        cases memo with
        | none => simp
        | some memo => by_cases hmemo : memoType = "hash" <;> simp [hmemo]

/-- What anchoring does to the ledger, and when it returns a receipt. -/
theorem anchor_cases (server : Horizon) (settings : StellarHashAnchor)
    (ledger : List LedgerTransaction) (hash : String) (replies : StellarReplies) :
    ((∀ receipt, (anchor server settings ledger hash replies).1 ≠ .ok (.ok receipt)) ∧
        ((anchor server settings ledger hash replies).2 = ledger ∨
          (anchor server settings ledger hash replies).2 =
            includes server ledger hash replies.included)) ∨
      (isValidSha256Hex hash = true ∧
        (∃ txHash, replies.response = .ok txHash ∧
          (anchor server settings ledger hash replies).1 =
            .ok (.ok ⟨hash, txHash, replies.now, settings.networkId⟩)) ∧
        (anchor server settings ledger hash replies).2 =
          includes server ledger hash replies.included) := by
  have hfailed : ∀ thrown receipt, failed replies thrown ≠ .ok (.ok receipt) := by
    intro thrown receipt h
    unfold failed at h
    split at h
    · cases h
    · cases h
  unfold anchor
  split
  · exact .inl ⟨by simp, .inl rfl⟩
  · rename_i hvalid
    split
    · exact .inl ⟨by simp, .inl rfl⟩
    · split
      · exact .inl ⟨by simp, .inl rfl⟩
      · exact .inl ⟨by simp, .inl rfl⟩
      · split
        · exact .inl ⟨by simp, .inl rfl⟩
        · exact .inl ⟨by simp, .inl rfl⟩
        · split
          · exact .inl ⟨hfailed _, .inl rfl⟩
          · exact .inl ⟨by simp, .inl rfl⟩
          · split
            · exact .inl ⟨hfailed _, .inr rfl⟩
            · rename_i txHash hresponse
              exact .inr ⟨by simpa using hvalid, ⟨txHash, hresponse, rfl⟩, rfl⟩

/-- What the network promises: a transaction is included under a digest that is new, and a
submission that is answered is included under the hash answered. -/
structure Honest (ledger : List LedgerTransaction) (replies : StellarReplies) : Prop where
  digest : ∀ txHash ∈ replies.included, isValidSha256Hex txHash = true
  new : ∀ txHash ∈ replies.included, ∀ transaction ∈ ledger, transaction.hash ≠ txHash
  included : ∀ txHash, replies.response = .ok txHash → replies.included = some txHash

/-- The Stellar adapter over an honest network. -/
def adapter (server : Horizon) (settings : StellarHashAnchor) :
    HashAnchor (List LedgerTransaction) StellarReplies where
  anchor := anchor server settings
  verify := verify server
  occurs := Honest
  verify_anchored := by
    intro ledger ledger' hash replies receipt honest h
    rcases anchor_cases server settings ledger hash replies with
      ⟨hnone, -⟩ | ⟨hvalid, ⟨txHash, hresponse, hanchored⟩, hledger⟩
    · exact absurd (congrArg Prod.fst h) (hnone receipt)
    · have hreceipt := congrArg Prod.fst h
      rw [hanchored] at hreceipt
      obtain rfl := Except.ok.inj (Except.ok.inj hreceipt)
      have hincluded := honest.included txHash hresponse
      let memo := server.memoText (bufferFromHex hash.toList)
      refine ⟨rfl, verify_eq_ok_true_iff.mpr
        ⟨hvalid, honest.digest _ hincluded, ⟨txHash, "hash", some memo⟩, memo, ?_, rfl, rfl, ?_⟩⟩
      · have hgrown : ledger' = includes server ledger hash replies.included :=
          (congrArg Prod.snd h).symm.trans hledger
        rw [hgrown, hincluded, includes, List.find?_append,
          List.find?_eq_none.mpr fun t ht => by simpa using honest.new _ hincluded t ht]
        simp [memo]
      · rw [server.decode_memoText]
        exact bufferToHex_bufferFromHex hvalid
  verify_kept := by
    intro ledger hash replies hash' anchorRef _ h
    obtain ⟨hvalid, hvalidRef, transaction, memo, hfind, hmemo⟩ := verify_eq_ok_true_iff.mp h
    refine verify_eq_ok_true_iff.mpr ⟨hvalid, hvalidRef, transaction, memo, ?_, hmemo⟩
    have hgrows : ∃ more, (anchor server settings ledger hash replies).2 = ledger ++ more := by
      have hincludes : ∃ more, includes server ledger hash replies.included = ledger ++ more := by
        unfold includes
        split
        · exact ⟨[], (List.append_nil _).symm⟩
        · exact ⟨_, rfl⟩
      rcases anchor_cases server settings ledger hash replies with
        ⟨-, hledger | hledger⟩ | ⟨-, -, hledger⟩
      · exact ⟨[], by rw [hledger, List.append_nil]⟩
      · rwa [hledger]
      · rwa [hledger]
    obtain ⟨more, hmore⟩ := hgrows
    rw [hmore, List.find?_append, hfind, Option.some_or]

end StellarHashAnchor

end Verixa
