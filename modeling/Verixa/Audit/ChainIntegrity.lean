import Verixa.Audit.AuditLogEntry

/-!
# The last hash commits to the whole chain

Two chains that verification accepts and that end in the same hash have the same length and agree
entry by entry on every hashed field, provided the digest has no collision on canonical texts.

The argument goes from the end of the chains to their beginning.  Equal hashes of two verified
entries are digests of equal canonical texts, so the entries agree on every hashed field
(`agree_of_hash_eq`); agreeing on the previous hash, they hand the same premise to the entries
before them (`forall₂_agree_of_headHash_eq`).  The sequence number of the last entry is the length
of the chain, which is why the two chains reach the genesis at the same time.
-/

namespace Verixa

variable {sha256 : String → String}

/-- Two lists of entries agree entry by entry on every hashed field. -/
def SameEvidence (xs ys : List AuditLogEntry) : Prop :=
  List.Forall₂ (fun x y : AuditLogEntry => x.toHashedProps.Agree y.toHashedProps) xs ys

/-- Entries with valid and equal hashes agree on every hashed field. -/
theorem agree_of_hash_eq (hsha : InjectiveOnCanonical sha256) {x y : AuditLogEntry}
    (hx : x.hash = x.recomputedHash sha256) (hy : y.hash = y.recomputedHash sha256)
    (h : x.hash = y.hash) : x.toHashedProps.Agree y.toHashedProps := by
  have hdigest : x.recomputedHash sha256 = y.recomputedHash sha256 := by
    rw [← hx, ← hy, h]
  exact (canonicalize_eq_iff _ _).mp (hsha _ _ hdigest)

/-- The last entry of an accepted chain follows the one before it. -/
theorem follows_getLast {xs : List AuditLogEntry} {x : AuditLogEntry}
    (h : verifyChain sha256 (xs ++ [x]) = none) :
    verifyChain sha256 xs = none ∧ Follows sha256 xs.getLast? x := by
  obtain ⟨hxs, hx⟩ := verifyChainFrom_eq_none_of_append h
  rw [Option.or_none] at hx
  exact ⟨hxs, (verifyChainFrom_cons_eq_none_iff.mp hx).1⟩

/-- Accepted chains of one length that end in the same hash hold the same evidence: the last
entries agree, hence link to the same hash, and the chains before them are shorter. -/
theorem forall₂_agree_of_headHash_eq (hsha : InjectiveOnCanonical sha256)
    {xs ys : List AuditLogEntry} (hxs : verifyChain sha256 xs = none)
    (hys : verifyChain sha256 ys = none) (hlen : xs.length = ys.length)
    (hhead : headHash xs.getLast? = headHash ys.getLast?) : SameEvidence xs ys := by
  induction xs using List.reverseRecOn generalizing ys with
  | nil =>
    obtain rfl : ys = [] := List.length_eq_zero_iff.mp hlen.symm
    exact List.Forall₂.nil
  | append_singleton xs x ih =>
    rcases List.eq_nil_or_concat' ys with rfl | ⟨ys, y, rfl⟩
    · simp at hlen
    · obtain ⟨hxs', hx⟩ := follows_getLast hxs
      obtain ⟨hys', hy⟩ := follows_getLast hys
      have hlast : x.hash = y.hash := by simpa [headHash] using hhead
      have hagree := agree_of_hash_eq hsha hx.validHash hy.validHash hlast
      have hlink : headHash xs.getLast? = headHash ys.getLast? := by
        rw [← hx.linked, ← hy.linked, hagree.previousHash]
      have hrest := ih hxs' hys' (by simpa using hlen) hlink
      exact List.rel_append hrest (List.Forall₂.cons hagree List.Forall₂.nil)

/-! ## A sample chain -/

/-- A digest given by a table, and by the text itself outside the table. -/
def tableDigest (table : List (String × String)) (text : String) : String :=
  (OrderedMap.lookupEntry text table).getD text

/-- Every canonical text begins with the version label. -/
theorem head?_canonicalize (p : HashedProps) : (canonicalize p).toList.head? = some 'v' := by
  have hlabel : CANONICAL_FORM_VERSION.toList = 'v' :: "erixa-audit-v2".toList := rfl
  simp [canonicalize, hlabel]

/-- A table without repeated digests, none of which looks like a canonical text, has no
collision on canonical texts. -/
theorem injectiveOnCanonical_tableDigest {table : List (String × String)}
    (htexts : (table.map Prod.fst).Nodup) (hnodup : (table.map Prod.snd).Nodup)
    (hdigest : ∀ d ∈ table.map Prod.snd, d.toList.head? ≠ some 'v') :
    InjectiveOnCanonical (tableDigest table) := by
  intro p q h
  have hentry : ∀ {text d : String}, OrderedMap.lookupEntry text table = some d →
      (text, d) ∈ table := fun hd => (OrderedMap.lookupEntry_eq_some_iff htexts).mp hd
  have hout : ∀ {text d : String} (r : HashedProps), (text, d) ∈ table → d ≠ canonicalize r := by
    rintro text d r hmem rfl
    exact hdigest _ (List.mem_map_of_mem hmem) (head?_canonicalize r)
  unfold tableDigest at h
  cases hp : OrderedMap.lookupEntry (canonicalize p) table with
  | none =>
    cases hq : OrderedMap.lookupEntry (canonicalize q) table with
    | none => simpa [hp, hq] using h
    | some e =>
      rw [hp, hq] at h
      exact absurd h.symm (hout p (hentry hq))
  | some d =>
    cases hq : OrderedMap.lookupEntry (canonicalize q) table with
    | none =>
      rw [hp, hq] at h
      exact absurd h (hout q (hentry hp))
    | some e =>
      rw [hp, hq] at h
      obtain rfl : d = e := h
      have hpq := List.inj_on_of_nodup_map hnodup (hentry hp) (hentry hq) rfl
      exact congrArg Prod.fst hpq

/-- The moments of the sample chain, a minute apart. -/
def sampleTime : Date := ⟨1767225600000, by decide⟩

/-- A minute after `sampleTime`. -/
def sampleTimeLater : Date := ⟨1767225660000, by decide⟩

/-- The bag of the first sample entry. -/
def sampleMetadata : StringRecord := OrderedMap.empty.set "source" "signup"

/-- A genesis entry. -/
def sampleGenesis : AuditLogEntry where
  id := "a1"
  sequence := 1
  action := AuditAction.userRegistered.text
  actorId := some "u1"
  subjectId := some "u1"
  metadata := sampleMetadata
  occurredAt := sampleTime
  previousHash := GENESIS_HASH
  hash := "fd45e765dd6b7c1ffbfe707b56a98165bc74a95ccc5e94444362d9d8c6097c71"

/-- The entry after it. -/
def sampleSecond : AuditLogEntry where
  id := "a2"
  sequence := 2
  action := AuditAction.userLoginSucceeded.text
  actorId := some "u1"
  subjectId := none
  metadata := OrderedMap.empty
  occurredAt := sampleTimeLater
  previousHash := "fd45e765dd6b7c1ffbfe707b56a98165bc74a95ccc5e94444362d9d8c6097c71"
  hash := "4dd627ce29dfdf2daec742f90a878791ab6d340455f9ac8896769d73b9d82dcc"

/-- SHA-256 on the canonical texts of the sample entries. -/
def sampleSha256 : String → String :=
  tableDigest [
    ("verixa-audit-v2 7 1:1|15:user.registered|2:u1|2:u1|24:2026-01-01T00:00:00.000Z|" ++
      "64:0000000000000000000000000000000000000000000000000000000000000000|" ++
      "19:1;6:source=6:signup", sampleGenesis.hash),
    ("verixa-audit-v2 7 1:2|20:user.login_succeeded|2:u1|0:|24:2026-01-01T00:01:00.000Z|" ++
      "64:fd45e765dd6b7c1ffbfe707b56a98165bc74a95ccc5e94444362d9d8c6097c71|1:0",
      sampleSecond.hash)]

/-- The sample digest has no collision on canonical texts. -/
theorem injectiveOnCanonical_sampleSha256 : InjectiveOnCanonical sampleSha256 :=
  injectiveOnCanonical_tableDigest (by decide) (by decide) (by decide)

/-- The sample chain is accepted. -/
theorem verifyChain_sample : verifyChain sampleSha256 [sampleGenesis, sampleSecond] = none := by
  decide +kernel

/-! ## The last hash -/

/-- Accepted chains whose last entries carry the same hash have the same length and agree on
every hashed field of every entry. -/
theorem sameEvidence_of_last_hash_eq (hsha : InjectiveOnCanonical sha256)
    {xs ys : List AuditLogEntry} {x y : AuditLogEntry}
    (hxs : verifyChain sha256 xs = none) (hys : verifyChain sha256 ys = none)
    (hx : xs.getLast? = some x) (hy : ys.getLast? = some y) (hhash : x.hash = y.hash) :
    xs.length = ys.length ∧ SameEvidence xs ys := by
  obtain ⟨xs', rfl⟩ := List.getLast?_eq_some_iff.mp hx
  obtain ⟨ys', rfl⟩ := List.getLast?_eq_some_iff.mp hy
  have hagree := agree_of_hash_eq hsha (follows_getLast hxs).2.validHash
    (follows_getLast hys).2.validHash hhash
  have hlen : (xs' ++ [x]).length = (ys' ++ [y]).length := by
    have hseq := hagree.sequence
    rw [sequence_getLast hxs hx, sequence_getLast hys hy] at hseq
    exact_mod_cast hseq
  refine ⟨hlen, forall₂_agree_of_headHash_eq hsha hxs hys hlen ?_⟩
  rw [hx, hy]
  exact hhash

/-- The sample chain and a copy of it under other row ids and with an empty subject for an
absent one. -/
theorem sameEvidence_sample :
    [sampleGenesis, sampleSecond].length =
        [{ sampleGenesis with id := "b1" },
          { sampleSecond with id := "b2", subjectId := some "" }].length ∧
      SameEvidence [sampleGenesis, sampleSecond]
        [{ sampleGenesis with id := "b1" },
          { sampleSecond with id := "b2", subjectId := some "" }] :=
  sameEvidence_of_last_hash_eq injectiveOnCanonical_sampleSha256 verifyChain_sample
    (by decide +kernel) rfl rfl rfl

end Verixa
