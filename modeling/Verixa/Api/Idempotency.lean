import Mathlib.Data.Rat.Defs
import Mathlib.Algebra.Order.Ring.Rat
import Verixa.Collections.OrderedMap
import Verixa.Concurrency.Solo
import Verixa.Encoding.Bytes
import Verixa.Encoding.PlainValue
import Verixa.Encoding.Text

/-!
# Idempotency keys

The plugin stores the response to a keyed `POST` or `PATCH` request under its key, together with a
fingerprint of the request, and replays it when the same request comes again.  Looking the key up,
handling the request and storing the response are calls of their own, between which those of other
requests may come.

What the handlers answer is given by the outside, as is the clock.  The journal of the store is kept
for what is said about runs, and read by nothing else.
-/

namespace Verixa.Api

open Concurrency Encoding

/-! ## Requests and replies -/

/-- The value of a request header. -/
inductive HeaderValue where
  | absent
  | text (value : String)
  | several (values : List String)
  deriving DecidableEq

/-- A request; its principal is told by the authentication header, and its parsed body may be
missing. -/
structure Request where
  id : String
  method : String
  url : String
  idempotencyKeyHeader : HeaderValue
  authorization : HeaderValue
  body : Option PlainValue

/-- What a reply sends, as it comes to the hook `onSend`. -/
inductive Payload where
  | plain (value : PlainValue)
  | buffer (bytes : Bytes)
  | undefined

/-- A reply; `replayed` says that it bears the headers of a replay. -/
structure Reply where
  statusCode : ℕ
  contentType : Option String
  payload : Payload
  replayed : Bool

/-- A stored response. -/
structure IdempotencyRecord where
  requestHash : String
  statusCode : ℕ
  contentType : Option String
  body : Option String
  createdAt : ℚ
  deriving DecidableEq

/-! ## The platform -/

/-- Turns records into texts and back, as `JSON.stringify` and `JSON.parse` do. -/
structure RecordJson where
  stringify : IdempotencyRecord → String
  parse : String → Option IdempotencyRecord
  parse_stringify : ∀ record, parse (stringify record) = some record
  stringify_ne_empty : ∀ record, stringify record ≠ ""

/-- What the plugin uses of its platform. -/
structure Platform where
  /-- The digest of a text, in hexadecimal digits. -/
  sha256Hex : String → String
  /-- `JSON.stringify`. -/
  stringify : PlainValue → String
  /-- The text of a buffer. -/
  decodeUtf8 : Bytes → String

def DEFAULT_IDEMPOTENCY_TTL_SECONDS : ℚ := 86400

/-- The plugin with its options: its records are kept in memory, or in Redis as texts. -/
structure Idempotency where
  platform : Platform
  redis : Option RecordJson := none
  ttlSeconds : ℚ := DEFAULT_IDEMPOTENCY_TTL_SECONDS

/-! ## The store -/

/-- What is noted of the calls. -/
inductive ApiDeed where
  | looked (about : Request) (key : String) (found : Option IdempotencyRecord)
  | handled (request : Request) (reply : Reply)
  | stored (about : Request) (key : String) (record : IdempotencyRecord) (now : ℚ)

/-- The records in memory and those in Redis, with the times at which they expire. -/
structure ApiStore where
  memoryStore : OrderedMap String (IdempotencyRecord × ℚ)
  redisValues : OrderedMap String (String × ℚ)
  journal : List (ℕ × ApiDeed)

namespace ApiStore

/-- The store without anything in it. -/
def empty : ApiStore := ⟨OrderedMap.empty, OrderedMap.empty, []⟩

/-- Add a deed of thread `i` to the journal. -/
def note (s : ApiStore) (i : ℕ) (deed : ApiDeed) : ApiStore :=
  { s with journal := (i, deed) :: s.journal }

@[simp] theorem memoryStore_note (s : ApiStore) (i : ℕ) (deed : ApiDeed) :
    (s.note i deed).memoryStore = s.memoryStore := rfl

@[simp] theorem redisValues_note (s : ApiStore) (i : ℕ) (deed : ApiDeed) :
    (s.note i deed).redisValues = s.redisValues := rfl

@[simp] theorem journal_note (s : ApiStore) (i : ℕ) (deed : ApiDeed) :
    (s.note i deed).journal = (i, deed) :: s.journal := rfl

theorem grows_refl (s : ApiStore) : ∃ added, s.journal = added ++ s.journal := ⟨[], rfl⟩

theorem grows_trans (s t u : ApiStore) (hst : ∃ added, t.journal = added ++ s.journal)
    (htu : ∃ added, u.journal = added ++ t.journal) : ∃ added, u.journal = added ++ s.journal := by
  obtain ⟨added, hadded⟩ := hst
  obtain ⟨later, hlater⟩ := htu
  exact ⟨later ++ added, by rw [hlater, hadded, List.append_assoc]⟩

end ApiStore

/-- The key under which Redis holds a record. -/
def getRedisKey (key : String) : String := "idempotency:" ++ key

theorem getRedisKey_injective {key key' : String} (h : getRedisKey key = getRedisKey key') :
    key = key' := by
  have htexts : (getRedisKey key).toList = (getRedisKey key').toList := by rw [h]
  simp only [getRedisKey, String.toList_append, List.append_cancel_left_eq] at htexts
  exact String.toList_inj.mp htexts

namespace Idempotency

variable (plugin : Idempotency)

/-- `IdempotencyStore.get` at a given time: an expired record is gone. -/
def get (s : ApiStore) (key : String) (now : ℚ) : Option IdempotencyRecord × ApiStore :=
  match plugin.redis with
  | some json =>
    match s.redisValues.get? (getRedisKey key) with
    | none => (none, s)
    | some (data, expiresAt) =>
      if now < expiresAt ∧ data ≠ "" then (json.parse data, s) else (none, s)
  | none =>
    match s.memoryStore.get? key with
    | none => (none, s)
    | some (record, expiresAt) =>
      if expiresAt < now then (none, { s with memoryStore := s.memoryStore.erase key })
      else (some record, s)

/-- The time at which a record expires that is stored at a given time. -/
def expiry (now : ℚ) : ℚ := now + plugin.ttlSeconds * 1000

/-- `IdempotencyStore.set` at a given time. -/
def set (s : ApiStore) (key : String) (record : IdempotencyRecord) (now : ℚ) : ApiStore :=
  match plugin.redis with
  | some json =>
    { s with redisValues :=
        s.redisValues.set (getRedisKey key) (json.stringify record, plugin.expiry now) }
  | none => { s with memoryStore := s.memoryStore.set key (record, plugin.expiry now) }

/-- The record under a key, with the time at which it expires. -/
def entryOf (s : ApiStore) (key : String) : Option (IdempotencyRecord × ℚ) :=
  match plugin.redis with
  | some json =>
    match s.redisValues.get? (getRedisKey key) with
    | none => none
    | some (data, expiresAt) =>
      if data ≠ "" then (json.parse data).map fun record => (record, expiresAt) else none
  | none => s.memoryStore.get? key

variable {plugin} {s : ApiStore} {key : String} {now : ℚ}

@[simp] theorem entryOf_note (s : ApiStore) (i : ℕ) (deed : ApiDeed) (key : String) :
    plugin.entryOf (s.note i deed) key = plugin.entryOf s key := rfl

/-- Reading the entries after a write. -/
theorem entryOf_set (s : ApiStore) (key key' : String) (record : IdempotencyRecord) (now : ℚ) :
    plugin.entryOf (plugin.set s key record now) key' =
      if key = key' then some (record, plugin.expiry now) else plugin.entryOf s key' := by
  cases hredis : plugin.redis with
  | none => simp [entryOf, set, hredis, OrderedMap.get?_set]
  | some json =>
    have hkey : getRedisKey key = getRedisKey key' ↔ key = key' :=
      ⟨getRedisKey_injective, fun h => by rw [h]⟩
    by_cases h : key = key'
    · subst h
      simp [entryOf, set, hredis, json.stringify_ne_empty, json.parse_stringify]
    · simp [entryOf, set, hredis, OrderedMap.get?_set, hkey, h]

@[simp] theorem journal_set (s : ApiStore) (key : String) (record : IdempotencyRecord) (now : ℚ) :
    (plugin.set s key record now).journal = s.journal := by
  unfold set
  split <;> rfl

@[simp] theorem journal_get (s : ApiStore) (key : String) (now : ℚ) :
    (plugin.get s key now).2.journal = s.journal := by
  unfold get
  split
  · split
    · rfl
    · split <;> rfl
  · split
    · rfl
    · split <;> rfl

/-- What a lookup finds is an entry. -/
theorem entryOf_of_get {record : IdempotencyRecord} (h : (plugin.get s key now).1 = some record) :
    ∃ expiresAt, plugin.entryOf s key = some (record, expiresAt) := by
  unfold get at h
  unfold entryOf
  split at h
  · rename_i json _
    split at h
    · cases h
    · rename_i data expiresAt _
      split at h
      · rename_i hlive
        have hparse : json.parse data = some record := h
        exact ⟨expiresAt, by simp [hlive.2, hparse]⟩
      · cases h
  · split at h
    · cases h
    · rename_i found expiresAt hvalue
      split at h
      · cases h
      · obtain rfl : found = record := Option.some.inj h
        exact ⟨expiresAt, hvalue⟩

/-- An entry is found until it expires, and stays. -/
theorem get_of_entryOf {record : IdempotencyRecord} {expiresAt : ℚ}
    (h : plugin.entryOf s key = some (record, expiresAt)) (hlive : now < expiresAt) :
    plugin.get s key now = (some record, s) := by
  unfold entryOf at h
  unfold get
  split at h
  · rename_i json _
    split at h
    · cases h
    · rename_i data expiresAt' _
      split at h
      · rename_i hdata
        obtain ⟨record', hparse, heq⟩ := Option.map_eq_some_iff.mp h
        obtain ⟨rfl, rfl⟩ := Prod.mk.inj heq
        simp [hlive, hdata, hparse]
      · cases h
  · simp [h, not_lt.mpr hlive.le]

/-- A lookup leaves every entry, but may delete the one under its key when this has expired. -/
theorem entryOf_get (s : ApiStore) (key key' : String) (now : ℚ) :
    plugin.entryOf (plugin.get s key now).2 key' = plugin.entryOf s key' ∨
      key' = key ∧ plugin.entryOf (plugin.get s key now).2 key' = none := by
  unfold get
  split
  · refine .inl ?_
    split
    · rfl
    · split <;> rfl
  · rename_i hredis
    split
    · exact .inl rfl
    · split
      · by_cases hkey : key = key'
        · exact .inr ⟨hkey.symm, by simp [entryOf, hredis, hkey]⟩
        · exact .inl (by simp [entryOf, hredis, OrderedMap.get?_erase_of_ne _ hkey])
      · exact .inl rfl

end Idempotency

/-! ## The calls of a request -/

/-- A call made while a request is served; `about` says for which one. -/
inductive ApiCall where
  | get (key : String) (about : Request)
  | handle (request : Request)
  | dateNow
  | set (key : String) (record : IdempotencyRecord) (about : Request)

/-- What a call is answered with. -/
def ApiCall.Answer : ApiCall → Type
  | .get _ _ => Option IdempotencyRecord
  | .handle _ => Reply
  | .dateNow => ℚ
  | .set _ _ _ => Unit

/-- What a call takes from the outside: the time, or what a handler replies. -/
inductive ApiInput where
  | time (now : ℚ)
  | reply (statusCode : ℕ) (contentType : Option String) (payload : Payload)

/-- A program over these calls. -/
abbrev ApiProgram := Program ApiCall ApiCall.Answer

/-- How a call of thread `i` is answered.  A handler sets none of the headers of a replay. -/
def Idempotency.serve (plugin : Idempotency) : Server ApiStore ApiInput ApiCall ApiCall.Answer
  | i, s, .get key about, .time now =>
    let looked := plugin.get s key now
    some (looked.1, looked.2.note i (.looked about key looked.1))
  | i, s, .handle request, .reply statusCode contentType payload =>
    let reply : Reply := ⟨statusCode, contentType, payload, false⟩
    some (reply, s.note i (.handled request reply))
  | _, s, .dateNow, .time now => some (now, s)
  | i, s, .set key record about, .time now =>
    some ((), (plugin.set s key record now).note i (.stored about key record now))
  | _, _, _, _ => none

/-- A call adds deeds of its thread to the journal. -/
theorem Idempotency.journal_of_serve {plugin : Idempotency} {i : ℕ} {s t : ApiStore} {q : ApiCall}
    {ω : ApiInput} {r : q.Answer} (hserve : plugin.serve i s q ω = some (r, t)) :
    ∃ deeds : List ApiDeed, t.journal = deeds.map (Prod.mk i) ++ s.journal := by
  cases q with
  | get key about =>
    cases ω <;> cases hserve
    exact ⟨[_], by rw [ApiStore.journal_note, journal_get]; rfl⟩
  | handle request =>
    cases ω <;> cases hserve
    exact ⟨[_], rfl⟩
  | dateNow =>
    cases ω <;> cases hserve
    exact ⟨[], rfl⟩
  | set key record about =>
    cases ω <;> cases hserve
    exact ⟨[_], by rw [ApiStore.journal_note, journal_set]; rfl⟩

namespace Idempotency

/-- `store.get`. -/
def lookUp (key : String) (about : Request) : ApiProgram (Option IdempotencyRecord) :=
  Program.perform (ApiCall.get key about)

/-- The handler of the route, with the hooks that come after the one of the plugin. -/
def handle (request : Request) : ApiProgram Reply := Program.perform (ApiCall.handle request)

/-- `Date.now()`. -/
def dateNow : ApiProgram ℚ := Program.perform ApiCall.dateNow

/-- `store.set`. -/
def store (key : String) (record : IdempotencyRecord) (about : Request) : ApiProgram Unit :=
  Program.perform (ApiCall.set key record about)

/-! ## The hooks -/

variable (plugin : Idempotency)

/-- What of the body goes into the fingerprint. -/
def hashedBody : Option PlainValue → String
  | none | some .null => ""
  | some (.string text) => text
  | some value => plugin.platform.stringify value

/-- The fingerprint of a request. -/
def hashRequest (method url : String) (body : Option PlainValue) : String :=
  plugin.platform.sha256Hex
    (String.ofList (method.toList.map Char.toUpper) ++ ":" ++ url ++ ":" ++ plugin.hashedBody body)

/-- The key of a request that the plugin is to take care of. -/
def idempotencyKeyOf (request : Request) : Option String :=
  if request.method ≠ "POST" ∧ request.method ≠ "PATCH" then none
  else
    match request.idempotencyKeyHeader with
    | .text rawKey => if isBlank rawKey then none else some (trim rawKey)
    | _ => none

/-- The fingerprint of a request that is served. -/
def fingerprint (request : Request) : String :=
  plugin.hashRequest request.method request.url request.body

/-- The status of `CONFLICT` in the registry of error codes. -/
def CONFLICT_STATUS : ℕ := 409

/-- The error body of a reused key. -/
def conflictBody (request : Request) : PlainValue :=
  .object [("error", .object [("code", .string "CONFLICT"),
    ("message", .string "Idempotency key reused with conflicting request payload or URL."),
    ("requestId", .string request.id)])]

/-- The reply to a request whose key stands for another one. -/
def conflictReply (request : Request) : Reply where
  statusCode := CONFLICT_STATUS
  contentType := some "application/json; charset=utf-8"
  payload := .plain (.string (plugin.platform.stringify (conflictBody request)))
  replayed := false

/-- The reply that replays a stored response. -/
def replay (record : IdempotencyRecord) : Reply where
  statusCode := record.statusCode
  contentType := record.contentType.filter fun text => text ≠ ""
  payload :=
    match record.body with
    | some body => .plain (.string body)
    | none => .undefined
  replayed := true

/-- What the hook `preHandler` leaves on a request.  Neither text is empty: the key is not blank,
and a digest never is. -/
structure Context where
  idempotencyKey : String
  idempotencyRequestHash : String

/-- The hook before the handler: what it leaves on the request, and its reply if it has one. -/
def preHandler (request : Request) : ApiProgram (Option Context × Option Reply) :=
  match idempotencyKeyOf request with
  | none => pure (none, none)
  | some idempotencyKey => do
    let currentHash := plugin.fingerprint request
    let context : Context := ⟨idempotencyKey, currentHash⟩
    let existingRecord ← lookUp idempotencyKey request
    match existingRecord with
    | some record =>
      if record.requestHash ≠ currentHash then
        return (some context, some (plugin.conflictReply request))
      return (some context, some (replay record))
    | none => return (some context, none)

/-- The text that a response is stored with. -/
def serializedPayload : Payload → Option String
  | .plain (.string text) => some text
  | .buffer bytes => some (plugin.platform.decodeUtf8 bytes)
  | .plain value => some (plugin.platform.stringify value)
  | .undefined => none

/-- The record of a reply. -/
def recordOf (reqHash : String) (reply : Reply) (createdAt : ℚ) : IdempotencyRecord where
  requestHash := reqHash
  statusCode := reply.statusCode
  contentType := reply.contentType
  body := plugin.serializedPayload reply.payload
  createdAt := createdAt

/-- The hook before a reply is sent, which leaves the payload as it is. -/
def onSend (request : Request) (context : Option Context) (reply : Reply) : ApiProgram Unit :=
  match context with
  | none => pure ()
  | some ⟨key, reqHash⟩ =>
    if 500 ≤ reply.statusCode then pure ()
    else if reply.replayed then pure ()
    else do
      let createdAt ← dateNow
      store key (plugin.recordOf reqHash reply createdAt) request

/-- What happens after the hook before the handler: the handler, unless the hook has replied, and
the hook before the reply is sent. -/
def finish (request : Request) (answered : Option Context × Option Reply) : ApiProgram Reply := do
  let reply ← match answered.2 with
    | some reply => pure reply
    | none => handle request
  plugin.onSend request answered.1 reply
  return reply

/-- A request is served. -/
def respond (request : Request) : ApiProgram Reply := do
  let answered ← plugin.preHandler request
  plugin.finish request answered

/-- A pool of requests that are served. -/
abbrev ApiPool := Pool ApiStore ApiCall ApiCall.Answer (fun _ : Request => Reply)

/-- One step of a pool of requests. -/
abbrev step (P : ApiPool) (e : PoolEvent Request ApiInput) : Option ApiPool :=
  P.step plugin.serve plugin.respond e

/-! ## The programs, written out -/

/-- Store a reply, and send it. -/
def storing (request : Request) (key reqHash : String) (reply : Reply) : ApiProgram Reply :=
  .call .dateNow fun createdAt =>
    .call (.set key (plugin.recordOf reqHash reply createdAt) request) fun _ => .ret reply

/-- Send the reply to a keyed request. -/
def sending (request : Request) (key reqHash : String) (reply : Reply) : ApiProgram Reply :=
  if 500 ≤ reply.statusCode then .ret reply
  else if reply.replayed then .ret reply
  else plugin.storing request key reqHash reply

/-- What happens to a keyed request after its lookup. -/
def afterLookUp (request : Request) (key : String) : Option IdempotencyRecord → ApiProgram Reply
  | some record =>
    if record.requestHash ≠ plugin.fingerprint request then
      plugin.storing request key (plugin.fingerprint request) (plugin.conflictReply request)
    else .ret (replay record)
  | none => .call (.handle request) (plugin.sending request key (plugin.fingerprint request))

variable {plugin} {request : Request}

/-- A request without a key is handled. -/
theorem respond_of_unkeyed (h : idempotencyKeyOf request = none) :
    plugin.respond request = .call (.handle request) .ret := by
  rw [respond, preHandler, h]
  rfl

/-- A reply to a keyed request is sent. -/
theorem finish_of_reply (request : Request) (key reqHash : String) (reply : Reply) :
    plugin.finish request (some ⟨key, reqHash⟩, some reply) =
      plugin.sending request key reqHash reply := by
  change ((if 500 ≤ reply.statusCode then Program.ret ()
    else if reply.replayed then Program.ret () else _) >>= fun _ => Program.ret reply) = _
  rw [sending]
  split
  · rfl
  · split <;> rfl

/-- A request with a key begins with its lookup. -/
theorem respond_of_keyed {key : String} (h : idempotencyKeyOf request = some key) :
    plugin.respond request = .call (.get key request) (plugin.afterLookUp request key) := by
  rw [respond, preHandler, h]
  refine congrArg (Program.call (ApiCall.get key request)) (funext fun found => ?_)
  let context : Context := ⟨key, plugin.fingerprint request⟩
  cases found with
  | none =>
    refine congrArg (Program.call (ApiCall.handle request)) (funext fun reply => ?_)
    exact finish_of_reply request key (plugin.fingerprint request) reply
  | some record =>
    change ((if record.requestHash ≠ plugin.fingerprint request then
        Program.ret (some context, some (plugin.conflictReply request))
      else Program.ret (some context, some (replay record))) >>= plugin.finish request) = _
    rw [afterLookUp]
    split
    · rw [Program.ret_bind, finish_of_reply, sending, if_neg, if_neg]
      · simp [conflictReply]
      · simp [conflictReply, CONFLICT_STATUS]
    · rw [Program.ret_bind, finish_of_reply, sending]
      have hreplayed : (replay record).replayed = true := rfl
      rw [if_pos hreplayed, ite_self]

/-- Which calls a request makes. -/
theorem calls_respond {kind : ApiCall → Prop}
    (hget : ∀ key, idempotencyKeyOf request = some key → kind (.get key request))
    (hhandle : kind (.handle request)) (hnow : kind .dateNow)
    (hset : ∀ key record, kind (.set key record request)) :
    (plugin.respond request).Calls kind := by
  have hstoring : ∀ key hash reply, (plugin.storing request key hash reply).Calls kind :=
    fun key hash reply => .call hnow fun _ => .call (hset _ _) fun _ => .ret _
  have hsending : ∀ key hash reply, (plugin.sending request key hash reply).Calls kind := by
    intro key hash reply
    rw [sending]
    split
    · exact .ret _
    split
    · exact .ret _
    exact hstoring _ _ _
  cases hkey : idempotencyKeyOf request with
  | none =>
    rw [respond_of_unkeyed hkey]
    exact .call hhandle fun reply => .ret reply
  | some key =>
    rw [respond_of_keyed hkey]
    refine .call (hget key hkey) fun found => ?_
    cases found with
    | none => exact .call hhandle fun reply => hsending _ _ reply
    | some record =>
      rw [afterLookUp]
      split
      · exact hstoring _ _ _
      · exact .ret _

end Idempotency

/-- Two replies have the same status, and send the same text. -/
def SameResponse (plugin : Idempotency) (reply reply' : Reply) : Prop :=
  reply.statusCode = reply'.statusCode ∧
    plugin.serializedPayload reply.payload = plugin.serializedPayload reply'.payload

/-- The record is that of a response to the request. -/
structure Records (plugin : Idempotency) (request : Request) (reply : Reply)
    (record : IdempotencyRecord) : Prop where
  requestHash : record.requestHash = plugin.fingerprint request
  statusCode : record.statusCode = reply.statusCode
  body : record.body = plugin.serializedPayload reply.payload

theorem records_recordOf (plugin : Idempotency) (request : Request) (reply : Reply)
    (createdAt : ℚ) : Records plugin request reply
      (plugin.recordOf (plugin.fingerprint request) reply createdAt) :=
  ⟨rfl, rfl, rfl⟩

namespace Idempotency

variable {plugin : Idempotency}

/-- A replay sends the text that was stored. -/
theorem serializedPayload_replay (record : IdempotencyRecord) :
    plugin.serializedPayload (replay record).payload = record.body := by
  rw [replay]
  cases record.body with
  | none => rfl
  | some body => rfl

/-- A replay is the response that was recorded. -/
theorem sameResponse_replay {request : Request} {reply : Reply} {record : IdempotencyRecord}
    (h : Records plugin request reply record) : SameResponse plugin (replay record) reply :=
  ⟨h.statusCode, (serializedPayload_replay record).trans h.body⟩

/-! ## A sample deployment -/

/-- The text of a conflict, and of nothing else. -/
def sampleStringify : PlainValue → String
  | .object [("error", .object [("code", .string code), ("message", .string message),
      ("requestId", .string requestId)])] =>
    "\x7b\"error\":\x7b\"code\":\"" ++ code ++ "\",\"message\":\"" ++ message ++
      "\",\"requestId\":\"" ++ requestId ++ "\"\x7d\x7d"
  | _ => ""

/-- A plugin that keeps its records in memory, with texts for digests. -/
def samplePlugin : Idempotency where
  platform := ⟨fun text => text, sampleStringify, fun _ => ""⟩

/-- A request to create a user. -/
def sampleRequest (id authorization : String) (body : Option PlainValue) : Request where
  id := id
  method := "POST"
  url := "/users"
  idempotencyKeyHeader := .text "key-1"
  authorization := .text authorization
  body := body

end Idempotency

end Verixa.Api
