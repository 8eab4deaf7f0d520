import EighthLayer.Aigrp.Identity
import EighthLayer.Transactional.Suppression

/-!
# EighthLayer.Transactional.Send

`POST /api/v1/transactional/send`, from the signature of the request to the dispatch of
the mail, and the service around it: bounce batches and sends in any order.

The result (`complete_iff`) says when a batch is processed completely: exactly when it can
be walked through. Then every address it names is suppressed, a replay changes nothing, and
nothing that is sent later goes to one of them.
-/

namespace EighthLayer.Transactional

open Lib Knowledge
open Aigrp (strip)

/-! ## auth.py -/

/-- `compute_signature`. -/
def computeSignature (key : String) (body : Bytes) : String :=
  "sha256=" ++ String.ofList (hex (hmacSha256 (utf8 key) body))

/-- `verify_hmac_signature`; `none` is the `TypeError` of `hmac.compare_digest` on text
outside ASCII. -/
def verifyHmacSignature (body : Bytes) (signatureHeader : Option String) (l2Id : String)
    (resolver : String → Option String) : Option Bool :=
  match signatureHeader with
  | none => some false
  | some signature =>
    if "sha256=".toList.isPrefixOf signature.toList then
      match resolver l2Id with
      | none => some false
      | some key =>
        if signature.toList.all fun c => c.toNat < 128 then
          some (computeSignature key body = signature)
        else none
    else some false

/-! ## The request -/

/-- The `from_persona` of a request. -/
inductive Persona where
  | invites | auth | notifications
deriving DecidableEq

/-- The `category` of a request. -/
inductive Category where
  | inviteMagicLink | passwordReset | twoFactor | accountEvent | securityAlert
deriving DecidableEq

def Persona.ofText : String → Option Persona
  | "invites" => some .invites
  | "auth" => some .auth
  | "notifications" => some .notifications
  | _ => none

def Category.ofText : String → Option Category
  | "invite_magic_link" => some .inviteMagicLink
  | "password_reset" => some .passwordReset
  | "two_factor" => some .twoFactor
  | "account_event" => some .accountEvent
  | "security_alert" => some .securityAlert
  | _ => none

/-- `TransactionalSendRequest`. -/
structure SendRequest where
  fromPersona : Persona
  «to» : String
  subject : String
  text : String
  html : Option String
  category : Category
  auditRef : Option String

variable [Casing]

/-- `_lower_to`; `none` is its `ValueError`. -/
def lowerTo (value : String) : Option String :=
  let value := Casing.lower (strip value)
  if '@' ∉ value.toList ∨ value.toList.head? = some '@' ∨ value.toList.getLast? = some '@' then
    none
  else some value

/-- `TransactionalSendRequest.model_validate_json`, of a parsed body; `none` is its
`ValidationError`. The lengths are those of the texts as they are given. -/
def validateSend : Json → Option SendRequest := Json.object fun ms => do
  let fromPersona ← (Json.required Json.text ms "from_persona").bind Persona.ofText
  let recipient ← Json.required Json.text ms "to"
  let subject ← Json.required Json.text ms "subject"
  let text ← Json.required Json.text ms "text"
  let html ← Json.nullable Json.text ms "html"
  let category ← (Json.required Json.text ms "category").bind Category.ofText
  let auditRef ← Json.nullable Json.text ms "audit_ref"
  if recipient.length < 3 ∨ 320 < recipient.length ∨ subject.length < 1 ∨ 998 < subject.length ∨
      text.length < 1 ∨ (∃ ref ∈ auditRef, 128 < ref.length) then none
  else
    let recipient ← lowerTo recipient
    return ⟨fromPersona, recipient, subject, text, html, category, auditRef⟩

/-! ## tenancy.py -/

/-- A row of `users`, as far as the tenancy check reads it. -/
structure UserRow where
  id : Nat
  email : Option String
  enterpriseId : String
  groupId : String

/-- A row of `invites`, as far as the tenancy check reads it. -/
structure InviteRow where
  email : String
  issuedBy : Nat
  claimedAt : Option String
  revokedAt : Option String

/-- SQLite's `LOWER`, which knows ASCII only. -/
def sqlLower (s : String) : String := asciiCasing.lower s

/-- A category whose recipient has to be a user. -/
def Category.userOnly : Category → Bool
  | .accountEvent | .securityAlert => true
  | _ => false

/-- `enforce_tenancy`. -/
def enforceTenancy (users : List UserRow) (invites : List InviteRow)
    (enterpriseId groupId recipient : String) (category : Category) : Bool :=
  let address := Casing.lower recipient
  let known := match users.find? fun u => u.email.map sqlLower = some address with
    | some u => u.enterpriseId = enterpriseId && u.groupId = groupId
    | none => false
  if known then true
  else if category.userOnly then false
  else invites.any fun i => sqlLower i.email = address && i.claimedAt.isNone &&
    i.revokedAt.isNone && users.any fun u =>
      u.id = i.issuedBy && u.enterpriseId = enterpriseId && u.groupId = groupId

/-! ## idempotency.py -/

/-- The body of an answer that is kept: a dispatch or a refusal. -/
inductive SendBody where
  | passed (deliveryHandle : String) (sesMessageId : Option String)
  | blocked (reason : String)

/-- `IdempotencyStore`: the answers kept, each with the time it was put there. -/
structure IdempotencyStore where
  /-- In microseconds. -/
  ttl : Int
  entries : List (String × Int × SendBody)

/-- `IdempotencyStore.get`: an expired entry is dropped. -/
def IdempotencyStore.get (c : IdempotencyStore) (key : String) (now : Int) :
    IdempotencyStore × Option SendBody :=
  if key = "" then (c, none)
  else match c.entries.lookup key with
    | none => (c, none)
    | some (ts, cached) =>
      if c.ttl < now - ts then ({ c with entries := c.entries.filter fun e => e.1 ≠ key }, none)
      else (c, some cached)

/-- `IdempotencyStore.put`. -/
def IdempotencyStore.put (c : IdempotencyStore) (key : String) (now : Int) (body : SendBody) :
    IdempotencyStore :=
  if key = "" then c
  else { c with entries := (key, now, body) :: c.entries.filter fun e => e.1 ≠ key }

/-- `_derive_idempotency_key`. -/
def deriveIdempotencyKey (headerKey : Option String) (l2Id : String) (auditRef : Option String) :
    Option String :=
  if EighthLayer.truthy headerKey then some (l2Id ++ ":hdr:" ++ headerKey.getD "")
  else if EighthLayer.truthy auditRef then some (l2Id ++ ":ref:" ++ auditRef.getD "")
  else none

/-! ## The route -/

/-- The central mail service. -/
structure Service where
  users : List UserRow
  invites : List InviteRow
  suppressions : Suppressions
  idempotency : IdempotencyStore
  /-- The addresses handed to the dispatcher so far, the last one first. -/
  dispatched : List String

/-- One call of the route: its headers and body, and what it takes from outside. -/
structure SendCall where
  l2Id : Option String
  signature : Option String
  idempotencyKey : Option String
  rawBody : Bytes
  /-- `time.monotonic()` of the lookup and of the `put`. -/
  gotAt : Int
  putAt : Int
  /-- The message id the dispatcher answers with; `none` when it raises. -/
  ses : Option (Option String)
  /-- `_new_delivery_handle()`. -/
  handle : String

/-- The answers of the route. -/
inductive SendAnswer where
  | missingL2Id | malformedL2Id | invalidSignature | invalidBody | outsideTenancy
  /-- A kept answer. -/
  | replay (body : SendBody)
  | suppressed (reason : String)
  | sesError
  | accepted (deliveryHandle : String) (sesMessageId : Option String)
  /-- An exception that is not an `HTTPException`. -/
  | internalError

/-- What the route takes from outside: the keys of the L2s and a JSON parser. -/
structure Wiring where
  resolver : String → Option String
  parse : Bytes → Option Json

/-- The route from the tenancy check on: steps 6 to 8. -/
def dispatchSend (s : Service) (call : SendCall) (dedupKey : Option String) (l2Id : String)
    (payload : SendRequest) : Service × SendAnswer :=
  let enterpriseId := String.ofList (l2Id.toList.takeWhile (· ≠ '/'))
  let groupId := String.ofList ((l2Id.toList.dropWhile (· ≠ '/')).drop 1)
  let keep (s : Service) (body : SendBody) : Service :=
    match dedupKey with
    | none => s
    | some key => { s with idempotency := s.idempotency.put key call.putAt body }
  if enforceTenancy s.users s.invites enterpriseId groupId payload.«to» payload.category then
    match checkSuppression s.suppressions payload.«to» with
    | some entry => (keep s (.blocked entry.reason), .suppressed entry.reason)
    | none =>
      let s := { s with dispatched := payload.«to» :: s.dispatched }
      match call.ses with
      | none => (s, .sesError)
      | some messageId =>
        (keep s (.passed call.handle messageId), .accepted call.handle messageId)
  else (s, .outsideTenancy)

/-- `send_transactional`. -/
def sendTransactional (W : Wiring) (s : Service) (call : SendCall) : Service × SendAnswer :=
  match call.l2Id with
  | none => (s, .missingL2Id)
  | some l2Id =>
    if l2Id = "" then (s, .missingL2Id)
    else if '/' ∉ l2Id.toList then (s, .malformedL2Id)
    else match verifyHmacSignature call.rawBody call.signature l2Id W.resolver with
      | none => (s, .internalError)
      | some false => (s, .invalidSignature)
      | some true =>
        match (W.parse call.rawBody).bind validateSend with
        | none => (s, .invalidBody)
        | some payload =>
          match deriveIdempotencyKey call.idempotencyKey l2Id payload.auditRef with
          | none => dispatchSend s call none l2Id payload
          | some key =>
            match s.idempotency.get key call.gotAt with
            | (cache, some body) => ({ s with idempotency := cache }, .replay body)
            | (cache, none) =>
              dispatchSend { s with idempotency := cache } call (some key) l2Id payload

/-! ## Dispatches -/

/-- A send leaves the suppressions alone, and dispatches at most once, to an address that is
not suppressed. -/
def SendsOnly (s s' : Service) : Prop :=
  s'.suppressions = s.suppressions ∧
    (s'.dispatched = s.dispatched ∨
      ∃ d, s'.dispatched = d :: s.dispatched ∧ checkSuppression s.suppressions d = none)

theorem dispatchSend_sendsOnly (s : Service) (call : SendCall) (dedupKey : Option String)
    (l2Id : String) (payload : SendRequest) :
    SendsOnly s (dispatchSend s call dedupKey l2Id payload).1 := by
  unfold dispatchSend
  dsimp only
  split
  · split
    · cases dedupKey with
      | none => exact ⟨rfl, .inl rfl⟩
      | some key => exact ⟨rfl, .inl rfl⟩
    · next hfree =>
        split
        · exact ⟨rfl, .inr ⟨_, rfl, hfree⟩⟩
        · cases dedupKey with
          | none => exact ⟨rfl, .inr ⟨_, rfl, hfree⟩⟩
          | some key => exact ⟨rfl, .inr ⟨_, rfl, hfree⟩⟩
  · exact ⟨rfl, .inl rfl⟩

theorem sendTransactional_sendsOnly (W : Wiring) (s : Service) (call : SendCall) :
    SendsOnly s (sendTransactional W s call).1 := by
  have hself : SendsOnly s s := ⟨rfl, .inl rfl⟩
  unfold sendTransactional
  split
  · exact hself
  · split
    · exact hself
    · split
      · exact hself
      · split
        · exact hself
        · exact hself
        · split
          · exact hself
          · split
            · exact dispatchSend_sendsOnly s call none _ _
            · split
              · exact ⟨rfl, .inl rfl⟩
              · exact dispatchSend_sendsOnly _ call _ _ _

/-! ## Runs of the service -/

/-- What the service does next: handle a batch of SNS records, or a send. -/
inductive Step where
  | batch (clock : String → String) (event : List (String × Json))
  | send (call : SendCall)

/-- One step of the service. -/
def Service.step (R : Runtime) (W : Wiring) (s : Service) : Step → Service
  | .batch clock event =>
    { s with suppressions := (handleLambdaEvent R clock s.suppressions event).1 }
  | .send call => (sendTransactional W s call).1

/-- A run of the service. -/
def Service.run (R : Runtime) (W : Wiring) (s : Service) (steps : List Step) : Service :=
  steps.foldl (Service.step R W) s

/-- **A suppressed address stays suppressed.** What a run dispatches to is, in no letter case,
an address that had a row at its start. -/
theorem run_blocked (R : Runtime) (W : Wiring) (s : Service) (steps : List Step) :
    ∃ sent, (s.run R W steps).dispatched = sent ++ s.dispatched ∧
      ∀ address, (checkSuppression s.suppressions address).isSome →
        ∀ d ∈ sent, Casing.lower d ≠ Casing.lower address := by
  induction steps generalizing s with
  | nil => exact ⟨[], rfl, fun _ _ d hd => absurd hd List.not_mem_nil⟩
  | cons step steps ih =>
      obtain ⟨sent, hrun, hother⟩ := ih (s.step R W step)
      rw [Service.run] at hrun
      rw [Service.run, List.foldl_cons, hrun]
      cases step with
      | batch clock event =>
          refine ⟨sent, rfl, fun address h => hother address ?_⟩
          -- a batch keeps the row
          obtain ⟨entry, hentry⟩ := Option.isSome_iff_exists.mp h
          exact Option.isSome_iff_exists.mpr ⟨entry, handleLambdaEvent_grows _ _ hentry⟩
      | send call =>
          obtain ⟨hsuppressions, hsent⟩ := sendTransactional_sendsOnly W s call
          have hkept : (s.step R W (.send call)).suppressions = s.suppressions := hsuppressions
          rw [hkept] at hother
          rcases hsent with hsame | ⟨d, hd, hfree⟩
          · exact ⟨sent, by rw [Service.step, hsame], hother⟩
          · refine ⟨sent ++ [d], ?_, fun address h d' hd' => ?_⟩
            · rw [Service.step, hd, List.append_assoc, List.singleton_append]
            · rcases List.mem_append.mp hd' with hd' | hd'
              · exact hother address h d' hd'
              · rw [List.mem_singleton.mp hd']
                intro heq
                rw [checkSuppression, heq] at hfree
                rw [checkSuppression, hfree] at h
                cases h

/-! ## Complete processing -/

/-- A batch is processed completely from a table. -/
structure Complete (R : Runtime) (W : Wiring) (clock : String → String) (t : Suppressions)
    (event : List (String × Json)) : Prop where
  /-- It does not raise. -/
  returns : (handleLambdaEvent R clock t event).2.isSome
  /-- Each recipient of a well-formed permanent bounce or complaint has a row: the one it had,
  or one with the reason of the first such event for the address. -/
  recorded : ∀ hit ∈ eventHits R event, ∃ entry,
    checkSuppression (handleLambdaEvent R clock t event).1 hit.address = some entry ∧
      (checkSuppression t hit.address = some entry ∨
        checkSuppression t hit.address = none ∧ ∃ first,
          (eventHits R event).find? (fun h => Casing.lower h.address = Casing.lower hit.address) =
            some first ∧ entry.reason = first.reason ∧ entry.sourceEventId = first.eventId)
  /-- A replay changes nothing, then or later. -/
  replay : ∀ clock' t', Grows (handleLambdaEvent R clock t event).1 t' →
    (handleLambdaEvent R clock' t' event).1 = t'
  /-- Nothing is dispatched later to one of the recipients, in any letter case. -/
  blocked : ∀ (s : Service) (steps : List Step),
    s.suppressions = (handleLambdaEvent R clock t event).1 → ∃ sent,
      (s.run R W steps).dispatched = sent ++ s.dispatched ∧
        ∀ d ∈ sent, ∀ hit ∈ eventHits R event, Casing.lower d ≠ Casing.lower hit.address

/-- The row a batch leaves for an address it names. -/
theorem find_record_hit (clock : String → String) (t : Suppressions) {hits : List Hit} {hit : Hit}
    (hhit : hit ∈ hits) :
    ∃ first, hits.find? (fun h => Casing.lower h.address = Casing.lower hit.address) = some first ∧
      checkSuppression (record clock t hits) hit.address =
        (checkSuppression t hit.address).or (some (first.row clock)) := by
  obtain ⟨first, hfirst⟩ : ∃ first,
      hits.find? (fun h => Casing.lower h.address = Casing.lower hit.address) = some first := by
    refine Option.isSome_iff_exists.mp (List.find?_isSome.mpr ⟨hit, hhit, ?_⟩)
    exact decide_eq_true rfl
  refine ⟨first, hfirst, ?_⟩
  rw [checkSuppression, record, Table.find_foldl_insertOrIgnore, List.find?_map]
  have hcomp : ((fun r : SuppressionEntry => decide (r.address = Casing.lower hit.address)) ∘
      Hit.row clock) = fun h => decide (Casing.lower h.address = Casing.lower hit.address) := rfl
  rw [hcomp, hfirst]
  rfl

/-- **Bounce suppression is complete exactly for the batches that can be walked through.** -/
theorem complete_iff (R : Runtime) (W : Wiring) (clock : String → String) (t : Suppressions)
    (event : List (String × Json)) : Complete R W clock t event ↔ Walkable R event = true := by
  constructor
  · intro h
    rw [← handleLambdaEvent_isSome]
    exact h.returns
  · intro hwalk
    have htable : ∀ clock t, (handleLambdaEvent R clock t event).1 =
        record clock t (eventHits R event) := by
      intro clock t
      have hreturns : (handleLambdaEvent R clock t event).2.isSome := by
        rw [handleLambdaEvent_isSome]
        exact hwalk
      obtain ⟨tally, htally⟩ := Option.isSome_iff_exists.mp hreturns
      exact handleLambdaEvent_table (Prod.ext rfl htally)
    have hfound : ∀ hit ∈ eventHits R event,
        (checkSuppression (handleLambdaEvent R clock t event).1 hit.address).isSome := by
      intro hit hhit
      obtain ⟨first, -, hrow⟩ := find_record_hit clock t hhit
      rw [htable, hrow]
      cases checkSuppression t hit.address <;> rfl
    refine ⟨?_, ?_, ?_, ?_⟩
    · rw [handleLambdaEvent_isSome]
      exact hwalk
    · intro hit hhit
      obtain ⟨first, hfirst, hrow⟩ := find_record_hit clock t hhit
      rw [htable, hrow]
      cases hold : checkSuppression t hit.address with
      | some entry => exact ⟨entry, rfl, .inl rfl⟩
      | none => exact ⟨first.row clock, rfl, .inr ⟨rfl, first, hfirst, rfl, rfl⟩⟩
    · intro clock' t' hgrows
      rw [htable]
      refine Table.foldl_insertOrIgnore_eq_self fun r hr => ?_
      obtain ⟨hit, hhit, rfl⟩ := List.mem_map.mp hr
      obtain ⟨entry, hentry⟩ := Option.isSome_iff_exists.mp (hfound hit hhit)
      exact Option.isSome_iff_exists.mpr ⟨entry, hgrows _ _ hentry⟩
    · intro s steps hs
      obtain ⟨sent, hsent, hother⟩ := run_blocked R W s steps
      refine ⟨sent, hsent, fun d hd hit hhit => hother hit.address ?_ d hd⟩
      rw [hs]
      exact hfound hit hhit

/-! ### One malformed recipient -/

/-- A permanent bounce whose first recipient is a text where a dict belongs. -/
def sampleBounce : Json := .obj [("notificationType", .str "Bounce"),
  ("bounce", .obj [("bounceType", .str "Permanent"), ("timestamp", .str "2026-05-19T14:32:00.000Z"),
    ("bouncedRecipients", .arr [.str "oops@example.com",
      .obj [("emailAddress", .str "gone@example.com")]])])]

/-- Every message of the sample is that bounce. -/
def sampleRuntime : Runtime where
  loads _ := .ok sampleBounce
  listText _ := "[]"

/-- A batch of one record. -/
def sampleEvent : List (String × Json) :=
  [("Records", .arr [.obj [("Sns", .obj [("Message", .str ""), ("MessageId", .str "m-1")])]])]

omit [Casing] in
/-- The malformed recipient takes the well-formed one after it along: the batch raises, and
the address that bounced is not suppressed. -/
theorem sampleEvent_raises :
    (eventHits sampleRuntime sampleEvent).map Hit.address = ["gone@example.com"] ∧
    (@handleLambdaEvent asciiCasing sampleRuntime (fun _ => "2026-05-19T14:32:01+00:00") Table.empty
      sampleEvent).2 = none ∧
    @checkSuppression asciiCasing (@handleLambdaEvent asciiCasing sampleRuntime
      (fun _ => "2026-05-19T14:32:01+00:00") Table.empty sampleEvent).1 "gone@example.com" = none :=
  ⟨rfl, rfl, rfl⟩

end EighthLayer.Transactional
