import EighthLayer.Transactional.Send

/-!
# EighthLayer.Transactional.Idempotency

Requests that are sent again within the lifetime of their key, and others that come to the same key.

A definitive answer is kept under the derived key, and nothing replaces it while it is fresh
(`Between.live`). So a repeat is answered from the cache. It gets the same response exactly if it was
dispatched, as the refusal of a suppressed address is wrapped only the first time; and another
request is not touched by the kept answer exactly if its key is another one
(`send_idempotent_iff`).
-/

namespace EighthLayer.Transactional

open Lib Knowledge

/-! ## Responses -/

/-- The fields that are kept, without the status. -/
def SendBody.json : SendBody → Json
  | passed deliveryHandle sesMessageId => .obj [("delivery_handle", .str deliveryHandle),
      ("ses_message_id", Json.ofOption sesMessageId), ("suppression_check", .str "passed")]
  | blocked reason => .obj [("delivery_handle", .null), ("suppression_check", .str "blocked"),
      ("reason", .str reason)]

/-- `_status_code`. -/
def SendBody.status : SendBody → Nat
  | passed _ _ => 202
  | blocked _ => 409

/-- The body of an `HTTPException`. -/
def detail (v : Json) : Json := .obj [("detail", v)]

/-- The status and the body that a client receives. -/
def SendAnswer.response : SendAnswer → Nat × Json
  | missingL2Id => (401, detail (.str "missing X-8L-L2-Id header"))
  | malformedL2Id => (401, detail (.str "malformed X-8L-L2-Id (expected enterprise/group)"))
  | invalidSignature => (401, detail (.str "invalid signature"))
  | invalidBody => (422, detail (.str "invalid request body"))
  | outsideTenancy => (403, detail (.str "recipient outside caller tenancy"))
  | replay body => (body.status, body.json)
  | suppressed reason => (409, detail (SendBody.blocked reason).json)
  | sesError => (502, detail (.str "downstream SES error"))
  | accepted deliveryHandle sesMessageId => (202, (SendBody.passed deliveryHandle sesMessageId).json)
  | internalError => (500, .str "Internal Server Error")

/-- What a definitive answer keeps. -/
def SendAnswer.kept : SendAnswer → Option SendBody
  | accepted deliveryHandle sesMessageId => some (.passed deliveryHandle sesMessageId)
  | suppressed reason => some (.blocked reason)
  | _ => none

/-- Two outcomes for a client: the answer, and what has been dispatched. -/
def SameOutcome (r r' : Service × SendAnswer) : Prop :=
  r.2 = r'.2 ∧ r.1.dispatched = r'.1.dispatched

/-! ## The cache -/

namespace IdempotencyStore

/-- The cache without a key. -/
def forget (c : IdempotencyStore) (key : String) : IdempotencyStore :=
  { c with entries := c.entries.filter fun e => e.1 ≠ key }

theorem lookup_filter_self (entries : List (String × Int × SendBody)) (key : String) :
    (entries.filter fun e => e.1 ≠ key).lookup key = none := by
  rw [List.lookup_eq_none_iff]
  intro e he
  have hne := of_decide_eq_true (List.mem_filter.mp he).2
  exact bne_iff_ne.mpr (Ne.symm hne)

theorem lookup_filter_of_ne (entries : List (String × Int × SendBody)) {key key' : String}
    (hne : key' ≠ key) : (entries.filter fun e => e.1 ≠ key).lookup key' = entries.lookup key' := by
  induction entries with
  | nil => rfl
  | cons e entries ih =>
      obtain ⟨k, v⟩ := e
      by_cases hk : k = key
      · rw [List.filter_cons_of_neg (by simp [hk]), ih, List.lookup_cons,
          beq_eq_false_iff_ne.mpr (hk ▸ hne)]
      · rw [List.filter_cons_of_pos (by simp [hk]), List.lookup_cons, List.lookup_cons, ih]

/-- The answer that is kept under a key, fresh at a time. -/
def Live (c : IdempotencyStore) (key : String) (putAt : Int) (body : SendBody) (now : Int) : Prop :=
  c.entries.lookup key = some (putAt, body) ∧ now - putAt ≤ c.ttl

theorem Live.get {c : IdempotencyStore} {key : String} {putAt now : Int} {body : SendBody}
    (h : c.Live key putAt body now) (hkey : key ≠ "") : c.get key now = (c, some body) := by
  unfold IdempotencyStore.get
  rw [if_neg hkey, h.1]
  exact if_neg (Int.not_lt.mpr h.2)

theorem get_eq_none {c : IdempotencyStore} {key : String} (h : c.entries.lookup key = none)
    (now : Int) : c.get key now = (c, none) := by
  unfold IdempotencyStore.get
  rw [h]
  exact ite_self _

/-- A lookup leaves the entries of other keys alone. -/
theorem get_other (c : IdempotencyStore) {key key' : String} (hne : key' ≠ key) (now : Int) :
    (c.get key now).1.ttl = c.ttl ∧ (c.get key now).1.entries.lookup key' = c.entries.lookup key' := by
  unfold IdempotencyStore.get
  split
  · exact ⟨rfl, rfl⟩
  · split
    · exact ⟨rfl, rfl⟩
    · split
      · exact ⟨rfl, lookup_filter_of_ne c.entries hne⟩
      · exact ⟨rfl, rfl⟩

theorem put_other (c : IdempotencyStore) {key key' : String} (hne : key' ≠ key) (now : Int)
    (body : SendBody) : (c.put key now body).ttl = c.ttl ∧
      (c.put key now body).entries.lookup key' = c.entries.lookup key' := by
  unfold IdempotencyStore.put
  split
  · exact ⟨rfl, rfl⟩
  · refine ⟨rfl, ?_⟩
    rw [List.lookup_cons, beq_eq_false_iff_ne.mpr hne]
    exact lookup_filter_of_ne c.entries hne

theorem lookup_put (c : IdempotencyStore) {key : String} (hkey : key ≠ "") (now : Int)
    (body : SendBody) : (c.put key now body).entries.lookup key = some (now, body) := by
  unfold IdempotencyStore.put
  rw [if_neg hkey, List.lookup_cons, beq_self_eq_true]

/-- A lookup under another key answers the same without a key. -/
theorem get_forget (c : IdempotencyStore) {key key' : String} (hne : key' ≠ key) (now : Int) :
    ((c.forget key).get key' now).2 = (c.get key' now).2 := by
  unfold IdempotencyStore.get forget
  dsimp only
  rw [lookup_filter_of_ne c.entries hne]
  split
  · rfl
  · split
    · rfl
    · split
      · rfl
      · rfl

end IdempotencyStore

section Calls

variable [Casing]

omit [Casing] in
theorem deriveIdempotencyKey_ne_empty {headerKey auditRef : Option String} {l2Id key : String}
    (h : deriveIdempotencyKey headerKey l2Id auditRef = some key) : key ≠ "" := by
  have hne : ∀ kind rest : String, 0 < kind.length → l2Id ++ kind ++ rest ≠ "" := by
    intro kind rest hkind heq
    have hlength := congrArg String.length heq
    rw [String.length_append, String.length_append, String.length_empty] at hlength
    omega
  unfold deriveIdempotencyKey at h
  split at h
  · obtain rfl := Option.some.inj h
    exact hne ":hdr:" _ (by decide)
  · split at h
    · obtain rfl := Option.some.inj h
      exact hne ":ref:" _ (by decide)
    · cases h

/-! ## The route -/

/-- The L2 and the payload of a call that is authenticated and well formed. -/
def SendCall.admitted (W : Wiring) (call : SendCall) : Option (String × SendRequest) :=
  match call.l2Id with
  | none => none
  | some l2Id =>
    if l2Id = "" ∨ '/' ∉ l2Id.toList then none
    else match verifyHmacSignature call.rawBody call.signature l2Id W.resolver with
      | some true => ((W.parse call.rawBody).bind validateSend).map fun payload => (l2Id, payload)
      | _ => none

theorem SendCall.admitted_of_verified {W : Wiring} {call : SendCall} {l2Id : String} {body : Json}
    {payload : SendRequest} (hl2 : call.l2Id = some l2Id) (hform : ¬ (l2Id = "" ∨ '/' ∉ l2Id.toList))
    (hverify : verifyHmacSignature call.rawBody call.signature l2Id W.resolver = some true)
    (hparse : W.parse call.rawBody = some body) (hvalid : validateSend body = some payload) :
    call.admitted W = some (l2Id, payload) := by
  unfold SendCall.admitted
  rw [hl2]
  dsimp only
  rw [if_neg hform, hverify]
  dsimp only
  rw [hparse, Option.bind_some, hvalid, Option.map_some]

/-- The key that a call is deduplicated by. -/
def SendCall.dedupKey (W : Wiring) (call : SendCall) : Option String :=
  (call.admitted W).bind fun r => deriveIdempotencyKey call.idempotencyKey r.1 r.2.auditRef

/-- A call that is not admitted is refused, whatever the service is. -/
theorem send_of_not_admitted {W : Wiring} {call : SendCall} (h : call.admitted W = none) :
    ∃ answer, answer.kept = none ∧ ∀ s, sendTransactional W s call = (s, answer) := by
  unfold SendCall.admitted at h
  unfold sendTransactional
  cases hl2 : call.l2Id with
  | none => exact ⟨.missingL2Id, rfl, fun _ => rfl⟩
  | some l2Id =>
    rw [hl2] at h
    dsimp only at h ⊢
    by_cases hempty : l2Id = ""
    · exact ⟨.missingL2Id, rfl, fun _ => if_pos hempty⟩
    · by_cases hslash : '/' ∉ l2Id.toList
      · exact ⟨.malformedL2Id, rfl, fun _ => by rw [if_neg hempty, if_pos hslash]⟩
      · rw [if_neg (by tauto)] at h
        simp only [if_neg hempty, if_neg hslash]
        cases hverify : verifyHmacSignature call.rawBody call.signature l2Id W.resolver with
        | none => exact ⟨.internalError, rfl, fun _ => rfl⟩
        | some valid =>
            cases valid with
            | false => exact ⟨.invalidSignature, rfl, fun _ => rfl⟩
            | true =>
                rw [hverify] at h
                rw [Option.map_eq_none_iff.mp h]
                exact ⟨.invalidBody, rfl, fun _ => rfl⟩

/-- A call that is admitted looks into the cache, if it has a key, and goes on. -/
theorem send_of_admitted {W : Wiring} {call : SendCall} {l2Id : String} {payload : SendRequest}
    (h : call.admitted W = some (l2Id, payload)) (s : Service) :
    sendTransactional W s call =
      match deriveIdempotencyKey call.idempotencyKey l2Id payload.auditRef with
      | none => dispatchSend s call none l2Id payload
      | some key =>
        match s.idempotency.get key call.gotAt with
        | (cache, some body) => ({ s with idempotency := cache }, .replay body)
        | (cache, none) =>
          dispatchSend { s with idempotency := cache } call (some key) l2Id payload := by
  unfold SendCall.admitted at h
  unfold sendTransactional
  cases hl2 : call.l2Id with
  | none =>
    rw [hl2] at h
    cases h
  | some l2Id' =>
    rw [hl2] at h
    dsimp only at h ⊢
    by_cases hshape : l2Id' = "" ∨ '/' ∉ l2Id'.toList
    · rw [if_pos hshape] at h
      cases h
    · rw [if_neg hshape] at h
      rw [not_or, not_not] at hshape
      simp only [if_neg hshape.1, not_not.mpr hshape.2, if_false]
      cases hverify : verifyHmacSignature call.rawBody call.signature l2Id' W.resolver with
      | none =>
        rw [hverify] at h
        cases h
      | some valid =>
        rw [hverify] at h
        cases valid with
        | false => cases h
        | true =>
          obtain ⟨payload', hpayload, heq⟩ := Option.map_eq_some_iff.mp h
          obtain ⟨rfl, rfl⟩ := Prod.mk.inj heq
          rw [hpayload] <;> rfl

/-! ## What a call keeps -/

/-- The rest of the route does not read the cache. -/
theorem dispatchSend_sameOutcome (s : Service) (cache cache' : IdempotencyStore) (call : SendCall)
    (dedupKey : Option String) (l2Id : String) (payload : SendRequest) :
    SameOutcome (dispatchSend { s with idempotency := cache } call dedupKey l2Id payload)
      (dispatchSend { s with idempotency := cache' } call dedupKey l2Id payload) := by
  unfold dispatchSend
  dsimp only
  split
  · cases checkSuppression s.suppressions payload.«to» with
    | some entry => cases dedupKey <;> exact ⟨rfl, rfl⟩
    | none =>
        cases call.ses with
        | none => exact ⟨rfl, rfl⟩
        | some messageId => cases dedupKey <;> exact ⟨rfl, rfl⟩
  · exact ⟨rfl, rfl⟩

theorem dispatchSend_ne_replay (s : Service) (call : SendCall) (dedupKey : Option String)
    (l2Id : String) (payload : SendRequest) (body : SendBody) :
    (dispatchSend s call dedupKey l2Id payload).2 ≠ .replay body := by
  unfold dispatchSend
  dsimp only
  split
  · split
    · exact SendAnswer.noConfusion
    · split
      · exact SendAnswer.noConfusion
      · exact SendAnswer.noConfusion
  · exact SendAnswer.noConfusion

/-- The rest of the route touches the cache only to keep a definitive answer under its key. -/
theorem dispatchSend_cache (s : Service) (call : SendCall) (key : String) (l2Id : String)
    (payload : SendRequest) :
    (dispatchSend s call (some key) l2Id payload).1.idempotency =
      match (dispatchSend s call (some key) l2Id payload).2.kept with
      | none => s.idempotency
      | some body => s.idempotency.put key call.putAt body := by
  unfold dispatchSend
  dsimp only
  split
  · split
    · rfl
    · split
      · rfl
      · rfl
  · rfl

/-- Only a recipient that is not suppressed is dispatched to, and a refusal names the reason. -/
theorem dispatchSend_kept {s : Service} {call : SendCall} {dedupKey : Option String} {l2Id : String}
    {payload : SendRequest} {body : SendBody}
    (h : (dispatchSend s call dedupKey l2Id payload).2.kept = some body) :
    (checkSuppression s.suppressions payload.«to» = none ∧ ∃ deliveryHandle sesMessageId,
        (dispatchSend s call dedupKey l2Id payload).2 = .accepted deliveryHandle sesMessageId) ∨
      (checkSuppression s.suppressions payload.«to» ≠ none ∧ ∃ reason,
        (dispatchSend s call dedupKey l2Id payload).2 = .suppressed reason) := by
  unfold dispatchSend at h ⊢
  dsimp only at h ⊢
  split at h
  · rename_i htenancy
    rw [if_pos htenancy]
    cases hcheck : checkSuppression s.suppressions payload.«to» with
    | some entry => exact .inr ⟨Option.some_ne_none _, _, rfl⟩
    | none =>
        rw [hcheck] at h
        dsimp only at h ⊢
        cases hses : call.ses with
        | none =>
            rw [hses] at h
            cases h
        | some messageId => exact .inl ⟨rfl, _, _, rfl⟩
  · cases h

/-- A call touches only the entry of its own key, and replaces it only when it is not fresh. -/
theorem send_live {W : Wiring} {s : Service} {call : SendCall} {key : String} {putAt now : Int}
    {body : SendBody} (hkey : key ≠ "") (hlive : s.idempotency.Live key putAt body now)
    (htime : call.gotAt ≤ now) :
    (sendTransactional W s call).1.idempotency.Live key putAt body now := by
  cases hadmitted : call.admitted W with
  | none =>
      obtain ⟨answer, -, hsend⟩ := send_of_not_admitted hadmitted
      rw [hsend]
      exact hlive
  | some r =>
      obtain ⟨l2Id, payload⟩ := r
      rw [send_of_admitted hadmitted]
      cases hderive : deriveIdempotencyKey call.idempotencyKey l2Id payload.auditRef with
      | none =>
          dsimp only
          have hcache : (dispatchSend s call none l2Id payload).1.idempotency = s.idempotency := by
            unfold dispatchSend
            dsimp only
            split
            · split
              · rfl
              · split <;> rfl
            · rfl
          rw [hcache]
          exact hlive
      | some key' =>
          dsimp only
          by_cases hsame : key' = key
          · subst hsame
            have hget := (show s.idempotency.Live key' putAt body call.gotAt from
              ⟨hlive.1, by have := hlive.2; omega⟩).get hkey
            rw [hget]
            exact hlive
          · obtain ⟨httl, hlookup⟩ :=
              s.idempotency.get_other (Ne.symm hsame) call.gotAt
            cases hget : s.idempotency.get key' call.gotAt with
            | mk cache cached =>
                rw [hget] at httl hlookup
                have hcache : cache.Live key putAt body now :=
                  ⟨hlookup.trans hlive.1, httl ▸ hlive.2⟩
                cases cached with
                | some body' => exact hcache
                | none =>
                    dsimp only
                    rw [dispatchSend_cache]
                    split
                    · exact hcache
                    · rename_i body' _
                      obtain ⟨httl', hlookup'⟩ :=
                        cache.put_other (Ne.symm hsame) call.putAt body'
                      exact ⟨hlookup'.trans hcache.1, httl' ▸ hcache.2⟩

/-- A definitive answer is kept under the key of its call. -/
theorem send_keeps {W : Wiring} {s : Service} {call : SendCall} {key : String} {body : SendBody}
    (hdedup : call.dedupKey W = some key)
    (hkept : (sendTransactional W s call).2.kept = some body) :
    (sendTransactional W s call).1.idempotency.entries.lookup key = some (call.putAt, body) ∧
      (sendTransactional W s call).1.idempotency.ttl = s.idempotency.ttl := by
  obtain ⟨⟨l2Id, payload⟩, hadmitted, hderive⟩ := Option.bind_eq_some_iff.mp hdedup
  rw [send_of_admitted hadmitted, hderive] at hkept ⊢
  dsimp only at hkept ⊢
  have hkey := deriveIdempotencyKey_ne_empty hderive
  cases hget : s.idempotency.get key call.gotAt with
  | mk cache cached =>
      have httl : cache.ttl = s.idempotency.ttl := by
        have h : (s.idempotency.get key call.gotAt).1.ttl = s.idempotency.ttl := by
          unfold IdempotencyStore.get
          split
          · rfl
          · split
            · rfl
            · split <;> rfl
        rw [hget] at h
        exact h
      rw [hget] at hkept
      cases cached with
      | some body' => cases hkept
      | none =>
          dsimp only at hkept ⊢
          rw [dispatchSend_cache, hkept]
          refine ⟨cache.lookup_put hkey call.putAt body, ?_⟩
          rw [← httl]
          dsimp only
          unfold IdempotencyStore.put
          rw [if_neg hkey]

/-! ## Repeats, and other requests -/

/-- What may become of a service until a time: calls are answered, and what is not the cache
changes at will. -/
inductive Between (W : Wiring) (now : Int) (s : Service) : Service → Prop
  | refl : Between W now s s
  | send {s' : Service} (call : SendCall) : Between W now s s' → call.gotAt ≤ now →
      Between W now s (sendTransactional W s' call).1
  | change {s' s'' : Service} : Between W now s s' → s''.idempotency = s'.idempotency →
      Between W now s s''

/-- **The run lemma.** Until its lifetime ends, a kept answer stays. -/
theorem Between.live {W : Wiring} {now putAt : Int} {s s' : Service} {key : String}
    {body : SendBody} (h : Between W now s s') (hkey : key ≠ "")
    (hlive : s.idempotency.Live key putAt body now) : s'.idempotency.Live key putAt body now := by
  induction h with
  | refl => exact hlive
  | send call _ htime ih => exact send_live hkey ih htime
  | change _ heq ih =>
      rw [heq]
      exact ih

/-- Two calls are one request of one L2. -/
structure SameRequest (call later : SendCall) : Prop where
  l2Id : later.l2Id = call.l2Id
  signature : later.signature = call.signature
  idempotencyKey : later.idempotencyKey = call.idempotencyKey
  rawBody : later.rawBody = call.rawBody

theorem SameRequest.admitted {W : Wiring} {call later : SendCall} (h : SameRequest call later) :
    later.admitted W = call.admitted W := by
  unfold SendCall.admitted
  rw [h.l2Id, h.signature, h.rawBody]

theorem SameRequest.dedupKey {W : Wiring} {call later : SendCall} (h : SameRequest call later) :
    later.dedupKey W = call.dedupKey W := by
  unfold SendCall.dedupKey
  rw [h.admitted, h.idempotencyKey]

/-- A call whose key is fresh is answered from the cache. -/
theorem send_replays {W : Wiring} {s : Service} {call : SendCall} {key : String} {putAt : Int}
    {body : SendBody} (hdedup : call.dedupKey W = some key)
    (hlive : s.idempotency.Live key putAt body call.gotAt) :
    sendTransactional W s call = (s, .replay body) := by
  obtain ⟨⟨l2Id, payload⟩, hadmitted, hderive⟩ := Option.bind_eq_some_iff.mp hdedup
  rw [send_of_admitted hadmitted, hderive]
  dsimp only
  rw [hlive.get (deriveIdempotencyKey_ne_empty hderive)]

/-- Without the kept answer a call goes on to be dispatched or refused. -/
theorem send_forgotten {W : Wiring} {s : Service} {call : SendCall} {key : String}
    (hdedup : call.dedupKey W = some key) (body : SendBody) :
    (sendTransactional W { s with idempotency := s.idempotency.forget key } call).2 ≠
      .replay body := by
  obtain ⟨⟨l2Id, payload⟩, hadmitted, hderive⟩ := Option.bind_eq_some_iff.mp hdedup
  rw [send_of_admitted hadmitted, hderive]
  dsimp only
  rw [IdempotencyStore.get_eq_none (IdempotencyStore.lookup_filter_self _ _)]
  exact dispatchSend_ne_replay _ _ _ _ _ body

/-- A call under another key, or under none, is answered as if the kept answer were not there. -/
theorem send_sameOutcome {W : Wiring} {s : Service} {call : SendCall} {key : String}
    (hdedup : call.dedupKey W ≠ some key) :
    SameOutcome (sendTransactional W s call)
      (sendTransactional W { s with idempotency := s.idempotency.forget key } call) := by
  cases hadmitted : call.admitted W with
  | none =>
      obtain ⟨answer, -, hsend⟩ := send_of_not_admitted hadmitted
      rw [hsend, hsend]
      exact ⟨rfl, rfl⟩
  | some r =>
      obtain ⟨l2Id, payload⟩ := r
      rw [send_of_admitted hadmitted, send_of_admitted hadmitted]
      cases hderive : deriveIdempotencyKey call.idempotencyKey l2Id payload.auditRef with
      | none => exact dispatchSend_sameOutcome s s.idempotency _ call none l2Id payload
      | some key' =>
          have hne : key' ≠ key := by
            rintro rfl
            refine hdedup ?_
            unfold SendCall.dedupKey
            rw [hadmitted]
            exact hderive
          have hcached := s.idempotency.get_forget hne call.gotAt
          dsimp only
          cases hget : s.idempotency.get key' call.gotAt with
          | mk cache cached =>
              cases hget' : (s.idempotency.forget key).get key' call.gotAt with
              | mk cache' cached' =>
                  rw [hget, hget'] at hcached
                  dsimp only at hcached
                  subst hcached
                  cases cached' with
                  | some body => exact ⟨rfl, rfl⟩
                  | none =>
                      exact dispatchSend_sameOutcome s cache cache' call (some key') l2Id payload

/-- The first answer is a dispatch where the recipient is not suppressed, and a refusal where it
is. -/
theorem send_kept {W : Wiring} {s : Service} {call : SendCall} {l2Id : String}
    {payload : SendRequest} {body : SendBody} (hadmitted : call.admitted W = some (l2Id, payload))
    (hkept : (sendTransactional W s call).2.kept = some body) :
    (checkSuppression s.suppressions payload.«to» = none ∧ ∃ deliveryHandle sesMessageId,
        (sendTransactional W s call).2 = .accepted deliveryHandle sesMessageId) ∨
      (checkSuppression s.suppressions payload.«to» ≠ none ∧ ∃ reason,
        (sendTransactional W s call).2 = .suppressed reason) := by
  rw [send_of_admitted hadmitted] at hkept ⊢
  cases hderive : deriveIdempotencyKey call.idempotencyKey l2Id payload.auditRef with
  | none =>
      rw [hderive] at hkept
      exact dispatchSend_kept hkept
  | some key =>
      rw [hderive] at hkept
      dsimp only at hkept ⊢
      cases hget : s.idempotency.get key call.gotAt with
      | mk cache cached =>
          rw [hget] at hkept
          cases cached with
          | some body' => cases hkept
          | none => exact dispatchSend_kept (s := { s with idempotency := cache }) hkept

omit [Casing] in
/-- A kept answer is sent as it was the first time exactly if it is a dispatch. -/
theorem response_replay_iff {answer : SendAnswer} {body : SendBody} (h : answer.kept = some body) :
    (SendAnswer.replay body).response = answer.response ↔ ∃ deliveryHandle sesMessageId,
      answer = .accepted deliveryHandle sesMessageId := by
  cases answer with
  | accepted deliveryHandle sesMessageId =>
      obtain rfl := Option.some.inj h
      exact iff_of_true rfl ⟨deliveryHandle, sesMessageId, rfl⟩
  | suppressed reason =>
      obtain rfl := Option.some.inj h
      refine iff_of_false (fun heq => ?_) fun ⟨_, _, heq⟩ => nomatch heq
      have hjson : (SendBody.blocked reason).json = detail (SendBody.blocked reason).json :=
        (Prod.mk.inj heq).2
      exact absurd (congrArg List.length (Json.obj.inj hjson)) (by simp)
  | _ => cases h

/-- **Idempotent sends.** A call with a key has been answered definitively, and the key is fresh. A
repeat of it is not dispatched, and gets the same response exactly if the recipient was not
suppressed. Another call, be it for another recipient or from another L2, is answered as if the kept
answer were not there exactly if its key is another one. -/
theorem send_idempotent_iff (W : Wiring) {s₀ s : Service} {call : SendCall} {l2Id key : String}
    {payload : SendRequest} {body : SendBody} {now : Int}
    (hadmitted : call.admitted W = some (l2Id, payload)) (hdedup : call.dedupKey W = some key)
    (hkept : (sendTransactional W s₀ call).2.kept = some body)
    (hfresh : now - call.putAt ≤ s₀.idempotency.ttl)
    (hbetween : Between W now (sendTransactional W s₀ call).1 s) :
    (∀ later, SameRequest call later → later.gotAt = now →
      (sendTransactional W s later).1.dispatched = s.dispatched ∧
      ((sendTransactional W s later).2.response = (sendTransactional W s₀ call).2.response ↔
        checkSuppression s₀.suppressions payload.«to» = none)) ∧
    (∀ other : SendCall, other.gotAt = now →
      (SameOutcome (sendTransactional W s other)
          (sendTransactional W { s with idempotency := s.idempotency.forget key } other) ↔
        other.dedupKey W ≠ some key)) := by
  have hkey : key ≠ "" := by
    obtain ⟨_, -, hderive⟩ := Option.bind_eq_some_iff.mp hdedup
    exact deriveIdempotencyKey_ne_empty hderive
  have hlive : s.idempotency.Live key call.putAt body now := by
    obtain ⟨hlookup, httl⟩ := send_keeps hdedup hkept
    exact hbetween.live hkey ⟨hlookup, httl ▸ hfresh⟩
  constructor
  · rintro later hsame rfl
    rw [send_replays (hsame.dedupKey.trans hdedup) hlive, response_replay_iff hkept]
    refine ⟨rfl, ?_⟩
    rcases send_kept hadmitted hkept with ⟨hfree, haccepted⟩ | ⟨hblocked, reason, hsuppressed⟩
    · exact iff_of_true haccepted hfree
    · refine iff_of_false ?_ hblocked
      rintro ⟨_, _, heq⟩
      rw [hsuppressed] at heq
      cases heq
  · rintro other rfl
    constructor
    · rintro ⟨hanswer, -⟩ hsame
      rw [send_replays hsame hlive] at hanswer
      exact send_forgotten hsame body hanswer.symm
    · exact send_sameOutcome

end Calls

/-! ### One key, sent twice

The L2 `acme/ops` writes to its users Bob and Eve. -/

/-- A hexadecimal digit is ASCII. -/
theorem hexDigit_ascii {d : Nat} (h : d < 16) : (hexDigit d).toNat < 128 := by
  interval_cases d <;> decide

/-- The digits of some bytes are ASCII. -/
theorem hex_ascii (bs : Bytes) : ∀ c ∈ hex bs, c.toNat < 128 := by
  induction bs with
  | nil => exact fun c hc => absurd hc List.not_mem_nil
  | cons b bs ih =>
      intro c hc
      unfold hex at hc
      rcases List.mem_cons.mp hc with rfl | hc
      · exact hexDigit_ascii (by have := b.toNat_lt; omega)
      rcases List.mem_cons.mp hc with rfl | hc
      · exact hexDigit_ascii (Nat.mod_lt _ (by decide))
      · exact ih c hc

/-- What an L2 has signed with its key is accepted. -/
theorem verify_computeSignature {resolver : String → Option String} {l2Id key : String}
    (h : resolver l2Id = some key) (body : Bytes) :
    verifyHmacSignature body (some (computeSignature key body)) l2Id resolver = some true := by
  have htext : (computeSignature key body).toList =
      "sha256=".toList ++ hex (hmacSha256 (utf8 key) body) := by
    unfold computeSignature
    rw [String.toList_append]
    exact congrArg _ String.toList_ofList
  unfold verifyHmacSignature
  dsimp only
  rw [htext, if_pos (List.isPrefixOf_iff_prefix.mpr (List.prefix_append _ _)), h]
  dsimp only
  rw [if_pos ?_, decide_eq_true rfl]
  refine List.all_eq_true.mpr fun c hc => decide_eq_true ?_
  have hscheme : ∀ c ∈ "sha256=".toList, c.toNat < 128 := forall_mem_of_all (by decide)
  rcases List.mem_append.mp hc with hc | hc
  · exact hscheme c hc
  · exact hex_ascii _ c hc

/-- A mail to a user. -/
def sampleMail (recipient : String) : Json := .obj [("from_persona", .str "notifications"),
  ("to", .str recipient), ("subject", .str "Hello"), ("text", .str "Hello."),
  ("category", .str "account_event")]

/-- The recipient of a body. -/
def recipientOf (rawBody : Bytes) : String :=
  if rawBody = [1] then "bob@acme.io" else "eve@acme.io"

def sampleWiring : Wiring where
  resolver l2Id := if l2Id = "acme/ops" then some "k" else none
  parse body := some (sampleMail (recipientOf body))

def sampleUsers : List UserRow :=
  [⟨1, some "bob@acme.io", "acme", "ops"⟩, ⟨2, some "eve@acme.io", "acme", "ops"⟩]

/-- A mail service with the users Bob and Eve, and with some suppressed addresses. -/
def sampleService (suppressions : Suppressions) : Service where
  users := sampleUsers
  invites := []
  suppressions
  idempotency := ⟨60000000, []⟩
  dispatched := []

/-- A call of the L2 with the header key `retry`. -/
def sampleCall (rawBody : Bytes) (at_ : Int) (handle : String) : SendCall where
  l2Id := some "acme/ops"
  signature := some (computeSignature "k" rawBody)
  idempotencyKey := some "retry"
  rawBody
  gotAt := at_
  putAt := at_
  ses := some (some "ses")
  handle

local instance sendCasing : Casing := asciiCasing

/-- What such a mail is read as. -/
def samplePayload (recipient : String) : SendRequest :=
  ⟨.notifications, recipient, "Hello", "Hello.", none, .accountEvent, none⟩

theorem validate_sampleMail {recipient : String} (hlength : 3 ≤ recipient.length)
    (hlength' : recipient.length ≤ 320) (hlower : lowerTo recipient = some recipient) :
    validateSend (sampleMail recipient) = some (samplePayload recipient) := by
  have hread : validateSend (sampleMail recipient) =
      if recipient.length < 3 ∨ 320 < recipient.length ∨ "Hello".length < 1 ∨
          998 < "Hello".length ∨ "Hello.".length < 1 ∨ (∃ ref ∈ (none : Option String),
            128 < ref.length) then none
      else (lowerTo recipient).bind fun recipient => some (samplePayload recipient) := rfl
  rw [hread, if_neg ?_, hlower]
  · rfl
  · have hsubject : "Hello".length = 5 := rfl
    have htext : "Hello.".length = 6 := rfl
    rintro (h | h | h | h | h | ⟨ref, h, -⟩)
    · omega
    · omega
    · omega
    · omega
    · omega
    · cases h

theorem sampleCall_admitted (rawBody : Bytes) (at_ : Int) (handle : String) :
    (sampleCall rawBody at_ handle).admitted sampleWiring =
      some ("acme/ops", samplePayload (recipientOf rawBody)) := by
  have hverify : verifyHmacSignature rawBody (some (computeSignature "k" rawBody)) "acme/ops"
      sampleWiring.resolver = some true := verify_computeSignature rfl rawBody
  have hvalid : validateSend (sampleMail (recipientOf rawBody)) =
      some (samplePayload (recipientOf rawBody)) := by
    unfold recipientOf
    split
    · exact validate_sampleMail (by decide) (by decide) (by decide +kernel)
    · exact validate_sampleMail (by decide) (by decide) (by decide +kernel)
  exact SendCall.admitted_of_verified rfl (by decide) hverify rfl hvalid

theorem derive_retry :
    deriveIdempotencyKey (some "retry") "acme/ops" none = some "acme/ops:hdr:retry" := by
  decide +kernel

theorem sampleCall_dedupKey (rawBody : Bytes) (at_ : Int) (handle : String) :
    (sampleCall rawBody at_ handle).dedupKey sampleWiring = some "acme/ops:hdr:retry" := by
  unfold SendCall.dedupKey
  rw [sampleCall_admitted, Option.bind_some]
  exact derive_retry

/-- The first call is dispatched, or refused as its recipient is suppressed. -/
theorem sampleCall_first (rawBody : Bytes) (handle : String) (suppressions : Suppressions) :
    (sendTransactional sampleWiring (sampleService suppressions) (sampleCall rawBody 0 handle)).2 =
      match checkSuppression suppressions (recipientOf rawBody) with
      | some entry => .suppressed entry.reason
      | none => .accepted handle (some "ses") := by
  have htenancy : enforceTenancy sampleUsers [] "acme" "ops" (recipientOf rawBody) .accountEvent =
      true := by
    unfold recipientOf
    split
    · decide +kernel
    · decide +kernel
  have hderive : deriveIdempotencyKey (sampleCall rawBody 0 handle).idempotencyKey "acme/ops"
      (samplePayload (recipientOf rawBody)).auditRef = some "acme/ops:hdr:retry" := derive_retry
  have hget : (sampleService suppressions).idempotency.get "acme/ops:hdr:retry" 0 =
      ((sampleService suppressions).idempotency, none) :=
    IdempotencyStore.get_eq_none rfl 0
  have hsplit : String.ofList ("acme/ops".toList.takeWhile (· ≠ '/')) = "acme" ∧
      String.ofList (("acme/ops".toList.dropWhile (· ≠ '/')).drop 1) = "ops" := by
    decide +kernel
  rw [send_of_admitted (sampleCall_admitted rawBody 0 handle), hderive]
  dsimp only
  rw [show (sampleCall rawBody 0 handle).gotAt = 0 from rfl, hget]
  dsimp only
  unfold dispatchSend
  dsimp only
  rw [hsplit.1, hsplit.2]
  have hfields : (samplePayload (recipientOf rawBody)).«to» = recipientOf rawBody ∧
      (samplePayload (recipientOf rawBody)).category = .accountEvent := ⟨rfl, rfl⟩
  have hservice : (sampleService suppressions).users = sampleUsers ∧
      (sampleService suppressions).invites = [] ∧
      (sampleService suppressions).suppressions = suppressions := ⟨rfl, rfl, rfl⟩
  rw [hfields.1, hfields.2, hservice.1, hservice.2.1, hservice.2.2, if_pos htenancy]
  cases checkSuppression suppressions (recipientOf rawBody) with
  | some entry => rfl
  | none => rfl

/-- The mail to Bob is sent for the first time. -/
def firstSend (suppressions : Suppressions) : Service × SendAnswer :=
  sendTransactional sampleWiring (sampleService suppressions) (sampleCall [1] 0 "tx_1")

/-- Bob is not suppressed. He gets one mail, and both answers are the same. -/
theorem send_idempotent_sample :
    (sendTransactional sampleWiring (firstSend Table.empty).1
        (sampleCall [1] 1 "tx_2")).1.dispatched = (firstSend Table.empty).1.dispatched ∧
      (sendTransactional sampleWiring (firstSend Table.empty).1
        (sampleCall [1] 1 "tx_2")).2.response = (firstSend Table.empty).2.response := by
  have hanswer : (firstSend Table.empty).2 = .accepted "tx_1" (some "ses") :=
    sampleCall_first [1] "tx_1" Table.empty
  have hkept : (sendTransactional sampleWiring (sampleService Table.empty)
      (sampleCall [1] 0 "tx_1")).2.kept = some (.passed "tx_1" (some "ses")) :=
    congrArg SendAnswer.kept hanswer
  have hfresh : 1 - (sampleCall [1] 0 "tx_1").putAt ≤
      (sampleService Table.empty).idempotency.ttl := by
    show (1 : Int) - 0 ≤ 60000000
    omega
  unfold firstSend
  have h := (send_idempotent_iff sampleWiring (sampleCall_admitted [1] 0 "tx_1")
    (sampleCall_dedupKey [1] 0 "tx_1") hkept hfresh .refl).1 (sampleCall [1] 1 "tx_2")
      ⟨rfl, rfl, rfl, rfl⟩ rfl
  exact ⟨h.1, h.2.mpr (Table.find_empty _)⟩

/-- A key is replayed within its lifetime, for whoever derives it. -/
theorem sampleCall_replays {suppressions : Suppressions} {body : SendBody}
    (hkept : (firstSend suppressions).2.kept = some body) (rawBody : Bytes) :
    (sendTransactional sampleWiring (firstSend suppressions).1 (sampleCall rawBody 1 "tx_2")).2 =
      .replay body := by
  unfold firstSend at hkept ⊢
  obtain ⟨hlookup, httl⟩ := send_keeps (sampleCall_dedupKey [1] 0 "tx_1") hkept
  have hfresh : 1 - (sampleCall [1] 0 "tx_1").putAt ≤
      (sampleService suppressions).idempotency.ttl := by
    show (1 : Int) - 0 ≤ 60000000
    omega
  rw [← httl] at hfresh
  have hlive : IdempotencyStore.Live _ _ _ _ 1 := ⟨hlookup, hfresh⟩
  rw [send_replays (sampleCall_dedupKey rawBody 1 "tx_2") hlive]

/-- Bob's address is suppressed: the refusal is wrapped, and its repeat is not. And where it is not
suppressed, the mail to Eve with the same header is answered with the handle of Bob's, and is not
sent. -/
theorem repeat_differs :
    ((firstSend (Table.single ⟨"bob@acme.io", "complaint", "t", .null⟩)).2.response =
        (409, detail (SendBody.blocked "complaint").json) ∧
      (sendTransactional sampleWiring
          (firstSend (Table.single ⟨"bob@acme.io", "complaint", "t", .null⟩)).1
          (sampleCall [1] 1 "tx_2")).2.response = (409, (SendBody.blocked "complaint").json) ∧
      detail (SendBody.blocked "complaint").json ≠ (SendBody.blocked "complaint").json) ∧
    (sendTransactional sampleWiring (firstSend Table.empty).1 (sampleCall [2] 1 "tx_2")).2 =
      .replay (.passed "tx_1" (some "ses")) := by
  have hblocked : (firstSend (Table.single ⟨"bob@acme.io", "complaint", "t", .null⟩)).2 =
      .suppressed "complaint" := by
    have hcheck : checkSuppression (Table.single ⟨"bob@acme.io", "complaint", "t", .null⟩)
        (recipientOf [1]) = some ⟨"bob@acme.io", "complaint", "t", .null⟩ :=
      Table.find_single _
    refine (sampleCall_first [1] "tx_1" _).trans ?_
    rw [hcheck]
  have haccepted : (firstSend Table.empty).2 = .accepted "tx_1" (some "ses") :=
    sampleCall_first [1] "tx_1" Table.empty
  refine ⟨⟨?_, ?_, ?_⟩, ?_⟩
  · rw [hblocked]
    rfl
  · rw [sampleCall_replays (congrArg SendAnswer.kept hblocked)]
    rfl
  · intro heq
    exact absurd (congrArg List.length (Json.obj.inj heq)) (by decide)
  · exact sampleCall_replays (congrArg SendAnswer.kept haccepted) [2]

end EighthLayer.Transactional
