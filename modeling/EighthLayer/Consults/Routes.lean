import EighthLayer.Aigrp.Peers
import EighthLayer.Consults.Manual
import EighthLayer.Consults.Store

/-!
# EighthLayer.Consults.Routes

The consult routes as programs over the two tables: opening a consult, replying to it,
closing it, and the three routes that mirror what another L2 has forwarded.

A request sees the rest of its L2 (users, peers, peerings, the time) as a `Site`; another
request may see another one. What it posts to another L2 is a statement of its program.
-/

namespace EighthLayer.Consults

open Lib Aigrp

/-! ## What a request finds -/

/-- A row of `users`, as far as it is read. -/
structure UserRow where
  enterpriseId : Option String
  groupId : Option String
deriving DecidableEq

/-- What a request finds at the L2 that serves it, the consults apart. -/
structure Site where
  env : Environ
  /-- The Enterprise root secret, if it can be read. -/
  root : Option Bytes
  /-- `get_user`. -/
  users : String → Option UserRow
  peers : PeerTable
  peerings : PeeringTable
  now : Clock
  /-- `sign_forward_request` under this L2's id; `none` without a key. -/
  sign : Payload → Option String
  /-- Whether a post is answered, and with a status below 400. -/
  reaches : Forward → Bool

/-- Why a consult request is refused, with the values the detail quotes. -/
inductive ConsultRefusal where
  | userNotFound
  | malformedTarget (toL2Id : String)
  | unknownTarget (toL2Id : String)
  | noActivePeering (toL2Id targetEnterprise : String)
  | threadNotFound
  | notParticipant
  | threadClosed
  | peerNotInTable (otherL2Id : String)
  | noRouting
  | peerUnreachable
  | threadMetadataMissing
  | personaNotFound
  | peer (r : Refusal)
  | xEnterprise (r : XRefusal)
  /-- An exception that is not an `HTTPException`. -/
  | internalError
deriving DecidableEq

/-- The HTTP status of a refusal. -/
def ConsultRefusal.status : ConsultRefusal → Nat
  | userNotFound => 401
  | malformedTarget _ | threadMetadataMissing => 400
  | unknownTarget _ | threadNotFound | personaNotFound => 404
  | noActivePeering .. | notParticipant => 403
  | threadClosed => 409
  | peerNotInTable _ | peerUnreachable => 502
  | noRouting => 503
  | peer r => r.status
  | xEnterprise r => r.status
  | internalError => 500

/-- How a route answers. -/
inductive ConsultResponse where
  | thread (t : Thread)
  | message (m : Message)
  /-- `{"status": "mirrored", …}`, with the policy that a peering applied. -/
  | mirrored (threadId : String) (policy : Option String)
  | refused (r : ConsultRefusal)
deriving DecidableEq

/-- A consult route at work. -/
abbrev ConsultProg := Prog ConsultStmt.Answer ConsultResponse

/-- `_self_identity`: the L2 id and the persona of a user. -/
def selfIdentity (site : Site) (username : String) : Option (String × String) :=
  (site.users username).map fun user =>
    (pyOr user.enterpriseId "default-enterprise" ++ "/" ++ pyOr user.groupId "default-group",
      username)

/-- `_resolve_peer`. -/
def resolvePeer (t : PeerTable) (l2Id : String) : Option PeerRow :=
  match enterpriseOf l2Id with
  | none => none
  | some ent => (t.list ent).find? fun row => row.l2Id = l2Id

theorem resolvePeer_l2Id {t : PeerTable} {l2Id : String} {row : PeerRow}
    (h : resolvePeer t l2Id = some row) : row.l2Id = l2Id := by
  unfold resolvePeer at h
  split at h
  · cases h
  · simpa using List.find?_some h

/-- `_redact_for_policy`. -/
def redactForPolicy (content policy : String) : String :=
  if policy = "mutual_log_required" then content else "<redacted: " ++ policy ++ ">"

/-! ## Posting to another L2 -/

/-- `_bearer_for_target`. -/
def bearerForTarget (site : Site) (target : String) : String :=
  let legacy := site.env.get "CQ_AIGRP_PEER_KEY" ""
  if pairSecretApplies site.env target then
    (deriveBearerToken site.env site.root target).getD legacy
  else legacy

/-- `_build_forward_headers`. -/
def buildForwardHeaders (site : Site) (target : String) (payload : Payload) : Request where
  headers := [("authorization", "Bearer " ++ bearerForTarget site target),
      (forwarderHeader, selfL2Id site.env)] ++
    ((site.sign payload).map fun sig => (signatureHeader, sig)).toList

/-- `_forward_request` and `_forward_message`: they differ in the path. -/
def forwardTo (site : Site) (target : PeerRow) (payload : Payload) (next : ConsultProg) :
    ConsultProg :=
  if strip (bearerForTarget site target.l2Id) = "" then .done (.refused .noRouting)
  else
    let f : Forward := ⟨target.l2Id, buildForwardHeaders site target.l2Id payload, payload⟩
    .call (.post f) fun _ =>
      if site.reaches f then next else .done (.refused .peerUnreachable)

/-- `_x_enterprise_forward_request`, sent. -/
def forwardAcross (site : Site) (peering : DirectoryPeering) (target : L2Endpoint)
    (payload : Payload) (next : ConsultProg) : ConsultProg :=
  match xEnterpriseForwardRequest site.env peering target (site.sign payload), target.l2Id with
  | some (_, request), some l2Id =>
      let f : Forward := ⟨l2Id, request, payload⟩
      .call (.post f) fun _ =>
        if site.reaches f then next else .done (.refused .peerUnreachable)
  | _, _ => .done (.refused .internalError)

/-! ## Opening a consult -/

/-- `ConsultRequest`, as validated. -/
structure ConsultRequest where
  toL2Id : String
  toPersona : String
  subject : Option String
  content : String
  toL2Id_ne : toL2Id ≠ ""
  toPersona_ne : toPersona ≠ ""
  subject_le : ∀ s, subject = some s → s.length ≤ 200
  content_ne : content ≠ ""
  content_le : content.length ≤ 4096

/-- The ids that `uuid4` has given to a thread and its opening message. -/
structure OpeningIds where
  threadId : String
  messageId : String
deriving DecidableEq

/-- How a consult reaches its other side. -/
inductive Routing where
  | sameL2
  | sibling (peer : PeerRow)
  | xEnterprise (peering : DirectoryPeering) (target : L2Endpoint)

/-- `target_logging_policy`. -/
def Routing.policy : Routing → String
  | sameL2 | sibling _ => "mutual_log_required"
  | xEnterprise peering _ => peering.consultLoggingPolicy

/-- The routing that `request_consult` chooses. -/
def routeTo (site : Site) (selfId toL2Id : String) : Except ConsultRefusal Routing :=
  if toL2Id = selfId then .ok .sameL2
  else match enterpriseOf toL2Id with
    | none => .error (.malformedTarget toL2Id)
    | some targetEnterprise =>
      if targetEnterprise = enterprise site.env then
        match resolvePeer site.peers toL2Id with
        | none => .error (.unknownTarget toL2Id)
        | some peer => .ok (.sibling peer)
      else match resolveXEnterpriseTarget site.peerings toL2Id (enterprise site.env)
          site.now.isoformat with
        | none => .error (.noActivePeering toL2Id targetEnterprise)
        | some (peering, target) => .ok (.xEnterprise peering target)

section Opening

variable (site : Site) (selfId selfPersona : String) (ids : OpeningIds) (body : ConsultRequest)

/-- The thread that a request opens. -/
def ConsultRequest.head : ThreadHead where
  threadId := ids.threadId
  fromL2Id := selfId
  fromPersona := selfPersona
  toL2Id := body.toL2Id
  toPersona := body.toPersona
  subject := body.subject
  createdAt := site.now.isoformat
  subject_le := by
    intro s hs
    have := body.subject_le s hs
    omega

/-- Its opening message, as stored under a policy. -/
def ConsultRequest.message (policy : String) : Message where
  messageId := ids.messageId
  threadId := ids.threadId
  fromL2Id := selfId
  fromPersona := selfPersona
  content := redactForPolicy body.content policy
  createdAt := site.now.isoformat

/-- `forward_payload`. -/
def ConsultRequest.payload : ForwardRequestBody where
  threadId := ids.threadId
  messageId := ids.messageId
  fromL2Id := selfId
  fromPersona := selfPersona
  toL2Id := body.toL2Id
  toPersona := body.toPersona
  subject := body.subject
  content := body.content
  createdAt := site.now.isoformat
  toPersona_ne := body.toPersona_ne
  subject_le := by
    intro s hs
    have := body.subject_le s hs
    omega
  content_ne := body.content_ne
  content_le := body.content_le

/-- The end of `request_consult` and of `close_consult`: the row is read again. -/
def answerThread (threadId : String) : ConsultProg :=
  .call (.getConsult threadId) fun (row : Option Thread) =>
    match row with
    | none => .done (.refused .internalError)
    | some t => .done (.thread t)

/-- What `request_consult` does once its rows are written. -/
def announceOpening (routing : Routing) : ConsultProg :=
  let payload := body.payload site selfId selfPersona ids
  match routing with
  | .sameL2 => answerThread ids.threadId
  | .sibling peer => forwardTo site peer (.request payload) (answerThread ids.threadId)
  | .xEnterprise peering target =>
      forwardAcross site peering target (.xEnterpriseRequest payload) (answerThread ids.threadId)

/-- The writes of `request_consult`, and what follows them. -/
def openConsult (routing : Routing) : ConsultProg :=
  .call (.createConsult (body.head site selfId selfPersona ids)) fun (created : Bool) =>
    if created then
      if routing.policy = "no_log_consults" then
        announceOpening site selfId selfPersona ids body routing
      else
        .call (.appendConsultMessage (body.message site selfId selfPersona ids routing.policy))
          fun (appended : ConsultStore.Appended) =>
            match appended with
            | .inserted => announceOpening site selfId selfPersona ids body routing
            | _ => .done (.refused .internalError)
    else .done (.refused .internalError)

end Opening

/-- `request_consult`. -/
def requestConsult (site : Site) (username : String) (ids : OpeningIds) (body : ConsultRequest) :
    ConsultProg :=
  match selfIdentity site username with
  | none => .done (.refused .userNotFound)
  | some (selfId, selfPersona) =>
    match routeTo site selfId body.toL2Id with
    | .error r => .done (.refused r)
    | .ok routing => openConsult site selfId selfPersona ids body routing

/-! ## Replying -/

/-- `ConsultMessage`, as validated, and the id that `uuid4` has given it. -/
structure Reply where
  messageId : String
  content : String
  content_ne : content ≠ ""
  content_le : content.length ≤ 4096

section Replying

variable (site : Site) (selfId selfPersona : String) (t : Thread) (reply : Reply)

/-- The row that a reply adds to a thread. -/
def Reply.message (threadId : String) : Message where
  messageId := reply.messageId
  threadId
  fromL2Id := selfId
  fromPersona := selfPersona
  content := reply.content
  createdAt := site.now.isoformat

/-- What a reply posts to the other side. -/
def Reply.payload (threadId : String) : ForwardMessageBody where
  threadId
  messageId := reply.messageId
  fromL2Id := selfId
  fromPersona := selfPersona
  content := reply.content
  createdAt := site.now.isoformat
  threadSubject := t.subject
  threadToL2Id := some t.toL2Id
  threadToPersona := some t.toPersona
  threadFromL2Id := some t.fromL2Id
  threadFromPersona := some t.fromPersona
  threadCreatedAt := some t.createdAt
  content_ne := reply.content_ne
  content_le := reply.content_le
  threadSubject_le := t.subject_le

/-- `other_l2_id`: the side that is not the caller's. -/
def otherL2Id : String :=
  if t.fromL2Id = selfId ∧ t.fromPersona = selfPersona then t.toL2Id else t.fromL2Id

/-- The peer that a reply is forwarded to, if it goes to another L2. -/
def replyTarget : Except ConsultRefusal (Option PeerRow) :=
  let other := otherL2Id selfId selfPersona t
  if other = selfId then .ok none
  else match resolvePeer site.peers other with
    | none => .error (.peerNotInTable other)
    | some peer => .ok (some peer)

/-- The write of `post_consult_message`, and what follows it. -/
def appendReply (threadId : String) (target : Option PeerRow) : ConsultProg :=
  let m := reply.message site selfId selfPersona threadId
  .call (.appendConsultMessage m) fun (appended : ConsultStore.Appended) =>
    match appended with
    | .inserted =>
        match target with
        | none => .done (.message m)
        | some peer =>
            forwardTo site peer (.message (reply.payload site selfId selfPersona t threadId))
              (.done (.message m))
    | _ => .done (.refused .internalError)

end Replying

/-- `post_consult_message`. -/
def postConsultMessage (site : Site) (username threadId : String) (reply : Reply) : ConsultProg :=
  match selfIdentity site username with
  | none => .done (.refused .userNotFound)
  | some (selfId, selfPersona) =>
    .call (.getConsult threadId) fun (thread : Option Thread) =>
      match thread with
      | none => .done (.refused .threadNotFound)
      | some t =>
        if ¬ t.Participant selfId selfPersona then .done (.refused .notParticipant)
        else if t.status = .closed then .done (.refused .threadClosed)
        else match replyTarget site selfId selfPersona t with
          | .error r => .done (.refused r)
          | .ok target => appendReply site selfId selfPersona t reply threadId target

/-! ## Closing -/

/-- `close_consult`, with the `resolution_summary` of its body. -/
def closeConsult (site : Site) (username threadId : String) (resolutionSummary : Option String) :
    ConsultProg :=
  match selfIdentity site username with
  | none => .done (.refused .userNotFound)
  | some (selfId, selfPersona) =>
    .call (.getConsult threadId) fun (thread : Option Thread) =>
      match thread with
      | none => .done (.refused .threadNotFound)
      | some t =>
        if ¬ t.Participant selfId selfPersona then .done (.refused .notParticipant)
        else
          .call (.closeConsult threadId site.now.isoformat resolutionSummary) fun _ =>
            answerThread threadId

/-! ## Mirroring -/

/-- `append_consult_message` in the routes that mirror: a message that is there already is
no failure. -/
def appendMirrored (m : Message) (answer : ConsultResponse) : ConsultProg :=
  .call (.appendConsultMessage m) fun (appended : ConsultStore.Appended) =>
    match appended with
    | .inserted | .uniqueFailed => .done answer
    | .foreignKeyFailed => .done (.refused .internalError)

/-- What a mirroring route writes: the thread, when it is missing and its head is known,
and the message, when one is kept. -/
structure Mirroring where
  threadId : String
  head : Option ThreadHead
  message : Option Message
  /-- `logging_policy_applied`, where the response has it. -/
  policy : Option String
  head_threadId : ∀ h, head = some h → h.threadId = threadId
  message_threadId : ∀ m, message = some m → m.threadId = threadId

/-- The response to a mirroring. -/
def Mirroring.answer (w : Mirroring) : ConsultResponse := .mirrored w.threadId w.policy

/-- The last part of a mirroring. -/
def Mirroring.append (w : Mirroring) : ConsultProg :=
  match w.message with
  | none => .done w.answer
  | some m => appendMirrored m w.answer

/-- A mirroring that has found its thread missing. -/
def Mirroring.create (w : Mirroring) (head : ThreadHead) : ConsultProg :=
  .call (.createConsult head) fun (created : Bool) =>
    if created then w.append else .done (.refused .internalError)

/-- The part that the three mirroring routes share: the thread is looked for, created when
it is missing, and the message is appended. -/
def Mirroring.prog (w : Mirroring) : ConsultProg :=
  .call (.getConsult w.threadId) fun (existing : Option Thread) =>
    match existing with
    | some _ => w.append
    | none =>
        match w.head with
        | none => .done (.refused .threadMetadataMissing)
        | some head => w.create head

/-- The thread that a forwarded request is about. -/
def ForwardRequestBody.head (body : ForwardRequestBody) : ThreadHead where
  threadId := body.threadId
  fromL2Id := body.fromL2Id
  fromPersona := body.fromPersona
  toL2Id := body.toL2Id
  toPersona := body.toPersona
  subject := body.subject
  createdAt := body.createdAt
  subject_le := body.subject_le

/-- The message of a forwarded request, with the content that is stored for it. -/
def ForwardRequestBody.message (body : ForwardRequestBody) (content : String) : Message where
  messageId := body.messageId
  threadId := body.threadId
  fromL2Id := body.fromL2Id
  fromPersona := body.fromPersona
  content
  createdAt := body.createdAt

/-- The thread that the metadata of a forwarded message describe, when they are complete. -/
def ForwardMessageBody.head (body : ForwardMessageBody) : Option ThreadHead :=
  match body.threadToL2Id, body.threadToPersona, body.threadFromL2Id, body.threadFromPersona,
    body.threadCreatedAt with
  | some toL2Id, some toPersona, some fromL2Id, some fromPersona, some createdAt =>
      if toL2Id ≠ "" ∧ toPersona ≠ "" ∧ fromL2Id ≠ "" ∧ fromPersona ≠ "" ∧ createdAt ≠ "" then
        some
          { threadId := body.threadId
            fromL2Id
            fromPersona
            toL2Id
            toPersona
            subject := body.threadSubject
            createdAt
            subject_le := body.threadSubject_le }
      else none
  | _, _, _, _, _ => none

theorem ForwardMessageBody.head_threadId {body : ForwardMessageBody} {h : ThreadHead}
    (hhead : body.head = some h) : h.threadId = body.threadId := by
  unfold head at hhead
  split at hhead
  · split at hhead
    · cases hhead
      rfl
    · cases hhead
  · cases hhead

/-- The message of a forwarded message. -/
def ForwardMessageBody.message (body : ForwardMessageBody) : Message where
  messageId := body.messageId
  threadId := body.threadId
  fromL2Id := body.fromL2Id
  fromPersona := body.fromPersona
  content := body.content
  createdAt := body.createdAt

/-- `body.model_dump(mode="json")`. -/
def ForwardRequestBody.json (body : ForwardRequestBody) : Json :=
  .obj [("thread_id", .str body.threadId), ("message_id", .str body.messageId),
    ("from_l2_id", .str body.fromL2Id), ("from_persona", .str body.fromPersona),
    ("to_l2_id", .str body.toL2Id), ("to_persona", .str body.toPersona),
    ("subject", (body.subject.map Json.str).getD .null), ("content", .str body.content),
    ("created_at", .str body.createdAt)]

@[inherit_doc ForwardRequestBody.json]
def ForwardMessageBody.json (body : ForwardMessageBody) : Json :=
  let text (o : Option String) : Json := (o.map Json.str).getD .null
  .obj [("thread_id", .str body.threadId), ("message_id", .str body.messageId),
    ("from_l2_id", .str body.fromL2Id), ("from_persona", .str body.fromPersona),
    ("content", .str body.content), ("created_at", .str body.createdAt),
    ("thread_subject", text body.threadSubject), ("thread_to_l2_id", text body.threadToL2Id),
    ("thread_to_persona", text body.threadToPersona),
    ("thread_from_l2_id", text body.threadFromL2Id),
    ("thread_from_persona", text body.threadFromPersona),
    ("thread_created_at", text body.threadCreatedAt)]

section Mirrors

variable (sch : SignatureScheme) (canonicalize : Canonicalize) (site : Site) (request : Request)

/-- The gates of the two routes for siblings: the peer key, and the forwarder that the
body claims. -/
def requireSibling (claimed : String) (json : Json) : Except ConsultRefusal Unit :=
  match requirePeerKey site.env site.root request with
  | .error r => .error (.peer r)
  | .ok _ =>
    match requireForwarderIdentity sch site.env canonicalize site.peers.pubkey true request claimed
        json with
    | .error r => .error (.peer r)
    | .ok _ => .ok ()

/-- What `forward_consult_request` mirrors. -/
def ForwardRequestBody.mirroring (body : ForwardRequestBody) : Mirroring where
  threadId := body.threadId
  head := some body.head
  message := some (body.message body.content)
  policy := none
  head_threadId := by
    rintro _ ⟨⟩
    rfl
  message_threadId := by
    rintro _ ⟨⟩
    rfl

/-- What `forward_consult_message` mirrors. -/
def ForwardMessageBody.mirroring (body : ForwardMessageBody) : Mirroring where
  threadId := body.threadId
  head := body.head
  message := some body.message
  policy := none
  head_threadId := fun _ hhead => ForwardMessageBody.head_threadId hhead
  message_threadId := by
    rintro _ ⟨⟩
    rfl

/-- What `x_enterprise_forward_consult_request` mirrors under a policy. -/
def ForwardRequestBody.xMirroring (body : ForwardRequestBody) (policy : String) : Mirroring where
  threadId := body.threadId
  head := some body.head
  message :=
    if policy = "no_log_consults" then none
    else some (body.message (redactForPolicy body.content policy))
  policy := some policy
  head_threadId := by
    rintro _ ⟨⟩
    rfl
  message_threadId := by
    intro m hm
    split at hm
    · cases hm
    · cases hm
      rfl

/-- Whether the addressee is a user of this L2. -/
def personaKnown (persona : String) : Bool :=
  match site.users persona with
  | none => false
  | some user =>
      pyOr user.enterpriseId "default-enterprise" = enterprise site.env &&
        pyOr user.groupId "default-group" = group site.env

/-- What `forward_consult_request` lets in. -/
def admitRequest (body : ForwardRequestBody) : Except ConsultRefusal Mirroring :=
  match requireSibling sch canonicalize site request body.fromL2Id body.json with
  | .error r => .error r
  | .ok () => .ok body.mirroring

/-- What `forward_consult_message` lets in. -/
def admitMessage (body : ForwardMessageBody) : Except ConsultRefusal Mirroring :=
  match requireSibling sch canonicalize site request body.fromL2Id body.json with
  | .error r => .error r
  | .ok () => .ok body.mirroring

/-- What `x_enterprise_forward_consult_request` lets in. -/
def admitXEnterprise (body : ForwardRequestBody) : Except ConsultRefusal Mirroring :=
  match requireXEnterpriseAuth site.env site.peerings site.now.isoformat request body with
  | .error r => .error (.xEnterprise r)
  | .ok peering =>
      if personaKnown site body.toPersona then .ok (body.xMirroring peering.consultLoggingPolicy)
      else .error .personaNotFound

/-- A mirroring route, once it has decided. -/
def mirror (admitted : Except ConsultRefusal Mirroring) : ConsultProg :=
  match admitted with
  | .error r => .done (.refused r)
  | .ok w => w.prog

/-- `forward_consult_request`. -/
def forwardConsultRequest (body : ForwardRequestBody) : ConsultProg :=
  mirror (admitRequest sch canonicalize site request body)

/-- `forward_consult_message`. -/
def forwardConsultMessage (body : ForwardMessageBody) : ConsultProg :=
  mirror (admitMessage sch canonicalize site request body)

/-- `x_enterprise_forward_consult_request`. -/
def xEnterpriseForwardConsultRequest (body : ForwardRequestBody) : ConsultProg :=
  mirror (admitXEnterprise site request body)

end Mirrors

/-! ## The routes together -/

/-- A request to one of the routes. -/
inductive ConsultCall where
  | request (username : String) (ids : OpeningIds) (body : ConsultRequest)
  | reply (username threadId : String) (reply : Reply)
  | close (username threadId : String) (resolutionSummary : Option String)
  | forwardRequest (request : Request) (body : ForwardRequestBody)
  | forwardMessage (request : Request) (body : ForwardMessageBody)
  | xEnterpriseForward (request : Request) (body : ForwardRequestBody)

/-- The forwarder that a forward declares. -/
def ConsultCall.forwarder : ConsultCall → Option String
  | request .. | reply .. | close .. => none
  | forwardRequest r _ | forwardMessage r _ | xEnterpriseForward r _ =>
      some (strip (r.header forwarderHeader))

section Calls

variable (sch : SignatureScheme) (canonicalize : Canonicalize) (site : Site)

/-- What a forward is let in to mirror. -/
def ConsultCall.admitted : ConsultCall → Option Mirroring
  | request .. | reply .. | close .. => none
  | forwardRequest r body => (admitRequest sch canonicalize site r body).toOption
  | forwardMessage r body => (admitMessage sch canonicalize site r body).toOption
  | xEnterpriseForward r body => (admitXEnterprise site r body).toOption

/-- The route of a call. -/
def ConsultCall.prog : ConsultCall → ConsultProg
  | request username ids body => requestConsult site username ids body
  | reply username threadId answer => postConsultMessage site username threadId answer
  | close username threadId resolutionSummary =>
      closeConsult site username threadId resolutionSummary
  | forwardRequest r body => forwardConsultRequest sch canonicalize site r body
  | forwardMessage r body => forwardConsultMessage sch canonicalize site r body
  | xEnterpriseForward r body => xEnterpriseForwardConsultRequest site r body

/-- The programs of some requests, each at the L2 as it finds it. -/
def consultProgs (calls : List (Site × ConsultCall)) : List ConsultProg :=
  calls.map fun p => p.2.prog sch canonicalize p.1

end Calls

section Admission

variable {sch : SignatureScheme} {canonicalize : Canonicalize} {site : Site}

theorem requireSibling_ok {request : Request} {claimed : String} {json : Json}
    (h : requireSibling sch canonicalize site request claimed json = .ok ()) :
    claimed = strip (request.header forwarderHeader) := by
  unfold requireSibling at h
  split at h
  · cases h
  · split at h
    · cases h
    · rename_i declared hidentity
      obtain ⟨hclaimed, hdeclared, -⟩ := requireForwarderIdentity_ok sch hidentity
      exact hclaimed.symm.trans hdeclared

theorem requireSibling_enterprise {request : Request} {claimed : String} {json : Json}
    (h : requireSibling sch canonicalize site request claimed json = .ok ()) :
    enterpriseOf claimed = some (enterprise site.env) := by
  unfold requireSibling at h
  split at h
  · cases h
  · split at h
    · cases h
    · rename_i declared hidentity
      exact requireForwarderIdentity_enterprise sch hidentity

theorem admitRequest_ok {request : Request} {body : ForwardRequestBody} {w : Mirroring}
    (h : admitRequest sch canonicalize site request body = .ok w) :
    w = body.mirroring ∧ body.fromL2Id = strip (request.header forwarderHeader) ∧
      enterpriseOf body.fromL2Id = some (enterprise site.env) := by
  unfold admitRequest at h
  split at h
  · cases h
  · rename_i hok
    cases h
    exact ⟨rfl, requireSibling_ok hok, requireSibling_enterprise hok⟩

theorem admitMessage_ok {request : Request} {body : ForwardMessageBody} {w : Mirroring}
    (h : admitMessage sch canonicalize site request body = .ok w) :
    w = body.mirroring ∧ body.fromL2Id = strip (request.header forwarderHeader) ∧
      enterpriseOf body.fromL2Id = some (enterprise site.env) := by
  unfold admitMessage at h
  split at h
  · cases h
  · rename_i hok
    cases h
    exact ⟨rfl, requireSibling_ok hok, requireSibling_enterprise hok⟩

theorem admitXEnterprise_ok {request : Request} {body : ForwardRequestBody} {w : Mirroring}
    (h : admitXEnterprise site request body = .ok w) :
    ∃ peering, requireXEnterpriseAuth site.env site.peerings site.now.isoformat request body =
        .ok peering ∧ personaKnown site body.toPersona = true ∧
      w = body.xMirroring peering.consultLoggingPolicy := by
  unfold admitXEnterprise at h
  split at h
  · cases h
  · rename_i peering hok
    split at h
    · rename_i hpersona
      cases h
      exact ⟨peering, hok, hpersona, rfl⟩
    · cases h

theorem ForwardRequestBody.xMirroring_message {body : ForwardRequestBody} {policy : String}
    {m : Message} (h : (body.xMirroring policy).message = some m) :
    policy ≠ "no_log_consults" ∧ m = body.message (redactForPolicy body.content policy) := by
  unfold xMirroring at h
  dsimp only at h
  split at h
  · cases h
  · rename_i hpolicy
    cases h
    exact ⟨hpolicy, rfl⟩

theorem toOption_eq_some {ε α : Type} {x : Except ε α} {a : α} (h : x.toOption = some a) :
    x = .ok a := by
  cases x with
  | error e => cases h
  | ok b =>
      cases h
      rfl

/-- **Authentication.** A forward that is let in stores a message of the L2 that it has
been authenticated as. -/
theorem ConsultCall.admitted_sender {call : ConsultCall} {w : Mirroring} {m : Message}
    (hw : call.admitted sch canonicalize site = some w) (hm : w.message = some m) :
    call.forwarder = some m.fromL2Id := by
  cases call with
  | request | reply | close => cases hw
  | forwardRequest r body =>
      obtain ⟨rfl, hfrom, -⟩ := admitRequest_ok (toOption_eq_some hw)
      cases hm
      exact congrArg some hfrom.symm
  | forwardMessage r body =>
      obtain ⟨rfl, hfrom, -⟩ := admitMessage_ok (toOption_eq_some hw)
      cases hm
      exact congrArg some hfrom.symm
  | xEnterpriseForward r body =>
      obtain ⟨peering, hok, -, rfl⟩ := admitXEnterprise_ok (toOption_eq_some hw)
      obtain ⟨-, rfl⟩ := ForwardRequestBody.xMirroring_message hm
      obtain ⟨hfrom, -⟩ := requireXEnterpriseAuth_ok_iff.mp hok
      exact congrArg some hfrom.symm

/-- A forward is refused, or mirrors what it is let in to. -/
theorem ConsultCall.prog_of_forwarder {call : ConsultCall} (h : call.forwarder ≠ none) :
    (call.admitted sch canonicalize site = none ∧
        ∃ r, call.prog sch canonicalize site = .done (.refused r)) ∨
      ∃ w, call.admitted sch canonicalize site = some w ∧
        call.prog sch canonicalize site = w.prog := by
  have hmirror : ∀ admitted : Except ConsultRefusal Mirroring,
      (admitted.toOption = none ∧ ∃ r, mirror admitted = .done (.refused r)) ∨
        ∃ w, admitted.toOption = some w ∧ mirror admitted = w.prog := by
    intro admitted
    cases admitted with
    | error r => exact .inl ⟨rfl, r, rfl⟩
    | ok w => exact .inr ⟨w, rfl, rfl⟩
  cases call with
  | request | reply | close => exact absurd rfl h
  | forwardRequest request body => exact hmirror _
  | forwardMessage request body => exact hmirror _
  | xEnterpriseForward request body => exact hmirror _

theorem ConsultCall.prog_of_admitted {call : ConsultCall} {w : Mirroring}
    (h : call.admitted sch canonicalize site = some w) :
    call.prog sch canonicalize site = w.prog := by
  have hne : call.forwarder ≠ none := by
    intro hnone
    cases call with
    | request | reply | close => cases h
    | forwardRequest | forwardMessage | xEnterpriseForward => cases hnone
  rcases ConsultCall.prog_of_forwarder hne with ⟨hnone, -⟩ | ⟨w', hw', hprog⟩
  · cases h.symm.trans hnone
  · cases h.symm.trans hw'
    exact hprog

end Admission

/-! ## L2s for closed examples -/

/-- The environment of a group of acme's, with the shared peer key. -/
def acmeEnviron (group : String) : Environ where
  lookup name :=
    [("CQ_ENTERPRISE", "acme"), ("CQ_GROUP", group), ("CQ_AIGRP_PEER_KEY", "key")].lookup name

/-- The L2 of a group of acme's, all of whose users belong to it. -/
def acmeSite (group : String) (peers : PeerTable) : Site where
  env := acmeEnviron group
  root := none
  users _ := some ⟨some "acme", some group⟩
  peers
  peerings := .empty
  now := oneOClock
  sign _ := none
  reaches _ := true

/-- No peers. -/
def noPeers : PeerTable := ⟨[], List.nodup_nil⟩

/-- The headers of a forward by a sibling. -/
def siblingHeaders (l2Id : String) : Request where
  headers := [("authorization", "Bearer key"), (forwarderHeader, l2Id)]

theorem messageFrom_content : "Weekly." ≠ "" := by decide
theorem messageFrom_length : "Weekly.".length ≤ 4096 := by decide
theorem messageFrom_subject : ∀ s : String, none = some s → s.length ≤ 512 := nofun

/-- A message that a sibling forwards, without metadata of its thread. -/
def messageFrom (fromL2Id fromPersona messageId : String) : ForwardMessageBody where
  threadId := "th_1"
  messageId
  fromL2Id
  fromPersona
  content := "Weekly."
  createdAt := "2026-06-01T12:30:00+00:00"
  threadSubject := none
  threadToL2Id := none
  threadToPersona := none
  threadFromL2Id := none
  threadFromPersona := none
  threadCreatedAt := none
  content_ne := messageFrom_content
  content_le := messageFrom_length
  threadSubject_le := messageFrom_subject

end EighthLayer.Consults
