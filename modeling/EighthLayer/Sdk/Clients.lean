import EighthLayer.Lib.Interleave
import EighthLayer.Sdk.FlagWire
import EighthLayer.Sdk.LocalStore

/-!
# EighthLayer.Sdk.Clients

Clients of the two SDKs that share one local store and one remote API: `client.go`, `remote.go`
and `client.py`. A call reads and writes the local store and sends requests, each in a step of
its own, and other clients may come in between.

What becomes of a request, and which statement of a transaction a fault strikes, is an input of
the call that makes it. The remote keeps which local unit a proposal was about (`origin`), which
no request says and nothing here reads: the server gives its units ids of its own.
-/

namespace EighthLayer.Sdk

open Lib
open Knowledge (Floats Casing FlagReason Tier)

/-- What a flag in a document says. -/
def FlagDocument.content (f : FlagDocument) : FlagContent :=
  ⟨utf8 f.reason, optionalBytes f.detail, optionalBytes f.duplicateOf⟩

/-! ## Requests -/

/-- What becomes of a request. -/
inductive Outcome where
  /-- It does not reach the server. -/
  | unreachable
  /-- The server changes nothing and answers with this status. -/
  | refused (status : Nat) (error : 400 ≤ status)
  /-- The server serves it and answers 2xx; a unit it creates has this id. -/
  | accepted (serverId : Bytes)
  /-- The server serves it, and its answer is lost. -/
  | replyLost (serverId : Bytes)

/-- What the client hears. A 2xx is taken for success whatever its body says. -/
inductive Heard where
  | nothing
  | status (status : Nat)
  | success
deriving DecidableEq

def Outcome.heard : Outcome → Heard
  | unreachable | replyLost _ => .nothing
  | refused status _ => .status status
  | accepted _ => .success

/-- The id under which the server has served a request, if it has. -/
def Outcome.served : Outcome → Option Bytes
  | unreachable | refused _ _ => none
  | accepted serverId | replyLost serverId => some serverId

/-- A unit of the remote: the local unit that was proposed, the id the server gave it, the request
it came with, and what has been confirmed and flagged there. -/
structure RemoteUnit where
  origin : Bytes
  id : Bytes
  body : Json
  confirmations : Nat
  flags : List FlagContent

/-- The local store and the remote. -/
structure Shared where
  store : LocalDb
  remote : List RemoteUnit

def Shared.empty : Shared := ⟨.empty, []⟩

/-- A confirmation on the server. -/
def RemoteUnit.confirm (u : RemoteUnit) : RemoteUnit :=
  { u with confirmations := u.confirmations + 1 }

/-- A flag on the server, which reads the reason alone. -/
def RemoteUnit.flag (body : Json) (u : RemoteUnit) : RemoteUnit :=
  match flagRequest body with
  | none => u
  | some reason => { u with flags := u.flags ++ [⟨utf8 reason.value, [], []⟩] }

/-- A request of a client. -/
inductive Request where
  | propose (origin : Bytes) (body : Json)
  | confirm (id : Bytes)
  | flag (id : Bytes) (body : Json)

/-- The units of the remote after a request is served. -/
def Request.serve (remote : List RemoteUnit) (serverId : Bytes) : Request → List RemoteUnit
  | propose origin body => remote ++ [⟨origin, serverId, body, 1, []⟩]
  | confirm id => remote.map fun u => if u.id = id then u.confirm else u
  | flag id body => remote.map fun u => if u.id = id then u.flag body else u

/-! ## Steps -/

/-- What an update adds to a unit. -/
inductive Mark where
  | confirmation
  | flag (content : FlagContent)
deriving DecidableEq

/-- A step of a call. A write names the mark that it is to add, if any. -/
inductive Stmt (F : Type) where
  | select (id : Bytes)
  | selectAll
  | write (op : LocalOp F) (mark : Option Mark) (faults : Nat → Bool)
  | send (request : Request) (outcome : Outcome)

/-- What a step is answered: data, the error of a write, or what is heard. -/
abbrev Stmt.Answer {F : Type} : Stmt F → Type
  | .select _ => Option Json
  | .selectAll => List Json
  | .write _ _ _ => Option LocalError
  | .send _ _ => Heard

/-- What a client is answered. -/
inductive ClientAnswer where
  /-- A unit, with a `FallbackError` or without. -/
  | returned (fallback : Bool)
  /-- How many units were pushed, and which are left with a warning. -/
  | drained (pushed : Nat) (warnings : List Bytes)
  /-- Any other error. -/
  | raised
deriving DecidableEq

abbrev ClientProg (F : Type) := Prog (Stmt.Answer (F := F)) ClientAnswer

section Exec

variable {F : Type} [JsonFloats F] [Go.Strings] [Casing]

/-- A step, done. -/
def Stmt.exec : (q : Stmt F) → Shared → q.Answer × Shared
  | .select id, s => ((s.store.units.find id).map UnitRow.data, s)
  | .selectAll, s => (s.store.units.rows.map UnitRow.data, s)
  | .write op _ faults, s =>
      let r := LocalStep.exec ⟨op, faults⟩ s.store
      (r.1, { s with store := r.2 })
  | .send request outcome, s =>
      (outcome.heard,
        match outcome.served with
        | none => s
        | some serverId => { s with remote := request.serve s.remote serverId })

instance : Database Shared (Stmt.Answer (F := F)) := ⟨Stmt.exec⟩

end Exec

/-! ## What the calls share -/

section Shared

variable {F U : Type}

/-- A unit is inserted, and returned if that did not fail. -/
def insertUnit (insert : LocalOp F) (faults : Nat → Bool) (fallback : Bool) : ClientProg F :=
  .call (.write insert none faults) fun
    | none => .done (.returned fallback)
    | some _ => .done .raised

/-- A unit is proposed to the remote, if there is one, and inserted where the remote cannot be
reached or refuses with a status on which the client falls back. -/
def proposeOrInsert (id : Bytes) (body : Json) (insert : LocalOp F) (fallsBack : Nat → Bool)
    (remote : Option Outcome) (faults : Nat → Bool) : ClientProg F :=
  match remote with
  | none => insertUnit insert faults false
  | some outcome =>
      .call (.send (.propose id body) outcome) fun
        | .success => .done (.returned false)
        | .nothing => insertUnit insert faults true
        | .status status =>
            if fallsBack status = true then insertUnit insert faults true else .done .raised

/-- A unit is read, changed and written back. -/
def changeStored (id : Bytes) (read : Json → Option U) (change : U → Option U)
    (update : U → LocalOp F) (mark : Mark) (faults : Nat → Bool) (rest : ClientProg F) :
    ClientProg F :=
  .call (.select id) fun
    | none => .done .raised
    | some data =>
      match (read data).bind change with
      | none => .done .raised
      | some changed =>
          .call (.write (update changed) (some mark) faults) fun
            | none => rest
            | some _ => .done .raised

/-- A unit of the remote is confirmed or flagged there. -/
def changeRemote (request : Request) (remote : Option Outcome) : ClientProg F :=
  match remote with
  | none => .done .raised
  | some outcome =>
      .call (.send request outcome) fun
        | .success => .done (.returned false)
        | .nothing | .status _ => .done .raised

/-- Whatever is heard of a request, the unit is returned. -/
def forward (request : Request) (remote : Option Outcome) : ClientProg F :=
  match remote with
  | none => .done (.returned false)
  | some outcome => .call (.send request outcome) fun _ => .done (.returned false)

/-- How an SDK drains: what it pushes of a unit, what it deletes, and whether it goes on when it
cannot delete. -/
structure Drainer (F U : Type) where
  unitId : U → Bytes
  isLocal : U → Bool
  proposeBody : U → Json
  delete : U → LocalOp F
  goesOn : Bool

/-- The loop of a drain from the `n`-th unit on: each local unit is proposed to the remote and
deleted when the remote has taken it. What may end the loop is asked before each unit. -/
def Drainer.loop (D : Drainer F U) (outcomes : Nat → Outcome) (faults : Nat → Nat → Bool)
    (expired : Nat → Bool) : Nat → List U → Nat → List Bytes → ClientProg F
  | _, [], pushed, warnings => .done (.drained pushed warnings)
  | n, unit :: units, pushed, warnings =>
      if expired n = true then .done (.drained pushed warnings)
      else if D.isLocal unit = true then
        .call (.send (.propose (D.unitId unit) (D.proposeBody unit)) (outcomes n)) fun
          | .success =>
              .call (.write (D.delete unit) none (faults n)) fun
                | none => D.loop outcomes faults expired (n + 1) units (pushed + 1) warnings
                | some _ =>
                    if D.goesOn = true then
                      D.loop outcomes faults expired (n + 1) units pushed
                        (warnings ++ [D.unitId unit])
                    else .done .raised
          | .nothing | .status _ =>
              D.loop outcomes faults expired (n + 1) units pushed (warnings ++ [D.unitId unit])
      else D.loop outcomes faults expired (n + 1) units pushed warnings

/-- A drain: the units are read at once, and then pushed one by one. -/
def Drainer.drain (D : Drainer F U) (read : Json → Option U) (hasRemote : Bool)
    (outcomes : Nat → Outcome) (faults : Nat → Nat → Bool) (expired : Nat → Bool) :
    ClientProg F :=
  if hasRemote = true then
    .call .selectAll fun rows =>
      match rows.mapM read with
      | none => .done .raised
      | some units => D.loop outcomes faults expired 0 units 0 []
  else .done .raised

end Shared

/-! ## The Go client -/

namespace Go

variable {F : Type}

/-- The body of `remoteClient.propose`; the keys of its maps are sorted. -/
def proposeBody (ku : KnowledgeUnit F) : Json :=
  .obj
    [("context", .obj
        [("frameworks", .arr ((ku.context.frameworks.getD []).map text)),
          ("languages", .arr ((ku.context.languages.getD []).map text)),
          ("pattern", text ku.context.pattern)]),
      ("created_by", text ku.createdBy),
      ("domains", slice text ku.domains),
      ("insight", .obj
        [("action", text ku.insight.action), ("detail", text ku.insight.detail),
          ("summary", text ku.insight.summary)])]

/-- `Tier.IsRemote`. -/
def isRemote (tier : Text) : Bool := tier = utf8 "private" || tier = utf8 "public"

/-- `Propose` falls back on 401, 403 and every 5xx. -/
def fallsBack (status : Nat) : Bool := status = 401 || status = 403 || 500 ≤ status

variable [Floats F] [JsonFloats F]

/-- `Client.Propose`. -/
def propose (params : ProposeParams) (uuid : Bytes) (now : Timestamp) (remote : Option Outcome)
    (faults : Nat → Bool) : ClientProg F :=
  let ku : KnowledgeUnit F := proposed params uuid now
  proposeOrInsert ku.id (proposeBody ku) (.goInsert ku) fallsBack remote faults

/-- `Client.Confirm`. -/
def confirm (unitId tier : Text) (now : Timestamp) (remote : Option Outcome)
    (faults : Nat → Bool) : ClientProg F :=
  if isRemote tier = true then changeRemote (.confirm unitId) remote
  else
    changeStored unitId KnowledgeUnit.unmarshal
      (fun (stored : KnowledgeUnit F) => some (applyConfirmation stored now)) .goUpdate
      .confirmation faults (.done (.returned false))

/-- The flag that `applyFlag` appends, as it stands in the document of the unit. -/
def flagMark (reason detail duplicateOf : Text) (now : Timestamp) : Mark :=
  .flag (Flag.document ⟨reason, some now, detail, duplicateOf⟩).content

/-- `Client.Flag`. -/
def flag (unitId tier reason detail duplicateOf : Text) (now : Timestamp)
    (remote : Option Outcome) (faults : Nat → Bool) : ClientProg F :=
  if flagAccepted reason duplicateOf = true then
    if isRemote tier = true then
      changeRemote (.flag unitId (flagBody reason detail duplicateOf)) remote
    else
      changeStored unitId KnowledgeUnit.unmarshal
        (fun (stored : KnowledgeUnit F) => some (applyFlag stored reason detail duplicateOf now))
        .goUpdate (flagMark reason detail duplicateOf now) faults (.done (.returned false))
  else .done .raised

/-- How Go drains. -/
def drainer : Drainer F (KnowledgeUnit F) where
  unitId ku := ku.id
  isLocal ku := ku.tier = utf8 "local"
  proposeBody := proposeBody
  delete ku := .goDelete ku.id
  goesOn := true

/-- `Client.Drain`; its context may have expired. -/
def drain (hasRemote : Bool) (outcomes : Nat → Outcome) (faults : Nat → Nat → Bool)
    (expired : Nat → Bool) : ClientProg F :=
  drainer.drain KnowledgeUnit.unmarshal hasRemote outcomes faults expired

end Go

/-! ## The Python client -/

namespace Py

variable {F : Type}

/-- The body of `_remote_propose`. -/
def proposeBody (unit : KnowledgeUnit F) : Json :=
  .obj
    [("domains", .arr (unit.domains.map Json.str)), ("insight", dumpInsight unit.insight),
      ("context", dumpContext unit.context), ("created_by", .str unit.createdBy)]

/-- `propose` falls back on 401, 403 and 5xx. -/
def fallsBack (status : Nat) : Bool :=
  status = 401 || status = 403 || (500 ≤ status && status < 600)

/-- The body of `_remote_flag`. -/
def flagBody (reason : FlagReason) : Json := .obj [("reason", .str reason.value)]

variable [Floats F] [JsonFloats F]

/-- `Client.propose`. -/
def propose (domains : List String) (insight : Knowledge.Insight) (context : Knowledge.Context)
    (createdBy : String) (uuid : Bytes) (now : Datetime) (remote : Option Outcome)
    (faults : Nat → Bool) : ClientProg F :=
  match createKnowledgeUnit domains insight context createdBy uuid now with
  | none => .done .raised
  | some (unit : KnowledgeUnit F) =>
      proposeOrInsert (utf8 unit.id) (proposeBody unit) (.pyInsert unit) fallsBack remote faults

/-- `Client.confirm`; a local unit is confirmed at the remote too, whatever becomes of that. -/
def confirm (unitId : String) (tier : Tier) (now : Datetime) (remote : Option Outcome)
    (faults : Nat → Bool) : ClientProg F :=
  if tier = .local then
    changeStored (utf8 unitId) (KnowledgeUnit.modelValidateJson now)
      (fun (unit : KnowledgeUnit F) => some (applyConfirmation unit now)) .pyUpdate
      .confirmation faults (forward (.confirm (utf8 unitId)) remote)
  else changeRemote (.confirm (utf8 unitId)) remote

/-- `Client.flag`. -/
def flag (unitId : String) (reason : FlagReason) (tier : Tier) (now : Datetime)
    (remote : Option Outcome) (faults : Nat → Bool) : ClientProg F :=
  if tier = .local then
    changeStored (utf8 unitId) (KnowledgeUnit.modelValidateJson now)
      (fun (unit : KnowledgeUnit F) => applyFlag unit reason now) .pyUpdate
      (.flag ⟨utf8 reason.value, [], []⟩) faults
      (forward (.flag (utf8 unitId) (flagBody reason)) remote)
  else changeRemote (.flag (utf8 unitId) (flagBody reason)) remote

/-- How Python drains: a unit that cannot be deleted ends it. -/
def drainer : Drainer F (KnowledgeUnit F) where
  unitId unit := utf8 unit.id
  isLocal unit := unit.tier = .local
  proposeBody := proposeBody
  delete unit := .pyDelete unit.id
  goesOn := false

/-- `Client.drain`. -/
def drain (now : Datetime) (hasRemote : Bool) (outcomes : Nat → Outcome)
    (faults : Nat → Nat → Bool) : ClientProg F :=
  drainer.drain (KnowledgeUnit.modelValidateJson now) hasRemote outcomes faults fun _ => false

end Py

/-! ## Calls -/

/-- A call of a client, with what becomes of its requests and its writes. No remote API is
configured where `remote` is `none`. -/
inductive Call where
  | goPropose (params : Go.ProposeParams) (uuid : Bytes) (now : Timestamp)
      (remote : Option Outcome) (faults : Nat → Bool)
  | goConfirm (unitId tier : Go.Text) (now : Timestamp) (remote : Option Outcome)
      (faults : Nat → Bool)
  | goFlag (unitId tier reason detail duplicateOf : Go.Text) (now : Timestamp)
      (remote : Option Outcome) (faults : Nat → Bool)
  | goDrain (hasRemote : Bool) (outcomes : Nat → Outcome) (faults : Nat → Nat → Bool)
      (expired : Nat → Bool)
  | pyPropose (domains : List String) (insight : Knowledge.Insight)
      (context : Knowledge.Context) (createdBy : String) (uuid : Bytes) (now : Py.Datetime)
      (remote : Option Outcome) (faults : Nat → Bool)
  | pyConfirm (unitId : String) (tier : Tier) (now : Py.Datetime) (remote : Option Outcome)
      (faults : Nat → Bool)
  | pyFlag (unitId : String) (reason : FlagReason) (tier : Tier) (now : Py.Datetime)
      (remote : Option Outcome) (faults : Nat → Bool)
  | pyDrain (now : Py.Datetime) (hasRemote : Bool) (outcomes : Nat → Outcome)
      (faults : Nat → Nat → Bool)

/-- The statements and requests of a call. -/
def Call.prog {F : Type} [Floats F] [JsonFloats F] : Call → ClientProg F
  | goPropose params uuid now remote faults => Go.propose params uuid now remote faults
  | goConfirm unitId tier now remote faults => Go.confirm unitId tier now remote faults
  | goFlag unitId tier reason detail duplicateOf now remote faults =>
      Go.flag unitId tier reason detail duplicateOf now remote faults
  | goDrain hasRemote outcomes faults expired => Go.drain hasRemote outcomes faults expired
  | pyPropose domains insight context createdBy uuid now remote faults =>
      Py.propose domains insight context createdBy uuid now remote faults
  | pyConfirm unitId tier now remote faults => Py.confirm unitId tier now remote faults
  | pyFlag unitId reason tier now remote faults => Py.flag unitId reason tier now remote faults
  | pyDrain now hasRemote outcomes faults => Py.drain now hasRemote outcomes faults

/-- The id of the unit that a call proposes. -/
def Call.proposes : Call → Option Bytes
  | goPropose _ uuid _ _ _ | pyPropose _ _ _ _ uuid _ _ _ => some (Go.generateId uuid)
  | _ => none

/-- The call is a drain. -/
def Call.drains : Call → Bool
  | goDrain _ _ _ _ | pyDrain _ _ _ _ => true
  | _ => false

/-- The calls of the clients, before any of them has begun, on two empty stores. -/
def clients {F : Type} [Floats F] [JsonFloats F] (calls : List Call) :
    Config Shared (Stmt.Answer (F := F)) ClientAnswer :=
  .start .empty (calls.map Call.prog)

end EighthLayer.Sdk
