import EighthLayer.Aigrp.Identity
import Mathlib.Data.List.Nodup

/-!
# EighthLayer.Aigrp.Peers

The peer table (`aigrp_peers`) and the operations that write it: `/aigrp/hello`,
`/aigrp/announce`, the bootstrap against a seed peer and the signature poll.
-/

namespace EighthLayer.Aigrp

open Lib

/-! ## The table -/

/-- A row of `aigrp_peers`. -/
structure PeerRow where
  l2Id : String
  enterprise : String
  group : String
  endpointUrl : String
  embeddingCentroid : Option Bytes
  domainBloom : Option Bytes
  kuCount : Int
  domainCount : Int
  embeddingModel : Option String
  firstSeenAt : String
  lastSeenAt : String
  lastSignatureAt : Option String
  publicKeyEd25519 : Option String
deriving DecidableEq

/-- The table; `l2_id` is its primary key. -/
structure PeerTable where
  rows : List PeerRow
  nodup : (rows.map PeerRow.l2Id).Nodup

/-- The row of an L2. -/
def PeerTable.get (t : PeerTable) (l2Id : String) : Option PeerRow :=
  t.rows.find? fun r => r.l2Id = l2Id

/-- `get_aigrp_peer_pubkey`. -/
def PeerTable.pubkey (t : PeerTable) (l2Id : String) : Option String :=
  (t.get l2Id).bind PeerRow.publicKeyEd25519

/-- `list_aigrp_peers`. -/
def PeerTable.list (t : PeerTable) (enterprise : String) : List PeerRow :=
  (t.rows.filter fun r => r.enterprise = enterprise).mergeSort
    fun a b => b.lastSeenAt ≤ a.lastSeenAt

/-- The arguments of `upsert_aigrp_peer`, and the time it reads. -/
structure PeerWrite where
  l2Id : String
  enterprise : String
  group : String
  endpointUrl : String
  embeddingCentroid : Option Bytes
  domainBloom : Option Bytes
  kuCount : Int
  domainCount : Int
  embeddingModel : Option String
  signatureReceived : Bool
  publicKeyEd25519 : Option String
  now : String

namespace PeerWrite

/-- The row the `INSERT` makes. -/
def insert (w : PeerWrite) : PeerRow where
  l2Id := w.l2Id
  enterprise := w.enterprise
  group := w.group
  endpointUrl := w.endpointUrl
  embeddingCentroid := w.embeddingCentroid
  domainBloom := w.domainBloom
  kuCount := w.kuCount
  domainCount := w.domainCount
  embeddingModel := w.embeddingModel
  firstSeenAt := w.now
  lastSeenAt := w.now
  lastSignatureAt := if w.signatureReceived then some w.now else none
  publicKeyEd25519 := w.publicKeyEd25519

/-- The `UPDATE` of the columns: all of them with a signature, else the cached
signature stays. -/
def updateColumns (w : PeerWrite) (r : PeerRow) : PeerRow :=
  if w.signatureReceived then
    { r with
      enterprise := w.enterprise, group := w.group, endpointUrl := w.endpointUrl,
      embeddingCentroid := w.embeddingCentroid, domainBloom := w.domainBloom,
      kuCount := w.kuCount, domainCount := w.domainCount, embeddingModel := w.embeddingModel,
      lastSeenAt := w.now, lastSignatureAt := some w.now }
  else
    { r with
      enterprise := w.enterprise, group := w.group, endpointUrl := w.endpointUrl,
      lastSeenAt := w.now }

/-- Both `UPDATE`s: the key is written only when one is given. -/
def update (w : PeerWrite) (r : PeerRow) : PeerRow :=
  match w.publicKeyEd25519 with
  | some pk => { w.updateColumns r with publicKeyEd25519 := some pk }
  | none => w.updateColumns r

/-- What an upsert leaves in the row it names. -/
def apply (w : PeerWrite) : Option PeerRow → PeerRow
  | none => w.insert
  | some r => w.update r

@[simp] theorem insert_l2Id (w : PeerWrite) : w.insert.l2Id = w.l2Id := rfl

@[simp] theorem update_l2Id (w : PeerWrite) (r : PeerRow) : (w.update r).l2Id = r.l2Id := by
  unfold update updateColumns
  split <;> split <;> rfl

/-- Every write leaves its own endpoint. -/
theorem apply_endpointUrl (w : PeerWrite) (o : Option PeerRow) :
    (w.apply o).endpointUrl = w.endpointUrl := by
  unfold apply update updateColumns insert
  split
  · rfl
  · split <;> split <;> rfl

/-- A write leaves its own key, or without one the key that was there. -/
theorem apply_publicKey (w : PeerWrite) (o : Option PeerRow) :
    (w.apply o).publicKeyEd25519 = w.publicKeyEd25519.or (o.bind PeerRow.publicKeyEd25519) := by
  cases o with
  | none => simp only [apply, insert, Option.bind_none, Option.or_none]
  | some r =>
      unfold apply update updateColumns
      cases w.publicKeyEd25519 with
      | some pk => rfl
      | none =>
          dsimp only
          split <;> rfl

/-- A signature writes its own filter, whether the row is new or not. -/
theorem apply_domainBloom {w : PeerWrite} (h : w.signatureReceived = true) (o : Option PeerRow) :
    (w.apply o).domainBloom = w.domainBloom := by
  cases o with
  | none => rfl
  | some r =>
      unfold apply update updateColumns
      cases w.publicKeyEd25519 with
      | none => simp only [if_pos h]
      | some pk => simp only [if_pos h]

end PeerWrite

theorem map_update_l2Id (rows : List PeerRow) (w : PeerWrite) :
    (rows.map fun r => if r.l2Id = w.l2Id then w.update r else r).map PeerRow.l2Id =
      rows.map PeerRow.l2Id := by
  rw [List.map_map]
  refine List.map_congr_left fun r _ => ?_
  rw [Function.comp_apply]
  split
  · exact w.update_l2Id r
  · rfl

/-- `upsert_aigrp_peer`: insert the row, or update it where it exists. -/
def PeerTable.upsert (t : PeerTable) (w : PeerWrite) : PeerTable :=
  if h : w.l2Id ∈ t.rows.map PeerRow.l2Id then
    { rows := t.rows.map fun r => if r.l2Id = w.l2Id then w.update r else r
      nodup := by rw [map_update_l2Id]; exact t.nodup }
  else
    { rows := t.rows ++ [w.insert]
      nodup := by
        rw [List.map_append, List.map_singleton, List.nodup_append]
        refine ⟨t.nodup, List.nodup_singleton _, fun a ha b hb => ?_⟩
        rw [List.mem_singleton.mp hb]
        rintro rfl
        exact h ha }

theorem PeerTable.get_eq_none_iff {t : PeerTable} {x : String} :
    t.get x = none ↔ x ∉ t.rows.map PeerRow.l2Id := by
  simp only [PeerTable.get, List.find?_eq_none, List.mem_map, not_exists, not_and,
    decide_eq_true_eq]

/-- **Upsert.** It writes the row it names and no other. -/
theorem PeerTable.get_upsert (t : PeerTable) (w : PeerWrite) (x : String) :
    (t.upsert w).get x = if w.l2Id = x then some (w.apply (t.get x)) else t.get x := by
  unfold PeerTable.upsert
  split
  · next h =>
      simp only [PeerTable.get, List.find?_map]
      have hkeys : ((fun r : PeerRow => decide (r.l2Id = x)) ∘
          fun r => if r.l2Id = w.l2Id then w.update r else r) =
          fun r => decide (r.l2Id = x) := by
        funext r
        rw [Function.comp_apply]
        split <;> simp
      rw [hkeys]
      cases hget : t.rows.find? fun r => r.l2Id = x with
      | none =>
          have hx : x ∉ t.rows.map PeerRow.l2Id := PeerTable.get_eq_none_iff.mp hget
          have hne : w.l2Id ≠ x := by
            rintro rfl
            exact hx h
          simp only [Option.map_none, if_neg hne]
      | some r =>
          have hr : r.l2Id = x := by simpa using List.find?_some hget
          by_cases hx : w.l2Id = x
          · simp only [Option.map_some, if_pos hx, if_pos (hr.trans hx.symm), PeerWrite.apply]
          · have hne : r.l2Id ≠ w.l2Id := fun heq => hx (heq.symm.trans hr)
            simp only [Option.map_some, if_neg hx, if_neg hne]
  · next h =>
      simp only [PeerTable.get, List.find?_append]
      by_cases hx : w.l2Id = x
      · have hnone : t.rows.find? (fun r => r.l2Id = x) = none :=
          PeerTable.get_eq_none_iff.mpr (hx ▸ h)
        simp [hnone, hx, PeerWrite.apply]
      · simp [hx]

/-! ## Hello and announce -/

/-- `AigrpHelloRequest`: what a joiner says about itself. -/
structure HelloRequest where
  l2Id : String
  enterprise : String
  group : String
  endpointUrl : String
  publicKeyEd25519 : Option String
  l2Id_ne : l2Id ≠ ""
  enterprise_ne : enterprise ≠ ""
  group_ne : group ≠ ""

/-- `AigrpAnnounceRequest`: what a peer says about a joiner. -/
structure AnnounceRequest extends HelloRequest where
  announcedBy : String

/-- The write of a hello or an announce. -/
def HelloRequest.write (body : HelloRequest) (now : String) : PeerWrite where
  l2Id := body.l2Id
  enterprise := body.enterprise
  group := body.group
  endpointUrl := body.endpointUrl
  embeddingCentroid := none
  domainBloom := none
  kuCount := 0
  domainCount := 0
  embeddingModel := none
  signatureReceived := false
  publicKeyEd25519 := body.publicKeyEd25519
  now := now

/-- `AigrpPeer`: a row as it goes over the wire. -/
structure AigrpPeer where
  l2Id : String
  enterprise : String
  group : String
  endpointUrl : String
  kuCount : Int
  domainCount : Int
  embeddingModel : Option String
  firstSeenAt : String
  lastSeenAt : String
  lastSignatureAt : Option String
  publicKeyEd25519 : Option String

/-- The wire form of a row. -/
def PeerRow.toPeer (r : PeerRow) : AigrpPeer :=
  ⟨r.l2Id, r.enterprise, r.group, r.endpointUrl, r.kuCount, r.domainCount, r.embeddingModel,
    r.firstSeenAt, r.lastSeenAt, r.lastSignatureAt, r.publicKeyEd25519⟩

/-- `AigrpPeersResponse`; the peer count is the length of the list. -/
structure PeersResponse where
  enterprise : String
  selfL2Id : String
  peers : List AigrpPeer

/-- `s.rstrip("/")`. -/
def rstripSlash (s : String) : String :=
  String.ofList (s.toList.reverse.dropWhile (· = '/')).reverse

/-- `aigrp.self_url`. -/
def selfUrl (env : Environ) : String := rstripSlash (env.get "CQ_AIGRP_SELF_URL" "")

/-- This L2 as an entry of its own hello response. -/
def selfEntry (env : Environ) (ownKey : Option String) (now : String) : AigrpPeer where
  l2Id := selfL2Id env
  enterprise := enterprise env
  group := group env
  endpointUrl := selfUrl env
  kuCount := 0
  domainCount := 0
  embeddingModel := none
  firstSeenAt := now
  lastSeenAt := now
  lastSignatureAt := none
  publicKeyEd25519 := ownKey

/-- The announcements `_flood` sends, with their addresses. -/
def flood (env : Environ) (peers : List PeerRow) (body : HelloRequest) :
    List (String × AnnounceRequest) :=
  (peers.filter fun p => p.l2Id ≠ body.l2Id ∧ p.l2Id ≠ selfL2Id env ∧ p.endpointUrl ≠ "").map
    fun p => (rstripSlash p.endpointUrl ++ "/api/v1/aigrp/announce", ⟨body, selfL2Id env⟩)

/-- What both routes do first: admit the caller, refuse another Enterprise, record
the peer. -/
def recordJoiner (env : Environ) (root : Option Bytes) (t : PeerTable) (now : String)
    (request : Request) (body : HelloRequest) : Except Refusal PeerTable :=
  match requirePeerKey env root request with
  | .error e => .error e
  | .ok _ =>
    if body.enterprise ≠ enterprise env then
      .error (.foreignEnterprise (enterprise env) body.enterprise)
    else .ok (t.upsert (body.write now))

/-- `aigrp_hello`: the table it leaves, its response and the announcements it floods.
`ownKey` is `forward_sign.self_public_key_b64u`. -/
def aigrpHello (env : Environ) (root : Option Bytes) (ownKey : Option String) (t : PeerTable)
    (now : String) (request : Request) (body : HelloRequest) :
    Except Refusal (PeerTable × PeersResponse × List (String × AnnounceRequest)) :=
  (recordJoiner env root t now request body).map fun t' =>
    let peers := t'.list (enterprise env)
    (t', ⟨enterprise env, selfL2Id env, peers.map PeerRow.toPeer ++ [selfEntry env ownKey now]⟩,
      flood env peers body)

/-- `aigrp_announce`: the table it leaves, and the id it recorded. -/
def aigrpAnnounce (env : Environ) (root : Option Bytes) (t : PeerTable) (now : String)
    (request : Request) (body : AnnounceRequest) : Except Refusal (PeerTable × String) :=
  (recordJoiner env root t now request body.toHelloRequest).map fun t' => (t', body.l2Id)

/-! ## Bootstrap and poll -/

/-- The write for one entry of the seed's answer. -/
def AigrpPeer.write (p : AigrpPeer) (now : String) : PeerWrite where
  l2Id := p.l2Id
  enterprise := p.enterprise
  group := p.group
  endpointUrl := p.endpointUrl
  embeddingCentroid := none
  domainBloom := none
  kuCount := p.kuCount
  domainCount := p.domainCount
  embeddingModel := p.embeddingModel
  signatureReceived := false
  publicKeyEd25519 := p.publicKeyEd25519
  now := now

/-- The loop body of `_try_bootstrap`: absorb one entry of the seed's answer. -/
def absorbSeedEntry (env : Environ) (t : PeerTable) (now : String) (p : AigrpPeer) : PeerTable :=
  if p.l2Id = selfL2Id env then t else t.upsert (p.write now)

/-- A peer's answer to `/aigrp/signature`, its blobs decoded. -/
structure SignatureAnswer where
  l2Id : String
  enterprise : String
  group : String
  endpointUrl : Option String
  embeddingCentroid : Option Bytes
  domainBloom : Option Bytes
  kuCount : Int
  domainCount : Int
  embeddingModel : Option String

/-- The write for a signature, polled from the peer of row `polled`. It carries no key. -/
def SignatureAnswer.write (sig : SignatureAnswer) (polled : PeerRow) (now : String) :
    PeerWrite where
  l2Id := sig.l2Id
  enterprise := sig.enterprise
  group := sig.group
  endpointUrl := pyOr sig.endpointUrl polled.endpointUrl
  embeddingCentroid := sig.embeddingCentroid
  domainBloom := sig.domainBloom
  kuCount := sig.kuCount
  domainCount := sig.domainCount
  embeddingModel := sig.embeddingModel
  signatureReceived := true
  publicKeyEd25519 := none
  now := now

/-- The loop body of the poll: `polled` is the row as it was listed, which need not be
the row by the time the answer arrives. -/
def absorbSignature (env : Environ) (t : PeerTable) (now : String) (polled : PeerRow)
    (sig : SignatureAnswer) : PeerTable :=
  if polled.l2Id = selfL2Id env ∨ polled.endpointUrl = "" then t
  else t.upsert (sig.write polled now)

end EighthLayer.Aigrp
