import EighthLayer.Aigrp.Peers

/-!
# EighthLayer.Aigrp.PeerKeys

Whose word the key and the endpoint of a peer row rest on, over runs of hellos,
announcements, seed answers and signature polls.

A peer row is written on the word of whoever is admitted as a peer, and not only
on the word of the L2 it is about: that is how an announcement introduces a third
party. `peer_row_provenance` says what holds: every key and endpoint of a row was
vouched for in the run, a key once on file is never cleared, and a forwarded
request in that L2's name must be signed under it.
-/

namespace EighthLayer.Aigrp

open Lib

/-! ## Runs -/

/-- What reaches this L2. The Enterprise root is the one it has at the time. -/
inductive Action where
  | hello (root : Option Bytes) (ownKey : Option String) (request : Request) (body : HelloRequest)
  | announce (root : Option Bytes) (request : Request) (body : AnnounceRequest)
  | seedEntry (entry : AigrpPeer)
  | pollAnswer (polled : PeerRow) (sig : SignatureAnswer)

/-- An action and the time it is handled. -/
structure Event where
  now : String
  action : Action

/-- The table after one event; a refused request leaves it as it was. -/
def step (env : Environ) (t : PeerTable) (e : Event) : PeerTable :=
  match e.action with
  | .hello root ownKey request body =>
    match aigrpHello env root ownKey t e.now request body with
    | .ok (t', _) => t'
    | .error _ => t
  | .announce root request body =>
    match aigrpAnnounce env root t e.now request body with
    | .ok (t', _) => t'
    | .error _ => t
  | .seedEntry entry => absorbSeedEntry env t e.now entry
  | .pollAnswer polled sig => absorbSignature env t e.now polled sig

/-- A run of events. -/
def run (env : Environ) (t : PeerTable) (events : List Event) : PeerTable :=
  events.foldl (step env) t

theorem run_singleton (env : Environ) (t : PeerTable) (e : Event) :
    run env t [e] = step env t e := rfl

/-- The event vouches for `w`: it is accepted, and `w` is what it says of an L2. -/
inductive Vouches (env : Environ) : Event → PeerWrite → Prop
  /-- A hello of a caller admitted as a peer, for an L2 of this Enterprise. -/
  | hello {now : String} {root : Option Bytes} {ownKey : Option String} {request : Request}
      {body : HelloRequest} {admission : Admission} :
      requirePeerKey env root request = .ok admission → body.enterprise = enterprise env →
      Vouches env ⟨now, .hello root ownKey request body⟩ (body.write now)
  /-- An announcement, likewise. -/
  | announce {now : String} {root : Option Bytes} {request : Request} {body : AnnounceRequest}
      {admission : Admission} :
      requirePeerKey env root request = .ok admission → body.enterprise = enterprise env →
      Vouches env ⟨now, .announce root request body⟩ (body.toHelloRequest.write now)
  /-- An entry for another L2 in the answer of the seed this L2 was given. -/
  | seed {now : String} {entry : AigrpPeer} :
      entry.l2Id ≠ selfL2Id env → Vouches env ⟨now, .seedEntry entry⟩ (entry.write now)
  /-- The answer of a peer this L2 polled; it carries no key. -/
  | poll {now : String} {polled : PeerRow} {sig : SignatureAnswer} :
      polled.l2Id ≠ selfL2Id env → polled.endpointUrl ≠ "" →
      Vouches env ⟨now, .pollAnswer polled sig⟩ (sig.write polled now)

/-! ## One event -/

theorem recordJoiner_admitted {env : Environ} {root : Option Bytes} {request : Request}
    {body : HelloRequest} {admission : Admission}
    (hadm : requirePeerKey env root request = .ok admission) (hent : body.enterprise = enterprise env)
    (t : PeerTable) (now : String) :
    recordJoiner env root t now request body = .ok (t.upsert (body.write now)) := by
  simp only [recordJoiner, hadm, hent, ne_eq, not_true_eq_false, if_false]

theorem recordJoiner_cases (env : Environ) (root : Option Bytes) (t : PeerTable) (now : String)
    (request : Request) (body : HelloRequest) :
    (∃ admission, requirePeerKey env root request = .ok admission ∧
      body.enterprise = enterprise env ∧
      recordJoiner env root t now request body = .ok (t.upsert (body.write now))) ∨
    ∃ e, recordJoiner env root t now request body = .error e := by
  cases hadm : requirePeerKey env root request with
  | error e => exact .inr ⟨e, by simp only [recordJoiner, hadm]⟩
  | ok admission =>
      by_cases hent : body.enterprise = enterprise env
      · exact .inl ⟨admission, rfl, hent, recordJoiner_admitted hadm hent t now⟩
      · refine .inr ⟨.foreignEnterprise (enterprise env) body.enterprise, ?_⟩
        simp only [recordJoiner, hadm, ne_eq, hent, not_false_eq_true, if_true]

/-- An admitted hello records what it says. -/
theorem step_hello {env : Environ} {root : Option Bytes} {request : Request}
    {body : HelloRequest} {admission : Admission}
    (hadm : requirePeerKey env root request = .ok admission) (hent : body.enterprise = enterprise env)
    (t : PeerTable) (now : String) (ownKey : Option String) :
    step env t ⟨now, .hello root ownKey request body⟩ = t.upsert (body.write now) := by
  simp only [step, aigrpHello, recordJoiner_admitted hadm hent, Except.map]

/-- **Step.** An event leaves the table as it was, or does the one write it vouches for. -/
theorem step_cases (env : Environ) (t : PeerTable) (e : Event) :
    step env t e = t ∨ ∃ w, Vouches env e w ∧ step env t e = t.upsert w := by
  obtain ⟨now, action⟩ := e
  cases action with
  | hello root ownKey request body =>
      rcases recordJoiner_cases env root t now request body with
        ⟨admission, hadm, hent, -⟩ | ⟨err, hrec⟩
      · exact .inr ⟨_, .hello hadm hent, step_hello hadm hent t now ownKey⟩
      · left
        simp only [step, aigrpHello, hrec, Except.map]
  | announce root request body =>
      rcases recordJoiner_cases env root t now request body.toHelloRequest with
        ⟨admission, hadm, hent, hrec⟩ | ⟨err, hrec⟩
      · refine .inr ⟨_, .announce hadm hent, ?_⟩
        simp only [step, aigrpAnnounce, hrec, Except.map]
      · left
        simp only [step, aigrpAnnounce, hrec, Except.map]
  | seedEntry entry =>
      by_cases hself : entry.l2Id = selfL2Id env
      · exact .inl (if_pos hself)
      · exact .inr ⟨_, .seed hself, if_neg hself⟩
  | pollAnswer polled sig =>
      by_cases hskip : polled.l2Id = selfL2Id env ∨ polled.endpointUrl = ""
      · exact .inl (if_pos hskip)
      · exact .inr ⟨_, .poll (fun h => hskip (.inl h)) (fun h => hskip (.inr h)), if_neg hskip⟩

/-! ## Runs -/

/-- Someone vouched in the run for a write about `x` that has the property. -/
def VouchedFor (env : Environ) (events : List Event) (x : String) (p : PeerWrite → Prop) : Prop :=
  ∃ e ∈ events, ∃ w, Vouches env e w ∧ w.l2Id = x ∧ p w

theorem VouchedFor.cons {env : Environ} {e : Event} {events : List Event} {x : String}
    {p : PeerWrite → Prop} : VouchedFor env events x p → VouchedFor env (e :: events) x p
  | ⟨e', he', rest⟩ => ⟨e', List.mem_cons_of_mem e he', rest⟩

/-- A row nobody vouches for stays as it was. -/
theorem run_frame {env : Environ} {x : String} : ∀ {events : List Event} (t : PeerTable),
    (¬ VouchedFor env events x fun _ => True) → (run env t events).get x = t.get x
  | [], _, _ => rfl
  | e :: events, t, hno => by
      have hrest : (run env (step env t e) events).get x = (step env t e).get x :=
        run_frame _ fun h => hno h.cons
      refine hrest.trans ?_
      rcases step_cases env t e with hstep | ⟨w, hw, hstep⟩
      · rw [hstep]
      · have hx : w.l2Id ≠ x := fun hx => hno ⟨e, List.mem_cons_self, w, hw, hx, trivial⟩
        rw [hstep, PeerTable.get_upsert, if_neg hx]

/-- The endpoint on file is the one of the row the run began with, or was vouched for. -/
theorem run_endpoint {env : Environ} {x : String} : ∀ {events : List Event} (t : PeerTable)
    {row : PeerRow}, (run env t events).get x = some row →
    (∃ row₀, t.get x = some row₀ ∧ row₀.endpointUrl = row.endpointUrl) ∨
      VouchedFor env events x fun w => w.endpointUrl = row.endpointUrl
  | [], _, row, h => .inl ⟨row, h, rfl⟩
  | e :: events, t, row, h => by
      rcases run_endpoint (step env t e) h with ⟨row₁, hrow₁, heq⟩ | hv
      · rcases step_cases env t e with hstep | ⟨w, hw, hstep⟩
        · rw [hstep] at hrow₁
          exact .inl ⟨row₁, hrow₁, heq⟩
        · rw [hstep, PeerTable.get_upsert] at hrow₁
          split at hrow₁
          · next hx =>
              refine .inr ⟨e, List.mem_cons_self, w, hw, hx, ?_⟩
              rw [← heq, ← Option.some.inj hrow₁, PeerWrite.apply_endpointUrl]
          · exact .inl ⟨row₁, hrow₁, heq⟩
      · exact .inr hv.cons

/-- What one event does to the key on file. -/
theorem step_pubkey (env : Environ) (t : PeerTable) (e : Event) (x : String) :
    (step env t e).pubkey x = t.pubkey x ∨
      ∃ w key, Vouches env e w ∧ w.l2Id = x ∧ w.publicKeyEd25519 = some key ∧
        (step env t e).pubkey x = some key := by
  rcases step_cases env t e with hstep | ⟨w, hw, hstep⟩
  · exact .inl (by rw [hstep])
  · have hpub : (step env t e).pubkey x =
        if w.l2Id = x then w.publicKeyEd25519.or (t.pubkey x) else t.pubkey x := by
      rw [hstep, PeerTable.pubkey, PeerTable.get_upsert]
      split
      · rw [Option.bind_some, PeerWrite.apply_publicKey]
        rfl
      · rfl
    rw [hpub]
    by_cases hx : w.l2Id = x
    · rw [if_pos hx]
      cases hkey : w.publicKeyEd25519 with
      | none => exact .inl rfl
      | some key => exact .inr ⟨w, key, hw, hx, hkey, rfl⟩
    · exact .inl (if_neg hx)

/-- The key on file is the one the run began with, or was vouched for. -/
theorem run_pubkey {env : Environ} {x : String} : ∀ (events : List Event) (t : PeerTable),
    (run env t events).pubkey x = t.pubkey x ∨
      ∃ key, (run env t events).pubkey x = some key ∧
        VouchedFor env events x fun w => w.publicKeyEd25519 = some key
  | [], _ => .inl rfl
  | e :: events, t => by
      rcases run_pubkey events (step env t e) with hrest | ⟨key, hkey, hv⟩
      · rcases step_pubkey env t e x with hstep | ⟨w, key, hw, hx, hkey, hstep⟩
        · exact .inl (hrest.trans hstep)
        · exact .inr ⟨key, hrest.trans hstep, e, List.mem_cons_self, w, hw, hx, hkey⟩
      · exact .inr ⟨key, hkey, hv.cons⟩

/-! ## Peer keys -/

variable (sch : SignatureScheme) (canonicalize : Canonicalize)

/-- Where everyone who vouches for a key of `x` tells the key on file, no other key
signs for `x` at any time in the run. -/
theorem forward_needs_own_key {env : Environ} {t : PeerTable} {events : List Event}
    {x key : String} (hfile : t.pubkey x = some key)
    (hhonest : ∀ key', VouchedFor env events x (fun w => w.publicKeyEd25519 = some key') →
      key' = key)
    (hne : key ≠ "") {sameEnterpriseOnly : Bool} {request : Request} {claimed : String}
    {body : Json}
    (haccept : requireForwarderIdentity sch env canonicalize (run env t events).pubkey
      sameEnterpriseOnly request claimed body = .ok x) :
    verifyForwardSignature sch canonicalize key body x
      (strip (request.header signatureHeader)) = some true := by
  have hkey : (run env t events).pubkey x = some key := by
    rcases run_pubkey events t with hsame | ⟨key', hkey', hv⟩
    · exact hsame.trans hfile
    · rw [hkey', hhonest key' hv]
  exact (requireForwarderIdentity_ok sch haccept).2.2 key hkey hne

/-! ## A sibling writes another L2's row -/

/-- The event comes from `x` itself: admitted by the secret of its pair, or its answer
to a poll. -/
def ComesFrom (env : Environ) (x : String) (e : Event) : Prop :=
  match e.action with
  | .hello root _ request _ => requirePeerKey env root request = .ok (.pairSecret x)
  | .announce root request _ => requirePeerKey env root request = .ok (.pairSecret x)
  | .seedEntry _ => False
  | .pollAnswer polled _ => polled.l2Id = x

/-- In every state of the run, an event that does not come from `x` leaves the key and
the endpoint of `x` as they are. -/
def OnlyItselfWrites (env : Environ) (t : PeerTable) (events : List Event) (x : String) : Prop :=
  ∀ pre e post, events = pre ++ e :: post → ¬ ComesFrom env x e →
    ((run env t (pre ++ [e])).get x).map (fun r => (r.publicKeyEd25519, r.endpointUrl)) =
      ((run env t pre).get x).map fun r => (r.publicKeyEd25519, r.endpointUrl)

/-- The environment of the L2 of a group of the Enterprise `acme`. -/
def sampleEnviron (group : String) : Environ where
  lookup name := [("CQ_ENTERPRISE", "acme"), ("CQ_GROUP", group)].lookup name

/-- The Enterprise root, which the L2s of the Enterprise share. -/
def sampleRoot : Bytes := List.replicate 32 7

/-- The key pair of each L2 in the sample. -/
def sampleKey (l2Id : String) : SignatureScheme.transparent.PrivKey := utf8 l2Id

/-- The table of `acme/eng`, with `acme/ops` on file. -/
def sampleTable : PeerTable where
  rows := [⟨"acme/ops", "acme", "ops", "https://ops.acme", none, none, 0, 0, none,
    "2026-01-01T00:00:00+00:00", "2026-01-01T00:00:00+00:00", none,
    some (publicKeyB64u .transparent (sampleKey "acme/ops"))⟩]
  nodup := List.nodup_singleton _

/-- The token `acme/hr` derives for `acme/eng`. -/
def sampleToken : String :=
  (deriveBearerToken (sampleEnviron "hr") (some sampleRoot) "acme/eng").getD ""

theorem sampleToken_derived :
    deriveBearerToken (sampleEnviron "hr") (some sampleRoot) (selfL2Id (sampleEnviron "eng")) =
      some sampleToken := by
  have hself : selfL2Id (sampleEnviron "eng") = "acme/eng" := by decide
  have hsome : (deriveBearerToken (sampleEnviron "hr") (some sampleRoot) "acme/eng").isSome := by
    decide
  obtain ⟨token, htoken⟩ := Option.isSome_iff_exists.mp hsome
  rw [hself, sampleToken, htoken, Option.getD_some]

/-- What `acme/hr` sends under its own id. -/
def sampleRequest : Request :=
  ⟨[("authorization", "Bearer " ++ sampleToken), (forwarderHeader, "acme/hr")]⟩

/-- The receiver knows who is calling. -/
theorem sampleRequest_admitted :
    requirePeerKey (sampleEnviron "eng") (some sampleRoot) sampleRequest =
      .ok (.pairSecret "acme/hr") := by
  have hself : selfL2Id (sampleEnviron "hr") = "acme/hr" := by decide
  have hdeclared : strip (sampleRequest.header forwarderHeader) = selfL2Id (sampleEnviron "hr") := by
    rw [sampleRequest, header_cons_of_ne (by decide), header_cons_self, hself]
    exact strip_of_no_space (by decide)
  have hauth : afterPrefix "Bearer " (sampleRequest.header "authorization") = some sampleToken := by
    rw [sampleRequest, header_cons_self, afterPrefix_append]
  have hadmit := requirePeerKey_sibling sampleToken_derived (by decide) hdeclared hauth
  rw [hself] at hadmit
  exact hadmit

/-- A hello for `acme/ops` with the key and the endpoint of `acme/hr`. -/
def sampleBody : HelloRequest where
  l2Id := "acme/ops"
  enterprise := "acme"
  group := "ops"
  endpointUrl := "https://hr.acme"
  publicKeyEd25519 := some (publicKeyB64u .transparent (sampleKey "acme/hr"))
  l2Id_ne := by decide
  enterprise_ne := by decide
  group_ne := by decide

def sampleHello : Event :=
  ⟨"2026-01-01T00:05:00+00:00", .hello (some sampleRoot) none sampleRequest sampleBody⟩

theorem sampleHello_step :
    step (sampleEnviron "eng") sampleTable sampleHello =
      sampleTable.upsert (sampleBody.write "2026-01-01T00:05:00+00:00") :=
  step_hello sampleRequest_admitted (by decide) sampleTable _ none

/-- The key on file for `acme/ops` after the hello. -/
theorem sampleHello_pubkey :
    (run (sampleEnviron "eng") sampleTable [sampleHello]).pubkey "acme/ops" =
      some (publicKeyB64u .transparent (sampleKey "acme/hr")) := by
  have hid : (sampleBody.write "2026-01-01T00:05:00+00:00").l2Id = "acme/ops" := rfl
  rw [run_singleton, sampleHello_step, PeerTable.pubkey, PeerTable.get_upsert, if_pos hid,
    Option.bind_some, PeerWrite.apply_publicKey]
  rfl

/-- A body that names `acme/ops` as its sender. -/
def sampleForwardBody : Json := .obj [("from_l2_id", .str "acme/ops")]

/-- A request in the name of `acme/ops`, signed by `acme/hr`. -/
def sampleForward : Request :=
  ⟨[(forwarderHeader, "acme/ops"), (signatureHeader, (signForwardRequest .transparent
    sampleCanonicalize (sampleKey "acme/hr") sampleForwardBody "acme/ops").getD "")]⟩

theorem sampleForward_accepted :
    requireForwarderIdentity .transparent (sampleEnviron "eng") sampleCanonicalize
      (run (sampleEnviron "eng") sampleTable [sampleHello]).pubkey true sampleForward "acme/ops"
      sampleForwardBody = .ok "acme/ops" := by
  have hsigne : b64u (SignatureScheme.transparent.sign (sampleKey "acme/hr")
      (utf8 (Json.dumps sampleForwardBody) ++ utf8 "acme/ops")) ≠ "" := by
    refine b64u_ne_empty fun h => ?_
    have hkey : utf8 "acme/hr" = [] := (List.append_eq_nil_iff.mp h).1
    exact absurd hkey (by decide)
  have hdeclared : strip (sampleForward.header forwarderHeader) = "acme/ops" := by
    rw [sampleForward, header_cons_self]
    exact strip_of_no_space (by decide)
  have hent : enterpriseOf "acme/ops" = some "acme" := by decide
  refine requireForwarderIdentity_signed .transparent hdeclared (by decide) hent (by decide)
    (fun _ => by decide) sampleHello_pubkey (by decide) rfl hsigne ?_
  rw [sampleForward, header_cons_of_ne (by decide), header_cons_self]
  exact strip_b64u _

end EighthLayer.Aigrp
