import EighthLayer.Consults.Routes

/-!
# EighthLayer.Consults.Logging

What the two L2s of a cross-Enterprise consult store of its messages.

The opening message is redacted by the logging policy of the peering, on both sides. A
reply is not: whoever posts one where the AIGRP table has a row for the other side stores
it as it is. `logging_policy` is about the consults to which that does not happen.
-/

namespace EighthLayer.Consults

open Lib Aigrp

/-! ## A consult across Enterprises -/

/-- A consult between L2s of two Enterprises, opened under a peering whose logging policy is
not `mutual_log_required`. -/
structure CrossConsult where
  threadId : String
  fromL2Id : String
  toL2Id : String
  policy : String
  sides_ne : fromL2Id ≠ toL2Id
  policy_ne : policy ≠ "mutual_log_required"

namespace CrossConsult

variable (x : CrossConsult)

/-- The side of the consult that is not `l2Id`. -/
def otherSide (l2Id : String) : String := if l2Id = x.fromL2Id then x.toL2Id else x.fromL2Id

/-- A call that is part of this consult, or of another one. The consult is opened once, from
one side to the other under its peering, and arrives there under the same; what is forwarded
under its thread comes from the other side, which is of another Enterprise. -/
def Follows (site : Site) : ConsultCall → Prop
  | .request username ids body => ids.threadId = x.threadId →
      body.toL2Id = x.toL2Id ∧ (∀ selfId persona,
        selfIdentity site username = some (selfId, persona) → selfId = x.fromL2Id) ∧
      ∀ routing, routeTo site x.fromL2Id x.toL2Id = .ok routing → routing.policy = x.policy
  | .xEnterpriseForward request body => body.threadId = x.threadId →
      body.fromL2Id = x.fromL2Id ∧ body.toL2Id = x.toL2Id ∧ ∀ peering,
        requireXEnterpriseAuth site.env site.peerings site.now.isoformat request body =
          .ok peering → peering.consultLoggingPolicy = x.policy
  | .forwardRequest _ body => body.threadId = x.threadId →
      enterpriseOf body.fromL2Id ≠ some (enterprise site.env)
  | .forwardMessage _ body => body.threadId = x.threadId →
      enterpriseOf body.fromL2Id ≠ some (enterprise site.env)
  | .reply .. | .close .. => True

/-- A reply under this consult's thread is posted where the AIGRP table has no row for the
other side. -/
def RepliesStop (site : Site) : ConsultCall → Prop
  | .reply username threadId _ => threadId = x.threadId → ∀ selfId persona,
      selfIdentity site username = some (selfId, persona) →
        resolvePeer site.peers (x.otherSide selfId) = none
  | _ => True

/-- What an L2 has of the consult: its thread is between the two sides, and of its messages
nothing but what the policy leaves. -/
structure Redacted (s : ConsultStore) : Prop where
  sides : ∀ t, s.threads.find x.threadId = some t →
    t.fromL2Id = x.fromL2Id ∧ t.toL2Id = x.toL2Id
  contents : ∀ m ∈ s.messages, m.threadId = x.threadId →
    m.content = "<redacted: " ++ x.policy ++ ">" ∧ x.policy ≠ "no_log_consults"

/-- A statement that leaves the consult redacted. -/
structure Safe (q : ConsultStmt) : Prop where
  creates : ∀ head, q = .createConsult head → head.threadId = x.threadId →
    head.fromL2Id = x.fromL2Id ∧ head.toL2Id = x.toL2Id
  appends : ∀ m, q = .appendConsultMessage m → m.threadId = x.threadId →
    m.content = "<redacted: " ++ x.policy ++ ">" ∧ x.policy ≠ "no_log_consults"

variable {x}

theorem redactForPolicy_policy (content : String) :
    redactForPolicy content x.policy = "<redacted: " ++ x.policy ++ ">" :=
  if_neg x.policy_ne

/-- The step lemma. -/
theorem Redacted.exec {s : ConsultStore} (h : x.Redacted s) {q : ConsultStmt} (hq : x.Safe q) :
    x.Redacted (q.exec s).2 where
  sides := by
    intro t' ht'
    rcases ConsultStmt.find_exec_threads ht' with ⟨t, ht, rfl | ⟨_, _, -, -, rfl⟩⟩ |
      ⟨-, head, hcreate, hid, rfl⟩
    · exact h.sides t' ht
    · exact h.sides t ht
    · exact hq.creates head hcreate hid
  contents := by
    intro m hm hthread
    rcases ConsultStmt.mem_exec_messages.mp hm with hm | ⟨happend, -⟩
    · exact h.contents m hm hthread
    · exact hq.appends m happend hthread

/-- Statements that neither create nor append are safe. -/
theorem safe_of_ne {q : ConsultStmt} (hcreate : ∀ head, q ≠ .createConsult head)
    (happend : ∀ m, q ≠ .appendConsultMessage m) : x.Safe q :=
  ⟨fun head h => absurd h (hcreate head), fun m h => absurd h (happend m)⟩

/-- A program that leaves the consult redacted. -/
abbrev Keeps (x : CrossConsult) (p : ConsultProg) : Prop := p.Preserves x.Redacted

theorem keeps_call {q : ConsultStmt} {k : q.Answer → ConsultProg} (hq : x.Safe q)
    (hk : ∀ s, x.Redacted s → x.Keeps (k (q.exec s).1)) : x.Keeps (.call q k) :=
  .call (fun _ hs => hs.exec hq) hk

/-! ## The routes -/

theorem keeps_answerThread (threadId : String) : x.Keeps (answerThread threadId) := by
  unfold answerThread
  refine keeps_call (safe_of_ne nofun nofun) fun s _ => ?_
  split
  · exact .done
  · exact .done

theorem keeps_forwardTo {site : Site} {target : PeerRow} {payload : Payload} {next : ConsultProg}
    (hnext : x.Keeps next) : x.Keeps (forwardTo site target payload next) := by
  unfold forwardTo
  split
  · exact .done
  · refine keeps_call (safe_of_ne nofun nofun) fun _ _ => ?_
    split
    · exact hnext
    · exact .done

theorem keeps_forwardAcross {site : Site} {peering : DirectoryPeering} {target : L2Endpoint}
    {payload : Payload} {next : ConsultProg} (hnext : x.Keeps next) :
    x.Keeps (forwardAcross site peering target payload next) := by
  unfold forwardAcross
  split
  · refine keeps_call (safe_of_ne nofun nofun) fun _ _ => ?_
    split
    · exact hnext
    · exact .done
  · exact .done

theorem keeps_announceOpening {site : Site} {selfId selfPersona : String} {ids : OpeningIds}
    {body : ConsultRequest} {routing : Routing} :
    x.Keeps (announceOpening site selfId selfPersona ids body routing) := by
  cases routing with
  | sameL2 => exact keeps_answerThread ids.threadId
  | sibling peer => exact keeps_forwardTo (keeps_answerThread ids.threadId)
  | xEnterprise peering target => exact keeps_forwardAcross (keeps_answerThread ids.threadId)

/-- The opening message is redacted by the policy of its routing. -/
theorem keeps_openConsult {site : Site} {selfId selfPersona : String} {ids : OpeningIds}
    {body : ConsultRequest} {routing : Routing}
    (h : ids.threadId = x.threadId →
      selfId = x.fromL2Id ∧ body.toL2Id = x.toL2Id ∧ routing.policy = x.policy) :
    x.Keeps (openConsult site selfId selfPersona ids body routing) := by
  unfold openConsult
  refine keeps_call ⟨?_, nofun⟩ fun _ _ => ?_
  · rintro _ ⟨⟩ hid
    exact ⟨(h hid).1, (h hid).2.1⟩
  · split
    · split
      · exact keeps_announceOpening
      · rename_i hpolicy
        refine keeps_call ⟨nofun, ?_⟩ fun _ _ => ?_
        · rintro _ ⟨⟩ hid
          rw [(h hid).2.2] at hpolicy
          refine ⟨?_, hpolicy⟩
          change redactForPolicy body.content routing.policy = _
          rw [(h hid).2.2, redactForPolicy_policy]
        · split
          · exact keeps_announceOpening
          · exact .done
    · exact .done

theorem keeps_requestConsult {site : Site} {username : String} {ids : OpeningIds}
    {body : ConsultRequest} (h : x.Follows site (.request username ids body)) :
    x.Keeps (requestConsult site username ids body) := by
  unfold requestConsult
  split
  · exact .done
  · rename_i selfId selfPersona hself
    split
    · exact .done
    · rename_i routing hrouting
      refine keeps_openConsult fun hid => ?_
      obtain ⟨hto, hfrom, hpolicy⟩ := h hid
      have hfrom := hfrom selfId selfPersona hself
      rw [hfrom, hto] at hrouting
      exact ⟨hfrom, hto, hpolicy routing hrouting⟩

/-- A participant of one side replies to the other. -/
theorem replyTarget_error {site : Site} {selfId selfPersona : String} {t : Thread}
    (hfrom : t.fromL2Id = x.fromL2Id) (hto : t.toL2Id = x.toL2Id)
    (hpart : t.Participant selfId selfPersona)
    (hresolve : resolvePeer site.peers (x.otherSide selfId) = none) :
    ∃ r, replyTarget site selfId selfPersona t = .error r := by
  have hother : otherL2Id selfId selfPersona t = x.otherSide selfId ∧
      x.otherSide selfId ≠ selfId := by
    unfold otherL2Id otherSide
    rcases hpart with ⟨hl2, hpersona⟩ | ⟨hl2, -⟩
    · rw [if_pos ⟨hl2, hpersona⟩, ← hl2, hfrom, if_pos rfl]
      exact ⟨hto, fun heq => x.sides_ne heq.symm⟩
    · have hne : selfId ≠ x.fromL2Id := by
        rw [← hl2, hto]
        exact fun heq => x.sides_ne heq.symm
      have hnot : ¬ (t.fromL2Id = selfId ∧ t.fromPersona = selfPersona) := by
        rintro ⟨hl2', -⟩
        rw [hfrom] at hl2'
        exact hne hl2'.symm
      rw [if_neg hnot, if_neg hne]
      exact ⟨hfrom, Ne.symm hne⟩
  unfold replyTarget
  dsimp only
  rw [hother.1, if_neg hother.2, hresolve]
  exact ⟨_, rfl⟩

theorem keeps_postConsultMessage {site : Site} {username threadId : String} {reply : Reply}
    (h : x.RepliesStop site (.reply username threadId reply)) :
    x.Keeps (postConsultMessage site username threadId reply) := by
  unfold postConsultMessage
  split
  · exact .done
  · rename_i selfId selfPersona hself
    refine keeps_call (safe_of_ne nofun nofun) fun s hs => ?_
    split
    · exact .done
    · rename_i t hread
      split
      · exact .done
      · rename_i hpart
        split
        · exact .done
        · split
          · exact .done
          · rename_i target htarget
            have hne : threadId ≠ x.threadId := by
              rintro rfl
              obtain ⟨hfrom, hto⟩ := hs.sides t hread
              obtain ⟨r, hr⟩ := replyTarget_error hfrom hto (not_not.mp hpart)
                (h rfl selfId selfPersona hself)
              cases htarget.symm.trans hr
            unfold appendReply
            refine keeps_call ⟨nofun, ?_⟩ fun _ _ => ?_
            · rintro _ ⟨⟩ hid
              exact absurd hid hne
            · split
              · split
                · exact .done
                · exact keeps_forwardTo .done
              · exact .done

theorem keeps_closeConsult {site : Site} {username threadId : String}
    {resolutionSummary : Option String} :
    x.Keeps (closeConsult site username threadId resolutionSummary) := by
  unfold closeConsult
  split
  · exact .done
  · refine keeps_call (safe_of_ne nofun nofun) fun _ _ => ?_
    split
    · exact .done
    · split
      · exact .done
      · exact keeps_call (safe_of_ne nofun nofun) fun _ _ => keeps_answerThread threadId

/-- A mirroring of other threads, or of what the policy leaves. -/
theorem keeps_mirroring {w : Mirroring}
    (hhead : ∀ head, w.head = some head → head.threadId = x.threadId →
      head.fromL2Id = x.fromL2Id ∧ head.toL2Id = x.toL2Id)
    (hmessage : ∀ m, w.message = some m → m.threadId = x.threadId →
      m.content = "<redacted: " ++ x.policy ++ ">" ∧ x.policy ≠ "no_log_consults") :
    x.Keeps w.prog := by
  have happend : x.Keeps w.append := by
    unfold Mirroring.append
    split
    · exact .done
    · rename_i m hm
      refine keeps_call ⟨nofun, ?_⟩ fun _ _ => ?_
      · rintro _ ⟨⟩ hid
        exact hmessage m hm hid
      · split
        · exact .done
        · exact .done
        · exact .done
  unfold Mirroring.prog
  refine keeps_call (safe_of_ne nofun nofun) fun _ _ => ?_
  split
  · exact happend
  · split
    · exact .done
    · rename_i head hsome
      unfold Mirroring.create
      refine keeps_call ⟨?_, nofun⟩ fun _ _ => ?_
      · rintro _ ⟨⟩ hid
        exact hhead head hsome hid
      · split
        · exact happend
        · exact .done

/-- Every call that is part of the consult leaves it redacted, unless it is a reply that
goes on. -/
theorem keeps_prog {sch : SignatureScheme} {canonicalize : Canonicalize} {site : Site}
    {call : ConsultCall} (hfollows : x.Follows site call) (hstops : x.RepliesStop site call) :
    x.Keeps (call.prog sch canonicalize site) := by
  have hforward : call.forwarder ≠ none → (∀ w, call.admitted sch canonicalize site = some w →
      x.Keeps w.prog) → x.Keeps (call.prog sch canonicalize site) := by
    intro hne hadmitted
    rcases ConsultCall.prog_of_forwarder hne with ⟨-, r, hr⟩ | ⟨w, hw, hprog⟩
    · rw [hr]
      exact .done
    · rw [hprog]
      exact hadmitted w hw
  cases call with
  | request username ids body => exact keeps_requestConsult hfollows
  | reply username threadId reply => exact keeps_postConsultMessage hstops
  | close username threadId resolutionSummary => exact keeps_closeConsult
  | forwardRequest r body =>
      refine hforward nofun fun w hw => ?_
      obtain ⟨rfl, -, hent⟩ := admitRequest_ok (toOption_eq_some hw)
      refine keeps_mirroring ?_ ?_
      · rintro _ ⟨⟩ hid
        exact absurd hent (hfollows hid)
      · rintro _ ⟨⟩ hid
        exact absurd hent (hfollows hid)
  | forwardMessage r body =>
      refine hforward nofun fun w hw => ?_
      obtain ⟨rfl, -, hent⟩ := admitMessage_ok (toOption_eq_some hw)
      refine keeps_mirroring ?_ ?_
      · intro head hhead hid
        rw [ForwardMessageBody.head_threadId hhead] at hid
        exact absurd hent (hfollows hid)
      · rintro _ ⟨⟩ hid
        exact absurd hent (hfollows hid)
  | xEnterpriseForward r body =>
      refine hforward nofun fun w hw => ?_
      obtain ⟨peering, hauth, -, rfl⟩ := admitXEnterprise_ok (toOption_eq_some hw)
      refine keeps_mirroring ?_ ?_
      · rintro _ ⟨⟩ hid
        exact ⟨(hfollows hid).1, (hfollows hid).2.1⟩
      · intro m hm hid
        obtain ⟨hlog, rfl⟩ := ForwardRequestBody.xMirroring_message hm
        rw [(hfollows hid).2.2 peering hauth] at hlog ⊢
        exact ⟨redactForPolicy_policy body.content, hlog⟩

theorem redacted_empty : x.Redacted .empty where
  sides := nofun
  contents := fun m hm => absurd hm (Table.not_mem_empty m)

theorem redacted_run {sch : SignatureScheme} {canonicalize : Canonicalize}
    {calls : List (Site × ConsultCall)} (hfollows : ∀ p ∈ calls, x.Follows p.1 p.2)
    (hstops : ∀ p ∈ calls, x.RepliesStop p.1 p.2) (schedule : List Nat) :
    x.Redacted ((Config.start .empty (consultProgs sch canonicalize calls)).run
      schedule).world.db := by
  refine Config.run_preserves redacted_empty (fun prog hprog => ?_) schedule
  obtain ⟨p, hp, rfl⟩ := List.mem_map.mp hprog
  exact keeps_prog (hfollows p hp) (hstops p hp)

end CrossConsult

/-! ## Both sides -/

/-- The peering: of a message only its existence is logged. -/
def globexPeering : DirectoryPeering :=
  { samplePeering "off_1" "acme" "globex" "2027-01-01T00:00:00Z" with
    consultLoggingPolicy := "summary_only_log"
    toL2Endpoints := [⟨some "globex/sales", some "https://sales.globex.example"⟩] }

def globexPeerings : PeeringTable := ⟨[globexPeering], List.nodup_singleton _⟩

/-- globex's sales, in an AIGRP table. -/
def globexPeer : PeerRow where
  l2Id := "globex/sales"
  enterprise := "globex"
  group := "sales"
  endpointUrl := "https://sales.globex.example"
  embeddingCentroid := none
  domainBloom := none
  kuCount := 0
  domainCount := 0
  embeddingModel := none
  firstSeenAt := "2026-05-01T16:00:00+00:00"
  lastSeenAt := "2026-05-01T16:00:00+00:00"
  lastSignatureAt := none
  publicKeyEd25519 := none

/-- acme's eng, with the peering. -/
def peeredSite (peers : PeerTable) : Site := { acmeSite "eng" peers with peerings := globexPeerings }

def sampleConsult : CrossConsult where
  threadId := "th_1"
  fromL2Id := "acme/eng"
  toL2Id := "globex/sales"
  policy := "summary_only_log"
  sides_ne := by decide
  policy_ne := by decide

theorem sampleOpening_toL2Id : "globex/sales" ≠ "" := by decide
theorem sampleOpening_toPersona : "bob" ≠ "" := by decide
theorem sampleOpening_subject : ∀ s : String, none = some s → s.length ≤ 200 := nofun
theorem sampleOpening_content : "How do you rotate keys?" ≠ "" := by decide
theorem sampleOpening_length : "How do you rotate keys?".length ≤ 4096 := by decide

def sampleOpening : ConsultRequest where
  toL2Id := "globex/sales"
  toPersona := "bob"
  subject := none
  content := "How do you rotate keys?"
  toL2Id_ne := sampleOpening_toL2Id
  toPersona_ne := sampleOpening_toPersona
  subject_le := sampleOpening_subject
  content_ne := sampleOpening_content
  content_le := sampleOpening_length

def sampleReply : Reply where
  messageId := "msg_2"
  content := "We do it by hand."
  content_ne := by decide
  content_le := by decide

/-- Alice opens the consult and adds a message to it. -/
def aliceCalls (peers : PeerTable) : List (Site × ConsultCall) :=
  [(peeredSite peers, .request "alice" ⟨"th_1", "msg_1"⟩ sampleOpening),
    (peeredSite peers, .reply "alice" "th_1" sampleReply)]

theorem follows_sampleOpening {peers : PeerTable}
    (hpolicy : (routeTo (peeredSite peers) "acme/eng" "globex/sales").toOption.map
      Routing.policy = some "summary_only_log") :
    sampleConsult.Follows (peeredSite peers)
      (.request "alice" ⟨"th_1", "msg_1"⟩ sampleOpening) := by
  intro _
  refine ⟨rfl, ?_, ?_⟩
  · intro selfId persona hself
    have hsome : selfIdentity (peeredSite peers) "alice" = some ("acme/eng", "alice") := by rfl
    cases hself.symm.trans hsome
    rfl
  · intro routing hrouting
    rw [show routeTo (peeredSite peers) "acme/eng" "globex/sales" = .ok routing from hrouting]
      at hpolicy
    exact Option.some.inj hpolicy

theorem follows_alice {peers : PeerTable}
    (hpolicy : (routeTo (peeredSite peers) "acme/eng" "globex/sales").toOption.map
      Routing.policy = some "summary_only_log") :
    ∀ p ∈ aliceCalls peers, sampleConsult.Follows p.1 p.2 := by
  intro p hp
  rcases List.mem_cons.mp hp with rfl | hp
  · exact follows_sampleOpening hpolicy
  · rw [List.mem_singleton.mp hp]
    trivial

end EighthLayer.Consults
