import EighthLayer.Consults.Routes

/-!
# EighthLayer.Consults.Participants

Who the messages of a consult come from.

A reply is only taken from a participant of its thread. A forward is bound to the L2 that
it has been authenticated as, but a thread that is there already is not asked who takes
part in it, and neither are the metadata that a forwarded message brings along. The result
is about the runs in which no forward goes wrong there (`ForwardFits`), and a run in which
one does.
-/

namespace EighthLayer.Consults

open Lib Aigrp

/-! ## Taking part -/

/-- The sender of a message is a participant of its thread, which is there. -/
def ConsultStore.TakesPart (s : ConsultStore) (m : Message) : Prop :=
  ∃ t, s.threads.find m.threadId = some t ∧ t.Participant m.fromL2Id m.fromPersona

/-- Participants stay participants. -/
theorem ConsultStore.TakesPart.mono {s s' : ConsultStore} {m : Message} (h : s.TakesPart m)
    (hgrows : s.Grows s') : s'.TakesPart m := by
  obtain ⟨t, ht, hpart⟩ := h
  obtain ⟨t', ht', hhead, -⟩ := hgrows.threads _ _ ht
  refine ⟨t', ht', ?_⟩
  rw [hhead]
  exact hpart

/-- A message may be mirrored: its sender is a participant of the thread under its id, or
of the one that would be created. -/
def Mirroring.SenderFits (w : Mirroring) (s : ConsultStore) : Prop :=
  ∀ m, w.message = some m →
    match s.threads.find w.threadId with
    | some t => t.Participant m.fromL2Id m.fromPersona
    | none => ∀ head, w.head = some head → head.Participant m.fromL2Id m.fromPersona

/-- A forwarded request fits a thread that is missing. -/
theorem senderFits_request {body : ForwardRequestBody} {w : Mirroring} {s : ConsultStore}
    (hw : w = body.mirroring ∨ ∃ policy, w = body.xMirroring policy)
    (hmissing : s.threads.find body.threadId = none) : w.SenderFits s := by
  intro m hm
  rcases hw with rfl | ⟨policy, rfl⟩
  · cases hm
    change match s.threads.find body.threadId with
      | some t => t.Participant body.fromL2Id body.fromPersona
      | none => _
    rw [hmissing]
    rintro _ ⟨⟩
    exact .inl ⟨rfl, rfl⟩
  · obtain ⟨-, rfl⟩ := ForwardRequestBody.xMirroring_message hm
    change match s.threads.find body.threadId with
      | some t => t.Participant body.fromL2Id body.fromPersona
      | none => _
    rw [hmissing]
    rintro _ ⟨⟩
    exact .inl ⟨rfl, rfl⟩

variable (sch : SignatureScheme) (canonicalize : Canonicalize) (calls : List (Site × ConsultCall))

/-- Where the messages come from: a request has appended each, its sender takes part in
its thread, and if it was forwarded, the authenticated forwarder is the sender's L2. -/
def Attributed (w : World ConsultStore ConsultStmt.Answer) : Prop :=
  ∀ m ∈ w.db.messages, w.db.TakesPart m ∧
    ∃ e ∈ w.log, e.stmt = .appendConsultMessage m ∧
      ∃ p, calls[e.task]? = some p ∧ ∀ f, p.2.forwarder = some f → f = m.fromL2Id

/-- A forward that looks for its thread fits what it will find or create. -/
def ForwardFits (i : Nat) (q : ConsultStmt) (w : World ConsultStore ConsultStmt.Answer) : Prop :=
  ∀ p m, calls[i]? = some p → p.2.admitted sch canonicalize p.1 = some m →
    q = .getConsult m.threadId → m.SenderFits w.db

/-- What the routes promise each other. -/
def participation : Contract ConsultStore ConsultStmt.Answer where
  inv := Attributed calls
  rel w w' := w.db.Grows w'.db
  ok := ForwardFits sch canonicalize calls
  refl w := .refl w.db
  trans h h' := h.trans h'

/-- A message that a request may append. -/
def MayAppend (i : Nat) (s : ConsultStore) (m : Message) : Prop :=
  s.TakesPart m ∧ ∃ p, calls[i]? = some p ∧ ∀ f, p.2.forwarder = some f → f = m.fromL2Id

variable {sch canonicalize calls}

/-- The step lemma. -/
theorem attributed_exec {w : World ConsultStore ConsultStmt.Answer} {i : Nat} {q : ConsultStmt}
    (h : Attributed calls w) (hq : ∀ m, q = .appendConsultMessage m → MayAppend calls i w.db m) :
    Attributed calls (w.exec i q) := by
  intro m hm
  have hgrows := ConsultStmt.grows_exec q w.db
  rcases ConsultStmt.mem_exec_messages.mp hm with hm | ⟨rfl, -⟩
  · obtain ⟨hpart, e, he, hsource⟩ := h m hm
    exact ⟨hpart.mono hgrows, e, .tail _ he, hsource⟩
  · obtain ⟨hpart, hsource⟩ := hq m rfl
    exact ⟨hpart.mono hgrows, _, .head _, rfl, hsource⟩

/-- What is asked of a program that starts in a world: that it keeps the promise. -/
structure Keeps (sch : SignatureScheme) (canonicalize : Canonicalize)
    (calls : List (Site × ConsultCall)) (i : Nat) (p : ConsultProg)
    (w : World ConsultStore ConsultStmt.Answer) : Prop where
  keeps : p.Keeps (participation sch canonicalize calls) (fun _ _ => True) i w

theorem keeps_done {i : Nat} {answer : ConsultResponse}
    (w : World ConsultStore ConsultStmt.Answer) :
    Keeps sch canonicalize calls i (.done answer) w := ⟨trivial⟩

/-- A statement that may be executed, and the rest of its program. -/
theorem keeps_call {i : Nat} {q : ConsultStmt} {k : q.Answer → ConsultProg}
    {w : World ConsultStore ConsultStmt.Answer}
    (h : ∀ w' : World ConsultStore ConsultStmt.Answer, w.db.Grows w'.db →
      ForwardFits sch canonicalize calls i q w' →
        (∀ m, q = .appendConsultMessage m → MayAppend calls i w'.db m) ∧
          Keeps sch canonicalize calls i (k (q.exec w'.db).1) (w'.exec i q)) :
    Keeps sch canonicalize calls i (.call q k) w := by
  refine ⟨fun w' hinv hrel hok => ?_⟩
  obtain ⟨hmay, hrest⟩ := h w' hrel hok
  exact ⟨⟨attributed_exec hinv hmay, ConsultStmt.grows_exec q w'.db⟩, hrest.keeps⟩

/-! ## The routes -/

theorem keeps_answerThread (i : Nat) (threadId : String)
    (w : World ConsultStore ConsultStmt.Answer) :
    Keeps sch canonicalize calls i (answerThread threadId) w := by
  unfold answerThread
  refine keeps_call fun w' _ _ => ⟨nofun, ?_⟩
  split
  · exact keeps_done _
  · exact keeps_done _

/-- A post adds no message. -/
theorem keeps_post {i : Nat} {f : Forward} {k : Unit → ConsultProg}
    (hk : ∀ w, Keeps sch canonicalize calls i (k ()) w)
    (w : World ConsultStore ConsultStmt.Answer) :
    Keeps sch canonicalize calls i (.call (.post f) k) w :=
  keeps_call fun _ _ _ => ⟨nofun, hk _⟩

theorem keeps_forwardTo {i : Nat} {site : Site} {target : PeerRow} {payload : Payload}
    {next : ConsultProg} (hnext : ∀ w, Keeps sch canonicalize calls i next w)
    (w : World ConsultStore ConsultStmt.Answer) :
    Keeps sch canonicalize calls i (forwardTo site target payload next) w := by
  unfold forwardTo
  split
  · exact keeps_done _
  · refine keeps_post (fun w => ?_) w
    split
    · exact hnext w
    · exact keeps_done _

theorem keeps_forwardAcross {i : Nat} {site : Site} {peering : DirectoryPeering}
    {target : L2Endpoint} {payload : Payload} {next : ConsultProg}
    (hnext : ∀ w, Keeps sch canonicalize calls i next w)
    (w : World ConsultStore ConsultStmt.Answer) :
    Keeps sch canonicalize calls i (forwardAcross site peering target payload next) w := by
  unfold forwardAcross
  split
  · refine keeps_post (fun w => ?_) w
    split
    · exact hnext w
    · exact keeps_done _
  · exact keeps_done _

theorem keeps_announceOpening {i : Nat} {site : Site} {selfId selfPersona : String}
    {ids : OpeningIds} {body : ConsultRequest} {routing : Routing}
    (w : World ConsultStore ConsultStmt.Answer) :
    Keeps sch canonicalize calls i (announceOpening site selfId selfPersona ids body routing) w := by
  have hanswer := @keeps_answerThread sch canonicalize calls i ids.threadId
  cases routing with
  | sameL2 => exact hanswer w
  | sibling peer => exact keeps_forwardTo hanswer w
  | xEnterprise peering target => exact keeps_forwardAcross hanswer w

/-- A consult is opened by one of its participants. -/
theorem keeps_openConsult {i : Nat} {p : Site × ConsultCall} (hp : calls[i]? = some p)
    (hlocal : p.2.forwarder = none) {site : Site} {selfId selfPersona : String} {ids : OpeningIds}
    {body : ConsultRequest} {routing : Routing} (w : World ConsultStore ConsultStmt.Answer) :
    Keeps sch canonicalize calls i (openConsult site selfId selfPersona ids body routing) w := by
  unfold openConsult
  refine keeps_call fun w' _ _ => ⟨nofun, ?_⟩
  split
  · rename_i hcreated
    split
    · exact keeps_announceOpening _
    · -- the thread is there from now on, with the sender as its `from` side
      have hfind := ConsultStmt.find_of_created hcreated
      refine keeps_call fun w'' hgrows _ => ⟨?_, ?_⟩
      · rintro m ⟨⟩
        refine ⟨ConsultStore.TakesPart.mono ⟨_, hfind, .inl ⟨rfl, rfl⟩⟩ hgrows, p, hp, ?_⟩
        intro f hf
        rw [hlocal] at hf
        cases hf
      · split
        · exact keeps_announceOpening _
        · exact keeps_done _
  · exact keeps_done _

theorem keeps_requestConsult {i : Nat} {p : Site × ConsultCall} (hp : calls[i]? = some p)
    (hlocal : p.2.forwarder = none) {site : Site} {username : String} {ids : OpeningIds}
    {body : ConsultRequest} (w : World ConsultStore ConsultStmt.Answer) :
    Keeps sch canonicalize calls i (requestConsult site username ids body) w := by
  unfold requestConsult
  split
  · exact keeps_done _
  · split
    · exact keeps_done _
    · exact keeps_openConsult hp hlocal w

/-- A reply is checked against the thread that was read. -/
theorem keeps_postConsultMessage {i : Nat} {p : Site × ConsultCall} (hp : calls[i]? = some p)
    (hlocal : p.2.forwarder = none) {site : Site} {username threadId : String} {reply : Reply}
    (w : World ConsultStore ConsultStmt.Answer) :
    Keeps sch canonicalize calls i (postConsultMessage site username threadId reply) w := by
  unfold postConsultMessage
  split
  · exact keeps_done _
  · rename_i selfId selfPersona hself
    refine keeps_call fun w' _ _ => ⟨nofun, ?_⟩
    split
    · exact keeps_done _
    · rename_i t hread
      split
      · exact keeps_done _
      · rename_i hpart
        split
        · exact keeps_done _
        · split
          · exact keeps_done _
          · have hpart : w'.db.TakesPart (reply.message site selfId selfPersona threadId) :=
              ⟨t, hread, not_not.mp hpart⟩
            refine keeps_call fun w'' hgrows _ => ⟨?_, ?_⟩
            · rintro m ⟨⟩
              refine ⟨hpart.mono hgrows, p, hp, fun f hf => ?_⟩
              rw [hlocal] at hf
              cases hf
            · split
              · split
                · exact keeps_done _
                · exact keeps_forwardTo keeps_done _
              · exact keeps_done _

theorem keeps_closeConsult {i : Nat} {site : Site} {username threadId : String}
    {resolutionSummary : Option String} (w : World ConsultStore ConsultStmt.Answer) :
    Keeps sch canonicalize calls i (closeConsult site username threadId resolutionSummary) w := by
  unfold closeConsult
  split
  · exact keeps_done _
  · refine keeps_call fun w' _ _ => ⟨nofun, ?_⟩
    split
    · exact keeps_done _
    · split
      · exact keeps_done _
      · exact keeps_call fun _ _ _ => ⟨nofun, keeps_answerThread _ _ _⟩

/-- A mirroring appends its message once its sender takes part. -/
theorem keeps_mirroringAppend {i : Nat} {p : Site × ConsultCall} (hp : calls[i]? = some p)
    {m : Mirroring} (hadmitted : p.2.admitted sch canonicalize p.1 = some m)
    {w : World ConsultStore ConsultStmt.Answer}
    (hpart : ∀ x, m.message = some x → w.db.TakesPart x) :
    Keeps sch canonicalize calls i m.append w := by
  unfold Mirroring.append
  split
  · exact keeps_done _
  · rename_i x hx
    refine keeps_call fun w' hgrows _ => ⟨?_, ?_⟩
    · rintro _ ⟨⟩
      refine ⟨(hpart x hx).mono hgrows, p, hp, fun f hf => ?_⟩
      rw [ConsultCall.admitted_sender hadmitted hx] at hf
      exact (Option.some.inj hf).symm
    · split
      · exact keeps_done _
      · exact keeps_done _
      · exact keeps_done _

theorem keeps_mirroring {i : Nat} {p : Site × ConsultCall} (hp : calls[i]? = some p)
    {m : Mirroring} (hadmitted : p.2.admitted sch canonicalize p.1 = some m)
    (w : World ConsultStore ConsultStmt.Answer) :
    Keeps sch canonicalize calls i m.prog w := by
  unfold Mirroring.prog
  refine keeps_call fun w' _ hok => ⟨nofun, ?_⟩
  have hfits := hok p m hp hadmitted rfl
  split
  · -- the thread that was found has the sender among its participants
    rename_i t hread
    refine keeps_mirroringAppend hp hadmitted fun x hx => ?_
    have hsender := hfits x hx
    rw [show w'.db.threads.find m.threadId = some t from hread] at hsender
    exact ⟨t, m.message_threadId x hx ▸ hread, hsender⟩
  · rename_i hread
    split
    · exact keeps_done _
    · rename_i head hhead
      unfold Mirroring.create
      refine keeps_call fun w'' _ _ => ⟨nofun, ?_⟩
      split
      · rename_i hcreated
        refine keeps_mirroringAppend hp hadmitted fun x hx => ?_
        have hsender := hfits x hx
        rw [show w'.db.threads.find m.threadId = none from hread] at hsender
        have hfind := ConsultStmt.find_of_created hcreated
        rw [m.head_threadId head hhead, ← m.message_threadId x hx] at hfind
        exact ⟨_, hfind, hsender head hhead⟩
      · exact keeps_done _

/-- Every request keeps the promise. -/
theorem keeps_prog {i : Nat} {p : Site × ConsultCall} (hp : calls[i]? = some p)
    (w : World ConsultStore ConsultStmt.Answer) :
    Keeps sch canonicalize calls i (p.2.prog sch canonicalize p.1) w := by
  have hforward : p.2.forwarder ≠ none →
      Keeps sch canonicalize calls i (p.2.prog sch canonicalize p.1) w := by
    intro hne
    rcases ConsultCall.prog_of_forwarder hne with ⟨-, r, hr⟩ | ⟨m, hm, hprog⟩
    · rw [hr]
      exact keeps_done _
    · rw [hprog]
      exact keeps_mirroring hp hm w
  obtain ⟨site, call⟩ := p
  cases call with
  | request username ids body => exact keeps_requestConsult hp rfl w
  | reply username threadId reply => exact keeps_postConsultMessage hp rfl w
  | close username threadId resolutionSummary => exact keeps_closeConsult w
  | forwardRequest r body => exact hforward nofun
  | forwardMessage r body => exact hforward nofun
  | xEnterpriseForward r body => exact hforward nofun

/-! ## Every run -/

/-- **Senders take part.** In every run in which each forward fits the thread that it finds
or creates, each message stored has a participant of its thread for its sender, and a
forwarded one has come from the authenticated L2 of that participant. -/
theorem senders_take_part (sch : SignatureScheme) (canonicalize : Canonicalize)
    (calls : List (Site × ConsultCall)) (schedule : List Nat)
    (hfits : (Config.start ConsultStore.empty (consultProgs sch canonicalize calls)).Meets
      (participation sch canonicalize calls).Allows schedule) :
    Attributed calls
      ((Config.start ConsultStore.empty (consultProgs sch canonicalize calls)).run
        schedule).world := by
  have hstart : (participation sch canonicalize calls).Holds (fun _ _ _ => True)
      (Config.start ConsultStore.empty (consultProgs sch canonicalize calls)) := by
    refine Contract.Holds.start ?_ ?_
    · intro m hm
      exact absurd hm (Table.not_mem_empty m)
    · intro i prog hprog
      rw [consultProgs, List.getElem?_map] at hprog
      obtain ⟨p, hp, rfl⟩ := Option.map_eq_some_iff.mp hprog
      exact (keeps_prog hp _).keeps
  exact (Contract.run hstart hfits).1.inv

/-! ## A run -/

/-- Alice of acme's sales opens a consult with bob; a reply under that thread comes from
mallory, of acme's ops. -/
def strangerCalls : List (Site × ConsultCall) :=
  [(acmeSite "eng" noPeers, .forwardRequest (siblingHeaders "acme/sales") (bodyFrom "acme/sales")),
    (acmeSite "eng" noPeers, .forwardMessage (siblingHeaders "acme/ops")
      (messageFrom "acme/ops" "mallory" "msg_2"))]

/-- The first of them alone, in its three steps. -/
def openedRun (schedule : List Nat) : Config ConsultStore ConsultStmt.Answer ConsultResponse :=
  (Config.start .empty (consultProgs .transparent sampleCanonicalize (strangerCalls.take 1))).run
    schedule

/-- Both, one after the other. -/
def strangerRun : Config ConsultStore ConsultStmt.Answer ConsultResponse :=
  (Config.start .empty (consultProgs .transparent sampleCanonicalize strangerCalls)).run
    [0, 0, 0, 1, 1]

/-- Whether a program is about to look for a thread. -/
def looksForThread : ConsultProg → Bool
  | .call (.getConsult _) _ => true
  | _ => false

theorem senders_take_part_sample : Attributed (strangerCalls.take 1) (openedRun [0, 0, 0]).world := by
  refine senders_take_part .transparent sampleCanonicalize (strangerCalls.take 1) [0, 0, 0]
    ⟨?_, ?_, ?_, trivial⟩
  · intro q k _ p m hp hadmitted _
    cases hp
    have hok : admitRequest .transparent sampleCanonicalize (acmeSite "eng" noPeers)
        (siblingHeaders "acme/sales") (bodyFrom "acme/sales") = .ok m := toOption_eq_some hadmitted
    exact senderFits_request (.inl (admitRequest_ok hok).1) rfl
  · intro q k htask p m _ _ hq
    have hlooks : ((openedRun [0]).tasks[0]?.map looksForThread) = some false := by decide +kernel
    subst hq
    rw [show (openedRun [0]).tasks[0]? = some (.call _ k) from htask] at hlooks
    cases hlooks
  · intro q k htask p m _ _ hq
    have hlooks : ((openedRun [0, 0]).tasks[0]?.map looksForThread) = some false := by
      decide +kernel
    subst hq
    rw [show (openedRun [0, 0]).tasks[0]? = some (.call _ k) from htask] at hlooks
    cases hlooks

/-- The stranger's message is stored, in a thread of alice's and bob's. -/
theorem stranger_takes_no_part : ¬ Attributed strangerCalls strangerRun.world := by
  intro h
  have hmem : (messageFrom "acme/ops" "mallory" "msg_2").message ∈ strangerRun.world.db.messages := by
    rw [Table.mem_def]
    decide +kernel
  have hfind : strangerRun.world.db.threads.find "th_1" = some (bodyFrom "acme/sales").head.row := by
    decide +kernel
  obtain ⟨⟨t, ht, hpart⟩, -⟩ := h _ hmem
  cases hfind.symm.trans ht
  revert hpart
  decide +kernel

end EighthLayer.Consults
