import EighthLayer.CrossEnterprise.Selection
import EighthLayer.Lib.Instant
import EighthLayer.Lib.Interleave
import EighthLayer.Lib.Table

/-!
# EighthLayer.CrossEnterprise.Signing

Consents to another Enterprise are signed and revoked by admins, several at once.

A consent is signed after a look for an active one of the same two Enterprises and groups. The
look and the insert are two statements: two admins who have both looked sign two consents. Where
none is inserted in between, there is at most one that is active (`one_active_consent`).
-/

namespace EighthLayer.CrossEnterprise

open Lib Aigrp

/-! ## The tables -/

/-- The two Enterprises of a consent, and their groups. -/
structure ConsentPair where
  requesterEnterprise : String
  requesterGroup : Option String
  responderEnterprise : String
  responderGroup : Option String
deriving DecidableEq

def pairOf (c : ConsentRow) : ConsentPair where
  requesterEnterprise := c.requesterEnterprise
  requesterGroup := c.requesterGroup
  responderEnterprise := c.responderEnterprise
  responderGroup := c.responderGroup

/-- A row of `cross_l2_audit`, as far as these routes write it. -/
structure AuditRow where
  auditId : String
  ts : String
  pair : ConsentPair
  policyApplied : String
  consentId : String

/-- The two tables, and the time. -/
structure ConsentDb where
  consents : Table ConsentRow.consentId
  audits : Table AuditRow.auditId
  clock : Clock

/-- `UPDATE … SET expires_at = :rt`. -/
def expireAt (at_ : String) (c : ConsentRow) : ConsentRow := { c with expiresAt := some at_ }

/-! ## Statements -/

/-- The statements of the routes. -/
inductive ConsentStmt where
  /-- `now_iso`. -/
  | nowIso
  /-- `find_active_consent_for_pair`. The row is read by its id once that is found; no row is ever
  removed. -/
  | findActive (pair : ConsentPair) (now : String)
  /-- `get_cross_enterprise_consent`. -/
  | getConsent (consentId : String)
  /-- `insert_cross_enterprise_consent`. -/
  | insert (c : ConsentRow)
  /-- `revoke_cross_enterprise_consent`. -/
  | revoke (consentId revokedAt : String)
  /-- `record_cross_l2_audit`. -/
  | audit (row : AuditRow)
  /-- Time passes. -/
  | tick (until_ : Clock)

/-- What a statement answers: for an insert, whether its ids were new. -/
@[reducible] def ConsentStmt.Answer : ConsentStmt → Type
  | nowIso => Clock
  | findActive _ _ | getConsent _ => Option ConsentRow
  | insert _ | revoke _ _ | audit _ => Bool
  | tick _ => Unit

/-- What a statement does. -/
def ConsentStmt.exec : (q : ConsentStmt) → ConsentDb → q.Answer × ConsentDb
  | nowIso, s => (s.clock, s)
  | findActive pair now, s =>
      (s.consents.rows.find? fun c => pairOf c = pair ∧ c.active now = true, s)
  | getConsent consentId, s => (s.consents.find consentId, s)
  | insert c, s =>
      if s.consents.rows.any fun c' => c'.auditLogId = c.auditLogId then (false, s)
      else match s.consents.insert c with
        | none => (false, s)
        | some consents => (true, { s with consents })
  | revoke consentId revokedAt, s =>
      ((s.consents.find consentId).isSome, { s with
        consents := s.consents.update (fun c => c.consentId = consentId) (expireAt revokedAt)
          fun _ => rfl })
  | audit row, s =>
      match s.audits.insert row with
      | none => (false, s)
      | some audits => (true, { s with audits })
  | tick until_, s =>
      ((), { s with clock := if s.clock.instant < until_.instant then until_ else s.clock })

instance : Database ConsentDb ConsentStmt.Answer := ⟨ConsentStmt.exec⟩

/-- The worlds of the routes. -/
abbrev ConsentWorld : Type := World ConsentDb ConsentStmt.Answer

/-- A program of these statements. -/
abbrev ConsentProg : Type → Type := Prog ConsentStmt.Answer

/-! ## The routes -/

/-- `SignConsentRequest`, as validated. -/
structure SignConsentRequest where
  requesterEnterprise : String
  responderEnterprise : String
  requesterGroup : Option String
  responderGroup : Option String
  policy : String
  expiresAt : Option String
  requesterEnterprise_ne : requesterEnterprise ≠ ""
  responderEnterprise_ne : responderEnterprise ≠ ""

/-- The pair that is asked for. -/
def SignConsentRequest.pair (r : SignConsentRequest) : ConsentPair where
  requesterEnterprise := r.requesterEnterprise
  requesterGroup := r.requesterGroup
  responderEnterprise := r.responderEnterprise
  responderGroup := r.responderGroup

/-- What the routes answer. -/
inductive ConsentAnswer where
  | signed (consentId signedByAdmin signedAt auditLogId : String)
  | revoked (consentId revokedAt revokedByAdmin : String)
  | sameEnterprise
  | unsupportedPolicy (policy : String)
  | alreadyActive (consentId : String)
  | notFound
  /-- An id was there already. -/
  | integrityError
  /-- Time has passed. -/
  | elapsed
deriving DecidableEq

/-- The HTTP status of an answer. -/
def ConsentAnswer.status : ConsentAnswer → Nat
  | signed .. => 201
  | revoked .. | elapsed => 200
  | sameEnterprise | unsupportedPolicy _ => 422
  | alreadyActive _ => 409
  | notFound => 404
  | integrityError => 500

/-- The row that a request writes. -/
def signedRow (consentId auditLogId admin signedAt : String) (r : SignConsentRequest) :
    ConsentRow where
  consentId
  requesterEnterprise := r.requesterEnterprise
  responderEnterprise := r.responderEnterprise
  requesterGroup := r.requesterGroup
  responderGroup := r.responderGroup
  policy := r.policy
  signedByAdmin := admin
  signedAt
  expiresAt := r.expiresAt
  auditLogId

@[simp] theorem pairOf_signedRow (consentId auditLogId admin signedAt : String)
    (r : SignConsentRequest) : pairOf (signedRow consentId auditLogId admin signedAt r) = r.pair :=
  rfl

@[simp] theorem pairOf_expireAt (at_ : String) (c : ConsentRow) :
    pairOf (expireAt at_ c) = pairOf c := rfl

/-- `consents_sign`, with the ids that it draws. -/
def consentsSign (consentId auditLogId admin : String) (r : SignConsentRequest) :
    ConsentProg ConsentAnswer :=
  if r.requesterEnterprise = r.responderEnterprise then .done .sameEnterprise
  else if r.policy ≠ "summary_only" then .done (.unsupportedPolicy r.policy)
  else .call .nowIso fun (now : Clock) =>
    .call (.findActive r.pair now.isoformat) fun (existing : Option ConsentRow) =>
      match existing with
      | some c => .done (.alreadyActive c.consentId)
      | none =>
        .call (.insert (signedRow consentId auditLogId admin now.isoformat r)) fun
          | false => .done .integrityError
          | true =>
            .call (.audit ⟨auditLogId, now.isoformat, r.pair, "consent_signed", consentId⟩) fun
              | false => .done .integrityError
              | true => .done (.signed consentId admin now.isoformat auditLogId)

/-- `consents_revoke`, with the id that it draws. -/
def consentsRevoke (consentId auditId admin : String) : ConsentProg ConsentAnswer :=
  .call (.getConsent consentId) fun (row : Option ConsentRow) =>
    match row with
    | none => .done .notFound
    | some c => .call .nowIso fun (now : Clock) =>
      .call (.revoke consentId now.isoformat) fun (_ : Bool) =>
        .call (.audit ⟨auditId, now.isoformat, pairOf c, "consent_revoked", consentId⟩) fun
          | false => .done .integrityError
          | true => .done (.revoked consentId now.isoformat admin)

/-- Some time passes, and then some more. -/
def elapse : List Clock → ConsentProg ConsentAnswer
  | [] => .done .elapsed
  | c :: rest => .call (.tick c) fun _ => elapse rest

/-- What goes on: requests of admins, and time. -/
inductive ConsentCall where
  | sign (consentId auditLogId admin : String) (r : SignConsentRequest)
  | revoke (consentId auditId admin : String)
  | elapse (times : List Clock)

/-- The program of a call. -/
def ConsentCall.prog : ConsentCall → ConsentProg ConsentAnswer
  | sign consentId auditLogId admin r => consentsSign consentId auditLogId admin r
  | revoke consentId auditId admin => consentsRevoke consentId auditId admin
  | elapse times => CrossEnterprise.elapse times

/-- Calls that are about to start, at a time, with no consents. -/
def consentStart (clock : Clock) (calls : List ConsentCall) :
    Config ConsentDb ConsentStmt.Answer ConsentAnswer :=
  Config.start ⟨.empty, .empty, clock⟩ (calls.map ConsentCall.prog)

/-! ## At most one -/

/-- Of each pair at most one consent is active at the present time, as the routes judge it. -/
def OneActive (s : ConsentDb) : Prop :=
  ∀ c ∈ s.consents, ∀ c' ∈ s.consents, pairOf c = pairOf c' →
    c.active s.clock.isoformat = true → c'.active s.clock.isoformat = true → c = c'

/-- A consent has not been revoked and has not expired: its expiry, if it has one, denotes a later
instant. -/
def Unexpired (c : ConsentRow) (now : Clock) : Prop :=
  ∀ text, c.expiresAt = some text → ∃ e, instantOf text = some e ∧ now.instant < e

/-- Of each pair at most one consent is unexpired at the present time. -/
def OneUnexpired (s : ConsentDb) : Prop :=
  ∀ c ∈ s.consents, ∀ c' ∈ s.consents, pairOf c = pairOf c' →
    Unexpired c s.clock → Unexpired c' s.clock → c = c'

/-- A text that denotes an instant sorts after the texts of all earlier times. -/
def SortsLater (text : String) : Prop :=
  ∀ (now : Clock) (e : Int), instantOf text = some e → now.instant < e → now.isoformat < text

theorem sortsLater_isoformat (c : Clock) : SortsLater c.isoformat := by
  intro now e he hlt
  cases (instantOf_isoformat c).symm.trans he
  exact Clock.isoformat_lt_isoformat.mpr hlt

theorem active_of_unexpired {c : ConsentRow} {now : Clock}
    (hsorts : ∀ text, c.expiresAt = some text → SortsLater text) (h : Unexpired c now) :
    c.active now.isoformat = true := by
  unfold ConsentRow.active
  cases hexpires : c.expiresAt with
  | none => rfl
  | some text =>
      obtain ⟨e, he, hlt⟩ := h text hexpires
      exact decide_eq_true (hsorts text hexpires now e he hlt)

/-- What is active was so before. -/
theorem active_of_later {c : ConsentRow} {now later : Clock} (hle : now.instant ≤ later.instant)
    (h : c.active later.isoformat = true) : c.active now.isoformat = true := by
  unfold ConsentRow.active at h ⊢
  cases hexpires : c.expiresAt with
  | none => rfl
  | some text =>
      rw [hexpires] at h
      have hlt := of_decide_eq_true h
      have hnot : ¬ later.isoformat < now.isoformat := by
        rw [Clock.isoformat_lt_isoformat]
        exact not_lt.mpr hle
      exact decide_eq_true ((not_lt.mp hnot).trans_lt hlt)

/-- What has been revoked is not active. -/
theorem active_expireAt {c : ConsentRow} {at_ now : Clock} (hle : at_.instant ≤ now.instant) :
    (expireAt at_.isoformat c).active now.isoformat = false := by
  have hnot : ¬ now.isoformat < at_.isoformat := by
    rw [Clock.isoformat_lt_isoformat]
    exact not_lt.mpr hle
  exact decide_eq_false hnot

/-! ## The condition -/

/-- Call `i` looks for an active consent of the pair. -/
def looksFor (i : Nat) (pair : ConsentPair) : Event ConsentStmt.Answer → Bool
  | ⟨j, .findActive pair' _, _⟩ => j = i && pair' = pair
  | _ => false

/-- A consent of the pair is inserted. -/
def insertsFor (pair : ConsentPair) : Event ConsentStmt.Answer → Bool
  | ⟨_, .insert c, true⟩ => pairOf c = pair
  | _ => false

/-- Since call `i` has looked for a consent of the pair, none has been inserted. -/
def NoneSince (i : Nat) (pair : ConsentPair) : List (Event ConsentStmt.Answer) → Bool
  | [] => false
  | e :: earlier => looksFor i pair e || (!insertsFor pair e && NoneSince i pair earlier)

/-- A call inserts a consent only if none of the same pair has been inserted since it has looked. -/
def Undisturbed (i : Nat) : ConsentStmt → ConsentWorld → Prop
  | .insert c, w => NoneSince i (pairOf c) w.log = true
  | _, _ => True

instance (i : Nat) : (q : ConsentStmt) → (w : ConsentWorld) → Decidable (Undisturbed i q w)
  | .insert c, w => inferInstanceAs (Decidable (NoneSince i (pairOf c) w.log = true))
  | .nowIso, _ | .findActive _ _, _ | .getConsent _, _ | .revoke _ _, _ | .audit _, _
  | .tick _, _ => isTrue trivial

/-! ## What a call does by itself -/

/-- What a call has seen when it issues a statement: the time that it gives is one that it has
read, and what it inserts is what was asked for, after a look that has found nothing. -/
def Seen (calls : List ConsentCall) (i : Nat) (past : List (Event ConsentStmt.Answer))
    (p : ConsentProg ConsentAnswer) : Prop :=
  match p with
  | .call (.findActive _ now) _ => ∃ c : Clock, now = c.isoformat ∧ ⟨i, .nowIso, c⟩ ∈ past
  | .call (.revoke _ revokedAt) _ =>
      ∃ c : Clock, revokedAt = c.isoformat ∧ ⟨i, .nowIso, c⟩ ∈ past
  | .call (.insert c) _ =>
      (∀ e ∈ past, looksFor i (pairOf c) e = true →
        ∃ now, e = ⟨i, .findActive (pairOf c) now, (none : Option ConsentRow)⟩) ∧
      c.policy = "summary_only" ∧
      ∃ consentId auditLogId admin r, .sign consentId auditLogId admin r ∈ calls ∧
        c.expiresAt = r.expiresAt
  | _ => True

theorem seen_sign {calls : List ConsentCall} {consentId auditLogId admin : String}
    {r : SignConsentRequest} (hcall : .sign consentId auditLogId admin r ∈ calls) (i : Nat) :
    (consentsSign consentId auditLogId admin r).Always (Seen calls i) i [] := by
  unfold consentsSign
  split
  · exact .done trivial
  · split
    · exact .done trivial
    · rename_i hpolicy
      refine .call trivial fun (now : Clock) => .call ⟨now, rfl, List.mem_cons_self⟩ ?_
      rintro (_ | c)
      · refine .call ⟨?_, not_not.mp hpolicy, _, _, _, r, hcall, rfl⟩ ?_
        · intro e he hlooks
          rcases List.mem_cons.mp he with rfl | he
          · exact ⟨_, rfl⟩
          · cases List.mem_singleton.mp he
            cases hlooks
        · rintro (_ | _)
          · exact .done trivial
          · refine .call trivial ?_
            rintro (_ | _)
            · exact .done trivial
            · exact .done trivial
      · exact .done trivial

theorem seen_revoke (calls : List ConsentCall) (consentId auditId admin : String) (i : Nat) :
    (consentsRevoke consentId auditId admin).Always (Seen calls i) i [] := by
  refine .call trivial ?_
  rintro (_ | c)
  · exact .done trivial
  · refine .call trivial fun (now : Clock) => .call ⟨now, rfl, List.mem_cons_self⟩ fun _ =>
      .call trivial ?_
    rintro (_ | _)
    · exact .done trivial
    · exact .done trivial

theorem seen_elapse (calls : List ConsentCall) (times : List Clock) (i : Nat)
    (past : List (Event ConsentStmt.Answer)) : (elapse times).Always (Seen calls i) i past := by
  induction times generalizing past with
  | nil => exact .done trivial
  | cons c rest ih => exact .call trivial fun _ => ih _

theorem seen_prog {calls : List ConsentCall} {call : ConsentCall} (hcall : call ∈ calls) (i : Nat) :
    call.prog.Always (Seen calls i) i [] := by
  cases call with
  | sign consentId auditLogId admin r => exact seen_sign hcall i
  | revoke consentId auditId admin => exact seen_revoke calls consentId auditId admin i
  | elapse times => exact seen_elapse calls times i []

/-! ## Steps -/

/-- Call `i` has looked for a consent of the pair and found none, and none has been inserted
since. -/
def FoundFree (i : Nat) (pair : ConsentPair) : List (Event ConsentStmt.Answer) → Prop
  | [] => False
  | e :: earlier =>
    (∃ now, e = ⟨i, .findActive pair now, (none : Option ConsentRow)⟩) ∨
      (insertsFor pair e = false ∧ FoundFree i pair earlier)

theorem foundFree_of_noneSince {i : Nat} {pair : ConsentPair}
    {log : List (Event ConsentStmt.Answer)} (h : NoneSince i pair log = true)
    (hlooked : ∀ e ∈ log, looksFor i pair e = true →
      ∃ now, e = ⟨i, .findActive pair now, (none : Option ConsentRow)⟩) :
    FoundFree i pair log := by
  induction log with
  | nil => cases h
  | cons e earlier ih =>
      rw [NoneSince, Bool.or_eq_true, Bool.and_eq_true, Bool.not_eq_true'] at h
      rcases h with hlooks | ⟨hinserts, hsince⟩
      · exact .inl (hlooked e List.mem_cons_self hlooks)
      · exact .inr ⟨hinserts, ih hsince fun e' he' => hlooked e' (List.mem_cons_of_mem _ he')⟩

/-- What holds at all times. -/
structure Sound (calls : List ConsentCall) (w : ConsentWorld) : Prop where
  one : OneActive w.db
  /-- Every time that has been read is past. -/
  read : ∀ (i : Nat) (c : Clock), ⟨i, .nowIso, c⟩ ∈ w.log → c.instant ≤ w.db.clock.instant
  /-- Where a look has found nothing, and nothing has been inserted since, nothing is active. -/
  clear : ∀ i pair, FoundFree i pair w.log → ∀ c ∈ w.db.consents, pairOf c = pair →
    c.active w.db.clock.isoformat = false
  /-- An expiry is a time that has been written, or what was asked for. -/
  expiry : ∀ c ∈ w.db.consents, ∀ text, c.expiresAt = some text →
    (∃ at_ : Clock, text = at_.isoformat) ∨
      ∃ consentId auditLogId admin r, .sign consentId auditLogId admin r ∈ calls ∧
        r.expiresAt = some text

theorem consents_setClock (s : ConsentDb) (clock : Clock) :
    { s with clock := clock }.consents = s.consents := rfl

/-- Time leaves the consents alone. The two databases are never compared as a whole. -/
theorem exec_tick_consents (until_ : Clock) (s : ConsentDb) :
    (ConsentStmt.exec (.tick until_) s).2.consents = s.consents := consents_setClock s _

/-- What a statement leaves in the table was there, perhaps not expired yet, or is inserted. -/
theorem mem_exec_consents {q : ConsentStmt} {s : ConsentDb} {c : ConsentRow}
    (hc : c ∈ (q.exec s).2.consents) :
    c ∈ s.consents ∨
      (∃ consentId revokedAt, q = .revoke consentId revokedAt ∧
        ∃ c₀ ∈ s.consents, c = expireAt revokedAt c₀) ∨ q = .insert c := by
  cases q with
  | insert c' =>
      unfold ConsentStmt.exec at hc
      dsimp only at hc
      split at hc
      · exact .inl hc
      · split at hc
        · exact .inl hc
        · rename_i consents hinsert
          rcases (Table.mem_insert hinsert).mp hc with hold | rfl
          · exact .inl hold
          · exact .inr (.inr rfl)
  | revoke consentId revokedAt =>
      obtain ⟨c₀, hc₀, rfl⟩ := (@Table.mem_update _ _ _ s.consents _ (expireAt revokedAt)
        (fun _ => rfl) c).mp hc
      split
      · exact .inr (.inl ⟨_, _, rfl, c₀, hc₀, rfl⟩)
      · exact .inl hc₀
  | audit row =>
      unfold ConsentStmt.exec at hc
      dsimp only at hc
      split at hc
      · exact .inl hc
      · exact .inl hc
  | tick until_ =>
      rw [exec_tick_consents] at hc
      exact .inl hc
  | _ => exact .inl hc

section Step

variable {calls : List ConsentCall} {w : ConsentWorld} {i : Nat}

theorem looked_inj {j : Nat} {pair pair' : ConsentPair} {now now' : String}
    {a a' : Option ConsentRow}
    (h : (⟨i, .findActive pair now, a⟩ : Event ConsentStmt.Answer) =
      ⟨j, .findActive pair' now', a'⟩) : pair = pair' ∧ a = a' := by
  cases h
  exact ⟨rfl, rfl⟩

/-- An event that is not a look. -/
theorem foundFree_cons {j : Nat} {pair : ConsentPair} {e : Event ConsentStmt.Answer}
    {earlier : List (Event ConsentStmt.Answer)} (h : FoundFree j pair (e :: earlier))
    (hlooks : looksFor j pair e = false) : FoundFree j pair earlier := by
  rcases h with ⟨now, rfl⟩ | ⟨-, h⟩
  · simp [looksFor] at hlooks
  · exact h

theorem Sound.exec_nowIso (h : Sound calls w) : Sound calls (w.exec i .nowIso) where
  one := h.one
  read := by
    intro j c hmem
    rcases List.mem_cons.mp hmem with heq | hmem
    · cases heq
      exact le_rfl
    · exact h.read j c hmem
  clear := fun j pair hfree => h.clear j pair (foundFree_cons hfree rfl)
  expiry := h.expiry

theorem Sound.exec_findActive (h : Sound calls w) {pair : ConsentPair} {now : String}
    (hnow : ∃ c : Clock, now = c.isoformat ∧ ⟨i, .nowIso, c⟩ ∈ w.log) :
    Sound calls (w.exec i (.findActive pair now)) where
  one := h.one
  read := by
    intro j c hmem
    rcases List.mem_cons.mp hmem with heq | hmem
    · cases heq
    · exact h.read j c hmem
  clear := by
    rintro j pair' (⟨now', heq⟩ | ⟨-, hfree⟩) c hc hpair
    · -- nothing was active at the time that the call has read, so nothing is now
      obtain ⟨t, rfl, hread⟩ := hnow
      obtain ⟨rfl, hnone⟩ := looked_inj heq
      have hnot := List.find?_eq_none.mp hnone c hc
      refine Bool.eq_false_iff.mpr fun hactive => hnot ?_
      exact decide_eq_true ⟨hpair, active_of_later (h.read i t hread) hactive⟩
    · exact h.clear j pair' hfree c hc hpair
  expiry := h.expiry

/-- A statement that leaves the consents and the time as they are, and asks for neither. -/
theorem Sound.exec_of_same (h : Sound calls w) {q : ConsentStmt}
    (hconsents : (q.exec w.db).2.consents = w.db.consents)
    (hclock : (q.exec w.db).2.clock = w.db.clock)
    (hread : ∀ (c : Clock), (⟨i, q, (q.exec w.db).1⟩ : Event ConsentStmt.Answer) ≠ ⟨i, .nowIso, c⟩)
    (hlooks : ∀ j pair, looksFor j pair ⟨i, q, (q.exec w.db).1⟩ = false) :
    Sound calls (w.exec i q) := by
  have hdb : (w.exec i q).db.consents = w.db.consents := hconsents
  have htime : (w.exec i q).db.clock = w.db.clock := hclock
  refine ⟨?_, fun j c hmem => ?_, fun j pair hfree => ?_, ?_⟩
  · unfold OneActive
    rw [hdb, htime]
    exact h.one
  · rw [htime]
    rcases List.mem_cons.mp hmem with heq | hmem
    · obtain rfl : j = i := congrArg Event.task heq
      exact absurd heq.symm (hread c)
    · exact h.read j c hmem
  · rw [hdb, htime]
    exact h.clear j pair (foundFree_cons hfree (hlooks j pair))
  · rw [hdb]
    exact h.expiry

theorem Sound.exec_tick (h : Sound calls w) (until_ : Clock) :
    Sound calls (w.exec i (.tick until_)) := by
  have hdb : (w.exec i (.tick until_)).db.consents = w.db.consents :=
    exec_tick_consents until_ w.db
  have hlater : w.db.clock.instant ≤ (w.exec i (.tick until_)).db.clock.instant := by
    show _ ≤ (if w.db.clock.instant < until_.instant then until_ else w.db.clock).instant
    split
    · rename_i hlt
      exact hlt.le
    · exact le_rfl
  refine ⟨?_, fun j c hmem => ?_, fun j pair hfree c hc hpair => ?_, ?_⟩
  · intro c hc c' hc' hpair hactive hactive'
    rw [hdb] at hc hc'
    exact h.one c hc c' hc' hpair (active_of_later hlater hactive)
      (active_of_later hlater hactive')
  · rcases List.mem_cons.mp hmem with heq | hmem
    · cases heq
    · exact (h.read j c hmem).trans hlater
  · rw [hdb] at hc
    have hnot := h.clear j pair (foundFree_cons hfree rfl) c hc hpair
    refine Bool.eq_false_iff.mpr fun hactive => ?_
    rw [active_of_later hlater hactive] at hnot
    cases hnot
  · rw [hdb]
    exact h.expiry

theorem Sound.exec_revoke (h : Sound calls w) {consentId : String} {revokedAt : Clock}
    (hread : (⟨i, .nowIso, revokedAt⟩ : Event ConsentStmt.Answer) ∈ w.log) :
    Sound calls (w.exec i (.revoke consentId revokedAt.isoformat)) := by
  have hpast := h.read i revokedAt hread
  have hmem : ∀ {c : ConsentRow},
      c ∈ (w.exec i (.revoke consentId revokedAt.isoformat)).db.consents →
        c ∈ w.db.consents ∨ ∃ c₀ ∈ w.db.consents, c = expireAt revokedAt.isoformat c₀ := by
    intro c hc
    rcases mem_exec_consents hc with hold | ⟨_, _, heq, hexpired⟩ | heq
    · exact .inl hold
    · cases heq
      exact .inr hexpired
    · cases heq
  have hexpired : ∀ c₀ : ConsentRow,
      (expireAt revokedAt.isoformat c₀).active w.db.clock.isoformat = false :=
    fun c₀ => active_expireAt hpast
  refine ⟨?_, fun j c hmem => ?_, fun j pair hfree c hc hpair => ?_, fun c hc text htext => ?_⟩
  · intro c hc c' hc' hpair hactive hactive'
    rcases hmem hc with hold | ⟨c₀, -, rfl⟩
    · rcases hmem hc' with hold' | ⟨c₁, -, rfl⟩
      · exact h.one c hold c' hold' hpair hactive hactive'
      · exact absurd ((hexpired c₁).symm.trans hactive') (by decide)
    · exact absurd ((hexpired c₀).symm.trans hactive) (by decide)
  · rcases List.mem_cons.mp hmem with heq | hmem
    · cases heq
    · exact h.read j c hmem
  · rcases hmem hc with hold | ⟨c₀, -, rfl⟩
    · exact h.clear j pair (foundFree_cons hfree rfl) c hold hpair
    · exact hexpired c₀
  · rcases hmem hc with hold | ⟨c₀, -, rfl⟩
    · exact h.expiry c hold text htext
    · exact .inl ⟨revokedAt, (Option.some.inj htext).symm⟩

theorem Sound.exec_insert (h : Sound calls w) {c : ConsentRow}
    (hfree : FoundFree i (pairOf c) w.log)
    (hexpiry : ∃ consentId auditLogId admin r, .sign consentId auditLogId admin r ∈ calls ∧
      c.expiresAt = r.expiresAt) : Sound calls (w.exec i (.insert c)) := by
  have hclock : (w.exec i (.insert c)).db.clock = w.db.clock := by
    show (ConsentStmt.exec (.insert c) w.db).2.clock = _
    unfold ConsentStmt.exec
    dsimp only
    split
    · rfl
    · split
      · rfl
      · rfl
  by_cases hins : (ConsentStmt.exec (.insert c) w.db).1 = true
  · -- the row is new, and the only active one of its pair
    have hmem : ∀ {c' : ConsentRow}, c' ∈ (w.exec i (.insert c)).db.consents →
        c' ∈ w.db.consents ∨ c' = c := by
      intro c' hc'
      rcases mem_exec_consents hc' with hold | ⟨_, _, heq, -⟩ | heq
      · exact .inl hold
      · cases heq
      · cases heq
        exact .inr rfl
    have hevent : (⟨i, .insert c, (ConsentStmt.exec (.insert c) w.db).1⟩ :
        Event ConsentStmt.Answer) = ⟨i, .insert c, true⟩ := by rw [hins]
    refine ⟨?_, fun j t hmem => ?_, fun j pair hfree' c' hc' hpair => ?_,
      fun c' hc' text htext => ?_⟩
    · rw [OneActive, hclock]
      intro c₁ hc₁ c₂ hc₂ hpair hactive hactive'
      rcases hmem hc₁ with hold₁ | rfl
      · rcases hmem hc₂ with hold₂ | rfl
        · exact h.one c₁ hold₁ c₂ hold₂ hpair hactive hactive'
        · have hnot := h.clear i _ hfree c₁ hold₁ hpair
          rw [hactive] at hnot
          cases hnot
      · rcases hmem hc₂ with hold₂ | rfl
        · have hnot := h.clear i _ hfree c₂ hold₂ hpair.symm
          rw [hactive'] at hnot
          cases hnot
        · rfl
    · rw [hclock]
      rcases List.mem_cons.mp hmem with heq | hmem
      · cases heq
      · exact h.read j t hmem
    · rw [hclock]
      rcases hfree' with ⟨now, heq⟩ | ⟨hinserts, hfree'⟩
      · cases heq
      · rcases hmem hc' with hc' | rfl
        · exact h.clear j pair hfree' c' hc' hpair
        · change insertsFor pair ⟨i, .insert c', (ConsentStmt.exec (.insert c') w.db).1⟩ =
            false at hinserts
          rw [hevent] at hinserts
          simp [insertsFor, hpair] at hinserts
    · rcases hmem hc' with hc' | rfl
      · exact h.expiry c' hc' text htext
      · obtain ⟨consentId, auditLogId, admin, r, hcall, heq⟩ := hexpiry
        exact .inr ⟨consentId, auditLogId, admin, r, hcall, heq ▸ htext⟩
  · have hsame : (ConsentStmt.exec (.insert c) w.db).2.consents = w.db.consents := by
      unfold ConsentStmt.exec at hins ⊢
      dsimp only at hins ⊢
      split
      · rfl
      · rename_i hnew
        rw [if_neg hnew] at hins
        split
        · rfl
        · rename_i consents hinsert
          rw [hinsert] at hins
          exact absurd rfl hins
    exact h.exec_of_same hsame hclock (fun t heq => by cases heq) (fun _ _ => rfl)

theorem Sound.exec (h : Sound calls w) {q : ConsentStmt} {k : q.Answer → ConsentProg ConsentAnswer}
    (hseen : Seen calls i (w.own i) (.call q k)) (hok : Undisturbed i q w) :
    Sound calls (w.exec i q) := by
  cases q with
  | nowIso => exact h.exec_nowIso
  | findActive pair now =>
      obtain ⟨c, rfl, hread⟩ := hseen
      exact h.exec_findActive ⟨c, rfl, (World.mem_own.mp hread).1⟩
  | getConsent consentId =>
      exact h.exec_of_same rfl rfl (fun t heq => by cases heq) (fun _ _ => rfl)
  | insert c =>
      obtain ⟨hlooked, -, hexpiry⟩ := hseen
      refine h.exec_insert (foundFree_of_noneSince hok fun e he hlooks => ?_) hexpiry
      refine hlooked e (World.mem_own.mpr ⟨he, ?_⟩) hlooks
      obtain ⟨j, q, a⟩ := e
      cases q with
      | findActive pair now => exact of_decide_eq_true (Bool.and_eq_true_iff.mp hlooks).1
      | _ => cases hlooks
  | revoke consentId revokedAt =>
      obtain ⟨c, rfl, hread⟩ := hseen
      exact h.exec_revoke (World.mem_own.mp hread).1
  | audit row =>
      refine h.exec_of_same ?_ ?_ (fun t heq => by cases heq) (fun _ _ => rfl)
      · unfold ConsentStmt.exec
        dsimp only
        split
        · rfl
        · rfl
      · unfold ConsentStmt.exec
        dsimp only
        split
        · rfl
        · rfl
  | tick until_ => exact h.exec_tick until_

end Step

/-! ## Runs -/

theorem sound_run (clock : Clock) (calls : List ConsentCall) {schedule : List Nat}
    (hmeets : (consentStart clock calls).Meets (Config.NextIn Undisturbed) schedule) :
    Sound calls ((consentStart clock calls).run schedule).world := by
  refine Config.run_guarded (P := Sound calls) (T := Seen calls)
    (fun c i q k h htask hseen hok => h.exec hseen (hok.ok htask)) ?_ (fun i p hp => ?_) hmeets
  · exact ⟨fun c hc => absurd hc (Table.not_mem_empty c), fun _ _ hmem => absurd hmem
      List.not_mem_nil, fun _ _ h => h.elim, fun c hc => absurd hc (Table.not_mem_empty c)⟩
  · obtain ⟨call, hcall, rfl⟩ := List.mem_map.mp (List.mem_of_getElem? hp)
    exact seen_prog hcall i

/-- Whatever is signed, and however the calls interleave, the table has one policy alone. -/
theorem signed_summary_only (clock : Clock) (calls : List ConsentCall) (schedule : List Nat) :
    ∀ c ∈ ((consentStart clock calls).run schedule).world.db.consents,
      c.policy = "summary_only" := by
  refine Config.run_guarded (T := Seen calls)
    (P := fun w : ConsentWorld => ∀ c ∈ w.db.consents, c.policy = "summary_only")
    (fun c i q k h htask hseen _ => ?_) (fun c hc => absurd hc (Table.not_mem_empty c))
    (fun i p hp => ?_) (Config.meets_true _ schedule)
  · intro row hrow
    rcases mem_exec_consents hrow with hold | ⟨_, _, -, row₀, hold, rfl⟩ | rfl
    · exact h row hold
    · exact h row₀ hold
    · exact hseen.2.1
  · obtain ⟨call, hcall, rfl⟩ := List.mem_map.mp (List.mem_of_getElem? hp)
    exact seen_prog hcall i

/-- Of a table that the routes have written, a request is answered under the same policy in every
order of the rows. -/
theorem signed_policy_same (clock : Clock) (calls : List ConsentCall) (schedule : List Nat)
    (reqEnt respEnt : String) (reqGrp respGrp : Option String) (now : String)
    (rows : List ConsentRow)
    (hperm : rows.Perm ((consentStart clock calls).run schedule).world.db.consents.rows) :
    (findCrossEnterpriseConsent rows reqEnt respEnt reqGrp respGrp now).map ConsentRow.policy =
      (findCrossEnterpriseConsent ((consentStart clock calls).run schedule).world.db.consents.rows
        reqEnt respEnt reqGrp respGrp now).map ConsentRow.policy := by
  refine policy_same_iff.mpr (fun c c' hc hc' => ?_) rows hperm
  have hpolicy := signed_summary_only clock calls schedule
  exact (hpolicy c hc.1).trans (hpolicy c' hc'.1).symm

/-- **At most one consent.** In every run in which each call inserts a consent only where none of
the same pair has been inserted since its look, of each pair at most one is active; and where the
expiries that are asked for sort after all earlier times, at most one is unexpired. -/
theorem one_active_consent (clock : Clock) (calls : List ConsentCall) {schedule : List Nat}
    (hmeets : (consentStart clock calls).Meets (Config.NextIn Undisturbed) schedule) :
    OneActive ((consentStart clock calls).run schedule).world.db ∧
    ((∀ consentId auditLogId admin r, .sign consentId auditLogId admin r ∈ calls →
        ∀ text, r.expiresAt = some text → SortsLater text) →
      OneUnexpired ((consentStart clock calls).run schedule).world.db) := by
  have hsound := sound_run clock calls hmeets
  refine ⟨hsound.one, fun hsorts c hc c' hc' hpair hlive hlive' => ?_⟩
  have hlater : ∀ c ∈ ((consentStart clock calls).run schedule).world.db.consents,
      ∀ text, c.expiresAt = some text → SortsLater text := by
    intro c hc text htext
    rcases hsound.expiry c hc text htext with ⟨at_, rfl⟩ | ⟨_, _, _, r, hcall, hr⟩
    · exact sortsLater_isoformat at_
    · exact hsorts _ _ _ r hcall text hr
  exact hsound.one c hc c' hc' hpair (active_of_unexpired (hlater c hc) hlive)
    (active_of_unexpired (hlater c' hc') hlive')

/-! ### Two admins -/

/-- Noon UTC, and an hour later. -/
def noon : Clock where
  stamp := ⟨⟨2026, 6, 1, Written.year_ge, Written.year_le, Written.june_ge, Written.june_le,
      Written.first_ge, Written.june_first_le⟩, 12, 0, 0,
    Written.hour_twelve, Written.sixtieth_zero, Written.sixtieth_zero⟩
  micro := 0
  micro_lt := Written.micro_zero

def onePm : Clock where
  stamp := ⟨⟨2026, 6, 1, Written.year_ge, Written.year_le, Written.june_ge, Written.june_le,
      Written.first_ge, Written.june_first_le⟩, 13, 0, 0,
    Written.hour_thirteen, Written.sixtieth_zero, Written.sixtieth_zero⟩
  micro := 0
  micro_lt := Written.micro_zero

theorem initech_ne : "initech" ≠ "" := by decide
theorem acme_ne : "acme" ≠ "" := by decide

/-- A consent of acme's to all requests of initech's. -/
def sampleRequest (expiresAt : Option String) : SignConsentRequest where
  requesterEnterprise := "initech"
  responderEnterprise := "acme"
  requesterGroup := none
  responderGroup := none
  policy := "summary_only"
  expiresAt
  requesterEnterprise_ne := initech_ne
  responderEnterprise_ne := acme_ne

/-- Two admins sign the same consent; one of them revokes the first. -/
def sampleCalls (expiresAt : Option String) : List ConsentCall :=
  [.sign "consent_1" "aud_1" "alice" (sampleRequest expiresAt),
   .sign "consent_2" "aud_2" "bob" (sampleRequest expiresAt),
   .revoke "consent_1" "aud_3" "bob",
   .elapse [onePm]]

/-- The second consent is signed once the first has been revoked. -/
theorem one_active_consent_sample :
    OneActive ((consentStart noon (sampleCalls none)).run
      [0, 0, 0, 0, 2, 2, 2, 2, 3, 1, 1, 1, 1]).world.db :=
  (one_active_consent noon (sampleCalls none) (by decide +kernel)).1

/-- Two rows that are alone in the table are one if at most one of them is allowed. -/
theorem eq_of_rows {s : ConsentDb} {P : ConsentRow → Prop} {c c' : ConsentRow}
    (hrows : s.consents.rows = [c, c'])
    (h : ∀ c ∈ s.consents, ∀ c' ∈ s.consents, pairOf c = pairOf c' → P c → P c' → c = c')
    (hpair : pairOf c = pairOf c') (hc : P c) (hc' : P c') : c = c' := by
  have hmem : ∀ x, x ∈ s.consents ↔ x ∈ [c, c'] := fun x => by rw [Table.mem_def, hrows]
  exact h c ((hmem c).mpr (.head _)) c' ((hmem c').mpr (.tail _ (.head _))) hpair hc hc'

/-- Both admins look before one of them signs. -/
theorem both_sign :
    ¬ OneActive ((consentStart noon (sampleCalls none)).run [0, 0, 1, 1, 0, 1]).world.db := by
  intro h
  have hrows : ((consentStart noon (sampleCalls none)).run [0, 0, 1, 1, 0, 1]).world.db.consents.rows =
      [signedRow "consent_1" "aud_1" "alice" noon.isoformat (sampleRequest none),
        signedRow "consent_2" "aud_2" "bob" noon.isoformat (sampleRequest none)] := by
    decide +kernel
  have heq := eq_of_rows hrows h rfl rfl rfl
  exact absurd (congrArg ConsentRow.consentId heq) (by decide)

/-- An expiry at ten in New York, which is in three hours, sorts before the time of noon UTC: the
same consent is signed once more. -/
theorem offset_signed_twice :
    ¬ OneUnexpired ((consentStart noon (sampleCalls (some "2026-06-01T10:00:00-05:00"))).run
      [0, 0, 0, 0, 1, 1, 1, 1]).world.db := by
  intro h
  have hrows : ((consentStart noon (sampleCalls (some "2026-06-01T10:00:00-05:00"))).run
      [0, 0, 0, 0, 1, 1, 1, 1]).world.db.consents.rows =
      [signedRow "consent_1" "aud_1" "alice" noon.isoformat
          (sampleRequest (some "2026-06-01T10:00:00-05:00")),
        signedRow "consent_2" "aud_2" "bob" noon.isoformat
          (sampleRequest (some "2026-06-01T10:00:00-05:00"))] := by
    decide +kernel
  have hlive : ∀ c : ConsentRow, c.expiresAt = some "2026-06-01T10:00:00-05:00" →
      Unexpired c noon := by
    intro c hc text htext
    cases hc.symm.trans htext
    have hinstant : instantOf "2026-06-01T10:00:00-05:00" =
        some (noon.instant + 3 * 3600 * 1000000) := by decide +kernel
    exact ⟨_, hinstant, by omega⟩
  have heq := eq_of_rows hrows h rfl (hlive _ rfl) (hlive _ rfl)
  exact absurd (congrArg ConsentRow.consentId heq) (by decide)

end EighthLayer.CrossEnterprise
