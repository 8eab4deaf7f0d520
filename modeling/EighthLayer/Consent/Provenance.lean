import EighthLayer.Consent.Trace

/-!
# EighthLayer.Consent.Provenance

Where grants come from. A grant is made active from a proposal and a cosignature that the
routes have taken (`GrantOk`), in every run; what is known of the proposal and of the
cosignature when they are made is known of the grant (`provenance_run`).
-/

namespace EighthLayer.Consent

open Lib

/-! ## New ids -/

/-- The id that `uuid4` gives to the row of a request. -/
def ConsentCall.newId : ConsentCall → Option String
  | propose _ req => some req.pendingId
  | _ => none

/-- No id is given twice. -/
def FreshIds (calls : List (Site × ConsentCall)) : Prop :=
  (calls.filterMap fun p => p.2.newId).Nodup

/-- Where no value occurs twice, a value has one place. -/
theorem index_eq_of_nodup_filterMap {α β : Type} {f : α → Option β} {l : List α}
    (h : (l.filterMap f).Nodup) {i j : Nat} {a b : α} {x : β} (hi : l[i]? = some a)
    (hj : l[j]? = some b) (ha : f a = some x) (hb : f b = some x) : i = j := by
  have hmem : ∀ {l : List α} {i : Nat} {a : α}, l[i]? = some a → f a = some x →
      x ∈ l.filterMap f :=
    fun hi ha => List.mem_filterMap.mpr ⟨_, List.mem_of_getElem? hi, ha⟩
  induction l generalizing i j with
  | nil => cases hi
  | cons c l ih =>
      have htail : (l.filterMap f).Nodup := by
        rw [List.filterMap_cons] at h
        split at h
        · exact h
        · exact (List.nodup_cons.mp h).2
      have hhead : f c = some x → x ∉ l.filterMap f := by
        intro hc
        rw [List.filterMap_cons, hc] at h
        exact (List.nodup_cons.mp h).1
      cases i with
      | zero =>
          cases hi
          cases j with
          | zero => rfl
          | succ j => exact absurd (hmem (l := l) hj hb) (hhead ha)
      | succ i =>
          cases j with
          | zero =>
              cases hj
              exact absurd (hmem (l := l) hi ha) (hhead hb)
          | succ j => exact congrArg _ (ih htail hi hj)

/-! ## Where grants come from -/

section Provenance

variable (sch : SignatureScheme) (codec : GrantCodec) (parseIso : ParseIso)
variable (calls : List (Site × ConsentCall))
/- What is known of a proposal that a request has made, and of a cosignature. -/
variable (R : Nat → Pending → Prop) (S : Nat → Signer → Signer → Prop)

/-- A row was proposed by a request. -/
structure Proposed (i : Nat) (req : ProposeRequest) (p : Pending) : Prop where
  request : ∃ site admin, calls[i]? = some (site, .propose admin req) ∧
    requireAdmin site admin = .ok () ∧ p.proposal = req.row codec (site.now 0)
  source : req.proposer.l2 = req.body.sourceL2
  signed : verifySigOverBody sch codec req.proposer req.body = true
  known : R i p.proposal

/-- A row was cosigned by a request. -/
structure Cosigned (p : Pending) (cosigner : Signer) : Prop where
  request : ∃ j site call, calls[j]? = some (site, call) ∧ call.signer = some cosigner ∧
    requireAdmin site call.admin = .ok () ∧ S j p.proposer cosigner
  other : cosigner.l2 ≠ p.proposer.l2
  target : cosigner.l2 = p.targetL2

/-- Where a pending grant comes from. -/
structure PendingOk (p : Pending) : Prop where
  proposed : ∃ i req, Proposed sch codec calls R i req p
  cosigned : ∀ cosigner cosignedAt, p.cosigner = some (cosigner, cosignedAt) →
    Cosigned calls S p cosigner

/-- Where a grant comes from: a pending one with two signatures that verify. -/
def GrantOk (g : Grant) : Prop :=
  ∃ p cosigner cosignedAt body now, PendingOk sch codec calls R S p ∧
    p.cosigner = some (cosigner, cosignedAt) ∧ codec.loads p.bodyCanonical = some body ∧
      verifySigOverBody sch codec p.proposer body = true ∧
        verifySigOverBody sch codec cosigner body = true ∧
          g.ratified = grantOf p cosigner body now

/-- Where everything comes from, what requests have loaded included. -/
structure Provenance (w : ConsentWorld) : Prop where
  pending : ∀ k p, w.db.pending.find k = some p → PendingOk sch codec calls R S p
  loaded : ∀ i k p, did i (.loadPending k) (some p) ∈ w.log →
    p.pendingId = k ∧ PendingOk sch codec calls R S p
  grants : ∀ k g, w.db.grants.find k = some g → GrantOk sch codec calls R S g

/-- A step after which what is to be known is known. -/
def KnownStep (R : Nat → Pending → Prop) (S : Nat → Signer → Signer → Prop) (i : Nat)
    (q : ConsentStmt) (s : ConsentStore) : Prop :=
  match q with
  | .insertPending p => R i p
  | .recordCosign pendingId cosigner _ => ∀ p, s.pending.find pendingId = some p →
      p.status = .proposed → S i p.proposer cosigner
  | _ => True

instance [∀ i p, Decidable (R i p)] [∀ i a b, Decidable (S i a b)] (i : Nat) (q : ConsentStmt)
    (s : ConsentStore) : Decidable (KnownStep R S i q s) :=
  match q with
  | .insertPending p => inferInstanceAs (Decidable (R i p))
  | .recordCosign pendingId cosigner _ =>
      inferInstanceAs (Decidable (∀ p, s.pending.find pendingId = some p →
        p.status = .proposed → S i p.proposer cosigner))
  | .loadPending _ | .loadActive _ | .promote _ _ | .recordRevoke _ _ =>
      inferInstanceAs (Decidable True)

variable {sch codec parseIso calls R S}

/-- A body is read back as it was proposed. -/
theorem Proposed.loads {i : Nat} {req : ProposeRequest} {p : Pending}
    (h : Proposed sch codec calls R i req p) : codec.loads p.bodyCanonical = some req.body := by
  obtain ⟨site, admin, -, -, hrow⟩ := h.request
  have htext : p.bodyCanonical = codec.canonical req.body := congrArg Pending.bodyCanonical hrow
  rw [htext, codec.loads_canonical]

/-- Two rows with one id were proposed by one request. -/
theorem Proposed.proposal_eq (hfresh : FreshIds calls) {i j : Nat} {req req' : ProposeRequest}
    {p p' : Pending} (h : Proposed sch codec calls R i req p)
    (h' : Proposed sch codec calls R j req' p') (hid : p.pendingId = p'.pendingId) :
    p.proposal = p'.proposal := by
  obtain ⟨site, admin, hi, -, hrow⟩ := h.request
  obtain ⟨site', admin', hj, -, hrow'⟩ := h'.request
  have hreq : p.pendingId = req.pendingId := congrArg Pending.pendingId hrow
  have hreq' : p'.pendingId = req'.pendingId := congrArg Pending.pendingId hrow'
  have hij : i = j := by
    refine index_eq_of_nodup_filterMap hfresh (x := p.pendingId) hi hj ?_ ?_
    · exact congrArg some hreq.symm
    · exact congrArg some (hid.trans hreq').symm
  subst hij
  cases hi.symm.trans hj
  rw [hrow, hrow']

/-- A row does not lose where it comes from. -/
theorem PendingOk.cosign {p row : Pending} (h : PendingOk sch codec calls R S p)
    (hrow : PendingOk sch codec calls R S row) (hfresh : FreshIds calls)
    (hid : p.pendingId = row.pendingId) {i : Nat} {site : Site} {call : ConsentCall}
    {cosigner : Signer} {now cosignedAt : Int} (hi : calls[i]? = some (site, call))
    (hadmin : requireAdmin site call.admin = .ok ()) (hsigner : call.signer = some cosigner)
    (hcheck : checkCosign sch codec now row cosigner = .ok ()) (hknown : S i p.proposer cosigner) :
    PendingOk sch codec calls R S (p.cosign cosigner cosignedAt) := by
  obtain ⟨j, req, hproposed⟩ := h.proposed
  obtain ⟨j', req', hproposed'⟩ := hrow.proposed
  have hsame := hproposed.proposal_eq hfresh hproposed' hid
  have hproposer : p.proposer = row.proposer := by
    change p.proposal.proposer = row.proposal.proposer
    rw [hsame]
  have htarget : p.targetL2 = row.targetL2 := by
    change p.proposal.targetL2 = row.proposal.targetL2
    rw [hsame]
  refine ⟨⟨j, req, hproposed.request, hproposed.source, hproposed.signed, hproposed.known⟩, ?_⟩
  rintro _ _ ⟨⟩
  unfold checkCosign at hcheck
  split at hcheck
  · cases hcheck
  · split at hcheck
    · cases hcheck
    · split at hcheck
      · cases hcheck
      · rename_i hother
        split at hcheck
        · cases hcheck
        · rename_i hnot
          refine ⟨⟨i, site, call, hi, hsigner, hadmin, hknown⟩, ?_, ?_⟩
          · exact hproposer ▸ hother
          · exact htarget ▸ not_not.mp hnot

theorem grantOk_of_checkRatify {row : Pending} {now : Int} {g : Grant}
    (hrow : PendingOk sch codec calls R S row)
    (hcheck : checkRatify sch codec parseIso now row = .ok g) : GrantOk sch codec calls R S g := by
  unfold checkRatify at hcheck
  split at hcheck
  · cases hcheck
  · split at hcheck
    · cases hcheck
    · split at hcheck
      · cases hcheck
      · rename_i body hbody
        split at hcheck
        · cases hcheck
        · rename_i hproposer
          split at hcheck
          · cases hcheck
          · rename_i cosigner cosignedAt hcosigner
            split at hcheck
            · cases hcheck
            · rename_i hverified
              split at hcheck
              · cases hcheck
              · split at hcheck
                · cases hcheck
                · cases hcheck
                  exact ⟨row, cosigner, cosignedAt, body, now, hrow, hcosigner, hbody,
                    not_not.mp hproposer, not_not.mp hverified, rfl⟩

/-- The step lemma. -/
theorem Provenance.exec (hfresh : FreshIds calls) {w : ConsentWorld} {i : Nat} {q : ConsentStmt}
    (h : Provenance sch codec calls R S w) {site : Site} {call : ConsentCall}
    (hi : calls[i]? = some (site, call)) (hadmin : requireAdmin site call.admin = .ok ())
    (hdue : Due sch codec parseIso site call i (w.own i) q)
    (hknown : KnownStep R S i q w.db) : Provenance sch codec calls R S (w.exec i q) where
  pending := by
    intro k p' hp'
    rcases ConsentStmt.find_exec_pending hp' with
      ⟨p, hp, rfl | ⟨cosigner, cosignedAt, rfl, hstatus, rfl⟩⟩ | ⟨rfl, -, -⟩
    · exact h.pending k p' hp
    · obtain ⟨hsigner, -, row, hloaded, hcheck⟩ := hdue
      obtain ⟨hid, hrow⟩ := h.loaded i k row (World.mem_own.mp hloaded).1
      have hk : p.pendingId = k := (Table.find_eq_some_iff.mp hp).2
      exact (h.pending k p hp).cosign hrow hfresh (hk.trans hid.symm) hi hadmin hsigner hcheck
        (hknown p hp hstatus)
    · obtain ⟨-, admin, req, rfl, rfl, hsource, hsigned, -⟩ := hdue
      refine ⟨⟨i, req, ⟨site, admin, hi, hadmin, rfl⟩, hsource, hsigned, hknown⟩, ?_⟩
      rintro _ _ ⟨⟩
  loaded := by
    intro j k p hloaded
    rcases World.mem_exec_log.mp hloaded with hloaded | ⟨-, rfl, hfound⟩
    · exact h.loaded j k p hloaded
    · have hp : w.db.pending.find k = some p := hfound.symm
      exact ⟨(Table.find_eq_some_iff.mp hp).2, h.pending k p hp⟩
  grants := by
    intro k g' hg'
    rcases ConsentStmt.find_exec_grants hg' with ⟨g, hg, rfl | ⟨r, rfl, -, rfl⟩⟩ |
      ⟨pendingId, rfl, -, -⟩
    · exact h.grants k g' hg
    · exact h.grants k g hg
    · obtain ⟨row, hloaded, hcheck⟩ := hdue
      obtain ⟨-, hrow⟩ := h.loaded i pendingId row (World.mem_own.mp hloaded).1
      exact grantOk_of_checkRatify hrow hcheck

theorem provenance_empty : Provenance sch codec calls R S ⟨.empty, []⟩ where
  pending k p hp := by cases hp
  loaded i k p hp := absurd hp List.not_mem_nil
  grants k g hg := by cases hg

/-- What a request of the list is about to do. -/
theorem runs_start {i : Nat} {prog : ConsentProg}
    (hprog : (consentStart sch codec parseIso calls).tasks[i]? = some prog) :
    ∃ site call, calls[i]? = some (site, call) ∧ Runs sch codec parseIso site call i prog [] := by
  simp only [consentStart, Config.start, List.getElem?_map, Option.map_eq_some_iff] at hprog
  obtain ⟨⟨site, call⟩, hi, rfl⟩ := hprog
  exact ⟨site, call, hi, runs_prog⟩

/-- **Provenance.** Every grant comes from a proposal and a cosignature that two requests of
admins have made, about which all is known that was known when they were made. -/
theorem provenance_run (hfresh : FreshIds calls) {schedule : List Nat}
    (hmeets : (consentStart sch codec parseIso calls).Meets
      (Config.Next (KnownStep R S)) schedule) :
    Provenance sch codec calls R S
      ((consentStart sch codec parseIso calls).run schedule).world := by
  refine Config.run_guarded (T := fun i past prog => ∃ site call, calls[i]? = some (site, call) ∧
      CallFacts sch codec parseIso site call i past prog) ?_ provenance_empty ?_ hmeets
  · rintro c i q k h htask ⟨site, call, hi, hfacts⟩ hnext
    obtain ⟨hadmin, hdue⟩ := hfacts.next q k rfl
    exact h.exec hfresh hi hadmin hdue (hnext.ok htask)
  · intro i prog hprog
    obtain ⟨site, call, hi, hruns⟩ := runs_start hprog
    exact hruns.imp fun past p hfacts => ⟨site, call, hi, hfacts⟩

end Provenance

end EighthLayer.Consent
