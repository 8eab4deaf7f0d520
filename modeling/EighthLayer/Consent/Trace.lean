import EighthLayer.Consent.Routes

/-!
# EighthLayer.Consent.Trace

What a request over cross-group grants does by itself: which statement it issues after what,
and what it reports at the end. A statement that writes comes after the checks that it
depends on, on a row that the request has loaded.
-/

namespace EighthLayer.Consent

open Lib

section Trace

variable (sch : SignatureScheme) (codec : GrantCodec) (parseIso : ParseIso)
variable (site : Site) (call : ConsentCall) (i : Nat)

/-- What precedes a statement of a request. -/
def Due (past : List (Event ConsentStmt.Answer)) : ConsentStmt → Prop
  | .loadPending _ | .loadActive _ => True
  | .insertPending p => past = [] ∧ ∃ admin req, call = .propose admin req ∧
      p = req.row codec (site.now 0) ∧ req.proposer.l2 = req.body.sourceL2 ∧
        verifySigOverBody sch codec req.proposer req.body = true ∧
          enforceCallerTenancy site admin req.body.enterpriseId (some req.proposer.l2) = .ok ()
  | .recordCosign pendingId cosigner cosignedAt => call.signer = some cosigner ∧
      cosignedAt = site.now 0 ∧ ∃ row, did i (.loadPending pendingId) (some row) ∈ past ∧
        checkCosign sch codec (site.now 0) row cosigner = .ok ()
  | .promote g pendingId => ∃ row, did i (.loadPending pendingId) (some row) ∈ past ∧
      checkRatify sch codec parseIso (site.now 1) row = .ok g
  | .recordRevoke grantId r => ∃ admin req isRecovery g,
      call = .revoke admin grantId req isRecovery ∧
        did i (.loadActive grantId) (some g) ∈ past ∧
          checkRevoke sch codec parseIso (site.now 0) grantId g req isRecovery = .ok r

/-- What a request has recorded when it reports success. -/
def Reported (past : List (Event ConsentStmt.Answer)) : ConsentResponse → Prop
  | .proposed pendingId _ _ => ∃ p, p.pendingId = pendingId ∧ did i (.insertPending p) true ∈ past
  | .cosigned pendingId cosignedAt => ∃ cosigner, call.signer = some cosigner ∧
      did i (.recordCosign pendingId cosigner cosignedAt) () ∈ past
  | .active grantId ratifiedAt => ∃ g pendingId, g.grantId = grantId ∧
      g.ratifiedAt = ratifiedAt ∧ did i (.promote g pendingId) true ∈ past
  | .revoked grantId byRecovery revokedAt => ∃ admin req r,
      call = .revoke admin grantId req byRecovery ∧ r.byL2 = req.revokerL2 ∧
        r.byPubkey = req.revokerPubkey ∧ r.byRecovery = byRecovery ∧ r.revokedAt = revokedAt ∧
          did i (.recordRevoke grantId r) () ∈ past
  | .refused _ => True

/-- What a request does by itself. -/
structure CallFacts (past : List (Event ConsentStmt.Answer)) (p : ConsentProg) : Prop where
  admin : past ≠ [] → requireAdmin site call.admin = .ok ()
  next : ∀ q k, p = .call q k → requireAdmin site call.admin = .ok () ∧
    Due sch codec parseIso site call i past q
  reported : ∀ a, p = .done a → Reported call i past a

/-- What is left of a request, with what it has done before. -/
abbrev Runs (p : ConsentProg) (past : List (Event ConsentStmt.Answer)) : Prop :=
  p.Always (CallFacts sch codec parseIso site call i) i past

variable {sch codec parseIso site call i} {past : List (Event ConsentStmt.Answer)}

theorem runs_done {a : ConsentResponse}
    (hadmin : past ≠ [] → requireAdmin site call.admin = .ok ())
    (h : Reported call i past a) : Runs sch codec parseIso site call i (.done a) past := by
  refine .done ⟨hadmin, ?_, ?_⟩
  · rintro q k ⟨⟩
  · rintro _ ⟨⟩
    exact h

theorem runs_call {q : ConsentStmt} {k : q.Answer → ConsentProg}
    (hadmin : requireAdmin site call.admin = .ok ())
    (hdue : Due sch codec parseIso site call i past q)
    (hrest : ∀ a, Runs sch codec parseIso site call i (k a) (did i q a :: past)) :
    Runs sch codec parseIso site call i (.call q k) past := by
  refine .call ⟨fun _ => hadmin, ?_, ?_⟩ hrest
  · rintro _ _ ⟨⟩
    exact ⟨hadmin, hdue⟩
  · rintro _ ⟨⟩

theorem runs_propose {admin : String} {req : ProposeRequest} :
    Runs sch codec parseIso site (.propose admin req) i (propose sch codec site admin req) [] := by
  unfold propose
  split
  · exact runs_done (absurd rfl) trivial
  · rename_i hadmin
    split
    · exact runs_done (absurd rfl) trivial
    · rename_i htenancy
      unfold proposeGrant
      split
      · exact runs_done (absurd rfl) trivial
      · split
        · exact runs_done (absurd rfl) trivial
        · rename_i hsource
          split
          · exact runs_done (absurd rfl) trivial
          · rename_i hsig
            refine runs_call hadmin ⟨rfl, admin, req, rfl, rfl, not_not.mp hsource, not_not.mp hsig,
              htenancy⟩ fun (inserted : Bool) => ?_
            cases inserted with
            | true => exact runs_done (fun _ => hadmin) ⟨_, rfl, .head _⟩
            | false => exact runs_done (fun _ => hadmin) trivial

theorem runs_refusalOf (hadmin : requireAdmin site call.admin = .ok ())
    (e : Option ConsentError) :
    Runs sch codec parseIso site call i (.done (refusalOf e)) past :=
  runs_done (fun _ => hadmin) trivial

/-- `cosign_grant`, before whatever follows it. -/
theorem runs_cosignGrant {pendingId : String} {cosigner : Signer}
    {next : Except (Option ConsentError) Int → ConsentProg}
    (hadmin : requireAdmin site call.admin = .ok ()) (hsigner : call.signer = some cosigner)
    (hfailed : ∀ past e, Runs sch codec parseIso site call i (next (.error e)) past)
    (hdone : ∀ past cosignedAt, did i (.recordCosign pendingId cosigner cosignedAt) () ∈ past →
      Runs sch codec parseIso site call i (next (.ok cosignedAt)) past) :
    Runs sch codec parseIso site call i (cosignGrant sch codec site pendingId cosigner next)
      past := by
  unfold cosignGrant
  refine runs_call hadmin trivial fun (row : Option Pending) => ?_
  cases row with
  | none => exact hfailed _ _
  | some row =>
      dsimp only
      split
      · exact hfailed _ _
      · rename_i hcheck
        refine runs_call hadmin ⟨hsigner, rfl, row, .head _, hcheck⟩ fun (_ : Unit) => ?_
        exact hdone _ _ (.head _)

theorem runs_cosign {admin pendingId : String} {cosigner : Signer} :
    Runs sch codec parseIso site (.cosign admin pendingId cosigner) i
      (cosign sch codec site admin pendingId cosigner) [] := by
  unfold cosign
  split
  · exact runs_done (absurd rfl) trivial
  · rename_i hadmin
    split
    · exact runs_done (absurd rfl) trivial
    · split
      · exact runs_done (absurd rfl) trivial
      · refine runs_cosignGrant hadmin rfl (fun past e => runs_refusalOf hadmin e) ?_
        intro past cosignedAt hrecorded
        exact runs_done (fun _ => hadmin) ⟨cosigner, rfl, hrecorded⟩

theorem runs_ratifyGrant {pendingId : String} (hadmin : requireAdmin site call.admin = .ok ()) :
    Runs sch codec parseIso site call i (ratifyGrant sch codec parseIso site pendingId) past := by
  unfold ratifyGrant
  refine runs_call hadmin trivial fun (row : Option Pending) => ?_
  cases row with
  | none => exact runs_done (fun _ => hadmin) trivial
  | some row =>
      dsimp only
      split
      · exact runs_refusalOf hadmin _
      · rename_i g hcheck
        refine runs_call hadmin ⟨row, .head _, hcheck⟩ fun (promoted : Bool) => ?_
        cases promoted with
        | true => exact runs_done (fun _ => hadmin) ⟨g, pendingId, rfl, rfl, .head _⟩
        | false => exact runs_done (fun _ => hadmin) trivial

theorem runs_ratify {admin pendingId : String} {req : RatifyRequest} :
    Runs sch codec parseIso site (.ratify admin pendingId req) i
      (ratify sch codec parseIso site admin pendingId req) [] := by
  unfold ratify
  split
  · exact runs_done (absurd rfl) trivial
  · rename_i hadmin
    refine runs_call hadmin trivial fun (pending : Option Pending) => ?_
    cases pending with
    | none => exact runs_done (fun _ => hadmin) trivial
    | some pending =>
        dsimp only
        split
        · exact runs_done (fun _ => hadmin) trivial
        · unfold cosignAndRatify
          split
          · exact runs_ratifyGrant hadmin
          · rename_i cosigner hcosigner
            refine runs_cosignGrant hadmin hcosigner (fun past e => ?_) fun past _ _ => ?_
            · cases e with
              | none => exact runs_done (fun _ => hadmin) trivial
              | some e =>
                  dsimp only
                  split
                  · exact runs_ratifyGrant hadmin
                  · exact runs_done (fun _ => hadmin) trivial
            · exact runs_ratifyGrant hadmin

/-- What a revocation records is the caller's. -/
theorem checkRevoke_ok {now : Int} {grantId : String} {g : Grant} {req : RevokeRequest}
    {isRecovery : Bool} {r : Revocation}
    (h : checkRevoke sch codec parseIso now grantId g req isRecovery = .ok r) :
    g.status = .active ∧ r.byL2 = req.revokerL2 ∧ r.byPubkey = req.revokerPubkey ∧
      r.byRecovery = isRecovery ∧ r.revokedAt = now := by
  unfold checkRevoke at h
  split at h
  · cases h
  · rename_i hactive
    split at h
    · cases h
    · split at h
      · cases h
      · split at h
        · cases h
        · split at h
          · cases h
          · rename_i byRecovery hauthority
            cases h
            refine ⟨not_not.mp hactive, rfl, rfl, ?_, rfl⟩
            unfold revokeAuthority at hauthority
            cases isRecovery with
            | true =>
                rw [if_pos rfl] at hauthority
                split at hauthority
                · cases hauthority
                · exact (Except.ok.inj hauthority).symm
            | false =>
                rw [if_neg Bool.false_ne_true] at hauthority
                split at hauthority
                · exact (Except.ok.inj hauthority).symm
                · split at hauthority
                  · cases hauthority
                  · cases hauthority

theorem runs_revoke {admin grantId : String} {req : RevokeRequest} {isRecovery : Bool} :
    Runs sch codec parseIso site (.revoke admin grantId req isRecovery) i
      (revoke sch codec parseIso site admin grantId req isRecovery) [] := by
  unfold revoke
  split
  · exact runs_done (absurd rfl) trivial
  · rename_i hadmin
    refine runs_call hadmin trivial fun (active : Option Grant) => ?_
    cases active with
    | none => exact runs_done (fun _ => hadmin) trivial
    | some active =>
        dsimp only
        split
        · exact runs_done (fun _ => hadmin) trivial
        · unfold revokeGrant
          refine runs_call hadmin trivial fun (row : Option Grant) => ?_
          cases row with
          | none => exact runs_done (fun _ => hadmin) trivial
          | some g =>
              dsimp only
              split
              · exact runs_done (fun _ => hadmin) trivial
              · rename_i r hcheck
                refine runs_call hadmin ⟨admin, req, isRecovery, g, rfl, .head _, hcheck⟩
                  fun (_ : Unit) => runs_done (fun _ => hadmin) ?_
                obtain ⟨-, hl2, hpubkey, hrecovery, hat⟩ := checkRevoke_ok hcheck
                rw [hrecovery]
                exact ⟨admin, req, r, rfl, hl2, hpubkey, hrecovery, rfl, .head _⟩

/-- Every request. -/
theorem runs_prog : Runs sch codec parseIso site call i (call.prog sch codec parseIso site) [] := by
  cases call with
  | propose admin req => exact runs_propose
  | cosign admin pendingId cosigner => exact runs_cosign
  | ratify admin pendingId req => exact runs_ratify
  | revoke admin grantId req isRecovery => exact runs_revoke

end Trace

end EighthLayer.Consent
