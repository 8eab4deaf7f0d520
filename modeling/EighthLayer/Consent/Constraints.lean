import EighthLayer.Consent.TwoOfTwo

/-!
# EighthLayer.Consent.Constraints

What the body of an active grant satisfies.

The constraints are those of `build_grant_body`, which clients are expected to call. The
routes take the body as it comes: of the constraints they see to one, that the two L2s are
different, when the second signer is not the first. The others hold of a grant when they
held of what was proposed (`WellFormedStep`).
-/

namespace EighthLayer.Consent

open Lib

section Constraints

variable (codec : GrantCodec) (parseIso : ParseIso)

/-- A proposal of a body that satisfies the constraints, the two L2s apart. -/
def WellFormedProposal (p : Pending) : Prop :=
  ∃ body, codec.loads p.bodyCanonical = some body ∧ body.WellFormed parseIso

/-- A step that proposes no other body. -/
abbrev WellFormedStep : Nat → ConsentStmt → ConsentStore → Prop :=
  KnownStep (fun _ p => WellFormedProposal codec parseIso p) fun _ _ _ => True

variable {sch : SignatureScheme} {codec parseIso} {calls : List (Site × ConsentCall)}
variable {R : Nat → Pending → Prop} {S : Nat → Signer → Signer → Prop}

/-- Two signers that are not of one L2 sign for two L2s. -/
theorem PendingOk.l2_ne {p : Pending} (h : PendingOk sch codec calls R S p) {cosigner : Signer}
    {cosignedAt : Int} (hcosigner : p.cosigner = some (cosigner, cosignedAt)) {body : GrantBody}
    (hbody : codec.loads p.bodyCanonical = some body) : body.sourceL2 ≠ body.targetL2 := by
  obtain ⟨i, req, hproposed⟩ := h.proposed
  obtain ⟨site, admin, -, -, hrow⟩ := hproposed.request
  obtain rfl : req.body = body := Option.some.inj (hproposed.loads.symm.trans hbody)
  have hproposer : p.proposer.l2 = req.body.sourceL2 :=
    (congrArg (fun p => p.proposer.l2) hrow).trans hproposed.source
  have htarget : p.targetL2 = req.body.targetL2 := congrArg Pending.targetL2 hrow
  have hcosigned := h.cosigned cosigner cosignedAt hcosigner
  intro hsame
  refine hcosigned.other ?_
  rw [hcosigned.target, htarget, ← hsame, hproposer]

/-- The body of a grant is that of its proposal. -/
theorem buildable_of_grantOk {g : Grant}
    (h : GrantOk sch codec calls (fun _ p => WellFormedProposal codec parseIso p) S g) :
    ∃ body, codec.loads g.bodyCanonical = some body ∧ body.Buildable parseIso := by
  obtain ⟨p, cosigner, cosignedAt, body, now, hpending, hcosigner, hbody, -, -, hrow⟩ := h
  have htext : g.bodyCanonical = p.bodyCanonical := congrArg Grant.bodyCanonical hrow
  have hne := hpending.l2_ne hcosigner hbody
  obtain ⟨i, req, hproposed⟩ := hpending.proposed
  obtain ⟨body', hbody', hwellFormed⟩ := hproposed.known
  obtain rfl : body' = body := Option.some.inj (hbody'.symm.trans hbody)
  exact ⟨body', htext ▸ hbody, GrantBody.buildable_iff.mpr ⟨hwellFormed, hne⟩⟩

end Constraints

/-- **Constraints.** In every run that proposes bodies that satisfy the constraints, the two
L2s apart, every active grant has a body that the builder could have produced. -/
theorem active_buildable (sch : SignatureScheme) (codec : GrantCodec) (parseIso : ParseIso)
    (calls : List (Site × ConsentCall)) (hfresh : FreshIds calls) (schedule : List Nat)
    (hmeets : (consentStart sch codec parseIso calls).Meets
      (Config.Next (WellFormedStep codec parseIso)) schedule) :
    ∀ g ∈ ((consentStart sch codec parseIso calls).run schedule).world.db.grants,
      g.status = .active →
        ∃ body, codec.loads g.bodyCanonical = some body ∧ body.Buildable parseIso := by
  intro g hg _
  exact buildable_of_grantOk ((provenance_run hfresh hmeets).grants g.grantId g (Table.find_key hg))

theorem active_buildable_sample :
    let calls := sampleCalls [.propose "alice" (sampleRequest "all" sampleEnd),
      .cosign "bob" "p1" (sampleCosigner "all" sampleEnd [2]),
      .ratify "alice" "p1" ⟨none, none, none⟩]
    ∃ g ∈ ((consentStart .transparent sampleCodec sampleIso calls).run
      [0, 1, 1, 2, 2, 2]).world.db.grants,
        g.status = .active ∧
          ∃ body, sampleCodec.loads g.bodyCanonical = some body ∧ body.Buildable sampleIso := by
  intro calls
  have hstart : sampleIso "2026-06-01T00:00:00Z" =
      .ok ((instantOf "2026-06-01T00:00:00Z").getD 0) := by decide +kernel
  have htimes : (instantOf "2026-06-01T00:00:00Z").getD 0 < (instantOf sampleEnd).getD 0 ∧
      (instantOf sampleEnd).getD 0 - (instantOf "2026-06-01T00:00:00Z").getD 0 ≤
        maxGrantTtlDays * day := by decide +kernel
  have hwellFormed : (sampleBody "all" sampleEnd).WellFormed sampleIso :=
    { kind := by decide
      values := fun h => absurd rfl h
      times := ⟨_, _, hstart, sampleEnd_eq, htimes⟩
      version := rfl
      grantId := by decide
      nonce := by decide }
  have hproposed : WellFormedProposal sampleCodec sampleIso (sampleRow "all" sampleEnd) :=
    ⟨_, sampleCodec.loads_canonical _, hwellFormed⟩
  obtain ⟨c, ⟨hmeets, hrun⟩, hdb, -⟩ := sample_leads (P := WellFormedStep sampleCodec sampleIso)
    "all" sampleEnd [2] [] sampleEnd_eq sampleEnd_later hproposed (fun _ _ _ => trivial) (fun _ _ => trivial) fun _ _ _ => trivial
  have hfresh : FreshIds calls := List.nodup_singleton _
  have hactive := active_buildable .transparent sampleCodec sampleIso calls hfresh _ hmeets
  change (consentStart .transparent sampleCodec sampleIso calls).run _ = c at hrun
  rw [hrun, hdb] at hactive ⊢
  have hmem : sampleGrant "all" sampleEnd [2] ∈
      (Table.single (sampleGrant "all" sampleEnd [2]) : Table Grant.grantId) :=
    List.mem_singleton.mpr rfl
  exact ⟨_, hmem, rfl, hactive _ hmem rfl⟩

/-- Ten years later. -/
abbrev sampleFarEnd : String := "2036-06-01T00:00:00Z"

/-- A grant for ten years, with a scope of no kind, becomes active. -/
theorem active_unbuildable :
    let calls := sampleCalls [.propose "alice" (sampleRequest "everything" sampleFarEnd),
      .cosign "bob" "p1" (sampleCosigner "everything" sampleFarEnd [2]),
      .ratify "alice" "p1" ⟨none, none, none⟩]
    ∃ g ∈ ((consentStart .transparent sampleCodec sampleIso calls).run
      [0, 1, 1, 2, 2, 2]).world.db.grants,
        g.status = .active ∧
          ∀ body, sampleCodec.loads g.bodyCanonical = some body → ¬ body.Buildable sampleIso := by
  intro calls
  have hend : sampleIso sampleFarEnd = .ok ((instantOf sampleFarEnd).getD 0) ∧
      sampleSite.now 1 < (instantOf sampleFarEnd).getD 0 := by decide +kernel
  obtain ⟨c, ⟨-, hrun⟩, hdb, -⟩ := sample_leads (P := fun _ _ _ => True) "everything" sampleFarEnd
    [2] [] hend.1 hend.2 trivial trivial (fun _ _ => trivial) fun _ _ _ => trivial
  change (consentStart .transparent sampleCodec sampleIso calls).run _ = c at hrun
  rw [hrun, hdb]
  refine ⟨_, List.mem_singleton.mpr rfl, rfl, fun body hbody hbuildable => ?_⟩
  have hloads : sampleCodec.loads (sampleGrant "everything" sampleFarEnd [2]).bodyCanonical =
      some (sampleBody "everything" sampleFarEnd) := sampleCodec.loads_canonical _
  obtain rfl := Option.some.inj (hloads.symm.trans hbody)
  have hkind : "everything" ∈ ["domains", "topics", "all"] :=
    (GrantBody.buildable_iff.mp hbuildable).1.kind
  revert hkind
  decide

end EighthLayer.Consent
