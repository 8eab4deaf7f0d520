import EighthLayer.Consent.Provenance
import EighthLayer.Lib.Instant

/-!
# EighthLayer.Consent.TwoOfTwo

Who has signed an active grant.

What is known of the two signers depends on what the callers were asked for when they
proposed and cosigned: the result is about the runs in which each of them belonged to the L2
that it signed for, and the cosigner's key was not the proposer's (`AuthorisedStep`). The
routes see to neither.
-/

namespace EighthLayer.Consent

open Lib

/-! ## Two admins and two keys -/

/-- The L2 that a user belongs to. -/
def Site.l2Of (site : Site) (username : String) : Option String :=
  match site.users username with
  | some ⟨_, some ent, some grp⟩ => some (ent ++ "/" ++ grp)
  | _ => none

/-- The L2 that the caller of a request belongs to. -/
def callerL2 (calls : List (Site × ConsentCall)) (i : Nat) : Option String :=
  calls[i]?.bind fun p => p.1.l2Of p.2.admin

/-- Who proposes belongs to the L2 that the proposal is signed for. -/
def AuthorisedProposal (calls : List (Site × ConsentCall)) (i : Nat) (p : Pending) : Prop :=
  callerL2 calls i = some p.proposer.l2

/-- Who cosigns belongs to the L2 that the cosignature is for, and has another key. -/
def AuthorisedCosign (calls : List (Site × ConsentCall)) (i : Nat) (proposer cosigner : Signer) :
    Prop :=
  callerL2 calls i = some cosigner.l2 ∧
    b64uDecode proposer.pubkey ≠ b64uDecode cosigner.pubkey

instance (calls : List (Site × ConsentCall)) (i : Nat) (p : Pending) :
    Decidable (AuthorisedProposal calls i p) :=
  inferInstanceAs (Decidable (callerL2 calls i = some p.proposer.l2))

instance (calls : List (Site × ConsentCall)) (i : Nat) (proposer cosigner : Signer) :
    Decidable (AuthorisedCosign calls i proposer cosigner) :=
  inferInstanceAs (Decidable (_ ∧ _))

/-- A step that is authorised. An `UPDATE` that reaches no row needs no authority. -/
abbrev AuthorisedStep (calls : List (Site × ConsentCall)) : Nat → ConsentStmt → ConsentStore →
    Prop :=
  KnownStep (AuthorisedProposal calls) (AuthorisedCosign calls)

/-- A signature that an admin of an L2 has presented. -/
def Presents (calls : List (Site × ConsentCall)) (l2 : String) (signer : Signer) : Prop :=
  ∃ (i : Nat) (site : Site) (call : ConsentCall), calls[i]? = some (site, call) ∧
    call.signer = some signer ∧ requireAdmin site call.admin = .ok () ∧
      site.l2Of call.admin = some l2

/-- A grant that two admins have signed, one of each L2, with two keys. -/
structure TwoOfTwo (sch : SignatureScheme) (codec : GrantCodec)
    (calls : List (Site × ConsentCall)) (g : Grant) : Prop where
  signed : ∃ body, codec.loads g.bodyCanonical = some body ∧ body.sourceL2 = g.sourceL2 ∧
    body.targetL2 = g.targetL2 ∧ verifySigOverBody sch codec g.signerA body = true ∧
      verifySigOverBody sch codec g.signerB body = true
  distinct : b64uDecode g.signerA.pubkey ≠ b64uDecode g.signerB.pubkey
  source : Presents calls g.sourceL2 g.signerA
  target : Presents calls g.targetL2 g.signerB

section TwoOfTwo

variable {sch : SignatureScheme} {codec : GrantCodec} {calls : List (Site × ConsentCall)}

/-- Who belongs to the L2 that a signature is for has presented it as an admin of that L2. -/
theorem presents_of_callerL2 {i : Nat} {site : Site} {call : ConsentCall} {signer : Signer}
    (hi : calls[i]? = some (site, call)) (hsigner : call.signer = some signer)
    (hadmin : requireAdmin site call.admin = .ok ())
    (hl2 : callerL2 calls i = some signer.l2) : Presents calls signer.l2 signer := by
  unfold callerL2 at hl2
  rw [hi] at hl2
  exact ⟨i, site, call, hi, hsigner, hadmin, hl2⟩

/-- A grant whose proposer and cosigner are known to be authorised. -/
theorem twoOfTwo_of_grantOk {g : Grant}
    (h : GrantOk sch codec calls (AuthorisedProposal calls) (AuthorisedCosign calls) g) :
    TwoOfTwo sch codec calls g := by
  obtain ⟨p, cosigner, cosignedAt, body, now, ⟨⟨i, req, hproposed⟩, hcosigned⟩, hcosigner, hbody,
    hsignedA, hsignedB, hrow⟩ := h
  obtain ⟨j, site', call', hj, hpresented', hadmin', hl2', hkeys⟩ :=
    (hcosigned cosigner cosignedAt hcosigner).request
  have htarget := (hcosigned cosigner cosignedAt hcosigner).target
  obtain ⟨site, admin, hi, hadmin, hproposal⟩ := hproposed.request
  obtain rfl : req.body = body := Option.some.inj (hproposed.loads.symm.trans hbody)
  have hproposer : p.proposer = req.proposer := congrArg Pending.proposer hproposal
  have htargetL2 : p.targetL2 = req.body.targetL2 := congrArg Pending.targetL2 hproposal
  have hfield : ∀ {α : Type} (f : Grant → α), f g.ratified = f (grantOf p cosigner req.body now) :=
    fun f => congrArg f hrow
  have hA : g.signerA = p.proposer := hfield Grant.signerA
  have hB : g.signerB = cosigner := hfield Grant.signerB
  have hsource : g.sourceL2 = req.body.sourceL2 := hfield Grant.sourceL2
  have hdest : g.targetL2 = req.body.targetL2 := hfield Grant.targetL2
  have htext : g.bodyCanonical = p.bodyCanonical := hfield Grant.bodyCanonical
  constructor
  · refine ⟨req.body, htext ▸ hbody, hsource.symm, hdest.symm, ?_, ?_⟩
    · rwa [hA]
    · rwa [hB]
  · rw [hA, hB]
    exact hkeys
  · have hknown : callerL2 calls i = some req.proposer.l2 := hproposer ▸ hproposed.known
    have hpresents := presents_of_callerL2 hi rfl hadmin hknown
    rw [hA, hsource, hproposer, ← hproposed.source]
    exact hpresents
  · have hpresents := presents_of_callerL2 hj hpresented' hadmin' hl2'
    rw [hB, hdest, ← htargetL2, ← htarget]
    exact hpresents

end TwoOfTwo

/-- **Two of two.** In every run whose steps are authorised, every active grant carries two
signatures over its body that verify, under two keys, one presented by an admin of the
source L2 and the other by an admin of the target L2. -/
theorem two_of_two (sch : SignatureScheme) (codec : GrantCodec) (parseIso : ParseIso)
    (calls : List (Site × ConsentCall)) (hfresh : FreshIds calls) (schedule : List Nat)
    (hmeets : (consentStart sch codec parseIso calls).Meets
      (Config.Next (AuthorisedStep calls)) schedule) :
    ∀ g ∈ ((consentStart sch codec parseIso calls).run schedule).world.db.grants,
      g.status = .active → TwoOfTwo sch codec calls g := by
  intro g hg _
  exact twoOfTwo_of_grantOk ((provenance_run hfresh hmeets).grants g.grantId g (Table.find_key hg))

/-! ## Closed instances -/

/-- Texts of times, read. -/
def sampleIso : ParseIso := fun value =>
  match instantOf value with
  | some t => .ok t
  | none => .error .notIso

/-- Two L2s of one Enterprise, with an admin each, on the first of June of 2026. -/
def sampleSite : Site where
  users
    | "alice" => some ⟨some "admin", some "acme", some "engineering"⟩
    | "bob" => some ⟨some "admin", some "acme", some "sga"⟩
    | _ => none
  now _ := (instantOf "2026-06-01T00:00:00Z").getD 0

/-- A grant from one to the other. -/
def sampleBody (kind expiresAt : String) : GrantBody where
  grantId := "g1"
  enterpriseId := "acme"
  sourceL2 := "acme/engineering"
  targetL2 := "acme/sga"
  scope := ⟨kind, []⟩
  issuedAt := "2026-06-01T00:00:00Z"
  expiresAt
  nonce := "n"
  version := grantBodyVersion
  recoveryOperatorPubkey := ""

/-- The signature of a body under a key, for an L2. -/
def sampleSigner (body : GrantBody) (l2 : String) (key : Bytes) : Signer where
  l2
  pubkey := publicKeyB64u .transparent key
  signature := signRaw .transparent key (utf8 (sampleCodec.canonical body))

@[simp] theorem verify_sampleSigner (body : GrantBody) (l2 : String) (key : Bytes) :
    verifySigOverBody .transparent sampleCodec (sampleSigner body l2 key) body = true :=
  verifyRaw_signRaw .transparent key _

section Sample

variable (kind expiresAt : String)

/-- A cosigner of the target. -/
def sampleCosigner (key : Bytes) : Signer := sampleSigner (sampleBody kind expiresAt) "acme/sga" key

/-- A proposal by `alice`. -/
def sampleRequest : ProposeRequest where
  body := sampleBody kind expiresAt
  proposer := sampleSigner (sampleBody kind expiresAt) "acme/engineering" [1]
  pendingId := "p1"

/-- The row that it inserts. -/
def sampleRow : Pending := (sampleRequest kind expiresAt).row sampleCodec (sampleSite.now 0)

/-- The row once it is cosigned. -/
def sampleCosigned (key : Bytes) : Pending :=
  (sampleRow kind expiresAt).cosign (sampleCosigner kind expiresAt key) (sampleSite.now 0)

/-- The grant that is made of it. -/
def sampleGrant (key : Bytes) : Grant :=
  grantOf (sampleCosigned kind expiresAt key) (sampleCosigner kind expiresAt key)
    (sampleBody kind expiresAt) (sampleSite.now 1)

/-- The routes, each at work. -/
def sampleProg (call : ConsentCall) : ConsentProg :=
  call.prog .transparent sampleCodec sampleIso sampleSite

/-- A run of some requests. -/
def sampleCalls (calls : List ConsentCall) : List (Site × ConsentCall) :=
  calls.map fun call => (sampleSite, call)

/-- Some requests at the start. -/
def sampleStart (calls : List ConsentCall) :
    Config ConsentStore ConsentStmt.Answer ConsentResponse :=
  consentStart .transparent sampleCodec sampleIso (sampleCalls calls)

theorem sampleStart_eq (calls : List ConsentCall) :
    sampleStart calls = ⟨⟨.empty, []⟩, calls.map sampleProg⟩ := by
  unfold sampleStart consentStart sampleCalls
  rw [List.map_map]
  rfl

theorem sampleProposal_prog :
    sampleProg (.propose "alice" (sampleRequest kind expiresAt)) =
      .call (.insertPending (sampleRow kind expiresAt)) fun (inserted : Bool) =>
        if inserted then .done (.proposed "p1" "g1" (sampleRow kind expiresAt).expiresAt)
        else .done (.refused .internalError) := by
  have hadmin : requireAdmin sampleSite "alice" = .ok () := by decide +kernel
  have hgroup : enforceCallerTenancy sampleSite "alice" "acme" (some "acme/engineering") =
      .ok () := by decide +kernel
  have htenancy : enforceCallerTenancy sampleSite "alice"
      (sampleRequest kind expiresAt).body.enterpriseId
      (some (sampleRequest kind expiresAt).proposer.l2) = .ok () := hgroup
  have hsigned := verify_sampleSigner (sampleBody kind expiresAt) "acme/engineering" [1]
  unfold sampleProg ConsentCall.prog propose
  simp only [hadmin, htenancy]
  unfold proposeGrant
  rw [if_neg fun h => h.1 rfl, if_neg fun h => h rfl, if_neg fun h => h hsigned]
  rfl

/-- A valid cosignature passes the checks. -/
theorem sampleRow_cosignable (key : Bytes) :
    checkCosign .transparent sampleCodec (sampleSite.now 0) (sampleRow kind expiresAt)
      (sampleCosigner kind expiresAt key) = .ok () := by
  have hopen : ¬ (sampleRow kind expiresAt).expiresAt ≤ sampleSite.now 0 := by
    change ¬ sampleSite.now 0 + cosignWindowDays * day ≤ sampleSite.now 0
    unfold cosignWindowDays day
    omega
  have hother : ¬ (sampleCosigner kind expiresAt key).l2 =
      (sampleRow kind expiresAt).proposer.l2 := by
    change ¬ "acme/sga" = "acme/engineering"
    decide
  have hloads : sampleCodec.loads (sampleRow kind expiresAt).bodyCanonical =
      some (sampleBody kind expiresAt) := sampleCodec.loads_canonical _
  unfold checkCosign
  rw [if_neg fun h => h rfl, if_neg hopen, if_neg hother, if_neg fun h => h rfl, hloads]
  exact if_pos (verify_sampleSigner ..)

/-- A row with two valid signatures passes the checks, while its body has not expired. -/
theorem sampleCosigned_ratifiable (key : Bytes) {t : Int} (hexpires : sampleIso expiresAt = .ok t)
    (hlive : sampleSite.now 1 < t) :
    checkRatify .transparent sampleCodec sampleIso (sampleSite.now 1)
      (sampleCosigned kind expiresAt key) = .ok (sampleGrant kind expiresAt key) := by
  have hopen : ¬ (sampleCosigned kind expiresAt key).expiresAt ≤ sampleSite.now 1 := by
    change ¬ sampleSite.now 0 + cosignWindowDays * day ≤ sampleSite.now 0
    unfold cosignWindowDays day
    omega
  have hloads : sampleCodec.loads (sampleCosigned kind expiresAt key).bodyCanonical =
      some (sampleBody kind expiresAt) := sampleCodec.loads_canonical _
  have hcosigner : (sampleCosigned kind expiresAt key).cosigner =
      some (sampleCosigner kind expiresAt key, sampleSite.now 0) := rfl
  have hparse : parseTime sampleIso (sampleBody kind expiresAt).expiresAt "body.expires_at" =
      .ok t := parseTime_ok_iff.mpr hexpires
  unfold checkRatify
  rw [if_neg fun h => h rfl, if_neg hopen, hloads]
  dsimp only
  rw [if_neg fun h => h (verify_sampleSigner ..), hcosigner]
  dsimp only
  rw [if_neg fun h => h (verify_sampleSigner ..), hparse]
  exact if_neg (not_le.mpr hlive)

theorem sampleCosign_prog (cosigner : Signer) (hl2 : cosigner.l2 = "acme/sga") :
    ∃ next, sampleProg (.cosign "bob" "p1" cosigner) =
        cosignGrant .transparent sampleCodec sampleSite "p1" cosigner next ∧
      ∀ cosignedAt, next (.ok cosignedAt) = .done (.cosigned "p1" cosignedAt) := by
  have hadmin : requireAdmin sampleSite "bob" = .ok () := by decide +kernel
  have hent : (sampleSite.users "bob").bind AdminRow.enterpriseId = some "acme" := by
    decide +kernel
  have hgroup : enforceCallerTenancy sampleSite "bob" "acme" (some "acme/sga") = .ok () := by
    decide +kernel
  unfold sampleProg ConsentCall.prog cosign
  simp only [hadmin, hent, hl2, hgroup]
  exact ⟨_, rfl, fun _ => rfl⟩

/-- `alice` may ratify. -/
theorem sampleRatify_prog (row : Pending) (hent : row.enterpriseId = "acme")
    (req : RatifyRequest) :
    ∃ k, sampleProg (.ratify "alice" "p1" req) = .call (.loadPending "p1") k ∧
      k (some row) = cosignAndRatify .transparent sampleCodec sampleIso sampleSite "p1" req := by
  have hadmin : requireAdmin sampleSite "alice" = .ok () := by decide +kernel
  have hacme : enforceCallerTenancy sampleSite "alice" "acme" none = .ok () := by decide +kernel
  exact ratify_found hadmin (hent ▸ hacme)

/-- A cosignature within a ratification. -/
def sampleInline (key : Bytes) : RatifyRequest where
  cosignerL2 := some "acme/sga"
  cosignerPubkey := some (sampleCosigner kind expiresAt key).pubkey
  cosignerSignature := some (sampleCosigner kind expiresAt key).signature

theorem sampleInline_cosigner (a : UInt8) (key : Bytes) :
    (sampleInline kind expiresAt (a :: key)).cosigner =
      some (sampleCosigner kind expiresAt (a :: key)) := by
  have hpubkey : (sampleCosigner kind expiresAt (a :: key)).pubkey ≠ "" :=
    b64u_ne_empty (List.cons_ne_nil _ _)
  have hsignature : (sampleCosigner kind expiresAt (a :: key)).signature ≠ "" :=
    b64u_ne_empty (List.cons_ne_nil _ _)
  exact if_pos ⟨by decide, hpubkey, hsignature⟩

theorem sampleInline_prog (a : UInt8) (key : Bytes) :
    ∃ next, cosignAndRatify .transparent sampleCodec sampleIso sampleSite "p1"
          (sampleInline kind expiresAt (a :: key)) =
        cosignGrant .transparent sampleCodec sampleSite "p1"
          (sampleCosigner kind expiresAt (a :: key)) next ∧
      ∀ cosignedAt, next (.ok cosignedAt) =
        ratifyGrant .transparent sampleCodec sampleIso sampleSite "p1" := by
  unfold cosignAndRatify
  rw [sampleInline_cosigner]
  exact ⟨_, rfl, fun _ => rfl⟩

/-- The two tables once a row is proposed. -/
def sampleStore (row : Pending) : ConsentStore := ⟨.single row, .empty⟩

theorem sampleStore_propose (row : Pending) :
    (ConsentStmt.insertPending row).exec .empty = (true, sampleStore row) := rfl

theorem sampleStore_load (row : Pending) (hid : row.pendingId = "p1") :
    (ConsentStmt.loadPending "p1").exec (sampleStore row) = (some row, sampleStore row) := by
  refine Prod.ext ?_ rfl
  change (Table.single row).find "p1" = some row
  rw [← hid, Table.find_single]

theorem sampleStore_cosign (key : Bytes) :
    (ConsentStmt.recordCosign "p1" (sampleCosigner kind expiresAt key) (sampleSite.now 0)).exec
      (sampleStore (sampleRow kind expiresAt)) =
        ((), sampleStore (sampleCosigned kind expiresAt key)) := by
  refine Prod.ext rfl (congrArg (ConsentStore.mk · .empty) ?_)
  exact Table.update_single rfl

theorem sampleStore_promote (key : Bytes) :
    (ConsentStmt.promote (sampleGrant kind expiresAt key) "p1").exec
      (sampleStore (sampleCosigned kind expiresAt key)) =
        (true, ⟨.empty, .single (sampleGrant kind expiresAt key)⟩) := by
  have hempty : (sampleStore (sampleCosigned kind expiresAt key)).pending.delete
      (fun p => p.pendingId = "p1") = .empty := Table.delete_single rfl
  unfold ConsentStmt.exec ConsentStore.promote
  dsimp only
  rw [hempty]
  rfl

/-- `alice` proposes, `bob` cosigns and `alice` ratifies; others wait. -/
theorem sample_leads {P : Nat → ConsentStmt → ConsentStore → Prop} (key : Bytes)
    (waiting : List ConsentCall) {t : Int} (hexpires : sampleIso expiresAt = .ok t)
    (hlive : sampleSite.now 1 < t)
    (hinsert : P 0 (.insertPending (sampleRow kind expiresAt)) .empty)
    (hrecord : P 1 (.recordCosign "p1" (sampleCosigner kind expiresAt key) (sampleSite.now 0))
      (sampleStore (sampleRow kind expiresAt)))
    (hload : ∀ i s, P i (.loadPending "p1") s) (hpromote : ∀ i g s, P i (.promote g "p1") s) :
    ∃ c, (sampleStart (.propose "alice" (sampleRequest kind expiresAt) ::
        .cosign "bob" "p1" (sampleCosigner kind expiresAt key) ::
        .ratify "alice" "p1" ⟨none, none, none⟩ :: waiting)).Leads P [0, 1, 1, 2, 2, 2] c ∧
      c.world.db = ⟨.empty, .single (sampleGrant kind expiresAt key)⟩ ∧
      c.tasks = .done (.proposed "p1" "g1" (sampleRow kind expiresAt).expiresAt) ::
        .done (.cosigned "p1" (sampleSite.now 0)) :: .done (.active "g1" (sampleSite.now 1)) ::
          waiting.map sampleProg := by
  obtain ⟨next, hcosign, hnext⟩ := sampleCosign_prog (sampleCosigner kind expiresAt key) rfl
  obtain ⟨k, hgrant, hk⟩ := cosignGrant_found "p1" next
    (sampleRow_cosignable kind expiresAt key)
  obtain ⟨k', hratify, hk'⟩ := sampleRatify_prog (sampleCosigned kind expiresAt key) rfl
    ⟨none, none, none⟩
  obtain ⟨k'', hratifyGrant, hk''⟩ := ratifyGrant_found "p1"
    (sampleCosigned_ratifiable kind expiresAt key hexpires hlive)
  have hloadRow := sampleStore_load (sampleRow kind expiresAt) rfl
  have hloadCosigned := sampleStore_load (sampleCosigned kind expiresAt key) rfl
  rw [sampleStart_eq]
  apply Exists.intro
  refine ⟨?_, ?_, ?_⟩
  · apply Config.Leads.call rfl (sampleProposal_prog kind expiresAt) hinsert (sampleStore_propose _)
    apply Config.Leads.call rfl (hcosign.trans hgrant) (hload ..) hloadRow
    apply Config.Leads.call rfl hk hrecord (sampleStore_cosign kind expiresAt key)
    apply Config.Leads.call rfl hratify (hload ..) hloadCosigned
    apply Config.Leads.call rfl (hk'.trans hratifyGrant) (hload ..) hloadCosigned
    apply Config.Leads.call rfl hk'' (hpromote ..) (sampleStore_promote kind expiresAt key)
    exact Config.Leads.nil _
  · rfl
  · change _ :: next (.ok (sampleSite.now 0)) :: _ :: _ = _
    rw [hnext]
    rfl

/-- `alice` proposes, and ratifies with a cosignature under her own key. -/
theorem sample_leads_alone {t : Int} (hexpires : sampleIso expiresAt = .ok t)
    (hlive : sampleSite.now 1 < t) :
    ∃ c, (sampleStart [.propose "alice" (sampleRequest kind expiresAt),
        .ratify "alice" "p1" (sampleInline kind expiresAt [1])]).Leads
          (fun _ _ _ => True) [0, 1, 1, 1, 1, 1] c ∧
      c.world.db.grants = .single (sampleGrant kind expiresAt [1]) := by
  obtain ⟨k, hratify, hk⟩ := sampleRatify_prog (sampleRow kind expiresAt) rfl
    (sampleInline kind expiresAt [1])
  obtain ⟨next, hinline, hnext⟩ := sampleInline_prog kind expiresAt 1 []
  obtain ⟨k', hcosign, hk'⟩ := cosignGrant_found "p1" next
    (sampleRow_cosignable kind expiresAt [1])
  obtain ⟨k'', hratifyGrant, hk''⟩ := ratifyGrant_found "p1"
    (sampleCosigned_ratifiable kind expiresAt [1] hexpires hlive)
  have hloadRow := sampleStore_load (sampleRow kind expiresAt) rfl
  have hloadCosigned := sampleStore_load (sampleCosigned kind expiresAt [1]) rfl
  apply Exists.intro
  constructor
  · apply Config.Leads.call rfl (sampleProposal_prog kind expiresAt) trivial (sampleStore_propose _)
    apply Config.Leads.call rfl hratify trivial hloadRow
    apply Config.Leads.call rfl (hk.trans (hinline.trans hcosign)) trivial hloadRow
    apply Config.Leads.call rfl hk' trivial (sampleStore_cosign kind expiresAt [1])
    apply Config.Leads.call rfl ((hnext _).trans hratifyGrant) trivial hloadCosigned
    apply Config.Leads.call rfl hk'' trivial (sampleStore_promote kind expiresAt [1])
    exact Config.Leads.nil _
  · rfl

end Sample

/-- The end of June. -/
abbrev sampleEnd : String := "2026-07-01T00:00:00Z"

theorem sampleEnd_eq : sampleIso sampleEnd = .ok ((instantOf sampleEnd).getD 0) := by
  decide +kernel

theorem sampleEnd_later : sampleSite.now 1 < (instantOf sampleEnd).getD 0 := by decide +kernel

theorem two_of_two_sample :
    let calls := sampleCalls [.propose "alice" (sampleRequest "all" sampleEnd),
      .cosign "bob" "p1" (sampleCosigner "all" sampleEnd [2]),
      .ratify "alice" "p1" ⟨none, none, none⟩]
    ∃ g ∈ ((consentStart .transparent sampleCodec sampleIso calls).run
      [0, 1, 1, 2, 2, 2]).world.db.grants,
        g.status = .active ∧ TwoOfTwo .transparent sampleCodec calls g := by
  intro calls
  have hkeys : AuthorisedCosign calls 1 (sampleRow "all" sampleEnd).proposer
      (sampleCosigner "all" sampleEnd [2]) := by
    refine ⟨rfl, ?_⟩
    change b64uDecode (b64u [1]) ≠ b64uDecode (b64u [2])
    rw [b64uDecode_b64u, b64uDecode_b64u]
    decide
  have hrecord : AuthorisedStep calls 1 (.recordCosign "p1" (sampleCosigner "all" sampleEnd [2])
      (sampleSite.now 0)) (sampleStore (sampleRow "all" sampleEnd)) := by
    rintro p hp -
    cases hp
    exact hkeys
  obtain ⟨c, ⟨hmeets, hrun⟩, hdb, -⟩ := sample_leads (P := AuthorisedStep calls) "all" sampleEnd
    [2] [] sampleEnd_eq sampleEnd_later rfl hrecord (fun _ _ => trivial) fun _ _ _ => trivial
  have hfresh : FreshIds calls := List.nodup_singleton _
  have hactive := two_of_two .transparent sampleCodec sampleIso calls hfresh _ hmeets
  change (consentStart .transparent sampleCodec sampleIso calls).run _ = c at hrun
  rw [hrun, hdb] at hactive ⊢
  have hmem : sampleGrant "all" sampleEnd [2] ∈
      (Table.single (sampleGrant "all" sampleEnd [2]) : Table Grant.grantId) :=
    List.mem_singleton.mpr rfl
  exact ⟨_, hmem, rfl, hactive _ hmem rfl⟩

/-- One admin makes a grant active, with one key. -/
theorem active_by_one :
    let calls := sampleCalls [.propose "alice" (sampleRequest "all" sampleEnd),
      .ratify "alice" "p1" (sampleInline "all" sampleEnd [1])]
    (∀ p ∈ calls, p.2.admin = "alice") ∧
      ∃ g ∈ ((consentStart .transparent sampleCodec sampleIso calls).run
        [0, 1, 1, 1, 1, 1]).world.db.grants,
          g.status = .active ∧ g.signerA.pubkey = g.signerB.pubkey ∧
            ¬ TwoOfTwo .transparent sampleCodec calls g := by
  intro calls
  obtain ⟨c, ⟨-, hrun⟩, hgrants⟩ := sample_leads_alone "all" sampleEnd sampleEnd_eq sampleEnd_later
  change (consentStart .transparent sampleCodec sampleIso calls).run _ = c at hrun
  rw [hrun, hgrants]
  refine ⟨?_, sampleGrant "all" sampleEnd [1], List.mem_singleton.mpr rfl, rfl, rfl, ?_⟩
  · intro p hp
    rcases List.mem_cons.mp hp with rfl | hp
    · rfl
    · rcases List.mem_singleton.mp hp with rfl
      rfl
  · exact fun h => h.distinct rfl

end EighthLayer.Consent
