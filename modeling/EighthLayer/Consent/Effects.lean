import EighthLayer.Consent.TwoOfTwo

/-!
# EighthLayer.Consent.Effects

What is recorded of the requests that succeed.

How many rows an `UPDATE` has reached is not looked at, so a request may report what it has
not recorded. The result is about the runs in which no `UPDATE` comes too late
(`EffectiveStep`); that a grant once revoked stays as it is holds in every run.
-/

namespace EighthLayer.Consent

open Lib

/-- A step whose `UPDATE`, if it is one, reaches a row. -/
def EffectiveStep (_ : Nat) (q : ConsentStmt) (s : ConsentStore) : Prop :=
  match q with
  | .recordCosign pendingId _ _ => ∃ p, s.pending.find pendingId = some p ∧ p.status = .proposed
  | .recordRevoke grantId _ => ∃ g, s.grants.find grantId = some g ∧ g.status = .active
  | _ => True

/-! ## What has been done -/

/-- A row was proposed under an id. -/
def Inserted (w : ConsentWorld) (pendingId : String) : Prop :=
  ∃ i p, did i (.insertPending p) true ∈ w.log ∧ p.pendingId = pendingId

/-- A grant was made active from a pending one. -/
def Promoted (w : ConsentWorld) (pendingId : String) (g : Grant) : Prop :=
  ∃ i, did i (.promote g pendingId) true ∈ w.log

/-- A cosignature is held by the row, or by the grant that the row was made. -/
def HoldsCosign (w : ConsentWorld) (pendingId : String) (cosigner : Signer) (cosignedAt : Int) :
    Prop :=
  (∃ p, w.db.pending.find pendingId = some p ∧ p.status = .cosigned ∧
      p.cosigner = some (cosigner, cosignedAt)) ∨
    ∃ g, Promoted w pendingId g ∧ g.signerB = cosigner

/-- A grant is there, perhaps revoked by now. -/
def HoldsGrant (w : ConsentWorld) (g : Grant) : Prop :=
  ∃ g', w.db.grants.find g.grantId = some g' ∧ g'.ratified = g.ratified

/-- A revocation is held by the grant. -/
def HoldsRevoke (w : ConsentWorld) (grantId : String) (r : Revocation) : Prop :=
  ∃ g, w.db.grants.find grantId = some g ∧ g.status = .revoked ∧ g.revocation = some r

section Effects

variable (calls : List (Site × ConsentCall))

/-- What holds of the two tables and of what has been done to them. -/
structure Effects (w : ConsentWorld) : Prop where
  inserts : ∀ i p a, did i (.insertPending p) a ∈ w.log → ∃ site call,
    calls[i]? = some (site, call) ∧ call.newId = some p.pendingId
  pending : ∀ k p, w.db.pending.find k = some p → Inserted w k
  loaded : ∀ i k p, did i (.loadPending k) (some p) ∈ w.log → Inserted w k ∧
    (p.status = .cosigned → w.db.pending.find k = some p ∨ ∃ g, Promoted w k g)
  promoted : ∀ k g, Promoted w k g → Inserted w k ∧ w.db.pending.find k = none ∧ HoldsGrant w g
  cosigned : ∀ i k cosigner cosignedAt, did i (.recordCosign k cosigner cosignedAt) () ∈ w.log →
    HoldsCosign w k cosigner cosignedAt ∧
      ∀ j cosigner' cosignedAt', did j (.recordCosign k cosigner' cosignedAt') () ∈ w.log → i = j
  revoked : ∀ i k r, did i (.recordRevoke k r) () ∈ w.log → HoldsRevoke w k r ∧
    ∀ j r', did j (.recordRevoke k r') () ∈ w.log → i = j

end Effects

/-! ## What a statement does to what has been done -/

section Step

variable {w : ConsentWorld} {i : Nat} {q : ConsentStmt}

theorem mem_exec_of_mem {e : Event ConsentStmt.Answer} (h : e ∈ w.log) : e ∈ (w.exec i q).log :=
  List.mem_cons_of_mem _ h

theorem Inserted.exec {k : String} (h : Inserted w k) : Inserted (w.exec i q) k := by
  obtain ⟨j, p, hmem, hid⟩ := h
  exact ⟨j, p, mem_exec_of_mem hmem, hid⟩

theorem Promoted.exec {k : String} {g : Grant} (h : Promoted w k g) :
    Promoted (w.exec i q) k g := by
  obtain ⟨j, hmem⟩ := h
  exact ⟨j, mem_exec_of_mem hmem⟩

/-- A promotion is one that was made, or one that succeeds now. -/
theorem promoted_exec {k : String} {g : Grant} (h : Promoted (w.exec i q) k g) :
    Promoted w k g ∨ (q = .promote g k ∧ w.db.promote g k ≠ none) := by
  obtain ⟨j, hmem⟩ := h
  rcases World.mem_exec_log.mp hmem with hmem | ⟨-, rfl, hanswer⟩
  · exact .inl ⟨j, hmem⟩
  · refine .inr ⟨rfl, fun hnone => ?_⟩
    change true = (ConsentStmt.exec (.promote g k) w.db).1 at hanswer
    simp [ConsentStmt.exec, hnone] at hanswer

/-- A promotion that succeeds is recorded. -/
theorem promoted_now {k : String} {g : Grant} (h : w.db.promote g k ≠ none) :
    Promoted (w.exec i (.promote g k)) k g := by
  refine ⟨i, World.mem_exec_log.mpr (.inr ⟨rfl, rfl, ?_⟩)⟩
  obtain ⟨s', hs⟩ := Option.ne_none_iff_exists'.mp h
  change true = (ConsentStmt.exec (.promote g k) w.db).1
  simp [ConsentStmt.exec, hs]

/-- What a promotion does to the two tables. -/
theorem exec_promote {k : String} {g : Grant} (h : w.db.promote g k ≠ none) :
    (w.exec i (.promote g k)).db.pending.find k = none ∧
      (w.exec i (.promote g k)).db.grants.find g.grantId = some g := by
  obtain ⟨s', hs⟩ := Option.ne_none_iff_exists'.mp h
  have hexec : (w.exec i (.promote g k)).db = s' := by
    change (ConsentStmt.exec (.promote g k) w.db).2 = s'
    simp [ConsentStmt.exec, hs]
  obtain ⟨hinsert, hdelete⟩ := ConsentStore.promote_eq_some hs
  rw [hexec, hdelete]
  refine ⟨Table.find_eq_none_iff.mpr fun p hp hid => ?_, Table.find_insert_self hinsert⟩
  have hkept := (Table.mem_delete.mp hp).2
  simp [hid] at hkept

/-- A row that is cosigned stays until it is made active. -/
theorem find_exec_of_cosigned {k : String} {p : Pending} (h : w.db.pending.find k = some p)
    (hcosigned : p.status = .cosigned) :
    (w.exec i q).db.pending.find k = some p ∨ ∃ g, q = .promote g k ∧ w.db.promote g k ≠ none := by
  rcases ConsentStmt.exec_find_pending q h with ⟨p', hp', rfl | hproposed⟩ | hpromoted
  · exact .inl hp'
  · rw [hcosigned] at hproposed
    cases hproposed
  · exact .inr hpromoted

theorem HoldsGrant.exec {g : Grant} (h : HoldsGrant w g) : HoldsGrant (w.exec i q) g := by
  obtain ⟨g', hg', hratified⟩ := h
  obtain ⟨g'', hg'', hsame, -⟩ := ConsentStmt.exec_find_grants q hg'
  exact ⟨g'', hg'', hsame.trans hratified⟩

theorem HoldsRevoke.exec {k : String} {r : Revocation} (h : HoldsRevoke w k r) :
    HoldsRevoke (w.exec i q) k r := by
  obtain ⟨g, hg, hrevoked, hr⟩ := h
  obtain ⟨g', hg', -, hsame⟩ := ConsentStmt.exec_find_grants q hg
  obtain rfl := hsame hrevoked
  exact ⟨g', hg', hrevoked, hr⟩

end Step

section Invariant

variable {sch : SignatureScheme} {codec : GrantCodec} {parseIso : ParseIso}
variable {calls : List (Site × ConsentCall)} {w : ConsentWorld} {i : Nat} {q : ConsentStmt}

theorem effects_empty : Effects calls ⟨.empty, []⟩ where
  inserts i p a h := absurd h List.not_mem_nil
  pending k p hp := by cases hp
  loaded i k p h := absurd h List.not_mem_nil
  promoted k g h := absurd h.choose_spec List.not_mem_nil
  cosigned i k cosigner cosignedAt h := absurd h List.not_mem_nil
  revoked i k r h := absurd h List.not_mem_nil

/-- The row of a promotion, as it was loaded: cosigned by the second signer. -/
theorem checkRatify_signerB {now : Int} {row : Pending} {g : Grant}
    (h : checkRatify sch codec parseIso now row = .ok g) :
    row.status = .cosigned ∧ ∃ cosignedAt, row.cosigner = some (g.signerB, cosignedAt) := by
  unfold checkRatify at h
  split at h
  · cases h
  · rename_i hstatus
    split at h
    · cases h
    · split at h
      · cases h
      · split at h
        · cases h
        · split at h
          · cases h
          · rename_i cosigner cosignedAt hcosigner
            split at h
            · cases h
            · split at h
              · cases h
              · split at h
                · cases h
                · cases h
                  exact ⟨not_not.mp hstatus, cosignedAt, hcosigner⟩

/-- An id under which a row was proposed is not given to another. -/
theorem Effects.not_inserted (h : Effects calls w) (hfresh : FreshIds calls) {site : Site}
    {call : ConsentCall} (hi : calls[i]? = some (site, call)) {p : Pending}
    (hdue : Due sch codec parseIso site call i (w.own i) (.insertPending p)) :
    ¬ Inserted w p.pendingId := by
  rintro ⟨j, p', hmem, hid⟩
  obtain ⟨hnil, admin, req, rfl, rfl, -⟩ := hdue
  obtain ⟨site', call', hj, hnew⟩ := h.inserts j p' true hmem
  have hij : i = j := index_eq_of_nodup_filterMap hfresh (x := req.pendingId) hi hj rfl
    (hnew.trans (congrArg some hid))
  subst hij
  have hown : did i (.insertPending p') true ∈ w.own i := World.mem_own.mpr ⟨hmem, rfl⟩
  rw [hnil] at hown
  exact List.not_mem_nil hown

/-- A cosignature that is held is held on. -/
theorem HoldsCosign.exec (h : Effects calls w) {site : Site} {call : ConsentCall}
    (hdue : Due sch codec parseIso site call i (w.own i) q) {k : String} {cosigner : Signer}
    {cosignedAt : Int} (hholds : HoldsCosign w k cosigner cosignedAt) :
    HoldsCosign (w.exec i q) k cosigner cosignedAt := by
  rcases hholds with ⟨p, hp, hcosigned, hcosigner⟩ | ⟨g, hpromoted, hsigner⟩
  · rcases find_exec_of_cosigned (i := i) (q := q) hp hcosigned with hstays | ⟨g, rfl, hsome⟩
    · exact .inl ⟨p, hstays, hcosigned, hcosigner⟩
    · -- the row that was promoted is the one that was loaded
      obtain ⟨row, hloaded, hcheck⟩ := hdue
      obtain ⟨hstatus, at', hsigner⟩ := checkRatify_signerB hcheck
      refine .inr ⟨g, promoted_now hsome, ?_⟩
      rcases (h.loaded i k row (World.mem_own.mp hloaded).1).2 hstatus with hrow | ⟨g', hgone⟩
      · obtain rfl := Option.some.inj (hp.symm.trans hrow)
        exact congrArg Prod.fst (Option.some.inj (hsigner.symm.trans hcosigner))
      · rw [(h.promoted k g' hgone).2.1] at hp
        cases hp
  · exact .inr ⟨g, hpromoted.exec, hsigner⟩

/-- An effective cosignature is held, and the first one. -/
theorem Effects.cosign_now (h : Effects calls w) {k : String} {cosigner : Signer}
    {cosignedAt : Int} (hok : EffectiveStep i (.recordCosign k cosigner cosignedAt) w.db) :
    HoldsCosign (w.exec i (.recordCosign k cosigner cosignedAt)) k cosigner cosignedAt ∧
      ∀ j cosigner' cosignedAt', did j (.recordCosign k cosigner' cosignedAt') () ∉ w.log := by
  obtain ⟨p, hp, hproposed⟩ := hok
  have hid : p.pendingId = k := (Table.find_eq_some_iff.mp hp).2
  constructor
  · refine .inl ⟨p.cosign cosigner cosignedAt, ?_, rfl, rfl⟩
    refine (ConsentStore.recordCosign_find w.db k cosigner cosignedAt k).trans ?_
    rw [hp, Option.map_some, if_pos (Pending.isProposed_iff.mpr ⟨hid, hproposed⟩)]
  · intro j cosigner' cosignedAt' hmem
    rcases (h.cosigned j k cosigner' cosignedAt' hmem).1 with ⟨p', hp', hcosigned, -⟩ |
      ⟨g, hpromoted, -⟩
    · obtain rfl := Option.some.inj (hp.symm.trans hp')
      rw [hproposed] at hcosigned
      cases hcosigned
    · rw [(h.promoted k g hpromoted).2.1] at hp
      cases hp

/-- An effective revocation is held, and the first one. -/
theorem Effects.revoke_now (h : Effects calls w) {k : String} {r : Revocation}
    (hok : EffectiveStep i (.recordRevoke k r) w.db) :
    HoldsRevoke (w.exec i (.recordRevoke k r)) k r ∧
      ∀ j r', did j (.recordRevoke k r') () ∉ w.log := by
  obtain ⟨g, hg, hactive⟩ := hok
  have hid : g.grantId = k := (Table.find_eq_some_iff.mp hg).2
  constructor
  · refine ⟨g.revoke r, ?_, rfl, rfl⟩
    refine (ConsentStore.recordRevoke_find w.db k r k).trans ?_
    rw [hg, Option.map_some, if_pos (Grant.isActive_iff.mpr ⟨hid, hactive⟩)]
  · intro j r' hmem
    obtain ⟨g', hg', hrevoked, -⟩ := (h.revoked j k r' hmem).1
    obtain rfl := Option.some.inj (hg.symm.trans hg')
    rw [hactive] at hrevoked
    cases hrevoked

/-- The step lemma. -/
theorem Effects.exec (h : Effects calls w) (hfresh : FreshIds calls) {site : Site}
    {call : ConsentCall} (hi : calls[i]? = some (site, call))
    (hdue : Due sch codec parseIso site call i (w.own i) q) (hok : EffectiveStep i q w.db) :
    Effects calls (w.exec i q) where
  inserts := by
    intro j p a hmem
    rcases World.mem_exec_log.mp hmem with hmem | ⟨rfl, rfl, -⟩
    · exact h.inserts j p a hmem
    · obtain ⟨-, admin, req, rfl, rfl, -⟩ := hdue
      exact ⟨site, _, hi, rfl⟩
  pending := by
    intro k p hp
    rcases ConsentStmt.find_exec_pending hp with ⟨p₀, hp₀, -⟩ | ⟨rfl, hid, hnone⟩
    · exact (h.pending k p₀ hp₀).exec
    · refine ⟨i, p, World.mem_exec_log.mpr (.inr ⟨rfl, rfl, ?_⟩), hid⟩
      change true = (ConsentStmt.exec (.insertPending p) w.db).1
      unfold ConsentStmt.exec
      dsimp only
      split
      · rename_i hfailed
        have hkept : (ConsentStmt.exec (.insertPending p) w.db).2 = w.db := by
          simp [ConsentStmt.exec, hfailed]
        change (ConsentStmt.exec (.insertPending p) w.db).2.pending.find k = some p at hp
        rw [hkept, hnone] at hp
        cases hp
      · rfl
  loaded := by
    intro j k p hmem
    rcases World.mem_exec_log.mp hmem with hmem | ⟨-, rfl, hfound⟩
    · obtain ⟨hinserted, hcosigned⟩ := h.loaded j k p hmem
      refine ⟨hinserted.exec, fun hstatus => ?_⟩
      rcases hcosigned hstatus with hp | ⟨g, hpromoted⟩
      · rcases find_exec_of_cosigned (i := i) (q := q) hp hstatus with hstays | ⟨g, rfl, hsome⟩
        · exact .inl hstays
        · exact .inr ⟨g, promoted_now hsome⟩
      · exact .inr ⟨g, hpromoted.exec⟩
    · have hp : w.db.pending.find k = some p := hfound.symm
      exact ⟨(h.pending k p hp).exec, fun _ => .inl hp⟩
  promoted := by
    intro k g hpromoted
    rcases promoted_exec hpromoted with hpromoted | ⟨rfl, hsome⟩
    · obtain ⟨hinserted, hnone, hholds⟩ := h.promoted k g hpromoted
      refine ⟨hinserted.exec, ?_, hholds.exec⟩
      rw [Option.eq_none_iff_forall_ne_some]
      intro p hp
      rcases ConsentStmt.find_exec_pending hp with ⟨p₀, hp₀, -⟩ | ⟨rfl, rfl, -⟩
      · rw [hnone] at hp₀
        cases hp₀
      · exact h.not_inserted hfresh hi hdue hinserted
    · obtain ⟨hgone, hthere⟩ := exec_promote (i := i) hsome
      obtain ⟨row, hloaded, -⟩ := hdue
      have hinserted := (h.loaded i k row (World.mem_own.mp hloaded).1).1
      exact ⟨hinserted.exec, hgone, g, hthere, rfl⟩
  cosigned := by
    intro j k cosigner cosignedAt hmem
    rcases World.mem_exec_log.mp hmem with hold | ⟨rfl, rfl, -⟩
    · obtain ⟨hholds, hone⟩ := h.cosigned j k cosigner cosignedAt hold
      refine ⟨hholds.exec h hdue, fun j' cosigner' cosignedAt' hmem' => ?_⟩
      rcases World.mem_exec_log.mp hmem' with hold' | ⟨rfl, rfl, -⟩
      · exact hone j' cosigner' cosignedAt' hold'
      · exact ((h.cosign_now hok).2 j cosigner cosignedAt hold).elim
    · obtain ⟨hholds, hfirst⟩ := h.cosign_now hok
      refine ⟨hholds, fun j' cosigner' cosignedAt' hmem' => ?_⟩
      rcases World.mem_exec_log.mp hmem' with hold' | ⟨rfl, -, -⟩
      · exact (hfirst j' cosigner' cosignedAt' hold').elim
      · rfl
  revoked := by
    intro j k r hmem
    rcases World.mem_exec_log.mp hmem with hold | ⟨rfl, rfl, -⟩
    · obtain ⟨hholds, hone⟩ := h.revoked j k r hold
      refine ⟨hholds.exec, fun j' r' hmem' => ?_⟩
      rcases World.mem_exec_log.mp hmem' with hold' | ⟨rfl, rfl, -⟩
      · exact hone j' r' hold'
      · exact ((h.revoke_now hok).2 j r hold).elim
    · obtain ⟨hholds, hfirst⟩ := h.revoke_now hok
      refine ⟨hholds, fun j' r' hmem' => ?_⟩
      rcases World.mem_exec_log.mp hmem' with hold' | ⟨rfl, -, -⟩
      · exact (hfirst j' r' hold').elim
      · rfl

/-- The run lemma. -/
theorem effects_run (hfresh : FreshIds calls) {schedule : List Nat}
    (hmeets : (consentStart sch codec parseIso calls).Meets (Config.Next EffectiveStep) schedule) :
    Effects calls ((consentStart sch codec parseIso calls).run schedule).world := by
  refine Config.run_guarded (T := fun i past prog => ∃ site call, calls[i]? = some (site, call) ∧
      CallFacts sch codec parseIso site call i past prog) ?_ effects_empty ?_ hmeets
  · rintro c i q k h htask ⟨site, call, hi, hfacts⟩ hnext
    exact h.exec hfresh hi (hfacts.next q k rfl).2 (hnext.ok htask)
  · intro i prog hprog
    obtain ⟨site, call, hi, hruns⟩ := runs_start hprog
    exact hruns.imp fun past p hfacts => ⟨site, call, hi, hfacts⟩

/-- What a request that has been answered has recorded. -/
theorem reported_run (schedule : List Nat) {a : ConsentResponse}
    (h : ((consentStart sch codec parseIso calls).run schedule).Answered i a) :
    ∃ site call, calls[i]? = some (site, call) ∧
      Reported call i (((consentStart sch codec parseIso calls).run schedule).world.own i) a := by
  obtain ⟨prog, hprog⟩ : ∃ prog, (consentStart sch codec parseIso calls).tasks[i]? = some prog := by
    have hlt := (List.getElem?_eq_some_iff.mp h).1
    rw [Config.run_length] at hlt
    exact ⟨_, List.getElem?_eq_getElem hlt⟩
  obtain ⟨site, call, hi, hruns⟩ := runs_start hprog
  obtain ⟨prog', hprog', halways⟩ := Config.run_always hprog hruns schedule
  obtain rfl := Option.some.inj (hprog'.symm.trans h)
  exact ⟨site, call, hi, halways.now.reported a rfl⟩

/-- A revoked grant stays as it is, in every run. -/
theorem revoked_stays (c : Config ConsentStore ConsentStmt.Answer ConsentResponse)
    (schedule : List Nat) {k : String} {g : Grant} (h : c.world.db.grants.find k = some g)
    (hrevoked : g.status = .revoked) : (c.run schedule).world.db.grants.find k = some g := by
  refine Config.run_world (P := fun w : ConsentWorld => w.db.grants.find k = some g) ?_ h schedule
  intro w i q hg
  obtain ⟨g', hg', -, hsame⟩ := ConsentStmt.exec_find_grants q hg
  exact hsame hrevoked ▸ hg'

end Invariant

/-! ## What requests report -/

section Reports

variable (calls : List (Site × ConsentCall))
variable (c : Config ConsentStore ConsentStmt.Answer ConsentResponse)

/-- What the requests that have succeeded report is so. -/
structure Truthful : Prop where
  /-- The caller's signature is held, until it is in the grant. -/
  cosigned : ∀ i k cosignedAt, c.Answered i (.cosigned k cosignedAt) →
    ∃ site call cosigner, calls[i]? = some (site, call) ∧ call.signer = some cosigner ∧
      HoldsCosign c.world k cosigner cosignedAt
  /-- The grant was made active, and is revoked at most. -/
  active : ∀ i k ratifiedAt, c.Answered i (.active k ratifiedAt) →
    ∃ g, g.grantId = k ∧ g.ratifiedAt = ratifiedAt ∧ HoldsGrant c.world g
  /-- The grant is revoked, by the caller. -/
  revoked : ∀ i k byRecovery revokedAt, c.Answered i (.revoked k byRecovery revokedAt) →
    ∃ site admin req, calls[i]? = some (site, .revoke admin k req byRecovery) ∧
      ∃ r, HoldsRevoke c.world k r ∧ r.byL2 = req.revokerL2 ∧ r.byPubkey = req.revokerPubkey ∧
        r.byRecovery = byRecovery ∧ r.revokedAt = revokedAt
  /-- One cosignature succeeds. -/
  one_cosign : ∀ i j k t t', c.Answered i (.cosigned k t) → c.Answered j (.cosigned k t') → i = j
  /-- One revocation succeeds. -/
  one_revoke : ∀ i j k b b' t t', c.Answered i (.revoked k b t) → c.Answered j (.revoked k b' t') →
    i = j

end Reports

/-- **Effects.** In every run in which no `UPDATE` comes too late, what the requests that have
succeeded report is so, and one that is revoked stays revoked. -/
theorem success_recorded (sch : SignatureScheme) (codec : GrantCodec) (parseIso : ParseIso)
    (calls : List (Site × ConsentCall)) (hfresh : FreshIds calls) (schedule : List Nat)
    (hmeets : (consentStart sch codec parseIso calls).Meets
      (Config.Next EffectiveStep) schedule) :
    Truthful calls ((consentStart sch codec parseIso calls).run schedule) ∧
      ∀ later k g, ((consentStart sch codec parseIso calls).run schedule).world.db.grants.find k =
          some g → g.status = .revoked →
        ((consentStart sch codec parseIso calls).run (schedule ++ later)).world.db.grants.find k =
          some g := by
  have heffects := effects_run hfresh hmeets
  refine ⟨⟨?cosigned, ?active, ?revoked, ?one_cosign, ?one_revoke⟩, fun later k g hg hrevoked => ?_⟩
  case cosigned =>
    intro i k cosignedAt h
    obtain ⟨site, call, hi, cosigner, hsigner, hmem⟩ := reported_run schedule h
    exact ⟨site, call, cosigner, hi, hsigner,
      (heffects.cosigned i k cosigner cosignedAt (World.mem_own.mp hmem).1).1⟩
  case active =>
    intro i k ratifiedAt h
    obtain ⟨site, call, -, g, pendingId, hid, hat, hmem⟩ := reported_run schedule h
    exact ⟨g, hid, hat, (heffects.promoted pendingId g ⟨i, (World.mem_own.mp hmem).1⟩).2.2⟩
  case revoked =>
    intro i k byRecovery revokedAt h
    obtain ⟨site, call, hi, admin, req, r, rfl, hl2, hkey, hrecovery, hat, hmem⟩ :=
      reported_run schedule h
    exact ⟨site, admin, req, hi, r, (heffects.revoked i k r (World.mem_own.mp hmem).1).1, hl2, hkey,
      hrecovery, hat⟩
  case one_cosign =>
    intro i j k t t' h h'
    obtain ⟨-, -, -, cosigner, -, hmem⟩ := reported_run schedule h
    obtain ⟨-, -, -, cosigner', -, hmem'⟩ := reported_run schedule h'
    exact (heffects.cosigned i k cosigner t (World.mem_own.mp hmem).1).2 j cosigner' t'
      (World.mem_own.mp hmem').1
  case one_revoke =>
    intro i j k b b' t t' h h'
    obtain ⟨-, -, -, -, -, r, -, -, -, -, -, hmem⟩ := reported_run schedule h
    obtain ⟨-, -, -, -, -, r', -, -, -, -, -, hmem'⟩ := reported_run schedule h'
    exact (heffects.revoked i k r (World.mem_own.mp hmem).1).2 j r' (World.mem_own.mp hmem').1
  · rw [Config.run_append]
    exact revoked_stays _ later hg hrevoked

/-! ## Closed instances -/

/-- A revocation under the key of `alice`. -/
def sampleRevoke : RevokeRequest where
  revokerL2 := some "acme/engineering"
  revokerPubkey := publicKeyB64u .transparent [1]
  revokerSignature := signRaw .transparent [1] (utf8 (sampleCodec.revocation
    ⟨"g1", "2026-06-01T00:00:00Z", "", "acme/engineering"⟩))
  revokeTs := "2026-06-01T00:00:00Z"
  reason := none

/-- What it records. -/
def sampleRevocation : Revocation where
  revokedAt := sampleSite.now 0
  byL2 := some "acme/engineering"
  byPubkey := publicKeyB64u .transparent [1]
  byRecovery := false
  reason := none

theorem sampleGrant_revocable :
    checkRevoke .transparent sampleCodec sampleIso (sampleSite.now 0) "g1"
      (sampleGrant "all" sampleEnd [2]) sampleRevoke false = .ok sampleRevocation := by
  have hparse : parseTime sampleIso (sampleGrant "all" sampleEnd [2]).expiresAt "expires_at" =
      .ok ((instantOf sampleEnd).getD 0) := parseTime_ok_iff.mpr sampleEnd_eq
  have hsigned : verifyRaw .transparent sampleRevoke.revokerPubkey
      (utf8 (sampleCodec.revocation (sampleRevoke.envelope "g1"))) sampleRevoke.revokerSignature =
        true := verifyRaw_signRaw .transparent [1] _
  have hauthority : revokeAuthority (sampleGrant "all" sampleEnd [2]) sampleRevoke false =
      .ok false := by
    unfold revokeAuthority
    rw [if_neg Bool.false_ne_true]
    exact if_pos (.inl rfl)
  have hlive : ¬ (instantOf sampleEnd).getD 0 ≤ sampleSite.now 0 := not_le.mpr sampleEnd_later
  unfold checkRevoke
  rw [if_neg fun h => h rfl, hparse]
  dsimp only
  rw [if_neg hlive, if_neg fun h => h hsigned, hauthority]
  rfl

/-- A grant that is made active and revoked. -/
theorem sample_leads_revoked :
    ∃ c, (sampleStart [.propose "alice" (sampleRequest "all" sampleEnd),
        .cosign "bob" "p1" (sampleCosigner "all" sampleEnd [2]),
        .ratify "alice" "p1" ⟨none, none, none⟩,
        .revoke "alice" "g1" sampleRevoke false]).Leads EffectiveStep
          ([0, 1, 1, 2, 2, 2] ++ [3, 3, 3]) c ∧
      c.Answered 1 (.cosigned "p1" (sampleSite.now 0)) ∧
        c.Answered 3 (.revoked "g1" false (sampleSite.now 0)) := by
  have hadmin : requireAdmin sampleSite "alice" = .ok () := by decide +kernel
  have hacme : enforceCallerTenancy sampleSite "alice" "acme" none = .ok () := by decide +kernel
  obtain ⟨⟨⟨db, log⟩, tasks⟩, hbefore, rfl, rfl⟩ := sample_leads (P := EffectiveStep) "all"
    sampleEnd [2] [.revoke "alice" "g1" sampleRevoke false] sampleEnd_eq sampleEnd_later trivial
    ⟨sampleRow "all" sampleEnd, Table.find_single _, rfl⟩ (fun _ _ => trivial) fun _ _ _ => trivial
  obtain ⟨k, hrevoke, hk⟩ : ∃ k,
      revoke .transparent sampleCodec sampleIso sampleSite "alice" "g1" sampleRevoke false =
        .call (.loadActive "g1") k ∧
      k (some (sampleGrant "all" sampleEnd [2])) =
        revokeGrant .transparent sampleCodec sampleIso sampleSite "g1" sampleRevoke false :=
    revoke_found hadmin hacme
  obtain ⟨k', hgrant, hk'⟩ := revokeGrant_found sampleGrant_revocable
  have hfind : (Table.single (sampleGrant "all" sampleEnd [2]) : Table Grant.grantId).find "g1" =
      some (sampleGrant "all" sampleEnd [2]) := Table.find_single _
  have hload : (ConsentStmt.loadActive "g1").exec
      ⟨.empty, .single (sampleGrant "all" sampleEnd [2])⟩ =
        (some (sampleGrant "all" sampleEnd [2]),
          ⟨.empty, .single (sampleGrant "all" sampleEnd [2])⟩) := Prod.ext hfind rfl
  apply Exists.intro
  constructor
  · apply hbefore.trans
    apply Config.Leads.call rfl hrevoke trivial hload
    apply Config.Leads.call rfl (hk.trans hgrant) trivial hload
    apply Config.Leads.call rfl hk' ⟨sampleGrant "all" sampleEnd [2], hfind, rfl⟩ rfl
    exact Config.Leads.nil _
  · exact ⟨rfl, rfl⟩

theorem success_recorded_sample :
    let calls := sampleCalls [.propose "alice" (sampleRequest "all" sampleEnd),
      .cosign "bob" "p1" (sampleCosigner "all" sampleEnd [2]),
      .ratify "alice" "p1" ⟨none, none, none⟩, .revoke "alice" "g1" sampleRevoke false]
    let c := (consentStart .transparent sampleCodec sampleIso calls).run
      ([0, 1, 1, 2, 2, 2] ++ [3, 3, 3])
    c.Answered 1 (.cosigned "p1" (sampleSite.now 0)) ∧
      c.Answered 3 (.revoked "g1" false (sampleSite.now 0)) ∧ Truthful calls c := by
  intro calls c
  obtain ⟨c', ⟨hmeets, hrun⟩, hcosigned, hrevoked⟩ := sample_leads_revoked
  have hfresh : FreshIds calls := List.nodup_singleton _
  change c = c' at hrun
  refine ⟨hrun ▸ hcosigned, hrun ▸ hrevoked, ?_⟩
  exact (success_recorded .transparent sampleCodec sampleIso calls hfresh _ hmeets).1

/-- A cosignature that comes too late changes nothing. -/
theorem sampleStore_cosign_late :
    (ConsentStmt.recordCosign "p1" (sampleCosigner "all" sampleEnd [3]) (sampleSite.now 0)).exec
      (sampleStore (sampleCosigned "all" sampleEnd [2])) =
        ((), sampleStore (sampleCosigned "all" sampleEnd [2])) := by
  refine Prod.ext rfl (congrArg (ConsentStore.mk · .empty) ?_)
  refine Table.update_eq_self fun p hp => ?_
  obtain rfl := List.mem_singleton.mp hp
  rfl

/-- Two cosignatures that are checked against the same proposed row both succeed, and the
second is not recorded. -/
theorem success_unrecorded :
    let calls := sampleCalls [.propose "alice" (sampleRequest "all" sampleEnd),
      .cosign "bob" "p1" (sampleCosigner "all" sampleEnd [2]),
      .cosign "bob" "p1" (sampleCosigner "all" sampleEnd [3])]
    let c := (consentStart .transparent sampleCodec sampleIso calls).run [0, 1, 2, 1, 2]
    c.Answered 1 (.cosigned "p1" (sampleSite.now 0)) ∧
      c.Answered 2 (.cosigned "p1" (sampleSite.now 0)) ∧
        c.world.db.pending = .single (sampleCosigned "all" sampleEnd [2]) ∧
          ¬ Truthful calls c := by
  intro calls c
  obtain ⟨next, hcosign, hnext⟩ := sampleCosign_prog (sampleCosigner "all" sampleEnd [2]) rfl
  obtain ⟨next', hcosign', hnext'⟩ := sampleCosign_prog (sampleCosigner "all" sampleEnd [3]) rfl
  obtain ⟨k, hgrant, hk⟩ := cosignGrant_found "p1" next
    (sampleRow_cosignable "all" sampleEnd [2])
  obtain ⟨k', hgrant', hk'⟩ := cosignGrant_found "p1" next'
    (sampleRow_cosignable "all" sampleEnd [3])
  have hload := sampleStore_load (sampleRow "all" sampleEnd) rfl
  have hleads : ∃ c', (sampleStart [.propose "alice" (sampleRequest "all" sampleEnd),
      .cosign "bob" "p1" (sampleCosigner "all" sampleEnd [2]),
      .cosign "bob" "p1" (sampleCosigner "all" sampleEnd [3])]).Leads (fun _ _ _ => True)
        [0, 1, 2, 1, 2] c' ∧ c'.world.db = sampleStore (sampleCosigned "all" sampleEnd [2]) ∧
          c'.tasks[1]? = some (next (.ok (sampleSite.now 0))) ∧
            c'.tasks[2]? = some (next' (.ok (sampleSite.now 0))) := by
    apply Exists.intro
    constructor
    · apply Config.Leads.call rfl (sampleProposal_prog "all" sampleEnd) trivial
        (sampleStore_propose _)
      apply Config.Leads.call rfl (hcosign.trans hgrant) trivial hload
      apply Config.Leads.call rfl (hcosign'.trans hgrant') trivial hload
      apply Config.Leads.call rfl hk trivial (sampleStore_cosign "all" sampleEnd [2])
      apply Config.Leads.call rfl hk' trivial sampleStore_cosign_late
      exact Config.Leads.nil _
    · exact ⟨rfl, rfl, rfl⟩
  obtain ⟨c', ⟨-, hrun⟩, hdb, h1, h2⟩ := hleads
  change c = c' at hrun
  have hanswer : c.Answered 1 (.cosigned "p1" (sampleSite.now 0)) := by
    rw [hrun, Config.Answered, h1, hnext]
  have hanswer' : c.Answered 2 (.cosigned "p1" (sampleSite.now 0)) := by
    rw [hrun, Config.Answered, h2, hnext']
  refine ⟨hanswer, hanswer', ?_, fun h => ?_⟩
  · rw [hrun, hdb]
    rfl
  · exact absurd (h.one_cosign 1 2 "p1" _ _ hanswer hanswer') (by decide)

end EighthLayer.Consent
