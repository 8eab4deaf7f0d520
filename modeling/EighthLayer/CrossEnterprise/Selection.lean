import EighthLayer.Aigrp.ForwardQuery

/-!
# EighthLayer.CrossEnterprise.Selection

Which consent covers a request from another Enterprise.

The lookup goes through the active rows of the two Enterprises that name no other groups, in the
order in which the store yields them, and keeps the first of the highest score. A row may leave
either group open, so that two rows may be equally specific; `consent_selection` says what does
not depend on the order.
-/

namespace EighthLayer.CrossEnterprise

open Lib Aigrp

/-- How specific a consent is: how many of the two groups it names. -/
def specificity (c : ConsentRow) : Nat :=
  (if c.requesterGroup = none then 0 else 1) + (if c.responderGroup = none then 0 else 1)

section Lookup

variable {reqEnt respEnt now : String} {reqGrp respGrp : Option String}

/-- The score of a row that admits the request is how specific it is, and two. -/
theorem score_eq {c : ConsentRow} (h : c.admits reqEnt respEnt reqGrp respGrp now = true) :
    c.score reqGrp respGrp = 2 + specificity c := by
  simp only [ConsentRow.admits, Bool.and_eq_true, Bool.or_eq_true, decide_eq_true_eq] at h
  obtain ⟨⟨-, hreq⟩, hresp⟩ := h
  unfold ConsentRow.score specificity
  by_cases hreq₀ : c.requesterGroup = none
  · by_cases hresp₀ : c.responderGroup = none
    · simp [hreq₀, hresp₀]
    · simp [hreq₀, hresp.resolve_left hresp₀ ▸ hresp₀, hresp.resolve_left hresp₀]
  · have hreq₁ := hreq.resolve_left hreq₀
    by_cases hresp₀ : c.responderGroup = none
    · simp [hresp₀, hreq₁ ▸ hreq₀, hreq₁]
    · simp [hreq₁ ▸ hreq₀, hreq₁, hresp.resolve_left hresp₀ ▸ hresp₀, hresp.resolve_left hresp₀]

/-- **The loop** keeps the first of the highest score. -/
theorem bestConsent_eq_some_iff {score : ConsentRow → Nat} {best : Option ConsentRow}
    {rows : List ConsentRow} {c : ConsentRow} :
    bestConsent score best rows = some c ↔
      (∀ b ∈ best.toList ++ rows, score b ≤ score c) ∧
        (best.toList ++ rows).find? (fun b => score b = score c) = some c := by
  induction rows generalizing best with
  | nil =>
      rw [bestConsent.eq_1, List.append_nil]
      cases best with
      | none => simp
      | some b =>
          simp only [Option.toList_some, List.mem_singleton, forall_eq, List.find?_singleton]
          constructor
          · intro h
            cases h
            simp
          · rintro ⟨-, hfind⟩
            split at hfind
            · exact hfind
            · cases hfind
  | cons r rows ih =>
      cases best with
      | none =>
          rw [bestConsent, ih]
          rfl
      | some b =>
          rw [bestConsent, ih]
          simp only [Option.toList_some, List.singleton_append, List.forall_mem_cons]
          by_cases hlt : score b < score r
          · simp only [if_pos hlt]
            constructor
            · rintro ⟨⟨hr, hrows⟩, hfind⟩
              refine ⟨⟨hlt.le.trans hr, hr, hrows⟩, ?_⟩
              rw [List.find?_cons_of_neg (by simpa using (hlt.trans_le hr).ne)]
              exact hfind
            · rintro ⟨⟨-, hr, hrows⟩, hfind⟩
              rw [List.find?_cons_of_neg (by simpa using (hlt.trans_le hr).ne)] at hfind
              exact ⟨⟨hr, hrows⟩, hfind⟩
          · simp only [if_neg hlt]
            have hle := Nat.le_of_not_lt hlt
            constructor
            · rintro ⟨⟨hb, hrows⟩, hfind⟩
              refine ⟨⟨hb, hle.trans hb, hrows⟩, ?_⟩
              by_cases heq : score b = score c
              · rw [List.find?_cons_of_pos (by simpa using heq)] at hfind ⊢
                exact hfind
              · have hne : score r ≠ score c := fun h => heq (le_antisymm hb (h ▸ hle))
                rw [List.find?_cons_of_neg (by simpa using heq)] at hfind ⊢
                rw [List.find?_cons_of_neg (by simpa using hne)]
                exact hfind
            · rintro ⟨⟨hb, -, hrows⟩, hfind⟩
              refine ⟨⟨hb, hrows⟩, ?_⟩
              by_cases heq : score b = score c
              · rw [List.find?_cons_of_pos (by simpa using heq)] at hfind ⊢
                exact hfind
              · have hne : score r ≠ score c := fun h => heq (le_antisymm hb (h ▸ hle))
                rw [List.find?_cons_of_neg (by simpa using heq)] at hfind ⊢
                rw [List.find?_cons_of_neg (by simpa using hne)] at hfind
                exact hfind

variable {consents rows : List ConsentRow} {c : ConsentRow}

/-- One of the most specific rows that admit a request. -/
def MostSpecific (consents : List ConsentRow) (reqEnt respEnt : String)
    (reqGrp respGrp : Option String) (now : String) (c : ConsentRow) : Prop :=
  c ∈ consents ∧ c.admits reqEnt respEnt reqGrp respGrp now = true ∧
    ∀ c' ∈ consents, c'.admits reqEnt respEnt reqGrp respGrp now = true →
      specificity c' ≤ specificity c

theorem mostSpecific_perm (h : rows.Perm consents) :
    MostSpecific rows reqEnt respEnt reqGrp respGrp now c ↔
      MostSpecific consents reqEnt respEnt reqGrp respGrp now c := by
  unfold MostSpecific
  simp only [h.mem_iff]

/-- The row that is found is one of the most specific. -/
theorem mostSpecific_of_found
    (h : findCrossEnterpriseConsent consents reqEnt respEnt reqGrp respGrp now = some c) :
    MostSpecific consents reqEnt respEnt reqGrp respGrp now c := by
  obtain ⟨hmem, hadmits⟩ := findConsent_some h
  obtain ⟨hmax, -⟩ := bestConsent_eq_some_iff.mp h
  refine ⟨hmem, hadmits, fun c' hmem' hadmits' => ?_⟩
  have hle := hmax c' (List.mem_filter.mpr ⟨hmem', hadmits'⟩)
  rw [score_eq hadmits, score_eq hadmits'] at hle
  exact Nat.le_of_add_le_add_left hle

/-- Each of the most specific rows is found in some order: when it comes first. -/
theorem found_of_mostSpecific (h : MostSpecific consents reqEnt respEnt reqGrp respGrp now c) :
    ∃ rows, rows.Perm consents ∧
      findCrossEnterpriseConsent rows reqEnt respEnt reqGrp respGrp now = some c := by
  obtain ⟨hmem, hadmits, hmax⟩ := h
  obtain ⟨before, after, rfl⟩ := List.append_of_mem hmem
  refine ⟨c :: (before ++ after), List.perm_middle.symm, bestConsent_eq_some_iff.mpr ⟨?_, ?_⟩⟩
  · intro b hb
    obtain ⟨hb, hadmits'⟩ := List.mem_filter.mp hb
    have hle := hmax b (List.perm_middle.mem_iff.mpr hb) hadmits'
    rw [score_eq hadmits, score_eq hadmits']
    exact Nat.add_le_add_left hle 2
  · have hfirst : (c :: (before ++ after)).filter
        (fun c => c.admits reqEnt respEnt reqGrp respGrp now) =
          c :: (before ++ after).filter fun c => c.admits reqEnt respEnt reqGrp respGrp now :=
      List.filter_cons_of_pos hadmits
    rw [hfirst]
    exact List.find?_cons_of_pos (by simp)

/-- The policy is the same in every order if and only if the most specific rows agree on it. -/
theorem policy_same_iff :
    (∀ rows, rows.Perm consents →
        (findCrossEnterpriseConsent rows reqEnt respEnt reqGrp respGrp now).map
          ConsentRow.policy =
        (findCrossEnterpriseConsent consents reqEnt respEnt reqGrp respGrp now).map
          ConsentRow.policy) ↔
      ∀ c c', MostSpecific consents reqEnt respEnt reqGrp respGrp now c →
        MostSpecific consents reqEnt respEnt reqGrp respGrp now c' → c.policy = c'.policy := by
  refine ⟨fun h c c' hc hc' => ?_, fun h rows hperm => ?_⟩
  · obtain ⟨rows, hperm, hfound⟩ := found_of_mostSpecific hc
    obtain ⟨rows', hperm', hfound'⟩ := found_of_mostSpecific hc'
    have heq := (h rows hperm).trans (h rows' hperm').symm
    rw [hfound, hfound'] at heq
    exact Option.some.inj heq
  · cases hfound : findCrossEnterpriseConsent rows reqEnt respEnt reqGrp respGrp now with
    | none =>
        have hnone : findCrossEnterpriseConsent consents reqEnt respEnt reqGrp respGrp now =
            none := by
          rw [findConsent_none_iff] at hfound ⊢
          exact fun c hc => hfound c (hperm.mem_iff.mpr hc)
        rw [hnone]
    | some c =>
        have hc := (mostSpecific_perm hperm).mp (mostSpecific_of_found hfound)
        cases hfound' : findCrossEnterpriseConsent consents reqEnt respEnt reqGrp respGrp now with
        | none =>
            have hnot := findConsent_none_iff.mp hfound' c hc.1
            rw [hc.2.1] at hnot
            cases hnot
        | some c' => exact congrArg some (h c c' hc (mostSpecific_of_found hfound'))

/-- **Selection.** For every list of consents and every request: the row that is found is one of
the most specific that admit the request; none is found only if none admits it; and its policy is
the same in every order of the rows if and only if all of the most specific have the same. -/
theorem consent_selection (consents : List ConsentRow) (reqEnt respEnt : String)
    (reqGrp respGrp : Option String) (now : String) :
    (∀ c, findCrossEnterpriseConsent consents reqEnt respEnt reqGrp respGrp now = some c →
      MostSpecific consents reqEnt respEnt reqGrp respGrp now c) ∧
    (findCrossEnterpriseConsent consents reqEnt respEnt reqGrp respGrp now = none ↔
      ∀ c ∈ consents, c.admits reqEnt respEnt reqGrp respGrp now = false) ∧
    ((∀ rows, rows.Perm consents →
        (findCrossEnterpriseConsent rows reqEnt respEnt reqGrp respGrp now).map
          ConsentRow.policy =
        (findCrossEnterpriseConsent consents reqEnt respEnt reqGrp respGrp now).map
          ConsentRow.policy) ↔
      ∀ c c', MostSpecific consents reqEnt respEnt reqGrp respGrp now c →
        MostSpecific consents reqEnt respEnt reqGrp respGrp now c' → c.policy = c'.policy) :=
  ⟨fun _ => mostSpecific_of_found, findConsent_none_iff, policy_same_iff⟩

end Lookup

/-! ### Two rows that are equally specific -/

/-- A consent of acme's to requests of initech's. -/
def sampleConsent (id : String) (reqGrp respGrp : Option String) (policy : String) :
    ConsentRow where
  consentId := id
  requesterEnterprise := "initech"
  responderEnterprise := "acme"
  requesterGroup := reqGrp
  responderGroup := respGrp
  policy
  signedByAdmin := "admin"
  signedAt := "2026-06-01T00:00:00+00:00"
  expiresAt := none
  auditLogId := "aud_" ++ id

/-- One row names the requester's group, the other the responder's. -/
theorem equally_specific_differ :
    let forGroup := sampleConsent "1" (some "rd") none "full_body"
    let ofGroup := sampleConsent "2" none (some "engineering") "summary_only"
    [ofGroup, forGroup].Perm [forGroup, ofGroup] ∧
    (findCrossEnterpriseConsent [forGroup, ofGroup] "initech" "acme" (some "rd")
      (some "engineering") "2026-06-02T00:00:00+00:00").map ConsentRow.policy =
        some "full_body" ∧
    (findCrossEnterpriseConsent [ofGroup, forGroup] "initech" "acme" (some "rd")
      (some "engineering") "2026-06-02T00:00:00+00:00").map ConsentRow.policy =
        some "summary_only" :=
  ⟨List.Perm.swap _ _ _, by decide +kernel, by decide +kernel⟩

end EighthLayer.CrossEnterprise
