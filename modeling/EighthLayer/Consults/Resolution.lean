import EighthLayer.Consults.Manual

/-!
# EighthLayer.Consults.Resolution

Which targets a consult to another Enterprise finds.

Two Enterprises may have several peerings at once: each announcement of an L2 writes one of its
own, with that L2 alone in its roster. The lookup takes one of them, the one that is active from
the latest, and then looks for the target in its roster. `resolution_complete_iff` says when a
target that some peering lists is found.
-/

namespace EighthLayer.Consults

open Lib Aigrp

/-! ## What the lookup takes -/

/-- A row that the lookup considers: active, of the two Enterprises, and expiring by its text after
`now`. -/
def DirectoryPeering.Eligible (p : DirectoryPeering) (a b now : String) : Prop :=
  p.status = "active" ∧ p.Between a b ∧ now < p.expiresAt

instance (p : DirectoryPeering) (a b now : String) : Decidable (p.Eligible a b now) := by
  unfold DirectoryPeering.Eligible DirectoryPeering.Between
  infer_instance

/-- The L2 is in the roster. -/
def DirectoryPeering.Lists (p : DirectoryPeering) (l2Id : String) : Prop :=
  ∃ ep ∈ p.toL2Endpoints, ep.l2Id = some l2Id

/-- Of the rows considered, the first of those that are active from the latest. -/
def IsLatest (t : PeeringTable) (a b now : String) (p : DirectoryPeering) : Prop :=
  (∀ q ∈ t, q.Eligible a b now → q.activeFromRank ≤ p.activeFromRank) ∧
    t.rows.find? (fun q => q.Eligible a b now ∧ q.activeFromRank = p.activeFromRank) = some p

theorem findActive_eq_some_iff {t : PeeringTable} {a b now : String} {p : DirectoryPeering} :
    findActiveDirectoryPeering t a b now = some p ↔ IsLatest t a b now p := by
  have hrows : findActiveDirectoryPeering t a b now = (sortDesc DirectoryPeering.activeFromRank
      (t.rows.filter fun q => q.Eligible a b now)).head? := rfl
  rw [hrows, head?_sortDesc_eq_some_iff, List.find?_filter]
  unfold IsLatest
  simp only [List.mem_filter, decide_eq_true_eq, and_imp, Bool.decide_and]
  rfl

/-- What is resolved is the latest of the rows considered, and the target in its roster. -/
theorem resolve_isSome_iff {t : PeeringTable} {toL2Id selfEnterprise now target : String}
    (htarget : enterpriseOf toL2Id = some target) (hne : target ≠ selfEnterprise) :
    (∃ peering ep, resolveXEnterpriseTarget t toL2Id selfEnterprise now = some (peering, ep)) ↔
      ∃ p, IsLatest t selfEnterprise target now p ∧ p.Lists toL2Id := by
  unfold resolveXEnterpriseTarget
  simp only [htarget, if_neg hne]
  constructor
  · rintro ⟨peering, ep, h⟩
    split at h
    · cases h
    · rename_i p hfind
      obtain ⟨ep', hep, heq⟩ := Option.map_eq_some_iff.mp h
      cases heq
      have hl2 := List.find?_some hep
      exact ⟨peering, findActive_eq_some_iff.mp hfind, ep, List.mem_of_find?_eq_some hep,
        of_decide_eq_true hl2⟩
  · rintro ⟨p, hlatest, ep, hep, hl2⟩
    rw [findActive_eq_some_iff.mpr hlatest]
    dsimp only
    have hfound : (p.toL2Endpoints.find? fun ep => ep.l2Id = some toL2Id).isSome :=
      List.find?_isSome.mpr ⟨ep, hep, decide_eq_true hl2⟩
    obtain ⟨ep', hep'⟩ := Option.isSome_iff_exists.mp hfound
    exact ⟨p, ep', Option.map_eq_some_iff.mpr ⟨ep', hep', rfl⟩⟩

/-! ## Completeness -/

/-- A peering covers a target at a time: it is active, of this Enterprise and the target's, expires
later, and lists the target. -/
def DirectoryPeering.CoversTarget (p : DirectoryPeering) (selfEnterprise target l2Id : String)
    (now : Clock) : Prop :=
  p.status = "active" ∧ p.Between selfEnterprise target ∧
    (∃ e, instantOf p.expiresAt = some e ∧ now.instant < e) ∧ p.Lists l2Id

/-- A target of another Enterprise that some peering covers is resolved. -/
def Complete (t : PeeringTable) (selfEnterprise l2Id : String) (now : Clock) : Prop :=
  ∀ target, enterpriseOf l2Id = some target → target ≠ selfEnterprise →
    (∃ p ∈ t, p.CoversTarget selfEnterprise target l2Id now) →
      ∃ peering ep, resolveXEnterpriseTarget t l2Id selfEnterprise now.isoformat =
        some (peering, ep)

/-- **Completeness of the resolution**, for every table, target and time: a target that some peering
covers is resolved if and only if it is in the roster of the latest peering of the two Enterprises
that is active and not expired by its text. -/
theorem resolution_complete_iff (t : PeeringTable) (selfEnterprise l2Id : String) (now : Clock) :
    Complete t selfEnterprise l2Id now ↔
      ∀ target, enterpriseOf l2Id = some target → target ≠ selfEnterprise →
        (∃ p ∈ t, p.CoversTarget selfEnterprise target l2Id now) →
          ∃ p, IsLatest t selfEnterprise target now.isoformat p ∧ p.Lists l2Id := by
  unfold Complete
  constructor
  · intro h target htarget hne hcovered
    exact (resolve_isSome_iff htarget hne).mp (h target htarget hne hcovered)
  · intro h target htarget hne hcovered
    exact (resolve_isSome_iff htarget hne).mpr (h target htarget hne hcovered)

/-! ### Two announcements of one Enterprise's L2s -/

theorem labId_length : 3 ≤ "globex/lab".length ∧ "globex/lab".length ≤ 128 := by decide
theorem labEnterprise_length : 1 ≤ "globex".length ∧ "globex".length ≤ 64 := by decide
theorem labGroup_length : 1 ≤ "lab".length ∧ "lab".length ≤ 64 := by decide

/-- acme's announcement of a second L2 of globex, an hour after the first. -/
def announceLab : AnnounceRequest :=
  sampleAnnounce "globex/lab" "globex" "lab" labId_length labEnterprise_length labGroup_length

def twoOClock : Clock where
  stamp := ⟨⟨2026, 6, 1, Written.year_ge, Written.year_le, Written.june_ge, Written.june_le,
      Written.first_ge, Written.june_first_le⟩, 2, 0, 0,
    Written.hour_two, Written.sixtieth_zero, Written.sixtieth_zero⟩
  micro := 0
  micro_lt := Written.micro_zero

def thirtyDaysAfterTwo : Clock where
  stamp := ⟨⟨2026, 7, 1, Written.year_ge, Written.year_le, Written.july_ge, Written.july_le,
      Written.first_ge, Written.july_first_le⟩, 2, 0, 0,
    Written.hour_two, Written.sixtieth_zero, Written.sixtieth_zero⟩
  micro := 0
  micro_lt := Written.micro_zero

def labTimes : AnnounceTimes announceLab := ⟨twoOClock, thirtyDaysAfterTwo, by decide +kernel⟩

def rowOfLab : DirectoryPeering := announcedRow "acme" announceLab labTimes

def bothAnnounced : List (PeeringOp (enterprise acmeEnv)) :=
  opsAtAcme ++ [.announce announceLab labTimes]

theorem bothAnnounced_rows : (peeringsAfter basePoint bothAnnounced).rows =
    [rowAtAcme, rowOfLab] := by
  have hl2 : validateL2Id announceLab.l2Id announceLab.enterprise announceLab.group = true := by
    decide +kernel
  have hkey : validatePubkey basePoint announceLab.pubkey = true := by decide +kernel
  have hnew : (peeringsAfter basePoint opsAtAcme).find rowOfLab.offerId = none := by
    have hother : rowAtAcme.offerId ≠ rowOfLab.offerId := by decide +kernel
    refine Table.find_eq_none_iff.mpr fun p hp => ?_
    rw [Table.mem_def, peerings_at_acme, List.mem_singleton] at hp
    rw [hp]
    exact hother
  have hok : announceDirectoryPeering basePoint (peeringsAfter basePoint opsAtAcme)
      (some (some (enterprise acmeEnv))) announceLab labTimes =
        .ok (upsertDirectoryPeering (peeringsAfter basePoint opsAtAcme) rowOfLab) := by
    unfold announceDirectoryPeering
    rw [hl2, hkey]
    rfl
  have hrow : upsertDirectoryPeering (peeringsAfter basePoint opsAtAcme) rowOfLab =
      (peeringsAfter basePoint opsAtAcme).upsert rowOfLab := by
    unfold upsertDirectoryPeering
    rw [hnew]
    rfl
  have hstep : peeringsAfter basePoint bothAnnounced =
      PeeringOp.apply basePoint (peeringsAfter basePoint opsAtAcme)
        (.announce announceLab labTimes : PeeringOp (enterprise acmeEnv)) := by
    unfold peeringsAfter bothAnnounced
    rw [List.foldl_append]
    rfl
  rw [hstep, PeeringOp.apply, hok]
  dsimp only
  rw [hrow, Table.rows_upsert_of_none hnew, peerings_at_acme]
  rfl

/-- The L2 announced first is covered still, and is no longer found: the lookup takes the other
announcement, and has that other L2 alone. -/
theorem first_announced_not_resolved :
    ¬ Complete (peeringsAfter basePoint bothAnnounced) "acme" "globex/sales" twoOClock := by
  intro h
  have hent : enterpriseOf "globex/sales" = some "globex" := by decide +kernel
  have hcovers : rowAtAcme.CoversTarget "acme" "globex" "globex/sales" twoOClock := by
    refine ⟨rfl, .inl ⟨rfl, rfl⟩, ⟨_, instantOf_isoformat inThirtyDays, by decide +kernel⟩, _,
      List.mem_singleton_self _, rfl⟩
  have hne : ("globex" : String) ≠ "acme" := by decide
  have hsales : rowAtAcme ∈ peeringsAfter basePoint bothAnnounced := by
    rw [Table.mem_def, bothAnnounced_rows]
    exact .head _
  have hlab : rowOfLab ∈ peeringsAfter basePoint bothAnnounced := by
    rw [Table.mem_def, bothAnnounced_rows]
    exact .tail _ (.head _)
  obtain ⟨p, ⟨hmax, hfirst⟩, ep, hep, hl2⟩ :=
    (resolve_isSome_iff hent hne).mp (h "globex" hent hne ⟨rowAtAcme, hsales, hcovers⟩)
  have hmem := List.mem_of_find?_eq_some hfirst
  rw [bothAnnounced_rows] at hmem
  rcases List.mem_cons.mp hmem with rfl | hmem
  · have hle := hmax rowOfLab hlab (by decide +kernel)
    have hlater : rowAtAcme.activeFromRank < rowOfLab.activeFromRank := by decide +kernel
    exact absurd hle (not_le.mpr hlater)
  · cases List.mem_singleton.mp hmem
    cases List.mem_singleton.mp hep
    exact absurd hl2 (by decide +kernel)

end EighthLayer.Consults
