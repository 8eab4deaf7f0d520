import EighthLayer.Aigrp.Identity
import EighthLayer.Lib.Ranking
import EighthLayer.Lib.Table

/-!
# EighthLayer.Consults.Peering

The table `aigrp_directory_peerings`: this L2's copy of the peerings between Enterprises,
the two queries that the consults make of it, and the bearer that is derived from a
peering's signatures.
-/

namespace EighthLayer.Consults

open Lib Aigrp

/-- An entry of a peering's roster. -/
structure L2Endpoint where
  l2Id : Option String
  endpointUrl : Option String
deriving DecidableEq

/-- A row of `aigrp_directory_peerings`. -/
structure DirectoryPeering where
  offerId : String
  fromEnterprise : String
  toEnterprise : String
  status : String
  contentPolicy : String
  consultLoggingPolicy : String
  activeFrom : Option String
  expiresAt : String
  offerSignature : String
  acceptSignature : String
  lastSyncedAt : String
  /-- `to_l2_endpoints_json`, parsed; nothing when it does not parse. -/
  toL2Endpoints : List L2Endpoint
deriving DecidableEq

/-- The table; `offer_id` is its primary key. -/
abbrev PeeringTable := Table DirectoryPeering.offerId

/-- `upsert_directory_peering`. A row that is there keeps its two Enterprises. -/
def upsertDirectoryPeering (t : PeeringTable) (p : DirectoryPeering) : PeeringTable :=
  t.upsert { p with
    fromEnterprise := ((t.find p.offerId).map DirectoryPeering.fromEnterprise).getD p.fromEnterprise
    toEnterprise := ((t.find p.offerId).map DirectoryPeering.toEnterprise).getD p.toEnterprise }

/-- `active_from` for `ORDER BY … DESC`: `NULL` comes last. -/
def DirectoryPeering.activeFromRank (p : DirectoryPeering) : WithBot String := p.activeFrom

/-- `find_active_directory_peering`: the peering of two Enterprises, in either direction,
whose `active_from` is the latest. -/
def findActiveDirectoryPeering (t : PeeringTable) (fromEnterprise toEnterprise now : String) :
    Option DirectoryPeering :=
  let rows := t.rows.filter fun p =>
    p.status = "active" ∧
      ((p.fromEnterprise = fromEnterprise ∧ p.toEnterprise = toEnterprise) ∨
        (p.fromEnterprise = toEnterprise ∧ p.toEnterprise = fromEnterprise)) ∧
      now < p.expiresAt
  (sortDesc DirectoryPeering.activeFromRank rows).head?

/-- `list_directory_peerings`. -/
def listDirectoryPeerings (t : PeeringTable) (enterpriseId status : Option String) :
    List DirectoryPeering :=
  let rows := t.rows.filter fun p =>
    (match enterpriseId with
      | none => true
      | some eid => p.fromEnterprise = eid || p.toEnterprise = eid) &&
    (match status with
      | none => true
      | some status => p.status = status)
  sortDesc (fun p => toLex (p.activeFromRank, p.lastSyncedAt)) rows

theorem findActive_spec {t : PeeringTable} {a b now : String} {p : DirectoryPeering}
    (h : findActiveDirectoryPeering t a b now = some p) :
    p ∈ t ∧ p.status = "active" ∧
      ((p.fromEnterprise = a ∧ p.toEnterprise = b) ∨ (p.fromEnterprise = b ∧ p.toEnterprise = a)) ∧
      now < p.expiresAt := by
  have hmem := mem_sortDesc.mp (List.mem_of_head? h)
  obtain ⟨hp, hcond⟩ := List.mem_filter.mp hmem
  exact ⟨hp, of_decide_eq_true hcond⟩

/-- The first active peering with an offer id is the row of that id, if it is active. -/
theorem listed_head_eq_some_iff {t : PeeringTable} {offerId : String} {p : DirectoryPeering} :
    ((listDirectoryPeerings t none (some "active")).filter fun p => p.offerId = offerId).head? =
      some p ↔ t.find offerId = some p ∧ p.status = "active" := by
  have hmem : ∀ q, q ∈ ((listDirectoryPeerings t none (some "active")).filter
      fun p => p.offerId = offerId) ↔ q ∈ t ∧ q.status = "active" ∧ q.offerId = offerId := by
    intro q
    simp [listDirectoryPeerings, Table.mem_def, and_assoc]
  rw [Table.find_eq_some_iff]
  constructor
  · intro h
    obtain ⟨hp, hstatus, hid⟩ := (hmem p).mp (List.mem_of_head? h)
    exact ⟨⟨hp, hid⟩, hstatus⟩
  · rintro ⟨⟨hp, hid⟩, hstatus⟩
    have hin := (hmem p).mpr ⟨hp, hstatus, hid⟩
    cases hlist : (listDirectoryPeerings t none (some "active")).filter
        fun p => p.offerId = offerId with
    | nil =>
        rw [hlist] at hin
        exact absurd hin List.not_mem_nil
    | cons q rest =>
        have hq := (hmem q).mp (hlist ▸ List.mem_cons_self)
        exact congrArg some (Table.eq_of_key_eq hq.1 hp (hq.2.2.trans hid.symm))

/-- `derive_peering_bearer`; `none` when a signature does not decode. -/
def derivePeeringBearer (offerSignature acceptSignature : String) : Option String :=
  match b64uDecode offerSignature, b64uDecode acceptSignature with
  | some offer, some accept =>
      some (b64u (hkdfSha256 (List.replicate 32 0) (offer ++ accept)
        (utf8 "8l-x-enterprise-bearer-v1")))
  | _, _ => none

/-- The bearer of a peering. -/
def DirectoryPeering.bearer (p : DirectoryPeering) : Option String :=
  derivePeeringBearer p.offerSignature p.acceptSignature

/-- The name of the Enterprise in an L2 id: `l2_id.partition("/")[0]`. -/
def enterprisePart (l2Id : String) : String := String.ofList (l2Id.toList.takeWhile (· ≠ '/'))

end EighthLayer.Consults
