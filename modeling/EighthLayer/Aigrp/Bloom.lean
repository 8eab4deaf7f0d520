import EighthLayer.Aigrp.Endpoint
import EighthLayer.Aigrp.Peers
import EighthLayer.Lib.Bloom

/-!
# EighthLayer.Aigrp.Bloom

The filter of domains that an L2 puts in its signature, and the peers that a query is forwarded to:
those whose filter has one of its domains.

A filter is built on one server and asked on another, with base64 between them. An empty domain is
neither added nor asked for.
-/

namespace EighthLayer.Aigrp

open Lib Knowledge

/-! ## The filter -/

/-- `BLOOM_BITS`. -/
def bloomBits : Nat := 8192

/-- `BLOOM_HASHES`. -/
def bloomHashCount : Nat := 5

/-- `int.from_bytes(bs, "little")`. -/
def littleEndian (bs : Bytes) : Nat := bs.foldr (fun b n => b.toNat + 256 * n) 0

/-- `_bloom_hashes`. -/
def bloomHashes (domain : String) : List Nat :=
  (List.range bloomHashCount).map fun i =>
    littleEndian (((sha256 (utf8 domain)).drop (i * 4)).take 4) % bloomBits

theorem lt_of_mem_bloomHashes {domain : String} {i : Nat} (h : i ∈ bloomHashes domain) :
    i < bloomBits := by
  obtain ⟨k, -, rfl⟩ := List.mem_map.mp h
  exact Nat.mod_lt _ (by decide)

/-- A poll stores the filter of the signature that it reads. -/
theorem absorbSignature_domainBloom {env : Environ} {t : PeerTable} {now : String}
    {polled : PeerRow} {sig : SignatureAnswer} (hself : polled.l2Id ≠ selfL2Id env)
    (hendpoint : polled.endpointUrl ≠ "") :
    ((absorbSignature env t now polled sig).get sig.l2Id).map PeerRow.domainBloom =
      some sig.domainBloom := by
  rw [absorbSignature, if_neg (not_or.mpr ⟨hself, hendpoint⟩), PeerTable.get_upsert]
  have hwrites : (sig.write polled now).l2Id = sig.l2Id := rfl
  rw [if_pos hwrites, Option.map_some, PeerWrite.apply_domainBloom rfl]
  rfl

section Select

variable [Casing]

/-- `d.strip().lower()`. -/
def normalizeDomain (d : String) : String := Casing.lower (strip d)

/-- `compute_domain_bloom`. -/
def computeDomainBloom (domains : List String) : Bytes :=
  bloomOf bloomHashes (bloomBits / 8) ((domains.filter (· ≠ "")).map normalizeDomain)

/-- `bloom_contains`. -/
def bloomContains (bloom : Bytes) (domain : String) : Bool :=
  if bloom = [] ∨ domain = "" then false
  else if bloom.length * 8 < bloomBits then false
  else bloomHas bloomHashes bloom (normalizeDomain domain)

/-- `bloom_matches_any`. -/
def bloomMatchesAny (bloom : Bytes) (domains : List String) : Bool :=
  domains.any (bloomContains bloom)

/-- `domain_bloom_b64` of a signature over these domains. -/
def domainBloomB64 (domains : List String) : String :=
  String.ofList (b64StdEncode (computeDomainBloom domains))

/-- The filter that a poll stores, of a signature with this `domain_bloom_b64`; `none` is a
`binascii.Error`. -/
def decodeBloom : Option String → Option (Option Bytes)
  | none => some none
  | some text => if text = "" then some none else (b64StdDecode text.toList).map some

theorem length_computeDomainBloom (domains : List String) :
    (computeDomainBloom domains).length = bloomBits / 8 := length_bloomOf _ _

theorem computeDomainBloom_ne_nil (domains : List String) : computeDomainBloom domains ≠ [] :=
  List.ne_nil_of_length_pos (by rw [length_computeDomainBloom]; decide)

/-- A domain that is added is found under each text that is normalized alike. -/
theorem bloomContains_computeDomainBloom {domains : List String} {d q : String}
    (hd : d ∈ domains) (hd' : d ≠ "") (hq : q ≠ "")
    (hsame : normalizeDomain q = normalizeDomain d) :
    bloomContains (computeDomainBloom domains) q = true := by
  have hadded : normalizeDomain q ∈ (domains.filter (· ≠ "")).map normalizeDomain := by
    rw [hsame]
    exact List.mem_map_of_mem (List.mem_filter.mpr ⟨hd, decide_eq_true hd'⟩)
  have hfull : ¬ (computeDomainBloom domains).length * 8 < bloomBits := by
    rw [length_computeDomainBloom]
    decide
  rw [bloomContains, if_neg (not_or.mpr ⟨computeDomainBloom_ne_nil domains, hq⟩), if_neg hfull]
  refine bloomHas_bloomOf hadded fun i hi => ?_
  have hlt := lt_of_mem_bloomHashes hi
  unfold bloomBits at hlt ⊢
  omega

/-- The filter is stored as it was built. -/
theorem decodeBloom_domainBloomB64 (domains : List String) :
    decodeBloom (some (domainBloomB64 domains)) = some (some (computeDomainBloom domains)) := by
  have hread : b64StdDecode (domainBloomB64 domains).toList = some (computeDomainBloom domains) := by
    rw [domainBloomB64, String.toList_ofList, b64StdDecode_b64StdEncode]
  have hne : domainBloomB64 domains ≠ "" := by
    intro hempty
    rw [hempty] at hread
    exact computeDomainBloom_ne_nil domains (Option.some.inj hread).symm
  rw [decodeBloom, if_neg hne, hread, Option.map_some]

/-! ## The peers of a query -/

variable [Digits]

/-- Whether a peer is worth a query of these domains; `none` is a `ValueError` of the guard. -/
def keepsPeer (selfId : String) (domains : List String) (peer : PeerRow) : Option Bool :=
  if peer.l2Id = selfId ∨ peer.endpointUrl = "" then some false
  else (endpointIsSafe peer.endpointUrl).map fun safe =>
    match safe, peer.domainBloom with
    | false, _ => false
    | true, none => true
    | true, some bloom => domains = [] || bloom = [] || bloomMatchesAny bloom domains

/-- The loop of `select_peers_for_query`, over the domains of the query that are not empty. -/
def selectPeers (selfId : String) (domains : List String) : List PeerRow → Option (List PeerRow)
  | [] => some []
  | peer :: rest =>
    match keepsPeer selfId domains peer with
    | none => none
    | some keep => (selectPeers selfId domains rest).map fun selected =>
        if keep = true then peer :: selected else selected

/-- `select_peers_for_query`. -/
def selectPeersForQuery (selfId : String) (peers : List PeerRow) (queryDomains : List String) :
    Option (List PeerRow) :=
  selectPeers selfId (queryDomains.filter (· ≠ "")) peers

theorem mem_selectPeers {selfId : String} {domains : List String} {peers selected : List PeerRow}
    (h : selectPeers selfId domains peers = some selected) {p : PeerRow} :
    p ∈ selected ↔ p ∈ peers ∧ keepsPeer selfId domains p = some true := by
  induction peers generalizing selected with
  | nil =>
      cases h
      simp
  | cons peer rest ih =>
      unfold selectPeers at h
      split at h
      · cases h
      · rename_i keep hkeep
        obtain ⟨selected', hrest, rfl⟩ := Option.map_eq_some_iff.mp h
        have hmem := ih hrest
        cases keep with
        | true =>
            rw [if_pos rfl, List.mem_cons, List.mem_cons, hmem]
            constructor
            · rintro (rfl | ⟨hp, hkept⟩)
              · exact ⟨.inl rfl, hkeep⟩
              · exact ⟨.inr hp, hkept⟩
            · rintro ⟨rfl | hp, hkept⟩
              · exact .inl rfl
              · exact .inr ⟨hp, hkept⟩
        | false =>
            rw [if_neg Bool.false_ne_true, List.mem_cons, hmem]
            constructor
            · rintro ⟨hp, hkept⟩
              exact ⟨.inr hp, hkept⟩
            · rintro ⟨rfl | hp, hkept⟩
              · rw [hkeep] at hkept
                cases hkept
              · exact ⟨hp, hkept⟩

/-! ## No false negatives -/

/-- A signature of domains and a query have one in common, apart from the empty text, which is
neither added nor asked for; or the query has none but that. -/
def SharesDomain (domains queryDomains : List String) : Prop :=
  (∀ q ∈ queryDomains, q = "") ∨
    ∃ q ∈ queryDomains, q ≠ "" ∧ ∃ d ∈ domains, d ≠ "" ∧ normalizeDomain q = normalizeDomain d

/-- **No false negatives.** A peer with a safe endpoint, whose filter is stored from a signature of
its domains, is kept for every query that shares one of them. -/
theorem peer_kept {selfId : String} {peers selected : List PeerRow}
    {domains queryDomains : List String}
    (hselect : selectPeersForQuery selfId peers queryDomains = some selected) {p : PeerRow}
    (hp : p ∈ peers) (hself : p.l2Id ≠ selfId) (hendpoint : p.endpointUrl ≠ "")
    (hsafe : endpointIsSafe p.endpointUrl = some true)
    (hbloom : decodeBloom (some (domainBloomB64 domains)) = some p.domainBloom)
    (hshares : SharesDomain domains queryDomains) : p ∈ selected := by
  refine (mem_selectPeers hselect).mpr ⟨hp, ?_⟩
  have hstored : p.domainBloom = some (computeDomainBloom domains) := by
    rw [decodeBloom_domainBloomB64] at hbloom
    exact (Option.some.inj hbloom).symm
  rw [keepsPeer, if_neg (not_or.mpr ⟨hself, hendpoint⟩), hsafe, Option.map_some, hstored]
  refine congrArg some ?_
  show (decide (queryDomains.filter (· ≠ "") = []) || decide (computeDomainBloom domains = []) ||
    bloomMatchesAny (computeDomainBloom domains) (queryDomains.filter (· ≠ ""))) = true
  rcases hshares with hnone | ⟨q, hq, hq', d, hd, hd', hsame⟩
  · have hfilter : queryDomains.filter (· ≠ "") = [] :=
      List.filter_eq_nil_iff.mpr fun q hq => by simp [hnone q hq]
    rw [hfilter]
    rfl
  · have hmatches : bloomMatchesAny (computeDomainBloom domains) (queryDomains.filter (· ≠ "")) =
        true :=
      List.any_eq_true.mpr ⟨q, List.mem_filter.mpr ⟨hq, decide_eq_true hq'⟩,
        bloomContains_computeDomainBloom hd hd' hq' hsame⟩
    rw [hmatches, Bool.or_true]

end Select

/-! ### Empty domains -/

section Sample

local instance bloomDigits : Digits := asciiDigits
local instance bloomCasing : Casing := asciiCasing

/-- A peer, and the filter of its domains as a poll has stored it. -/
def samplePeer (domains : List String) : PeerRow where
  l2Id := "acme/sales"
  enterprise := "acme"
  group := "sales"
  endpointUrl := "https://sales.acme.example"
  embeddingCentroid := none
  domainBloom := some (computeDomainBloom domains)
  kuCount := 1
  domainCount := 1
  embeddingModel := none
  firstSeenAt := ""
  lastSeenAt := ""
  lastSignatureAt := none
  publicKeyEd25519 := none

/-- A query in capitals is forwarded to the peer that has the domain. -/
theorem peer_kept_sample : ∃ selected,
    selectPeersForQuery "acme/engineering" [samplePeer ["web", " api"]] ["API"] = some selected ∧
      samplePeer ["web", " api"] ∈ selected := by
  have hselect : selectPeersForQuery "acme/engineering" [samplePeer ["web", " api"]] ["API"] =
      some [samplePeer ["web", " api"]] := by decide +kernel
  have hshares : SharesDomain ["web", " api"] ["API"] :=
    .inr ⟨"API", by simp, by decide, " api", by simp, by decide, by decide +kernel⟩
  exact ⟨_, hselect, peer_kept hselect List.mem_cons_self (by decide) (by decide)
    (by decide +kernel) (decodeBloom_domainBloomB64 _) hshares⟩

/-- A blank domain is normalized to the empty text, which is not added. -/
theorem blank_domain_dropped :
    normalizeDomain " " = normalizeDomain "" ∧
      endpointIsSafe (samplePeer [""]).endpointUrl = some true ∧
      decodeBloom (some (domainBloomB64 [""])) = some (samplePeer [""]).domainBloom ∧
      selectPeersForQuery "acme/engineering" [samplePeer [""]] [" "] = some [] := by
  refine ⟨by decide +kernel, by decide +kernel, decodeBloom_domainBloomB64 _, by decide +kernel⟩

end Sample

end EighthLayer.Aigrp
