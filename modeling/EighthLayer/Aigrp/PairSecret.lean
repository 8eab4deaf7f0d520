import EighthLayer.Crypto
import EighthLayer.Environ
import Mathlib.Data.Set.Insert

/-!
# EighthLayer.Aigrp.PairSecret

`aigrp/pair_secret.py` and the bearer tokens of `aigrp/runtime.py`: two L2s of an
Enterprise derive one secret from the Enterprise root and the pair of their ids,
whichever of them derives it.
-/

namespace EighthLayer.Aigrp

open Lib

/-! ## Identity of this L2 -/

/-- `aigrp.enterprise`. -/
def enterprise (env : Environ) : String := env.get "CQ_ENTERPRISE" "default-enterprise"

/-- `aigrp.group`. -/
def group (env : Environ) : String := env.get "CQ_GROUP" "default"

/-- `aigrp.self_l2_id`. -/
def selfL2Id (env : Environ) : String := enterprise env ++ "/" ++ group env

/-! ## Pair secrets -/

/-- `lex_min_canonical` as text; `none` is its `ValueError`. -/
def canonicalPairId (a b : String) : Option String :=
  if a = "" ∨ b = "" ∨ a = b then none
  else
    let lo := if b < a then b else a
    let hi := if b < a then a else b
    some ("aigrp-pair:" ++ lo ++ ":" ++ hi)

theorem canonicalPairId_ne_empty {a b pair : String} (h : canonicalPairId a b = some pair) :
    a ≠ "" ∧ b ≠ "" := by
  unfold canonicalPairId at h
  split at h
  · cases h
  · next hcond => exact ⟨fun ha => hcond (.inl ha), fun hb => hcond (.inr (.inl hb))⟩

/-- A pair has one id, in whichever order its members are named. -/
theorem canonicalPairId_comm (a b : String) : canonicalPairId a b = canonicalPairId b a := by
  unfold canonicalPairId
  by_cases hcond : a = "" ∨ b = "" ∨ a = b
  · have hcond' : b = "" ∨ a = "" ∨ b = a := by tauto
    rw [if_pos hcond, if_pos hcond']
  · have hcond' : ¬ (b = "" ∨ a = "" ∨ b = a) := by tauto
    have hne : a ≠ b := fun h => hcond (.inr (.inr h))
    rw [if_neg hcond, if_neg hcond']
    rcases lt_or_gt_of_ne hne with hlt | hlt
    · rw [if_neg hlt.not_gt, if_neg hlt.not_gt, if_pos hlt, if_pos hlt]
    · rw [if_pos hlt, if_pos hlt, if_neg hlt.not_gt, if_neg hlt.not_gt]

/-- `derive_pair_secret`; `none` is its `ValueError`. -/
def derivePairSecret (enterpriseRoot : Bytes) (a b : String) : Option Bytes :=
  if enterpriseRoot.length ≠ 32 then none
  else (canonicalPairId a b).map fun info =>
    hkdfSha256 (sha256 (utf8 "aigrp-pair-v1")) enterpriseRoot (utf8 info)

/-- Both sides of a pair derive the same secret. -/
theorem derivePairSecret_comm (root : Bytes) (a b : String) :
    derivePairSecret root a b = derivePairSecret root b a := by
  unfold derivePairSecret
  rw [canonicalPairId_comm]

/-! ### What a pair id says about the pair

The two ids are joined by a colon, which may stand in an id as well: the joined text
identifies the pair except where it can be split at another colon. -/

/-- The ids that `lex_min_canonical` takes. -/
structure ValidPair (a b : String) : Prop where
  left : a ≠ ""
  right : b ≠ ""
  distinct : a ≠ b

theorem canonicalPairId_of_valid {a b : String} (h : ValidPair a b) :
    canonicalPairId a b = some ("aigrp-pair:" ++ min a b ++ ":" ++ max a b) := by
  unfold canonicalPairId
  rw [if_neg (by simp [h.left, h.right, h.distinct])]
  by_cases hlt : b < a
  · simp only [if_pos hlt, min_eq_right hlt.le, max_eq_left hlt.le]
  · simp only [if_neg hlt, min_eq_left (not_lt.mp hlt), max_eq_right (not_lt.mp hlt)]

theorem validPair_of_canonicalPairId {a b id : String} (h : canonicalPairId a b = some id) :
    ValidPair a b := by
  refine ⟨(canonicalPairId_ne_empty h).1, (canonicalPairId_ne_empty h).2, ?_⟩
  intro heq
  subst heq
  simp [canonicalPairId] at h

/-- `lo:hi` and `lo':hi'` are one text, of which the second split takes a later colon. -/
def SplitsLater (lo hi lo' hi' : String) : Prop :=
  ∃ y, hi = y ++ ":" ++ hi' ∧ lo' = lo ++ ":" ++ y

/-- Two pairs whose ids, the smaller first, join to one text split at two colons. -/
def Ambiguous (a b c d : String) : Prop :=
  ValidPair a b ∧ ValidPair c d ∧
    (SplitsLater (min a b) (max a b) (min c d) (max c d) ∨
      SplitsLater (min c d) (max c d) (min a b) (max a b))

/-- One text, split at a colon in two ways: the later split takes in the earlier one's
colon. -/
theorem splitsLater_of_chars {lo hi lo' hi' : String} {z : List Char} (hne : z ≠ [])
    (hlo : lo'.toList = lo.toList ++ z) (hhi : ':' :: hi.toList = z ++ ':' :: hi'.toList) :
    SplitsLater lo hi lo' hi' := by
  obtain ⟨c, y, rfl⟩ := List.exists_cons_of_ne_nil hne
  rw [List.cons_append, List.cons.injEq] at hhi
  obtain ⟨rfl, hhi⟩ := hhi
  refine ⟨String.ofList y, String.toList_injective ?_, String.toList_injective ?_⟩
  · simpa using hhi
  · simpa using hlo

/-- Two splits of one text at a colon are the same or split it at two colons. -/
theorem joined_eq_iff {lo hi lo' hi' : String} :
    lo ++ ":" ++ hi = lo' ++ ":" ++ hi' ↔
      lo = lo' ∧ hi = hi' ∨ SplitsLater lo hi lo' hi' ∨ SplitsLater lo' hi' lo hi := by
  constructor
  · intro h
    have hchars : lo.toList ++ ':' :: hi.toList = lo'.toList ++ ':' :: hi'.toList := by
      simpa using congrArg String.toList h
    rcases List.append_eq_append_iff.mp hchars with ⟨z, hlo, hhi⟩ | ⟨z, hlo, hhi⟩
    · by_cases hz : z = []
      · subst hz
        rw [List.append_nil] at hlo
        rw [List.nil_append, List.cons.injEq] at hhi
        exact .inl ⟨(String.toList_injective hlo).symm, String.toList_injective hhi.2⟩
      · exact .inr (.inl (splitsLater_of_chars hz hlo hhi))
    · by_cases hz : z = []
      · subst hz
        rw [List.append_nil] at hlo
        rw [List.nil_append, List.cons.injEq] at hhi
        exact .inl ⟨String.toList_injective hlo, (String.toList_injective hhi.2).symm⟩
      · exact .inr (.inr (splitsLater_of_chars hz hlo hhi))
  · intro h
    rcases h with ⟨rfl, rfl⟩ | ⟨y, rfl, rfl⟩ | ⟨y, rfl, rfl⟩
    · rfl
    · simp only [String.append_assoc]
    · simp only [String.append_assoc]

/-- Of two splits at different colons, one's smaller id is longer than the other's. -/
theorem SplitsLater.ne {lo hi lo' hi' : String} (h : SplitsLater lo hi lo' hi') : lo ≠ lo' := by
  obtain ⟨y, -, rfl⟩ := h
  intro heq
  have hlen := congrArg String.length heq
  simp only [String.length_append] at hlen
  have hcolon : ":".length = 1 := rfl
  omega

/-- Two valid pairs are the same pair exactly when their smaller ids and their larger
ids are. -/
theorem pair_eq_iff {a b c d : String} :
    ({a, b} : Set String) = {c, d} ↔ min a b = min c d ∧ max a b = max c d := by
  rw [Set.pair_eq_pair_iff]
  constructor
  · intro h
    rcases h with ⟨rfl, rfl⟩ | ⟨rfl, rfl⟩
    · exact ⟨rfl, rfl⟩
    · exact ⟨min_comm a b, max_comm a b⟩
  · intro h
    rcases le_total a b with hab | hab
    · rcases le_total c d with hcd | hcd
      · simp only [min_eq_left, max_eq_right, hab, hcd] at h
        exact .inl h
      · simp only [min_eq_left, max_eq_right, min_eq_right, max_eq_left, hab, hcd] at h
        exact .inr h
    · rcases le_total c d with hcd | hcd
      · simp only [min_eq_left, max_eq_right, min_eq_right, max_eq_left, hab, hcd] at h
        exact .inr ⟨h.2, h.1⟩
      · simp only [min_eq_right, max_eq_left, hab, hcd] at h
        exact .inl ⟨h.2, h.1⟩

/-- Valid pairs have one id exactly when they are the same pair or ambiguous. -/
theorem canonicalPairId_eq_iff {a b c d : String} (hab : ValidPair a b) (hcd : ValidPair c d) :
    canonicalPairId a b = canonicalPairId c d ↔
      ({a, b} : Set String) = {c, d} ∨ Ambiguous a b c d := by
  rw [canonicalPairId_of_valid hab, canonicalPairId_of_valid hcd, Option.some.injEq, pair_eq_iff]
  have hstarts : "aigrp-pair:" ++ min a b ++ ":" ++ max a b =
      "aigrp-pair:" ++ min c d ++ ":" ++ max c d ↔
      min a b ++ ":" ++ max a b = min c d ++ ":" ++ max c d := by
    simp only [String.append_assoc, String.append_right_inj]
  rw [hstarts, joined_eq_iff]
  unfold Ambiguous
  simp only [hab, hcd, true_and]

/-- Ambiguous pairs are different pairs. -/
theorem Ambiguous.pair_ne {a b c d : String} (h : Ambiguous a b c d) :
    ({a, b} : Set String) ≠ {c, d} := by
  intro hpair
  obtain ⟨-, -, hlater | hlater⟩ := h
  · exact hlater.ne (pair_eq_iff.mp hpair).1
  · exact hlater.ne (pair_eq_iff.mp hpair).1.symm

/-- Ids without a colon are never ambiguous. -/
theorem not_ambiguous_of_no_colon {a b c d : String} (ha : ':' ∉ a.toList) (hb : ':' ∉ b.toList)
    (hc : ':' ∉ c.toList) (hd : ':' ∉ d.toList) : ¬ Ambiguous a b c d := by
  have hsplit : ∀ {lo hi lo' hi' : String}, ':' ∉ hi.toList → ¬ SplitsLater lo hi lo' hi' := by
    intro lo hi lo' hi' hhi h
    obtain ⟨y, rfl, -⟩ := h
    exact hhi (by simp)
  intro h
  obtain ⟨-, -, hlater | hlater⟩ := h
  · refine hsplit ?_ hlater
    rcases max_choice a b with hmax | hmax <;> rw [hmax] <;> assumption
  · refine hsplit ?_ hlater
    rcases max_choice c d with hmax | hmax <;> rw [hmax] <;> assumption

/-- **Pair ids identify pairs, but for the ambiguous ones.** The id of a pair does not
depend on the order of its members; two pairs of one id are one pair exactly when they
are not ambiguous, and the same goes for the secrets derived from the ids. -/
theorem canonicalPairId_pairing (a b c d : String) :
    canonicalPairId a b = canonicalPairId b a ∧
    ((∀ id, canonicalPairId a b = some id → canonicalPairId c d = some id →
        ({a, b} : Set String) = {c, d}) ↔ ¬ Ambiguous a b c d) ∧
    ∀ root : Bytes, root.length = 32 →
      CollisionFreeOn (hkdfSha256 (sha256 (utf8 "aigrp-pair-v1")) root)
        (fun info => ∃ id, info = utf8 id ∧
          (canonicalPairId a b = some id ∨ canonicalPairId c d = some id)) →
      ((∀ secret, derivePairSecret root a b = some secret →
          derivePairSecret root c d = some secret → ({a, b} : Set String) = {c, d}) ↔
        ¬ Ambiguous a b c d) := by
  have hids : (∀ id, canonicalPairId a b = some id → canonicalPairId c d = some id →
      ({a, b} : Set String) = {c, d}) ↔ ¬ Ambiguous a b c d := by
    constructor
    · intro h hamb
      have heq := (canonicalPairId_eq_iff hamb.1 hamb.2.1).mpr (.inr hamb)
      have hab := canonicalPairId_of_valid hamb.1
      exact hamb.pair_ne (h _ hab (heq ▸ hab))
    · intro hamb id hab hcd
      have hiff := canonicalPairId_eq_iff (validPair_of_canonicalPairId hab)
        (validPair_of_canonicalPairId hcd)
      exact (hiff.mp (hab.trans hcd.symm)).resolve_right hamb
  refine ⟨canonicalPairId_comm a b, hids, fun root hroot hfree => ?_⟩
  rw [← hids]
  constructor
  · intro h id hab hcd
    refine h (hkdfSha256 (sha256 (utf8 "aigrp-pair-v1")) root (utf8 id)) ?_ ?_
    · rw [derivePairSecret, if_neg (by omega), hab, Option.map_some]
    · rw [derivePairSecret, if_neg (by omega), hcd, Option.map_some]
  · intro h secret hab hcd
    rw [derivePairSecret, if_neg (by omega)] at hab hcd
    obtain ⟨id, hid, rfl⟩ := Option.map_eq_some_iff.mp hab
    obtain ⟨id', hid', hsecret⟩ := Option.map_eq_some_iff.mp hcd
    have hinfo := hfree _ _ ⟨id', rfl, .inr hid'⟩ ⟨id, rfl, .inl hid⟩ hsecret
    rw [utf8_injective hinfo] at hid'
    exact h id hid hid'

/-- The pair of two L2s, named in either order. -/
theorem canonicalPairId_pairing_swapped :
    (∀ secret, derivePairSecret (List.replicate 32 0) "acme/eng" "acme/sol" = some secret →
      derivePairSecret (List.replicate 32 0) "acme/sol" "acme/eng" = some secret →
      ({"acme/eng", "acme/sol"} : Set String) = {"acme/sol", "acme/eng"}) ↔
    ¬ Ambiguous "acme/eng" "acme/sol" "acme/sol" "acme/eng" := by
  refine (canonicalPairId_pairing _ _ _ _).2.2 _ rfl ?_
  rintro _ _ ⟨id, rfl, hid⟩ ⟨id', rfl, hid'⟩ -
  rw [canonicalPairId_comm "acme/sol" "acme/eng", or_self] at hid hid'
  rw [Option.some.inj (hid.symm.trans hid')]

/-- Two different pairs of L2s with one id, and so with one secret whatever the root. -/
theorem canonicalPairId_collides :
    canonicalPairId "acme/a:acme/b" "acme/c" = canonicalPairId "acme/a" "acme/b:acme/c" ∧
    (canonicalPairId "acme/a" "acme/b:acme/c").isSome ∧
    (∀ root : Bytes, derivePairSecret root "acme/a:acme/b" "acme/c" =
      derivePairSecret root "acme/a" "acme/b:acme/c") ∧
    ({"acme/a:acme/b", "acme/c"} : Set String) ≠ {"acme/a", "acme/b:acme/c"} := by
  have hid : canonicalPairId "acme/a:acme/b" "acme/c" =
      canonicalPairId "acme/a" "acme/b:acme/c" := by decide
  refine ⟨hid, by decide, fun root => ?_, ?_⟩
  · rw [derivePairSecret, derivePairSecret, hid]
  · rw [Ne, Set.pair_eq_pair_iff]
    decide

/-! ## Bearer tokens -/

/-- `_pair_secret_for_peer`, where `root` is the Enterprise root this process reads or
has cached; `none` when it raises. -/
def pairSecretForPeer (env : Environ) (root : Option Bytes) (peer : String) : Option Bytes :=
  if peer = selfL2Id env then none
  else root.bind fun r => derivePairSecret r (selfL2Id env) peer

/-- `_bearer_for_secret`. -/
def bearerForSecret (secret : Bytes) : String := b64u (hmacSha256 secret (utf8 "aigrp-bearer-v1"))

/-- `derive_bearer_token`; `none` when it raises. -/
def deriveBearerToken (env : Environ) (root : Option Bytes) (peer : String) : Option String :=
  if peer = "" then none else (pairSecretForPeer env root peer).map bearerForSecret

/-- `verify_bearer_against_peer`; `none` is the `TypeError` of `hmac.compare_digest`
on text outside ASCII. -/
def verifyBearerAgainstPeer (env : Environ) (root : Option Bytes) (peer presented : String) :
    Option Bool :=
  if presented = "" ∨ peer = "" then some false
  else match pairSecretForPeer env root peer with
    | none => some false
    | some secret =>
      if presented.toList.all fun c => c.toNat < 128 then
        some (bearerForSecret secret = presented)
      else none

theorem bearerForSecret_ne_empty (secret : Bytes) : bearerForSecret secret ≠ "" := by
  refine b64u_ne_empty fun h => ?_
  have hlen : (hmacSha256 secret (utf8 "aigrp-bearer-v1")).length = 32 := sha256_length _
  rw [h] at hlen
  cases hlen

/-- **Pairing.** The token one L2 derives for another is the one the other expects of it. -/
theorem verifyBearer_deriveBearer {env env' : Environ} {root : Option Bytes} {token : String}
    (htoken : deriveBearerToken env root (selfL2Id env') = some token) :
    verifyBearerAgainstPeer env' root (selfL2Id env) token = some true := by
  unfold deriveBearerToken pairSecretForPeer at htoken
  split at htoken
  · cases htoken
  · split at htoken
    · cases htoken
    · next hself =>
        obtain ⟨secret, hsecret, rfl⟩ := Option.map_eq_some_iff.mp htoken
        obtain ⟨r, rfl, hr⟩ := Option.bind_eq_some_iff.mp hsecret
        obtain ⟨pair, hpair⟩ : ∃ pair, canonicalPairId (selfL2Id env) (selfL2Id env') = some pair := by
          unfold derivePairSecret at hr
          split at hr
          · cases hr
          · obtain ⟨pair, hpair, -⟩ := Option.map_eq_some_iff.mp hr
            exact ⟨pair, hpair⟩
        have hsecret' : pairSecretForPeer env' (some r) (selfL2Id env) = some secret := by
          unfold pairSecretForPeer
          rw [if_neg (Ne.symm hself), Option.bind_some, derivePairSecret_comm, hr]
        have hne := not_or.mpr
          ⟨bearerForSecret_ne_empty secret, (canonicalPairId_ne_empty hpair).1⟩
        unfold verifyBearerAgainstPeer
        rw [if_neg hne, hsecret']
        have hascii : (bearerForSecret secret).toList.all (fun c => c.toNat < 128) = true :=
          b64u_ascii _
        simp only [hascii, if_true, decide_true]

end EighthLayer.Aigrp
