import EighthLayer.Lib.Merkle
import EighthLayer.Reputation.Verifier

/-!
# EighthLayer.Reputation.Root

`merkle.py`, the computation of a day's root in `daily_root.py`, and
`verify_root`.

The Merkle tree is `Lib.Merkle` at the node function `_hash_pair`
(`merkleRoot_inj` transports its binding theorem to `sha256:<hex>` texts). What
`verify_root` accepts is then read off as three conditions (`verifyRoot_ok_iff`).
-/

namespace EighthLayer.Reputation

open Lib

variable {sch : SignatureScheme}

/-! ## merkle.py -/

/-- `EMPTY_DAY_ROOT`. -/
def emptyDayRoot : String :=
  "sha256:" ++ String.ofList (hex (sha256 (utf8 "8l-reputation-empty-day-v1")))

/-- `_strip_prefix`; `none` is its `ValueError`, or that of `bytes.fromhex`. -/
def stripPrefix (h : String) : Option Bytes :=
  if "sha256:".toList.isPrefixOf h.toList then fromHex (h.toList.drop 7) else none

/-- `_hash_pair`. -/
def hashPair (left right : Bytes) : Bytes := sha256 (left ++ right)

/-- `[_hash_pair(level[i], level[i + 1]) for i in range(0, len(level), 2)]`, of a
level of even length. -/
def hashPairs : List Bytes → List Bytes
  | left :: right :: rest => hashPair left right :: hashPairs rest
  | _ => []

/-- The body of the loop of `merkle_root`: duplicate the last node of an odd
level, then hash the pairs. -/
def nextLevel (level : List Bytes) : List Bytes :=
  hashPairs (if level.length % 2 = 1 then level ++ level.getLast?.toList else level)

/-- `while len(level) > 1`, with enough fuel for a level of `n` nodes. -/
def climbLevels : (n : Nat) → List Bytes → List Bytes
  | 0, level => level
  | n + 1, level => if level.length ≤ 1 then level else climbLevels n (nextLevel level)

/-- `merkle_root`; `none` where it raises. -/
def merkleRoot (leafHashes : List String) : Option String :=
  if leafHashes = [] then some emptyDayRoot
  else do
    let level ← leafHashes.mapM stripPrefix
    let top ← (climbLevels level.length level).head?
    return "sha256:" ++ String.ofList (hex top)

/-! ### The loop is the library's tree -/

theorem hashPairs_even : ∀ {level : List Bytes}, level.length % 2 = 0 →
    hashPairs level = Merkle.level hashPair level
  | [], _ => rfl
  | [_], h => by cases h
  | left :: right :: rest, h => by
      have hrest : rest.length % 2 = 0 := by
        simp only [List.length_cons] at h
        omega
      rw [hashPairs, hashPairs_even hrest]
      rfl

theorem nextLevel_eq (level : List Bytes) : nextLevel level = Merkle.level hashPair level := by
  unfold nextLevel
  split
  · next hodd =>
      rcases List.eq_nil_or_concat level with rfl | ⟨init, last, rfl⟩
      · cases hodd
      · rw [List.concat_eq_append] at hodd ⊢
        have heven : init.length % 2 = 0 := by
          simp only [List.length_append, List.length_singleton] at hodd
          omega
        have hlast : init ++ [last] ++ (init ++ [last]).getLast?.toList = init ++ [last, last] := by
          simp
        rw [hlast, hashPairs_even (by simp; omega), Merkle.level, Merkle.level,
          Merkle.pairs_duplicate_last init last heven]
  · next heven => exact hashPairs_even (by omega)

theorem climbLevels_eq : ∀ (n : Nat) (level : List Bytes),
    climbLevels n level = Merkle.climb hashPair n level
  | 0, _ => rfl
  | n + 1, level => by
      rw [climbLevels, Merkle.climb, nextLevel_eq, climbLevels_eq n]

/-- `merkle_root` of at least one leaf is the tree's root, as text. -/
theorem merkleRoot_eq {leafHashes : List String} (hne : leafHashes ≠ []) :
    merkleRoot leafHashes = (leafHashes.mapM stripPrefix).bind fun level =>
      (Merkle.root hashPair level).map fun top => "sha256:" ++ String.ofList (hex top) := by
  rw [merkleRoot, if_neg hne]
  simp only [climbLevels_eq]
  cases leafHashes.mapM stripPrefix with
  | none => rfl
  | some level =>
      simp only [Option.bind_eq_bind, Option.bind_some, Merkle.root]
      cases (Merkle.climb hashPair level.length level).head? <;> rfl

/-! ### Binding, for leaves as `record_event` writes them -/

/-- The text `compute_payload_hash` and `merkle_root` write for a digest. -/
def digestText (digest : Bytes) : String := "sha256:" ++ String.ofList (hex digest)

theorem digestText_injective {a b : Bytes} (h : digestText a = digestText b) : a = b := by
  have hchars := congrArg String.toList h
  simp only [digestText, String.toList_append, List.append_cancel_left_eq,
    String.toList_ofList] at hchars
  exact hex_injective hchars

@[simp] theorem stripPrefix_digestText (digest : Bytes) :
    stripPrefix (digestText digest) = some digest := by
  have hchars : (digestText digest).toList = "sha256:".toList ++ hex digest := by
    rw [digestText, String.toList_append, String.toList_ofList (l := hex digest)]
  have hdrop : ("sha256:".toList ++ hex digest).drop 7 = hex digest :=
    List.drop_left' (by decide)
  rw [stripPrefix, hchars, if_pos (by simp), hdrop, fromHex_hex]

theorem mapM_stripPrefix : ∀ digests : List Bytes,
    (digests.map digestText).mapM stripPrefix = some digests
  | [] => rfl
  | d :: ds => by
      rw [List.map_cons, List.mapM_cons, stripPrefix_digestText, mapM_stripPrefix ds]
      rfl

/-- `merkle_root` of at least one well-formed leaf. -/
theorem merkleRoot_digests {digests : List Bytes} (hne : digests ≠ []) :
    merkleRoot (digests.map digestText) = (Merkle.root hashPair digests).map digestText := by
  rw [merkleRoot_eq (by simpa using hne), mapM_stripPrefix]
  rfl

/-- The messages hashed to get from the leaves to the root. -/
def pairMessages (digests : List Bytes) (m : Bytes) : Prop :=
  ∃ p ∈ Merkle.hashed hashPair digests.length digests, m = p.1 ++ p.2

/-- Every node of a tree over 32-byte leaves has 32 bytes. -/
theorem hashed_length : ∀ {n : Nat} {level : List Bytes}, (∀ d ∈ level, d.length = 32) →
    ∀ p ∈ Merkle.hashed hashPair n level, p.1.length = 32 ∧ p.2.length = 32
  | 0, _, _, p, hp => absurd hp List.not_mem_nil
  | n + 1, level, hlevel, p, hp => by
      rw [Merkle.hashed] at hp
      split at hp
      · exact absurd hp List.not_mem_nil
      · rcases List.mem_append.mp hp with hp | hp
        · have hmem := Merkle.mem_of_mem_pairs hp
          exact ⟨hlevel _ hmem.1, hlevel _ hmem.2⟩
        · refine hashed_length (n := n) (fun d hd => ?_) p hp
          obtain ⟨q, -, rfl⟩ := List.mem_map.mp hd
          exact sha256_length _

/-- **Binding.** Well-formed leaf lists of one length and one root are the same. -/
theorem merkleRoot_inj {ds es : List Bytes} (hds : ∀ d ∈ ds, d.length = 32)
    (hes : ∀ d ∈ es, d.length = 32) (hlen : ds.length = es.length)
    (hfree : CollisionFreeOn sha256 fun m => pairMessages ds m ∨ pairMessages es m)
    (h : merkleRoot (ds.map digestText) = merkleRoot (es.map digestText)) : ds = es := by
  by_cases hne : ds = []
  · subst hne
    exact (List.length_eq_zero_iff.mp hlen.symm).symm
  · have hne' : es ≠ [] := fun hnil => hne (List.length_eq_zero_iff.mp (by rw [hlen, hnil]; rfl))
    rw [merkleRoot_digests hne, merkleRoot_digests hne'] at h
    have hroot : Merkle.root hashPair ds = Merkle.root hashPair es :=
      Option.map_injective (fun _ _ => digestText_injective) h
    refine Merkle.root_inj hashPair hlen ?_ hroot
    rintro ⟨a, b⟩ ⟨c, d⟩ hab hcd heq
    have hablen : a.length = 32 := by
      rcases hab with hab | hab
      · exact (hashed_length hds _ hab).1
      · exact (hashed_length hes _ hab).1
    have hcdlen : c.length = 32 := by
      rcases hcd with hcd | hcd
      · exact (hashed_length hds _ hcd).1
      · exact (hashed_length hes _ hcd).1
    have hmsg : a ++ b = c ++ d := hfree _ _
      (hab.imp (fun h => ⟨_, h, rfl⟩) fun h => ⟨_, h, rfl⟩)
      (hcd.imp (fun h => ⟨_, h, rfl⟩) fun h => ⟨_, h, rfl⟩) heq
    obtain ⟨hac, hbd⟩ := List.append_inj hmsg (by rw [hablen, hcdlen])
    rw [hac, hbd]

/-! ### Binding, for any digests -/

/-- The argument pairs of the `_hash_pair` calls of `hashPairs`. -/
def hashPairsCalls : List Bytes → List (Bytes × Bytes)
  | left :: right :: rest => (left, right) :: hashPairsCalls rest
  | _ => []

/-- The argument pairs of the `_hash_pair` calls of one turn of the loop. -/
def nextLevelCalls (level : List Bytes) : List (Bytes × Bytes) :=
  hashPairsCalls (if level.length % 2 = 1 then level ++ level.getLast?.toList else level)

/-- The argument pairs of the `_hash_pair` calls of the loop. -/
def climbLevelsCalls : (n : Nat) → List Bytes → List (Bytes × Bytes)
  | 0, _ => []
  | n + 1, level =>
    if level.length ≤ 1 then [] else nextLevelCalls level ++ climbLevelsCalls n (nextLevel level)

/-- The argument pairs of the `_hash_pair` calls of `merkle_root`, in their order. -/
def merkleRootCalls (leafHashes : List String) : List (Bytes × Bytes) :=
  match leafHashes.mapM stripPrefix with
  | none => []
  | some level => climbLevelsCalls level.length level

theorem hashPairs_calls : ∀ level : List Bytes,
    hashPairs level = (hashPairsCalls level).map fun p => hashPair p.1 p.2
  | [] => rfl
  | [_] => rfl
  | left :: right :: rest => by
      rw [hashPairs, hashPairsCalls, List.map_cons, hashPairs_calls rest]

theorem hashPairsCalls_even : ∀ {level : List Bytes}, level.length % 2 = 0 →
    hashPairsCalls level = Merkle.pairs level
  | [], _ => rfl
  | [_], h => by cases h
  | left :: right :: rest, h => by
      have hrest : rest.length % 2 = 0 := by
        simp only [List.length_cons] at h
        omega
      rw [hashPairsCalls, hashPairsCalls_even hrest]
      rfl

theorem nextLevelCalls_eq (level : List Bytes) : nextLevelCalls level = Merkle.pairs level := by
  unfold nextLevelCalls
  split
  · next hodd =>
      rcases List.eq_nil_or_concat level with rfl | ⟨init, last, rfl⟩
      · cases hodd
      · rw [List.concat_eq_append] at hodd ⊢
        have heven : init.length % 2 = 0 := by
          simp only [List.length_append, List.length_singleton] at hodd
          omega
        have hlast : init ++ [last] ++ (init ++ [last]).getLast?.toList = init ++ [last, last] := by
          simp
        rw [hlast, hashPairsCalls_even (by simp; omega), Merkle.pairs_duplicate_last init last heven]
  · next heven => exact hashPairsCalls_even (by omega)

theorem climbLevelsCalls_eq (n : Nat) (level : List Bytes) :
    climbLevelsCalls n level = Merkle.hashed hashPair n level := by
  induction n generalizing level with
  | zero => rfl
  | succ n ih => rw [climbLevelsCalls, Merkle.hashed, nextLevelCalls_eq, nextLevel_eq, ih]

theorem length_of_mapM_stripPrefix {leafHashes : List String} {digests : List Bytes}
    (h : leafHashes.mapM stripPrefix = some digests) : digests.length = leafHashes.length := by
  induction leafHashes generalizing digests with
  | nil =>
      obtain rfl := Option.some.inj h
      rfl
  | cons leaf rest ih =>
      rw [List.mapM_cons] at h
      obtain ⟨d, -, h⟩ := Option.bind_eq_some_iff.mp h
      obtain ⟨ds, hds, h⟩ := Option.bind_eq_some_iff.mp h
      obtain rfl := Option.some.inj h
      rw [List.length_cons, List.length_cons, ih hds]

/-- **Binding, without assumptions on the hash.** Leaf lists of one length and one root
hold the same digests, or two different argument pairs of `_hash_pair` in the two
computations have the same hash. -/
theorem merkleRoot_binds {leafHashes leafHashes' : List String} {digests digests' : List Bytes}
    (hleaves : leafHashes.mapM stripPrefix = some digests)
    (hleaves' : leafHashes'.mapM stripPrefix = some digests')
    (hlen : leafHashes.length = leafHashes'.length)
    (hroot : merkleRoot leafHashes = merkleRoot leafHashes') :
    digests = digests' ∨ ∃ p q : Bytes × Bytes,
      (p ∈ merkleRootCalls leafHashes ∨ p ∈ merkleRootCalls leafHashes') ∧
      (q ∈ merkleRootCalls leafHashes ∨ q ∈ merkleRootCalls leafHashes') ∧
      p ≠ q ∧ hashPair p.1 p.2 = hashPair q.1 q.2 := by
  have hcount : digests.length = digests'.length := by
    rw [length_of_mapM_stripPrefix hleaves, hlen, length_of_mapM_stripPrefix hleaves']
  by_cases hnil : leafHashes = []
  · subst hnil
    obtain rfl : leafHashes' = [] := List.length_eq_zero_iff.mp hlen.symm
    rw [hleaves] at hleaves'
    exact .inl (Option.some.inj hleaves')
  · have hnil' : leafHashes' ≠ [] := by
      intro h
      rw [h] at hlen
      exact hnil (List.length_eq_zero_iff.mp hlen)
    rw [merkleRoot_eq hnil, merkleRoot_eq hnil', hleaves, hleaves'] at hroot
    have htop : Merkle.root hashPair digests = Merkle.root hashPair digests' :=
      Option.map_injective (fun _ _ => digestText_injective) hroot
    simp only [merkleRootCalls, hleaves, hleaves', climbLevelsCalls_eq]
    exact Merkle.root_inj_or_collision hashPair hcount htop

/-- Two lists of three 32-byte digests, spelled in texts of one root. -/
theorem merkleRoot_binds_three :
    [List.replicate 32 1, List.replicate 32 2, List.replicate 32 3] =
        [List.replicate 32 1, List.replicate 32 2, List.replicate 32 (3 : UInt8)] ∨
      ∃ p q : Bytes × Bytes,
        (p ∈ merkleRootCalls ([List.replicate 32 1, List.replicate 32 2,
            List.replicate 32 3].map digestText) ∨
          p ∈ merkleRootCalls ([List.replicate 32 1, List.replicate 32 2,
            List.replicate 32 3].map digestText)) ∧
        (q ∈ merkleRootCalls ([List.replicate 32 1, List.replicate 32 2,
            List.replicate 32 3].map digestText) ∨
          q ∈ merkleRootCalls ([List.replicate 32 1, List.replicate 32 2,
            List.replicate 32 3].map digestText)) ∧
        p ≠ q ∧ hashPair p.1 p.2 = hashPair q.1 q.2 :=
  merkleRoot_binds (mapM_stripPrefix _) (mapM_stripPrefix _) rfl rfl

/-! ## daily_root.py -/

/-- `_read_day_events`. -/
def readDayEvents (t : Tables) (ent day : String) : List EventRow :=
  readingOrder ((t.eventsOf ent).filter fun e =>
    Stamp.dayStart day ≤ e.ts ∧ e.ts ≤ Stamp.dayEnd day)

/-- `_existing_root`. -/
def existingRoot (t : Tables) (ent day : String) : Option RootRow :=
  t.roots.find? fun r => r.enterpriseId = ent ∧ r.rootDate = day

/-- `INSERT INTO reputation_roots`; `none` when the Enterprise has a root of that day. -/
def Tables.insertRoot (t : Tables) (r : RootRow) : Option Tables :=
  if h : (r.enterpriseId, r.rootDate) ∈ t.roots.map fun r => (r.enterpriseId, r.rootDate) then none
  else some { t with
    roots := t.roots ++ [r]
    roots_pk := by
      rw [List.map_append, List.map_singleton]
      exact List.nodup_append.mpr ⟨t.roots_pk, List.nodup_singleton _, fun a ha b hb => by
        rw [List.mem_singleton.mp hb]
        rintro rfl
        exact h ha⟩ }

/-- `UPDATE reputation_chain_meta SET last_root_published_day = ...`. -/
def Tables.bumpPublishedDay (t : Tables) (ent day computedAt : String) : Tables :=
  { t with
    chainMeta := t.chainMeta.map fun m =>
      if m.enterpriseId = ent ∧ (∀ last ∈ m.lastRootPublishedDay, last < day) then
        { m with lastRootPublishedDay := some day, updatedAt := computedAt }
      else m
    chainMeta_pk := by
      have hkeys : (t.chainMeta.map fun m =>
          if m.enterpriseId = ent ∧ (∀ last ∈ m.lastRootPublishedDay, last < day) then
            { m with lastRootPublishedDay := some day, updatedAt := computedAt }
          else m).map ChainMeta.enterpriseId = t.chainMeta.map ChainMeta.enterpriseId := by
        rw [List.map_map]
        refine List.map_congr_left fun m _ => ?_
        simp only [Function.comp]
        split <;> rfl
      rw [hkeys]
      exact t.chainMeta_pk }

/-- A root as `verify_root` reads it: values of any type, `None` where the key is
missing. -/
structure RootDict where
  enterpriseId : Json
  rootDate : Json
  eventCount : Json
  merkleRootHash : Json
  firstEventId : Json
  lastEventId : Json
  signatureB64u : PyVal
  signingKeyId : PyVal

/-- The members a root's signature covers. -/
def RootDict.members (root : RootDict) : List (String × Json) :=
  [("enterprise_id", root.enterpriseId), ("root_date", root.rootDate),
    ("event_count", root.eventCount), ("merkle_root_hash", root.merkleRootHash),
    ("first_event_id", root.firstEventId), ("last_event_id", root.lastEventId)]

/-- The bytes a root's signature covers. -/
def RootDict.canonicalBytes (root : RootDict) : Bytes := canonicalPayloadBytes (.obj root.members)

/-- A root row as a dict. -/
def RootRow.toDict (r : RootRow) : RootDict where
  enterpriseId := .str r.enterpriseId
  rootDate := .str r.rootDate
  eventCount := .ofNat r.eventCount
  merkleRootHash := .str r.merkleRootHash
  firstEventId := .ofOption r.firstEventId
  lastEventId := .ofOption r.lastEventId
  signatureB64u := .ofOption r.signatureB64u
  signingKeyId := .ofOption r.signingKeyId

/-- The row `compute_root_for_day` inserts. -/
def newRoot (p : Process sch) (computedAt : Stamp) (ent day : String) (events : List EventRow)
    (rootHash : String) : RootRow :=
  let unsigned : RootRow :=
    { enterpriseId := ent, rootDate := day, eventCount := events.length, merkleRootHash := rootHash
      firstEventId := events.head?.map EventRow.eventId
      lastEventId := events.getLast?.map EventRow.eventId
      signatureB64u := none, signingKeyId := none
      computedAt := computedAt.iso, publishedToDirectoryAt := none }
  let signature := signCanonicalBytes p unsigned.toDict.canonicalBytes
  { unsigned with signatureB64u := signature.1, signingKeyId := signature.2 }

/-- Where a computation may raise. -/
inductive RootStage where
  | insert
  | update
deriving DecidableEq

/-- What a computation takes from its surroundings. -/
structure RootDraw where
  computedAt : Stamp
  fails : RootStage → Bool

/-- `compute_root_for_day`: the tables it leaves and the row it returns, `none`
where it raises. -/
def computeRootForDay (p : Process sch) (draw : RootDraw) (t : Tables) (ent day : String) :
    Tables × Option RootRow :=
  match existingRoot t ent day with
  | some r => (t, some r)
  | none =>
    let events := readDayEvents t ent day
    match merkleRoot (events.map EventRow.payloadHash) with
    | none => (t, none)
    | some rootHash =>
      let row := newRoot p draw.computedAt ent day events rootHash
      if draw.fails .insert then (t, none)
      else match t.insertRoot row with
        | none => (t, none)
        | some t₁ =>
          if draw.fails .update then (t₁, none)
          else (t₁.bumpPublishedDay ent day row.computedAt, some row)

/-! ## verify_root -/

/-- `v == s`, of a string `s`. -/
def isStr (v : Json) (s : String) : Bool :=
  match v with
  | .str s' => s = s'
  | _ => false

theorem isStr_iff {v : Json} {s : String} : isStr v s = true ↔ v = .str s := by
  cases v <;> simp [isStr, eq_comm]

/-- The result of `verify_root`. -/
structure RootReport where
  ok : Bool
  rootMatchesEvents : Bool
  signatureValid : Option Bool
  expectedRoot : String
  actualRoot : Json
  count : Nat

/-- The signature check of `verify_root`: `some none` when there is no signature
to check, `none` where it raises. -/
def rootSignatureValid (sch : SignatureScheme) (root : RootDict) : Option (Option Bool) :=
  if root.signatureB64u.truthy && root.signingKeyId.truthy then do
    let kid ← root.signingKeyId.asStr
    let sig ← root.signatureB64u.asStr
    return some (verifyRaw sch kid root.canonicalBytes sig)
  else some none

/-- `verify_root`; `none` where it raises. -/
def verifyRoot (sch : SignatureScheme) (root : RootDict) (events : List EventDict) :
    Option RootReport := do
  let leafHashes := events.filterMap fun ev => ev.payloadHash.asStr
  let recomputed ← merkleRoot leafHashes
  let rootMatches := isStr root.merkleRootHash recomputed
  let sigValid ← rootSignatureValid sch root
  return ⟨rootMatches && sigValid ≠ some false, rootMatches, sigValid, recomputed,
    root.merkleRootHash, events.length⟩

/-- `verify_root` reports success exactly when the re-derived root is the one
named and no signature present is invalid. -/
theorem verifyRoot_ok_iff {root : RootDict} {events : List EventDict} :
    (verifyRoot sch root events).map RootReport.ok = some true ↔
      ∃ recomputed, merkleRoot (events.filterMap fun ev => ev.payloadHash.asStr) =
          some recomputed ∧ root.merkleRootHash = .str recomputed ∧
        (rootSignatureValid sch root = some none ∨ rootSignatureValid sch root = some (some true)) := by
  unfold verifyRoot
  cases hr : merkleRoot (events.filterMap fun ev => ev.payloadHash.asStr) with
  | none => simp [hr]
  | some recomputed =>
      cases hs : rootSignatureValid sch root with
      | none => simp [hr]
      | some valid => rcases valid with _ | _ | _ <;> simp [hr, isStr_iff]

end EighthLayer.Reputation
