import EighthLayer.Lib.Ranking
import Mathlib.Algebra.GroupWithZero.Nat
import Mathlib.Data.List.Induction
import Mathlib.Data.List.Perm.Subperm

/-!
# EighthLayer.Aigrp.Lookup

`/aigrp/lookup`: how the hits of this L2 and those of its siblings are merged into one list.

Of the copies of a unit the first of the highest similarity is kept, whoever sent it, and only
then are the hits filtered. A copy from a sibling has no author, and may have no confidence: it
can take the place of a local copy that would have been left out, or of one that would have
passed (`lookup_merge`).

Similarities and confidences are compared and otherwise left alone; they are elements of any linear
order with a zero.
-/

namespace EighthLayer.Aigrp

open Lib

variable {κ : Type}

/-! ## Hits -/

/-- A unit that the local scan has found, as far as the merge reads it. -/
structure LocalUnit (κ : Type) where
  id : String
  summary : String
  action : String
  domains : List String
  confidence : κ
  createdBy : String
deriving DecidableEq

/-- An entry of a peer's `results`, as it is read: fields may be missing. -/
structure RemoteResult (κ : Type) where
  kuId : Option String
  summary : Option String
  detail : Option String
  action : Option String
  domains : Option (List String)
  simScore : Option κ
  confidence : Option κ
  createdBy : Option String
deriving DecidableEq

/-- What a peer answers. -/
structure PeerResponse (κ : Type) where
  policyApplied : Option String
  results : List (RemoteResult κ)

/-- `RemoteHit`. -/
structure RemoteHit (κ : Type) where
  kuId : String
  summary : String
  detail : Option String
  action : Option String
  domains : List String
  similarity : κ
  confidence : κ
  createdBy : String
  policyApplied : String
deriving DecidableEq

/-- `AigrpLookupHit`. -/
structure LookupHit (κ : Type) where
  kuId : String
  summary : String
  action : String
  domains : List String
  similarity : κ
  confidence : κ
  createdBy : String
deriving DecidableEq

/-- The loop of `forward_query_peer` over the results: those without an id are skipped. -/
def remoteHits [Zero κ] (response : PeerResponse κ) : List (RemoteHit κ) :=
  response.results.filterMap fun raw => raw.kuId.map fun kuId =>
    { kuId
      summary := raw.summary.getD ""
      detail := raw.detail
      action := raw.action
      domains := raw.domains.getD []
      similarity := raw.simScore.getD 0
      confidence := raw.confidence.getD 0
      createdBy := raw.createdBy.getD ""
      policyApplied := response.policyApplied.getD "" }

/-- `fan_out_forward_query`: a peer that fails contributes nothing. -/
def fanOut [Zero κ] (answers : List (Option (PeerResponse κ))) : List (RemoteHit κ) :=
  answers.flatMap fun answer => (answer.map remoteHits).getD []

/-- A local hit as a candidate. -/
def LookupHit.ofLocal (unit : LocalUnit κ) (similarity : κ) : LookupHit κ where
  kuId := unit.id
  summary := unit.summary
  action := unit.action
  domains := unit.domains
  similarity
  confidence := unit.confidence
  createdBy := unit.createdBy

/-- A remote hit as a candidate. -/
def LookupHit.ofRemote (hit : RemoteHit κ) : LookupHit κ where
  kuId := hit.kuId
  summary := hit.summary
  action := hit.action.getD ""
  domains := hit.domains
  similarity := hit.similarity
  confidence := hit.confidence
  createdBy := hit.createdBy

/-- The candidates, the local ones first. -/
def lookupCandidates [Zero κ] (rawHits : List (LocalUnit κ × κ))
    (answers : List (Option (PeerResponse κ))) : List (LookupHit κ) :=
  rawHits.map (fun h => .ofLocal h.1 h.2) ++ (fanOut answers).map .ofRemote

/-! ## The merge -/

/-- `AigrpLookupRequest`, as far as the merge reads it. -/
structure LookupRequest (κ : Type) where
  persona : String
  maxResults : Nat
  minConfidence : κ
  minSimilarity : κ
  excludeSelf : Bool
  maxResults_pos : 0 < maxResults

variable [LinearOrder κ]

/-- `by_id`: a dictionary keeps its keys in the order in which they came. A copy takes the place of
another if it is more similar. -/
def keepCopy (byId : List (LookupHit κ)) (cand : LookupHit κ) : List (LookupHit κ) :=
  match byId.find? fun h => h.kuId = cand.kuId with
  | none => byId ++ [cand]
  | some existing =>
    if existing.similarity < cand.similarity then
      byId.map fun h => if h.kuId = cand.kuId then cand else h
    else byId

/-- The copies that are kept. -/
def dedupeHits (candidates : List (LookupHit κ)) : List (LookupHit κ) :=
  candidates.foldl keepCopy []

/-- The three checks of the filter. -/
def LookupRequest.drops (q : LookupRequest κ) (cand : LookupHit κ) : Bool :=
  cand.similarity < q.minSimilarity || cand.confidence < q.minConfidence ||
    (q.excludeSelf && q.persona ≠ "" && cand.createdBy = q.persona)

/-- The loop of the filter: what it has taken, and how many it has dropped. It ends once it has
taken `max_results`. -/
def filterHits (q : LookupRequest κ) :
    List (LookupHit κ) → List (LookupHit κ) → Nat → List (LookupHit κ) × Nat
  | [], filtered, dropped => (filtered, dropped)
  | cand :: rest, filtered, dropped =>
    if q.drops cand then filterHits q rest filtered (dropped + 1)
    else if q.maxResults ≤ (filtered ++ [cand]).length then (filtered ++ [cand], dropped)
    else filterHits q rest (filtered ++ [cand]) dropped

/-- The `results` and the `filtered_count` of `aigrp_lookup`, from the local hits and the peers'
answers. -/
def aigrpLookup [Zero κ] (q : LookupRequest κ) (rawHits : List (LocalUnit κ × κ))
    (answers : List (Option (PeerResponse κ))) : List (LookupHit κ) × Nat :=
  filterHits q (sortDesc LookupHit.similarity (dedupeHits (lookupCandidates rawHits answers))) [] 0

/-! ## The copies that are kept -/

/-- A copy that is kept: the first of the highest similarity among the copies of its unit. -/
def IsKept (cands : List (LookupHit κ)) (h : LookupHit κ) : Prop :=
  (∀ c ∈ cands, c.kuId = h.kuId → c.similarity ≤ h.similarity) ∧
    cands.find? (fun c => c.kuId = h.kuId ∧ c.similarity = h.similarity) = some h

/-- Where the first copy of a unit stands. -/
def firstIdx (cands : List (LookupHit κ)) (kuId : String) : Nat :=
  cands.findIdx fun c => c.kuId = kuId

section Kept

variable {cands : List (LookupHit κ)} {h h' c : LookupHit κ}

theorem IsKept.mem (hkept : IsKept cands h) : h ∈ cands := List.mem_of_find?_eq_some hkept.2

/-- One copy of a unit is kept. -/
theorem IsKept.eq (hkept : IsKept cands h) (hkept' : IsKept cands h') (hid : h.kuId = h'.kuId) :
    h = h' := by
  have hle := hkept'.1 h hkept.mem hid
  have hge := hkept.1 h' hkept'.mem hid.symm
  have hfind := hkept.2
  rw [hid, le_antisymm hle hge] at hfind
  exact Option.some.inj (hfind.symm.trans hkept'.2)

/-- A copy that is no better than the one that is kept of its unit changes nothing. -/
theorem IsKept.append (hkept : IsKept cands h) (hle : c.kuId = h.kuId → c.similarity ≤ h.similarity) :
    IsKept (cands ++ [c]) h := by
  refine ⟨fun c' hc' hid => ?_, ?_⟩
  · rcases List.mem_append.mp hc' with hc' | hc'
    · exact hkept.1 c' hc' hid
    · cases List.mem_singleton.mp hc'
      exact hle hid
  · rw [List.find?_append, hkept.2]
    rfl

/-- A copy that is better than all of its unit is kept. -/
theorem isKept_append_self (hlt : ∀ c' ∈ cands, c'.kuId = c.kuId → c'.similarity < c.similarity) :
    IsKept (cands ++ [c]) c := by
  refine ⟨fun c' hc' hid => ?_, ?_⟩
  · rcases List.mem_append.mp hc' with hc' | hc'
    · exact (hlt c' hc' hid).le
    · cases List.mem_singleton.mp hc'
      exact le_rfl
  · have hnone : cands.find? (fun c' => c'.kuId = c.kuId ∧ c'.similarity = c.similarity) = none := by
      refine List.find?_eq_none.mpr fun c' hc' hboth => ?_
      obtain ⟨hid, hsim⟩ := of_decide_eq_true hboth
      exact absurd hsim (hlt c' hc' hid).ne
    rw [List.find?_append, hnone]
    simp

omit [LinearOrder κ] in
theorem firstIdx_append_of_mem (hc : c ∈ cands) (cands' : List (LookupHit κ)) :
    firstIdx (cands ++ cands') c.kuId = firstIdx cands c.kuId := by
  have hlt : cands.findIdx (fun c' => c'.kuId = c.kuId) < cands.length :=
    List.findIdx_lt_length_of_exists ⟨c, hc, by simp⟩
  unfold firstIdx
  rw [List.findIdx_append, if_pos hlt]

omit [LinearOrder κ] in
theorem firstIdx_lt_length (hc : c ∈ cands) : firstIdx cands c.kuId < cands.length :=
  List.findIdx_lt_length_of_exists ⟨c, hc, by simp⟩

theorem dedupeHits_append (cands : List (LookupHit κ)) (c : LookupHit κ) :
    dedupeHits (cands ++ [c]) = keepCopy (dedupeHits cands) c := by
  unfold dedupeHits
  rw [List.foldl_append, List.foldl_cons, List.foldl_nil]

/-- What the dictionary holds: of each unit the copy that is kept, in the order of the units' first
copies. -/
structure Deduped (cands byId : List (LookupHit κ)) : Prop where
  order : byId.Pairwise fun a b => firstIdx cands a.kuId < firstIdx cands b.kuId
  kept : ∀ h ∈ byId, IsKept cands h
  all : ∀ c ∈ cands, ∃ h ∈ byId, h.kuId = c.kuId

/-- **Step lemma**: one more candidate. -/
theorem Deduped.keepCopy {byId : List (LookupHit κ)} (hd : Deduped cands byId) (c : LookupHit κ) :
    Deduped (cands ++ [c]) (keepCopy byId c) := by
  have hidx : ∀ h ∈ byId, firstIdx (cands ++ [c]) h.kuId = firstIdx cands h.kuId := fun h hh =>
    firstIdx_append_of_mem (hd.kept h hh).mem [c]
  have horder : byId.Pairwise fun a b =>
      firstIdx (cands ++ [c]) a.kuId < firstIdx (cands ++ [c]) b.kuId := by
    refine hd.order.imp_of_mem fun {a b} ha hb hlt => ?_
    rw [hidx a ha, hidx b hb]
    exact hlt
  unfold Aigrp.keepCopy
  split
  · rename_i hnone
    have hother : ∀ h ∈ byId, h.kuId ≠ c.kuId := fun h hh heq =>
      List.find?_eq_none.mp hnone h hh (decide_eq_true heq)
    have hnew : ∀ c' ∈ cands, c'.kuId ≠ c.kuId := by
      intro c' hc' heq
      obtain ⟨h, hh, hid⟩ := hd.all c' hc'
      exact hother h hh (hid.trans heq)
    refine ⟨List.pairwise_append.mpr ⟨horder, List.pairwise_singleton _ _, ?_⟩, ?_, ?_⟩
    · intro a ha b hb
      cases List.mem_singleton.mp hb
      have hfirst : firstIdx (cands ++ [c]) c.kuId = cands.length := by
        have hnot : cands.findIdx (fun c' => c'.kuId = c.kuId) = cands.length :=
          List.findIdx_eq_length.mpr fun c' hc' => by simpa using hnew c' hc'
        unfold firstIdx
        rw [List.findIdx_append, hnot, if_neg (lt_irrefl _), List.findIdx_cons]
        simp
      rw [hfirst, hidx a ha]
      exact firstIdx_lt_length (hd.kept a ha).mem
    · intro h hh
      rcases List.mem_append.mp hh with hh | hh
      · exact (hd.kept h hh).append fun heq => absurd heq.symm (hother h hh)
      · cases List.mem_singleton.mp hh
        exact isKept_append_self fun c' hc' heq => absurd heq (hnew c' hc')
    · intro c' hc'
      rcases List.mem_append.mp hc' with hc' | hc'
      · obtain ⟨h, hh, hid⟩ := hd.all c' hc'
        exact ⟨h, List.mem_append_left _ hh, hid⟩
      · cases List.mem_singleton.mp hc'
        exact ⟨c, List.mem_append_right _ (List.mem_singleton_self _), rfl⟩
  · rename_i existing hfound
    have hmem := List.mem_of_find?_eq_some hfound
    have hfits := List.find?_some hfound
    have hid : existing.kuId = c.kuId := of_decide_eq_true hfits
    have hkept := hd.kept existing hmem
    have hall : ∀ c' ∈ cands ++ [c], ∃ h ∈ byId, h.kuId = c'.kuId := by
      intro c' hc'
      rcases List.mem_append.mp hc' with hc' | hc'
      · exact hd.all c' hc'
      · cases List.mem_singleton.mp hc'
        exact ⟨existing, hmem, hid⟩
    split
    · -- the new copy takes the place of the old one
      rename_i hlt
      have hsame : ∀ h : LookupHit κ, (if h.kuId = c.kuId then c else h).kuId = h.kuId := by
        intro h
        split
        · rename_i heq
          exact heq.symm
        · rfl
      refine ⟨?_, ?_, ?_⟩
      · rw [List.pairwise_map]
        simp only [hsame]
        exact horder
      · intro h' hh'
        obtain ⟨h, hh, rfl⟩ := List.mem_map.mp hh'
        split
        · refine isKept_append_self fun c' hc' heq => ?_
          exact (hkept.1 c' hc' (heq.trans hid.symm)).trans_lt hlt
        · rename_i hne
          exact (hd.kept h hh).append fun heq => absurd heq.symm hne
      · intro c' hc'
        obtain ⟨h, hh, heq⟩ := hall c' hc'
        exact ⟨_, List.mem_map_of_mem hh, (hsame h).trans heq⟩
    · rename_i hnot
      refine ⟨horder, fun h hh => ?_, hall⟩
      refine (hd.kept h hh).append fun heq => ?_
      cases (hd.kept h hh).eq hkept (heq.symm.trans hid.symm)
      exact not_lt.mp hnot

theorem deduped_dedupeHits (cands : List (LookupHit κ)) : Deduped cands (dedupeHits cands) := by
  induction cands using List.reverseRecOn with
  | nil => exact ⟨List.Pairwise.nil, fun h hh => absurd hh List.not_mem_nil, fun c hc => absurd hc
      List.not_mem_nil⟩
  | append_singleton cands c ih =>
      rw [dedupeHits_append]
      exact ih.keepCopy c

theorem mem_dedupeHits : h ∈ dedupeHits cands ↔ IsKept cands h := by
  constructor
  · exact (deduped_dedupeHits cands).kept h
  · intro hkept
    obtain ⟨h', hh', hid⟩ := (deduped_dedupeHits cands).all h hkept.mem
    rw [← ((deduped_dedupeHits cands).kept h' hh').eq hkept hid]
    exact hh'

end Kept

/-! ## The order of the hits -/

/-- A copy comes before another: it is more similar, or as similar and of a unit that came
first. -/
def Before (cands : List (LookupHit κ)) (a b : LookupHit κ) : Prop :=
  b.similarity < a.similarity ∨
    (a.similarity = b.similarity ∧ firstIdx cands a.kuId < firstIdx cands b.kuId)

/-- The place of a copy. -/
def place (cands : List (LookupHit κ)) (h : LookupHit κ) : κᵒᵈ ×ₗ Nat :=
  toLex (OrderDual.toDual h.similarity, firstIdx cands h.kuId)

section Order

variable {cands : List (LookupHit κ)} {q : LookupRequest κ} {h c : LookupHit κ}

theorem place_lt {a b : LookupHit κ} : place cands a < place cands b ↔ Before cands a b := by
  unfold place Before
  rw [Prod.Lex.toLex_lt_toLex, OrderDual.toDual_lt_toDual, OrderDual.toDual_inj]

/-- The copies that are kept and pass, in the order of the answer. -/
def rankedHits (q : LookupRequest κ) (cands : List (LookupHit κ)) : List (LookupHit κ) :=
  (sortDesc LookupHit.similarity (dedupeHits cands)).filter fun h => !q.drops h

theorem mem_rankedHits : h ∈ rankedHits q cands ↔ IsKept cands h ∧ q.drops h = false := by
  unfold rankedHits
  rw [List.mem_filter, mem_sortDesc, mem_dedupeHits, Bool.not_eq_true']

theorem rankedHits_pairwise :
    (rankedHits q cands).Pairwise fun a b => place cands a < place cands b := by
  have hsorted : (sortDesc LookupHit.similarity (dedupeHits cands)).Pairwise fun a b =>
      b.similarity ≤ a.similarity ∧ (a.similarity = b.similarity →
        firstIdx cands a.kuId < firstIdx cands b.kuId) :=
    pairwise_sortDesc (deduped_dedupeHits cands).order
  refine (hsorted.imp fun {a b} hab => ?_).filter _
  rw [place_lt]
  rcases hab.1.lt_or_eq with hlt | heq
  · exact .inl hlt
  · exact .inr ⟨heq.symm, hab.2 heq.symm⟩

/-- The loop of the filter takes the first that pass. -/
theorem filterHits_fst (q : LookupRequest κ) : ∀ (l filtered : List (LookupHit κ)) (dropped : Nat),
    filtered.length < q.maxResults → (filterHits q l filtered dropped).1 =
      filtered ++ (l.filter fun h => !q.drops h).take (q.maxResults - filtered.length)
  | [], filtered, dropped, _ => by simp [filterHits]
  | cand :: rest, filtered, dropped, hlen => by
      rw [filterHits]
      by_cases hdrop : q.drops cand = true
      · rw [if_pos hdrop, List.filter_cons_of_neg (by simp [hdrop])]
        exact filterHits_fst q rest filtered (dropped + 1) hlen
      · have hstep : q.maxResults - filtered.length =
            (q.maxResults - (filtered.length + 1)) + 1 := by omega
        rw [if_neg hdrop, List.filter_cons_of_pos (by simpa using hdrop), hstep,
          List.take_succ_cons, List.length_append, List.length_singleton]
        split
        · rename_i hfull
          rw [Nat.sub_eq_zero_of_le hfull, List.take_zero]
        · rename_i hmore
          rw [filterHits_fst q rest _ _ (by simp; omega), List.append_assoc, List.length_append,
            List.length_singleton]
          rfl

theorem aigrpLookup_fst [Zero κ] (q : LookupRequest κ) (rawHits : List (LocalUnit κ × κ))
    (answers : List (Option (PeerResponse κ))) :
    (aigrpLookup q rawHits answers).1 =
      (rankedHits q (lookupCandidates rawHits answers)).take q.maxResults :=
  filterHits_fst q _ [] 0 q.maxResults_pos

/-- There are so many. -/
def AtLeast (n : Nat) (P : LookupHit κ → Prop) : Prop :=
  ∃ hs : List (LookupHit κ), hs.Nodup ∧ hs.length = n ∧ ∀ h ∈ hs, P h

theorem rankedHits_nodup : (rankedHits q cands).Nodup :=
  rankedHits_pairwise.imp fun hlt heq => absurd (heq ▸ hlt) (lt_irrefl _)

/-- So many of the hits are such that they fill a part of the list. -/
theorem atLeast_iff_countP {n : Nat} {P : LookupHit κ → Prop} [DecidablePred P] :
    AtLeast n (fun h => (IsKept cands h ∧ q.drops h = false) ∧ P h) ↔
      n ≤ (rankedHits q cands).countP P := by
  rw [List.countP_eq_length_filter]
  constructor
  · rintro ⟨hs, hnodup, rfl, hall⟩
    refine (List.subperm_of_subset hnodup fun h hh => ?_).length_le
    exact List.mem_filter.mpr ⟨mem_rankedHits.mpr (hall h hh).1, decide_eq_true (hall h hh).2⟩
  · intro hle
    refine ⟨((rankedHits q cands).filter P).take n, ?_, List.length_take_of_le hle, fun h hh => ?_⟩
    · exact (rankedHits_nodup.filter _).sublist (List.take_sublist n _)
    · obtain ⟨hmem, hP⟩ := List.mem_filter.mp (List.mem_of_mem_take hh)
      exact ⟨mem_rankedHits.mp hmem, of_decide_eq_true hP⟩

/-- A copy that is kept and passes is in the answer unless there are so many before it. -/
theorem mem_take_rankedHits (hh : h ∈ rankedHits q cands) :
    h ∈ (rankedHits q cands).take q.maxResults ↔
      ¬ AtLeast q.maxResults fun h' => (IsKept cands h' ∧ q.drops h' = false) ∧
        Before cands h' h := by
  have hbefore : (fun h' => (IsKept cands h' ∧ q.drops h' = false) ∧ Before cands h' h) =
      fun h' => (IsKept cands h' ∧ q.drops h' = false) ∧ place cands h' < place cands h := by
    simp only [place_lt]
  rw [mem_take_iff_countP_lt rankedHits_pairwise hh, hbefore, atLeast_iff_countP, not_le]

end Order

/-! ## What is answered -/

/-- What holds of every answer: each unit once, the most similar first, above both thresholds, no
more than were asked for, and the best of the copies that are kept and pass. -/
structure Merged (q : LookupRequest κ) (cands hits : List (LookupHit κ)) : Prop where
  once : (hits.map LookupHit.kuId).Nodup
  order : hits.Pairwise fun a b => b.similarity ≤ a.similarity
  thresholds : ∀ h ∈ hits, h ∈ cands ∧ q.minSimilarity ≤ h.similarity ∧
    q.minConfidence ≤ h.confidence
  limit : hits.length ≤ q.maxResults
  best : ∀ h, IsKept cands h → q.drops h = false →
    h ∈ hits ∨ (hits.length = q.maxResults ∧ ∀ r ∈ hits, h.similarity ≤ r.similarity)

/-- A candidate that should be answered: it is above both thresholds, and no copy of its unit is
by the persona that asks not to see its own. -/
def Wanted (q : LookupRequest κ) (cands : List (LookupHit κ)) (c : LookupHit κ) : Prop :=
  q.minSimilarity ≤ c.similarity ∧ q.minConfidence ≤ c.confidence ∧
    (q.excludeSelf = true → q.persona ≠ "" →
      ∀ c' ∈ cands, c'.kuId = c.kuId → c'.createdBy ≠ q.persona)

/-- The answer has the best of all candidates: the unit of one that should be answered is there,
or there are so many that are as similar. -/
def BestOfAll (q : LookupRequest κ) (cands hits : List (LookupHit κ)) : Prop :=
  ∀ c ∈ cands, Wanted q cands c → c.kuId ∈ hits.map LookupHit.kuId ∨
    (hits.length = q.maxResults ∧ ∀ r ∈ hits, c.similarity ≤ r.similarity)

/-- The answer has no unit whose local copy is by the persona that asks not to see its own. -/
def SparesOwn (q : LookupRequest κ) (rawHits : List (LocalUnit κ × κ))
    (hits : List (LookupHit κ)) : Prop :=
  q.excludeSelf = true → q.persona ≠ "" → ∀ u ∈ rawHits, u.1.createdBy = q.persona →
    u.1.id ∉ hits.map LookupHit.kuId

section Answer

variable {cands : List (LookupHit κ)} {q : LookupRequest κ} {h c : LookupHit κ}

theorem drops_eq_false : q.drops h = false ↔
    q.minSimilarity ≤ h.similarity ∧ q.minConfidence ≤ h.confidence ∧
      (q.excludeSelf = true → q.persona ≠ "" → h.createdBy ≠ q.persona) := by
  unfold LookupRequest.drops
  simp only [Bool.or_eq_false_iff, decide_eq_false_iff_not, not_lt, Bool.and_eq_false_imp,
    decide_eq_true_eq, Bool.and_eq_true, and_assoc, ne_eq, and_imp]

theorem merged_take (q : LookupRequest κ) (cands : List (LookupHit κ)) :
    Merged q cands ((rankedHits q cands).take q.maxResults) where
  once := by
    refine List.Nodup.map_on (fun a ha b hb hid => ?_)
      (rankedHits_nodup.sublist (List.take_sublist _ _))
    have hkept := (mem_rankedHits.mp (List.mem_of_mem_take ha)).1
    exact hkept.eq (mem_rankedHits.mp (List.mem_of_mem_take hb)).1 hid
  order := by
    refine (rankedHits_pairwise.sublist (List.take_sublist _ _)).imp fun hlt => ?_
    rcases place_lt.mp hlt with hlt | ⟨heq, -⟩
    · exact hlt.le
    · exact heq.ge
  thresholds := by
    intro h hh
    obtain ⟨hkept, hpasses⟩ := mem_rankedHits.mp (List.mem_of_mem_take hh)
    obtain ⟨hsim, hconf, -⟩ := drops_eq_false.mp hpasses
    exact ⟨hkept.mem, hsim, hconf⟩
  limit := List.length_take_le _ _
  best := by
    intro h hkept hpasses
    have hmem := mem_rankedHits.mpr ⟨hkept, hpasses⟩
    rw [← List.take_append_drop q.maxResults (rankedHits q cands)] at hmem
    rcases List.mem_append.mp hmem with htake | hdrop
    · exact .inl htake
    · -- those that are taken come before it
      have hsplit : (rankedHits q cands).Pairwise fun a b => place cands a < place cands b :=
        rankedHits_pairwise
      rw [← List.take_append_drop q.maxResults (rankedHits q cands)] at hsplit
      have hlt := (List.pairwise_append.mp hsplit).2.2
      have hlength := List.length_pos_of_mem hdrop
      rw [List.length_drop] at hlength
      refine .inr ⟨List.length_take_of_le (by omega), fun r hr => ?_⟩
      rcases place_lt.mp (hlt r hr h hdrop) with hlt | ⟨heq, -⟩
      · exact hlt.le
      · exact heq.ge

/-- The answer has the best of all candidates if and only if, for each that should be answered, the
copy of its unit that is kept is above the threshold of confidence, or there are so many that
pass and are as similar. -/
theorem bestOfAll_iff :
    BestOfAll q cands ((rankedHits q cands).take q.maxResults) ↔
      ∀ c ∈ cands, Wanted q cands c →
        (∃ k, IsKept cands k ∧ k.kuId = c.kuId ∧ q.minConfidence ≤ k.confidence) ∨
          AtLeast q.maxResults fun h => (IsKept cands h ∧ q.drops h = false) ∧
            c.similarity ≤ h.similarity := by
  have hmerged := merged_take q cands
  refine forall₂_congr fun c hc => imp_congr_right fun hwanted => ⟨fun h => ?_, fun h => ?_⟩
  · rcases h with hid | ⟨hfull, hall⟩
    · obtain ⟨r, hr, hid⟩ := List.mem_map.mp hid
      exact .inl ⟨r, (mem_rankedHits.mp (List.mem_of_mem_take hr)).1, hid,
        (hmerged.thresholds r hr).2.2⟩
    · exact .inr ⟨_, rankedHits_nodup.sublist (List.take_sublist _ _), hfull, fun r hr =>
        ⟨mem_rankedHits.mp (List.mem_of_mem_take hr), hall r hr⟩⟩
  · rcases h with ⟨k, hkept, hid, hconf⟩ | hmany
    · have hle := hkept.1 c hc hid.symm
      have hpasses : q.drops k = false :=
        drops_eq_false.mpr ⟨hwanted.1.trans hle, hconf, fun hself hpersona =>
          hwanted.2.2 hself hpersona k hkept.mem hid⟩
      rcases hmerged.best k hkept hpasses with hmem | ⟨hfull, hall⟩
      · exact .inl (hid ▸ List.mem_map_of_mem hmem)
      · exact .inr ⟨hfull, fun r hr => hle.trans (hall r hr)⟩
    · have hcount := atLeast_iff_countP.mp hmany
      refine .inr ⟨List.length_take_of_le (hcount.trans List.countP_le_length), fun r hr => ?_⟩
      by_contra hless
      have hrank := List.mem_of_mem_take hr
      have hfew := (mem_take_iff_countP_lt rankedHits_pairwise hrank).mp hr
      refine absurd (hcount.trans (List.countP_mono_left fun h _ hle => ?_)) (not_le.mpr hfew)
      have hsim := of_decide_eq_true hle
      exact decide_eq_true (place_lt.mpr (.inl ((not_le.mp hless).trans_le hsim)))

/-- The answer spares the persona its own if and only if, of each unit of its own, the copy that is
kept does not pass or has so many before it that do. -/
theorem sparesOwn_iff {rawHits : List (LocalUnit κ × κ)} :
    SparesOwn q rawHits ((rankedHits q cands).take q.maxResults) ↔
      (q.excludeSelf = true → q.persona ≠ "" → ∀ u ∈ rawHits, u.1.createdBy = q.persona →
        ∀ k, IsKept cands k → k.kuId = u.1.id → q.drops k = true ∨
          AtLeast q.maxResults fun h => (IsKept cands h ∧ q.drops h = false) ∧
            Before cands h k) := by
  refine imp_congr_right fun _ => imp_congr_right fun _ => forall₂_congr fun u hu =>
    imp_congr_right fun _ => ⟨fun h k hkept hid => ?_, fun h hid => ?_⟩
  · by_cases hdrops : q.drops k = true
    · exact .inl hdrops
    · refine .inr (not_not.mp fun hfew => h ?_)
      have hmem := mem_rankedHits.mpr ⟨hkept, Bool.eq_false_of_not_eq_true hdrops⟩
      exact hid ▸ List.mem_map_of_mem ((mem_take_rankedHits hmem).mpr hfew)
  · obtain ⟨k, hk, hid⟩ := List.mem_map.mp hid
    have hrank := List.mem_of_mem_take hk
    obtain ⟨hkept, hpasses⟩ := mem_rankedHits.mp hrank
    rcases h k hkept hid with hdrops | hmany
    · rw [hpasses] at hdrops
      cases hdrops
    · exact (mem_take_rankedHits hrank).mp hk hmany

end Answer

/-- **The merge.** For every request, all local hits and all answers of the peers: the answer has
each unit once, the most similar first, above the thresholds, and the best of the copies that are
kept. It has the best of all candidates if and only if, for each that should be answered, the copy
of its unit that is kept has enough confidence or so many pass that are as similar; and it spares
the persona its own if and only if, of each unit of its own, the copy that is kept does not pass or
has so many before it that do. -/
theorem lookup_merge [Zero κ] (q : LookupRequest κ) (rawHits : List (LocalUnit κ × κ))
    (answers : List (Option (PeerResponse κ))) :
    Merged q (lookupCandidates rawHits answers) (aigrpLookup q rawHits answers).1 ∧
    (BestOfAll q (lookupCandidates rawHits answers) (aigrpLookup q rawHits answers).1 ↔
      ∀ c ∈ lookupCandidates rawHits answers, Wanted q (lookupCandidates rawHits answers) c →
        (∃ k, IsKept (lookupCandidates rawHits answers) k ∧ k.kuId = c.kuId ∧
          q.minConfidence ≤ k.confidence) ∨
        AtLeast q.maxResults fun h =>
          (IsKept (lookupCandidates rawHits answers) h ∧ q.drops h = false) ∧
            c.similarity ≤ h.similarity) ∧
    (SparesOwn q rawHits (aigrpLookup q rawHits answers).1 ↔
      (q.excludeSelf = true → q.persona ≠ "" → ∀ u ∈ rawHits, u.1.createdBy = q.persona →
        ∀ k, IsKept (lookupCandidates rawHits answers) k → k.kuId = u.1.id →
          q.drops k = true ∨ AtLeast q.maxResults fun h =>
            (IsKept (lookupCandidates rawHits answers) h ∧ q.drops h = false) ∧
              Before (lookupCandidates rawHits answers) h k)) := by
  rw [aigrpLookup_fst]
  exact ⟨merged_take _ _, bestOfAll_iff, sparesOwn_iff⟩

/-! ### A copy of one's own

Alice asks not to see her own units. A sibling has a copy of one of them, and sends no author. -/

def aliceAsks : LookupRequest Nat where
  persona := "alice"
  maxResults := 5
  minConfidence := 50
  minSimilarity := 30
  excludeSelf := true
  maxResults_pos := by decide

/-- Alice's unit, as this L2 has it and as a sibling sends it. -/
def aliceUnit : LocalUnit Nat := ⟨"ku_1", "s", "a", ["d"], 90, "alice"⟩

def siblingAnswer : PeerResponse Nat :=
  ⟨some "summary_only", [⟨some "ku_1", some "s", none, none, some ["d"], some 81, some 90, none⟩]⟩

theorem own_unit_answered :
    ¬ SparesOwn aliceAsks [(aliceUnit, 80)]
      (aigrpLookup aliceAsks [(aliceUnit, 80)] [some siblingAnswer]).1 := by
  intro h
  refine h rfl (by decide) _ (.head _) rfl ?_
  rw [aigrpLookup_fst]
  have hkept : dedupeHits (lookupCandidates [(aliceUnit, 80)] [some siblingAnswer]) =
      [⟨"ku_1", "s", "", ["d"], 81, 90, ""⟩] := by decide +kernel
  rw [rankedHits, hkept, sortDesc_singleton]
  decide +kernel

/-- A sibling that sends no confidence hides Bob's unit, which this L2 would have answered. -/
theorem unscored_copy_hides :
    ¬ BestOfAll aliceAsks (lookupCandidates [(⟨"ku_2", "s", "a", ["d"], 90, "bob"⟩, 80)]
        [some ⟨none, [⟨some "ku_2", some "s", none, none, none, some 81, none, none⟩]⟩])
      (aigrpLookup aliceAsks [(⟨"ku_2", "s", "a", ["d"], 90, "bob"⟩, 80)]
        [some ⟨none, [⟨some "ku_2", some "s", none, none, none, some 81, none, none⟩]⟩]).1 := by
  intro h
  have hkept : dedupeHits (lookupCandidates [(⟨"ku_2", "s", "a", ["d"], 90, "bob"⟩, 80)]
      [some ⟨none, [⟨some "ku_2", some "s", none, none, none, some 81, none, none⟩]⟩]) =
      [(⟨"ku_2", "s", "", [], 81, 0, ""⟩ : LookupHit Nat)] := by decide +kernel
  have hnone : (aigrpLookup aliceAsks [(⟨"ku_2", "s", "a", ["d"], 90, "bob"⟩, 80)]
      [some ⟨none, [⟨some "ku_2", some "s", none, none, none, some 81, none, none⟩]⟩]).1 = [] := by
    rw [aigrpLookup_fst, rankedHits, hkept, sortDesc_singleton]
    decide +kernel
  have hauthors : ∀ c ∈ lookupCandidates [(⟨"ku_2", "s", "a", ["d"], 90, "bob"⟩, 80)]
      [some ⟨none, [⟨some "ku_2", some "s", none, none, none, some 81, none, none⟩]⟩],
      (c : LookupHit Nat).createdBy ≠ "alice" := by decide +kernel
  rw [hnone] at h
  rcases h ⟨"ku_2", "s", "a", ["d"], 80, 90, "bob"⟩ (.head _)
    ⟨by decide, by decide, fun _ _ c' hc' _ => hauthors c' hc'⟩ with hmem | ⟨hfull, -⟩
  · cases hmem
  · cases hfull

end EighthLayer.Aigrp
