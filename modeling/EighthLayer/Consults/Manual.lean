import EighthLayer.Aigrp.Peers
import EighthLayer.Consults.XEnterprise

/-!
# EighthLayer.Consults.Manual

Peerings that admins announce by hand, and the forwards sent under them.

An announcement writes a row under an offer id made of the announcing Enterprise, the
announced one and the announced L2. The other side's row has the roles swapped, so it is
under another id; the sender presents the id of its own row, and the receiver looks for it
among its own. `manual_peering_iff` says what is accepted instead.
-/

namespace EighthLayer.Consults

open Lib Aigrp

/-! ## Announcing -/

/-- `DirectoryPeerAnnounceRequest`, as validated. -/
structure AnnounceRequest where
  l2Id : String
  enterprise : String
  group : String
  endpointUrl : String
  pubkey : String
  ttlDays : Option Nat
  l2Id_length : 3 ≤ l2Id.length ∧ l2Id.length ≤ 128
  enterprise_length : 1 ≤ enterprise.length ∧ enterprise.length ≤ 64
  group_length : 1 ≤ group.length ∧ group.length ≤ 64
  endpointUrl_length : 7 ≤ endpointUrl.length ∧ endpointUrl.length ≤ 512
  pubkey_length : 1 ≤ pubkey.length ∧ pubkey.length ≤ 128
  ttlDays_bounds : ∀ days, ttlDays = some days → 1 ≤ days ∧ days ≤ 365

/-- Why an announcement is refused. -/
inductive AnnounceRefusal where
  | malformedL2Id
  | invalidPubkey
  | unknownCaller
  | noTenancy
  | sentinelEnterprise
  | sentinelCaller
  | ownEnterprise
deriving DecidableEq

/-- The HTTP status of a refusal. -/
def AnnounceRefusal.status : AnnounceRefusal → Nat
  | malformedL2Id | sentinelEnterprise | ownEnterprise => 422
  | invalidPubkey => 400
  | unknownCaller => 401
  | noTenancy | sentinelCaller => 403

/-- `_validate_l2_id`. -/
def validateL2Id (l2Id enterprise group : String) : Bool :=
  '/' ∈ l2Id.toList && enterprisePart l2Id = enterprise &&
    String.ofList ((l2Id.toList.dropWhile (· ≠ '/')).drop 1) = group

/-- `_validate_pubkey_ed25519`; `onCurve` is what `from_public_bytes` accepts of 32 bytes. -/
def validatePubkey (onCurve : Bytes → Bool) (pubkey : String) : Bool :=
  match b64uDecode pubkey with
  | none => false
  | some raw => raw.length = 32 && onCurve raw

/-- `_build_offer_id`. -/
def buildOfferId (fromEnterprise toEnterprise l2Id : String) : String :=
  "manual:" ++ fromEnterprise ++ ":" ++ toEnterprise ++ ":" ++ l2Id

/-- When an announcement is made, and when its row expires. -/
structure AnnounceTimes (req : AnnounceRequest) where
  now : Clock
  expires : Clock
  /-- `now + timedelta(days=…)`, thirty days when none are given. -/
  expires_eq : expires.instant = now.instant + (req.ttlDays.getD 30 : Nat) * 86400000000

/-- The row that an announcement writes. -/
def announcedRow (callerEnterprise : String) (req : AnnounceRequest) (times : AnnounceTimes req) :
    DirectoryPeering where
  offerId := buildOfferId callerEnterprise req.enterprise req.l2Id
  fromEnterprise := callerEnterprise
  toEnterprise := req.enterprise
  status := "active"
  contentPolicy := "manual"
  consultLoggingPolicy := "manual"
  activeFrom := some times.now.isoformat
  expiresAt := times.expires.isoformat
  offerSignature := ""
  acceptSignature := ""
  lastSyncedAt := times.now.isoformat
  toL2Endpoints := [⟨some req.l2Id, some req.endpointUrl⟩]

/-- `announce_directory_peering`. `caller` is the caller's row of `users`, as far as it is
read: its `enterprise_id`. -/
def announceDirectoryPeering (onCurve : Bytes → Bool) (t : PeeringTable)
    (caller : Option (Option String)) (req : AnnounceRequest) (times : AnnounceTimes req) :
    Except AnnounceRefusal PeeringTable :=
  if !validateL2Id req.l2Id req.enterprise req.group then .error .malformedL2Id
  else if !validatePubkey onCurve req.pubkey then .error .invalidPubkey
  else match caller with
    | none => .error .unknownCaller
    | some none => .error .noTenancy
    | some (some callerEnterprise) =>
      if req.enterprise = "default-enterprise" then .error .sentinelEnterprise
      else if callerEnterprise = "default-enterprise" then .error .sentinelCaller
      else if callerEnterprise = req.enterprise then .error .ownEnterprise
      else .ok (upsertDirectoryPeering t (announcedRow callerEnterprise req times))

theorem announceDirectoryPeering_ok {onCurve : Bytes → Bool} {t t' : PeeringTable}
    {caller : Option (Option String)} {req : AnnounceRequest} {times : AnnounceTimes req}
    (h : announceDirectoryPeering onCurve t caller req times = .ok t') :
    ∃ callerEnterprise, caller = some (some callerEnterprise) ∧
      validateL2Id req.l2Id req.enterprise req.group = true ∧ callerEnterprise ≠ req.enterprise ∧
      t' = upsertDirectoryPeering t (announcedRow callerEnterprise req times) := by
  unfold announceDirectoryPeering at h
  split at h
  · cases h
  · rename_i hl2
    split at h
    · cases h
    · split at h
      · cases h
      · cases h
      · rename_i callerEnterprise
        split at h
        · cases h
        · split at h
          · cases h
          · split at h
            · cases h
            · rename_i hne
              cases h
              exact ⟨callerEnterprise, rfl, by simpa using hl2, hne, rfl⟩

/-! ## The tables of an L2 -/

/-- The offer ids that only announcements give: the directory's are UUIDs. -/
def IsManual (offerId : String) : Prop := "manual:".toList <+: offerId.toList

theorem isManual_build (a b l2Id : String) : IsManual (buildOfferId a b l2Id) := by
  unfold IsManual buildOfferId
  simp only [String.toList_append, List.append_assoc]
  exact List.prefix_append _ _

/-- What writes the table: an announcement by an admin of this Enterprise, and a record
that was pulled from the directory. -/
inductive PeeringOp (selfEnterprise : String) where
  | announce (req : AnnounceRequest) (times : AnnounceTimes req)
  | sync (record : DirectoryPeering) (directory : ¬ IsManual record.offerId)

/-- One such write; a refused announcement writes nothing. -/
def PeeringOp.apply {selfEnterprise : String} (onCurve : Bytes → Bool) (t : PeeringTable) :
    PeeringOp selfEnterprise → PeeringTable
  | announce req times =>
      match announceDirectoryPeering onCurve t (some (some selfEnterprise)) req times with
      | .ok t' => t'
      | .error _ => t
  | sync record _ => upsertDirectoryPeering t record

/-- The table after some writes. -/
def peeringsAfter {selfEnterprise : String} (onCurve : Bytes → Bool)
    (ops : List (PeeringOp selfEnterprise)) : PeeringTable :=
  ops.foldl (PeeringOp.apply onCurve) .empty

/-- What a manual row is made of. -/
def ManualRow (selfEnterprise : String) (p : DirectoryPeering) : Prop :=
  p.fromEnterprise = selfEnterprise ∧ p.toEnterprise ≠ selfEnterprise ∧
    '/' ∉ p.toEnterprise.toList ∧ ∃ group, p.offerId =
      buildOfferId selfEnterprise p.toEnterprise (p.toEnterprise ++ "/" ++ group)

/-- The rows under manual offer ids are this L2's own announcements. -/
def OwnManualRows (selfEnterprise : String) (t : PeeringTable) : Prop :=
  ∀ p ∈ t, IsManual p.offerId → ManualRow selfEnterprise p

theorem not_mem_takeWhile_ne (c : Char) (l : List Char) : c ∉ l.takeWhile (· ≠ c) := by
  intro hmem
  have hall := List.all_takeWhile (p := (· ≠ c)) (l := l)
  have hne := List.all_eq_true.mp hall c hmem
  simp at hne

/-- A text is cut at the first of a character. -/
theorem takeWhile_cons_dropWhile {c : Char} : ∀ {l : List Char}, c ∈ l →
    l = l.takeWhile (· ≠ c) ++ c :: (l.dropWhile (· ≠ c)).drop 1
  | d :: l, h => by
      by_cases hd : d = c
      · subst hd
        simp
      · have hl : c ∈ l := (List.mem_cons.mp h).resolve_left (Ne.symm hd)
        rw [List.takeWhile_cons_of_pos (by simpa using hd),
          List.dropWhile_cons_of_pos (by simpa using hd), List.cons_append]
        exact congrArg (d :: ·) (takeWhile_cons_dropWhile hl)

theorem validateL2Id_eq {l2Id enterprise group : String}
    (h : validateL2Id l2Id enterprise group = true) :
    '/' ∉ enterprise.toList ∧ l2Id = enterprise ++ "/" ++ group := by
  unfold validateL2Id at h
  rw [Bool.and_eq_true, Bool.and_eq_true, decide_eq_true_eq, decide_eq_true_eq,
    decide_eq_true_eq] at h
  obtain ⟨⟨hslash, rfl⟩, rfl⟩ := h
  constructor
  · rw [enterprisePart, String.toList_ofList]
    exact not_mem_takeWhile_ne '/' l2Id.toList
  · rw [← String.toList_inj]
    simp only [enterprisePart, String.toList_append, String.toList_ofList]
    show _ = List.takeWhile _ _ ++ ['/'] ++ _
    rw [List.append_assoc, List.singleton_append]
    exact takeWhile_cons_dropWhile hslash

/-- The step lemma: each write keeps the manual rows this L2's own. -/
theorem ownManualRows_apply {selfEnterprise : String} {onCurve : Bytes → Bool} {t : PeeringTable}
    (h : OwnManualRows selfEnterprise t) (op : PeeringOp selfEnterprise) :
    OwnManualRows selfEnterprise (op.apply onCurve t) := by
  cases op with
  | announce req times =>
      unfold PeeringOp.apply
      dsimp only
      split
      · rename_i t' hok
        obtain ⟨_, hcaller, hl2, hne, rfl⟩ := announceDirectoryPeering_ok hok
        cases hcaller
        obtain ⟨hslash, heq⟩ := validateL2Id_eq hl2
        intro p hp hmanual
        rcases Table.mem_upsert.mp hp with rfl | ⟨hp, -⟩
        · unfold ManualRow
          dsimp only
          cases hfind : t.find (announcedRow selfEnterprise req times).offerId with
          | none =>
              exact ⟨rfl, Ne.symm hne, hslash, req.group, congrArg (buildOfferId _ _) heq⟩
          | some old =>
              -- the row that is there keeps its Enterprises, and was this L2's own
              obtain ⟨hold, hid⟩ := Table.find_eq_some_iff.mp hfind
              have hmine := h old hold (hid ▸ isManual_build _ _ _)
              unfold ManualRow at hmine
              rw [hid] at hmine
              exact hmine
        · exact h p hp hmanual
      · exact h
  | sync record directory =>
      intro p hp hmanual
      rcases Table.mem_upsert.mp hp with rfl | ⟨hp, -⟩
      · exact absurd hmanual directory
      · exact h p hp hmanual

/-- The run lemma. -/
theorem ownManualRows_after {selfEnterprise : String} (onCurve : Bytes → Bool)
    (ops : List (PeeringOp selfEnterprise)) :
    OwnManualRows selfEnterprise (peeringsAfter onCurve ops) := by
  have hrun : ∀ (ops : List (PeeringOp selfEnterprise)) (t : PeeringTable),
      OwnManualRows selfEnterprise t →
        OwnManualRows selfEnterprise (ops.foldl (PeeringOp.apply onCurve) t) := by
    intro ops
    induction ops with
    | nil => exact fun t h => h
    | cons op ops ih => exact fun t h => ih _ (ownManualRows_apply h op)
  refine hrun ops .empty ?_
  intro p hp
  exact absurd hp (Table.not_mem_empty p)

/-! ## Sending -/

/-- `_resolve_x_enterprise_target`. -/
def resolveXEnterpriseTarget (t : PeeringTable) (toL2Id selfEnterprise now : String) :
    Option (DirectoryPeering × L2Endpoint) :=
  match enterpriseOf toL2Id with
  | none => none
  | some targetEnterprise =>
    if targetEnterprise = selfEnterprise then none
    else match findActiveDirectoryPeering t selfEnterprise targetEnterprise now with
      | none => none
      | some peering =>
        (peering.toL2Endpoints.find? fun ep => ep.l2Id = some toL2Id).map fun ep => (peering, ep)

/-- The L2 that is found is the one that was asked for. -/
theorem resolveXEnterpriseTarget_l2Id {t : PeeringTable} {toL2Id selfEnterprise now : String}
    {peering : DirectoryPeering} {target : L2Endpoint}
    (h : resolveXEnterpriseTarget t toL2Id selfEnterprise now = some (peering, target)) :
    target.l2Id = some toL2Id := by
  unfold resolveXEnterpriseTarget at h
  split at h
  · cases h
  · split at h
    · cases h
    · split at h
      · cases h
      · obtain ⟨ep, hep, heq⟩ := Option.map_eq_some_iff.mp h
        cases heq
        simpa using List.find?_some hep

/-- What `_x_enterprise_forward_request` posts, and where; `none` when it raises. The
signature is left out when this L2 has no key. -/
def xEnterpriseForwardRequest (env : Environ) (peering : DirectoryPeering) (target : L2Endpoint)
    (signature : Option String) : Option (String × Request) :=
  match target.endpointUrl, peering.bearer with
  | some endpointUrl, some bearer => some
      (rstripSlash endpointUrl ++ "/api/v1/consults/x-enterprise-forward-request",
        { headers := [("authorization", "Bearer " ++ bearer), (forwarderHeader, selfL2Id env),
            (offerIdHeader, peering.offerId)] ++
            (signature.map fun sig => (signatureHeader, sig)).toList })
  | _, _ => none

theorem xEnterpriseForwardRequest_headers {env : Environ} {peering : DirectoryPeering}
    {target : L2Endpoint} {signature : Option String} {url : String} {request : Request}
    (h : xEnterpriseForwardRequest env peering target signature = some (url, request)) :
    ∃ bearer, peering.bearer = some bearer ∧
      request.header "authorization" = "Bearer " ++ bearer ∧
      request.header forwarderHeader = selfL2Id env ∧
      request.header offerIdHeader = peering.offerId := by
  unfold xEnterpriseForwardRequest at h
  split at h
  · rename_i bearer hurl hbearer
    cases h
    exact ⟨_, hbearer, rfl, rfl, rfl⟩
  · cases h

/-! ## Offer ids -/

/-- Stripping a text does not touch what stands before its first slash, when that starts
with no space. -/
theorem enterprisePart_strip {c : Char} {p rest : List Char} (hc : isSpace c = false)
    (hslash : '/' ∉ c :: p) :
    enterprisePart (strip (String.ofList (c :: p ++ '/' :: rest))) = String.ofList (c :: p) := by
  have hspace : isSpace '/' = false := by decide
  have hstrip : (strip (String.ofList (c :: p ++ '/' :: rest))).toList =
      c :: p ++ '/' :: (rest.reverse.dropWhile isSpace).reverse := by
    have hback : (rest.reverse ++ '/' :: (c :: p).reverse).dropWhile isSpace =
        rest.reverse.dropWhile isSpace ++ '/' :: (c :: p).reverse := by
      rw [List.dropWhile_append]
      split
      · rename_i hempty
        rw [List.isEmpty_iff.mp hempty, List.dropWhile_cons_of_neg (by simp [hspace])]
        rfl
      · rfl
    rw [strip, String.toList_ofList, String.toList_ofList, List.cons_append,
      List.dropWhile_cons_of_neg (by simp [hc]), ← List.cons_append, List.reverse_append,
      List.reverse_cons (a := '/'), List.append_assoc, List.singleton_append, hback]
    simp
  rw [enterprisePart, hstrip, List.takeWhile_append_of_pos, List.takeWhile_cons_of_neg (by simp),
    List.append_nil]
  intro d hd
  have hne : d ≠ '/' := fun heq => hslash (heq ▸ hd)
  simpa using hne

/-- What stands before the first slash of a manual offer id. -/
def offerIdPart (tag a b : List Char) : List Char := tag ++ (a ++ ':' :: (b ++ ':' :: b))

theorem toList_build (tag a b group : String) :
    (tag ++ a ++ ":" ++ b ++ ":" ++ (b ++ "/" ++ group)).toList =
      offerIdPart tag.toList a.toList b.toList ++ '/' :: group.toList := by
  have hcolon : ":".toList = [':'] := rfl
  have hslash : "/".toList = ['/'] := rfl
  simp only [offerIdPart, String.toList_append, hcolon, hslash, List.append_assoc, List.cons_append,
    List.nil_append]

theorem buildOfferId_eq (a b group : String) :
    buildOfferId a b (b ++ "/" ++ group) =
      String.ofList (offerIdPart "manual:".toList a.toList b.toList ++ '/' :: group.toList) :=
  String.toList_inj.mp ((toList_build "manual:" a b group).trans String.toList_ofList.symm)

theorem not_mem_offerIdPart {tag a b : List Char} (htag : '/' ∉ tag) (ha : '/' ∉ a)
    (hb : '/' ∉ b) : '/' ∉ offerIdPart tag a b := by
  have hcolon : ('/' : Char) ≠ ':' := by decide
  simp only [offerIdPart, List.mem_append, List.mem_cons, not_or]
  exact ⟨htag, ha, hcolon, hb, hcolon, hb⟩

/-- An announcement and its counterpart never have the same offer id. -/
theorem offerIdPart_swap {tag a b : List Char} (h : offerIdPart tag a b = offerIdPart tag b a) :
    a = b := by
  have hrest := List.append_cancel_left h
  have hlength := congrArg List.length hrest
  simp only [List.length_append, List.length_cons] at hlength
  have hsame : a.length = b.length := by omega
  exact (List.append_inj hrest hsame).1

theorem enterprisePart_offerId {a b : String} (group : String) (ha : '/' ∉ a.toList)
    (hb : '/' ∉ b.toList) :
    enterprisePart (strip (buildOfferId a b (b ++ "/" ++ group))) =
      String.ofList (offerIdPart "manual:".toList a.toList b.toList) := by
  have htag : '/' ∉ "manual:".toList := by decide +kernel
  have hfirst : "manual:".toList = 'm' :: "anual:".toList := by decide +kernel
  have hpart : offerIdPart "manual:".toList a.toList b.toList =
      'm' :: ("anual:".toList ++ (a.toList ++ ':' :: (b.toList ++ ':' :: b.toList))) := by
    rw [offerIdPart, hfirst]
    rfl
  have hslash := not_mem_offerIdPart htag ha hb
  rw [hpart] at hslash
  rw [buildOfferId_eq, hpart]
  exact enterprisePart_strip (by decide) hslash

theorem enterprisePart_of_not_mem {p : List Char} (h : '/' ∉ p) (rest : List Char) :
    enterprisePart (String.ofList (p ++ '/' :: rest)) = String.ofList p := by
  rw [enterprisePart, String.toList_ofList, List.takeWhile_append_of_pos,
    List.takeWhile_cons_of_neg (by simp), List.append_nil]
  intro d hd
  have hne : d ≠ '/' := fun heq => h (heq ▸ hd)
  simpa using hne

theorem selfL2Id_eq (env : Environ) :
    selfL2Id env = String.ofList ((enterprise env).toList ++ '/' :: (group env).toList) := by
  have hslash : "/".toList = ['/'] := rfl
  rw [← String.toList_inj]
  simp only [selfL2Id, String.toList_append, String.toList_ofList, hslash, List.append_assoc,
    List.cons_append, List.nil_append]

theorem isManual_strip {a b group : String} (ha : '/' ∉ a.toList) (hb : '/' ∉ b.toList) :
    IsManual (strip (buildOfferId a b (b ++ "/" ++ group))) := by
  have hpart := enterprisePart_offerId group ha hb
  rw [enterprisePart] at hpart
  have htake := String.ofList_injective hpart
  have hstarts : offerIdPart "manual:".toList a.toList b.toList <+:
      (strip (buildOfferId a b (b ++ "/" ++ group))).toList := htake ▸ List.takeWhile_prefix _
  exact (List.prefix_append _ _).trans hstarts

/-! ## What is accepted -/

/-- An announcement that is on file and has not expired. -/
def Announced (t : PeeringTable) (selfEnterprise other l2Id now : String) : Prop :=
  ∃ p ∈ t, p.offerId = buildOfferId selfEnterprise other l2Id ∧ p.fromEnterprise = selfEnterprise ∧
    p.toEnterprise = other ∧ p.status = "active" ∧ now < p.expiresAt

section Manual

variable {onCurve : Bytes → Bool} {envA envB : Environ}
  {opsA : List (PeeringOp (enterprise envA))} {opsB : List (PeeringOp (enterprise envB))}

/-- Only Enterprises without a slash in their names are announced. -/
theorem not_mem_of_announced {other l2Id now : String}
    (h : Announced (peeringsAfter onCurve opsA) (enterprise envA) other l2Id now) :
    '/' ∉ other.toList := by
  obtain ⟨p, hp, hid, -, rfl, -⟩ := h
  have hrow := ownManualRows_after onCurve opsA p hp (hid ▸ isManual_build _ _ _)
  exact hrow.2.2.1

theorem resolveXEnterpriseTarget_spec {t : PeeringTable} {toL2Id selfEnterprise now : String}
    {row : DirectoryPeering} {ep : L2Endpoint}
    (h : resolveXEnterpriseTarget t toL2Id selfEnterprise now = some (row, ep)) :
    ∃ target, enterpriseOf toL2Id = some target ∧ target ≠ selfEnterprise ∧ row ∈ t ∧
      row.Between selfEnterprise target := by
  unfold resolveXEnterpriseTarget at h
  split at h
  · cases h
  · rename_i target htarget
    split at h
    · cases h
    · rename_i hne
      split at h
      · cases h
      · rename_i peering hfind
        obtain ⟨ep', -, heq⟩ := Option.map_eq_some_iff.mp h
        cases heq
        obtain ⟨hmem, -, hbetween, -⟩ := findActive_spec hfind
        exact ⟨target, htarget, hne, hmem, hbetween⟩

theorem enterpriseOf_selfL2Id {env : Environ} (h : '/' ∉ (enterprise env).toList) :
    enterpriseOf (selfL2Id env) = some (enterprise env) := by
  have hpart := enterprisePart_of_not_mem h (group env).toList
  rw [← selfL2Id_eq, String.ofList_toList] at hpart
  have hmem : '/' ∈ (selfL2Id env).toList := by
    rw [selfL2Id_eq, String.toList_ofList]
    simp
  unfold enterpriseOf
  rw [if_pos hmem]
  exact congrArg some hpart

/-- A forward under the sender's own announcement finds no row at the receiver. -/
theorem manual_forward_refused {row : DirectoryPeering}
    (hrow : ManualRow (enterprise envA) row) (hto : row.toEnterprise = enterprise envB)
    (hslashA : '/' ∉ (enterprise envA).toList) {p : DirectoryPeering}
    (hp : p ∈ peeringsAfter onCurve opsB) (hid : p.offerId = strip row.offerId)
    (hside : p.otherSide (enterprise envB) = enterprise envA) : False := by
  obtain ⟨-, hne, hslashB, groupB, hoffer⟩ := hrow
  rw [hto] at hne hslashB hoffer
  have hmanual : IsManual p.offerId := by
    rw [hid, hoffer]
    exact isManual_strip hslashA hslashB
  obtain ⟨-, hne', hslash', groupA, hoffer'⟩ := ownManualRows_after onCurve opsB p hp hmanual
  have hother : p.toEnterprise = enterprise envA := by
    unfold DirectoryPeering.otherSide at hside
    rw [if_neg hne'] at hside
    exact hside
  rw [hother] at hoffer'
  -- the two ids differ before their first slash already
  have htag : '/' ∉ "manual:".toList := by decide +kernel
  have hpart := enterprisePart_offerId groupB hslashA hslashB
  rw [← hoffer, ← hid, hoffer', buildOfferId_eq,
    enterprisePart_of_not_mem (not_mem_offerIdPart htag hslashB hslashA)] at hpart
  have hswap := offerIdPart_swap (String.ofList_injective hpart)
  exact hne (String.toList_inj.mp hswap)

/-- **Manual peerings.** Enterprises `A` and `B` have announced each other's L2, and neither
announcement has expired. A forward that `A` builds for `B`'s L2 is accepted if and only if it
does not travel under `A`'s announcement, but under a peering from the directory that `B` has
as well: active and not expired at `B`, with `A` for its other side, and the same bearer. -/
theorem manual_peering_iff {now nowB : Clock} {row : DirectoryPeering} {ep : L2Endpoint}
    {signature : Option String} {url : String} {request : Request} {body : ForwardRequestBody}
    (hA : Announced (peeringsAfter onCurve opsA) (enterprise envA) (enterprise envB)
      (selfL2Id envB) now.isoformat)
    (hB : Announced (peeringsAfter onCurve opsB) (enterprise envB) (enterprise envA)
      (selfL2Id envA) nowB.isoformat)
    (hresolve : resolveXEnterpriseTarget (peeringsAfter onCurve opsA) (selfL2Id envB)
      (enterprise envA) now.isoformat = some (row, ep))
    (hforward : xEnterpriseForwardRequest envA row ep signature = some (url, request))
    (hbody : body.fromL2Id = selfL2Id envA) :
    (∃ p, requireXEnterpriseAuth envB (peeringsAfter onCurve opsB) nowB.isoformat request body =
      .ok p) ↔
    ¬ IsManual row.offerId ∧ strip (selfL2Id envA) = selfL2Id envA ∧ strip row.offerId ≠ "" ∧
      ∃ p ∈ peeringsAfter onCurve opsB, p.offerId = strip row.offerId ∧ p.status = "active" ∧
        p.expired nowB.isoformat = false ∧ p.otherSide (enterprise envB) = enterprise envA ∧
        p.bearer = row.bearer := by
  have hslashB := not_mem_of_announced hA
  have hslashA := not_mem_of_announced hB
  obtain ⟨bearer, hbearer, hauth, hforwarder, hoffer⟩ := xEnterpriseForwardRequest_headers hforward
  obtain ⟨target, htarget, -, hrow, hbetween⟩ := resolveXEnterpriseTarget_spec hresolve
  rw [enterpriseOf_selfL2Id hslashB] at htarget
  cases htarget
  have hself : enterprisePart (selfL2Id envA) = enterprise envA := by
    rw [selfL2Id_eq, enterprisePart_of_not_mem hslashA, String.ofList_toList]
  have hne : selfL2Id envA ≠ "" := by
    intro hempty
    rw [selfL2Id_eq] at hempty
    have hnil := congrArg String.toList hempty
    simp at hnil
  simp only [requireXEnterpriseAuth_ok_iff, hauth, hforwarder, hoffer, hbody,
    afterPrefix_append, Option.some.injEq]
  constructor
  · rintro ⟨p, hstrip, -, hofferne, hfind, hstatus, hexpired, hside, b, rfl, hb⟩
    obtain ⟨hp, hid⟩ := Table.find_eq_some_iff.mp hfind
    rw [← hstrip, hself] at hside
    refine ⟨fun hmanual => ?_, hstrip.symm, hofferne, p, hp, hid, hstatus, hexpired, hside.symm,
      hb.trans hbearer.symm⟩
    have hmine := ownManualRows_after onCurve opsA row hrow hmanual
    have hto : row.toEnterprise = enterprise envB := by
      rcases hbetween with ⟨-, hto⟩ | ⟨-, hto⟩
      · exact hto
      · exact absurd hto hmine.2.1
    exact manual_forward_refused hmine hto hslashA hp hid hside.symm
  · rintro ⟨-, hstrip, hofferne, p, hp, hid, hstatus, hexpired, hside, hb⟩
    refine ⟨p, hstrip.symm, ?_, hofferne, ?_, hstatus, hexpired, ?_, bearer, rfl,
      hb.trans hbearer⟩
    · rw [hstrip]
      exact hne
    · rw [← hid]
      exact Table.find_key hp
    · rw [hstrip, hself, hside]

end Manual

/-! ### Two announcements -/

/-- globex's environment. -/
def globexEnv : Environ where
  lookup := fun name =>
    if name = "CQ_ENTERPRISE" then some "globex"
    else if name = "CQ_GROUP" then some "sales" else none

/-- The base point of the curve is the only key that is known to be on it. -/
def basePoint (raw : Bytes) : Bool := raw = 0x58 :: List.replicate 31 0x66

/-- An announcement of an L2. -/
def sampleAnnounce (l2Id enterprise group : String)
    (hl2 : 3 ≤ l2Id.length ∧ l2Id.length ≤ 128)
    (henterprise : 1 ≤ enterprise.length ∧ enterprise.length ≤ 64)
    (hgroup : 1 ≤ group.length ∧ group.length ≤ 64) : AnnounceRequest where
  l2Id
  enterprise
  group
  endpointUrl := "https://l2.example"
  pubkey := "WGZmZmZmZmZmZmZmZmZmZmZmZmZmZmZmZmZmZmZmZmY"
  ttlDays := none
  l2Id_length := hl2
  enterprise_length := henterprise
  group_length := hgroup
  endpointUrl_length := by decide
  pubkey_length := by decide
  ttlDays_bounds := nofun

/-- acme's announcement of globex's L2, and globex's of acme's. -/
def announceGlobex : AnnounceRequest :=
  sampleAnnounce "globex/sales" "globex" "sales" (by decide) (by decide) (by decide)

def announceAcme : AnnounceRequest :=
  sampleAnnounce "acme/default" "acme" "default" (by decide) (by decide) (by decide)

/-- Thirty days later. -/
def inThirtyDays : Clock where
  stamp := ⟨⟨2026, 7, 1, Written.year_ge, Written.year_le, Written.july_ge, Written.july_le,
      Written.first_ge, Written.july_first_le⟩, 1, 0, 0,
    Written.hour_one, Written.sixtieth_zero, Written.sixtieth_zero⟩
  micro := 0
  micro_lt := Written.micro_zero

theorem before_inThirtyDays : oneOClock.isoformat < inThirtyDays.isoformat :=
  Clock.isoformat_lt_isoformat.mpr (by decide +kernel)

def globexTimes : AnnounceTimes announceGlobex := ⟨oneOClock, inThirtyDays, by decide +kernel⟩

def acmeTimes : AnnounceTimes announceAcme := ⟨oneOClock, inThirtyDays, by decide +kernel⟩

/-- The rows that the two announcements write. -/
def rowAtAcme : DirectoryPeering := announcedRow "acme" announceGlobex globexTimes

def rowAtGlobex : DirectoryPeering := announcedRow "globex" announceAcme acmeTimes

def opsAtAcme : List (PeeringOp (enterprise acmeEnv)) := [.announce announceGlobex globexTimes]

def opsAtGlobex : List (PeeringOp (enterprise globexEnv)) := [.announce announceAcme acmeTimes]

theorem peerings_at_acme : (peeringsAfter basePoint opsAtAcme).rows = [rowAtAcme] := by
  have hl2 : validateL2Id announceGlobex.l2Id announceGlobex.enterprise announceGlobex.group =
      true := by decide +kernel
  have hkey : validatePubkey basePoint announceGlobex.pubkey = true := by decide +kernel
  have hok : announceDirectoryPeering basePoint .empty (some (some (enterprise acmeEnv)))
      announceGlobex globexTimes = .ok (upsertDirectoryPeering .empty rowAtAcme) := by
    unfold announceDirectoryPeering
    rw [hl2, hkey]
    rfl
  unfold peeringsAfter opsAtAcme
  simp only [List.foldl_cons, List.foldl_nil, PeeringOp.apply, hok]
  rfl

theorem peerings_at_globex : (peeringsAfter basePoint opsAtGlobex).rows = [rowAtGlobex] := by
  have hl2 : validateL2Id announceAcme.l2Id announceAcme.enterprise announceAcme.group =
      true := by decide +kernel
  have hkey : validatePubkey basePoint announceAcme.pubkey = true := by decide +kernel
  have hok : announceDirectoryPeering basePoint .empty (some (some (enterprise globexEnv)))
      announceAcme acmeTimes = .ok (upsertDirectoryPeering .empty rowAtGlobex) := by
    unfold announceDirectoryPeering
    rw [hl2, hkey]
    rfl
  unfold peeringsAfter opsAtGlobex
  simp only [List.foldl_cons, List.foldl_nil, PeeringOp.apply, hok]
  rfl

theorem resolved_at_acme :
    resolveXEnterpriseTarget (peeringsAfter basePoint opsAtAcme) (selfL2Id globexEnv)
      (enterprise acmeEnv) oneOClock.isoformat =
      some (rowAtAcme, ⟨some "globex/sales", some "https://l2.example"⟩) := by
  have hactive : findActiveDirectoryPeering (peeringsAfter basePoint opsAtAcme) "acme" "globex"
      oneOClock.isoformat = some rowAtAcme := by
    have hfilter : [rowAtAcme].filter (fun p => decide (p.status = "active" ∧
        ((p.fromEnterprise = "acme" ∧ p.toEnterprise = "globex") ∨
          (p.fromEnterprise = "globex" ∧ p.toEnterprise = "acme")) ∧
        oneOClock.isoformat < p.expiresAt)) = [rowAtAcme] :=
      List.filter_cons_of_pos (decide_eq_true ⟨rfl, .inl ⟨rfl, rfl⟩, before_inThirtyDays⟩)
    unfold findActiveDirectoryPeering
    rw [peerings_at_acme]
    dsimp only
    rw [hfilter, sortDesc_singleton]
    rfl
  have hent : enterpriseOf (selfL2Id globexEnv) = some "globex" := by decide +kernel
  have hself : enterprise acmeEnv = "acme" := rfl
  have hne : ("globex" : String) ≠ "acme" := by decide
  have hroster : rowAtAcme.toL2Endpoints.find? (fun ep => ep.l2Id = some (selfL2Id globexEnv)) =
      some ⟨some "globex/sales", some "https://l2.example"⟩ := by decide +kernel
  simp only [resolveXEnterpriseTarget, hent, hself, if_neg hne, hactive, hroster, Option.map_some]

theorem announced_at_acme : Announced (peeringsAfter basePoint opsAtAcme) (enterprise acmeEnv)
    (enterprise globexEnv) (selfL2Id globexEnv) oneOClock.isoformat := by
  refine ⟨rowAtAcme, ?_, rfl, rfl, rfl, rfl, before_inThirtyDays⟩
  rw [Table.mem_def, peerings_at_acme]
  exact List.mem_singleton_self _

theorem announced_at_globex : Announced (peeringsAfter basePoint opsAtGlobex) (enterprise globexEnv)
    (enterprise acmeEnv) (selfL2Id acmeEnv) oneOClock.isoformat := by
  refine ⟨rowAtGlobex, ?_, rfl, rfl, rfl, rfl, before_inThirtyDays⟩
  rw [Table.mem_def, peerings_at_globex]
  exact List.mem_singleton_self _

theorem forward_of_acme : ∃ request, xEnterpriseForwardRequest acmeEnv rowAtAcme
    ⟨some "globex/sales", some "https://l2.example"⟩ none =
      some ("https://l2.example/api/v1/consults/x-enterprise-forward-request", request) := by
  have hurl : rstripSlash "https://l2.example" ++ "/api/v1/consults/x-enterprise-forward-request" =
      "https://l2.example/api/v1/consults/x-enterprise-forward-request" := by
    have hstrip : rstripSlash "https://l2.example" = "https://l2.example" := by decide +kernel
    rw [hstrip]
    rfl
  have hbearer : ∃ bearer, rowAtAcme.bearer = some bearer := ⟨_, rfl⟩
  obtain ⟨bearer, hbearer⟩ := hbearer
  simp only [xEnterpriseForwardRequest, hbearer, hurl]
  exact ⟨_, rfl⟩

/-- Each has announced the other, and acme's forward is refused. -/
theorem manual_peering_iff_sample : ∃ request,
    xEnterpriseForwardRequest acmeEnv rowAtAcme ⟨some "globex/sales", some "https://l2.example"⟩
      none = some ("https://l2.example/api/v1/consults/x-enterprise-forward-request", request) ∧
    ¬ ∃ p, requireXEnterpriseAuth globexEnv (peeringsAfter basePoint opsAtGlobex)
      oneOClock.isoformat request (bodyFrom "acme/default") = .ok p := by
  obtain ⟨request, hforward⟩ := forward_of_acme
  refine ⟨request, hforward, fun haccepted => ?_⟩
  have hfrom : (bodyFrom "acme/default").fromL2Id = selfL2Id acmeEnv := rfl
  have hiff := manual_peering_iff announced_at_acme announced_at_globex resolved_at_acme hforward
    hfrom
  exact (hiff.mp haccepted).1 (isManual_build _ _ _)

/-- globex looks for acme's offer id among its own rows, and has it under another. -/
theorem announced_both_refused :
    Announced (peeringsAfter basePoint opsAtAcme) (enterprise acmeEnv) (enterprise globexEnv)
      (selfL2Id globexEnv) oneOClock.isoformat ∧
    Announced (peeringsAfter basePoint opsAtGlobex) (enterprise globexEnv) (enterprise acmeEnv)
      (selfL2Id acmeEnv) oneOClock.isoformat ∧
    ∃ row ep url request,
      resolveXEnterpriseTarget (peeringsAfter basePoint opsAtAcme) (selfL2Id globexEnv)
        (enterprise acmeEnv) oneOClock.isoformat = some (row, ep) ∧
      xEnterpriseForwardRequest acmeEnv row ep none = some (url, request) ∧
      requireXEnterpriseAuth globexEnv (peeringsAfter basePoint opsAtGlobex) oneOClock.isoformat
        request (bodyFrom "acme/default") =
          .error (.noPeering "manual:acme:globex:globex/sales") := by
  obtain ⟨request, hforward⟩ := forward_of_acme
  refine ⟨announced_at_acme, announced_at_globex, _, _, _, request, resolved_at_acme, hforward, ?_⟩
  obtain ⟨bearer, -, hauth, hforwarder, hoffer⟩ := xEnterpriseForwardRequest_headers hforward
  have hself : strip (selfL2Id acmeEnv) = "acme/default" := by decide +kernel
  have hid : strip rowAtAcme.offerId = "manual:acme:globex:globex/sales" := by
    have hoffer' : rowAtAcme.offerId = "manual:acme:globex:globex/sales" := rfl
    rw [hoffer']
    decide +kernel
  have hnone : ((listDirectoryPeerings (peeringsAfter basePoint opsAtGlobex) none
      (some "active")).filter fun p => p.offerId = "manual:acme:globex:globex/sales").head? =
      none := by
    have hother : rowAtGlobex.offerId ≠ "manual:acme:globex:globex/sales" := by decide +kernel
    rw [List.head?_eq_none_iff, List.filter_eq_nil_iff]
    intro p hp
    have hmem := List.mem_of_mem_filter (mem_sortDesc.mp hp)
    rw [peerings_at_globex, List.mem_singleton] at hmem
    subst hmem
    simpa using hother
  have hbody : (bodyFrom "acme/default").fromL2Id = "acme/default" := rfl
  have hne : ("acme/default" : String) ≠ "" := by decide
  have hne' : ("manual:acme:globex:globex/sales" : String) ≠ "" := by decide +kernel
  unfold requireXEnterpriseAuth
  simp only [hauth, hforwarder, hoffer, afterPrefix_append, hself, hid, hbody, hne, hne', hnone,
    if_false, ne_eq, not_true_eq_false]

end EighthLayer.Consults
