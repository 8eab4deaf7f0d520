import EighthLayer.Sdk.PyUnit
import EighthLayer.Knowledge.Index
import EighthLayer.Knowledge.Trust

/-!
# EighthLayer.Sdk.FlagWire

A flag of the Go client for a unit on the server: the request that `remote.go` sends, the route
`flag_unit` that serves it, and what is left of the flag in the stored unit.
-/

namespace EighthLayer.Sdk

open Lib
open Aigrp (strip isSpace)
open Knowledge (Floats Casing FlagReason Store TrustRequest TrustResponse NormalDomains Tables
  UnitOp runOps normalizeDomains)

/-! ## The request -/

/-- The body that `remoteClient.flag` sends; the keys of a map are sorted. -/
def Go.flagBody (reason detail duplicateOf : Go.Text) : Json :=
  .obj (Json.member "detail" (Go.nonEmpty detail) ++
    (Json.member "duplicate_of" (Go.nonEmpty duplicateOf) ++ [("reason", Go.text reason)]))

/-! ## The route -/

/-- `FlagRequest`: its reason; other members are ignored. `none` is 422. -/
def flagRequest : Json → Option FlagReason :=
  Json.object fun ms => Json.required (fun v => (Json.text v).bind FlagReason.ofValue) ms "reason"

/-- What `POST /flag/<unit_id>` answers. -/
inductive FlagAnswer (F : Type) where
  | served (response : TrustResponse F)
  | unprocessable

section Wire

variable {F : Type} [Floats F] [Casing]

/-- `POST /flag/<unit_id>`, with the caller's credentials in order. -/
def postFlag (s : Store F) (unitId : String) (body : Json) (now : String) :
    FlagAnswer F × Store F :=
  match flagRequest body with
  | none => (.unprocessable, s)
  | some reason =>
      let r := ((TrustRequest.flag reason now).prog unitId).alone s
      (.served r.1, r.2)

/-- `Client.Flag` of a unit on the server: what it is answered, if it sends a request at all. An
id is its own path segment. -/
def Go.flagRemote (s : Store F) (unitId : Go.Text) (reason detail duplicateOf : Go.Text)
    (now : String) : Option (FlagAnswer F) × Store F :=
  if Go.flagAccepted reason duplicateOf = true then
    let r := postFlag s (lossyText unitId) (Go.flagBody reason detail duplicateOf) now
    (some r.1, r.2)
  else (none, s)

/-! ## What is recorded -/

/-- What a flag says, its time aside. -/
structure FlagContent where
  reason : Bytes
  detail : Bytes
  duplicateOf : Bytes
deriving DecidableEq

def Go.Flag.content (f : Go.Flag) : FlagContent := ⟨f.reason, f.detail, f.duplicateOf⟩

/-- What a flag on the server says. -/
def serverContent (f : Knowledge.Flag) : FlagContent :=
  ⟨utf8 f.reason.value, optionalBytes f.detail, optionalBytes f.duplicateOf⟩

/-- **The flag survives the wire**: the server takes it, and its unit gains one flag that says
what the same call records on a local unit, and is left with the confidence that the call leaves
there. -/
def FlagSurvives (s : Store F) (u : Knowledge.KnowledgeUnit F) (localUnit : Go.KnowledgeUnit F)
    (reason detail duplicateOf : Go.Text) (now : String) (t : Timestamp) : Prop :=
  let served := Go.flagRemote s (utf8 u.id) reason detail duplicateOf now
  let recorded := Go.applyFlag localUnit reason detail duplicateOf t
  ∃ changed w f g, served.1 = some (.served (.ok changed)) ∧ served.2.get u.id = some w ∧
    w.flags = u.flags ++ [f] ∧ recorded.flags = some (localUnit.flags.getD [] ++ [g]) ∧
    serverContent f = g.content ∧ w.evidence.confidence = recorded.evidence.confidence

/-! ## Units on the server -/

omit [Floats F] in
/-- The units of the store are those that a run of its operations has left, whatever the other
columns hold. -/
def StoredBy (ops : List (UnitOp F)) (s : Store F) : Prop :=
  ∀ r ∈ s.units, ∃ r' ∈ (runOps .empty ops).units, r'.unit = r.unit

omit [Floats F] [Casing] in
theorem strip_eq_empty_iff {s : String} : strip s = "" ↔ ∀ c ∈ s.toList, isSpace c = true := by
  have hchars : strip s = "" ↔ ((s.toList.dropWhile isSpace).reverse.dropWhile isSpace) = [] := by
    unfold strip
    constructor
    · intro h
      have hlist := congrArg String.toList h
      rw [String.toList_ofList] at hlist
      exact List.reverse_eq_nil_iff.mp hlist
    · intro h
      rw [h]
      rfl
  rw [hchars, List.dropWhile_eq_nil_iff]
  simp only [List.mem_reverse]
  constructor
  · intro h c hc
    rw [← List.takeWhile_append_dropWhile (p := isSpace) (l := s.toList), List.mem_append] at hc
    rcases hc with hc | hc
    · exact List.mem_takeWhile_imp hc
    · exact h c hc
  · intro h c hc
    exact h c ((List.dropWhile_sublist isSpace).mem hc)

omit [Floats F] [Casing] in
/-- A text that is not blank is not blank when it is stripped. -/
theorem strip_strip_ne_empty {s : String} (h : strip s ≠ "") : strip (strip s) ≠ "" := by
  rw [ne_eq, strip_eq_empty_iff] at h ⊢
  intro hblank
  refine h fun c hc => ?_
  by_cases hspace : isSpace c = true
  · exact hspace
  · -- a character that is no space is not stripped
    refine hblank c ?_
    have hdrop : ∀ l : List Char, c ∈ l → c ∈ l.dropWhile isSpace := by
      intro l hl
      rw [← List.takeWhile_append_dropWhile (p := isSpace) (l := l), List.mem_append] at hl
      rcases hl with hl | hl
      · exact absurd (List.mem_takeWhile_imp hl) hspace
      · exact hl
    unfold strip
    rw [String.toList_ofList, List.mem_reverse]
    exact hdrop _ (List.mem_reverse.mpr (hdrop _ hc))

omit [Floats F] in
/-- Domains in normal form are not all blank, so that there is something to write back. -/
theorem normalizeDomains_ne_nil (hblank : ∀ s, strip (Casing.lower s) = "" → strip s = "")
    {domains : List String} (h : NormalDomains domains) : normalizeDomains domains ≠ [] := by
  obtain ⟨hne, given, hgiven⟩ := h
  obtain ⟨d, ds, rfl⟩ := List.exists_cons_of_ne_nil hne
  have hd : d ∈ normalizeDomains given := hgiven ▸ List.mem_cons_self
  simp only [normalizeDomains, List.mem_reverse, List.mem_dedup, List.mem_map, List.mem_filter,
    decide_eq_true_eq] at hd
  obtain ⟨raw, ⟨-, hraw⟩, rfl⟩ := hd
  have hstrip : strip (Casing.lower (strip raw)) ≠ "" := fun hempty =>
    strip_strip_ne_empty hraw (hblank _ hempty)
  refine List.ne_nil_of_mem (a := Casing.lower (strip (Casing.lower (strip raw)))) ?_
  simp only [normalizeDomains, List.mem_reverse, List.mem_dedup, List.mem_map, List.mem_filter,
    decide_eq_true_eq]
  exact ⟨_, ⟨List.mem_cons_self, hstrip⟩, rfl⟩

/-! ## Serving a flag -/

omit [Floats F] [Casing] in
theorem flagRequest_flagBody (reason detail duplicateOf : Go.Text) :
    flagRequest (Go.flagBody reason detail duplicateOf) =
      FlagReason.ofValue (lossyText reason) := by
  show Json.required _ (Json.member "detail" (Go.nonEmpty detail) ++
    (Json.member "duplicate_of" (Go.nonEmpty duplicateOf) ++ [("reason", Go.text reason)]))
    "reason" = _
  rw [Json.required_of_lookup (v := Go.text reason) (by simp [List.lookup_append])]
  rfl

/-- A flag on its own: read, changed, written back. -/
theorem flag_alone (s : Store F) (unitId : String) (reason : FlagReason) (now : String)
    {u : Knowledge.KnowledgeUnit F} (hget : s.get unitId = some u) :
    ((TrustRequest.flag reason now).prog unitId).alone s =
      match Knowledge.applyFlag u reason now with
      | none => (.serverError, s)
      | some changed =>
          match s.update changed with
          | some s' => (.ok changed, s')
          | none => (.serverError, s) := by
  unfold TrustRequest.prog
  rw [Prog.alone_call]
  show (Prog.alone (match s.get unitId with | none => _ | some unit => _) s) = _
  rw [hget]
  show (Prog.alone (match Knowledge.applyFlag u reason now with | none => _ | some c => _) s) = _
  cases Knowledge.applyFlag u reason now with
  | none => rfl
  | some changed =>
      have hexec : Database.exec (A := Knowledge.TrustStmt.Answer (F := F)) (.update changed) s =
          match s.update changed with
          | some s' => (true, s')
          | none => (false, s) := rfl
      show (Prog.alone (Knowledge.writeBack changed) s) = _
      rw [Knowledge.writeBack, Prog.alone_call, hexec]
      dsimp only
      cases s.update changed with
      | none => rfl
      | some s' => rfl

omit [Floats F] in
/-- A unit that is read has an id, and domains that can be written back. -/
theorem StoredBy.of_get (hblank : ∀ s, strip (Casing.lower s) = "" → strip s = "")
    {ops : List (UnitOp F)} {s : Store F} (hs : StoredBy ops s) {unitId : String}
    {u : Knowledge.KnowledgeUnit F} (hget : s.get unitId = some u) :
    u.id = unitId ∧ s.units.find unitId ≠ none ∧ normalizeDomains u.domains ≠ [] := by
  obtain ⟨r, hr, -, rfl⟩ := Store.get_eq_some_iff.mp hget
  obtain ⟨hmem, hid⟩ := Table.find_eq_some_iff.mp hr
  obtain ⟨r', hr', hunit⟩ := hs r hmem
  refine ⟨hid, by rw [hr]; exact Option.some_ne_none r, ?_⟩
  rw [← hunit]
  exact normalizeDomains_ne_nil hblank ((Knowledge.indexed_empty.run ops).normal r' hr')

omit [Casing] in
/-- A flag on the server says the reason alone. -/
theorem serverContent_ofReason {reason : FlagReason} {now : String} {f : Knowledge.Flag}
    (h : Knowledge.Flag.ofReason reason now = some f) :
    reason ≠ .duplicate ∧ serverContent f = ⟨utf8 reason.value, [], []⟩ := by
  unfold Knowledge.Flag.ofReason at h
  split at h
  · cases h
  · rename_i hne
    cases h
    exact ⟨hne, rfl⟩

omit [Casing] in
/-- What the same call records on a local unit. -/
theorem Go.applyFlag_content {k : Go.KnowledgeUnit F} {reason detail duplicateOf : Go.Text}
    {t : Timestamp} {g : Go.Flag}
    (h : (Go.applyFlag k reason detail duplicateOf t).flags = some (k.flags.getD [] ++ [g])) :
    g.content = ⟨reason, detail, duplicateOf⟩ := by
  have hlast := List.append_cancel_left (Option.some.inj h)
  rw [← List.singleton_inj.mp hlast]
  rfl

omit [Casing] in
/-- What the confidence is left at, there and here. -/
theorem Go.applyFlag_confidence (k : Go.KnowledgeUnit F) (reason detail duplicateOf : Go.Text)
    (t : Timestamp) :
    (Go.applyFlag k reason detail duplicateOf t).evidence.confidence =
      Knowledge.penalize k.evidence.confidence := rfl

/-- A reason that the server knows, with its reference where it needs one, is served. -/
theorem flagRemote_taken (hblank : ∀ s, strip (Casing.lower s) = "" → strip s = "")
    {ops : List (UnitOp F)} {s : Store F} (hs : StoredBy ops s) {u : Knowledge.KnowledgeUnit F}
    (hget : s.get u.id = some u) {reason duplicateOf : Go.Text} (detail : Go.Text)
    {now : String} (haccepted : Go.flagAccepted reason duplicateOf = true) {r : FlagReason}
    {flag : Knowledge.Flag} (hreason : FlagReason.ofValue (lossyText reason) = some r)
    (hflag : Knowledge.Flag.ofReason r now = some flag) :
    ∃ changed s' w, Go.flagRemote s (utf8 u.id) reason detail duplicateOf now =
        (some (.served (.ok changed)), s') ∧
      s'.get u.id = some w ∧ w.flags = u.flags ++ [flag] ∧
      w.evidence.confidence = Knowledge.penalize u.evidence.confidence := by
  obtain ⟨-, hfound, hdomains⟩ := hs.of_get hblank hget
  obtain ⟨changed, hchange⟩ : ∃ changed, Knowledge.applyFlag u r now = some changed :=
    ⟨_, Knowledge.applyFlag_eq_some_iff.mpr ⟨flag, hflag, rfl⟩⟩
  have hchanged := hchange
  rw [Knowledge.applyFlag_eq_some_iff, hflag] at hchanged
  obtain ⟨_, ⟨rfl⟩, hchanged⟩ := hchanged
  obtain ⟨s', hupdate⟩ : ∃ s', s.update changed = some s' := by
    rw [← Option.ne_none_iff_exists', Store.update]
    rw [hchanged, if_neg hdomains, ne_eq, Store.replaceUnit_eq_none_iff]
    exact hfound
  have halone := flag_alone s u.id r now hget
  rw [hchange] at halone
  dsimp only at halone
  rw [hupdate] at halone
  refine ⟨changed, s', { changed with domains := normalizeDomains changed.domains }, ?_, ?_, ?_, ?_⟩
  · unfold Go.flagRemote postFlag
    rw [if_pos haccepted, lossyText_utf8, flagRequest_flagBody, hreason]
    simp only [halone]
  · have hid : changed.id = u.id := by rw [hchanged]
    rw [← hid] at hget ⊢
    exact Knowledge.get_update hget hupdate
  · rw [hchanged]
  · rw [hchanged]

/-- Nothing else is served. -/
theorem flagRemote_ok {s : Store F} {u : Knowledge.KnowledgeUnit F} (hget : s.get u.id = some u)
    {reason detail duplicateOf : Go.Text} {now : String} {changed : Knowledge.KnowledgeUnit F}
    (haccepted : Go.flagAccepted reason duplicateOf = true)
    (h : (Go.flagRemote s (utf8 u.id) reason detail duplicateOf now).1 =
      some (.served (.ok changed))) :
    ∃ r flag, FlagReason.ofValue (lossyText reason) = some r ∧
      Knowledge.Flag.ofReason r now = some flag := by
  unfold Go.flagRemote postFlag at h
  rw [if_pos haccepted, lossyText_utf8, flagRequest_flagBody] at h
  cases hr : FlagReason.ofValue (lossyText reason) with
  | none =>
      rw [hr] at h
      cases h
  | some r =>
      rw [hr] at h
      dsimp only at h
      rw [flag_alone s u.id r now hget] at h
      cases hflag : Knowledge.Flag.ofReason r now with
      | none =>
          rw [Knowledge.applyFlag, hflag] at h
          cases h
      | some flag => exact ⟨r, flag, rfl, hflag⟩

/-- What survives is a reason alone. -/
theorem FlagSurvives.reason_alone (hblank : ∀ s, strip (Casing.lower s) = "" → strip s = "")
    {ops : List (UnitOp F)} {s : Store F} (hs : StoredBy ops s) {u : Knowledge.KnowledgeUnit F}
    (hget : s.get u.id = some u) {localUnit : Go.KnowledgeUnit F}
    {reason detail duplicateOf : Go.Text}
    (haccepted : Go.flagAccepted reason duplicateOf = true) {now : String} {t : Timestamp}
    (h : FlagSurvives s u localUnit reason detail duplicateOf now t) :
    (reason = utf8 FlagReason.stale.value ∨ reason = utf8 FlagReason.incorrect.value) ∧
      detail = [] ∧ duplicateOf = [] := by
  obtain ⟨changed, w, f, g, hok, hafter, hflags, hrecorded, hsaid, -⟩ := h
  obtain ⟨r, flag, hreason, hflag⟩ := flagRemote_ok hget haccepted hok
  obtain ⟨changed', s', w', hserved, hafter', hflags', -⟩ :=
    flagRemote_taken hblank hs hget detail haccepted hreason hflag
  rw [hserved, hafter'] at hafter
  cases hafter
  have hf : f = flag :=
    List.singleton_inj.mp (List.append_cancel_left (hflags.symm.trans hflags'))
  obtain ⟨hne, hcontent⟩ := serverContent_ofReason hflag
  rw [hf, hcontent, Go.applyFlag_content hrecorded] at hsaid
  obtain ⟨hr, hdetail, hduplicate⟩ := FlagContent.mk.inj hsaid
  refine ⟨?_, hdetail.symm, hduplicate.symm⟩
  cases r with
  | stale => exact .inl hr.symm
  | incorrect => exact .inr hr.symm
  | duplicate => exact absurd rfl hne

/-- **Which flags survive the wire**: those with a reason of the two that need no reference, with
no detail and no reference. -/
theorem flag_survives_iff (hblank : ∀ s, strip (Casing.lower s) = "" → strip s = "")
    {ops : List (UnitOp F)} {s : Store F} (hs : StoredBy ops s) {u : Knowledge.KnowledgeUnit F}
    (hget : s.get u.id = some u) {localUnit : Go.KnowledgeUnit F}
    (hlocal : localUnit.evidence.confidence = u.evidence.confidence)
    (reason detail duplicateOf : Go.Text)
    (haccepted : Go.flagAccepted reason duplicateOf = true) (now : String) (t : Timestamp) :
    FlagSurvives s u localUnit reason detail duplicateOf now t ↔
      (reason = utf8 FlagReason.stale.value ∨ reason = utf8 FlagReason.incorrect.value) ∧
        detail = [] ∧ duplicateOf = [] := by
  constructor
  · intro h
    exact h.reason_alone hblank hs hget haccepted
  · rintro ⟨hreason, rfl, rfl⟩
    obtain ⟨r, hr, hne⟩ : ∃ r, reason = utf8 (FlagReason.value r) ∧ r ≠ .duplicate := by
      rcases hreason with h | h
      · exact ⟨.stale, h, nofun⟩
      · exact ⟨.incorrect, h, nofun⟩
    obtain ⟨flag, hflag⟩ : ∃ flag, Knowledge.Flag.ofReason r now = some flag := by
      rw [Knowledge.Flag.ofReason, dif_neg hne]
      exact ⟨_, rfl⟩
    have hvalue : FlagReason.ofValue (lossyText reason) = some r := by
      rw [hr, lossyText_utf8, FlagReason.ofValue_value]
    obtain ⟨changed, s', w, hserved, hafter, hflags, hconfidence⟩ :=
      flagRemote_taken hblank hs hget [] haccepted hvalue hflag
    refine ⟨changed, w, flag, ⟨reason, some t, [], []⟩, by rw [hserved], by rw [hserved, hafter],
      hflags, rfl, ?_, ?_⟩
    · rw [(serverContent_ofReason hflag).2, ← hr]
      rfl
    · rw [hconfidence, Go.applyFlag_confidence, hlocal]

end Wire

/-! ## Flags of one unit -/

section Sample

local instance wireCasing : Casing := Knowledge.asciiCasing

theorem asciiCasing_blank (s : String) (h : strip (Casing.lower s) = "") : strip s = "" := by
  rw [strip_eq_empty_iff] at h ⊢
  intro c hc
  have hlower : isSpace c.toLower = true :=
    h c.toLower (by
      show c.toLower ∈ (String.ofList (s.toList.map Char.toLower)).toList
      rw [String.toList_ofList]
      exact List.mem_map_of_mem hc)
  unfold Char.toLower at hlower
  split at hlower
  · -- a letter is not blank
    rename_i hupper
    have hlow : 65 ≤ c.val.toNat := UInt32.le_iff_toNat_le.mp hupper.1
    have hhigh : c.val.toNat ≤ 90 := UInt32.le_iff_toNat_le.mp hupper.2
    have hnat : (c.val + ('a'.val - 'A'.val)).toNat = c.val.toNat + 32 := by
      rw [UInt32.toNat_add, show ('a'.val - 'A'.val).toNat = 32 from rfl]
      omega
    simp only [isSpace, Char.toNat, hnat, Bool.or_eq_true, Bool.and_eq_true,
      decide_eq_true_eq] at hlower
    omega
  · exact hlower

/-- A unit on the server. -/
def wireUnit : Knowledge.KnowledgeUnit ℚ :=
  Knowledge.sampleUnit "ku_0123456789abcdef0123456789abcdef" "api"

/-- How it got there. -/
def wireOps : List (UnitOp ℚ) := [.insert wireUnit none none none none "2026-05-01T00:00:00+00:00"]

/-- The store, after the unit was approved. -/
def wireStore : Store ℚ :=
  .ofRows [{ Store.newRow wireUnit "2026-05-01T00:00:00+00:00" "acme" "eng" with
    status := .approved }]

theorem wireStore_storedBy : StoredBy wireOps wireStore := by
  intro r hr
  have hrow : r.unit = wireUnit := by
    have hrows : r ∈ wireStore.units.rows := hr
    have hlist : wireStore.units.rows = [{ Store.newRow wireUnit "2026-05-01T00:00:00+00:00"
        "acme" "eng" with status := .approved }] := by decide +kernel
    rw [hlist, List.mem_singleton] at hrows
    rw [hrows]
    rfl
  have hstored : (runOps .empty wireOps).units.rows.map Knowledge.Row.unit = [wireUnit] := by
    decide +kernel
  obtain ⟨r', hr', hunit⟩ := List.mem_map.mp (hstored ▸ List.mem_singleton_self wireUnit)
  exact ⟨r', hr', hunit.trans hrow.symm⟩

theorem wireStore_get : wireStore.get wireUnit.id = some wireUnit := by decide +kernel

/-- The unit that the same call flags when it is local. -/
def wireLocal : Go.KnowledgeUnit ℚ where
  id := utf8 wireUnit.id
  version := 1
  domains := some [utf8 "api"]
  insight := ⟨utf8 "Retry on 429", utf8 "The API throttles", utf8 "Back off"⟩
  context := ⟨some [utf8 "python"], some [], []⟩
  evidence := ⟨0.5, 1, none, none⟩
  tier := utf8 "local"
  createdBy := utf8 "alice"
  supersededBy := []
  flags := some []

def wireTime : Timestamp :=
  ⟨⟨⟨2026, 5, 2, Written.year_ge, Written.year_le, Written.may_ge, Written.may_le,
      Written.second_ge, Written.may_second_le⟩, 9, 30, 0,
    Written.hour_nine, Written.sixtieth_thirty, Written.sixtieth_zero⟩, 0, 0, Written.nano_zero,
    Written.zone_zero⟩

/-- A stale unit is flagged. -/
theorem stale_survives :
    FlagSurvives wireStore wireUnit wireLocal (utf8 FlagReason.stale.value) [] []
      "2026-05-02T09:30:00+00:00" wireTime :=
  (flag_survives_iff asciiCasing_blank wireStore_storedBy wireStore_get rfl
    (utf8 FlagReason.stale.value) [] [] (by decide +kernel) "2026-05-02T09:30:00+00:00"
    wireTime).mpr ⟨.inl rfl, rfl, rfl⟩

/-- A duplicate is refused with 500, and what a detail says is lost. -/
theorem flags_lost :
    (Go.flagRemote wireStore (utf8 wireUnit.id) (utf8 FlagReason.duplicate.value) []
        (utf8 "ku_fedcba9876543210fedcba9876543210") "2026-05-02T09:30:00+00:00").1 =
      some (.served .serverError) ∧
    ¬ FlagSurvives wireStore wireUnit wireLocal (utf8 FlagReason.duplicate.value) []
      (utf8 "ku_fedcba9876543210fedcba9876543210") "2026-05-02T09:30:00+00:00" wireTime ∧
    ¬ FlagSurvives wireStore wireUnit wireLocal (utf8 FlagReason.stale.value)
      (utf8 "removed in v2") [] "2026-05-02T09:30:00+00:00" wireTime := by
  refine ⟨?_, fun h => ?_, fun h => ?_⟩
  · have haccepted : Go.flagAccepted (utf8 FlagReason.duplicate.value)
        (utf8 "ku_fedcba9876543210fedcba9876543210") = true := by decide +kernel
    unfold Go.flagRemote postFlag
    rw [if_pos haccepted, lossyText_utf8, flagRequest_flagBody, lossyText_utf8,
      FlagReason.ofValue_value]
    dsimp only
    rw [flag_alone _ _ _ _ wireStore_get]
    rfl
  · obtain ⟨-, -, hduplicate⟩ :=
      h.reason_alone asciiCasing_blank wireStore_storedBy wireStore_get (by decide +kernel)
    exact absurd hduplicate (by decide +kernel)
  · obtain ⟨-, hdetail, -⟩ :=
      h.reason_alone asciiCasing_blank wireStore_storedBy wireStore_get (by decide +kernel)
    exact absurd hdetail (by decide +kernel)

end Sample

end EighthLayer.Sdk
