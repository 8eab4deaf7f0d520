import EighthLayer.Sdk.Document

/-!
# EighthLayer.Sdk.Written

The units that the two SDKs write to the store they share.

What a unit says is its `Meaning`: texts are bytes, an absent text is the empty one, an absent
list is the empty one, times are instants. A unit that either SDK wrote (`Written`) is followed
through all that the two do to it; it stays `Sound`.
-/

namespace EighthLayer.Sdk

open Lib
open Knowledge (Floats FlagReason)

/-! ## Meanings -/

/-- What a flag says. -/
structure FlagMeaning where
  reason : Bytes
  instant : Option Int
  detail : Bytes
  duplicateOf : Bytes

/-- What a unit says. -/
structure Meaning (F : Type) where
  id : Bytes
  version : Int
  domains : List Bytes
  summary : Bytes
  detail : Bytes
  action : Bytes
  languages : List Bytes
  frameworks : List Bytes
  pattern : Bytes
  confidence : F
  confirmations : Int
  firstObserved : Option Int
  lastConfirmed : Option Int
  tier : Bytes
  createdBy : Bytes
  supersededBy : Bytes
  flags : List FlagMeaning

def Go.Flag.meaning (f : Go.Flag) : FlagMeaning :=
  ⟨f.reason, f.timestamp.map Timestamp.instant, f.detail, f.duplicateOf⟩

def Py.Flag.meaning (f : Py.Flag) : FlagMeaning :=
  ⟨utf8 f.reason.value, some f.timestamp.val.instant, optionalBytes f.detail,
    optionalBytes f.duplicateOf⟩

/-! ### Texts -/

/-- No U+FFFD stands in an empty text. -/
theorem lossyText_ne_empty {t : Bytes} (h : t ≠ []) : lossyText t ≠ "" :=
  fun hempty => h (eq_utf8_of_lossyText hempty (by decide))

theorem optionalBytes_ne_nil_iff {s : Option String} :
    optionalBytes s ≠ [] ↔ truthy s = true := by
  cases s with
  | none => simp [optionalBytes, truthy]
  | some s =>
      have hempty : utf8 s = [] ↔ s = "" :=
        ⟨fun h => utf8_injective (t := "") h, fun h => h ▸ rfl⟩
      simp [optionalBytes, truthy, hempty]

theorem optionalBytes_nonEmptyText_ne_nil {t : Go.Text} (h : t ≠ []) :
    optionalBytes (Go.nonEmptyText t) ≠ [] := by
  rw [optionalBytes_ne_nil_iff, Go.nonEmptyText, if_neg h]
  simpa [truthy] using lossyText_ne_empty h

variable {F : Type}

/-! ### Units -/

def Go.KnowledgeUnit.meaning (u : Go.KnowledgeUnit F) : Meaning F where
  id := u.id
  version := u.version.toInt
  domains := u.domains.getD []
  summary := u.insight.summary
  detail := u.insight.detail
  action := u.insight.action
  languages := u.context.languages.getD []
  frameworks := u.context.frameworks.getD []
  pattern := u.context.pattern
  confidence := u.evidence.confidence
  confirmations := u.evidence.confirmations.toInt
  firstObserved := u.evidence.firstObserved.map Timestamp.instant
  lastConfirmed := u.evidence.lastConfirmed.map Timestamp.instant
  tier := u.tier
  createdBy := u.createdBy
  supersededBy := u.supersededBy
  flags := (u.flags.getD []).map Go.Flag.meaning

def Py.KnowledgeUnit.meaning (p : Py.KnowledgeUnit F) : Meaning F where
  id := utf8 p.id
  version := p.version
  domains := p.domains.map utf8
  summary := utf8 p.insight.summary
  detail := utf8 p.insight.detail
  action := utf8 p.insight.action
  languages := p.context.languages.map utf8
  frameworks := p.context.frameworks.map utf8
  pattern := utf8 p.context.pattern
  confidence := p.evidence.confidence
  confirmations := p.evidence.confirmations
  firstObserved := p.evidence.firstObserved.map fun d => d.val.instant
  lastConfirmed := p.evidence.lastConfirmed.map fun d => d.val.instant
  tier := utf8 p.tier.value
  createdBy := utf8 p.createdBy
  supersededBy := optionalBytes p.supersededBy
  flags := p.flags.map Py.Flag.meaning

/-! ## Units that are stored -/

/-- A unit in the store, as the SDK that wrote it had it. -/
inductive Stored (F : Type) where
  | go (u : Go.KnowledgeUnit F)
  | py (p : Py.KnowledgeUnit F)

/-- The document in the store. -/
def Stored.document [JsonFloats F] : Stored F → Document
  | .go u => u.document
  | .py p => p.document

/-- The JSON in the store. -/
def Stored.json [JsonFloats F] : Stored F → Json
  | .go u => u.marshal
  | .py p => p.modelDumpJson

def Stored.meaning : Stored F → Meaning F
  | .go u => u.meaning
  | .py p => p.meaning

theorem Stored.json_eq [JsonFloats F] (s : Stored F) : s.json = s.document.json := by
  cases s with
  | go u => exact u.marshal_eq
  | py p => exact p.modelDumpJson_eq

variable [Floats F] [JsonFloats F]

/-! ## What stays true of a unit -/

/-- A flag with its time, that names what it is a duplicate of. -/
structure FlagMeaning.Sound (f : FlagMeaning) : Prop where
  instant : f.instant ≠ none
  named : f.reason = utf8 FlagReason.duplicate.value → f.duplicateOf ≠ []

/-- What is true of every unit that is written. -/
structure Meaning.Sound (m : Meaning F) : Prop where
  id : ∃ uuid : Bytes, uuid.length = 16 ∧ m.id = utf8 (Py.generateKuId uuid)
  version : m.version = 1
  domains : m.domains ≠ []
  confidence : 0.0 ≤ m.confidence ∧ m.confidence ≤ 1.0
  firstObserved : m.firstObserved ≠ none
  lastConfirmed : m.lastConfirmed ≠ none
  tier : m.tier = utf8 Knowledge.Tier.local.value
  supersededBy : m.supersededBy = []
  flags : ∀ f ∈ m.flags, f.Sound

/-- The document of such a unit. -/
structure Document.Sound (F : Type) [Floats F] [JsonFloats F] (d : Document) : Prop where
  id : ∃ uuid : Bytes, uuid.length = 16 ∧ d.id = Py.generateKuId uuid
  version : d.version = 1
  domains : d.domains ≠ none ∧ d.domains ≠ some []
  confidence : ∀ c : F, JsonFloats.value d.evidence.confidence = some c → 0.0 ≤ c ∧ c ≤ 1.0
  firstObserved : d.evidence.firstObserved ≠ none
  lastConfirmed : d.evidence.lastConfirmed ≠ none
  tier : d.tier = Knowledge.Tier.local.value
  supersededBy : optionalBytes d.supersededBy = []
  flags : ∀ f ∈ d.flags.getD [], f.timestamp ≠ none ∧
    (f.reason = FlagReason.duplicate.value → optionalBytes f.duplicateOf ≠ [])

/-! ### Documents of sound units -/

theorem Go.document_sound {u : Go.KnowledgeUnit F} (h : u.meaning.Sound) :
    u.document.Sound F where
  id := by
    obtain ⟨uuid, huuid, hid⟩ := h.id
    refine ⟨uuid, huuid, ?_⟩
    show lossyText u.id = _
    rw [show u.id = _ from hid, lossyText_utf8]
  version := h.version
  domains := by
    have hdomains := h.domains
    cases hu : u.domains with
    | none => exact absurd (by simp [Go.KnowledgeUnit.meaning, hu]) hdomains
    | some ds =>
        cases ds with
        | nil => exact absurd (by simp [Go.KnowledgeUnit.meaning, hu]) hdomains
        | cons d ds => simp [Go.KnowledgeUnit.document, hu]
  confidence := by
    intro c hc
    have hvalue : some u.evidence.confidence = some c :=
      (JsonFloats.value_goText u.evidence.confidence).symm.trans hc
    rw [← Option.some.inj hvalue]
    exact h.confidence
  firstObserved := by
    simpa [KnowledgeUnit.document, Evidence.document, KnowledgeUnit.meaning] using h.firstObserved
  lastConfirmed := by
    simpa [KnowledgeUnit.document, Evidence.document, KnowledgeUnit.meaning] using h.lastConfirmed
  tier := by
    show lossyText u.tier = _
    rw [show u.tier = _ from h.tier, lossyText_utf8]
  supersededBy := by
    show optionalBytes (Go.nonEmptyText u.supersededBy) = _
    rw [show u.supersededBy = _ from h.supersededBy]
    rfl
  flags := by
    intro f hf
    have hflags : u.document.flags.getD [] = (u.flags.getD []).map Go.Flag.document := by
      show (u.flags.map (List.map Go.Flag.document)).getD [] = _
      cases u.flags with
      | none => rfl
      | some flags => rfl
    rw [hflags] at hf
    obtain ⟨g, hg, rfl⟩ := List.mem_map.mp hf
    obtain ⟨hinstant, hnamed⟩ := h.flags g.meaning (List.mem_map_of_mem hg)
    refine ⟨by simpa [Flag.document, Flag.meaning] using hinstant, ?_⟩
    · -- a reason that had to be repaired is no reason
      intro hreason
      exact optionalBytes_nonEmptyText_ne_nil
        (hnamed (eq_utf8_of_lossyText hreason (by decide)))

theorem Py.document_sound {p : Py.KnowledgeUnit F} (h : p.meaning.Sound) :
    p.document.Sound F where
  id := by
    obtain ⟨uuid, huuid, hid⟩ := h.id
    exact ⟨uuid, huuid, utf8_injective hid⟩
  version := h.version
  domains := by
    simpa [KnowledgeUnit.document, KnowledgeUnit.meaning] using h.domains
  confidence := by
    intro c hc
    have hvalue : some p.evidence.confidence = some c :=
      (JsonFloats.value_pyText p.evidence.confidence).symm.trans hc
    rw [← Option.some.inj hvalue]
    exact h.confidence
  firstObserved := by
    simpa [KnowledgeUnit.document, Evidence.document, KnowledgeUnit.meaning] using h.firstObserved
  lastConfirmed := by
    simpa [KnowledgeUnit.document, Evidence.document, KnowledgeUnit.meaning] using h.lastConfirmed
  tier := utf8_injective h.tier
  supersededBy := h.supersededBy
  flags := by
    intro f hf
    obtain ⟨g, hg, rfl⟩ := List.mem_map.mp hf
    obtain ⟨-, hnamed⟩ := h.flags g.meaning (List.mem_map_of_mem hg)
    exact ⟨by simp [Py.Flag.document], fun hreason => hnamed (congrArg utf8 hreason)⟩

/-! ### Units that are read from them -/

theorem Go.toInt32_eq_some_iff {n : Int} {i : Int32} : toInt32 n = some i ↔ i.toInt = n := by
  unfold toInt32
  constructor
  · intro h
    split at h
    · rename_i hfits
      rw [← Option.some.inj h]
      exact Int32.toInt_ofInt_of_le (by simpa using hfits.1) (by simpa using hfits.2)
    · cases h
  · intro h
    have hle := i.minValue_le_toInt
    have hlt := i.toInt_lt
    rw [if_pos ⟨by simpa [← h] using hle, by simpa [← h] using hlt⟩, ← h, Int32.ofInt_toInt]

/-- Of a list that may be missing, what is read of it comes from an element. -/
theorem exists_of_mem_getD {α β : Type} {read : α → Option β} {xs : Option (List α)}
    {ys : Option (List β)} (h : xs.mapM (fun xs => xs.mapM read) = some ys) {y : β}
    (hy : y ∈ ys.getD []) : ∃ x ∈ xs.getD [], read x = some y := by
  cases xs with
  | none =>
      cases h
      cases hy
  | some xs =>
      obtain ⟨ys', hys, rfl⟩ := Option.map_eq_some_iff.mp h
      exact List.exists_of_mem_mapM hys hy

theorem mapM_ne_none {α β : Type} {read : α → Option β} {x : Option α} {y : Option β}
    (hx : x ≠ none) (h : x.mapM read = some y) : y ≠ none := by
  cases x with
  | none => exact absurd rfl hx
  | some x =>
      obtain ⟨y', -, rfl⟩ := Option.map_eq_some_iff.mp h
      exact Option.some_ne_none y'

theorem Go.Flag.sound_of_read {f : FlagDocument} {g : Go.Flag}
    (htime : f.timestamp ≠ none)
    (hnamed : f.reason = FlagReason.duplicate.value → optionalBytes f.duplicateOf ≠ [])
    (hread : Go.Flag.ofDocument f = some g) : g.meaning.Sound := by
  obtain ⟨timestamp, htimestamp, rfl⟩ := Option.map_eq_some_iff.mp hread
  have hsome := mapM_ne_none htime htimestamp
  exact ⟨by simpa [Go.Flag.meaning] using hsome, fun h => hnamed (utf8_injective h)⟩

theorem Go.sound_of_read {d : Document} {k : Go.KnowledgeUnit F} (hd : d.Sound F)
    (hread : Go.KnowledgeUnit.ofDocument d = some k) : k.meaning.Sound := by
  obtain ⟨version, hversion, h⟩ := Option.bind_eq_some_iff.mp hread
  obtain ⟨evidence, hevidence, h⟩ := Option.bind_eq_some_iff.mp h
  obtain ⟨flags, hflags, h⟩ := Option.bind_eq_some_iff.mp h
  obtain ⟨confidence, hconfidence, h'⟩ := Option.bind_eq_some_iff.mp hevidence
  obtain ⟨confirmations, -, h'⟩ := Option.bind_eq_some_iff.mp h'
  obtain ⟨first, hfirst, h'⟩ := Option.bind_eq_some_iff.mp h'
  obtain ⟨last, hlast, h'⟩ := Option.bind_eq_some_iff.mp h'
  cases h
  cases h'
  obtain ⟨uuid, huuid, hid⟩ := hd.id
  refine ⟨⟨uuid, huuid, congrArg utf8 hid⟩, ?_, ?_, hd.confidence _ hconfidence, ?_, ?_,
    congrArg utf8 hd.tier, hd.supersededBy, ?_⟩
  · exact (Go.toInt32_eq_some_iff.mp hversion).trans hd.version
  · obtain ⟨hnone, hnil⟩ := hd.domains
    obtain ⟨ds, hds⟩ := Option.ne_none_iff_exists'.mp hnone
    rw [hds, ne_eq, Option.some.injEq] at hnil
    simpa [Go.KnowledgeUnit.meaning, hds] using hnil
  · simpa [Go.KnowledgeUnit.meaning] using mapM_ne_none hd.firstObserved hfirst
  · simpa [Go.KnowledgeUnit.meaning] using mapM_ne_none hd.lastConfirmed hlast
  · intro m hm
    obtain ⟨g, hg, rfl⟩ := List.mem_map.mp hm
    obtain ⟨f, hf, hfg⟩ := exists_of_mem_getD hflags hg
    obtain ⟨htime, hnamed⟩ := hd.flags f hf
    exact Go.Flag.sound_of_read htime hnamed hfg

theorem Py.Flag.sound (f : Py.Flag) : f.meaning.Sound where
  instant := by simp [Py.Flag.meaning]
  named := by
    intro hreason
    have hduplicate : f.reason = .duplicate := by
      have hvalue := congrArg FlagReason.ofValue (utf8_injective hreason)
      rw [FlagReason.ofValue_value, FlagReason.ofValue_value] at hvalue
      exact Option.some.inj hvalue
    exact optionalBytes_ne_nil_iff.mpr (f.valid hduplicate)

theorem Py.sound_of_read {now : Py.Datetime} {d : Document} {k : Py.KnowledgeUnit F}
    (hd : d.Sound F) (hread : Py.KnowledgeUnit.ofDocument now d = some k) : k.meaning.Sound := by
  obtain ⟨domains, hdomains, h⟩ := Option.bind_eq_some_iff.mp hread
  obtain ⟨context, -, h⟩ := Option.bind_eq_some_iff.mp h
  obtain ⟨evidence, hevidence, h⟩ := Option.bind_eq_some_iff.mp h
  obtain ⟨tier, htier, h⟩ := Option.bind_eq_some_iff.mp h
  obtain ⟨flags, -, h⟩ := Option.bind_eq_some_iff.mp h
  obtain ⟨hvalid, h⟩ := Option.ite_none_right_eq_some.mp h
  obtain ⟨confidence, hconfidence, h'⟩ := Option.bind_eq_some_iff.mp hevidence
  obtain ⟨first, -, h'⟩ := Option.bind_eq_some_iff.mp h'
  obtain ⟨last, -, h'⟩ := Option.bind_eq_some_iff.mp h'
  obtain ⟨hrange, h'⟩ := Option.ite_none_right_eq_some.mp h'
  cases h
  cases h'
  obtain ⟨uuid, huuid, hid⟩ := hd.id
  rw [hd.tier, Knowledge.Tier.ofValue_value] at htier
  cases htier
  refine ⟨⟨uuid, huuid, congrArg utf8 hid⟩, hd.version, ?_, hrange, ?_, ?_, rfl, hd.supersededBy,
    ?_⟩
  · simpa [Py.KnowledgeUnit.meaning] using hvalid.2.1
  · simp [Py.KnowledgeUnit.meaning]
  · simp [Py.KnowledgeUnit.meaning]
  · intro m hm
    obtain ⟨f, -, rfl⟩ := List.mem_map.mp hm
    exact f.sound

/-! ## What is written -/

/-- The arithmetic that keeps a confidence between 0 and 1. -/
structure FloatLaws (F : Type) [Floats F] : Prop where
  zero_le_half : (0.0 : F) ≤ 0.5
  half_le_one : (0.5 : F) ≤ 1.0
  zero_le_add : ∀ c : F, 0.0 ≤ c → 0.0 ≤ c + Knowledge.confirmationBoost
  sub_le_one : ∀ c : F, c ≤ 1.0 → c - Knowledge.flagPenalty ≤ 1.0

omit [JsonFloats F] in
theorem FloatLaws.boost (laws : FloatLaws F) {c : F} (h : 0.0 ≤ c ∧ c ≤ 1.0) :
    0.0 ≤ Knowledge.boost c ∧ Knowledge.boost c ≤ 1.0 :=
  ⟨le_min (laws.zero_le_add c h.1) (laws.zero_le_half.trans laws.half_le_one), min_le_right _ _⟩

omit [JsonFloats F] in
theorem FloatLaws.penalize (laws : FloatLaws F) {c : F} (h : 0.0 ≤ c ∧ c ≤ 1.0) :
    0.0 ≤ Knowledge.penalize c ∧ Knowledge.penalize c ≤ 1.0 :=
  ⟨le_max_right _ _, max_le (laws.sub_le_one c h.2) (laws.zero_le_half.trans laws.half_le_one)⟩

section Written

variable [Go.Strings] [Knowledge.Casing]

/-- **What the two SDKs write**: a unit that one of them proposed, or read from the store to
confirm it or to flag it. -/
inductive Written : Stored F → Prop where
  | goPropose {u : Go.KnowledgeUnit F} (params : Go.ProposeParams) (uuid : Bytes)
      (now : Timestamp) (huuid : uuid.length = 16)
      (hstore : Go.stored (Go.proposed params uuid now) = some u) : Written (.go u)
  | goConfirm {s : Stored F} {k u : Go.KnowledgeUnit F} (now : Timestamp) (hs : Written s)
      (hread : Go.KnowledgeUnit.unmarshal s.json = some k)
      (hstore : Go.stored (Go.applyConfirmation k now) = some u) : Written (.go u)
  | goFlag {s : Stored F} {k u : Go.KnowledgeUnit F} (reason detail duplicateOf : Go.Text)
      (now : Timestamp) (hs : Written s)
      (haccepted : Go.flagAccepted reason duplicateOf = true)
      (hread : Go.KnowledgeUnit.unmarshal s.json = some k)
      (hstore : Go.stored (Go.applyFlag k reason detail duplicateOf now) = some u) :
      Written (.go u)
  | pyPropose {k p : Py.KnowledgeUnit F} (domains : List String) (insight : Knowledge.Insight)
      (context : Knowledge.Context) (createdBy : String) (uuid : Bytes) (now : Py.Datetime)
      (huuid : uuid.length = 16)
      (hcreate : Py.createKnowledgeUnit domains insight context createdBy uuid now = some k)
      (hstore : Py.stored k = some p) : Written (.py p)
  | pyConfirm {s : Stored F} {k p : Py.KnowledgeUnit F} (readAt now : Py.Datetime)
      (hs : Written s) (hread : Py.KnowledgeUnit.modelValidateJson readAt s.json = some k)
      (hstore : Py.stored (Py.applyConfirmation k now) = some p) : Written (.py p)
  | pyFlag {s : Stored F} {k flagged p : Py.KnowledgeUnit F} (reason : FlagReason)
      (readAt now : Py.Datetime) (hs : Written s)
      (hread : Py.KnowledgeUnit.modelValidateJson readAt s.json = some k)
      (hflag : Py.applyFlag k reason now = some flagged)
      (hstore : Py.stored flagged = some p) : Written (.py p)

/-! ### Soundness -/

omit [JsonFloats F] [Knowledge.Casing] in
/-- What is stored has a domain. -/
theorem Go.stored_sound {k u : Go.KnowledgeUnit F} (hstore : Go.stored k = some u)
    (hk : ∀ ds, ds ≠ [] → Meaning.Sound { k.meaning with domains := ds }) : u.meaning.Sound := by
  unfold Go.stored at hstore
  dsimp only at hstore
  split at hstore
  · cases hstore
  · rename_i hne
    cases hstore
    exact hk _ hne

omit [JsonFloats F] [Go.Strings] in
theorem Py.stored_sound {k p : Py.KnowledgeUnit F} (hstore : Py.stored k = some p)
    (hk : ∀ ds, ds ≠ [] → Meaning.Sound { k.meaning with domains := ds }) : p.meaning.Sound := by
  unfold Py.stored at hstore
  dsimp only at hstore
  split at hstore
  · cases hstore
  · rename_i hne
    cases hstore
    exact hk _ (by simpa using hne)

omit [JsonFloats F] [Go.Strings] [Knowledge.Casing] in
theorem Go.proposed_sound (laws : FloatLaws F) (params : Go.ProposeParams) {uuid : Bytes}
    (now : Timestamp) (huuid : uuid.length = 16) {ds : List Bytes} (hds : ds ≠ []) :
    Meaning.Sound { (Go.proposed (F := F) params uuid now).meaning with domains := ds } where
  id := ⟨uuid, huuid, (utf8_append _ _).symm⟩
  version := rfl
  domains := hds
  confidence := ⟨laws.zero_le_half, laws.half_le_one⟩
  firstObserved := Option.some_ne_none _
  lastConfirmed := Option.some_ne_none _
  tier := rfl
  supersededBy := rfl
  flags := fun _ hf => (nomatch hf)

omit [Go.Strings] [Knowledge.Casing] in
/-- A flag that is accepted names what it is a duplicate of. -/
theorem Go.flag_sound {reason detail duplicateOf : Go.Text} (now : Timestamp)
    (haccepted : Go.flagAccepted reason duplicateOf = true) :
    (Go.Flag.meaning ⟨reason, some now, detail, duplicateOf⟩).Sound where
  instant := Option.some_ne_none _
  named := by
    intro hreason hnil
    have hreason' : reason = utf8 "duplicate" := hreason
    have hnil' : duplicateOf = [] := hnil
    simp [Go.flagAccepted, hreason', hnil'] at haccepted

/-- **Every unit that is written is sound.** -/
theorem Written.sound (laws : FloatLaws F) {s : Stored F} (hs : Written s) : s.meaning.Sound := by
  have hdocument : ∀ {s : Stored F}, s.meaning.Sound → s.document.Sound F := by
    intro s h
    cases s with
    | go u => exact Go.document_sound h
    | py p => exact Py.document_sound h
  have hgo : ∀ {s : Stored F} {k : Go.KnowledgeUnit F}, s.meaning.Sound →
      Go.KnowledgeUnit.unmarshal s.json = some k → k.meaning.Sound := by
    intro s k h hread
    rw [s.json_eq, Go.KnowledgeUnit.unmarshal_json] at hread
    exact Go.sound_of_read (hdocument h) hread
  have hpy : ∀ {s : Stored F} {now : Py.Datetime} {k : Py.KnowledgeUnit F}, s.meaning.Sound →
      Py.KnowledgeUnit.modelValidateJson now s.json = some k → k.meaning.Sound := by
    intro s now k h hread
    rw [s.json_eq, Py.KnowledgeUnit.modelValidateJson_json] at hread
    exact Py.sound_of_read (hdocument h) hread
  induction hs with
  | goPropose params uuid now huuid hstore =>
      exact Go.stored_sound hstore fun ds hds => Go.proposed_sound laws params now huuid hds
  | goConfirm now hs hread hstore ih =>
      have hk := hgo ih hread
      exact Go.stored_sound hstore fun ds hds =>
        ⟨hk.id, hk.version, hds, laws.boost hk.confidence, hk.firstObserved,
          Option.some_ne_none _, hk.tier, hk.supersededBy, hk.flags⟩
  | @goFlag s k u reason detail duplicateOf now hs haccepted hread hstore ih =>
      have hk := hgo ih hread
      refine Go.stored_sound hstore fun ds hds =>
        ⟨hk.id, hk.version, hds, laws.penalize hk.confidence, hk.firstObserved,
          hk.lastConfirmed, hk.tier, hk.supersededBy, ?_⟩
      intro m hm
      have hflags : m ∈ k.meaning.flags ++
          [Go.Flag.meaning ⟨reason, some now, detail, duplicateOf⟩] := by
        simpa [Go.applyFlag, Go.KnowledgeUnit.meaning] using hm
      rcases List.mem_append.mp hflags with hold | hnew
      · exact hk.flags m hold
      · rw [List.mem_singleton.mp hnew]
        exact Go.flag_sound now haccepted
  | pyPropose domains insight context createdBy uuid now huuid hcreate hstore =>
      unfold Py.createKnowledgeUnit at hcreate
      obtain ⟨-, hk⟩ := Option.ite_none_left_eq_some.mp hcreate
      cases hk
      exact Py.stored_sound hstore fun ds hds =>
        ⟨⟨uuid, huuid, rfl⟩, rfl, hds, ⟨laws.zero_le_half, laws.half_le_one⟩,
          Option.some_ne_none _, Option.some_ne_none _, rfl, rfl, fun _ hf => (nomatch hf)⟩
  | pyConfirm readAt now hs hread hstore ih =>
      have hk := hpy ih hread
      exact Py.stored_sound hstore fun ds hds =>
        ⟨hk.id, hk.version, hds, laws.boost hk.confidence, hk.firstObserved,
          Option.some_ne_none _, hk.tier, hk.supersededBy, hk.flags⟩
  | @pyFlag s k flagged p reason readAt now hs hread hflag hstore ih =>
      have hk := hpy ih hread
      obtain ⟨flag, -, rfl⟩ := Option.map_eq_some_iff.mp hflag
      refine Py.stored_sound hstore fun ds hds =>
        ⟨hk.id, hk.version, hds, laws.penalize hk.confidence, hk.firstObserved,
          hk.lastConfirmed, hk.tier, hk.supersededBy, ?_⟩
      intro m hm
      have hflags : m ∈ k.meaning.flags ++ [flag.meaning] := by
        simpa [Py.KnowledgeUnit.meaning] using hm
      rcases List.mem_append.mp hflags with hold | hnew
      · exact hk.flags m hold
      · rw [List.mem_singleton.mp hnew]
        exact flag.sound

end Written

end EighthLayer.Sdk
