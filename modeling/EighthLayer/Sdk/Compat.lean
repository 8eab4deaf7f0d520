import EighthLayer.Sdk.Written

/-!
# EighthLayer.Sdk.Compat

Each SDK reads the units that the other one stored. Of the units that are written, the other SDK
reads the `Portable` ones as what they say, and no others.
-/

namespace EighthLayer.Sdk

open Lib
open Knowledge (Floats FlagReason)

variable {F : Type} [Floats F] [JsonFloats F]

/-! ## Units that the other SDK reads -/

/-- A flag of Go that says the same in Python: one of the three reasons, texts that are UTF-8, a
time in whole microseconds. -/
structure PortableFlag (f : Go.Flag) : Prop where
  reason : ∃ reason : FlagReason, f.reason = utf8 reason.value
  timestamp : ∀ t ∈ f.timestamp, t.nano % 1000 = 0
  detail : IsUtf8 f.detail
  duplicateOf : IsUtf8 f.duplicateOf

/-- The texts of a unit that come from its caller. -/
def Go.KnowledgeUnit.texts (u : Go.KnowledgeUnit F) : List Bytes :=
  u.insight.summary :: u.insight.detail :: u.insight.action :: u.context.pattern ::
    u.createdBy :: (u.domains.getD [] ++ (u.context.languages.getD [] ++
      u.context.frameworks.getD []))

/-- A unit of Go that says the same in Python: its slices are not nil, its texts are UTF-8, its
times are whole microseconds, and so are its flags. -/
structure PortableUnit (u : Go.KnowledgeUnit F) : Prop where
  languages : u.context.languages ≠ none
  frameworks : u.context.frameworks ≠ none
  flagsList : u.flags ≠ none
  texts : ∀ t ∈ u.texts, IsUtf8 t
  firstObserved : ∀ t ∈ u.evidence.firstObserved, t.nano % 1000 = 0
  lastConfirmed : ∀ t ∈ u.evidence.lastConfirmed, t.nano % 1000 = 0
  flags : ∀ f ∈ u.flags.getD [], PortableFlag f

/-- **Which units the other SDK reads**: of Python's, those whose confirmations Go can count. -/
def Portable : Stored F → Prop
  | .go u => PortableUnit u
  | .py p => -2147483648 ≤ p.evidence.confirmations ∧ p.evidence.confirmations < 2147483648

/-- The other SDK reads the stored unit as what it says, and what it writes of it is read by the
first as what it said. -/
def ReadByTheOther (now : Py.Datetime) : Stored F → Prop
  | .go u => ∃ p, Py.KnowledgeUnit.modelValidateJson now u.marshal = some p ∧
      p.meaning = u.meaning ∧
      ∃ u' : Go.KnowledgeUnit F, Go.KnowledgeUnit.unmarshal p.modelDumpJson = some u' ∧
        u'.meaning = u.meaning
  | .py p => ∃ u : Go.KnowledgeUnit F, Go.KnowledgeUnit.unmarshal p.modelDumpJson = some u ∧
      u.meaning = p.meaning ∧
      ∃ p', Py.KnowledgeUnit.modelValidateJson now u.marshal = some p' ∧ p'.meaning = p.meaning

/-! ### Field by field -/

theorem optionalBytes_nonEmptyText_iff {t : Bytes} :
    optionalBytes (Go.nonEmptyText t) = t ↔ IsUtf8 t := by
  unfold Go.nonEmptyText
  by_cases h : t = []
  · rw [if_pos h, h]
    exact iff_of_true rfl (isUtf8_utf8 "")
  · rw [if_neg h]
    rfl

/-- A time of Go as Python reads it. -/
theorem Py.readDatetime_nanoText (t : Timestamp) :
    Py.readDatetime t.nanoText = some (Py.Datetime.ofTimestamp t) := by
  rw [Py.readDatetime, Timestamp.read_nanoText, Option.map_some]

/-- A time of Python as Go reads it. -/
theorem Py.read_microText (d : Py.Datetime) : Timestamp.read d.val.microText = some d.val := by
  rw [Timestamp.read_microText, Timestamp.truncated_eq_self d.property]

theorem Py.instant_ofTimestamp_iff {t : Timestamp} :
    (Py.Datetime.ofTimestamp t).val.instant = t.instant ↔ t.nano % 1000 = 0 :=
  t.instant_truncated_iff

/-! ### Python reads Go -/

theorem Py.Flag.read_go_iff (now : Py.Datetime) {f : Go.Flag} (hf : f.meaning.Sound) :
    (∃ g, Py.Flag.ofDocument now f.document = some g ∧ g.meaning = f.meaning) ↔
      PortableFlag f := by
  obtain ⟨t, ht⟩ := Option.ne_none_iff_exists'.mp
    (show f.timestamp ≠ none by simpa [Go.Flag.meaning] using hf.instant)
  have htime : f.document.timestamp.elim (some now) Py.readDatetime =
      some (Py.Datetime.ofTimestamp t) := by
    show (f.timestamp.map Timestamp.nanoText).elim (some now) Py.readDatetime = _
    rw [ht, Option.map_some, Option.elim_some, Py.readDatetime_nanoText]
  constructor
  · rintro ⟨g, hread, hsaid⟩
    obtain ⟨reason, hreason, h⟩ := Option.bind_eq_some_iff.mp hread
    rw [htime] at h
    obtain ⟨valid, h⟩ := Option.dite_none_right_eq_some.mp h
    cases h
    obtain ⟨hreasons, htimes, hdetails, hduplicates⟩ := FlagMeaning.mk.inj hsaid
    rw [ht] at htimes
    refine ⟨⟨reason, hreasons.symm⟩, ?_, optionalBytes_nonEmptyText_iff.mp hdetails,
      optionalBytes_nonEmptyText_iff.mp hduplicates⟩
    intro t' ht'
    rw [ht, Option.mem_some_iff] at ht'
    rw [← ht']
    exact Py.instant_ofTimestamp_iff.mp (Option.some.inj htimes)
  · intro hportable
    obtain ⟨reason, hreason⟩ := hportable.reason
    have hvalue : FlagReason.ofValue f.document.reason = some reason := by
      show FlagReason.ofValue (lossyText f.reason) = _
      rw [hreason, lossyText_utf8, FlagReason.ofValue_value]
    have hvalid : reason = .duplicate → truthy f.document.duplicateOf = true := by
      rintro rfl
      exact optionalBytes_ne_nil_iff.mp (optionalBytes_nonEmptyText_ne_nil (hf.named hreason))
    refine ⟨⟨reason, Py.Datetime.ofTimestamp t, f.document.detail, f.document.duplicateOf,
      hvalid⟩, ?_, ?_⟩
    · show (FlagReason.ofValue f.document.reason).bind (fun reason =>
        (f.document.timestamp.elim (some now) Py.readDatetime).bind _) = _
      rw [hvalue, htime]
      exact dif_pos hvalid
    · have hinstant := Py.instant_ofTimestamp_iff.mpr (hportable.timestamp t ht)
      show FlagMeaning.mk _ _ _ _ = FlagMeaning.mk _ _ _ _
      rw [hreason, ht, hinstant]
      congr 1
      · exact optionalBytes_nonEmptyText_iff.mpr hportable.detail
      · exact optionalBytes_nonEmptyText_iff.mpr hportable.duplicateOf

/-- The flags of a unit of Go as Python reads them. -/
theorem Py.flags_read_go_iff (now : Py.Datetime) {flags : Option (List Go.Flag)}
    (hflags : ∀ f ∈ flags.getD [], f.meaning.Sound) :
    (∃ gs, (flags.map (List.map Go.Flag.document)).bind
        (fun fs => fs.mapM (Py.Flag.ofDocument now)) = some gs ∧
      gs.map Py.Flag.meaning = (flags.getD []).map Go.Flag.meaning) ↔
      flags ≠ none ∧ ∀ f ∈ flags.getD [], PortableFlag f := by
  cases flags with
  | none => simp
  | some fs =>
      simp only [Option.map_some, Option.bind_some, List.mapM_map, Option.getD_some]
      refine List.mapM_map_iff.trans ?_
      simp only [ne_eq, reduceCtorEq, not_false_eq_true, true_and]
      exact forall₂_congr fun f hf => Py.Flag.read_go_iff now (hflags f hf)

omit [Floats F] [JsonFloats F] in
theorem Go.KnowledgeUnit.texts_iff {u : Go.KnowledgeUnit F} :
    (∀ t ∈ u.texts, IsUtf8 t) ↔
      IsUtf8 u.insight.summary ∧ IsUtf8 u.insight.detail ∧ IsUtf8 u.insight.action ∧
        IsUtf8 u.context.pattern ∧ IsUtf8 u.createdBy ∧ (∀ t ∈ u.domains.getD [], IsUtf8 t) ∧
        (∀ t ∈ u.context.languages.getD [], IsUtf8 t) ∧
        ∀ t ∈ u.context.frameworks.getD [], IsUtf8 t := by
  simp only [Go.KnowledgeUnit.texts, List.forall_mem_cons, List.forall_mem_append]

/-- **What Python reads of Go's units.** -/
theorem Py.read_go_iff (now : Py.Datetime) {u : Go.KnowledgeUnit F} (hu : u.meaning.Sound) :
    (∃ p : Py.KnowledgeUnit F, Py.KnowledgeUnit.ofDocument now u.document = some p ∧
      p.meaning = u.meaning) ↔ PortableUnit u := by
  have hdoc := Go.document_sound hu
  obtain ⟨uuid, huuid, hid⟩ := hdoc.id
  obtain ⟨hsome, hnil⟩ := hdoc.domains
  obtain ⟨ds, hds⟩ := Option.ne_none_iff_exists'.mp
    (show u.domains ≠ none by simpa [Go.KnowledgeUnit.document] using hsome)
  obtain ⟨first, hfirst⟩ := Option.ne_none_iff_exists'.mp
    (show u.evidence.firstObserved ≠ none by
      simpa [Go.KnowledgeUnit.meaning] using hu.firstObserved)
  obtain ⟨last, hlast⟩ := Option.ne_none_iff_exists'.mp
    (show u.evidence.lastConfirmed ≠ none by
      simpa [Go.KnowledgeUnit.meaning] using hu.lastConfirmed)
  have hsound : ∀ f ∈ u.flags.getD [], f.meaning.Sound := fun f hf =>
    hu.flags f.meaning (List.mem_map_of_mem hf)
  have hflags := Py.flags_read_go_iff now hsound
  have hevidence : Py.Evidence.ofDocument now u.document.evidence =
      some ⟨u.evidence.confidence, u.evidence.confirmations.toInt,
        some (Py.Datetime.ofTimestamp first), some (Py.Datetime.ofTimestamp last)⟩ := by
    show (JsonFloats.value (JsonFloats.goText u.evidence.confidence)).bind _ = _
    rw [JsonFloats.value_goText, Option.bind_some]
    show ((u.evidence.firstObserved.map Timestamp.nanoText).mapM Py.readDatetime).bind (fun _ =>
      ((u.evidence.lastConfirmed.map Timestamp.nanoText).mapM Py.readDatetime).bind _) = _
    rw [hfirst, hlast, Option.map_some, Option.map_some, Option.mapM_some, Option.mapM_some,
      Py.readDatetime_nanoText, Py.readDatetime_nanoText]
    exact if_pos hu.confidence
  have htier : Knowledge.Tier.ofValue u.document.tier = some .local := by
    rw [hdoc.tier, Knowledge.Tier.ofValue_value]
  have hdomains : u.document.domains = some (ds.map lossyText) := by
    show u.domains.map (List.map lossyText) = _
    rw [hds, Option.map_some]
  have hsuperseded : u.document.supersededBy = none := by
    show Go.nonEmptyText u.supersededBy = none
    rw [show u.supersededBy = [] from hu.supersededBy]
    rfl
  have hvalid : Py.idMatches u.document.id = true ∧ ds.map lossyText ≠ [] ∧
      u.document.supersededBy.all Py.idMatches = true := by
    refine ⟨hid ▸ Py.idMatches_generateKuId huuid, ?_, by rw [hsuperseded]; rfl⟩
    rw [hdomains] at hnil
    exact fun h => hnil (congrArg some h)
  constructor
  · rintro ⟨p, hread, hsaid⟩
    obtain ⟨domains, hdomains', h⟩ := Option.bind_eq_some_iff.mp hread
    obtain ⟨context, hcontext, h⟩ := Option.bind_eq_some_iff.mp h
    obtain ⟨evidence, hevidence', h⟩ := Option.bind_eq_some_iff.mp h
    obtain ⟨tier, htier', h⟩ := Option.bind_eq_some_iff.mp h
    obtain ⟨gs, hgs, h⟩ := Option.bind_eq_some_iff.mp h
    obtain ⟨-, h⟩ := Option.ite_none_right_eq_some.mp h
    obtain ⟨languages, hlanguages, hcontext⟩ := Option.bind_eq_some_iff.mp hcontext
    obtain ⟨frameworks, hframeworks, hcontext⟩ := Option.bind_eq_some_iff.mp hcontext
    obtain ⟨ls, hls, rfl⟩ := Option.map_eq_some_iff.mp hlanguages
    obtain ⟨fs, hfs, rfl⟩ := Option.map_eq_some_iff.mp hframeworks
    rw [hdomains] at hdomains'
    rw [hevidence] at hevidence'
    cases hdomains'
    cases hevidence'
    cases hcontext
    cases h
    have hportable := hflags.mp ⟨gs, hgs, congrArg Meaning.flags hsaid⟩
    refine ⟨by rw [hls]; exact Option.some_ne_none _, by rw [hfs]; exact Option.some_ne_none _,
      hportable.1, ?_, ?_, ?_, hportable.2⟩
    · rw [Go.KnowledgeUnit.texts_iff]
      refine ⟨congrArg Meaning.summary hsaid, congrArg Meaning.detail hsaid,
        congrArg Meaning.action hsaid, congrArg Meaning.pattern hsaid,
        congrArg Meaning.createdBy hsaid, ?_, ?_, ?_⟩
      · rw [← map_utf8_iff, hds]
        exact (congrArg Meaning.domains hsaid).trans (by
          rw [show u.meaning.domains = u.domains.getD [] from rfl, hds])
      · rw [← map_utf8_iff, hls]
        exact (congrArg Meaning.languages hsaid).trans (by
          rw [show u.meaning.languages = u.context.languages.getD [] from rfl, hls])
      · rw [← map_utf8_iff, hfs]
        exact (congrArg Meaning.frameworks hsaid).trans (by
          rw [show u.meaning.frameworks = u.context.frameworks.getD [] from rfl, hfs])
    · intro t ht
      rw [hfirst, Option.mem_some_iff] at ht
      have hinstant := congrArg Meaning.firstObserved hsaid
      rw [show u.meaning.firstObserved = u.evidence.firstObserved.map Timestamp.instant from rfl,
        hfirst] at hinstant
      exact ht ▸ Py.instant_ofTimestamp_iff.mp (Option.some.inj hinstant)
    · intro t ht
      rw [hlast, Option.mem_some_iff] at ht
      have hinstant := congrArg Meaning.lastConfirmed hsaid
      rw [show u.meaning.lastConfirmed = u.evidence.lastConfirmed.map Timestamp.instant from rfl,
        hlast] at hinstant
      exact ht ▸ Py.instant_ofTimestamp_iff.mp (Option.some.inj hinstant)
  · intro hportable
    obtain ⟨gs, hgs, hsaid⟩ := hflags.mpr ⟨hportable.flagsList, hportable.flags⟩
    obtain ⟨ls, hls⟩ := Option.ne_none_iff_exists'.mp hportable.languages
    obtain ⟨fs, hfs⟩ := Option.ne_none_iff_exists'.mp hportable.frameworks
    have hcontext : Py.contextOfDocument u.document.context =
        some ⟨ls.map lossyText, fs.map lossyText, lossyText u.context.pattern⟩ := by
      show (u.context.languages.map (List.map lossyText)).bind (fun _ =>
        (u.context.frameworks.map (List.map lossyText)).bind _) = _
      rw [hls, hfs]
      rfl
    obtain ⟨hsummary, hdetail, haction, hpattern, hcreated, hdomain, hlanguage, hframework⟩ :=
      Go.KnowledgeUnit.texts_iff.mp hportable.texts
    rw [hds, Option.getD_some, ← map_utf8_iff] at hdomain
    rw [hls, Option.getD_some, ← map_utf8_iff] at hlanguage
    rw [hfs, Option.getD_some, ← map_utf8_iff] at hframework
    refine ⟨⟨u.document.id, u.document.version, ds.map lossyText, u.document.insight,
      ⟨ls.map lossyText, fs.map lossyText, lossyText u.context.pattern⟩,
      ⟨u.evidence.confidence, u.evidence.confirmations.toInt,
        some (Py.Datetime.ofTimestamp first), some (Py.Datetime.ofTimestamp last)⟩, .local,
      u.document.createdBy, u.document.supersededBy, gs⟩, ?_, ?_⟩
    · unfold Py.KnowledgeUnit.ofDocument
      rw [hdomains, hcontext, hevidence, htier]
      show (u.document.flags.bind _).bind _ = _
      rw [show u.document.flags = u.flags.map (List.map Go.Flag.document) from rfl, hgs]
      exact if_pos hvalid
    · have hidBytes : utf8 u.document.id = u.id := by
        obtain ⟨uuid', -, hid'⟩ := hu.id
        show utf8 (lossyText u.id) = u.id
        rw [show u.id = _ from hid']
        exact isUtf8_utf8 _
      have htierBytes : utf8 Knowledge.Tier.local.value = u.tier := hu.tier.symm
      have hsupersededBytes : optionalBytes u.document.supersededBy = u.supersededBy := by
        rw [hsuperseded]
        exact hu.supersededBy.symm
      have hfirst' := Py.instant_ofTimestamp_iff.mpr (hportable.firstObserved first hfirst)
      have hlast' := Py.instant_ofTimestamp_iff.mpr (hportable.lastConfirmed last hlast)
      simp only [Py.KnowledgeUnit.meaning, Go.KnowledgeUnit.meaning, Meaning.mk.injEq, hds, hls,
        hfs, hfirst, hlast, Option.map_some, Option.getD_some, hfirst', hlast', hidBytes,
        htierBytes, hsupersededBytes, hdomain, hlanguage, hframework, hsaid, true_and, and_true]
      exact ⟨rfl, hsummary, hdetail, haction, hpattern, hcreated⟩

/-! ### Go reads Python -/

theorem isUtf8_optionalBytes (s : Option String) : IsUtf8 (optionalBytes s) := by
  cases s with
  | none => exact isUtf8_utf8 ""
  | some s => exact isUtf8_utf8 s

theorem isUtf8_of_mem_map {ss : List String} {t : Bytes} (h : t ∈ ss.map utf8) : IsUtf8 t := by
  obtain ⟨s, -, rfl⟩ := List.mem_map.mp h
  exact isUtf8_utf8 s

/-- A flag of Python as Go has it. -/
def Py.Flag.toGo (f : Py.Flag) : Go.Flag :=
  ⟨utf8 f.reason.value, some f.timestamp.val, optionalBytes f.detail, optionalBytes f.duplicateOf⟩

theorem Go.Flag.read_py (f : Py.Flag) : Go.Flag.ofDocument f.document = some f.toGo := by
  unfold Go.Flag.ofDocument
  show ((some f.timestamp.val.microText).mapM Timestamp.read).map _ = _
  rw [Option.mapM_some, Py.read_microText]
  rfl

theorem Py.Flag.portable_toGo (f : Py.Flag) : PortableFlag f.toGo where
  reason := ⟨f.reason, rfl⟩
  timestamp := by
    intro t ht
    rw [← Option.mem_some_iff.mp ht]
    exact f.timestamp.property
  detail := isUtf8_optionalBytes _
  duplicateOf := isUtf8_optionalBytes _

/-- A unit of Python as Go has it, its version and its confirmations being these. -/
def Py.KnowledgeUnit.toGo (p : Py.KnowledgeUnit F) (version confirmations : Int32) :
    Go.KnowledgeUnit F where
  id := utf8 p.id
  version
  domains := some (p.domains.map utf8)
  insight := ⟨utf8 p.insight.summary, utf8 p.insight.detail, utf8 p.insight.action⟩
  context := ⟨some (p.context.languages.map utf8), some (p.context.frameworks.map utf8),
    utf8 p.context.pattern⟩
  evidence := ⟨p.evidence.confidence, confirmations, p.evidence.firstObserved.map Subtype.val,
    p.evidence.lastConfirmed.map Subtype.val⟩
  tier := utf8 p.tier.value
  createdBy := utf8 p.createdBy
  supersededBy := optionalBytes p.supersededBy
  flags := some (p.flags.map Py.Flag.toGo)

omit [Floats F] in
/-- **What Go reads of Python's units.** -/
theorem Go.read_py (p : Py.KnowledgeUnit F) :
    Go.KnowledgeUnit.ofDocument p.document = (toInt32 p.version).bind fun version =>
      (toInt32 p.evidence.confirmations).map fun confirmations => p.toGo version confirmations := by
  have htime : ∀ d : Option Py.Datetime,
      (d.map fun d => d.val.microText).mapM Timestamp.read = some (d.map Subtype.val) := by
    intro d
    cases d with
    | none => rfl
    | some d =>
        rw [Option.map_some, Option.mapM_some, Py.read_microText]
        rfl
  have hflags : (p.document.flags.mapM fun flags => flags.mapM Go.Flag.ofDocument) =
      some (some (p.flags.map Py.Flag.toGo)) := by
    show ((p.flags.map Py.Flag.document).mapM Go.Flag.ofDocument).map some = _
    rw [List.mapM_map]
    simp only [Function.comp_def, Go.Flag.read_py]
    rw [List.mapM_total, Option.map_some]
  have hevidence : Go.Evidence.ofDocument p.document.evidence =
      (toInt32 p.evidence.confirmations).map fun confirmations =>
        (p.toGo 0 confirmations).evidence := by
    show (JsonFloats.value (JsonFloats.pyText p.evidence.confidence)).bind _ = _
    rw [JsonFloats.value_pyText, Option.bind_some]
    show (toInt32 p.evidence.confirmations).bind (fun _ =>
      ((p.evidence.firstObserved.map fun d => d.val.microText).mapM Timestamp.read).bind fun _ =>
      ((p.evidence.lastConfirmed.map fun d => d.val.microText).mapM Timestamp.read).bind _) = _
    rw [htime, htime]
    cases toInt32 p.evidence.confirmations with
    | none => rfl
    | some n => rfl
  unfold Go.KnowledgeUnit.ofDocument
  rw [hevidence, hflags]
  show (toInt32 p.version).bind _ = _
  cases toInt32 p.version with
  | none => rfl
  | some version =>
      cases toInt32 p.evidence.confirmations with
      | none => rfl
      | some n => rfl

omit [Floats F] [JsonFloats F] in
theorem Py.KnowledgeUnit.meaning_toGo {p : Py.KnowledgeUnit F} {version confirmations : Int32}
    (hversion : version.toInt = p.version)
    (hconfirmations : confirmations.toInt = p.evidence.confirmations) :
    (p.toGo version confirmations).meaning = p.meaning := by
  have htime : ∀ d : Option Py.Datetime,
      (d.map Subtype.val).map Timestamp.instant = d.map fun d => d.val.instant := by
    intro d
    rw [Option.map_map]
    rfl
  have hflags : (p.flags.map Py.Flag.toGo).map Go.Flag.meaning = p.flags.map Py.Flag.meaning := by
    rw [List.map_map]
    rfl
  simp only [Go.KnowledgeUnit.meaning, Py.KnowledgeUnit.meaning, Py.KnowledgeUnit.toGo, hversion,
    hconfirmations, htime, hflags, Option.getD_some]

omit [Floats F] [JsonFloats F] in
theorem Py.KnowledgeUnit.portable_toGo (p : Py.KnowledgeUnit F) (version confirmations : Int32) :
    PortableUnit (p.toGo version confirmations) where
  languages := Option.some_ne_none _
  frameworks := Option.some_ne_none _
  flagsList := Option.some_ne_none _
  texts := by
    rw [Go.KnowledgeUnit.texts_iff]
    exact ⟨isUtf8_utf8 _, isUtf8_utf8 _, isUtf8_utf8 _, isUtf8_utf8 _, isUtf8_utf8 _,
      fun _ => isUtf8_of_mem_map, fun _ => isUtf8_of_mem_map, fun _ => isUtf8_of_mem_map⟩
  firstObserved := by
    intro t ht
    obtain ⟨d, -, rfl⟩ := Option.map_eq_some_iff.mp ht
    exact d.property
  lastConfirmed := by
    intro t ht
    obtain ⟨d, -, rfl⟩ := Option.map_eq_some_iff.mp ht
    exact d.property
  flags := by
    intro f hf
    obtain ⟨g, -, rfl⟩ := List.mem_map.mp hf
    exact g.portable_toGo

theorem Go.toInt32_isSome_iff {n : Int} :
    (∃ i, toInt32 n = some i) ↔ -2147483648 ≤ n ∧ n < 2147483648 := by
  unfold toInt32
  constructor
  · rintro ⟨i, h⟩
    exact (Option.ite_none_right_eq_some.mp h).1
  · intro h
    exact ⟨_, if_pos h⟩

/-! ## Both ways -/

/-- A portable unit of Go comes back from Python. -/
theorem read_go_iff (now : Py.Datetime) {u : Go.KnowledgeUnit F} (hu : u.meaning.Sound) :
    ReadByTheOther now (.go u) ↔ PortableUnit u := by
  rw [← Py.read_go_iff now hu]
  constructor
  · rintro ⟨p, hread, hsaid, -⟩
    rw [u.marshal_eq, Py.KnowledgeUnit.modelValidateJson_json] at hread
    exact ⟨p, hread, hsaid⟩
  · rintro ⟨p, hread, hsaid⟩
    have hversion : u.version.toInt = p.version := (congrArg Meaning.version hsaid).symm
    have hconfirmations : u.evidence.confirmations.toInt = p.evidence.confirmations :=
      (congrArg Meaning.confirmations hsaid).symm
    refine ⟨p, ?_, hsaid, p.toGo u.version u.evidence.confirmations, ?_, ?_⟩
    · rw [u.marshal_eq, Py.KnowledgeUnit.modelValidateJson_json, hread]
    · rw [p.modelDumpJson_eq, Go.KnowledgeUnit.unmarshal_json, Go.read_py,
        Go.toInt32_eq_some_iff.mpr hversion, Go.toInt32_eq_some_iff.mpr hconfirmations]
      rfl
    · exact (Py.KnowledgeUnit.meaning_toGo hversion hconfirmations).trans hsaid

/-- A unit of Python comes back from Go if Go can count its confirmations. -/
theorem read_py_iff (now : Py.Datetime) {p : Py.KnowledgeUnit F} (hp : p.meaning.Sound) :
    ReadByTheOther now (.py p) ↔ Portable (.py p) := by
  constructor
  · rintro ⟨u, hread, -⟩
    rw [p.modelDumpJson_eq, Go.KnowledgeUnit.unmarshal_json, Go.read_py] at hread
    obtain ⟨version, -, h⟩ := Option.bind_eq_some_iff.mp hread
    obtain ⟨confirmations, hconfirmations, -⟩ := Option.map_eq_some_iff.mp h
    exact Go.toInt32_isSome_iff.mp ⟨confirmations, hconfirmations⟩
  · intro hportable
    obtain ⟨confirmations, hconfirmations⟩ := Go.toInt32_isSome_iff.mpr hportable
    have hone : p.version = 1 := hp.version
    have hversion : Go.toInt32 p.version = some 1 := by
      rw [hone]
      decide
    have hsaid := Py.KnowledgeUnit.meaning_toGo (Go.toInt32_eq_some_iff.mp hversion)
      (Go.toInt32_eq_some_iff.mp hconfirmations)
    obtain ⟨p', hread, hsaid'⟩ := (Py.read_go_iff now (hsaid ▸ hp)).mpr
      (p.portable_toGo 1 confirmations)
    refine ⟨p.toGo 1 confirmations, ?_, hsaid, p', ?_, hsaid'.trans hsaid⟩
    · rw [p.modelDumpJson_eq, Go.KnowledgeUnit.unmarshal_json, Go.read_py, hversion,
        hconfirmations]
      rfl
    · rw [(p.toGo 1 confirmations).marshal_eq, Py.KnowledgeUnit.modelValidateJson_json, hread]

/-- **Which stored units the other SDK reads**, of all that the two write: the portable ones. -/
theorem read_by_the_other_iff [Go.Strings] [Knowledge.Casing] (laws : FloatLaws F)
    {s : Stored F} (hs : Written s) (now : Py.Datetime) :
    ReadByTheOther now s ↔ Portable s := by
  have hsound := hs.sound laws
  cases s with
  | go u => exact read_go_iff now hsound
  | py p => exact read_py_iff now hsound

/-! ## A unit that Go proposes -/

section

theorem decimal_laws : FloatLaws Decimal where
  zero_le_half := by decide
  half_le_one := by decide
  zero_le_add := fun c _ => Nat.zero_le _
  sub_le_one := fun c h => (Nat.sub_le _ _).trans h

local instance compatStrings : Go.Strings := Go.asciiStrings

local instance compatCasing : Knowledge.Casing := Knowledge.asciiCasing

/-- A time in whole microseconds. -/
theorem quarter_micros : 250000000 % 1000 = 0 := by decide

def sampleTime : Py.Datetime :=
  ⟨⟨⟨⟨2026, 5, 1, Written.year_ge, Written.year_le, Written.may_ge, Written.may_le,
      Written.first_ge, Written.may_first_le⟩, 9, 30, 0,
    Written.hour_nine, Written.sixtieth_thirty, Written.sixtieth_zero⟩, 250000000, 0,
    Written.nano_quarter, Written.zone_zero⟩, quarter_micros⟩

def sampleUuid : Bytes := List.replicate 16 0xAB

/-- What a caller of `Propose` gives, no list nil. -/
def sampleParams : Go.ProposeParams where
  summary := utf8 "Retry on 429"
  detail := utf8 "The API throttles"
  action := utf8 "Back off"
  domains := some [utf8 "API "]
  languages := some [utf8 "go"]
  frameworks := some []
  pattern := []
  createdBy := utf8 "agent-go"

/-- The unit that Go stores. -/
def goProposal : Go.KnowledgeUnit Decimal :=
  { Go.proposed sampleParams sampleUuid sampleTime.val with domains := some [utf8 "api"] }

theorem goProposal_written : Written (.go goProposal) :=
  .goPropose sampleParams sampleUuid sampleTime.val (by decide) (by decide +kernel)

/-- Python reads no unit that Go has proposed: its flags are `null`. -/
theorem go_proposal_unread : Written (.go goProposal) ∧
    ∀ now, ¬ ReadByTheOther now (.go goProposal) := by
  refine ⟨goProposal_written, fun now hread => ?_⟩
  have hsound : goProposal.meaning.Sound := goProposal_written.sound decimal_laws
  exact ((read_go_iff now hsound).mp hread).flagsList rfl

/-- The unit that Python stores of the same. -/
def pyProposal : Py.KnowledgeUnit Decimal where
  id := Py.generateKuId sampleUuid
  version := 1
  domains := ["api"]
  insight := ⟨"Retry on 429", "The API throttles", "Back off"⟩
  context := ⟨["python"], [], ""⟩
  evidence := ⟨0.5, 1, some sampleTime, some sampleTime⟩
  tier := .local
  createdBy := "agent-python"
  supersededBy := none
  flags := []

theorem pyProposal_written : Written (.py pyProposal) :=
  .pyPropose ["API "] ⟨"Retry on 429", "The API throttles", "Back off"⟩ ⟨["python"], [], ""⟩
    "agent-python" sampleUuid sampleTime (by decide) rfl (by decide +kernel)

theorem py_proposal_read : ReadByTheOther sampleTime (.py pyProposal) :=
  (read_by_the_other_iff decimal_laws pyProposal_written sampleTime).mpr
    ⟨show (-2147483648 : Int) ≤ 1 by decide, show (1 : Int) < 2147483648 by decide⟩

end

end EighthLayer.Sdk
