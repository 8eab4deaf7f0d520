import EighthLayer.Sdk.PyUnit

/-!
# EighthLayer.Sdk.Document

The documents of knowledge units. The two SDKs write the same fields under the same keys; they
differ in what stands there and in what they accept. A `Document` is what stands in the fields:
each SDK writes one (`document`) and makes a unit of one (`ofDocument`), and going by way of the
JSON text comes to the same.
-/

namespace EighthLayer.Sdk

open Lib
open Knowledge (Floats)

/-! ## Documents -/

/-- The fields of a flag. -/
structure FlagDocument where
  reason : String
  timestamp : Option String
  detail : Option String
  duplicateOf : Option String

/-- The fields of a context; `none` is `null`. -/
structure ContextDocument where
  languages : Option (List String)
  frameworks : Option (List String)
  pattern : String

/-- The fields of the evidence. -/
structure EvidenceDocument where
  confidence : NumText
  confirmations : Int
  firstObserved : Option String
  lastConfirmed : Option String

/-- The fields of a unit. -/
structure Document where
  id : String
  version : Int
  domains : Option (List String)
  insight : Knowledge.Insight
  context : ContextDocument
  evidence : EvidenceDocument
  tier : String
  createdBy : String
  supersededBy : Option String
  flags : Option (List FlagDocument)

/-- A list, or `null`. -/
def listOrNull {α : Type} (write : α → Json) : Option (List α) → Json
  | none => .null
  | some xs => .arr (xs.map write)

def FlagDocument.members (f : FlagDocument) : Json.Members :=
  ("reason", .str f.reason) :: (Json.member "timestamp" (f.timestamp.map Json.str) ++
    (Json.member "detail" (f.detail.map Json.str) ++
      Json.member "duplicate_of" (f.duplicateOf.map Json.str)))

def FlagDocument.json (f : FlagDocument) : Json := .obj f.members

def ContextDocument.members (c : ContextDocument) : Json.Members :=
  [("languages", listOrNull Json.str c.languages),
    ("frameworks", listOrNull Json.str c.frameworks), ("pattern", .str c.pattern)]

def EvidenceDocument.members (e : EvidenceDocument) : Json.Members :=
  ("confidence", .num e.confidence) :: ("confirmations", .num (.ofInt e.confirmations)) ::
    (Json.member "first_observed" (e.firstObserved.map Json.str) ++
      Json.member "last_confirmed" (e.lastConfirmed.map Json.str))

def Document.members (d : Document) : Json.Members :=
  ("id", .str d.id) :: ("version", .num (.ofInt d.version)) ::
    ("domains", listOrNull Json.str d.domains) :: ("insight", Py.dumpInsight d.insight) ::
    ("context", .obj d.context.members) :: ("evidence", .obj d.evidence.members) ::
    ("tier", .str d.tier) :: ("created_by", .str d.createdBy) ::
    (Json.member "superseded_by" (d.supersededBy.map Json.str) ++
      [("flags", listOrNull FlagDocument.json d.flags)])

def Document.json (d : Document) : Json := .obj d.members

/-! ## Writing -/

namespace Go

/-- The text of `omitempty`. -/
def nonEmptyText (t : Text) : Option String := if t = [] then none else some (lossyText t)

def Flag.document (f : Flag) : FlagDocument where
  reason := lossyText f.reason
  timestamp := f.timestamp.map Timestamp.nanoText
  detail := nonEmptyText f.detail
  duplicateOf := nonEmptyText f.duplicateOf

def Insight.document (i : Insight) : Knowledge.Insight :=
  ⟨lossyText i.summary, lossyText i.detail, lossyText i.action⟩

def Context.document (c : Context) : ContextDocument :=
  ⟨c.languages.map (List.map lossyText), c.frameworks.map (List.map lossyText),
    lossyText c.pattern⟩

variable {F : Type} [JsonFloats F]

def Evidence.document (e : Evidence F) : EvidenceDocument where
  confidence := JsonFloats.goText e.confidence
  confirmations := e.confirmations.toInt
  firstObserved := e.firstObserved.map Timestamp.nanoText
  lastConfirmed := e.lastConfirmed.map Timestamp.nanoText

def KnowledgeUnit.document (ku : KnowledgeUnit F) : Document where
  id := lossyText ku.id
  version := ku.version.toInt
  domains := ku.domains.map (List.map lossyText)
  insight := ku.insight.document
  context := ku.context.document
  evidence := ku.evidence.document
  tier := lossyText ku.tier
  createdBy := lossyText ku.createdBy
  supersededBy := nonEmptyText ku.supersededBy
  flags := ku.flags.map (List.map Flag.document)

theorem nonEmpty_eq (t : Text) : nonEmpty t = (nonEmptyText t).map Json.str := by
  unfold nonEmpty nonEmptyText
  by_cases h : t = []
  · rw [if_pos h, if_pos h]
    rfl
  · rw [if_neg h, if_neg h]
    rfl

theorem slice_eq {α β : Type} {write : α → Json} {doc : α → β} {write' : β → Json}
    (h : ∀ x, write x = write' (doc x)) (xs : Option (List α)) :
    slice write xs = listOrNull write' (xs.map (List.map doc)) := by
  cases xs with
  | none => rfl
  | some xs =>
      simp only [slice, listOrNull, Option.map_some, List.map_map, Json.arr.injEq]
      exact List.map_congr_left fun x _ => h x

theorem Flag.marshal_eq (f : Flag) : f.marshal = f.document.json := by
  simp only [Flag.marshal, nonEmpty_eq, FlagDocument.json, FlagDocument.members, Flag.document,
    Option.map_map]
  rfl

/-- What `encoding/json` writes is the document of the unit. -/
theorem KnowledgeUnit.marshal_eq (ku : KnowledgeUnit F) : ku.marshal = ku.document.json := by
  have htexts : ∀ xs : Option (List Text),
      slice text xs = listOrNull Json.str (xs.map (List.map lossyText)) :=
    slice_eq fun _ => rfl
  simp only [KnowledgeUnit.marshal, nonEmpty_eq, htexts, slice_eq Flag.marshal_eq,
    Context.marshal, Evidence.marshal, Document.json, Document.members, KnowledgeUnit.document,
    Context.document, ContextDocument.members, Evidence.document, EvidenceDocument.members,
    Option.map_map]
  rfl

end Go

namespace Py

def Flag.document (f : Flag) : FlagDocument where
  reason := f.reason.value
  timestamp := some f.timestamp.val.microText
  detail := f.detail
  duplicateOf := f.duplicateOf

def contextDocument (c : Knowledge.Context) : ContextDocument :=
  ⟨some c.languages, some c.frameworks, c.pattern⟩

variable {F : Type} [JsonFloats F]

def Evidence.document (e : Evidence F) : EvidenceDocument where
  confidence := JsonFloats.pyText e.confidence
  confirmations := e.confirmations
  firstObserved := e.firstObserved.map fun d => d.val.microText
  lastConfirmed := e.lastConfirmed.map fun d => d.val.microText

def KnowledgeUnit.document (unit : KnowledgeUnit F) : Document where
  id := unit.id
  version := unit.version
  domains := some unit.domains
  insight := unit.insight
  context := contextDocument unit.context
  evidence := unit.evidence.document
  tier := unit.tier.value
  createdBy := unit.createdBy
  supersededBy := unit.supersededBy
  flags := some (unit.flags.map Flag.document)

/-- What pydantic writes is the document of the unit. -/
theorem KnowledgeUnit.modelDumpJson_eq (unit : KnowledgeUnit F) :
    unit.modelDumpJson = unit.document.json := by
  simp only [KnowledgeUnit.modelDumpJson, Evidence.dump, Document.json, Document.members,
    KnowledgeUnit.document, contextDocument, ContextDocument.members, Evidence.document,
    EvidenceDocument.members, listOrNull, Option.map_map, List.map_map]
  rfl

end Py

/-! ## Where a field stands -/

theorem FlagDocument.lookup_members (f : FlagDocument) :
    f.members.lookup "reason" = some (.str f.reason) ∧
    f.members.lookup "timestamp" = f.timestamp.map Json.str ∧
    f.members.lookup "detail" = f.detail.map Json.str ∧
    f.members.lookup "duplicate_of" = f.duplicateOf.map Json.str := by
  simp [members, List.lookup_cons, List.lookup_append]

theorem ContextDocument.lookup_members (c : ContextDocument) :
    c.members.lookup "languages" = some (listOrNull Json.str c.languages) ∧
    c.members.lookup "frameworks" = some (listOrNull Json.str c.frameworks) ∧
    c.members.lookup "pattern" = some (.str c.pattern) := by
  simp [members, List.lookup_cons]

theorem EvidenceDocument.lookup_members (e : EvidenceDocument) :
    e.members.lookup "confidence" = some (.num e.confidence) ∧
    e.members.lookup "confirmations" = some (.num (.ofInt e.confirmations)) ∧
    e.members.lookup "first_observed" = e.firstObserved.map Json.str ∧
    e.members.lookup "last_confirmed" = e.lastConfirmed.map Json.str := by
  simp [members, List.lookup_cons, List.lookup_append]

theorem Document.lookup_members (d : Document) :
    d.members.lookup "id" = some (.str d.id) ∧
    d.members.lookup "version" = some (.num (.ofInt d.version)) ∧
    d.members.lookup "domains" = some (listOrNull Json.str d.domains) ∧
    d.members.lookup "insight" = some (Py.dumpInsight d.insight) ∧
    d.members.lookup "context" = some (.obj d.context.members) ∧
    d.members.lookup "evidence" = some (.obj d.evidence.members) ∧
    d.members.lookup "tier" = some (.str d.tier) ∧
    d.members.lookup "created_by" = some (.str d.createdBy) ∧
    d.members.lookup "superseded_by" = d.supersededBy.map Json.str ∧
    d.members.lookup "flags" = some (listOrNull FlagDocument.json d.flags) := by
  simp [members, List.lookup_cons, List.lookup_append]

/-- A list that may be `null` is a field of its own. -/
theorem nullable_listOrNull {α β : Type} {read : Json → Option α} {write : β → Json}
    {ms : Json.Members} {key : String} {xs : Option (List β)}
    (h : ms.lookup key = some (listOrNull write xs)) :
    Json.nullable (Json.array read) ms key =
      xs.mapM fun xs => xs.mapM fun x => read (write x) := by
  unfold Json.nullable
  cases xs with
  | none =>
      rw [h]
      rfl
  | some xs =>
      rw [h]
      simp only [listOrNull, Json.array_map]
      rfl

/-- `null` is no list. -/
theorem array_listOrNull {α β : Type} {read : Json → Option α} {write : β → Json}
    (xs : Option (List β)) :
    Json.array read (listOrNull write xs) = xs.bind fun xs => xs.mapM fun x => read (write x) := by
  cases xs with
  | none => rfl
  | some xs => exact Json.array_map xs

/-! ## Reading -/

namespace Go

/-- The `int32` of an integer. -/
def toInt32 (n : Int) : Option Int32 :=
  if -2147483648 ≤ n ∧ n < 2147483648 then some (Int32.ofInt n) else none

def Flag.ofDocument (f : FlagDocument) : Option Flag :=
  (f.timestamp.mapM Timestamp.read).map fun timestamp =>
    { reason := utf8 f.reason
      timestamp
      detail := (f.detail.map utf8).getD []
      duplicateOf := (f.duplicateOf.map utf8).getD [] }

def Insight.ofDocument (i : Knowledge.Insight) : Insight :=
  ⟨utf8 i.summary, utf8 i.detail, utf8 i.action⟩

def Context.ofDocument (c : ContextDocument) : Context :=
  ⟨c.languages.map (List.map utf8), c.frameworks.map (List.map utf8), utf8 c.pattern⟩

variable {F : Type} [Floats F] [JsonFloats F]

def Evidence.ofDocument (e : EvidenceDocument) : Option (Evidence F) := do
  let confidence ← JsonFloats.value e.confidence
  let confirmations ← toInt32 e.confirmations
  let firstObserved ← e.firstObserved.mapM Timestamp.read
  let lastConfirmed ← e.lastConfirmed.mapM Timestamp.read
  some { confidence, confirmations, firstObserved, lastConfirmed }

/-- The unit that a document is read as. -/
def KnowledgeUnit.ofDocument (d : Document) : Option (KnowledgeUnit F) := do
  let version ← toInt32 d.version
  let evidence ← Evidence.ofDocument d.evidence
  let flags ← d.flags.mapM fun flags => flags.mapM Flag.ofDocument
  some
    { id := utf8 d.id
      version
      domains := d.domains.map (List.map utf8)
      insight := Insight.ofDocument d.insight
      context := Context.ofDocument d.context
      evidence
      tier := utf8 d.tier
      createdBy := utf8 d.createdBy
      supersededBy := (d.supersededBy.map utf8).getD []
      flags }

/-- A field that is written as it is read, whatever the zero value. -/
theorem field_of_lookup {α : Type} {zero : α} {read : Json → Option α} {ms : Json.Members}
    {key : String} {v : Json} (h : ms.lookup key = some v) (hv : v ≠ .null) :
    field zero read ms key = read v := by
  have hlookup : ms.lookup key = (some ()).map fun _ => v := h
  rw [field, Json.nullable_of_lookup hlookup fun _ => hv]
  cases read v with
  | none => rfl
  | some x => rfl

theorem textField_of_lookup {ms : Json.Members} {key s : String}
    (h : ms.lookup key = some (.str s)) : textField ms key = some (utf8 s) := by
  rw [textField, field, Json.nullable_of_lookup (o := some s) h fun _ => by simp]
  rfl

theorem textField_of_lookup_map {ms : Json.Members} {key : String} {o : Option String}
    (h : ms.lookup key = o.map Json.str) : textField ms key = some ((o.map utf8).getD []) := by
  rw [textField, field, Json.nullable_of_lookup h fun _ => by simp]
  cases o with
  | none => rfl
  | some s => rfl

theorem int32Field_of_lookup {ms : Json.Members} {key : String} {n : Int}
    (h : ms.lookup key = some (.num (.ofInt n))) : int32Field ms key = toInt32 n := by
  rw [int32Field, field_of_lookup h (by simp)]
  simp only [Json.integer, NumText.toInt_ofInt, Option.bind_some, toInt32]

theorem timeField_of_lookup {ms : Json.Members} {key : String} {o : Option String}
    (h : ms.lookup key = o.map Json.str) : timeField ms key = o.mapM Timestamp.read := by
  rw [timeField, Json.nullable_of_lookup h fun _ => by simp]
  rfl

theorem textsField_of_lookup {ms : Json.Members} {key : String} {xs : Option (List String)}
    (h : ms.lookup key = some (listOrNull Json.str xs)) :
    sliceField textElem ms key = some (xs.map (List.map utf8)) := by
  rw [sliceField, nullable_listOrNull h]
  cases xs with
  | none => rfl
  | some xs => exact congrArg (Option.map some) (List.mapM_total utf8 xs)

theorem Flag.unmarshal_members (f : FlagDocument) :
    Flag.unmarshal f.members = Flag.ofDocument f := by
  obtain ⟨hreason, htimestamp, hdetail, hduplicate⟩ := f.lookup_members
  unfold Flag.unmarshal Flag.ofDocument
  rw [textField_of_lookup hreason, timeField_of_lookup htimestamp,
    textField_of_lookup_map hdetail, textField_of_lookup_map hduplicate]
  cases f.timestamp.mapM Timestamp.read with
  | none => rfl
  | some timestamp => rfl

theorem Insight.unmarshal_dump (i : Knowledge.Insight) :
    Json.object Insight.unmarshal (Py.dumpInsight i) = some (Insight.ofDocument i) := rfl

theorem Context.unmarshal_members (c : ContextDocument) :
    Context.unmarshal c.members = some (Context.ofDocument c) := by
  obtain ⟨hlanguages, hframeworks, hpattern⟩ := c.lookup_members
  unfold Context.unmarshal
  rw [textsField_of_lookup hlanguages, textsField_of_lookup hframeworks,
    textField_of_lookup hpattern]
  rfl

theorem Evidence.unmarshal_members (e : EvidenceDocument) :
    Evidence.unmarshal e.members = Evidence.ofDocument (F := F) e := by
  obtain ⟨hconfidence, hconfirmations, hfirst, hlast⟩ := e.lookup_members
  unfold Evidence.unmarshal Evidence.ofDocument
  rw [field_of_lookup hconfidence (by simp), int32Field_of_lookup hconfirmations,
    timeField_of_lookup hfirst, timeField_of_lookup hlast]
  rfl

/-- What `encoding/json` reads is what stands in the document. -/
theorem KnowledgeUnit.unmarshal_json (d : Document) :
    KnowledgeUnit.unmarshal d.json = KnowledgeUnit.ofDocument (F := F) d := by
  obtain ⟨hid, hversion, hdomains, hinsight, hcontext, hevidence, htier, hcreated, hsuperseded,
    hflags⟩ := d.lookup_members
  show KnowledgeUnit.unmarshalMembers d.members = _
  unfold KnowledgeUnit.unmarshalMembers KnowledgeUnit.ofDocument
  rw [textField_of_lookup hid, int32Field_of_lookup hversion, textsField_of_lookup hdomains,
    field_of_lookup hinsight (by simp [Py.dumpInsight]), field_of_lookup hcontext (by simp),
    field_of_lookup hevidence (by simp), textField_of_lookup htier, textField_of_lookup hcreated,
    textField_of_lookup_map hsuperseded, sliceField, nullable_listOrNull hflags,
    Insight.unmarshal_dump]
  simp only [Json.object, Context.unmarshal_members,
    Evidence.unmarshal_members, FlagDocument.json, Flag.unmarshal_members]
  rfl

end Go

namespace Py

/-- The datetime that a text denotes. -/
def readDatetime (s : String) : Option Datetime := (Timestamp.read s).map Datetime.ofTimestamp

def Flag.ofDocument (now : Datetime) (f : FlagDocument) : Option Flag := do
  let reason ← Knowledge.FlagReason.ofValue f.reason
  let timestamp ← f.timestamp.elim (some now) readDatetime
  Flag.validated reason timestamp f.detail f.duplicateOf

def contextOfDocument (c : ContextDocument) : Option Knowledge.Context := do
  let languages ← c.languages
  let frameworks ← c.frameworks
  some { languages, frameworks, pattern := c.pattern }

variable {F : Type} [Floats F] [JsonFloats F]

def Evidence.ofDocument (now : Datetime) (e : EvidenceDocument) : Option (Evidence F) := do
  let confidence ← JsonFloats.value e.confidence
  let first ← e.firstObserved.mapM readDatetime
  let last ← e.lastConfirmed.mapM readDatetime
  let observed := defaultTimestamps now first last
  if 0.0 ≤ confidence ∧ confidence ≤ 1.0 then
    some { confidence, confirmations := e.confirmations, firstObserved := some observed.1,
           lastConfirmed := some observed.2 }
  else none

/-- The unit that a document is read as. -/
def KnowledgeUnit.ofDocument (now : Datetime) (d : Document) : Option (KnowledgeUnit F) := do
  let domains ← d.domains
  let context ← contextOfDocument d.context
  let evidence ← Evidence.ofDocument now d.evidence
  let tier ← Knowledge.Tier.ofValue d.tier
  let flags ← d.flags.bind fun flags => flags.mapM (Flag.ofDocument now)
  if idMatches d.id = true ∧ domains ≠ [] ∧ d.supersededBy.all idMatches = true then
    some
      { id := d.id
        version := d.version
        domains
        insight := d.insight
        context
        evidence
        tier
        createdBy := d.createdBy
        supersededBy := d.supersededBy
        flags }
  else none

/-- A text that may be left out. -/
theorem nullable_text {ms : Json.Members} {key : String} {o : Option String}
    (h : ms.lookup key = o.map Json.str) : Json.nullable Json.text ms key = some o := by
  rw [Json.nullable_of_lookup h fun _ => by simp]
  cases o with
  | none => rfl
  | some s => rfl

theorem nullable_datetime {ms : Json.Members} {key : String} {o : Option String}
    (h : ms.lookup key = o.map Json.str) :
    Json.nullable datetimeValue ms key = o.mapM readDatetime := by
  rw [Json.nullable_of_lookup h fun _ => by simp]
  rfl

theorem array_texts (xs : Option (List String)) :
    Json.array Json.text (listOrNull Json.str xs) = xs := by
  rw [array_listOrNull]
  cases xs with
  | none => rfl
  | some xs => exact (List.mapM_total id xs).trans (by rw [List.map_id])

theorem Flag.validate_members (now : Datetime) (f : FlagDocument) :
    Flag.validate now f.members = Flag.ofDocument now f := by
  obtain ⟨hreason, htimestamp, hdetail, hduplicate⟩ := f.lookup_members
  have htime : Json.defaulted now datetimeValue f.members "timestamp" =
      f.timestamp.elim (some now) readDatetime := by
    rw [Json.defaulted, htimestamp]
    cases f.timestamp with
    | none => rfl
    | some s => rfl
  unfold Flag.validate Flag.ofDocument
  rw [Json.required_of_lookup hreason, htime, nullable_text hdetail, nullable_text hduplicate]
  rfl

theorem validateInsight_dump (i : Knowledge.Insight) :
    Json.object validateInsight (dumpInsight i) = some i := rfl

theorem validateContext_members (c : ContextDocument) :
    validateContext c.members = contextOfDocument c := by
  obtain ⟨hlanguages, hframeworks, hpattern⟩ := c.lookup_members
  unfold validateContext contextOfDocument
  rw [Json.defaulted_of_lookup hlanguages, Json.defaulted_of_lookup hframeworks,
    Json.defaulted_of_lookup hpattern, array_texts, array_texts]
  rfl

theorem Evidence.validate_members (now : Datetime) (e : EvidenceDocument) :
    Evidence.validate now e.members = Evidence.ofDocument (F := F) now e := by
  obtain ⟨hconfidence, hconfirmations, hfirst, hlast⟩ := e.lookup_members
  unfold Evidence.validate Evidence.ofDocument
  rw [Json.defaulted_of_lookup hconfidence, Json.defaulted_of_lookup hconfirmations,
    nullable_datetime hfirst, nullable_datetime hlast]
  simp only [Json.integer, NumText.toInt_ofInt]
  rfl

/-- What pydantic reads is what stands in the document. -/
theorem KnowledgeUnit.modelValidateJson_json (now : Datetime) (d : Document) :
    KnowledgeUnit.modelValidateJson now d.json = KnowledgeUnit.ofDocument (F := F) now d := by
  obtain ⟨hid, hversion, hdomains, hinsight, hcontext, hevidence, htier, hcreated, hsuperseded,
    hflags⟩ := d.lookup_members
  show KnowledgeUnit.validateMembers now d.members = _
  unfold KnowledgeUnit.validateMembers KnowledgeUnit.ofDocument
  rw [Json.required_of_lookup hid, Json.defaulted_of_lookup hversion,
    Json.required_of_lookup hdomains, Json.required_of_lookup hinsight,
    Json.defaulted_of_lookup hcontext, Json.defaulted_of_lookup hevidence,
    Json.defaulted_of_lookup htier, Json.defaulted_of_lookup hcreated, nullable_text hsuperseded,
    Json.defaulted_of_lookup hflags, array_texts, validateInsight_dump, array_listOrNull]
  simp only [Json.integer, NumText.toInt_ofInt, Json.object, validateContext_members,
    Evidence.validate_members, FlagDocument.json, Flag.validate_members]
  rfl

end Py

end EighthLayer.Sdk
