import EighthLayer.Sdk.GoUnit

/-!
# EighthLayer.Sdk.PyUnit

Knowledge units in the Python SDK: `models.py` and `scoring.py`, and what pydantic makes of a
unit.

`model_validate_json` checks what it reads: a list may be missing and may not be `null`, a
confidence lies between 0 and 1, an id has its pattern and a reason is one of three. A datetime
has microseconds; what is smaller in a text is cut off.
-/

namespace EighthLayer.Knowledge

/-- The value of a `FlagReason`. -/
def FlagReason.value : FlagReason → String
  | .stale => "stale"
  | .incorrect => "incorrect"
  | .duplicate => "duplicate"

/-- `FlagReason(s)`. -/
def FlagReason.ofValue (s : String) : Option FlagReason :=
  [.stale, .incorrect, .duplicate].find? fun reason => reason.value = s

/-- The value of a `Tier`. -/
def Tier.value : Tier → String
  | .local => "local"
  | .private => "private"
  | .public => "public"

/-- `Tier(s)`. -/
def Tier.ofValue (s : String) : Option Tier :=
  [.local, .private, .public].find? fun tier => tier.value = s

@[simp] theorem FlagReason.ofValue_value (reason : FlagReason) :
    FlagReason.ofValue reason.value = some reason := by
  cases reason with
  | stale => decide
  | incorrect => decide
  | duplicate => decide

@[simp] theorem Tier.ofValue_value (tier : Tier) : Tier.ofValue tier.value = some tier := by
  cases tier with
  | «local» => decide
  | «private» => decide
  | «public» => decide

theorem FlagReason.value_of_ofValue {s : String} {reason : FlagReason}
    (h : FlagReason.ofValue s = some reason) : reason.value = s := by
  simpa using List.find?_some h

end EighthLayer.Knowledge

namespace EighthLayer.Sdk.Py

open Lib
open Knowledge (Floats FlagReason Tier Insight Context)

/-! ## Units -/

/-- A datetime with a zone, in microseconds. -/
abbrev Datetime := { t : Timestamp // t.nano % 1000 = 0 }

/-- The datetime of a timestamp. -/
def Datetime.ofTimestamp (t : Timestamp) : Datetime :=
  ⟨t.truncated, Nat.mul_mod_left _ _⟩

@[simp] theorem Datetime.ofTimestamp_val (d : Datetime) : Datetime.ofTimestamp d.val = d :=
  Subtype.ext (Timestamp.truncated_eq_self d.property)

/-- `Flag`, with its validator: a duplicate names what it duplicates. -/
@[ext] structure Flag where
  reason : FlagReason
  timestamp : Datetime
  detail : Option String
  duplicateOf : Option String
  valid : reason = .duplicate → truthy duplicateOf = true

instance : DecidableEq Flag := fun _ _ => decidable_of_iff' _ Flag.ext_iff

/-- `Evidence`. -/
structure Evidence (F : Type) where
  confidence : F
  confirmations : Int
  firstObserved : Option Datetime
  lastConfirmed : Option Datetime
deriving DecidableEq

/-- `KnowledgeUnit`. -/
structure KnowledgeUnit (F : Type) where
  id : String
  version : Int
  domains : List String
  insight : Insight
  context : Context
  evidence : Evidence F
  tier : Tier
  createdBy : String
  supersededBy : Option String
  flags : List Flag
deriving DecidableEq

/-- `_KU_ID_PATTERN.match`: `^ku_[0-9a-f]{32}$`, whose `$` also stands before a last newline. -/
def idMatches (id : String) : Bool :=
  let chars := if id.toList.drop 35 = ['\n'] then id.toList.dropLast else id.toList
  chars.take 3 = ['k', 'u', '_'] && (chars.drop 3).length = 32 &&
    (chars.drop 3).all fun c => c.isDigit || ('a' ≤ c && c ≤ 'f')

/-- `_generate_ku_id`, from the sixteen bytes of a UUID. -/
def generateKuId (uuid : Bytes) : String := "ku_" ++ String.ofList (hex uuid)

/-- What is true of every digit is true of all that `hex` writes. -/
theorem hex_all {p : Char → Bool} (hp : ∀ d < 16, p (hexDigit d) = true) (bs : Bytes) :
    (hex bs).all p = true := by
  induction bs with
  | nil => rfl
  | cons b bs ih =>
      have hbyte : b.toNat < 256 := b.toNat_lt
      simp only [hex, List.all_cons, ih, hp _ (show b.toNat / 16 < 16 by omega),
        hp _ (show b.toNat % 16 < 16 by omega), Bool.and_self]

/-- An id that is generated has its pattern. -/
theorem idMatches_generateKuId {uuid : Bytes} (h : uuid.length = 16) :
    idMatches (generateKuId uuid) = true := by
  have hchars : (generateKuId uuid).toList = 'k' :: 'u' :: '_' :: hex uuid := by
    rw [generateKuId, String.toList_append, String.toList_ofList, String.toList_ofList]
    rfl
  have hlength : (hex uuid).length = 32 := by rw [hex_length, h]
  have hend : ('k' :: 'u' :: '_' :: hex uuid).drop 35 ≠ ['\n'] := by
    rw [List.drop_eq_nil_of_le (by simp [hlength])]
    exact List.cons_ne_nil _ _ |>.symm
  have hdigits := hex_all (p := fun c => c.isDigit || ('a' ≤ c && c ≤ 'f')) (by decide) uuid
  unfold idMatches
  rw [hchars, if_neg hend]
  simp only [List.take_succ_cons, List.take_zero, List.drop_succ_cons, List.drop_zero, hlength,
    hdigits, decide_true, Bool.and_self]

/-! ## JSON -/

/-- A datetime; in JSON the trailing zeros of its microseconds stay. -/
def datetime (d : Datetime) : Json := .str d.val.microText

/-- A text that may be `None`, and is left out then. -/
def optionalText (s : Option String) : Option Json := s.map Json.str

def Flag.dump (f : Flag) : Json :=
  .obj (("reason", .str f.reason.value) :: ("timestamp", datetime f.timestamp) ::
    (Json.member "detail" (optionalText f.detail) ++
      Json.member "duplicate_of" (optionalText f.duplicateOf)))

def dumpInsight (i : Insight) : Json :=
  .obj [("summary", .str i.summary), ("detail", .str i.detail), ("action", .str i.action)]

def dumpContext (c : Context) : Json :=
  .obj [("languages", .arr (c.languages.map Json.str)),
    ("frameworks", .arr (c.frameworks.map Json.str)), ("pattern", .str c.pattern)]

variable {F : Type}

def Evidence.dump [JsonFloats F] (e : Evidence F) : Json :=
  .obj (("confidence", .num (JsonFloats.pyText e.confidence)) ::
    ("confirmations", .num (.ofInt e.confirmations)) ::
    (Json.member "first_observed" (e.firstObserved.map datetime) ++
      Json.member "last_confirmed" (e.lastConfirmed.map datetime)))

/-- `model_dump_json(exclude_none=True)`. -/
def KnowledgeUnit.modelDumpJson [JsonFloats F] (unit : KnowledgeUnit F) : Json :=
  .obj (("id", .str unit.id) :: ("version", .num (.ofInt unit.version)) ::
    ("domains", .arr (unit.domains.map Json.str)) :: ("insight", dumpInsight unit.insight) ::
    ("context", dumpContext unit.context) :: ("evidence", unit.evidence.dump) ::
    ("tier", .str unit.tier.value) :: ("created_by", .str unit.createdBy) ::
    (Json.member "superseded_by" (optionalText unit.supersededBy) ++
      [("flags", .arr (unit.flags.map Flag.dump))]))

/-- A value that is a datetime. -/
def datetimeValue (v : Json) : Option Datetime :=
  (Json.text v).bind fun s => (Timestamp.read s).map Datetime.ofTimestamp

/-- The flag of these values, if its validator lets it pass. -/
def Flag.validated (reason : FlagReason) (timestamp : Datetime)
    (detail duplicateOf : Option String) : Option Flag :=
  if valid : reason = .duplicate → truthy duplicateOf = true then
    some { reason, timestamp, detail, duplicateOf, valid }
  else none

def Flag.validate (now : Datetime) (ms : Json.Members) : Option Flag := do
  let reason ← Json.required (fun v => (Json.text v).bind FlagReason.ofValue) ms "reason"
  let timestamp ← Json.defaulted now datetimeValue ms "timestamp"
  let detail ← Json.nullable Json.text ms "detail"
  let duplicateOf ← Json.nullable Json.text ms "duplicate_of"
  Flag.validated reason timestamp detail duplicateOf

def validateInsight (ms : Json.Members) : Option Insight := do
  let summary ← Json.required Json.text ms "summary"
  let detail ← Json.required Json.text ms "detail"
  let action ← Json.required Json.text ms "action"
  some { summary, detail, action }

def validateContext (ms : Json.Members) : Option Context := do
  let languages ← Json.defaulted [] (Json.array Json.text) ms "languages"
  let frameworks ← Json.defaulted [] (Json.array Json.text) ms "frameworks"
  let pattern ← Json.defaulted "" Json.text ms "pattern"
  some { languages, frameworks, pattern }

/-- `_set_default_timestamps`: of two timestamps that may be missing, one stands for the other,
and the current time for both. -/
def defaultTimestamps (now : Datetime) : Option Datetime → Option Datetime → Datetime × Datetime
  | none, none => (now, now)
  | none, some last => (last, last)
  | some first, none => (first, first)
  | some first, some last => (first, last)

def Evidence.validate [Floats F] [JsonFloats F] (now : Datetime) (ms : Json.Members) :
    Option (Evidence F) := do
  let confidence ← Json.defaulted 0.5 float ms "confidence"
  let confirmations ← Json.defaulted 1 Json.integer ms "confirmations"
  let first ← Json.nullable datetimeValue ms "first_observed"
  let last ← Json.nullable datetimeValue ms "last_confirmed"
  let observed := defaultTimestamps now first last
  if 0.0 ≤ confidence ∧ confidence ≤ 1.0 then
    some { confidence, confirmations, firstObserved := some observed.1,
           lastConfirmed := some observed.2 }
  else none

def KnowledgeUnit.validateMembers [Floats F] [JsonFloats F] (now : Datetime)
    (ms : Json.Members) : Option (KnowledgeUnit F) := do
  let id ← Json.required Json.text ms "id"
  let version ← Json.defaulted 1 Json.integer ms "version"
  let domains ← Json.required (Json.array Json.text) ms "domains"
  let insight ← Json.required (Json.object validateInsight) ms "insight"
  let context ← Json.defaulted ⟨[], [], ""⟩ (Json.object validateContext) ms "context"
  let evidence ← Json.defaulted ⟨0.5, 1, some now, some now⟩
    (Json.object (Evidence.validate now)) ms "evidence"
  let tier ← Json.defaulted .local (fun v => (Json.text v).bind Tier.ofValue) ms "tier"
  let createdBy ← Json.defaulted "" Json.text ms "created_by"
  let supersededBy ← Json.nullable Json.text ms "superseded_by"
  let flags ← Json.defaulted [] (Json.array (Json.object (Flag.validate now))) ms "flags"
  if idMatches id = true ∧ domains ≠ [] ∧ supersededBy.all idMatches = true then
    some { id, version, domains, insight, context, evidence, tier, createdBy, supersededBy, flags }
  else none

/-- `KnowledgeUnit.model_validate_json`; `none` is a `ValidationError`. -/
def KnowledgeUnit.modelValidateJson [Floats F] [JsonFloats F] (now : Datetime) :
    Json → Option (KnowledgeUnit F) :=
  Json.object (KnowledgeUnit.validateMembers now)

/-! ## Operations -/

/-- The unit as `insert` and `update` write it, with its domains normalised; `none` is "At least
one non-empty domain is required". -/
def stored [Knowledge.Casing] (unit : KnowledgeUnit F) : Option (KnowledgeUnit F) :=
  let domains := Knowledge.normalizeDomains unit.domains
  if domains = [] then none else some { unit with domains }

/-- `create_knowledge_unit` as `propose` calls it. -/
def createKnowledgeUnit [Floats F] (domains : List String) (insight : Insight)
    (context : Context) (createdBy : String) (uuid : Bytes) (now : Datetime) :
    Option (KnowledgeUnit F) :=
  if domains = [] then none
  else some
    { id := generateKuId uuid
      version := 1
      domains
      insight
      context
      evidence := ⟨0.5, 1, some now, some now⟩
      tier := .local
      createdBy
      supersededBy := none
      flags := [] }

/-- `apply_confirmation`. -/
def applyConfirmation [Floats F] (unit : KnowledgeUnit F) (now : Datetime) : KnowledgeUnit F :=
  { unit with
    evidence :=
      { unit.evidence with
        confidence := Knowledge.boost unit.evidence.confidence
        confirmations := unit.evidence.confirmations + 1
        lastConfirmed := some now } }

/-- `apply_flag` as `flag` calls it, with no `duplicate_of`. -/
def applyFlag [Floats F] (unit : KnowledgeUnit F) (reason : FlagReason) (now : Datetime) :
    Option (KnowledgeUnit F) :=
  (Flag.validated reason now none none).map fun flag =>
    { unit with
      evidence := { unit.evidence with confidence := Knowledge.penalize unit.evidence.confidence }
      flags := unit.flags ++ [flag] }

end EighthLayer.Sdk.Py
