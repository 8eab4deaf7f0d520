import EighthLayer.Lib.Decimal
import EighthLayer.Lib.Utf8
import EighthLayer.Knowledge.Unit

/-!
# EighthLayer.Sdk.GoUnit

Knowledge units in the Go SDK: `types.go`, `id.go` and `scoring.go`, and what `encoding/json`
makes of a unit.

A Go string is any bytes, and a slice may be nil. `json.Marshal` replaces what is no UTF-8 and
writes a nil slice as `null`; `json.Unmarshal` leaves the zero value where a field is missing or
`null`. The fields of a stored document have one spelling each.
-/

namespace EighthLayer.Sdk

open Lib
open Knowledge (Floats)

/-- Floats in JSON: the texts the two SDKs write for one, and the nearest float to the decimal
that a text denotes. Both write so many digits that the float is the nearest to them. -/
class JsonFloats (F : Type) where
  goText : F → NumText
  pyText : F → NumText
  value : NumText → Option F
  value_goText : ∀ x, value (goText x) = some x
  value_pyText : ∀ x, value (pyText x) = some x

attribute [simp] JsonFloats.value_goText JsonFloats.value_pyText

/-- A value that is a float. -/
def float {F : Type} [JsonFloats F] : Json → Option F
  | .num n => JsonFloats.value n
  | _ => none

instance : Floats Decimal where

instance : JsonFloats Decimal where
  goText := Decimal.text [] (by decide)
  pyText := Decimal.text ['.', '0'] (by decide)
  value := Decimal.ofText
  value_goText := Decimal.ofText_text rfl (by simp) rfl
  value_pyText := Decimal.ofText_text rfl (by simp) rfl

/-- The bytes of a text that may be absent. -/
def optionalBytes (s : Option String) : Bytes := (s.map utf8).getD []

namespace Go

/-! ## Units -/

/-- A Go string. -/
abbrev Text := Bytes

/-- `Insight`. -/
structure Insight where
  summary : Text
  detail : Text
  action : Text
deriving DecidableEq

/-- `Context`. -/
structure Context where
  languages : Option (List Text)
  frameworks : Option (List Text)
  pattern : Text
deriving DecidableEq

/-- `Evidence`. -/
structure Evidence (F : Type) where
  confidence : F
  confirmations : Int32
  firstObserved : Option Timestamp
  lastConfirmed : Option Timestamp
deriving DecidableEq

/-- `Flag`. -/
structure Flag where
  reason : Text
  timestamp : Option Timestamp
  detail : Text
  duplicateOf : Text
deriving DecidableEq

/-- `KnowledgeUnit`. -/
structure KnowledgeUnit (F : Type) where
  id : Text
  version : Int32
  domains : Option (List Text)
  insight : Insight
  context : Context
  evidence : Evidence F
  tier : Text
  createdBy : Text
  supersededBy : Text
  flags : Option (List Flag)
deriving DecidableEq

/-- `ValidateID`: `^ku_[0-9a-f]{32}$`. -/
def validId (id : Text) : Bool :=
  id.take 3 = utf8 "ku_" && (id.drop 3).length = 32 &&
    (id.drop 3).all fun b => (0x30 ≤ b && b ≤ 0x39) || (0x61 ≤ b && b ≤ 0x66)

/-- `GenerateID`, from the sixteen bytes of a UUID. -/
def generateId (uuid : Bytes) : Text := utf8 "ku_" ++ utf8 (String.ofList (hex uuid))

/-! ## JSON -/

/-- A string. -/
def text (t : Text) : Json := .str (lossyText t)

/-- A slice. -/
def slice {α : Type} (write : α → Json) : Option (List α) → Json
  | none => .null
  | some xs => .arr (xs.map write)

/-- `omitempty` of a string. -/
def nonEmpty (t : Text) : Option Json := if t = [] then none else some (text t)

/-- `time.Time.MarshalJSON`. -/
def time (t : Timestamp) : Json := .str t.nanoText

def int32 (n : Int32) : Json := .num (.ofInt n.toInt)

def Flag.marshal (f : Flag) : Json :=
  .obj (("reason", text f.reason) :: (Json.member "timestamp" (f.timestamp.map time) ++
    (Json.member "detail" (nonEmpty f.detail) ++
      Json.member "duplicate_of" (nonEmpty f.duplicateOf))))

def Insight.marshal (i : Insight) : Json :=
  .obj [("summary", text i.summary), ("detail", text i.detail), ("action", text i.action)]

def Context.marshal (c : Context) : Json :=
  .obj [("languages", slice text c.languages), ("frameworks", slice text c.frameworks),
    ("pattern", text c.pattern)]

variable {F : Type}

def Evidence.marshal [JsonFloats F] (e : Evidence F) : Json :=
  .obj (("confidence", .num (JsonFloats.goText e.confidence)) ::
    ("confirmations", int32 e.confirmations) ::
    (Json.member "first_observed" (e.firstObserved.map time) ++
      Json.member "last_confirmed" (e.lastConfirmed.map time)))

/-- `marshalUnit`. -/
def KnowledgeUnit.marshal [JsonFloats F] (ku : KnowledgeUnit F) : Json :=
  .obj (("id", text ku.id) :: ("version", int32 ku.version) ::
    ("domains", slice text ku.domains) :: ("insight", ku.insight.marshal) ::
    ("context", ku.context.marshal) :: ("evidence", ku.evidence.marshal) ::
    ("tier", text ku.tier) :: ("created_by", text ku.createdBy) ::
    (Json.member "superseded_by" (nonEmpty ku.supersededBy) ++
      [("flags", slice Flag.marshal ku.flags)]))

/-- A field of a struct with this zero value. -/
def field {α : Type} (zero : α) (read : Json → Option α) (ms : Json.Members) (key : String) :
    Option α :=
  (Json.nullable read ms key).map fun v => v.getD zero

/-- A string field. -/
def textField : Json.Members → String → Option Text := field [] fun v => (Json.text v).map utf8

/-- A slice field. -/
def sliceField {α : Type} (read : Json → Option α) : Json.Members → String → Option (Option (List α)) :=
  Json.nullable (Json.array read)

/-- An `int32` field: an integer that fits. -/
def int32Field : Json.Members → String → Option Int32 :=
  field 0 fun v => (Json.integer v).bind fun n =>
    if -2147483648 ≤ n ∧ n < 2147483648 then some (Int32.ofInt n) else none

/-- A `*time.Time` field. -/
def timeField : Json.Members → String → Option (Option Timestamp) :=
  Json.nullable fun v => (Json.text v).bind Timestamp.read

def textElem (v : Json) : Option Text :=
  match v with
  | .null => some []
  | v => (Json.text v).map utf8

def Flag.unmarshal (ms : Json.Members) : Option Flag := do
  let reason ← textField ms "reason"
  let timestamp ← timeField ms "timestamp"
  let detail ← textField ms "detail"
  let duplicateOf ← textField ms "duplicate_of"
  some { reason, timestamp, detail, duplicateOf }

def Insight.unmarshal (ms : Json.Members) : Option Insight := do
  let summary ← textField ms "summary"
  let detail ← textField ms "detail"
  let action ← textField ms "action"
  some { summary, detail, action }

def Context.unmarshal (ms : Json.Members) : Option Context := do
  let languages ← sliceField textElem ms "languages"
  let frameworks ← sliceField textElem ms "frameworks"
  let pattern ← textField ms "pattern"
  some { languages, frameworks, pattern }

def Evidence.unmarshal [Floats F] [JsonFloats F] (ms : Json.Members) : Option (Evidence F) := do
  let confidence ← field 0.0 float ms "confidence"
  let confirmations ← int32Field ms "confirmations"
  let firstObserved ← timeField ms "first_observed"
  let lastConfirmed ← timeField ms "last_confirmed"
  some { confidence, confirmations, firstObserved, lastConfirmed }

/-- The members of `unmarshalUnit`. -/
def KnowledgeUnit.unmarshalMembers [Floats F] [JsonFloats F] (ms : Json.Members) :
    Option (KnowledgeUnit F) := do
  let id ← textField ms "id"
  let version ← int32Field ms "version"
  let domains ← sliceField textElem ms "domains"
  let insight ← field ⟨[], [], []⟩ (Json.object Insight.unmarshal) ms "insight"
  let context ← field ⟨none, none, []⟩ (Json.object Context.unmarshal) ms "context"
  let evidence ← field ⟨0.0, 0, none, none⟩ (Json.object Evidence.unmarshal) ms "evidence"
  let tier ← textField ms "tier"
  let createdBy ← textField ms "created_by"
  let supersededBy ← textField ms "superseded_by"
  let flags ← sliceField (Json.object Flag.unmarshal) ms "flags"
  some { id, version, domains, insight, context, evidence, tier, createdBy, supersededBy, flags }

/-- `unmarshalUnit`; `none` is an error. -/
def KnowledgeUnit.unmarshal [Floats F] [JsonFloats F] : Json → Option (KnowledgeUnit F) :=
  Json.object KnowledgeUnit.unmarshalMembers

/-! ## Operations -/

/-- `strings.TrimSpace` and `strings.ToLower`, which rest on the tables of the Unicode standard. -/
class Strings where
  trimSpace : Text → Text
  toLower : Text → Text

/-- Trimming and lower case for ASCII texts; `ToLower` writes U+FFFD for what is no UTF-8. -/
abbrev asciiStrings : Strings where
  trimSpace t := (t.dropWhile (· ≤ 0x20)).rdropWhile (· ≤ 0x20)
  toLower t := utf8 (String.ofList ((lossyText t).toList.map Char.toLower))

/-- `normalizeDomains`: the first of each, in order. -/
def normalizeDomains [Strings] (domains : List Text) : List Text :=
  ((domains.map fun d => Strings.toLower (Strings.trimSpace d)).filter (· ≠ [])).reverse.dedup.reverse

/-- The unit as `insert` and `update` write it, with its domains normalised; `none` is "knowledge
unit must have at least one non-empty domain". -/
def stored [Strings] (ku : KnowledgeUnit F) : Option (KnowledgeUnit F) :=
  let domains := normalizeDomains (ku.domains.getD [])
  if domains = [] then none else some { ku with domains := some domains }

/-- `ProposeParams`. -/
structure ProposeParams where
  summary : Text
  detail : Text
  action : Text
  domains : Option (List Text)
  languages : Option (List Text)
  frameworks : Option (List Text)
  pattern : Text
  createdBy : Text

/-- The unit that `Propose` stores when there is no remote or it cannot be reached. -/
def proposed [Floats F] (params : ProposeParams) (uuid : Bytes) (now : Timestamp) :
    KnowledgeUnit F where
  id := generateId uuid
  version := 1
  domains := params.domains
  insight := ⟨params.summary, params.detail, params.action⟩
  context := ⟨params.languages, params.frameworks, params.pattern⟩
  evidence := ⟨0.5, 1, some now, some now⟩
  tier := utf8 "local"
  createdBy := params.createdBy
  supersededBy := []
  flags := none

/-- `applyConfirmation`. -/
def applyConfirmation [Floats F] (ku : KnowledgeUnit F) (now : Timestamp) : KnowledgeUnit F :=
  { ku with
    evidence :=
      { ku.evidence with
        confidence := Knowledge.boost ku.evidence.confidence
        confirmations := ku.evidence.confirmations + 1
        lastConfirmed := some now } }

/-- `applyFlag`. -/
def applyFlag [Floats F] (ku : KnowledgeUnit F) (reason detail duplicateOf : Text)
    (now : Timestamp) : KnowledgeUnit F :=
  { ku with
    evidence := { ku.evidence with confidence := Knowledge.penalize ku.evidence.confidence }
    flags := some (ku.flags.getD [] ++ [⟨reason, some now, detail, duplicateOf⟩]) }

/-- What `Flag` requires of its arguments. -/
def flagAccepted (reason duplicateOf : Text) : Bool :=
  !(reason = utf8 "duplicate" && duplicateOf = []) && (duplicateOf = [] || validId duplicateOf)

end Go

end EighthLayer.Sdk
