import EighthLayer.Aigrp.Identity
import Mathlib.Data.Finset.Dedup
import Mathlib.Data.Finset.Card
import Mathlib.Data.Finset.Lattice.Basic
import Mathlib.Data.Rat.Defs
import Mathlib.Algebra.Order.Ring.Unbundled.Rat
import Mathlib.Algebra.Field.Rat

/-!
# EighthLayer.Knowledge.Unit

Knowledge units, and the arithmetic on them: what a confirmation and a flag do to a
unit's evidence (`scoring.py`), and how relevant a unit is to a query.

The arithmetic is that of a type `F` of numbers with the operations that the source
applies to its floats (`Floats`). Nothing is assumed of the operations; the order is
linear, since a confidence is never `NaN` (it is validated to lie between 0 and 1).
-/

namespace EighthLayer.Knowledge

open Aigrp (strip)

/-- Python's `str.lower`, a table of the Unicode standard. -/
class Casing where
  lower : String → String

/-- Lower case for ASCII texts. -/
abbrev asciiCasing : Casing := ⟨fun s => String.ofList (s.toList.map Char.toLower)⟩

/-- Numbers that stand for the floats of the source. -/
class Floats (F : Type) extends LinearOrder F, Add F, Sub F, Mul F, Div F, NatCast F,
  OfScientific F

instance : Floats ℚ where
  ofScientific := Rat.ofScientific

/-! ## Units -/

/-- `Tier`. -/
inductive Tier where
  | «local»
  | «private»
  | «public»
deriving DecidableEq

/-- `FlagReason`. -/
inductive FlagReason where
  | stale
  | incorrect
  | duplicate
deriving DecidableEq

/-- `Flag`, with its validator: a duplicate names what it duplicates. -/
structure Flag where
  reason : FlagReason
  timestamp : String
  detail : Option String
  duplicateOf : Option String
  valid : reason = .duplicate → truthy duplicateOf = true
deriving DecidableEq

/-- `Flag(reason=reason)`: no flag for a duplicate, whose reference is missing. -/
def Flag.ofReason (reason : FlagReason) (now : String) : Option Flag :=
  if h : reason = .duplicate then none
  else some { reason, timestamp := now, detail := none, duplicateOf := none,
              valid := fun hd => absurd hd h }

/-- `Insight`. -/
structure Insight where
  summary : String
  detail : String
  action : String
deriving DecidableEq

/-- `Context`. -/
structure Context where
  languages : List String
  frameworks : List String
  pattern : String
deriving DecidableEq

/-- `Evidence`. -/
structure Evidence (F : Type) where
  confidence : F
  confirmations : Int
  firstObserved : Option String
  lastConfirmed : Option String
deriving DecidableEq

/-- `KnowledgeUnit`. -/
structure KnowledgeUnit (F : Type) where
  id : String
  version : Int
  domains : List String
  insight : Insight
  context : Context
  evidence : Evidence F
  tier : Tier
  createdBy : String
  supersededBy : Option String
  flags : List Flag
deriving DecidableEq

/-- A unit about one domain. -/
def sampleUnit (id domain : String) : KnowledgeUnit ℚ where
  id
  version := 1
  domains := [domain]
  insight := ⟨"Retry on 429", "The API throttles", "Back off"⟩
  context := ⟨["python"], [], ""⟩
  evidence := ⟨0.5, 1, some "2026-05-01T00:00:00+00:00", some "2026-05-01T00:00:00+00:00"⟩
  tier := .private
  createdBy := "alice"
  supersededBy := none
  flags := []

/-- `normalize_domains`: strip, lower, drop the empty ones, keep the first of each. -/
def normalizeDomains [Casing] (domains : List String) : List String :=
  ((domains.filter fun d => strip d ≠ "").map fun d => Casing.lower (strip d)).reverse.dedup.reverse

/-- The normal form lists no domain twice. -/
theorem normalizeDomains_nodup [Casing] (domains : List String) :
    (normalizeDomains domains).Nodup :=
  List.nodup_reverse.mpr (List.nodup_dedup _)

theorem nodup_normalized {F : Type} [Casing] (unit : KnowledgeUnit F) :
    (normalizeDomains unit.domains).Nodup := normalizeDomains_nodup unit.domains

/-! ## Scoring -/

section Scoring

variable {F : Type} [Floats F]

/-- `CONFIRMATION_BOOST`. -/
def confirmationBoost : F := 0.1

/-- `FLAG_PENALTY`. -/
def flagPenalty : F := 0.15

/-- `CONFIDENCE_CEILING`. -/
def confidenceCeiling : F := 1.0

/-- `CONFIDENCE_FLOOR`. -/
def confidenceFloor : F := 0.0

/-- A confidence after one confirmation. -/
def boost (confidence : F) : F := min (confidence + confirmationBoost) confidenceCeiling

/-- A confidence after one flag. -/
def penalize (confidence : F) : F := max (confidence - flagPenalty) confidenceFloor

/-- `apply_confirmation`. -/
def applyConfirmation (unit : KnowledgeUnit F) (now : String) : KnowledgeUnit F :=
  { unit with
    evidence :=
      { unit.evidence with
        confidence := boost unit.evidence.confidence
        confirmations := unit.evidence.confirmations + 1
        lastConfirmed := some now } }

/-- `apply_flag`; it raises when the flag is not valid. -/
def applyFlag (unit : KnowledgeUnit F) (reason : FlagReason) (now : String) :
    Option (KnowledgeUnit F) :=
  (Flag.ofReason reason now).map fun flag =>
    { unit with
      evidence := { unit.evidence with confidence := penalize unit.evidence.confidence }
      flags := unit.flags ++ [flag] }

/-- `calculate_relevance`: the Jaccard similarity of the domains, and whether a language,
a framework and the pattern match. -/
def calculateRelevance [Casing] (unit : KnowledgeUnit F) (queryDomains : List String)
    (queryLanguages queryFrameworks : Option (List String)) (queryPattern : String) : F :=
  let unitDomains := unit.domains.toFinset
  let queryDomainSet := queryDomains.toFinset
  let domainScore : F :=
    if (unitDomains ∪ queryDomainSet).card = 0 then 0.0
    else ((unitDomains ∩ queryDomainSet).card : F) / ((unitDomains ∪ queryDomainSet).card : F)
  let languageScore : F :=
    if (queryLanguages.getD []).any (· ∈ unit.context.languages) then 1.0 else 0.0
  let frameworkScore : F :=
    if (queryFrameworks.getD []).any (· ∈ unit.context.frameworks) then 1.0 else 0.0
  let patternScore : F :=
    if queryPattern ≠ "" ∧ unit.context.pattern ≠ "" ∧
        Casing.lower queryPattern = Casing.lower unit.context.pattern then 1.0 else 0.0
  0.55 * domainScore + 0.15 * languageScore + 0.15 * frameworkScore + 0.15 * patternScore

@[simp] theorem applyConfirmation_id (unit : KnowledgeUnit F) (now : String) :
    (applyConfirmation unit now).id = unit.id := rfl

@[simp] theorem applyConfirmation_domains (unit : KnowledgeUnit F) (now : String) :
    (applyConfirmation unit now).domains = unit.domains := rfl

@[simp] theorem applyConfirmation_confirmations (unit : KnowledgeUnit F) (now : String) :
    (applyConfirmation unit now).evidence.confirmations = unit.evidence.confirmations + 1 := rfl

/-- A flag is raised against any unit, or none: that depends on the reason alone. -/
theorem applyFlag_eq_some_iff {unit flagged : KnowledgeUnit F} {reason : FlagReason}
    {now : String} : applyFlag unit reason now = some flagged ↔
      ∃ flag, Flag.ofReason reason now = some flag ∧
        flagged = { unit with
          evidence := { unit.evidence with confidence := penalize unit.evidence.confidence }
          flags := unit.flags ++ [flag] } := by
  rw [applyFlag, Option.map_eq_some_iff]
  exact exists_congr fun flag => and_congr_right fun _ => eq_comm

end Scoring

end EighthLayer.Knowledge
