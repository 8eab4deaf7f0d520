import EighthLayer.Knowledge.Unit
import EighthLayer.Lib.Bytes
import EighthLayer.Lib.Table

/-!
# EighthLayer.Knowledge.Store

The tables `knowledge_units` and `knowledge_unit_domains`, and the transactions of the
store that insert a unit, read one and write one back.

A unit's data is stored as JSON and parsed when it is read; a row holds it parsed. Every
writer stores a unit under its own id, so the id of a row is that of its unit.
-/

namespace EighthLayer.Knowledge

open Lib

/-- The states of a review. -/
inductive Status where
  | pending
  | pendingReview
  | approved
  | rejected
  | dropped
deriving DecidableEq

/-- `status NOT IN ('approved', 'rejected', 'dropped')`, negated. -/
def Status.terminal : Status → Bool
  | approved | rejected | dropped => true
  | pending | pendingReview => false

/-- A row of `knowledge_units`. -/
structure Row (F : Type) where
  /-- `data`, parsed. -/
  unit : KnowledgeUnit F
  status : Status
  reviewedBy : Option String
  reviewedAt : Option String
  createdAt : String
  tier : Tier
  enterpriseId : String
  groupId : String
  crossGroupAllowed : Int
  embedding : Option Bytes
  pendingReviewReason : Option String
  pendingReviewExpiresAt : Option String
deriving DecidableEq

/-- The primary key. -/
def Row.id {F : Type} (r : Row F) : String := r.unit.id

theorem Row.id_eq_of_unit_eq {F : Type} {r r' : Row F} (h : r.unit = r'.unit) : r.id = r'.id :=
  congrArg KnowledgeUnit.id h

/-- The two tables. The domain rows are those of the units' data, each once: whoever writes
a unit writes them in the same transaction. -/
structure Store (F : Type) where
  units : Table (Row.id (F := F))
  domains : List (String × String)
  domains_nodup : domains.Nodup
  mem_domains : ∀ id d, (id, d) ∈ domains ↔ ∃ r ∈ units, r.id = id ∧ d ∈ r.unit.domains

namespace Store

variable {F : Type}

@[ext] theorem ext {s s' : Store F} (hu : s.units = s'.units) (hd : s.domains = s'.domains) :
    s = s' := by
  cases s
  cases s'
  cases hu
  cases hd
  rfl

instance [DecidableEq F] : DecidableEq (Store F) := fun s s' =>
  decidable_of_iff (s.units = s'.units ∧ s.domains = s'.domains)
    ⟨fun h => Store.ext h.1 h.2, fun h => h ▸ ⟨rfl, rfl⟩⟩

/-- No units. -/
def empty : Store F where
  units := .empty
  domains := []
  domains_nodup := List.nodup_nil
  mem_domains := by simp

/-- `SELECT_APPROVED_BY_ID`: `store.get`. -/
def get (s : Store F) (unitId : String) : Option (KnowledgeUnit F) :=
  (s.units.find unitId).bind fun r => if r.status = .approved then some r.unit else none

theorem get_eq_some_iff {s : Store F} {unitId : String} {u : KnowledgeUnit F} :
    s.get unitId = some u ↔
      ∃ r, s.units.find unitId = some r ∧ r.status = .approved ∧ r.unit = u := by
  simp [get, Option.bind_eq_some_iff]

/-! ## Other columns -/

/-- An update of columns other than `data`. -/
def updateColumns (s : Store F) (p : Row F → Bool) (f : Row F → Row F)
    (hf : ∀ r, (f r).unit = r.unit) : Store F where
  units := s.units.update p f fun r => Row.id_eq_of_unit_eq (hf r)
  domains := s.domains
  domains_nodup := s.domains_nodup
  mem_domains := by
    have hunit : ∀ r : Row F, (if p r then f r else r).unit = r.unit := by
      intro r
      split
      · exact hf r
      · rfl
    intro id d
    rw [s.mem_domains]
    simp only [Table.mem_update]
    constructor
    · rintro ⟨r, hr, hid, hd⟩
      refine ⟨_, ⟨r, hr, rfl⟩, (Row.id_eq_of_unit_eq (hunit r)).trans hid, ?_⟩
      rw [hunit]
      exact hd
    · rintro ⟨_, ⟨r, hr, rfl⟩, hid, hd⟩
      rw [hunit] at hd
      exact ⟨r, hr, (Row.id_eq_of_unit_eq (hunit r)).symm.trans hid, hd⟩

theorem updateColumns_find (s : Store F) (p : Row F → Bool) (f : Row F → Row F)
    (hf : ∀ r, (f r).unit = r.unit) (id : String) :
    (s.updateColumns p f hf).units.find id =
      (s.units.find id).map fun r => if p r then f r else r := by
  simp only [updateColumns, Table.find_update]

/-- The units are as they were. -/
theorem updateColumns_unit {s : Store F} {p : Row F → Bool} {f : Row F → Row F}
    {hf : ∀ r, (f r).unit = r.unit} {r : Row F} (h : r ∈ (s.updateColumns p f hf).units) :
    ∃ r' ∈ s.units, r.unit = r'.unit := by
  simp only [updateColumns, Table.mem_update] at h
  obtain ⟨r', hr', rfl⟩ := h
  refine ⟨r', hr', ?_⟩
  split
  · exact hf r'
  · rfl

/-! ## Inserting -/

/-- The row that `INSERT_UNIT_WITH_TENANCY` writes; the other columns take their defaults. -/
def newRow (unit : KnowledgeUnit F) (createdAt enterpriseId groupId : String) : Row F where
  unit
  status := .pending
  reviewedBy := none
  reviewedAt := none
  createdAt
  tier := unit.tier
  enterpriseId
  groupId
  crossGroupAllowed := 0
  embedding := none
  pendingReviewReason := none
  pendingReviewExpiresAt := none

/-- The rows of `knowledge_unit_domains` that belong to a unit. -/
def domainRows (unit : KnowledgeUnit F) : List (String × String) :=
  unit.domains.map fun d => (unit.id, d)

theorem mem_domainRows {unit : KnowledgeUnit F} {id d : String} :
    (id, d) ∈ domainRows unit ↔ unit.id = id ∧ d ∈ unit.domains := by
  simp [domainRows, and_comm, eq_comm]

theorem domainRows_nodup {unit : KnowledgeUnit F} (h : unit.domains.Nodup) :
    (domainRows unit).Nodup :=
  h.map fun _ _ heq => (Prod.mk.inj heq).2

/-- The transaction that inserts a unit whose domains are in normal form; `none` when a
unit with this id is there (`IntegrityError`). -/
def insertRow (s : Store F) (r : Row F) (hd : r.unit.domains.Nodup) : Option (Store F) :=
  match h : s.units.insert r with
  | none => none
  | some units => some
      { units
        domains := s.domains ++ domainRows r.unit
        domains_nodup := by
          refine List.nodup_append.mpr ⟨s.domains_nodup, domainRows_nodup hd, ?_⟩
          rintro ⟨id, d⟩ ha ⟨id', d'⟩ hb heq
          cases heq
          -- a domain row that was there belongs to a unit that was there
          obtain ⟨r', hr', hid, -⟩ := (s.mem_domains id d).mp ha
          have hid' := (mem_domainRows.mp hb).1
          have hnone := Table.find_none_of_insert h
          exact Table.find_eq_none_iff.mp hnone r' hr' (hid.trans hid'.symm)
        mem_domains := by
          intro id d
          rw [List.mem_append, s.mem_domains, mem_domainRows]
          constructor
          · rintro (⟨r', hr', hid, hd'⟩ | ⟨hid, hd'⟩)
            · exact ⟨r', (Table.mem_insert h).mpr (.inl hr'), hid, hd'⟩
            · exact ⟨r, (Table.mem_insert h).mpr (.inr rfl), hid, hd'⟩
          · rintro ⟨r', hr', hid, hd'⟩
            rcases (Table.mem_insert h).mp hr' with hr' | rfl
            · exact .inl ⟨r', hr', hid, hd'⟩
            · exact .inr ⟨hid, hd'⟩ }

theorem insertRow_eq_some {s s' : Store F} {r : Row F} {hd : r.unit.domains.Nodup}
    (h : s.insertRow r hd = some s') : s.units.insert r = some s'.units := by
  unfold insertRow at h
  split at h
  · cases h
  · rename_i units hins
    cases h
    exact hins

theorem insertRow_domains {s s' : Store F} {r : Row F} {hd : r.unit.domains.Nodup}
    (h : s.insertRow r hd = some s') : s'.domains = s.domains ++ domainRows r.unit := by
  unfold insertRow at h
  split at h
  · cases h
  · cases h
    rfl

theorem insertRow_eq_none_iff {s : Store F} {r : Row F} {hd : r.unit.domains.Nodup} :
    s.insertRow r hd = none ↔ s.units.insert r = none := by
  unfold insertRow
  split
  · rename_i hins
    simp [hins]
  · rename_i units hins
    simp [hins]

end Store

/-! ## Writing a unit back -/

section Replace

variable {F : Type}

/-- A row after a unit was written: unit and tier are replaced when the id is its own. -/
def Row.withUnit (r : Row F) (unit : KnowledgeUnit F) : Row F :=
  if r.id = unit.id then { r with unit, tier := unit.tier } else r

theorem Row.withUnit_id (r : Row F) (unit : KnowledgeUnit F) : (r.withUnit unit).id = r.id := by
  unfold withUnit
  split
  · rename_i h
    exact h.symm
  · rfl

end Replace

namespace Store

variable {F : Type}

/-- The transaction that replaces the unit of a row, its tier and its domain rows; `none`
when there is no row with its id (`KeyError`). -/
def replaceUnit (s : Store F) (unit : KnowledgeUnit F) (hd : unit.domains.Nodup) :
    Option (Store F) :=
  match h : s.units.find unit.id with
  | none => none
  | some old => some
      { units := s.units.update (fun r => r.id = unit.id) (fun r => r.withUnit unit)
          fun r => r.withUnit_id unit
        domains := (s.domains.filter fun p => p.1 ≠ unit.id) ++ domainRows unit
        domains_nodup := by
          refine List.nodup_append.mpr ⟨s.domains_nodup.filter _, domainRows_nodup hd, ?_⟩
          rintro ⟨id, d⟩ ha ⟨id', d'⟩ hb heq
          cases heq
          have hne := of_decide_eq_true (List.mem_filter.mp ha).2
          exact hne (mem_domainRows.mp hb).1.symm
        mem_domains := by
          obtain ⟨hold, hid⟩ := Table.find_eq_some_iff.mp h
          intro id d
          rw [List.mem_append, List.mem_filter, s.mem_domains, mem_domainRows]
          simp only [Table.mem_update]
          constructor
          · rintro (⟨⟨r, hr, rfl, hd'⟩, hne⟩ | ⟨rfl, hd'⟩)
            · have hne' : r.id ≠ unit.id := of_decide_eq_true hne
              exact ⟨r, ⟨r, hr, by simp [hne']⟩, rfl, hd'⟩
            · exact ⟨{ old with unit, tier := unit.tier },
                ⟨old, hold, by simp [Row.withUnit, hid]⟩, rfl, hd'⟩
          · rintro ⟨r', ⟨r, hr, rfl⟩, rfl, hd'⟩
            by_cases hk : r.id = unit.id
            · simp only [Row.withUnit, hk, decide_true, if_true] at hd' ⊢
              exact .inr ⟨rfl, hd'⟩
            · simp only [hk, decide_false, Bool.false_eq_true, if_false] at hd' ⊢
              exact .inl ⟨⟨r, hr, rfl, hd'⟩, by simp [hk]⟩ }

/-- The two tables after a unit was written back. -/
theorem replaceUnit_eq_some {s s' : Store F} {unit : KnowledgeUnit F}
    {hd : unit.domains.Nodup} (h : s.replaceUnit unit hd = some s') :
    s'.units = s.units.update (fun r => r.id = unit.id) (fun r => r.withUnit unit)
        (fun r => r.withUnit_id unit) ∧
      s'.domains = (s.domains.filter fun p => p.1 ≠ unit.id) ++ domainRows unit := by
  unfold replaceUnit at h
  split at h
  · cases h
  · cases h
    exact ⟨rfl, rfl⟩

theorem replaceUnit_eq_none_iff {s : Store F} {unit : KnowledgeUnit F}
    {hd : unit.domains.Nodup} : s.replaceUnit unit hd = none ↔ s.units.find unit.id = none := by
  unfold replaceUnit
  split
  · rename_i h
    simp [h]
  · rename_i old h
    simp [h]

/-- The rows after a unit was written back. -/
theorem replaceUnit_find {s s' : Store F} {unit : KnowledgeUnit F} {hd : unit.domains.Nodup}
    (h : s.replaceUnit unit hd = some s') (id : String) :
    s'.units.find id = (s.units.find id).map fun r => r.withUnit unit := by
  unfold replaceUnit at h
  split at h
  · cases h
  · rename_i old hold
    cases h
    dsimp only
    rw [Table.find_update]
    congr 1
    funext r
    by_cases hk : r.id = unit.id
    · simp [Row.withUnit, hk]
    · simp [Row.withUnit, hk]

/-- The other units are as they were. -/
theorem replaceUnit_find_of_ne {s s' : Store F} {unit : KnowledgeUnit F}
    {hd : unit.domains.Nodup} (h : s.replaceUnit unit hd = some s') {id : String}
    (hne : id ≠ unit.id) : s'.units.find id = s.units.find id := by
  rw [replaceUnit_find h]
  cases hr : s.units.find id with
  | none => rfl
  | some r =>
      have hid := (Table.find_eq_some_iff.mp hr).2
      have hne' : r.id ≠ unit.id := fun heq => hne (hid.symm.trans heq)
      simp [Row.withUnit, hne']

/-- The unit written is the one read afterwards. -/
theorem replaceUnit_find_self {s s' : Store F} {unit : KnowledgeUnit F}
    {hd : unit.domains.Nodup} (h : s.replaceUnit unit hd = some s') {r : Row F}
    (hr : s.units.find unit.id = some r) :
    s'.units.find unit.id = some { r with unit, tier := unit.tier } := by
  have hid := (Table.find_eq_some_iff.mp hr).2
  rw [replaceUnit_find h, hr]
  simp [Row.withUnit, hid]

/-- A store with the given rows: each is inserted in turn. -/
def ofRows (rows : List (Row F)) : Store F :=
  rows.foldl (fun s r => if hd : r.unit.domains.Nodup then (s.insertRow r hd).getD s else s) empty

/-- `update`: the domains of the unit are brought to normal form; `none` when nothing is
left of them (`ValueError`) or no unit has this id (`KeyError`). -/
def update [Casing] (s : Store F) (unit : KnowledgeUnit F) : Option (Store F) :=
  let domains := normalizeDomains unit.domains
  if domains = [] then none
  else s.replaceUnit { unit with domains } (normalizeDomains_nodup unit.domains)

end Store

end EighthLayer.Knowledge
