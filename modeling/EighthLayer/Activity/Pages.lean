import EighthLayer.Activity.Log

/-!
# EighthLayer.Activity.Pages

A client reads the activity log by following `next_cursor` until there is none, while rows are
logged in between.

The cursor is the key of the last row of a page, and is read back as that. So the pages are those
of a walk by keys: they go down, and each row that is there at the start is read once.
-/

namespace EighthLayer.Activity

open Lib Knowledge

/-! ## The cursor -/

/-- **The cursor.** It is read back, where the first part has no bar and neither is empty. -/
theorem decodeCursor_encodeCursor {ts id : String} (hts : ts ≠ "") (hbar : '|' ∉ ts.toList)
    (hid : id ≠ "") : decodeCursor (some (encodeCursor ts id)) = .ok (some (ts, id)) := by
  have hchars : (encodeCursor ts id).toList = ts.toList ++ '|' :: id.toList := by
    simp [encodeCursor, String.toList_append]
  have hcursor : encodeCursor ts id ≠ "" := by
    intro h
    rw [h] at hchars
    simp at hchars
  have hcut : upTo '|' (encodeCursor ts id).toList = ts.toList := by
    rw [hchars, upTo_append_cons hbar]
  have hrest : (encodeCursor ts id).toList.drop (ts.toList.length + 1) = id.toList := by
    rw [hchars, ← List.singleton_append, ← List.append_assoc, List.drop_left' (by simp)]
  have hmem : '|' ∈ (encodeCursor ts id).toList := by
    rw [hchars]
    simp
  have hparts : ¬ (ts.toList = [] ∨ id.toList = []) := by
    simp [hts, hid]
  rw [decodeCursor, if_neg hcursor, if_neg (not_not.mpr hmem)]
  dsimp only
  rw [hcut, hrest, if_neg hparts, String.ofList_toList, String.ofList_toList]

/-- The cursor of a row is read back. -/
theorem decodeCursor_row (r : ActivityRow) :
    decodeCursor (some (encodeCursor r.ts r.id)) = .ok (some (r.ts, r.id)) :=
  decodeCursor_encodeCursor r.loggedAt.isoZ_ne_empty (Clock.not_mem_isoZ (by decide) (by decide))
    r.id_ne

/-! ## The pages -/

/-- The cursor of a page is the key of its last row, as the text. -/
theorem nextCursor_items {items : List ActivityRow} {limit : Nat} :
    (if items.length = limit then items.getLast?.map fun r => encodeCursor r.ts r.id else none) =
      (nextCursor ActivityRow.key limit items).map fun k =>
        encodeCursor (ofLex k).1 (ofLex k).2 := by
  unfold nextCursor
  split
  · rw [Option.map_map]
    rfl
  · rfl

/-- The log at each request, where some rows are logged after each. A row whose id is taken is
dropped. -/
def logAt (log : ActivityLog) (logged : Nat → List ActivityRow) : Nat → ActivityLog
  | 0 => log
  | i + 1 => (logged i).foldl Table.insertOrIgnore (logAt log logged i)

theorem logAt_grows (log : ActivityLog) (logged : Nat → List ActivityRow) {i : Nat}
    {r : ActivityRow} (h : r ∈ logAt log logged i) : r ∈ logAt log logged (i + 1) :=
  Table.mem_foldl_insertOrIgnore h

theorem matches_grows (log : ActivityLog) (logged : Nat → List ActivityRow) (f : ActivityFilter)
    (i : Nat) : ∀ r ∈ (logAt log logged i).rows.filter f.matches,
      r ∈ (logAt log logged (i + 1)).rows.filter f.matches := by
  intro r hr
  obtain ⟨hmem, hmatches⟩ := List.mem_filter.mp hr
  exact List.mem_filter.mpr ⟨logAt_grows log logged hmem, hmatches⟩

/-- The keys of the rows that meet the conditions differ, since their ids do. -/
theorem matches_keys (log : ActivityLog) (f : ActivityFilter) :
    ((log.rows.filter f.matches).map ActivityRow.key).Nodup := by
  have hids : ((log.rows.filter f.matches).map ActivityRow.id).Nodup :=
    log.nodup.sublist (List.filter_sublist.map _)
  refine List.Nodup.of_map (fun k => (ofLex k).2) ?_
  rw [List.map_map]
  exact hids

section Walk

variable [Casing] (env : Environ) (user : ActivityUser) (username : String)
  (request : ActivityRequest)

/-- The items of at most `n` pages from request `i` on, and whether the last of them had no next
cursor. -/
def walkPages (log : Nat → ActivityLog) :
    (n i : Nat) → (cursor : Option String) → Except ActivityRefusal (List ActivityRow × Bool)
  | 0, _, _ => .ok ([], false)
  | n + 1, i, cursor => do
    let page ← listActivity env (some user) username (log i) request cursor
    match page.nextCursor with
    | none => .ok (page.items, true)
    | some c =>
      let rest ← walkPages log n (i + 1) (some c)
      .ok (page.items ++ rest.1, rest.2)

variable {env user username request} {f : ActivityFilter}

/-- One request, where the conditions and the cursor are read. -/
theorem listActivity_eq (hf : effectiveFilter env user username request = .ok f)
    {log : ActivityLog} {cursor : Option String} {after : Option (String × String)}
    (hcursor : decodeCursor cursor = .ok after) :
    listActivity env (some user) username log request cursor =
      .ok ⟨listRows log f request.limit after, (listRows log f request.limit after).length,
        (nextCursor ActivityRow.key request.limit (listRows log f request.limit after)).map
          fun k => encodeCursor (ofLex k).1 (ofLex k).2⟩ := by
  rw [← nextCursor_items]
  simp only [listActivity, hf, hcursor, bind, Except.bind]

/-- The pages are those of a walk by keys over the rows that meet the conditions. -/
theorem walkPages_eq (hf : effectiveFilter env user username request = .ok f)
    (log : Nat → ActivityLog) {n i : Nat} {cursor : Option String}
    {after : Option (String × String)} (hcursor : decodeCursor cursor = .ok after) :
    walkPages env user username request log n i cursor =
      .ok (keysetWalk ActivityRow.key request.limit (fun i => (log i).rows.filter f.matches) n i
        (after.map toLex)) := by
  induction n generalizing i cursor after with
  | zero => rfl
  | succ n ih =>
      rw [walkPages, listActivity_eq hf hcursor, keysetWalk]
      simp only [bind, Except.bind, listRows]
      generalize hpage : keysetPage ActivityRow.key request.limit (after.map toLex)
        ((log i).rows.filter f.matches) = page
      cases hnext : nextCursor ActivityRow.key request.limit page with
      | none => rfl
      | some k =>
          -- the key is one of a row, so that the cursor can be read
          obtain ⟨r, rfl⟩ : ∃ r : ActivityRow, r.key = k := by
            unfold nextCursor at hnext
            split at hnext
            · obtain ⟨r, -, hr⟩ := Option.map_eq_some_iff.mp hnext
              exact ⟨r, hr⟩
            · cases hnext
          have hrest : walkPages env user username request log n (i + 1)
              (some (encodeCursor (ofLex r.key).1 (ofLex r.key).2)) = _ :=
            ih (i := i + 1) (decodeCursor_row r)
          simp only [Option.map_some]
          rw [hrest]
          rfl

/-- What is read of a log that stays as it is: the rows that meet the conditions. -/
theorem mem_walkPages_iff (hf : effectiveFilter env user username request = .ok f)
    {log : ActivityLog} {n : Nat} {items : List ActivityRow}
    (hwalk : walkPages env user username request (fun _ => log) n 0 none = .ok (items, true))
    {r : ActivityRow} : r ∈ items ↔ r ∈ log ∧ f.matches r = true := by
  have hkeys := fun _ : Nat => matches_keys log f
  have hstart : decodeCursor none = .ok none := rfl
  rw [walkPages_eq hf _ hstart] at hwalk
  obtain ⟨rfl, hended⟩ := Prod.mk.inj (Except.ok.inj hwalk)
  constructor
  · intro hr
    exact List.mem_filter.mp (mem_of_mem_keysetWalk hkeys (fun _ _ h => .inl h) hr)
  · intro hr
    exact mem_keysetWalk request.limit_pos hkeys (fun _ _ h => h) hended (List.mem_filter.mpr hr)
      (below_none _)

end Walk

section Sample

local instance activityCasing : Casing := asciiCasing

/-- Noon of a day. -/
def noon : Clock where
  stamp := ⟨⟨2026, 6, 1, Written.year_ge, Written.year_le, Written.june_ge, Written.june_le,
      Written.first_ge, Written.june_first_le⟩, 12, 0, 0,
    Written.hour_twelve, Written.sixtieth_zero, Written.sixtieth_zero⟩
  micro := 0
  micro_lt := Written.micro_zero

theorem sampleRequest_pos : 0 < 50 := by decide
theorem sampleRequest_le : 50 ≤ 500 := by decide

/-- What a client asks for that leaves every condition out. -/
def sampleRequest : ActivityRequest where
  persona := none
  since := none
  until_ := none
  eventType := none
  limit := 50
  limit_pos := sampleRequest_pos
  limit_le := sampleRequest_le

/-- A row, logged at noon. -/
def sampleRow : ActivityRow where
  id := "act_01"
  loggedAt := noon
  tenantEnterprise := "acme"
  tenantGroup := some "engineering"
  persona := some "alice"
  human := none
  eventType := .query
  payload := "\x7b\x7d"
  resultSummary := none
  threadOrChainId := none
  id_ne := by decide

end Sample

end EighthLayer.Activity
