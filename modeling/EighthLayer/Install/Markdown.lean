import EighthLayer.Install.Files
import EighthLayer.Lib.Trim
import Mathlib.Data.List.Infix

/-!
# EighthLayer.Install.Markdown

The delimited block that the installer keeps in a Markdown file
(`scripts/install/src/cq_install/common.py`).

The block is put after the text of the user, with an empty line in between; later versions of it are
put in its place. What the markers enclose is found by searching for the two of them, so all depends on
their being where the block is and nowhere else: no marker has a line break in it, and the text before
the block ends with one.
-/

namespace EighthLayer.Install

open Lib

/-! ## Text files -/

/-- What a text file is read as: every kind of line break is `\n`. -/
def readText : List Char → List Char
  | [] => []
  | '\r' :: '\n' :: rest => '\n' :: readText rest
  | '\r' :: rest => '\n' :: readText rest
  | c :: rest => c :: readText rest

/-- What is written to a text file: on Windows `\n` becomes `\r\n`. -/
def writeText (windows : Bool) (text : List Char) : List Char :=
  if windows then text.flatMap fun c => if c = '\n' then ['\r', '\n'] else [c] else text

/-- `str.find`: where a marker occurs first. -/
def find (marker : List Char) : List Char → Option Nat
  | [] => if marker = [] then some 0 else none
  | c :: rest =>
    if marker.isPrefixOf (c :: rest) then some 0 else (find marker rest).map (· + 1)

/-- `s.strip("\n")`. -/
def stripLines (s : List Char) : List Char := trim (· == '\n') s

/-! ## The block -/

/-- `CQ_BLOCK_START`. -/
def blockStart : List Char := "<!-- cq:start -->".toList

/-- `CQ_BLOCK_END`. -/
def blockEnd : List Char := "<!-- cq:end -->".toList

/-- `upsert_markdown_block`, on a file that is not there or has this content. -/
def upsertMarkdownBlock (windows dryRun : Bool) (startMarker endMarker content : List Char)
    (file : Option (List Char)) : Action × Option (List Char) :=
  match file with
  | none =>
    (.created, if dryRun then none else some (writeText windows (content ++ ['\n'])))
  | some raw =>
    let text := readText raw
    match find startMarker text, find endMarker text with
    | none, _ =>
      (.updated, if dryRun then some raw
        else some (writeText windows (text.rdropWhile (· == '\n') ++ "\n\n".toList ++ content ++ ['\n'])))
    | some _, none => (.skipped, some raw)
    | some start, some finish =>
      if finish < start then (.skipped, some raw)
      else
        let blockEnd := finish + endMarker.length
        if (text.drop start).take (blockEnd - start) = content then (.unchanged, some raw)
        else
          (.updated, if dryRun then some raw
            else some (writeText windows (text.take start ++ content ++ text.drop blockEnd)))

/-- `remove_markdown_block`. -/
def removeMarkdownBlock (windows dryRun : Bool) (startMarker endMarker : List Char)
    (file : Option (List Char)) : Action × Option (List Char) :=
  match file with
  | none => (.unchanged, none)
  | some raw =>
    let text := readText raw
    match find startMarker text, find endMarker text with
    | none, _ => (.unchanged, some raw)
    | some _, none => (.skipped, some raw)
    | some start, some finish =>
      if finish < start then (.skipped, some raw)
      else
        let newText := stripLines (text.take start ++ text.drop (finish + endMarker.length))
        (.removed, if dryRun then some raw
          else if newText = [] then none
          else some (writeText windows (newText ++ ['\n'])))

/-! ### Reading what has been written -/

theorem not_mem_readText (raw : List Char) : '\r' ∉ readText raw := by
  fun_induction readText raw with
  | case1 => exact List.not_mem_nil
  | case2 rest ih => simpa using ih
  | case3 rest _ ih => simpa using ih
  | case4 c rest _ hc ih =>
      rw [List.mem_cons, not_or]
      exact ⟨fun heq => hc heq.symm, ih⟩

theorem readText_cons {c : Char} (hc : c ≠ '\r') (s : List Char) :
    readText (c :: s) = c :: readText s := by
  rw [readText]
  · intro rest heq
    exact absurd heq hc
  · exact hc

/-- A text that is written and read again. -/
def reread (windows : Bool) (text : List Char) : List Char := readText (writeText windows text)

theorem writeText_append (windows : Bool) (s s' : List Char) :
    writeText windows (s ++ s') = writeText windows s ++ writeText windows s' := by
  cases windows with
  | false => rfl
  | true => exact List.flatMap_append

theorem writeText_cons {c : Char} (hc : c ≠ '\n') (windows : Bool) (s : List Char) :
    writeText windows (c :: s) = c :: writeText windows s := by
  cases windows with
  | false => rfl
  | true =>
      unfold writeText
      rw [if_pos rfl, if_pos rfl, List.flatMap_cons, if_neg hc, List.singleton_append]

theorem readText_append {c : Char} (hc : c ≠ '\n') (s s' : List Char) :
    readText (s ++ c :: s') = readText s ++ readText (c :: s') := by
  fun_induction readText s with
  | case1 => rfl
  | case2 rest ih => exact congrArg ('\n' :: ·) ih
  | case3 rest hrest ih =>
      rw [List.cons_append, List.cons_append, ← ih]
      cases rest with
      | nil =>
          rw [List.nil_append, readText]
          intro rest' heq
          exact hc (List.cons.inj heq).1
      | cons d rest =>
          rw [List.cons_append, readText]
          intro rest' heq
          exact hrest rest (congrArg (· :: rest) (List.cons.inj heq).1)
  | case4 d rest hd hd' ih =>
      rw [List.cons_append, List.cons_append, ← ih]
      exact readText_cons hd' _

/-- What is around a character that is no line break is reread by itself. -/
theorem reread_append (windows : Bool) {c : Char} (hc : c ≠ '\n') (hc' : c ≠ '\r')
    (s s' : List Char) :
    reread windows (s ++ c :: s') = reread windows s ++ c :: reread windows s' := by
  unfold reread
  rw [writeText_append, writeText_cons hc, readText_append hc, readText_cons hc']

/-- So is what follows a text with no carriage return, which is as it was. -/
theorem reread_append_of_not_mem (windows : Bool) {text : List Char} (h : '\r' ∉ text)
    (s : List Char) : reread windows (text ++ s) = text ++ reread windows s := by
  induction text with
  | nil => rfl
  | cons c text ih =>
      obtain ⟨hc, hrest⟩ := not_or.mp (mt List.mem_cons.mpr h)
      have hih := ih hrest
      unfold reread at hih ⊢
      rw [List.cons_append, List.cons_append]
      by_cases hnewline : c = '\n'
      · subst hnewline
        cases windows with
        | false => exact (readText_cons (by decide) _).trans (congrArg ('\n' :: ·) hih)
        | true => exact congrArg ('\n' :: ·) hih
      · rw [writeText_cons hnewline, readText_cons (Ne.symm hc), hih]

theorem reread_of_not_mem (windows : Bool) {text : List Char} (h : '\r' ∉ text) :
    reread windows text = text := by
  have hall := reread_append_of_not_mem windows h []
  rw [List.append_nil] at hall
  rw [hall]
  cases windows with
  | false => exact List.append_nil text
  | true => exact List.append_nil text

/-! ### Where a marker occurs -/

/-- A marker is found past a text that does not have it, if something is in between that no marker
has. -/
theorem find_append_cons {marker : List Char} (hne : marker ≠ []) {c : Char} (hc : c ∉ marker)
    {pre : List Char} (hpre : ¬ marker <:+: pre) (rest : List Char) :
    find marker (pre ++ c :: rest) = (find marker rest).map (· + (pre.length + 1)) := by
  induction pre with
  | nil =>
      have hnot : marker.isPrefixOf (c :: rest) = false := by
        rw [Bool.eq_false_iff, ne_eq, List.isPrefixOf_iff_prefix]
        intro hprefix
        obtain ⟨d, marker, rfl⟩ := List.exists_cons_of_ne_nil hne
        obtain ⟨rfl, -⟩ := List.cons_prefix_cons.mp hprefix
        exact hc List.mem_cons_self
      rw [List.nil_append, find, hnot, if_neg Bool.false_ne_true]
      rfl
  | cons x pre ih =>
      have hnot : marker.isPrefixOf (x :: (pre ++ c :: rest)) = false := by
        rw [Bool.eq_false_iff, ne_eq, List.isPrefixOf_iff_prefix]
        intro hprefix
        -- it is a prefix of the text, or it reaches what no marker has
        have hprefix : marker <+: (x :: pre) ++ c :: rest := hprefix
        by_cases hlength : marker.length ≤ (x :: pre).length
        · exact hpre ((List.isPrefix_append_of_length hlength).mp hprefix).isInfix
        · refine hc ?_
          have hreach : (x :: pre) ++ [c] <+: marker := by
            refine @List.prefix_of_prefix_length_le _ _ _ ((x :: pre) ++ c :: rest) ?_ hprefix ?_
            · rw [← List.singleton_append (l := rest), ← List.append_assoc]
              exact List.prefix_append _ _
            · rw [List.length_append, List.length_singleton]
              omega
          exact hreach.subset (List.mem_append_right _ List.mem_cons_self)
      have hrest : ¬ marker <:+: pre := fun h => hpre (h.trans (List.suffix_cons x pre).isInfix)
      rw [List.cons_append, find, hnot, if_neg Bool.false_ne_true, ih hrest, Option.map_map]
      congr 1

/-- It is found where it occurs first. -/
theorem find_eq_length {marker text a b : List Char} (h : text = a ++ marker ++ b)
    (hfirst : ∀ a' b', text = a' ++ marker ++ b' → a.length ≤ a'.length) :
    find marker text = some a.length := by
  induction a generalizing text with
  | nil =>
      have hprefix : marker <+: text := ⟨b, h.symm⟩
      cases text with
      | nil => exact if_pos (List.prefix_nil.mp hprefix)
      | cons c text => exact if_pos (List.isPrefixOf_iff_prefix.mpr hprefix)
  | cons x a ih =>
      subst h
      have hnot : marker.isPrefixOf (x :: (a ++ marker ++ b)) = false := by
        rw [Bool.eq_false_iff, ne_eq, List.isPrefixOf_iff_prefix]
        intro hprefix
        obtain ⟨rest, hrest⟩ := hprefix
        exact absurd (hfirst [] rest hrest.symm) (by simp)
      have hfound : find marker (a ++ marker ++ b) = some a.length := by
        refine ih rfl fun a' b' heq => ?_
        have hle := hfirst (x :: a') b' (congrArg (x :: ·) heq)
        exact Nat.le_of_succ_le_succ hle
      show find marker (x :: (a ++ marker ++ b)) = _
      rw [find, hnot, if_neg Bool.false_ne_true, hfound]
      rfl

theorem find_eq_none {marker text : List Char} (h : ¬ marker <:+: text) :
    find marker text = none := by
  induction text with
  | nil => exact if_neg fun (hnil : marker = []) => h (hnil ▸ List.nil_infix)
  | cons c text ih =>
      have hnot : marker.isPrefixOf (c :: text) = false := by
        rw [Bool.eq_false_iff, ne_eq, List.isPrefixOf_iff_prefix]
        exact fun hprefix => h hprefix.isInfix
      rw [find, hnot, if_neg Bool.false_ne_true,
        ih fun hoccurs => h (hoccurs.trans (List.suffix_cons c text).isInfix)]
      rfl

/-! ### Rereading keeps the markers -/

/-- A text without line breaks, as the markers are. -/
def Breakless (m : List Char) : Prop := '\n' ∉ m ∧ '\r' ∉ m

theorem readText_eq_cons {c : Char} (hc : c ≠ '\n') {s t : List Char} (h : readText s = c :: t) :
    ∃ s', s = c :: s' ∧ readText s' = t := by
  unfold readText at h
  split at h
  · cases h
  · exact absurd (List.cons.inj h).1.symm hc
  · exact absurd (List.cons.inj h).1.symm hc
  · obtain ⟨rfl, ht⟩ := List.cons.inj h
    exact ⟨_, rfl, ht⟩

theorem readText_start {m s b' : List Char} (hm : Breakless m) (h : readText s = m ++ b') :
    ∃ b, s = m ++ b ∧ readText b = b' := by
  induction m generalizing s with
  | nil => exact ⟨s, rfl, h⟩
  | cons c m ih =>
      obtain ⟨hnewline, hreturn⟩ := hm
      rw [List.mem_cons, not_or] at hnewline hreturn
      obtain ⟨s, rfl, hs⟩ := readText_eq_cons (Ne.symm hnewline.1) h
      obtain ⟨b, rfl, hb⟩ := ih ⟨hnewline.2, hreturn.2⟩ hs
      exact ⟨b, rfl, hb⟩

/-- What has no line break is found in a text that is read only where it is written. -/
theorem readText_occurs {m s a' b' : List Char} (hm : Breakless m) (hne : m ≠ [])
    (h : readText s = a' ++ m ++ b') :
    ∃ a b, s = a ++ m ++ b ∧ readText a = a' ∧ readText b = b' := by
  have hhead : ∀ rest, '\n' :: rest ≠ m ++ b' := by
    intro rest heq
    obtain ⟨c, m, rfl⟩ := List.exists_cons_of_ne_nil hne
    exact hm.1 ((List.cons.inj heq).1 ▸ List.mem_cons_self)
  induction s using readText.induct generalizing a' with
  | case1 =>
      rw [List.append_assoc] at h
      exact absurd (List.append_eq_nil_iff.mp (List.append_eq_nil_iff.mp h.symm).2).1 hne
  | case2 rest ih =>
      cases a' with
      | nil => exact absurd h (hhead _)
      | cons x a' =>
          obtain ⟨rfl, htail⟩ := List.cons.inj h
          obtain ⟨a, b, rfl, rfl, hb⟩ := ih htail
          exact ⟨'\r' :: '\n' :: a, b, rfl, rfl, hb⟩
  | case3 rest hrest ih =>
      rw [readText] at h
      · cases a' with
        | nil => exact absurd h (hhead _)
        | cons x a' =>
            obtain ⟨rfl, htail⟩ := List.cons.inj h
            obtain ⟨a, b, rfl, rfl, hb⟩ := ih htail
            refine ⟨'\r' :: a, b, rfl, ?_, hb⟩
            rw [readText]
            rintro rest rfl
            exact hrest _ rfl
      · exact hrest
  | case4 c rest hc hc' ih =>
      rw [readText_cons hc'] at h
      cases a' with
      | nil =>
          rw [← readText_cons hc'] at h
          obtain ⟨b, hs, hb⟩ := readText_start hm h
          exact ⟨[], b, hs, rfl, hb⟩
      | cons x a' =>
          obtain ⟨rfl, htail⟩ := List.cons.inj h
          obtain ⟨a, b, rfl, rfl, hb⟩ := ih htail
          exact ⟨c :: a, b, rfl, readText_cons hc' a, hb⟩

theorem writeText_start {windows : Bool} {m s b' : List Char} (hm : Breakless m)
    (h : writeText windows s = m ++ b') : ∃ b, s = m ++ b ∧ writeText windows b = b' := by
  induction m generalizing s with
  | nil => exact ⟨s, rfl, h⟩
  | cons c m ih =>
      obtain ⟨hnewline, hreturn⟩ := hm
      rw [List.mem_cons, not_or] at hnewline hreturn
      cases s with
      | nil => cases windows <;> cases h
      | cons d s =>
          by_cases hd : d = '\n'
          · subst hd
            cases windows with
            | false => exact absurd (List.cons.inj h).1 hnewline.1
            | true => exact absurd (List.cons.inj h).1 hreturn.1
          · rw [writeText_cons hd] at h
            obtain ⟨rfl, htail⟩ := List.cons.inj h
            obtain ⟨b, rfl, hb⟩ := ih ⟨hnewline.2, hreturn.2⟩ htail
            exact ⟨b, rfl, hb⟩

/-- And in a text that is written only where it is. -/
theorem writeText_occurs {windows : Bool} {m s a' b' : List Char} (hm : Breakless m) (hne : m ≠ [])
    (h : writeText windows s = a' ++ m ++ b') :
    ∃ a b, s = a ++ m ++ b ∧ writeText windows a = a' ∧ writeText windows b = b' := by
  cases windows with
  | false => exact ⟨a', b', h, rfl, rfl⟩
  | true =>
      have hhead : ∀ c rest, c = '\r' ∨ c = '\n' → c :: rest ≠ m ++ b' := by
        intro c rest hc heq
        obtain ⟨d, m, rfl⟩ := List.exists_cons_of_ne_nil hne
        obtain ⟨rfl, -⟩ := List.cons.inj heq
        rcases hc with rfl | rfl
        · exact hm.2 List.mem_cons_self
        · exact hm.1 List.mem_cons_self
      induction s generalizing a' with
      | nil =>
          rw [List.append_assoc] at h
          exact absurd (List.append_eq_nil_iff.mp (List.append_eq_nil_iff.mp h.symm).2).1 hne
      | cons c s ih =>
          by_cases hc : c = '\n'
          · subst hc
            have hpair : '\r' :: '\n' :: writeText true s = a' ++ m ++ b' := h
            -- what is before it has the whole of the pair
            rcases a' with _ | ⟨x, _ | ⟨y, a'⟩⟩
            · exact absurd hpair (hhead _ _ (.inl rfl))
            · exact absurd (List.cons.inj hpair).2 (hhead _ _ (.inr rfl))
            · obtain ⟨rfl, htail⟩ := List.cons.inj hpair
              obtain ⟨rfl, hrest⟩ := List.cons.inj htail
              obtain ⟨a, b, rfl, rfl, hb⟩ := ih hrest
              exact ⟨'\n' :: a, b, rfl, rfl, hb⟩
          · cases a' with
            | nil =>
                obtain ⟨b, hs, hb⟩ := writeText_start hm h
                exact ⟨[], b, hs, rfl, hb⟩
            | cons x a' =>
                rw [writeText_cons hc] at h
                obtain ⟨rfl, htail⟩ := List.cons.inj h
                obtain ⟨a, b, rfl, rfl, hb⟩ := ih htail
                exact ⟨c :: a, b, rfl, writeText_cons hc true a, hb⟩

theorem reread_occurs {windows : Bool} {m s a' b' : List Char} (hm : Breakless m) (hne : m ≠ [])
    (h : reread windows s = a' ++ m ++ b') :
    ∃ a b, s = a ++ m ++ b ∧ reread windows a = a' ∧ reread windows b = b' := by
  obtain ⟨a, b, hwritten, rfl, rfl⟩ := readText_occurs hm hne h
  obtain ⟨a, b, hs, rfl, rfl⟩ := writeText_occurs hm hne hwritten
  exact ⟨a, b, hs, rfl, rfl⟩

/-! ## Blocks -/

/-- A text that begins and ends with the markers, and has them only there. -/
structure Block where
  content : List Char
  starts : blockStart <+: content
  ends : blockEnd <:+ content
  startOnly : ∀ a b, content = a ++ blockStart ++ b → a = []
  endOnly : ∀ a b, content = a ++ blockEnd ++ b → b = []

theorem breakless_blockStart : Breakless blockStart := ⟨by decide, by decide⟩

theorem breakless_blockEnd : Breakless blockEnd := ⟨by decide, by decide⟩

theorem reread_nil (windows : Bool) : reread windows [] = [] := by
  cases windows <;> rfl

/-- What ends with the end marker is reread without what is after it. -/
theorem reread_blockEnd_append (windows : Bool) (t : List Char) {s : List Char} (hs : '\r' ∉ s) :
    reread windows (t ++ blockEnd ++ s) = reread windows t ++ blockEnd ++ s := by
  have hrest : '\r' ∉ "!-- cq:end -->".toList ++ s := by
    rw [List.mem_append, not_or]
    exact ⟨by decide, hs⟩
  rw [List.append_assoc, List.append_assoc]
  show reread windows (t ++ '<' :: ("!-- cq:end -->".toList ++ s)) = _
  rw [reread_append windows (by decide) (by decide), reread_of_not_mem windows hrest]
  rfl

/-- A block that is written and read again, which is a block. -/
def Block.reread (windows : Bool) (B : Block) : Block where
  content := Install.reread windows B.content
  starts := by
    obtain ⟨t, ht⟩ := B.starts
    rw [← ht, reread_append_of_not_mem windows breakless_blockStart.2]
    exact List.prefix_append _ _
  ends := by
    obtain ⟨t, ht⟩ := B.ends
    have hend := reread_blockEnd_append windows t List.not_mem_nil
    rw [List.append_nil, List.append_nil, ht] at hend
    exact ⟨_, hend.symm⟩
  startOnly a b h := by
    obtain ⟨a, b, hcontent, rfl, -⟩ := reread_occurs breakless_blockStart (by decide) h
    rw [B.startOnly a b hcontent, reread_nil]
  endOnly a b h := by
    obtain ⟨a, b, hcontent, -, rfl⟩ := reread_occurs breakless_blockEnd (by decide) h
    rw [B.endOnly a b hcontent, reread_nil]

theorem Block.reread_of_not_mem (windows : Bool) {B : Block} (h : '\r' ∉ B.content) :
    B.reread windows = B := by
  have hcontent := Install.reread_of_not_mem windows h
  cases B
  unfold Block.reread
  congr 1

/-- The start marker of a block is found at its beginning. -/
theorem Block.find_start (B : Block) : find blockStart (B.content ++ ['\n']) = some 0 := by
  obtain ⟨t, ht⟩ := B.starts
  refine find_eq_length (a := []) (b := t ++ ['\n']) ?_ fun _ _ _ => Nat.zero_le _
  rw [← ht, List.append_assoc, List.nil_append]

/-- Its end marker is found at its end. -/
theorem Block.find_end (B : Block) :
    find blockEnd (B.content ++ ['\n']) = some (B.content.length - blockEnd.length) := by
  obtain ⟨t, ht⟩ := B.ends
  have hlength : B.content.length - blockEnd.length = t.length := by
    rw [← ht, List.length_append, Nat.add_sub_cancel]
  rw [hlength]
  refine find_eq_length (b := ['\n']) (by rw [ht]) fun a' b' h => ?_
  rcases List.eq_nil_or_concat' b' with rfl | ⟨b', c, rfl⟩
  · -- a marker does not end with a line break
    have hlast : B.content ++ ['\n'] = (a' ++ "<!-- cq:end --".toList) ++ ['>'] := by
      rw [h, List.append_nil, List.append_assoc]
      rfl
    exact absurd (List.append_inj' hlast rfl).2 (by decide)
  · have hcontent : B.content = a' ++ blockEnd ++ b' := by
      rw [← List.append_assoc] at h
      exact (List.append_inj' h rfl).1
    have hb := B.endOnly a' b' hcontent
    rw [hb, List.append_nil, ← ht] at hcontent
    exact (congrArg List.length (List.append_inj' hcontent rfl).1).le

/-! ## A file with the block -/

/-- A text without the markers, as it is read. -/
structure Unmarked (user : List Char) : Prop where
  noReturn : '\r' ∉ user
  noStart : ¬ blockStart <:+: user
  noEnd : ¬ blockEnd <:+: user

/-- The text of the user, and the block after it. -/
def withBlock (user : List Char) (B : Block) : List Char :=
  user ++ "\n\n".toList ++ (B.content ++ ['\n'])

theorem reread_withBlock (windows : Bool) {user : List Char} (hu : Unmarked user) (B : Block) :
    reread windows (withBlock user B) = withBlock user (B.reread windows) := by
  obtain ⟨t, ht⟩ := B.ends
  have hnewline : '\r' ∉ ['\n'] := by decide
  have hreturn : '\r' ∉ user ++ "\n\n".toList := by
    rw [List.mem_append, not_or]
    exact ⟨hu.noReturn, by decide⟩
  have hblock : (B.reread windows).content = reread windows t ++ blockEnd := by
    have hend := reread_blockEnd_append windows t List.not_mem_nil
    rwa [List.append_nil, List.append_nil, ht] at hend
  unfold withBlock
  rw [reread_append_of_not_mem windows hreturn, hblock, ← ht,
    reread_blockEnd_append windows t hnewline]

/-- A marker that the user's text does not have is found in what is after it. -/
theorem find_withBlock {marker user : List Char} (hm : Breakless marker) (hne : marker ≠ [])
    (huser : ¬ marker <:+: user) (rest : List Char) :
    find marker (user ++ "\n\n".toList ++ rest) =
      (find marker rest).map (· + (user.length + 2)) := by
  have hnil : ¬ marker <:+: [] := fun h => hne (List.infix_nil.mp h)
  have hsecond := find_append_cons hne hm.1 hnil rest
  rw [List.append_assoc]
  show find marker (user ++ '\n' :: ([] ++ '\n' :: rest)) = _
  rw [find_append_cons hne hm.1 huser, hsecond, Option.map_map]
  congr 1
  funext i
  show i + (0 + 1) + (user.length + 1) = i + (user.length + 2)
  omega

theorem find_start_withBlock {user : List Char} (hu : Unmarked user) (B : Block) :
    find blockStart (withBlock user B) = some (user.length + 2) := by
  unfold withBlock
  rw [find_withBlock breakless_blockStart (by decide) hu.noStart, B.find_start, Option.map_some,
    Nat.zero_add]

theorem find_end_withBlock {user : List Char} (hu : Unmarked user) (B : Block) :
    find blockEnd (withBlock user B) =
      some (B.content.length - blockEnd.length + (user.length + 2)) := by
  unfold withBlock
  rw [find_withBlock breakless_blockEnd (by decide) hu.noEnd, B.find_end, Option.map_some]

theorem Block.blockEnd_le (B : Block) : blockEnd.length ≤ B.content.length := B.ends.length_le

theorem take_withBlock (user : List Char) (B : Block) :
    (withBlock user B).take (user.length + 2) = user ++ "\n\n".toList := by
  exact List.take_left' (List.length_append)

theorem drop_withBlock (user : List Char) (B : Block) :
    (withBlock user B).drop (user.length + 2) = B.content ++ ['\n'] := by
  exact List.drop_left' (List.length_append)

theorem drop_block_withBlock (user : List Char) (B : Block) :
    (withBlock user B).drop (B.content.length - blockEnd.length + (user.length + 2) +
      blockEnd.length) = ['\n'] := by
  have hlength : B.content.length - blockEnd.length + (user.length + 2) + blockEnd.length =
      (user.length + 2) + B.content.length := by
    have hle := B.blockEnd_le
    omega
  rw [hlength, ← List.drop_drop, drop_withBlock]
  exact List.drop_left' rfl

/-- **A file with the block gets the new one in its place**, if it reads different. -/
theorem upsert_withBlock (windows : Bool) {user : List Char} (hu : Unmarked user) (B B' : Block) :
    upsertMarkdownBlock windows false blockStart blockEnd B'.content
        (some (writeText windows (withBlock user B))) =
      if (B.reread windows).content = B'.content then
        (.unchanged, some (writeText windows (withBlock user B)))
      else (.updated, some (writeText windows (withBlock user B'))) := by
  have hread : readText (writeText windows (withBlock user B)) = withBlock user (B.reread windows) :=
    reread_withBlock windows hu B
  have hblock : ((withBlock user (B.reread windows)).drop (user.length + 2)).take
      ((B.reread windows).content.length - blockEnd.length + (user.length + 2) + blockEnd.length -
        (user.length + 2)) = (B.reread windows).content := by
    rw [drop_withBlock]
    refine List.take_left' ?_
    have hle := (B.reread windows).blockEnd_le
    omega
  unfold upsertMarkdownBlock
  dsimp only
  rw [hread, find_start_withBlock hu, find_end_withBlock hu]
  dsimp only
  rw [if_neg (by omega), hblock, take_withBlock, drop_block_withBlock, if_neg Bool.false_ne_true]
  unfold withBlock
  rw [List.append_assoc _ B'.content]

/-- A file without one gets it after the user's text. -/
theorem upsert_first (windows : Bool) {raw : List Char} (hu : Unmarked (readText raw)) (B : Block) :
    upsertMarkdownBlock windows false blockStart blockEnd B.content (some raw) =
      (.updated, some (writeText windows
        (withBlock ((readText raw).rdropWhile (· == '\n')) B))) := by
  unfold upsertMarkdownBlock withBlock
  dsimp only
  rw [find_eq_none hu.noStart, if_neg Bool.false_ne_true, List.append_assoc _ B.content]

/-- **The block is removed** with the line breaks at the ends of the text. -/
theorem remove_withBlock (windows : Bool) {user : List Char} (hu : Unmarked user) (B : Block) :
    removeMarkdownBlock windows false blockStart blockEnd
        (some (writeText windows (withBlock user B))) =
      (.removed, if stripLines user = [] then none
        else some (writeText windows (stripLines user ++ ['\n']))) := by
  have hread : readText (writeText windows (withBlock user B)) = withBlock user (B.reread windows) :=
    reread_withBlock windows hu B
  have hstrip : stripLines (user ++ "\n\n".toList ++ ['\n']) = stripLines user := by
    rw [List.append_assoc]
    exact trim_append_of_forall (forall_mem_of_all (by decide)) user
  unfold removeMarkdownBlock
  dsimp only
  rw [hread, find_start_withBlock hu, find_end_withBlock hu]
  dsimp only
  rw [if_neg (by omega), take_withBlock, drop_block_withBlock, hstrip, if_neg Bool.false_ne_true]

/-! ## Blocks one after the other -/

/-- The blocks are put into a file one after the other. -/
def upsertBlocks (windows : Bool) (file : Option (List Char)) (blocks : List Block) :
    Option (List Char) :=
  blocks.foldl
    (fun file B => (upsertMarkdownBlock windows false blockStart blockEnd B.content file).2) file

/-- The lines of a file from the first to the last that is not empty. -/
def userText : Option (List Char) → List Char
  | none => []
  | some raw => stripLines (readText raw)

theorem upsertBlocks_concat (windows : Bool) (file : Option (List Char)) (blocks : List Block)
    (B : Block) :
    upsertBlocks windows file (blocks ++ [B]) =
      (upsertMarkdownBlock windows false blockStart blockEnd B.content
        (upsertBlocks windows file blocks)).2 := by
  unfold upsertBlocks
  rw [List.foldl_append]
  rfl

theorem Unmarked.rdropWhile {user : List Char} (hu : Unmarked user) :
    Unmarked (user.rdropWhile (· == '\n')) := by
  have hprefix := List.rdropWhile_prefix (· == '\n') user
  exact ⟨fun h => hu.noReturn (List.IsPrefix.subset hprefix h),
    fun h => hu.noStart (h.trans hprefix.isInfix),
    fun h => hu.noEnd (h.trans hprefix.isInfix)⟩

/-- Whatever the blocks before are, the file has the last one, or one that reads the same. -/
theorem upsertBlocks_spec (windows : Bool) {raw : List Char} (hu : Unmarked (readText raw))
    (blocks : List Block) (B : Block) :
    ∃ B' : Block, (B' = B ∨ (B'.reread windows).content = B.content) ∧
      upsertBlocks windows (some raw) (blocks ++ [B]) =
        some (writeText windows (withBlock ((readText raw).rdropWhile (· == '\n')) B')) := by
  induction blocks using List.reverseRecOn generalizing B with
  | nil =>
      refine ⟨B, .inl rfl, ?_⟩
      rw [upsertBlocks_concat]
      exact congrArg Prod.snd (upsert_first windows hu B)
  | append_singleton blocks B₀ ih =>
      obtain ⟨B', -, hfile⟩ := ih B₀
      rw [upsertBlocks_concat, hfile, upsert_withBlock windows hu.rdropWhile]
      by_cases hsame : (B'.reread windows).content = B.content
      · rw [if_pos hsame]
        exact ⟨B', .inr hsame, rfl⟩
      · rw [if_neg hsame]
        exact ⟨B, .inl rfl, rfl⟩

/-- The markers of a block do not overlap. -/
theorem Block.exists_between (B : Block) :
    ∃ between, B.content = blockStart ++ between ++ blockEnd := by
  obtain ⟨t, ht⟩ := B.starts
  obtain ⟨t', ht'⟩ := B.ends
  rcases List.append_eq_append_iff.mp (ht'.trans ht.symm) with
    ⟨shared, hstart, hend⟩ | ⟨between, rfl, rfl⟩
  · cases shared with
    | nil =>
        refine ⟨[], ?_⟩
        rw [← ht, List.append_nil]
        exact congrArg _ hend.symm
    | cons c shared =>
        -- the end marker begins with `<`, as the start marker does, which has no other
        obtain ⟨rfl, -⟩ : '<' = c ∧ _ := List.cons.inj hend
        cases t' with
        | nil =>
            have hprefix : blockStart <+: blockEnd := ⟨t, by rw [hstart, hend]; rfl⟩
            exact absurd hprefix (by decide)
        | cons x t' =>
            have htail : "!-- cq:start -->".toList = t' ++ '<' :: shared := (List.cons.inj hstart).2
            have hmem : '<' ∈ "!-- cq:start -->".toList :=
              htail ▸ List.mem_append_right _ List.mem_cons_self
            exact absurd hmem (by decide)
  · exact ⟨between, by rw [← ht, List.append_assoc]⟩

theorem writeText_of_breakless (windows : Bool) {m : List Char} (hm : Breakless m) :
    writeText windows m = m := by
  induction m with
  | nil => cases windows <;> rfl
  | cons c m ih =>
      obtain ⟨hnewline, hreturn⟩ := hm
      rw [List.mem_cons, not_or] at hnewline hreturn
      rw [writeText_cons (Ne.symm hnewline.1), ih ⟨hnewline.2, hreturn.2⟩]

/-- **The round trip**: the text of the user comes back whatever the blocks are that have been put into
the file, a block with no carriage return is not put in twice, and nothing but what is between the
markers is ever different from one block to the next. -/
theorem markdown_round_trip (windows : Bool) {raw : List Char}
    (hstart : ¬ blockStart <:+: readText raw) (hend : ¬ blockEnd <:+: readText raw) :
    (∀ blocks, userText (removeMarkdownBlock windows false blockStart blockEnd
        (upsertBlocks windows (some raw) blocks)).2 = userText (some raw)) ∧
      (∀ blocks (B : Block), '\r' ∉ B.content →
        upsertMarkdownBlock windows false blockStart blockEnd B.content
            (upsertBlocks windows (some raw) (blocks ++ [B])) =
          (.unchanged, upsertBlocks windows (some raw) (blocks ++ [B]))) ∧
      ∃ pre post, ∀ blocks B, ∃ between, upsertBlocks windows (some raw) (blocks ++ [B]) =
        some (pre ++ blockStart ++ between ++ blockEnd ++ post) := by
  have hu : Unmarked (readText raw) := ⟨not_mem_readText raw, hstart, hend⟩
  refine ⟨fun blocks => ?_, fun blocks B hB => ?_, writeText windows
    ((readText raw).rdropWhile (· == '\n') ++ "\n\n".toList), writeText windows ['\n'],
    fun blocks B => ?_⟩
  · rcases List.eq_nil_or_concat' blocks with rfl | ⟨blocks, B, rfl⟩
    · show userText (removeMarkdownBlock windows false blockStart blockEnd (some raw)).2 = _
      unfold removeMarkdownBlock
      dsimp only
      rw [find_eq_none hu.noStart]
    · obtain ⟨B', -, hfile⟩ := upsertBlocks_spec windows hu blocks B
      have hstrip : stripLines ((readText raw).rdropWhile (· == '\n')) = userText (some raw) :=
        trim_rdropWhile _ _
      rw [hfile, remove_withBlock windows hu.rdropWhile, hstrip]
      by_cases hnil : userText (some raw) = []
      · rw [if_pos hnil, hnil]
        rfl
      · rw [if_neg hnil]
        have hreturn : '\r' ∉ userText (some raw) ++ ['\n'] := by
          rw [List.mem_append, not_or]
          exact ⟨fun h => not_mem_readText raw (mem_of_mem_trim h), by decide⟩
        show stripLines (reread windows (userText (some raw) ++ ['\n'])) = _
        rw [reread_of_not_mem windows hreturn]
        exact (trim_append_of_forall (forall_mem_of_all (by decide)) _).trans (trim_trim (fun _ hx => hx) _)
  · obtain ⟨B', hB', hfile⟩ := upsertBlocks_spec windows hu blocks B
    have hsame : (B'.reread windows).content = B.content := by
      rcases hB' with rfl | hsame
      · rw [Block.reread_of_not_mem windows hB]
      · exact hsame
    rw [hfile, upsert_withBlock windows hu.rdropWhile, if_pos hsame]
  · obtain ⟨B', -, hfile⟩ := upsertBlocks_spec windows hu blocks B
    obtain ⟨between, hbetween⟩ := B'.exists_between
    refine ⟨writeText windows between, ?_⟩
    rw [hfile]
    unfold withBlock
    rw [hbetween]
    simp only [writeText_append, writeText_of_breakless windows breakless_blockStart,
      writeText_of_breakless windows breakless_blockEnd, List.append_assoc]

/-! ### Blocks with one character -/

/-- Where a text can occur is checked at every place. -/
theorem forall_occurs {m content : List Char} {P : Nat → Prop}
    (h : ∀ i < content.length + 1, m <+: content.drop i → P i) :
    ∀ a b, content = a ++ m ++ b → P a.length := by
  intro a b hcontent
  refine h a.length ?_ ?_
  · rw [hcontent, List.length_append, List.length_append]
    omega
  · rw [hcontent, List.append_assoc, List.drop_left' rfl]
    exact List.prefix_append _ _

/-- A block around one character. -/
def characterBlock (c : Char)
    (hstart : ∀ i < (blockStart ++ [c] ++ blockEnd).length + 1,
      blockStart <+: (blockStart ++ [c] ++ blockEnd).drop i → i = 0)
    (hend : ∀ i < (blockStart ++ [c] ++ blockEnd).length + 1,
      blockEnd <+: (blockStart ++ [c] ++ blockEnd).drop i → i = 18) : Block where
  content := blockStart ++ [c] ++ blockEnd
  starts := ⟨[c] ++ blockEnd, (List.append_assoc _ _ _).symm⟩
  ends := List.suffix_append _ _
  startOnly a b h := List.length_eq_zero_iff.mp (forall_occurs hstart a b h)
  endOnly a b h := by
    have hlength := forall_occurs hend a b h
    have hall := congrArg List.length h
    have hcontent : (blockStart ++ [c] ++ blockEnd).length = 18 + blockEnd.length := rfl
    rw [hcontent, List.length_append, List.length_append, hlength] at hall
    refine List.length_eq_zero_iff.mp ?_
    omega

def plainBlock : Block := characterBlock '.' (by decide +kernel) (by decide +kernel)

def carriageBlock : Block := characterBlock '\r' (by decide +kernel) (by decide +kernel)

theorem markdown_round_trip_sample :
    userText (removeMarkdownBlock true false blockStart blockEnd
      (upsertBlocks true (some "Hello\r\n".toList) [carriageBlock, plainBlock])).2 =
        "Hello".toList ∧
    (upsertMarkdownBlock true false blockStart blockEnd plainBlock.content
      (upsertBlocks true (some "Hello\r\n".toList) [carriageBlock, plainBlock])).1 = .unchanged := by
  have hall := @markdown_round_trip true "Hello\r\n".toList (by decide +kernel) (by decide +kernel)
  refine ⟨(hall.1 [carriageBlock, plainBlock]).trans (by decide +kernel), ?_⟩
  exact congrArg Prod.fst (hall.2.1 [carriageBlock] plainBlock (by decide +kernel))

/-- A block with a carriage return is read with a line feed, and put in again. -/
theorem carriageBlock_updated_again :
    ¬ blockStart <:+: readText [] ∧ ¬ blockEnd <:+: readText [] ∧
      (upsertMarkdownBlock false false blockStart blockEnd carriageBlock.content
        (upsertBlocks false (some []) [carriageBlock])).1 = .updated := by
  decide +kernel

end EighthLayer.Install
