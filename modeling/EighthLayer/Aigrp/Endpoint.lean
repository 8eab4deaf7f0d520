import EighthLayer.Knowledge.Unit
import EighthLayer.Lib.Like
import EighthLayer.Lib.Uri
import Mathlib.Data.List.DropRight

/-!
# EighthLayer.Aigrp.Endpoint

The guard of the endpoints that a query is forwarded to (`_endpoint_is_safe`), next to the host that
a client connects to.

The guard cuts the host out of the text by hand, up to the first slash. It takes no notice of
brackets, nor of a `?` or a `#` that ends the authority before a slash does.
-/

namespace EighthLayer.Aigrp

open Lib Knowledge

/-! ## The guard -/

/-- Digits outside ASCII, by tables of the Unicode standard: what `str.isdigit` says of them, and
what `int` takes them for. Some digits have no such value. -/
class Digits where
  isDigit : Char → Bool
  value : Char → Option Nat

/-- No digits but those of ASCII. -/
abbrev asciiDigits : Digits := ⟨fun _ => false, fun _ => none⟩

section Guard

variable [Digits]

/-- `str.isdigit`, of a character. -/
def isDigitChar (c : Char) : Bool := c.isDigit || (127 < c.toNat && Digits.isDigit c)

/-- What `int` takes a digit for. -/
def digitValue (c : Char) : Option Nat :=
  if c.isDigit = true then some (c.toNat - 48) else if 127 < c.toNat then Digits.value c else none

/-- `int` of a text of digits; `none` is its `ValueError`. It reads 4300 digits at most. -/
def intOfDigits (l : List Char) : Option Nat :=
  if 4300 < l.length then none
  else (l.mapM digitValue).map fun ds => ds.foldl (fun n d => n * 10 + d) 0

/-- `172.16.0.0/12`: the second octet is from 16 to 31. -/
def inPrivate172 (host : List Char) : Option Bool :=
  if "172.".toList <+: host then
    match (host.splitOn '.')[1]? with
    | none => some false
    | some part =>
        if part ≠ [] ∧ part.all isDigitChar = true then
          (intOfDigits part).map fun n => decide (16 ≤ n ∧ n ≤ 31)
        else some false
  else some false

/-- The other blocks, by their first digits. -/
def blockedPrefixes : List String := ["127.", "10.", "192.168.", "169.254.", "0."]

/-- Whether a host is refused; `none` is a `ValueError`. -/
def blockedHost (host : List Char) : Option Bool :=
  if host = "localhost".toList ∨ host = [] ∨ ".localhost".toList <:+ host then some true
  else if ∃ p ∈ blockedPrefixes, p.toList <+: host then some true
  else if host = "::1".toList ∨ "[::1]".toList <+: host then some true
  else inPrivate172 host

/-- The host, as the guard cuts it out of what follows the scheme. -/
def guardHost (rest : List Char) : List Char := upTo ':' (afterLast '@' (upTo '/' rest))

variable [Casing]

/-- The text that the guard looks at. -/
def guardUrl (endpointUrl : String) : List Char := (Casing.lower (strip endpointUrl)).toList

/-- `_endpoint_is_safe`; `none` is a `ValueError`. -/
def endpointIsSafe (endpointUrl : String) : Option Bool :=
  if "https://".toList <+: guardUrl endpointUrl then
    (blockedHost (guardHost ((guardUrl endpointUrl).drop 8))).map (!·)
  else some false

end Guard

/-! ## Lower case -/

/-- What `str.lower` may make of a character: of an ASCII one its small letter, of any other no
ASCII but small letters. -/
def LowersTo (c : Char) (l : List Char) : Prop :=
  if c.toNat < 128 then l = [c.toLower] else ∀ x ∈ l, 128 ≤ x.toNat ∨ x.isLower = true

/-- A text in lower case, character by character. -/
inductive Lowers : List Char → List Char → Prop where
  | nil : Lowers [] []
  | cons {c : Char} {s l t : List Char} (hc : LowersTo c l) (hs : Lowers s t) :
      Lowers (c :: s) (l ++ t)

namespace Lowers

theorem of_ascii {c : Char} {s t : List Char} (hc : c.toNat < 128) (h : Lowers (c :: s) t) :
    ∃ t', t = c.toLower :: t' ∧ Lowers s t' := by
  cases h with
  | cons hto hs =>
      rw [LowersTo, if_pos hc] at hto
      subst hto
      exact ⟨_, rfl, hs⟩

theorem append {s s' t : List Char} (h : Lowers (s ++ s') t) :
    ∃ u u', t = u ++ u' ∧ Lowers s u ∧ Lowers s' u' := by
  induction s generalizing t with
  | nil => exact ⟨[], t, rfl, .nil, h⟩
  | cons c s ih =>
      cases h with
      | cons hto hs =>
          obtain ⟨u, u', rfl, hu, hu'⟩ := ih hs
          exact ⟨_, u', (List.append_assoc _ _ _).symm, .cons hto hu, hu'⟩

/-- An ASCII text at the start has one reading. -/
theorem ascii_append {s s' t : List Char} (hs : ∀ c ∈ s, c.toNat < 128) (h : Lowers (s ++ s') t) :
    ∃ t', t = s.map Char.toLower ++ t' ∧ Lowers s' t' := by
  induction s generalizing t with
  | nil => exact ⟨t, rfl, h⟩
  | cons c s ih =>
      obtain ⟨t', rfl, hmore⟩ := of_ascii (hs c List.mem_cons_self) h
      obtain ⟨t'', rfl, hrest⟩ := ih (fun c hc => hs c (List.mem_cons_of_mem _ hc)) hmore
      exact ⟨t'', rfl, hrest⟩

/-- A mark, which is an ASCII character but no letter, is there just if it was. -/
theorem mem_mark {m : Char} (hascii : m.toNat < 128) (halpha : m.isAlpha = false)
    {s t : List Char} (h : Lowers s t) : m ∈ t ↔ m ∈ s := by
  obtain ⟨hupper, hlower⟩ := Bool.or_eq_false_iff.mp halpha
  induction h with
  | nil => simp
  | cons hto hs ih =>
      rename_i c s l t
      have hmem : m ∈ l ↔ m = c := by
        unfold LowersTo at hto
        split at hto
        · subst hto
          rw [List.mem_singleton]
          refine ⟨fun heq => ?_, fun heq => heq ▸ (toLower_eq_self hupper).symm⟩
          by_cases hc : c.isUpper = true
          · rw [heq, isLower_toLower hc] at hlower
            cases hlower
          · rw [heq, toLower_eq_self (Bool.eq_false_iff.mpr hc)]
        · rename_i hc
          refine ⟨fun hm => ?_, fun heq => absurd (heq ▸ hascii) hc⟩
          rcases hto m hm with hge | hlow
          · omega
          · rw [hlower] at hlow
            cases hlow
      rw [List.mem_append, List.mem_cons, ih, hmem]

end Lowers

theorem lowers_asciiCasing (s : List Char) : Lowers s (s.map Char.toLower) := by
  induction s with
  | nil => exact .nil
  | cons c s ih =>
      refine .cons (l := [c.toLower]) ?_ ih
      unfold LowersTo
      split
      · rfl
      · rename_i hc
        intro x hx
        have hupper : c.isUpper = false := Bool.eq_false_iff.mpr fun h => by
          have hle : c.toNat ≤ 90 := UInt32.le_iff_toNat_le.mp (of_decide_eq_true h).2
          omega
        rw [List.mem_singleton.mp hx, toLower_eq_self hupper]
        exact .inl (not_lt.mp hc)

/-! ## What the guard makes of a URL -/

theorem rdropWhile_append {p : Char → Bool} {last : Char} (h : p last = false)
    (front tail : List Char) :
    (front ++ last :: tail).rdropWhile p = front ++ last :: tail.rdropWhile p := by
  unfold List.rdropWhile
  rw [List.reverse_append, List.reverse_cons, List.append_assoc, List.dropWhile_append]
  split
  · rename_i hempty
    rw [List.isEmpty_iff.mp hempty, List.singleton_append,
      List.dropWhile_cons_of_neg (by simp [h])]
    simp
  · simp

theorem isSpace_eq_false {c : Char} (h : 32 < c.toNat ∧ c.toNat < 128) : isSpace c = false := by
  simp only [isSpace, Bool.or_eq_false_iff, Bool.and_eq_false_iff, decide_eq_false_iff_not]
  omega

theorem toList_strip (s : String) :
    (strip s).toList = (s.toList.dropWhile isSpace).rdropWhile isSpace := by
  rw [strip, String.toList_ofList, List.rdropWhile]

/-- The characters of a scheme are ASCII, and none of them is a space. -/
theorem schemeChar_range {c : Char} (h : schemeChar c = true) : 32 < c.toNat ∧ c.toNat < 128 := by
  unfold schemeChar Char.isAlphanum Char.isAlpha Char.isUpper Char.isLower Char.isDigit at h
  simp only [Bool.or_eq_true, Bool.and_eq_true, decide_eq_true_eq, ge_iff_le,
    UInt32.le_iff_toNat_le] at h
  rcases h with (((((h | h) | h) | rfl) | rfl) | rfl)
  · have hlow : 65 ≤ c.toNat := h.1
    have hhigh : c.toNat ≤ 90 := h.2
    omega
  · have hlow : 97 ≤ c.toNat := h.1
    have hhigh : c.toNat ≤ 122 := h.2
    omega
  · have hlow : 48 ≤ c.toNat := h.1
    have hhigh : c.toNat ≤ 57 := h.2
    omega
  · decide
  · decide
  · decide

theorem isScheme_chars {s : List Char} (h : isScheme s = true) :
    s ≠ [] ∧ ∀ c ∈ s, schemeChar c = true := by
  cases s with
  | nil => cases h
  | cons c rest =>
      obtain ⟨halpha, hrest⟩ := Bool.and_eq_true_iff.mp h
      refine ⟨List.cons_ne_nil _ _, List.forall_mem_cons.mpr ⟨?_, List.all_eq_true.mp hrest⟩⟩
      simp [schemeChar, Char.isAlphanum, halpha]

/-- The text between the authority and the first slash, as the guard sees it. -/
def guardTail [Casing] (endpointUrl : String) : List Char :=
  upTo '/' (afterAuthority ((guardUrl endpointUrl).drop 8))

/-- The host of a URL and its port, as they are written there. -/
def hostPort (url : List Char) : List Char := afterLast '@' (authorityOf (url.drop 8))

theorem last_of_no_space {l : List Char} (hne : l ≠ []) (h : ∀ c ∈ l, isSpace c = false) :
    ∃ front last, l = front ++ [last] ∧ isSpace last = false :=
  ⟨l.dropLast, l.getLast hne, (List.dropLast_append_getLast hne).symm,
    h _ (List.getLast_mem hne)⟩

theorem isSpace_of_isDigit {c : Char} (h : c.isDigit = true) : isSpace c = false :=
  isSpace_eq_false (schemeChar_range (by simp [schemeChar, Char.isAlphanum, h]))

theorem isPort_no_space {port : List Char} (h : isPort port = true) :
    ∀ c ∈ port, isSpace c = false := by
  cases port with
  | nil => exact fun c hc => absurd hc List.not_mem_nil
  | cons c digits =>
      obtain ⟨rfl, hdigits⟩ := isPort_cons h
      exact List.forall_mem_cons.mpr ⟨by decide, fun d hd => isSpace_of_isDigit (hdigits d hd)⟩

/-- The letters of the local host, in either case. -/
theorem localhost_range {written : List Char}
    (h : "localhost".toList = written.map Char.toLower) :
    ∀ c ∈ written, 32 < c.toNat ∧ c.toNat < 128 := by
  intro c hc
  by_cases hupper : c.isUpper = true
  · have hrange := toNat_toLower hupper
    omega
  · have hmem : c.toLower ∈ written.map Char.toLower := List.mem_map_of_mem hc
    rw [toLower_eq_self (Bool.eq_false_iff.mpr hupper), ← h] at hmem
    have hall : ∀ x ∈ "localhost".toList, 32 < x.toNat ∧ x.toNat < 128 :=
      forall_mem_of_all (by decide)
    exact hall c hmem

/-- An internal host and its port do not end in a space. -/
theorem written_last {host : UriHost} {port l : List Char} (hinternal : host.Internal)
    (hport : isPort port = true) (h : host.Written port l) :
    ∃ front last, l = front ++ [last] ∧ isSpace last = false := by
  cases host with
  | ipv4 a b c d =>
      have hdots : ∀ x ∈ dotted a b c d, isSpace x = false := by
        intro x hx
        rcases mem_dotted hx with hdigit | rfl
        · exact isSpace_of_isDigit hdigit
        · decide
      rw [UriHost.Written] at h
      subst h
      exact last_of_no_space (by simp [dotted])
        (List.forall_mem_append.mpr ⟨hdots, isPort_no_space hport⟩)
  | ipv6 groups =>
      obtain ⟨inner, rfl, -⟩ := h
      have hbracket : ∀ x ∈ ']' :: port, isSpace x = false :=
        List.forall_mem_cons.mpr ⟨by decide, isPort_no_space hport⟩
      obtain ⟨front, last, heq, hlast⟩ := last_of_no_space (List.cons_ne_nil _ _) hbracket
      exact ⟨'[' :: (inner ++ front), last, by rw [heq]; simp, hlast⟩
  | name text =>
      obtain ⟨written, rfl, -, rfl⟩ := h
      have hne : written ≠ [] := by
        rintro rfl
        cases hinternal
      exact last_of_no_space (by simp [hne]) (List.forall_mem_append.mpr
        ⟨fun c hc => isSpace_eq_false (localhost_range hinternal.symm c hc), isPort_no_space hport⟩)

/-- The host of a URL and its port, and what the guard sees of them: `seen`, and the text up to the
first slash. -/
structure SeenAs [Digits] [Casing] (s : String) (host : UriHost) (port seen : List Char) :
    Prop where
  isPort : isPort port = true
  written : host.Written port (hostPort s.toList)
  lowers : Lowers (hostPort s.toList) seen
  tail : guardTail s = [] ∨ ∃ e r, guardTail s = e :: r ∧ (e = '?' ∨ e = '#')
  safe : endpointIsSafe s = (blockedHost (upTo ':' (if '@' ∈ guardTail s
    then afterLast '@' (guardTail s) else seen ++ guardTail s))).map (!·)

/-- What ends no authority does not in lower case. -/
theorem lowers_not_ends {s t : List Char} (h : Lowers s t)
    (hs : ∀ c ∈ s, endsAuthority c = false) : ∀ c ∈ t, endsAuthority c = false := by
  intro c hc
  refine Bool.eq_false_iff.mpr fun hends => ?_
  have hmark : c.toNat < 128 ∧ c.isAlpha = false := by
    simp only [endsAuthority, Bool.or_eq_true, decide_eq_true_eq] at hends
    rcases hends with (rfl | rfl) | rfl
    · decide
    · decide
    · decide
  have hmem := (h.mem_mark hmark.1 hmark.2).mp hc
  rw [hs c hmem] at hends
  cases hends

/-- The part after the last `@` in lower case. -/
theorem lowers_afterLast {s t : List Char} (h : Lowers s t) :
    ∃ seen, Lowers (afterLast '@' s) seen ∧
      ∀ r, '@' ∉ r → afterLast '@' (t ++ r) = seen ++ r := by
  have hfree : ∀ {seen r : List Char}, Lowers (afterLast '@' s) seen → '@' ∉ r →
      '@' ∉ seen ++ r := by
    intro seen r hseen hr hmem
    rcases List.mem_append.mp hmem with hmem | hmem
    · exact not_mem_afterLast ((hseen.mem_mark (by decide) (by decide)).mp hmem)
    · exact hr hmem
  rcases afterLast_spec s '@' with heq | ⟨front, heq⟩
  · rw [heq] at h
    exact ⟨t, h, fun r hr => afterLast_of_not_mem (hfree h hr)⟩
  · rw [heq] at h
    obtain ⟨front', rest, rfl, -, hrest⟩ := h.append
    obtain ⟨seen, rfl, hseen⟩ := hrest.of_ascii (by decide)
    refine ⟨seen, hseen, fun r hr => ?_⟩
    rw [List.append_assoc]
    exact afterLast_append_cons (hfree hseen hr)

/-- The text after an authority starts as it does before spaces are taken from its end. -/
theorem afterAuthority_lowers {s t : List Char}
    (h : Lowers ((afterAuthority s).rdropWhile isSpace) t) :
    t = [] ∨ ∃ e r, t = e :: r ∧ endsAuthority e = true := by
  cases htail : (afterAuthority s).rdropWhile isSpace with
  | nil =>
      rw [htail] at h
      cases h
      exact .inl rfl
  | cons e r =>
      obtain ⟨more, hmore⟩ := List.rdropWhile_prefix isSpace (l := afterAuthority s)
      rw [htail] at hmore
      have hends := afterAuthority_cons hmore.symm
      rw [htail] at h
      have hascii : e.toNat < 128 ∧ e.toLower = e := by
        simp only [endsAuthority, Bool.or_eq_true, decide_eq_true_eq] at hends
        rcases hends with (rfl | rfl) | rfl
        · decide
        · decide
        · decide
      obtain ⟨t', rfl, -⟩ := h.of_ascii hascii.1
      rw [hascii.2]
      exact .inr ⟨e, t', rfl, hends⟩

section Url

variable [Casing] (hlower : ∀ s : String, Lowers s.toList (Casing.lower s).toList)

include hlower

/-- The guard sees the scheme of a URL in lower case, and the rest without the spaces at its
end. -/
theorem guardUrl_scheme {s : String} {written rest : List Char}
    (hs : s.toList = written ++ ':' :: '/' :: '/' :: rest) (hscheme : isScheme written = true) :
    ∃ after, guardUrl s = written.map Char.toLower ++ "://".toList ++ after ∧
      Lowers (rest.rdropWhile isSpace) after := by
  obtain ⟨hne, hchars⟩ := isScheme_chars hscheme
  have hrange := fun c hc => schemeChar_range (hchars c hc)
  have hstrip : (strip s).toList =
      written ++ "://".toList ++ rest.rdropWhile isSpace := by
    rw [toList_strip, hs]
    cases written with
    | nil => exact absurd rfl hne
    | cons c written =>
        have hc := isSpace_eq_false (hrange c List.mem_cons_self)
        have hslash : isSpace '/' = false := by decide
        rw [List.cons_append, List.dropWhile_cons_of_neg (by simp [hc])]
        have hend := rdropWhile_append hslash (c :: written ++ [':', '/']) rest
        simpa using hend
  have hread := hlower (strip s)
  rw [hstrip] at hread
  obtain ⟨after, hafter, hrest⟩ := hread.ascii_append (List.forall_mem_append.mpr
    ⟨fun c hc => (hrange c hc).2, forall_mem_of_all (by decide)⟩)
  exact ⟨after, by rw [guardUrl, hafter, List.map_append]; rfl, hrest⟩

/-- What is accepted is no URL of another scheme. -/
theorem scheme_of_accepted [Digits] {s : String} {scheme : List Char} {host : UriHost}
    (hsafe : endpointIsSafe s = some true) (hconnect : connect s.toList = some (scheme, host)) :
    scheme = "https".toList := by
  obtain ⟨written, rest, hs, hscheme, rfl, -⟩ := connect_some hconnect
  obtain ⟨after, hurl, -⟩ := guardUrl_scheme hlower hs hscheme
  unfold endpointIsSafe at hsafe
  split at hsafe
  · rename_i hprefix
    obtain ⟨more, hmore⟩ := hprefix
    have hcolon : ':' ∉ written.map Char.toLower := by
      rw [(lowers_asciiCasing written).mem_mark (by decide) (by decide)]
      exact fun hmem => absurd ((isScheme_chars hscheme).2 _ hmem) (by decide)
    have hcut := congrArg (upTo ':') (hmore.trans hurl)
    rw [List.append_assoc] at hcut
    exact (upTo_append_cons hcolon).symm.trans hcut.symm
  · cases hsafe

theorem seenAs [Digits] {s : String} {host : UriHost}
    (hconnect : connect s.toList = some ("https".toList, host)) (hinternal : host.Internal) :
    ∃ port seen, SeenAs s host port seen := by
  obtain ⟨written, rest, hs, hscheme, hhttps, hhost⟩ := connect_some hconnect
  obtain ⟨after, hurl, hafter⟩ := guardUrl_scheme hlower hs hscheme
  rw [← hhttps] at hurl
  have hlength : written.length = 5 := by simpa using (congrArg List.length hhttps).symm
  have hdrop : s.toList.drop 8 = rest := by
    rw [hs]
    have hsplit : written ++ ':' :: '/' :: '/' :: rest = (written ++ [':', '/', '/']) ++ rest := by
      simp
    rw [hsplit, List.drop_left' (by simp [hlength])]
  have hhostPort : hostPort s.toList = afterLast '@' (authorityOf rest) := by
    rw [hostPort, hdrop]
  rw [← hhostPort] at hhost
  obtain ⟨port, hport, hwritten⟩ := parseHost_some hhost
  -- spaces are taken only from what follows the authority
  have hkept : rest.rdropWhile isSpace =
      authorityOf rest ++ (afterAuthority rest).rdropWhile isSpace := by
    obtain ⟨front, last, hlast, hspace⟩ := written_last hinternal hport hwritten
    obtain ⟨user, huser⟩ : ∃ user, authorityOf rest = user ++ front ++ [last] := by
      rw [hhostPort] at hlast
      rcases afterLast_spec (authorityOf rest) '@' with heq | ⟨user, heq⟩
      · exact ⟨[], heq.trans hlast⟩
      · exact ⟨user ++ ['@'], heq.trans (by rw [hlast]; simp)⟩
    have hcut := rdropWhile_append hspace (user ++ front) (afterAuthority rest)
    rw [← List.singleton_append, ← List.append_assoc, ← huser, authority_append] at hcut
    rw [hcut, huser]
    simp
  rw [hkept] at hafter
  obtain ⟨seenAuthority, tail, rfl, hauthority, htail⟩ := hafter.append
  have hmarks := lowers_not_ends hauthority fun c hc => not_endsAuthority_of_mem hc
  have htail := afterAuthority_lowers htail
  have hrest : (guardUrl s).drop 8 = seenAuthority ++ tail := by
    rw [hurl]
    rfl
  have hguardTail : guardTail s = upTo '/' tail := by
    have hafter : afterAuthority (seenAuthority ++ tail) = tail := by
      unfold afterAuthority
      rw [List.dropWhile_append_of_pos fun c hc => by simp [hmarks c hc]]
      rcases htail with rfl | ⟨e, r, rfl, hends⟩
      · rfl
      · exact List.dropWhile_cons_of_neg (by simp [hends])
    rw [guardTail, hrest, hafter]
  have hslash : '/' ∉ seenAuthority := fun hmem => absurd (hmarks _ hmem) (by decide)
  obtain ⟨seen, hseen, hcut⟩ := lowers_afterLast hauthority
  rw [← hhostPort] at hseen
  refine ⟨port, seen, hport, hwritten, hseen, ?_, ?_⟩
  · rw [hguardTail]
    rcases htail with rfl | ⟨e, r, rfl, hends⟩
    · exact .inl rfl
    · simp only [endsAuthority, Bool.or_eq_true, decide_eq_true_eq] at hends
      rcases hends with (rfl | rfl) | rfl
      · exact .inl upTo_cons_self
      · exact .inr ⟨'?', _, upTo_append (s := ['?']) (by decide), .inl rfl⟩
      · exact .inr ⟨'#', _, upTo_append (s := ['#']) (by decide), .inr rfl⟩
  · have hprefix : "https://".toList <+: guardUrl s := ⟨seenAuthority ++ tail, hurl.symm⟩
    have hguardHost : guardHost ((guardUrl s).drop 8) = upTo ':' (if '@' ∈ guardTail s
        then afterLast '@' (guardTail s) else seen ++ guardTail s) := by
      rw [guardHost, hrest, upTo_append hslash, ← hguardTail]
      split
      · rename_i hat
        rw [afterLast_append_of_mem hat]
      · rename_i hat
        rw [hcut _ hat]
    rw [endpointIsSafe, if_pos hprefix, hguardHost]

end Url

/-! ## Which hosts are refused -/

section Refused

variable [Digits]

theorem blockedHost_of_local {host : List Char}
    (h : host = "localhost".toList ∨ host = [] ∨ ".localhost".toList <:+ host) :
    blockedHost host = some true := if_pos h

theorem blockedHost_of_prefix {p : String} {host : List Char} (hp : p ∈ blockedPrefixes)
    (h : p.toList <+: host) : blockedHost host = some true := by
  unfold blockedHost
  split
  · rfl
  · exact if_pos ⟨p, hp, h⟩

theorem blockedHost_of_private {host : List Char} (h : inPrivate172 host = some true) :
    blockedHost host = some true := by
  unfold blockedHost
  split
  · rfl
  · split
    · rfl
    · split
      · rfl
      · exact h

theorem intOfDigits_toDigits {b : Nat} (hlow : 16 ≤ b) (hhigh : b ≤ 31) :
    intOfDigits (Nat.toDigits 10 b) = some b := by
  interval_cases b <;> rfl

theorem inPrivate172_dotted {b c d : Nat} (hlow : 16 ≤ b) (hhigh : b ≤ 31) (more : List Char) :
    inPrivate172 (dotted 172 b c d ++ more) = some true := by
  have hdot : ∀ n, '.' ∉ Nat.toDigits 10 n := fun n hmem =>
    absurd (isDigit_of_mem_toDigits hmem) (by decide)
  have hform : dotted 172 b c d ++ more = Nat.toDigits 10 172 ++ '.' :: (Nat.toDigits 10 b ++
      '.' :: ((Nat.toDigits 10 c ++ '.' :: Nat.toDigits 10 d) ++ more)) := by
    simp [dotted]
  have hpart : ((dotted 172 b c d ++ more).splitOn '.')[1]? = some (Nat.toDigits 10 b) := by
    rw [hform, List.splitOn_append_cons_self_of_not_mem (hdot 172),
      List.splitOn_append_cons_self_of_not_mem (hdot b)]
    rfl
  have hprefix : "172.".toList <+: dotted 172 b c d ++ more := by
    rw [hform]
    exact ⟨_, rfl⟩
  have hdigits : (Nat.toDigits 10 b).all isDigitChar = true :=
    List.all_eq_true.mpr fun c hc => by simp [isDigitChar, isDigit_of_mem_toDigits hc]
  rw [inPrivate172, if_pos hprefix, hpart]
  dsimp only
  rw [if_pos ⟨Nat.toDigits_ne_nil, hdigits⟩, intOfDigits_toDigits hlow hhigh, Option.map_some,
    decide_eq_true ⟨hlow, hhigh⟩]

/-- Every internal IPv4 address is refused, whatever follows it. -/
theorem blockedHost_dotted {a b c d : Nat} (h : (UriHost.ipv4 a b c d).Internal)
    (more : List Char) : blockedHost (dotted a b c d ++ more) = some true := by
  rcases h with rfl | rfl | ⟨rfl, hlow, hhigh⟩ | ⟨rfl, rfl⟩ | ⟨rfl, rfl⟩ | ⟨rfl, rfl, rfl, rfl⟩
  · exact blockedHost_of_prefix (p := "127.") (by decide) ⟨_, rfl⟩
  · exact blockedHost_of_prefix (p := "10.") (by decide) ⟨_, rfl⟩
  · exact blockedHost_of_private (inPrivate172_dotted hlow hhigh more)
  · exact blockedHost_of_prefix (p := "192.168.") (by decide) ⟨_, rfl⟩
  · exact blockedHost_of_prefix (p := "169.254.") (by decide) ⟨_, rfl⟩
  · exact blockedHost_of_prefix (p := "0.") (by decide) ⟨_, rfl⟩

/-- A host that starts as none of those that are refused. -/
theorem blockedHost_of_head {c : Char} {rest : List Char}
    (hlocal : c :: rest ≠ "localhost".toList) (hsuffix : ¬ ".localhost".toList <:+ c :: rest)
    (hhead : ∀ p ∈ "172." :: "::1" :: blockedPrefixes, p.toList.head? ≠ some c)
    (hbracket : ¬ "[::1]".toList <+: c :: rest) : blockedHost (c :: rest) = some false := by
  have hprefix : ∀ p ∈ "172." :: "::1" :: blockedPrefixes, ¬ p.toList <+: c :: rest := by
    intro p hp hstart
    have hne : ∀ p ∈ "172." :: "::1" :: blockedPrefixes, p.toList ≠ [] := by decide
    obtain ⟨x, l, hl⟩ := List.exists_cons_of_ne_nil (hne p hp)
    obtain ⟨more, hmore⟩ := hstart
    rw [hl, List.cons_append] at hmore
    refine hhead p hp ?_
    rw [hl, ← (List.cons.inj hmore).1]
    rfl
  have hnone : ¬ ∃ p ∈ blockedPrefixes, p.toList <+: c :: rest := by
    rintro ⟨p, hp, hstart⟩
    exact hprefix p (by simp [hp]) hstart
  have hloop : c :: rest ≠ "::1".toList := by
    intro heq
    exact hprefix "::1" (by simp) (heq ▸ List.prefix_refl _)
  have h172 : ¬ "172.".toList <+: c :: rest := hprefix "172." (by simp)
  have hnames : ¬ (c :: rest = "localhost".toList ∨ c :: rest = [] ∨
      ".localhost".toList <:+ c :: rest) := by
    rintro (heq | heq | h)
    · exact hlocal heq
    · cases heq
    · exact hsuffix h
  rw [blockedHost, if_neg hnames, if_neg hnone, if_neg (not_or.mpr ⟨hloop, hbracket⟩),
    inPrivate172, if_neg h172]

omit [Digits] in
theorem hexVal_ascii {c : Char} (h : (hexVal c).isSome) : c.toNat < 128 := by
  unfold hexVal at h
  dsimp only at h
  split at h
  · omega
  · split at h
    · omega
    · split at h
      · omega
      · cases h

omit [Digits] in
theorem isSome_hexVal_toLower {c : Char} (h : (hexVal c).isSome) :
    (hexVal c.toLower).isSome := by
  by_cases hupper : c.isUpper = true
  · obtain ⟨hlow, hhigh, hnat⟩ := toNat_toLower hupper
    unfold hexVal at h ⊢
    dsimp only at h ⊢
    rw [hnat]
    split at h
    · omega
    · split at h
      · omega
      · split at h
        · rw [if_neg (by omega), if_pos (by omega)]
          rfl
        · cases h
  · rwa [toLower_eq_self (Bool.eq_false_iff.mpr hupper)]

/-- No literal in brackets is refused. -/
theorem blockedHost_bracket {front : List Char} (h : ∀ c ∈ front, (hexVal c).isSome) :
    blockedHost ('[' :: front) = some false := by
  have hfree : ∀ c : Char, hexVal c = none → c ∉ front := by
    intro c hnone hmem
    have hsome := h c hmem
    rw [hnone] at hsome
    cases hsome
  refine blockedHost_of_head (fun heq => ?_) (fun hsuffix => ?_) (by decide) fun hprefix => ?_
  · cases heq
  · have hmem : 't' ∈ '[' :: front := hsuffix.subset (by decide)
    rcases List.mem_cons.mp hmem with heq | hmem
    · cases heq
    · exact hfree 't' (by decide) hmem
  · obtain ⟨more, hmore⟩ := hprefix
    have hmem : ':' ∈ front := (List.cons.inj hmore).2 ▸ List.mem_cons_self
    exact hfree ':' (by decide) hmem

/-- The local host, with more text before the first slash, is refused if that ends as the names of
the local host do. -/
theorem blockedHost_localhost (e : Char) (more : List Char) :
    blockedHost ("localhost".toList ++ e :: more) = some false ↔
      ¬ ".localhost".toList <:+ e :: more := by
  have hsuffix : ".localhost".toList <:+ "localhost".toList ++ e :: more ↔
      ".localhost".toList <:+ e :: more := by
    refine ⟨fun h => ?_, fun h => h.trans (List.suffix_append _ _)⟩
    obtain ⟨front, hfront⟩ := h
    rcases List.append_eq_append_iff.mp hfront with ⟨mid, hmid, hmore⟩ | ⟨mid, hmid, hmore⟩
    · cases mid with
      | nil => exact ⟨[], hmore⟩
      | cons x mid =>
          -- the dot would be one of `localhost`
          have hx : '.' = x := (List.cons.inj hmore).1
          have hmem : '.' ∈ "localhost".toList := by
            rw [hmid, hx]
            simp
          exact absurd hmem (by decide)
    · exact ⟨mid, hmore.symm⟩
  constructor
  · intro hblocked hends
    rw [blockedHost_of_local (.inr (.inr (hsuffix.mpr hends)))] at hblocked
    cases hblocked
  · intro hends
    refine blockedHost_of_head (fun heq => ?_) (fun h => hends (hsuffix.mp h)) (by decide) ?_
    · have hlength := congrArg List.length heq
      simp at hlength
    · rintro ⟨more', hmore⟩
      cases hmore

end Refused

/-! ## The guard against the client -/

section Sound

variable [Digits] [Casing]

/-- What the guard accepts leads to a scheme that it allows, and to no internal host. -/
def GuardSound (endpointUrl : String) : Prop :=
  endpointIsSafe endpointUrl = some true → ∀ scheme host,
    connect endpointUrl.toList = some (scheme, host) →
      scheme = "https".toList ∧ ¬ host.Internal

/-- The text before the first slash gives an internal host away. An `@` after the authority makes
the guard look at what follows it; without one it sees every IPv4 address, no IPv6 literal, and the
local host where a colon or the end of the text follows, or a name of the local host ends it. -/
def Caught (endpointUrl : String) (host : UriHost) : Prop :=
  if '@' ∈ guardTail endpointUrl then
    blockedHost (upTo ':' (afterLast '@' (guardTail endpointUrl))) ≠ some false
  else
    match host with
    | .ipv4 .. => True
    | .ipv6 _ => False
    | .name _ => ':' ∈ hostPort endpointUrl.toList ∨ guardTail endpointUrl = [] ∨
        ".localhost".toList <:+ upTo ':' (guardTail endpointUrl)

omit [Digits] [Casing] in
theorem map_toLower_dotted (a b c d : Nat) :
    (dotted a b c d).map Char.toLower = dotted a b c d := by
  have hkept : ∀ x ∈ dotted a b c d, x.toLower = id x := by
    intro x hx
    rcases mem_dotted hx with hdigit | rfl
    · refine toLower_eq_self (Bool.eq_false_iff.mpr fun hupper => ?_)
      obtain ⟨hlow, -⟩ := toNat_toLower hupper
      have hhigh : x.toNat ≤ 57 :=
        UInt32.le_iff_toNat_le.mp (of_decide_eq_true (Bool.and_eq_true_iff.mp hdigit).2)
      omega
    · rfl
  rw [List.map_congr_left hkept, List.map_id]

section Seen

variable {s : String} {port seen : List Char}

/-- An IPv4 address is seen as it is written. -/
theorem SeenAs.ipv4 {a b c d : Nat} (h : SeenAs s (.ipv4 a b c d) port seen)
    (hinternal : (UriHost.ipv4 a b c d).Internal) (tail : List Char) :
    blockedHost (upTo ':' (seen ++ tail)) = some true := by
  have hwritten : hostPort s.toList = dotted a b c d ++ port := h.written
  have hlowers := h.lowers
  rw [hwritten] at hlowers
  obtain ⟨more, rfl, -⟩ := hlowers.ascii_append fun x hx => by
    rcases mem_dotted hx with hdigit | rfl
    · exact (schemeChar_range (by simp [schemeChar, Char.isAlphanum, hdigit])).2
    · decide
  have hcolon : ':' ∉ dotted a b c d := by
    intro hmem
    rcases mem_dotted hmem with hdigit | heq
    · cases hdigit
    · cases heq
  rw [map_toLower_dotted, List.append_assoc, upTo_append hcolon]
  exact blockedHost_dotted hinternal _

/-- Of an IPv6 literal its first group is seen. -/
theorem SeenAs.ipv6 {groups : List Nat} (h : SeenAs s (.ipv6 groups) port seen)
    (tail : List Char) : blockedHost (upTo ':' (seen ++ tail)) = some false := by
  obtain ⟨inner, hwritten, hgroups⟩ := h.written
  obtain ⟨front, back, rfl, hhex⟩ := parseIpv6_some hgroups
  have hlowers := h.lowers
  rw [hwritten, List.append_assoc, List.cons_append] at hlowers
  obtain ⟨seen', rfl, hfront⟩ := hlowers.of_ascii (by decide)
  obtain ⟨seen', rfl, hcolon⟩ := hfront.ascii_append fun c hc => hexVal_ascii (hhex c hc)
  obtain ⟨back', rfl, -⟩ := hcolon.of_ascii (by decide)
  have hlow : ∀ c ∈ front.map Char.toLower, (hexVal c).isSome := by
    intro c hc
    obtain ⟨c, hmem, rfl⟩ := List.mem_map.mp hc
    exact isSome_hexVal_toLower (hhex c hmem)
  have hfree : ':' ∉ '[' :: front.map Char.toLower := by
    intro hmem
    rcases List.mem_cons.mp hmem with heq | hmem
    · cases heq
    · cases hlow ':' hmem
  have hcut : upTo ':' ('['.toLower :: (front.map Char.toLower ++ ':'.toLower :: back') ++ tail) =
      '[' :: front.map Char.toLower := by
    have happ := upTo_append_cons (t := back' ++ tail) hfree
    simpa using happ
  rw [hcut]
  exact blockedHost_bracket hlow

/-- The local host is seen, and what follows it. -/
theorem SeenAs.localhost {text : List Char} (h : SeenAs s (.name text) port seen)
    (hinternal : (UriHost.name text).Internal) {tail : List Char}
    (htail : tail = [] ∨ ∃ e r, tail = e :: r ∧ (e = '?' ∨ e = '#')) :
    blockedHost (upTo ':' (seen ++ tail)) = some false ↔
      ¬ (':' ∈ hostPort s.toList ∨ tail = [] ∨ ".localhost".toList <:+ upTo ':' tail) := by
  obtain ⟨written, hwritten, hfree, htext⟩ := h.written
  have hname : "localhost".toList = written.map Char.toLower := hinternal.symm.trans htext
  have hlowers := h.lowers
  rw [hwritten] at hlowers ⊢
  obtain ⟨seen', rfl, hport⟩ := hlowers.ascii_append fun c hc => (localhost_range hname c hc).2
  rw [← hname]
  have hcolon : ':' ∉ "localhost".toList := by decide
  rw [List.append_assoc, upTo_append hcolon]
  cases port with
  | cons c digits =>
      obtain ⟨rfl, -⟩ := isPort_cons h.isPort
      obtain ⟨more, rfl, -⟩ := hport.of_ascii (by decide)
      have hcut : upTo ':' (':'.toLower :: more ++ tail) = [] := upTo_cons_self
      rw [hcut, List.append_nil, blockedHost_of_local (.inl rfl)]
      simp
  | nil =>
      cases hport
      rcases htail with rfl | ⟨e, r, rfl, he⟩
      · simp [upTo, blockedHost_of_local]
      · have hcut : upTo ':' ([] ++ e :: r) = e :: upTo ':' r := by
          refine upTo_append (s := [e]) ?_
          rcases he with rfl | rfl
          · decide
          · decide
        rw [hcut, blockedHost_localhost, ← hcut]
        simp [hfree]

end Seen

theorem safe_iff (hlower : ∀ s : String, Lowers s.toList (Casing.lower s).toList) {s : String}
    {host : UriHost} (hconnect : connect s.toList = some ("https".toList, host))
    (hinternal : host.Internal) : endpointIsSafe s = some true ↔ ¬ Caught s host := by
  obtain ⟨port, seen, h⟩ := seenAs hlower hconnect hinternal
  have hsafe : ∀ o : Option Bool, o.map (!·) = some true ↔ o = some false := by
    rintro (_ | _ | _) <;> simp
  rw [h.safe, hsafe]
  unfold Caught
  split
  · rw [not_not]
  · cases host with
    | ipv4 a b c d => simp [h.ipv4 hinternal]
    | ipv6 groups => simp [h.ipv6]
    | name text => exact h.localhost hinternal h.tail

/-- **The endpoint guard.** It is sound for an endpoint if and only if an internal host that a
client would connect to is given away before the first slash. -/
theorem endpoint_guard_iff (hlower : ∀ s : String, Lowers s.toList (Casing.lower s).toList)
    (s : String) :
    GuardSound s ↔ ∀ host, connect s.toList = some ("https".toList, host) → host.Internal →
      Caught s host := by
  constructor
  · intro hsound host hconnect hinternal
    by_contra hnot
    exact (hsound ((safe_iff hlower hconnect hinternal).mpr hnot) _ _ hconnect).2 hinternal
  · intro hcaught hsafe scheme host hconnect
    obtain rfl := scheme_of_accepted hlower hsafe hconnect
    exact ⟨rfl, fun hinternal =>
      (safe_iff hlower hconnect hinternal).mp hsafe (hcaught host hconnect hinternal)⟩

end Sound

section Sample

local instance endpointDigits : Digits := asciiDigits
local instance endpointCasing : Casing := asciiCasing

theorem asciiCasing_lowers (s : String) : Lowers s.toList (Casing.lower s).toList := by
  have hlist : (Casing.lower s).toList = s.toList.map Char.toLower := String.toList_ofList
  rw [hlist]
  exact lowers_asciiCasing s.toList

/-- A private address is seen behind a user and in front of a query. -/
theorem endpoint_guard_iff_private : GuardSound "https://alice@10.0.0.1?q" := by
  refine (endpoint_guard_iff asciiCasing_lowers _).mpr fun host hconnect _ => ?_
  have hhost : connect "https://alice@10.0.0.1?q".toList =
      some ("https".toList, .ipv4 10 0 0 1) := by decide +kernel
  cases (Prod.mk.inj (Option.some.inj (hconnect.symm.trans hhost))).2
  have hat : '@' ∉ guardTail "https://alice@10.0.0.1?q" := by decide +kernel
  rw [Caught, if_neg hat]
  trivial

/-- The loopback address in brackets is accepted: all that is seen of it is the first bracket. -/
theorem loopback_accepted : ¬ GuardSound "https://[::1]:8443/" := by
  intro hsound
  have hsafe : endpointIsSafe "https://[::1]:8443/" = some true := by decide +kernel
  have hhost : connect "https://[::1]:8443/".toList =
      some ("https".toList, .ipv6 [0, 0, 0, 0, 0, 0, 0, 1]) := by decide +kernel
  exact (hsound hsafe _ _ hhost).2 (.inl rfl)

end Sample

end EighthLayer.Aigrp
