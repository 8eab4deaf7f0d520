import EighthLayer.Lib.Bytes
import EighthLayer.Lib.JsonFields
import Mathlib.Data.List.Basic
import Mathlib.Data.List.Infix
import Mathlib.Data.List.TakeWhile

/-!
# EighthLayer.Lib.Uri

Where a client of the web connects to: the scheme, the authority and the host of an absolute URL,
as in RFC 3986. A host is an IPv4 literal, an IPv6 literal in brackets, or a name.
-/

namespace Lib

/-! ## Cutting texts -/

/-- The text up to the first `c`: all of it, where there is none. -/
def upTo (c : Char) (s : List Char) : List Char := s.takeWhile (· ≠ c)

/-- The text after the last `c`: all of it, where there is none. -/
def afterLast (c : Char) (s : List Char) : List Char := (upTo c s.reverse).reverse

section Cut

variable {c : Char} {s t : List Char}

theorem upTo_of_not_mem (h : c ∉ s) : upTo c s = s :=
  List.takeWhile_eq_self_iff.mpr fun _ hx => decide_eq_true fun heq => h (heq ▸ hx)

theorem upTo_append (h : c ∉ s) : upTo c (s ++ t) = s ++ upTo c t :=
  List.takeWhile_append_of_pos fun _ hx => decide_eq_true fun heq => h (heq ▸ hx)

@[simp] theorem upTo_cons_self : upTo c (c :: t) = [] :=
  List.takeWhile_cons_of_neg (by simp)

theorem upTo_append_cons (h : c ∉ s) : upTo c (s ++ c :: t) = s := by
  rw [upTo_append h, upTo_cons_self, List.append_nil]

theorem not_mem_upTo : c ∉ upTo c s := fun h => by
  simpa using List.mem_takeWhile_imp h

theorem mem_of_mem_upTo {x : Char} (h : x ∈ upTo c s) : x ∈ s :=
  (List.takeWhile_sublist _).mem h

/-- A text is cut at its first `c`. -/
theorem upTo_spec (s : List Char) (c : Char) : s = upTo c s ∨ ∃ t, s = upTo c s ++ c :: t := by
  induction s with
  | nil => exact .inl rfl
  | cons x s ih =>
      by_cases hx : x = c
      · subst hx
        exact .inr ⟨s, by simp⟩
      · have hcons : upTo c (x :: s) = x :: upTo c s :=
          List.takeWhile_cons_of_pos (decide_eq_true hx)
        rw [hcons]
        rcases ih with heq | ⟨t, heq⟩
        · exact .inl (congrArg _ heq)
        · exact .inr ⟨t, congrArg _ heq⟩

theorem upTo_append_drop : upTo c s ++ s.drop (upTo c s).length = s :=
  List.prefix_iff_eq_append.mp (List.takeWhile_prefix _)

theorem upTo_append_cons_drop (h : c ∈ s) :
    s = upTo c s ++ c :: s.drop ((upTo c s).length + 1) := by
  rcases upTo_spec s c with heq | ⟨t, heq⟩
  · rw [heq] at h
    exact absurd h not_mem_upTo
  · generalize upTo c s = front at heq ⊢
    subst heq
    rw [← List.singleton_append, ← List.append_assoc, List.drop_left' (by simp),
      List.append_assoc, List.singleton_append]

theorem upTo_append_of_mem (h : c ∈ s) : upTo c (s ++ t) = upTo c s := by
  rcases upTo_spec s c with heq | ⟨r, heq⟩
  · rw [heq] at h
    exact absurd h not_mem_upTo
  · have hfree : c ∉ upTo c s := not_mem_upTo
    generalize upTo c s = front at heq hfree
    subst heq
    rw [List.append_assoc, List.cons_append, upTo_append_cons hfree]

theorem afterLast_of_not_mem (h : c ∉ s) : afterLast c s = s := by
  rw [afterLast, upTo_of_not_mem (List.mem_reverse.not.mpr h), List.reverse_reverse]

/-- What comes before does not matter where there is a `c`. -/
theorem afterLast_append_of_mem (h : c ∈ t) : afterLast c (s ++ t) = afterLast c t := by
  rw [afterLast, List.reverse_append, upTo_append_of_mem (List.mem_reverse.mpr h), afterLast]

theorem afterLast_append_cons (h : c ∉ t) : afterLast c (s ++ c :: t) = t := by
  rw [afterLast, List.reverse_append, List.reverse_cons, List.append_assoc, List.singleton_append,
    upTo_append_cons (List.mem_reverse.not.mpr h), List.reverse_reverse]

theorem not_mem_afterLast : c ∉ afterLast c s := fun h => not_mem_upTo (List.mem_reverse.mp h)

/-- A text is cut at its last `c`. -/
theorem afterLast_spec (s : List Char) (c : Char) :
    s = afterLast c s ∨ ∃ front, s = front ++ c :: afterLast c s := by
  rcases upTo_spec s.reverse c with heq | ⟨t, heq⟩
  · exact .inl (List.reverse_eq_iff.mp heq)
  · refine .inr ⟨t.reverse, ?_⟩
    have hreverse := congrArg List.reverse heq
    rw [List.reverse_reverse, List.reverse_append, List.reverse_cons, List.append_assoc,
      List.singleton_append] at hreverse
    exact hreverse

end Cut

/-! ## Hosts -/

/-- The host of a URL: an address, or a name in lower case. -/
inductive UriHost where
  | ipv4 (a b c d : Nat)
  | ipv6 (groups : List Nat)
  | name (text : List Char)
deriving DecidableEq

/-- A decimal octet, without leading zeros. -/
def decOctet (l : List Char) : Option Nat := (List.range 256).find? fun n => Nat.toDigits 10 n = l

/-- Four octets. -/
def parseIpv4 (l : List Char) : Option (Nat × Nat × Nat × Nat) :=
  match (l.splitOn '.').mapM decOctet with
  | some [a, b, c, d] => some (a, b, c, d)
  | _ => none

/-- Up to four hexadecimal digits. -/
def h16 (l : List Char) : Option Nat :=
  if l.length = 0 ∨ 4 < l.length then none
  else (l.mapM hexVal).map fun ds => ds.foldl (fun n d => n * 16 + d) 0

/-- Groups, of which the last two may be written as an IPv4 address. -/
def groupsOf : List (List Char) → Option (List Nat)
  | [] => some []
  | [l] =>
      match parseIpv4 l with
      | some (a, b, c, d) => some [a * 256 + b, c * 256 + d]
      | none => (h16 l).map fun n => [n]
  | l :: rest => do
      let n ← h16 l
      let ns ← groupsOf rest
      some (n :: ns)

/-- The text before the first `::`, and after it. -/
def cutDouble : List Char → Option (List Char × List Char)
  | [] => none
  | c :: rest =>
      if c = ':' ∧ rest.head? = some ':' then some ([], rest.tail)
      else (cutDouble rest).map fun (front, back) => (c :: front, back)

/-- The pieces between colons; an empty text has none. -/
def colonPieces (l : List Char) : List (List Char) := if l = [] then [] else l.splitOn ':'

/-- Eight groups; `::` stands for one or more that are zero. -/
def parseIpv6 (l : List Char) : Option (List Nat) :=
  match cutDouble l with
  | none => (groupsOf (colonPieces l)).bind fun groups =>
      if groups.length = 8 then some groups else none
  | some (front, back) => do
      let before ← (colonPieces front).mapM h16
      let after ← groupsOf (colonPieces back)
      if before.length + after.length < 8 then
        some (before ++ List.replicate (8 - before.length - after.length) 0 ++ after)
      else none

/-- What follows a host: nothing, or a colon and a port, which may be empty. -/
def isPort : List Char → Bool
  | [] => true
  | c :: digits => c = ':' && digits.all Char.isDigit

/-- A literal in brackets, once the first of them has been read. -/
def parseBracketed (l : List Char) : Option UriHost :=
  if ']' ∈ l ∧ isPort (l.drop ((upTo ']' l).length + 1)) = true then
    (parseIpv6 (upTo ']' l)).map .ipv6
  else none

/-- Four octets, or else a name. -/
def parsePlain (l : List Char) : Option UriHost :=
  if isPort (l.drop (upTo ':' l).length) = true then
    match parseIpv4 (upTo ':' l) with
    | some (a, b, c, d) => some (.ipv4 a b c d)
    | none => some (.name ((upTo ':' l).map Char.toLower))
  else none

/-- The host that an authority without its user names. -/
def parseHost (l : List Char) : Option UriHost :=
  if l.head? = some '[' then parseBracketed l.tail else parsePlain l

/-! ### What is read has that form -/

/-- Four octets, written with dots. -/
def dotted (a b c d : Nat) : List Char :=
  Nat.toDigits 10 a ++ '.' :: (Nat.toDigits 10 b ++ '.' :: (Nat.toDigits 10 c ++
    '.' :: Nat.toDigits 10 d))

theorem isDigit_of_mem_toDigits {n : Nat} {c : Char} (h : c ∈ Nat.toDigits 10 n) :
    c.isDigit = true :=
  Nat.isDigit_of_mem_toDigits (by decide) (by decide) h

theorem mem_dotted {a b c d : Nat} {x : Char} (h : x ∈ dotted a b c d) :
    x.isDigit = true ∨ x = '.' := by
  simp only [dotted, List.mem_append, List.mem_cons] at h
  rcases h with h | h | h | h | h | h | h
  · exact .inl (isDigit_of_mem_toDigits h)
  · exact .inr h
  · exact .inl (isDigit_of_mem_toDigits h)
  · exact .inr h
  · exact .inl (isDigit_of_mem_toDigits h)
  · exact .inr h
  · exact .inl (isDigit_of_mem_toDigits h)

theorem decOctet_some {l : List Char} {n : Nat} (h : decOctet l = some n) :
    l = Nat.toDigits 10 n := by
  have hdigits := List.find?_some h
  exact (of_decide_eq_true hdigits).symm

theorem parseIpv4_some {l : List Char} {a b c d : Nat} (h : parseIpv4 l = some (a, b, c, d)) :
    l = dotted a b c d := by
  unfold parseIpv4 at h
  split at h
  · rename_i a' b' c' d' hread
    cases h
    have hpieces := List.mapM_eq_some_iff.mp hread
    have hjoin : ['.'].intercalate (l.splitOn '.') = l := List.intercalate_splitOn '.'
    generalize l.splitOn '.' = pieces at hpieces hjoin
    have hlength : pieces.length = 4 := by simpa using congrArg List.length hpieces
    match pieces, hlength with
    | [x, y, z, w], _ =>
        simp only [List.map_cons, List.map_nil, List.cons.injEq, and_true] at hpieces
        obtain ⟨hx, hy, hz, hw⟩ := hpieces
        rw [← hjoin, decOctet_some hx, decOctet_some hy, decOctet_some hz, decOctet_some hw]
        simp [List.intercalate, dotted]
  · cases h

theorem h16_some {l : List Char} {n : Nat} (h : h16 l = some n) :
    ∀ c ∈ l, (hexVal c).isSome := by
  unfold h16 at h
  split at h
  · cases h
  · obtain ⟨ds, hds, -⟩ := Option.map_eq_some_iff.mp h
    intro c hc
    have hmem : hexVal c ∈ l.map hexVal := List.mem_map_of_mem hc
    rw [List.mapM_eq_some_iff.mp hds] at hmem
    obtain ⟨d, -, hd⟩ := List.mem_map.mp hmem
    rw [← hd]
    rfl

/-- Of more than two groups the first is one of four digits. -/
theorem groupsOf_some {pieces : List (List Char)} {groups : List Nat}
    (h : groupsOf pieces = some groups) (hlength : 2 < groups.length) :
    ∃ l l' rest, pieces = l :: l' :: rest ∧ ∀ c ∈ l, (hexVal c).isSome := by
  match pieces with
  | [] =>
      cases h
      cases hlength
  | [l] =>
      unfold groupsOf at h
      split at h
      · cases h
        simp at hlength
      · obtain ⟨n, -, rfl⟩ := Option.map_eq_some_iff.mp h
        simp at hlength
  | l :: l' :: rest =>
      unfold groupsOf at h
      obtain ⟨n, hn, -⟩ := Option.bind_eq_some_iff.mp h
      exact ⟨l, l', rest, rfl, h16_some hn⟩

theorem cutDouble_some {l front back : List Char} (h : cutDouble l = some (front, back)) :
    l = front ++ ':' :: ':' :: back := by
  induction l generalizing front with
  | nil => cases h
  | cons c rest ih =>
      unfold cutDouble at h
      split at h
      · rename_i hcut
        obtain ⟨rfl, hhead⟩ := hcut
        cases h
        cases rest with
        | nil => cases hhead
        | cons c rest =>
            cases hhead
            rfl
      · obtain ⟨⟨front', back'⟩, hrest, heq⟩ := Option.map_eq_some_iff.mp h
        cases heq
        rw [ih hrest]
        rfl

theorem colonPieces_cons {l piece : List Char} {rest : List (List Char)}
    (h : colonPieces l = piece :: rest) : [':'].intercalate (piece :: rest) = l := by
  unfold colonPieces at h
  split at h
  · cases h
  · rw [← h]
    exact List.intercalate_splitOn ':'

/-- An IPv6 literal starts with hexadecimal digits, or none, and a colon. -/
theorem parseIpv6_some {l : List Char} {groups : List Nat} (h : parseIpv6 l = some groups) :
    ∃ front back, l = front ++ ':' :: back ∧ ∀ c ∈ front, (hexVal c).isSome := by
  unfold parseIpv6 at h
  split at h
  · obtain ⟨groups', hgroups, hlength⟩ := Option.bind_eq_some_iff.mp h
    have height : groups'.length = 8 := by
      by_contra hne
      rw [if_neg hne] at hlength
      cases hlength
    obtain ⟨piece, piece', rest, hpieces, hhex⟩ := groupsOf_some hgroups (by omega)
    refine ⟨piece, [':'].intercalate (piece' :: rest), ?_, hhex⟩
    rw [← colonPieces_cons hpieces]
    simp [List.intercalate]
  · rename_i front back hcut
    obtain ⟨before, hbefore, -⟩ := Option.bind_eq_some_iff.mp h
    rw [cutDouble_some hcut]
    cases hpieces : colonPieces front with
    | nil =>
        have hnil : front = [] := by
          unfold colonPieces at hpieces
          split at hpieces
          · assumption
          · exact absurd hpieces (List.splitOn_ne_nil ':' front)
        exact ⟨[], ':' :: back, by rw [hnil], fun c hc => absurd hc List.not_mem_nil⟩
    | cons piece rest =>
        rw [hpieces, List.mapM_eq_some_iff] at hbefore
        obtain ⟨n, -, hn⟩ : ∃ n ∈ before, some n = h16 piece := by
          have hmem : h16 piece ∈ (piece :: rest).map h16 := by simp
          rw [hbefore] at hmem
          exact List.mem_map.mp hmem
        rw [← colonPieces_cons hpieces]
        cases rest with
        | nil => exact ⟨piece, ':' :: back, by simp [List.intercalate], h16_some hn.symm⟩
        | cons piece' rest =>
            refine ⟨piece, [':'].intercalate (piece' :: rest) ++ ':' :: ':' :: back, ?_,
              h16_some hn.symm⟩
            simp [List.intercalate]

theorem isPort_cons {c : Char} {digits : List Char} (h : isPort (c :: digits) = true) :
    c = ':' ∧ ∀ d ∈ digits, d.isDigit = true := by
  obtain ⟨hcolon, hdigits⟩ := Bool.and_eq_true_iff.mp h
  exact ⟨of_decide_eq_true hcolon, List.all_eq_true.mp hdigits⟩

/-- How a host is written before its port: in brackets, with dots, or as it is. -/
def UriHost.Written (port l : List Char) : UriHost → Prop
  | ipv6 groups => ∃ inner, l = '[' :: (inner ++ ']' :: port) ∧ parseIpv6 inner = some groups
  | ipv4 a b c d => l = dotted a b c d ++ port
  | name text => ∃ written, l = written ++ port ∧ ':' ∉ written ∧ text = written.map Char.toLower

theorem parseHost_some {l : List Char} {host : UriHost} (h : parseHost l = some host) :
    ∃ port, isPort port = true ∧ host.Written port l := by
  unfold parseHost at h
  split at h
  · rename_i hbracket
    unfold parseBracketed at h
    split at h
    · rename_i hport
      obtain ⟨groups, hgroups, rfl⟩ := Option.map_eq_some_iff.mp h
      refine ⟨_, hport.2, upTo ']' l.tail, ?_, hgroups⟩
      rw [← upTo_append_cons_drop hport.1]
      exact (List.cons_head?_tail hbracket).symm
    · cases h
  · unfold parsePlain at h
    split at h
    · rename_i hport
      refine ⟨_, hport, ?_⟩
      split at h
      · rename_i a b c d hread
        cases h
        rw [UriHost.Written, ← parseIpv4_some hread, upTo_append_drop]
      · cases h
        exact ⟨upTo ':' l, upTo_append_drop.symm, not_mem_upTo, rfl⟩
    · cases h

/-! ## URLs -/

/-- The characters that end an authority. -/
def endsAuthority (c : Char) : Bool := c = '/' || c = '?' || c = '#'

/-- The authority at the start of a text. -/
def authorityOf (s : List Char) : List Char := s.takeWhile fun c => !endsAuthority c

/-- What follows it. -/
def afterAuthority (s : List Char) : List Char := s.dropWhile fun c => !endsAuthority c

/-- A character of a scheme after the first. -/
def schemeChar (c : Char) : Bool := c.isAlphanum || c = '+' || c = '-' || c = '.'

/-- A scheme. -/
def isScheme : List Char → Bool
  | [] => false
  | c :: rest => c.isAlpha && rest.all schemeChar

/-- The scheme of an absolute URL, in lower case, and the host that a client connects to. The user
ends at the last `@`. -/
def connect (url : List Char) : Option (List Char × UriHost) :=
  let scheme := upTo ':' url
  let rest := url.drop (scheme.length + 1)
  if !isScheme scheme ∨ rest.take 2 ≠ ['/', '/'] then none
  else (parseHost (afterLast '@' (authorityOf (rest.drop 2)))).map (scheme.map Char.toLower, ·)

theorem connect_some {url scheme : List Char} {host : UriHost}
    (h : connect url = some (scheme, host)) :
    ∃ written rest, url = written ++ ':' :: '/' :: '/' :: rest ∧ isScheme written = true ∧
      scheme = written.map Char.toLower ∧ parseHost (afterLast '@' (authorityOf rest)) = some host := by
  unfold connect at h
  dsimp only at h
  split at h
  · cases h
  · rename_i hform
    obtain ⟨hscheme, hslashes⟩ := not_or.mp hform
    obtain ⟨host', hhost, heq⟩ := Option.map_eq_some_iff.mp h
    cases heq
    have hslashes := not_not.mp hslashes
    refine ⟨upTo ':' url, _, ?_, by simpa using hscheme, rfl, hhost⟩
    have hcolon : ':' ∈ url := by
      rcases upTo_spec url ':' with heq | ⟨rest, heq⟩
      · rw [← heq, List.drop_of_length_le (Nat.le_succ _)] at hslashes
        cases hslashes
      · rw [heq]
        exact List.mem_append_right _ List.mem_cons_self
    have hrest := List.take_append_drop 2 (url.drop ((upTo ':' url).length + 1))
    rw [hslashes] at hrest
    exact (upTo_append_cons_drop hcolon).trans (congrArg (_ ++ ':' :: ·) hrest.symm)

theorem authority_append (s : List Char) : authorityOf s ++ afterAuthority s = s :=
  List.takeWhile_append_dropWhile

theorem not_endsAuthority_of_mem {s : List Char} {c : Char} (h : c ∈ authorityOf s) :
    endsAuthority c = false := by
  simpa using List.mem_takeWhile_imp h

/-- What follows an authority starts with the character that ends it. -/
theorem afterAuthority_cons {s rest : List Char} {c : Char} (h : afterAuthority s = c :: rest) :
    endsAuthority c = true := by
  have hhead := List.head?_dropWhile_not (fun c => !endsAuthority c) s
  rw [afterAuthority] at h
  rw [h] at hhead
  simpa using hhead

set_option maxRecDepth 2000 in
example : connect "HTTPS://bob@[2001:DB8::7]:443?q#f".toList =
    some ("https".toList, .ipv6 [0x2001, 0xdb8, 0, 0, 0, 0, 0, 7]) := by decide +kernel

set_option maxRecDepth 2000 in
example : connect "https://10.0.0.255#x/".toList = some ("https".toList, .ipv4 10 0 0 255) := by
  decide +kernel

/-! ## Hosts that are not reached from outside -/

/-- A loopback, private, link-local or unspecified address, or the local host by name. -/
def UriHost.Internal : UriHost → Prop
  | ipv4 a b c d => a = 127 ∨ a = 10 ∨ (a = 172 ∧ 16 ≤ b ∧ b ≤ 31) ∨ (a = 192 ∧ b = 168) ∨
      (a = 169 ∧ b = 254) ∨ (a = 0 ∧ b = 0 ∧ c = 0 ∧ d = 0)
  | ipv6 groups => groups = [0, 0, 0, 0, 0, 0, 0, 1] ∨ groups = [0, 0, 0, 0, 0, 0, 0, 0] ∨
      ∃ g ∈ groups.head?, (0xfe80 ≤ g ∧ g < 0xfec0) ∨ (0xfc00 ≤ g ∧ g < 0xfe00)
  | name text => text = "localhost".toList

end Lib
