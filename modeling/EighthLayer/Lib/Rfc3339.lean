import EighthLayer.Lib.Instant
import Mathlib.Data.List.DropRight

/-!
# EighthLayer.Lib.Rfc3339

Timestamps of nanosecond precision in a zone, and their RFC 3339 texts.

A text is read back whichever way its fraction of a second was written: with the trailing zeros
left out (`RFC3339Nano`), or in six digits. Reading is of RFC 3339 proper, from the year 1000 on.
-/

namespace Lib

/-- A time of day in a zone, `zone` minutes east of UTC. -/
structure Timestamp where
  stamp : Stamp
  nano : Nat
  zone : Int
  nano_lt : nano < 1000000000
  zone_lt : zone.natAbs < 1440
deriving DecidableEq

namespace Timestamp

/-- The nanoseconds of a timestamp, counted in UTC. -/
def instant (t : Timestamp) : Int :=
  (micros t.stamp.date.ordinal t.stamp.hour t.stamp.minute t.stamp.second 0 : Int) * 1000 +
    t.nano - t.zone * 60000000000

/-- The timestamp without what is smaller than a microsecond. -/
def truncated (t : Timestamp) : Timestamp :=
  { t with nano := t.nano / 1000 * 1000, nano_lt := by have := t.nano_lt; omega }

theorem instant_truncated_iff (t : Timestamp) :
    t.truncated.instant = t.instant ↔ t.nano % 1000 = 0 := by
  simp only [instant, truncated]
  omega

theorem truncated_eq_self {t : Timestamp} (h : t.nano % 1000 = 0) : t.truncated = t := by
  have hnano : t.nano / 1000 * 1000 = t.nano := by omega
  unfold truncated
  simp only [hnano]

/-! ## Writing -/

/-- A fraction without its trailing zeros; nothing when no digit is left. -/
def trimmedFraction (nano : Nat) : List Char :=
  if nano = 0 then [] else '.' :: (digits 9 nano).rdropWhile (· = '0')

/-- A fraction in six digits; nothing when they are all zeros. -/
def microFraction (nano : Nat) : List Char :=
  if nano / 1000 = 0 then [] else '.' :: digits 6 (nano / 1000)

/-- The zone, `Z` for UTC. -/
def zoneChars (zone : Int) : List Char :=
  if zone = 0 then ['Z']
  else (if 0 < zone then '+' else '-') ::
    (digits 2 (zone.natAbs / 60) ++ ':' :: digits 2 (zone.natAbs % 60))

/-- The text of a timestamp with a given fraction. -/
def chars (t : Timestamp) (fraction : List Char) : List Char :=
  t.stamp.date.chars ++ 'T' :: (digits 2 t.stamp.hour ++ ':' :: (digits 2 t.stamp.minute ++
    ':' :: (digits 2 t.stamp.second ++ (fraction ++ zoneChars t.zone))))

/-- With the fraction in nanoseconds, its trailing zeros left out. -/
def nanoText (t : Timestamp) : String := String.ofList (t.chars (trimmedFraction t.nano))

/-- With the fraction in microseconds. -/
def microText (t : Timestamp) : String := String.ofList (t.chars (microFraction t.nano))

/-! ## Reading -/

/-- A date, and what follows it. -/
def readDate (s : List Char) : Option (Date × List Char) := do
  let (year, s) ← takeNumber 4 s
  let s ← takeChar (· = '-') s
  let (month, s) ← takeNumber 2 s
  let s ← takeChar (· = '-') s
  let (day, s) ← takeNumber 2 s
  if h : 1000 ≤ year ∧ year ≤ 9999 ∧ 1 ≤ month ∧ month ≤ 12 ∧ 1 ≤ day ∧
      day ≤ daysInMonth year month then
    some (⟨year, month, day, h.1, h.2.1, h.2.2.1, h.2.2.2.1, h.2.2.2.2.1, h.2.2.2.2.2⟩, s)
  else none

/-- A date and a time to the second, and what follows them. -/
def readStamp (s : List Char) : Option (Stamp × List Char) := do
  let (date, s) ← readDate s
  let s ← takeChar (· = 'T') s
  let (hour, s) ← takeNumber 2 s
  let s ← takeChar (· = ':') s
  let (minute, s) ← takeNumber 2 s
  let s ← takeChar (· = ':') s
  let (second, s) ← takeNumber 2 s
  if h : hour < 24 ∧ minute < 60 ∧ second < 60 then
    some (⟨date, hour, minute, second, h.1, h.2.1, h.2.2⟩, s)
  else none

/-- A fraction in nanoseconds, which may be missing; digits from the tenth on are cut off. -/
def readNanos : List Char → Option (Nat × List Char)
  | '.' :: s =>
      let digits := s.takeWhile Char.isDigit
      if digits = [] then none
      else some (decimal ((digits ++ List.replicate 9 '0').take 9), s.dropWhile Char.isDigit)
  | s => some (0, s)

/-- The timestamp that a text denotes. -/
def readChars (s : List Char) : Option Timestamp := do
  let (stamp, s) ← readStamp s
  let (nano, s) ← readNanos s
  let zone ← zoneMinutes s
  if h : nano < 1000000000 ∧ zone.natAbs < 1440 then some ⟨stamp, nano, zone, h.1, h.2⟩ else none

/-- The timestamp that a text denotes. -/
def read (s : String) : Option Timestamp := readChars s.toList

/-! ## Round trips -/

theorem readDate_chars (d : Date) (s : List Char) : readDate (d.chars ++ s) = some (d, s) := by
  have hyear := d.year_le
  have hmonth := d.month_le
  have hday := d.day_lt
  have hvalid : 1000 ≤ d.year ∧ d.year ≤ 9999 ∧ 1 ≤ d.month ∧ d.month ≤ 12 ∧ 1 ≤ d.day ∧
      d.day ≤ daysInMonth d.year d.month :=
    ⟨d.year_ge, d.year_le, d.month_ge, hmonth, d.day_ge, d.day_le⟩
  unfold readDate Date.chars
  rw [List.append_assoc, takeNumber_digits (by omega)]
  show (takeNumber 2 ((digits 2 d.month ++ '-' :: digits 2 d.day) ++ s)).bind _ = _
  rw [List.append_assoc, takeNumber_digits (by omega)]
  show (takeNumber 2 (digits 2 d.day ++ s)).bind _ = _
  rw [takeNumber_digits (by omega)]
  exact dif_pos hvalid

theorem readStamp_chars (t : Stamp) (s : List Char) :
    readStamp (t.date.chars ++ 'T' :: (digits 2 t.hour ++ ':' :: (digits 2 t.minute ++
      ':' :: (digits 2 t.second ++ s)))) = some (t, s) := by
  have hhour := t.hour_lt
  have hminute := t.minute_lt
  have hsecond := t.second_lt
  unfold readStamp
  rw [readDate_chars]
  show (takeNumber 2 (digits 2 t.hour ++ _)).bind _ = _
  rw [takeNumber_digits (by omega)]
  show (takeNumber 2 (digits 2 t.minute ++ _)).bind _ = _
  rw [takeNumber_digits (by omega)]
  show (takeNumber 2 (digits 2 t.second ++ s)).bind _ = _
  rw [takeNumber_digits (by omega)]
  exact dif_pos ⟨hhour, hminute, hsecond⟩

/-- A zone starts with no digit and no point. -/
theorem zoneChars_head (zone : Int) : ∃ c s, zoneChars zone = c :: s ∧ c.isDigit = false ∧ c ≠ '.' := by
  unfold zoneChars
  split
  · exact ⟨_, _, rfl, by decide, by decide⟩
  · split
    · exact ⟨_, _, rfl, by decide, by decide⟩
    · exact ⟨_, _, rfl, by decide, by decide⟩

theorem zoneMinutes_zoneChars {zone : Int} (h : zone.natAbs < 1440) :
    zoneMinutes (zoneChars zone) = some zone := by
  have hhour : zone.natAbs / 60 < 24 := by omega
  have hminute : zone.natAbs % 60 < 60 := Nat.mod_lt _ (by decide)
  have hsum : zone.natAbs / 60 * 60 + zone.natAbs % 60 = zone.natAbs := by omega
  have hread : ∀ sign : Char, (sign = '+' ∨ sign = '-') →
      zoneMinutes (sign :: (digits 2 (zone.natAbs / 60) ++ ':' :: digits 2 (zone.natAbs % 60))) =
        if sign = '+' then some (zone.natAbs : Int)
        else if sign = '-' then some (-(zone.natAbs : Int)) else none := by
    intro sign hsign
    have htail : takeNumber 2 (digits 2 (zone.natAbs % 60)) = some (zone.natAbs % 60, []) := by
      have happ := takeNumber_digits (w := 2) (n := zone.natAbs % 60) (by omega) []
      rwa [List.append_nil] at happ
    have hnotZ : ∀ s, zoneMinutes (sign :: s) = (do
        let (hour, s) ← takeNumber 2 s
        let s ← takeChar (· = ':') s
        let (minute, s) ← takeNumber 2 s
        if s = [] ∧ hour < 24 ∧ minute < 60 then
          if sign = '+' then some ((hour * 60 + minute : Nat) : Int)
          else if sign = '-' then some (-((hour * 60 + minute : Nat) : Int))
          else none
        else none) := by
      intro s
      rcases hsign with rfl | rfl
      · rfl
      · rfl
    rw [hnotZ, takeNumber_digits (by omega)]
    show (takeNumber 2 (digits 2 (zone.natAbs % 60))).bind _ = _
    rw [htail]
    show (if _ then _ else _) = _
    rw [if_pos ⟨rfl, hhour, hminute⟩, hsum]
  unfold zoneChars
  by_cases hzero : zone = 0
  · rw [if_pos hzero, hzero]
    rfl
  · rw [if_neg hzero]
    by_cases hpos : 0 < zone
    · rw [if_pos hpos, hread _ (.inl rfl), if_pos rfl]
      congr 1
      omega
    · rw [if_neg hpos, hread _ (.inr rfl), if_neg (by decide), if_pos rfl]
      congr 1
      omega

/-- A fraction of digits is read back, whatever follows that is no digit. -/
theorem readNanos_digits {ds s : List Char} (hne : ds ≠ []) (hdigits : ds.all Char.isDigit = true)
    (hs : ∃ c s', s = c :: s' ∧ c.isDigit = false ∧ c ≠ '.') :
    readNanos ('.' :: (ds ++ s)) = some (decimal ((ds ++ List.replicate 9 '0').take 9), s) := by
  obtain ⟨c, s', rfl, hc, -⟩ := hs
  have htake : (ds ++ c :: s').takeWhile Char.isDigit = ds := by
    rw [List.takeWhile_append_of_pos (List.all_eq_true.mp hdigits),
      List.takeWhile_cons_of_neg (by simp [hc]), List.append_nil]
  have hdrop : (ds ++ c :: s').dropWhile Char.isDigit = c :: s' := by
    rw [List.dropWhile_append_of_pos (List.all_eq_true.mp hdigits),
      List.dropWhile_cons_of_neg (by simp [hc])]
  simp only [readNanos, htake, hdrop, if_neg hne]

/-- No fraction is read as none. -/
theorem readNanos_none {s : List Char} (hs : ∃ c s', s = c :: s' ∧ c.isDigit = false ∧ c ≠ '.') :
    readNanos s = some (0, s) := by
  obtain ⟨c, s', rfl, -, hc⟩ := hs
  unfold readNanos
  split
  · rename_i heq
    cases heq
    exact absurd rfl hc
  · rfl

/-- A list padded to a length. -/
theorem take_append_replicate {α : Type} {xs : List α} {k n : Nat} (x : α)
    (h : xs.length + k = n) : (xs ++ List.replicate n x).take n = xs ++ List.replicate k x := by
  have hmin : min (n - xs.length) n = k := by omega
  rw [List.take_append, List.take_of_length_le (by omega), List.take_replicate, hmin]

/-- Zeros that a fraction has been rid of are put back. -/
theorem padded_trimmed (nano : Nat) :
    (((digits 9 nano).rdropWhile (· = '0')) ++ List.replicate 9 '0').take 9 = digits 9 nano := by
  have hlength := digits_length 9 nano
  generalize digits 9 nano = ds at hlength ⊢
  have hsplit : ds.rdropWhile (· = '0') ++ ds.rtakeWhile (· = '0') = ds :=
    List.rdropWhile_append_rtakeWhile
  have hzeros : ds.rtakeWhile (· = '0') =
      List.replicate (ds.rtakeWhile (· = '0')).length '0' := by
    refine List.eq_replicate_of_mem fun c hc => ?_
    simpa using List.mem_rtakeWhile_imp hc
  have hlengths := congrArg List.length hsplit
  rw [List.length_append, hlength] at hlengths
  rw [take_append_replicate '0' hlengths, ← hzeros, hsplit]

/-- A fraction in nanoseconds is read back. -/
theorem readNanos_trimmedFraction {nano : Nat} {s : List Char} (hnano : nano < 1000000000)
    (hs : ∃ c s', s = c :: s' ∧ c.isDigit = false ∧ c ≠ '.') :
    readNanos (trimmedFraction nano ++ s) = some (nano, s) := by
  unfold trimmedFraction
  by_cases hzero : nano = 0
  · rw [if_pos hzero, List.nil_append, readNanos_none hs, hzero]
  · rw [if_neg hzero, List.cons_append, readNanos_digits ?_ ?_ hs, padded_trimmed nano,
      decimal_digits hnano]
    · -- a fraction of zeros would be zero
      intro hnil
      have hpadded := padded_trimmed nano
      rw [hnil] at hpadded
      have hdecimal := decimal_digits (w := 9) hnano
      rw [← hpadded] at hdecimal
      exact hzero hdecimal.symm
    · rw [List.all_eq_true]
      intro c hc
      exact List.all_eq_true.mp (isDigit_digits 9 nano) c ((List.rdropWhile_prefix _ _).subset hc)

/-- **Round trip** of `RFC3339Nano`. -/
theorem read_nanoText (t : Timestamp) : read t.nanoText = some t := by
  have hnano := t.nano_lt
  have hzone := zoneMinutes_zoneChars t.zone_lt
  have hfraction := readNanos_trimmedFraction hnano (zoneChars_head t.zone)
  unfold read nanoText readChars chars
  rw [String.toList_ofList, readStamp_chars]
  show (readNanos _).bind _ = _
  rw [hfraction]
  show (zoneMinutes _).bind _ = _
  rw [hzone]
  exact dif_pos ⟨hnano, t.zone_lt⟩

/-- **Round trip** of a fraction in microseconds: what is smaller is lost. -/
theorem read_microText (t : Timestamp) : read t.microText = some t.truncated := by
  have hnano := t.nano_lt
  have hmicro : t.nano / 1000 < 10 ^ 6 := by omega
  have hzone := zoneMinutes_zoneChars t.zone_lt
  have hfraction : readNanos (microFraction t.nano ++ zoneChars t.zone) =
      some (t.nano / 1000 * 1000, zoneChars t.zone) := by
    unfold microFraction
    by_cases hzero : t.nano / 1000 = 0
    · rw [if_pos hzero, List.nil_append, readNanos_none (zoneChars_head _), hzero]
    · have hpadded : (digits 6 (t.nano / 1000) ++ List.replicate 9 '0').take 9 =
          digits 6 (t.nano / 1000) ++ List.replicate 3 '0' := by
        exact take_append_replicate '0' (by rw [digits_length])
      have hdecimal : decimal (digits 6 (t.nano / 1000) ++ List.replicate 3 '0') =
          t.nano / 1000 * 1000 := by
        have hhigh := decimal_digits hmicro
        unfold decimal at hhigh ⊢
        rw [List.foldl_append, hhigh]
        show 10 * (10 * (10 * _ + 0) + 0) + 0 = _
        omega
      have hne : digits 6 (t.nano / 1000) ≠ [] := by
        intro hnil
        have hlength := digits_length 6 (t.nano / 1000)
        rw [hnil] at hlength
        cases hlength
      rw [if_neg hzero, List.cons_append,
        readNanos_digits hne (isDigit_digits 6 _) (zoneChars_head _), hpadded, hdecimal]
  unfold read microText readChars chars
  rw [String.toList_ofList, readStamp_chars]
  show (readNanos _).bind _ = _
  rw [hfraction]
  show (zoneMinutes _).bind _ = _
  rw [hzone]
  exact dif_pos ⟨t.truncated.nano_lt, t.zone_lt⟩

end Timestamp

end Lib
