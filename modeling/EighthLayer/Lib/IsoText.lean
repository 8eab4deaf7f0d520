import EighthLayer.Lib.Instant
import Mathlib.Order.Lattice.Nat

/-!
# EighthLayer.Lib.IsoText

Texts of times that end in `Z`, with the fraction of a second left out when it is zero, and the
ISO-8601 texts that `datetime.fromisoformat` reads.

The texts that end in `Z` are not ordered as the times are: `Z` sorts after the dot of a fraction,
so that a whole second comes last of all the times within it (`isoZ_lt_iff`).
-/

namespace Lib

/-! ### Seconds -/

namespace Stamp

/-- The number of a second. -/
def seconds (s : Stamp) : Nat :=
  ((s.date.ordinal * 24 + s.hour) * 60 + s.minute) * 60 + s.second

/-- A date and time of day to the second, as characters. -/
def secondChars (s : Stamp) : List Char :=
  s.date.chars ++ 'T' :: (digits 2 s.hour ++ ':' :: (digits 2 s.minute ++ ':' :: digits 2 s.second))

@[simp] theorem length_secondChars (s : Stamp) : s.secondChars.length = 19 := by
  simp [secondChars]

theorem chars_eq (s : Stamp) : s.chars = s.secondChars ++ ['Z'] := by
  simp [chars, timeChars, secondChars]

theorem secondChars_lt {s t : Stamp} : s.secondChars < t.secondChars ↔ s.num < t.num := by
  rw [← chars_lt, chars_eq, chars_eq, append_lt_append_iff (by simp)]
  simp

theorem num_lt_iff {s t : Stamp} : s.num < t.num ↔ s.seconds < t.seconds := by
  have hclock : ∀ u : Stamp, Clock.chars ⟨u, 0, by decide⟩ = u.secondChars ++ "+00:00".toList := by
    intro u
    simp [Clock.chars, Clock.tailChars, secondChars]
  have hlt := Clock.chars_lt (c := ⟨s, 0, by decide⟩) (d := ⟨t, 0, by decide⟩)
  rw [hclock, hclock, append_lt_append_iff (by simp), secondChars_lt] at hlt
  simp only [List.lt_irrefl, and_false, or_false, Clock.instant, micros] at hlt
  rw [hlt]
  unfold seconds
  omega

theorem num_injective {s t : Stamp} (h : s.num = t.num) : s = t := by
  obtain ⟨date, hour, minute, second, hh, hm, hs⟩ := s
  obtain ⟨date', hour', minute', second', hh', hm', hs'⟩ := t
  unfold num at h
  dsimp only at h
  obtain rfl : date = date' := Date.num_injective (by omega)
  obtain ⟨rfl, rfl, rfl⟩ : hour = hour' ∧ minute = minute' ∧ second = second' := by omega
  rfl

theorem eq_of_not_lt {s t : Stamp} (hle : ¬ t.num < s.num) (hge : ¬ s.num < t.num) : s = t :=
  num_injective (by omega)

theorem seconds_inj {s t : Stamp} (h : s.seconds = t.seconds) : s = t :=
  eq_of_not_lt (by rw [num_lt_iff]; omega) (by rw [num_lt_iff]; omega)

/-- Texts that start with a second compare by it first. -/
theorem secondChars_append_lt {s t : Stamp} {x y : List Char} :
    s.secondChars ++ x < t.secondChars ++ y ↔ s.seconds < t.seconds ∨ (s = t ∧ x < y) := by
  have hinj : s.secondChars = t.secondChars ↔ s = t := by
    refine ⟨fun heq => ?_, fun heq => by rw [heq]⟩
    refine eq_of_not_lt ?_ ?_
    · rw [← secondChars_lt, heq]
      exact lt_irrefl _
    · rw [← secondChars_lt, heq]
      exact lt_irrefl _
  rw [append_lt_append_iff (by simp), secondChars_lt, num_lt_iff, hinj]

end Stamp

/-! ### Texts that end in Z -/

namespace Clock

/-- A second and a fraction of it denote an instant. -/
theorem instant_eq (c : Clock) : c.instant = c.stamp.seconds * 1000000 + c.micro := by
  unfold instant micros Stamp.seconds
  push_cast
  rfl

/-- The fraction of a second, left out when it is zero, and `Z`. -/
def zTail (c : Clock) : List Char :=
  if c.micro = 0 then ['Z'] else '.' :: (digits 6 c.micro ++ ['Z'])

/-- `datetime.isoformat().replace("+00:00", "Z")` of a UTC time. -/
def isoZ (c : Clock) : String := String.ofList (c.stamp.secondChars ++ c.zTail)

@[simp] theorem toList_isoZ (c : Clock) : c.isoZ.toList = c.stamp.secondChars ++ c.zTail :=
  String.toList_ofList

/-- Within a second the fractions go up, and none at all comes last. -/
theorem zTail_lt {c d : Clock} :
    c.zTail < d.zTail ↔ c.micro ≠ 0 ∧ (d.micro = 0 ∨ c.micro < d.micro) := by
  have hc := c.micro_lt
  have hd := d.micro_lt
  have hdot : ('.' : Char) < 'Z' := by decide
  unfold zTail
  by_cases hc0 : c.micro = 0
  · rw [if_pos hc0]
    refine iff_of_false (fun h => ?_) fun h => h.1 hc0
    split at h
    · exact List.lt_irrefl _ h
    · rcases List.cons_lt_cons_iff.mp h with hlt | ⟨heq, -⟩
      · exact absurd hlt (lt_asymm hdot)
      · exact absurd heq (by decide)
  · rw [if_neg hc0]
    by_cases hd0 : d.micro = 0
    · rw [if_pos hd0]
      exact iff_of_true (List.cons_lt_cons_iff.mpr (.inl hdot)) ⟨hc0, .inl hd0⟩
    · rw [if_neg hd0, List.cons_lt_cons_iff, append_lt_append_iff (by simp),
        digits_lt (by omega) (by omega)]
      simp [hc0, hd0]

theorem isoZ_lt_iff {c d : Clock} :
    c.isoZ < d.isoZ ↔ c.stamp.seconds < d.stamp.seconds ∨
      (c.stamp = d.stamp ∧ c.micro ≠ 0 ∧ (d.micro = 0 ∨ c.micro < d.micro)) := by
  rw [String.lt_iff_toList_lt, toList_isoZ, toList_isoZ, Stamp.secondChars_append_lt, zTail_lt]

/-- Such a text has no other marks than those of a date and a time. -/
theorem not_mem_isoZ {c : Clock} {x : Char} (hdigit : ∀ d < 10, digit d ≠ x)
    (hmark : x ∉ ['-', 'T', ':', '.', 'Z']) : x ∉ c.isoZ.toList := by
  simp only [List.mem_cons, List.not_mem_nil, or_false, not_or] at hmark
  obtain ⟨hdash, hT, hcolon, hdot, hZ⟩ := hmark
  have htail : x ∉ c.zTail := by
    unfold zTail
    split
    · simp [hZ]
    · simp [hdot, hZ, not_mem_digits hdigit]
  rw [toList_isoZ, List.mem_append, not_or]
  refine ⟨?_, htail⟩
  simp [Stamp.secondChars, Date.chars, not_mem_digits hdigit, hdash, hT, hcolon]

theorem isoZ_ne_empty (c : Clock) : c.isoZ ≠ "" := by
  intro h
  have hlength := congrArg (fun s => s.toList.length) h
  simp at hlength

end Clock

/-! ### Texts as bounds -/

/-- A second, with no fraction. -/
def Stamp.whole (t : Stamp) : Clock := ⟨t, 0, by decide⟩

/-- A second, with the least fraction. -/
def Stamp.firstFraction (t : Stamp) : Clock := ⟨t, 1, by decide⟩

theorem Clock.isoZ_le_whole (c : Clock) : c.isoZ ≤ c.stamp.whole.isoZ := by
  rw [← not_lt, Clock.isoZ_lt_iff]
  rintro (hlt | ⟨-, hne, -⟩)
  · exact lt_irrefl _ hlt
  · exact hne rfl

theorem Clock.firstFraction_le_isoZ (c : Clock) : c.stamp.firstFraction.isoZ ≤ c.isoZ := by
  rw [← not_lt, Clock.isoZ_lt_iff]
  rintro (hlt | ⟨-, hne, hzero | hlt⟩)
  · exact lt_irrefl _ hlt
  · exact Nat.one_ne_zero hzero
  · exact hne (Nat.lt_one_iff.mp hlt)

theorem Stamp.whole_le_of_le {t u : Stamp} (h : t.seconds ≤ u.seconds) :
    t.whole.isoZ ≤ u.whole.isoZ := by
  rw [← not_lt, Clock.isoZ_lt_iff]
  rintro (hlt | ⟨-, hne, -⟩)
  · exact absurd hlt (not_lt.mpr h)
  · exact hne rfl

theorem Stamp.firstFraction_le_of_le {t u : Stamp} (h : t.seconds ≤ u.seconds) :
    t.firstFraction.isoZ ≤ u.firstFraction.isoZ := by
  rw [← not_lt, Clock.isoZ_lt_iff]
  rintro (hlt | ⟨-, -, hzero | hlt⟩)
  · exact absurd hlt (not_lt.mpr h)
  · exact Nat.one_ne_zero hzero
  · exact Nat.lt_irrefl 1 hlt

/-- The last second before an instant. -/
def LastBefore (e : Int) (t : Stamp) : Prop :=
  t.whole.instant < e ∧ ∀ u : Stamp, u.whole.instant < e → u.seconds ≤ t.seconds

/-- The first second from an instant on. -/
def FirstFrom (e : Int) (t : Stamp) : Prop :=
  e ≤ t.whole.instant ∧ ∀ u : Stamp, e ≤ u.whole.instant → t.seconds ≤ u.seconds

theorem exists_lastBefore {e : Int} {t : Stamp} (h : t.whole.instant < e) :
    ∃ u, LastBefore e u ∧ t.seconds ≤ u.seconds := by
  have hbdd : BddAbove {n | ∃ u : Stamp, u.whole.instant < e ∧ u.seconds = n} := by
    refine ⟨e.toNat, ?_⟩
    rintro n ⟨u, hu, rfl⟩
    rw [Clock.instant_eq] at hu
    dsimp only [Stamp.whole] at hu
    omega
  have hne : {n | ∃ u : Stamp, u.whole.instant < e ∧ u.seconds = n}.Nonempty :=
    ⟨t.seconds, t, h, rfl⟩
  obtain ⟨u, hu, hsup⟩ := Nat.sSup_mem hne hbdd
  refine ⟨u, ⟨hu, fun v hv => ?_⟩, ?_⟩
  · rw [hsup]
    exact le_csSup hbdd ⟨v, hv, rfl⟩
  · rw [hsup]
    exact le_csSup hbdd ⟨t, h, rfl⟩

theorem exists_firstFrom {e : Int} {t : Stamp} (h : e ≤ t.whole.instant) :
    ∃ u, FirstFrom e u ∧ u.seconds ≤ t.seconds := by
  have hne : {n | ∃ u : Stamp, e ≤ u.whole.instant ∧ u.seconds = n}.Nonempty :=
    ⟨t.seconds, t, h, rfl⟩
  obtain ⟨u, hu, hinf⟩ := Nat.sInf_mem hne
  refine ⟨u, ⟨hu, fun v hv => ?_⟩, ?_⟩
  · rw [hinf]
    exact Nat.sInf_le ⟨v, hv, rfl⟩
  · rw [hinf]
    exact Nat.sInf_le ⟨t, h, rfl⟩

/-- A text that stands for an instant among the texts that end in `Z`: the instant is not within
a second, and the text comes after all of the second before, and before all of its own. -/
structure StandsFor (v : String) (e : Int) : Prop where
  whole : ∀ t : Stamp, t.whole.instant < e → t.whole.instant + 1000000 ≤ e
  after : ∀ t, LastBefore e t → t.whole.isoZ < v
  upTo : ∀ t, FirstFrom e t → v ≤ t.firstFraction.isoZ

/-- **Texts as bounds.** The times from a text on are those from an instant on, exactly if the
text stands for the instant. -/
theorem standsFor_iff {v : String} {e : Int} :
    StandsFor v e ↔ ∀ c : Clock, v ≤ c.isoZ ↔ e ≤ c.instant := by
  constructor
  · intro h c
    have hmicro := c.micro_lt
    have hc := c.instant_eq
    have hwhole := c.stamp.whole.instant_eq
    dsimp only [Stamp.whole] at hwhole
    by_cases hle : e ≤ c.stamp.whole.instant
    · obtain ⟨t, ht, hlet⟩ := exists_firstFrom hle
      refine iff_of_true ?_ ?_
      · exact (h.upTo t ht).trans
          ((Stamp.firstFraction_le_of_le hlet).trans c.firstFraction_le_isoZ)
      · dsimp only [Stamp.whole] at hle
        omega
    · have hlt := lt_of_not_ge hle
      have hafter := h.whole _ hlt
      obtain ⟨t, ht, hlet⟩ := exists_lastBefore hlt
      refine iff_of_false (not_le.mpr ?_) (not_le.mpr ?_)
      · exact (c.isoZ_le_whole.trans (Stamp.whole_le_of_le hlet)).trans_lt (h.after t ht)
      · dsimp only [Stamp.whole] at hafter
        omega
  · intro h
    refine ⟨fun t ht => le_of_not_gt fun hwithin => ?_, fun t ht => ?_, fun t ht => ?_⟩
    · -- the instant itself has a fraction, so that its text comes before that of the whole second
      have hwhole := t.whole.instant_eq
      dsimp only [Stamp.whole] at hwhole ht hwithin
      have hinstant : (⟨t, (e - t.seconds * 1000000).toNat, by omega⟩ : Clock).instant = e := by
        rw [Clock.instant_eq]
        dsimp only
        omega
      have hfrom := (h _).mpr hinstant.ge
      have hall := (h t.whole).mp (hfrom.trans (Clock.isoZ_le_whole _))
      exact absurd hall (not_le.mpr ht)
    · exact not_le.mp fun hle => absurd ((h _).mp hle) (not_le.mpr ht.1)
    · refine (h _).mpr (ht.1.trans ?_)
      rw [Clock.instant_eq, Clock.instant_eq]
      dsimp only [Stamp.whole, Stamp.firstFraction]
      omega

/-- A time of the form with `Z` never stands for itself: either it has a fraction, or all the
fractions of its second come before it. -/
theorem Clock.not_standsFor_isoZ (c : Clock) : ¬ StandsFor c.isoZ c.instant := by
  rw [standsFor_iff]
  intro h
  have hc := c.instant_eq
  by_cases hzero : c.micro = 0
  · have hle := (h c.stamp.firstFraction).mpr ?_
    · exact absurd hle (not_le.mpr (Clock.isoZ_lt_iff.mpr (.inr ⟨rfl, Nat.one_ne_zero, .inl hzero⟩)))
    · rw [hc, Clock.instant_eq, hzero]
      dsimp only [Stamp.firstFraction]
      omega
  · have hle := (h c.stamp.whole).mp c.isoZ_le_whole
    rw [hc, Clock.instant_eq] at hle
    dsimp only [Stamp.whole] at hle
    omega

/-- A whole second stands for itself where what follows it is not after a fraction, as with nothing
or an offset that is written out. -/
theorem Stamp.standsFor {t : Stamp} {tail : List Char}
    (htail : tail ≤ t.firstFraction.zTail) :
    StandsFor (String.ofList (t.secondChars ++ tail)) t.whole.instant := by
  have hinstant := Clock.instant_eq
  refine ⟨fun u hu => ?_, fun u hu => ?_, fun u hu => ?_⟩
  · rw [hinstant, hinstant] at hu ⊢
    dsimp only [Stamp.whole] at hu ⊢
    omega
  · have hlt := hu.1
    rw [hinstant, hinstant] at hlt
    dsimp only [Stamp.whole] at hlt
    rw [String.lt_iff_toList_lt, Clock.toList_isoZ, String.toList_ofList]
    exact Stamp.secondChars_append_lt.mpr (.inl (by dsimp only [Stamp.whole]; omega))
  · have hge := hu.1
    have hle := hu.2 t le_rfl
    rw [hinstant, hinstant] at hge
    dsimp only [Stamp.whole] at hge
    obtain rfl : u = t := Stamp.seconds_inj (by omega)
    rw [← not_lt, String.lt_iff_toList_lt, Clock.toList_isoZ, String.toList_ofList]
    intro hlt
    rcases Stamp.secondChars_append_lt.mp hlt with hlt | ⟨-, hlt⟩
    · exact lt_irrefl _ hlt
    · exact absurd hlt (not_lt.mpr htail)

/-! ### Reading -/

/-- What a text says: a day and a time of day, in microseconds, and how far they are ahead of UTC
if it says that. -/
structure Reading where
  local_ : Int
  offset : Option Int
deriving DecidableEq

/-- The instant of a reading; a time that is nowhere in particular is taken for UTC. -/
def Reading.instant (r : Reading) : Int := r.local_ - r.offset.getD 0

/-- The day of a week date; the first week has the first Thursday of the year. -/
def weekDay (year week day : Nat) : Option Nat :=
  let first := daysBeforeYear year + 1
  let weekday := (first + 6) % 7
  let monday := if 3 < weekday then first - weekday + 7 else first - weekday
  let weeks := if first % 7 = 4 ∨ (first % 7 = 3 ∧ isLeap year = true) then 53 else 52
  if 1 ≤ year ∧ 1 ≤ week ∧ week ≤ weeks ∧ 1 ≤ day ∧ day ≤ 7 ∧
      monday + (week - 1) * 7 + (day - 1) ≤ daysBeforeYear 10000 then
    some (monday + (week - 1) * 7 + (day - 1))
  else none

/-- The day of a calendar date. -/
def calendarDay (year month day : Nat) : Option Nat :=
  if 1 ≤ year ∧ 1 ≤ month ∧ month ≤ 12 ∧ 1 ≤ day ∧ day ≤ daysInMonth year month then
    some (daysBeforeYear year + daysBeforeMonth year month + day)
  else none

/-- A dash, where there has to be one. -/
def takeDash (dashed : Bool) (s : List Char) : Option (List Char) :=
  if dashed = true then takeChar (· = '-') s else some s

/-- `_parse_isoformat_date`: `YYYY-MM-DD` or `YYYY-Www-D`, the dashes left out or not. -/
def readDay (s : List Char) : Option Nat := do
  let (year, s) ← takeNumber 4 s
  let dashed := decide (s.head? = some '-')
  let s ← takeDash dashed s
  if s.head? = some 'W' then
    let (week, s) ← takeNumber 2 s.tail
    if s = [] then weekDay year week 1
    else
      let s ← takeDash dashed s
      let (day, s) ← takeNumber 1 s
      if s = [] then weekDay year week day else none
  else
    let (month, s) ← takeNumber 2 s
    let s ← takeDash dashed s
    let (day, s) ← takeNumber 2 s
    if s = [] then calendarDay year month day else none

/-- `_find_isoformat_datetime_separator`: where the date ends. -/
def separatorAt (s : List Char) : Option Nat :=
  if s.length < 7 then none
  else if s.length = 7 then some 7
  else if s[4]? = some '-' then
    if s[5]? = some 'W' then
      if s[8]? = some '-' then
        if s.length = 9 then none
        else if (s[10]?.any Char.isDigit) = true then some 8
        else some 10
      else some 8
    else some 10
  else if s[4]? = some 'W' then
    let digits := 7 + ((s.drop 7).takeWhile Char.isDigit).length
    if digits < 9 then some digits else if digits % 2 = 0 then some 7 else some 8
  else some 8

/-- The microseconds of a fraction, its digits cut off after the sixth. -/
def readFraction : List Char → Option Nat
  | [] => some 0
  | mark :: digits =>
    if (mark = '.' ∨ mark = ',') ∧ digits ≠ [] ∧ digits.all Char.isDigit = true then
      some (decimal ((digits ++ List.replicate 6 '0').take 6))
    else none

/-- `_parse_hh_mm_ss_ff`: hours, minutes, seconds and microseconds, with colons or without. -/
def readClock (s : List Char) : Option (Nat × Nat × Nat × Nat) := do
  let (hour, s) ← takeNumber 2 s
  if s = [] then some (hour, 0, 0, 0)
  else
    let colon := decide (s.head? = some ':')
    let s := if colon = true then s.tail else s
    let (minute, s) ← takeNumber 2 s
    if s = [] then some (hour, minute, 0, 0)
    else
      let s ← if colon = true then takeChar (· = ':') s else some s
      let (second, s) ← takeNumber 2 s
      let micro ← readFraction s
      some (hour, minute, second, micro)

/-- The offset after a sign, in microseconds; it is less than a day. -/
def readOffset (sign : Char) (s : List Char) : Option Int := do
  let (hour, minute, second, micro) ← readClock s
  let offset := micros 0 hour minute second micro
  if offset < 86400000000 then some (if sign = '-' then -offset else offset) else none

/-- `_parse_isoformat_time`: a time of day, and an offset that starts with a sign, or `Z`. -/
def readTime (s : List Char) : Option (Nat × Option Int) := do
  let isZone : Char → Bool := fun c => c = '+' || c = '-' || c = 'Z'
  let (hour, minute, second, micro) ← readClock (s.takeWhile fun c => !isZone c)
  if hour < 24 ∧ minute < 60 ∧ second < 60 then
    let time := micros 0 hour minute second micro
    match s.dropWhile fun c => !isZone c with
    | [] => some (time, none)
    | sign :: zone =>
      if sign = 'Z' then if zone = [] then some (time, some 0) else none
      else (readOffset sign zone).map fun offset => (time, some offset)
  else none

/-- `datetime.fromisoformat`; `none` is its `ValueError`. -/
def fromIsoformat (s : List Char) : Option Reading := do
  let at_ ← separatorAt s
  let day ← readDay (s.take at_)
  let start := micros day 0 0 0 0
  if s.length = at_ then some ⟨start, none⟩
  else
    let (time, offset) ← readTime (s.drop (at_ + 1))
    some ⟨start + time, offset⟩

example : (fromIsoformat "2026-W23-1T14:30:00,5+02".toList).map Reading.instant =
    (fromIsoformat "20260601 123000.500000".toList).map Reading.instant := by decide +kernel

end Lib
