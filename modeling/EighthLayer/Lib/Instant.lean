import EighthLayer.Lib.Calendar

/-!
# EighthLayer.Lib.Instant

Instants, in microseconds, and the ISO-8601 texts that stand for them: with a zone `Z` or
an offset, with or without a fraction of a second.

A text is read by `instantOf`. The texts that `datetime.isoformat` writes of UTC times are
read back (`instantOf_isoformat`) and, among themselves, are ordered as the times are
(`isoformat_lt_isoformat`); texts of other forms are not ordered in this way.
-/

namespace Lib

/-! ### Days -/

/-- The days before the first of January of a year, from that of the year 1. -/
def daysBeforeYear (y : Nat) : Nat := 365 * (y - 1) + (y - 1) / 4 - (y - 1) / 100 + (y - 1) / 400

/-- The days of a year before a month. -/
def daysBeforeMonth (y : Nat) : Nat → Nat
  | 0 | 1 => 0
  | m + 2 => daysBeforeMonth y (m + 1) + daysInMonth y (m + 1)

theorem daysBeforeMonth_succ (y m : Nat) (h : 1 ≤ m) :
    daysBeforeMonth y (m + 1) = daysBeforeMonth y m + daysInMonth y m := by
  obtain ⟨k, rfl⟩ : ∃ k, m = k + 1 := ⟨m - 1, by omega⟩
  rfl

theorem daysBeforeMonth_mono (y : Nat) {m m' : Nat} (hm : 1 ≤ m) (h : m < m') :
    daysBeforeMonth y m + daysInMonth y m ≤ daysBeforeMonth y m' := by
  induction m' with
  | zero => omega
  | succ k ih =>
      rcases Nat.lt_succ_iff_lt_or_eq.mp h with hlt | heq
      · rw [daysBeforeMonth_succ y k (by omega)]
        have hk := ih hlt
        omega
      · rw [← heq, daysBeforeMonth_succ y m hm]

theorem daysBeforeMonth_year (y : Nat) :
    daysBeforeMonth y 13 = if isLeap y then 366 else 365 := by
  cases hleap : isLeap y with
  | false => simp [daysBeforeMonth, daysInMonth, hleap]
  | true => simp [daysBeforeMonth, daysInMonth, hleap]

theorem div_step (k n : Nat) :
    (k + 1) / n = k / n + if (k + 1) % n = 0 then 1 else 0 := by
  rw [Nat.succ_div]
  simp only [Nat.dvd_iff_mod_eq_zero]

/-- After the twelfth month the year is over. -/
theorem daysBeforeYear_succ (y : Nat) (h : 1 ≤ y) :
    daysBeforeYear (y + 1) = daysBeforeYear y + daysBeforeMonth y 13 := by
  obtain ⟨k, rfl⟩ : ∃ k, y = k + 1 := ⟨y - 1, by omega⟩
  have h4 := div_step k 4
  have h100 := div_step k 100
  have h400 := div_step k 400
  have hle : k / 100 ≤ k / 4 := Nat.div_le_div_left (by decide) (by decide)
  have hmul : (k + 1) % 400 = 0 → (k + 1) % 100 = 0 := by omega
  have hmul' : (k + 1) % 100 = 0 → (k + 1) % 4 = 0 := by omega
  rw [daysBeforeMonth_year]
  unfold daysBeforeYear isLeap
  simp only [Nat.add_sub_cancel, h4, h100, h400]
  generalize k / 4 = a at *
  generalize k / 100 = b at *
  generalize k / 400 = c at *
  by_cases hfour : (k + 1) % 4 = 0
  · by_cases hhundred : (k + 1) % 100 = 0
    · by_cases hfourhundred : (k + 1) % 400 = 0
      · simp [hfour, hhundred, hfourhundred]
        omega
      · simp [hfour, hhundred, hfourhundred]
        omega
    · have hnot : (k + 1) % 400 ≠ 0 := fun h => hhundred (hmul h)
      simp [hfour, hhundred, hnot]
      omega
  · have hnot : (k + 1) % 100 ≠ 0 := fun h => hfour (hmul' h)
    have hnot' : (k + 1) % 400 ≠ 0 := fun h => hnot (hmul h)
    simp [hfour, hnot, hnot']
    omega

theorem daysBeforeYear_mono {y y' : Nat} (hy : 1 ≤ y) (h : y < y') :
    daysBeforeYear y + daysBeforeMonth y 13 ≤ daysBeforeYear y' := by
  induction y' with
  | zero => omega
  | succ k ih =>
      rcases Nat.lt_succ_iff_lt_or_eq.mp h with hlt | heq
      · rw [daysBeforeYear_succ k (by omega)]
        have hk := ih hlt
        omega
      · rw [← heq, daysBeforeYear_succ y hy]

/-- The number of a date. -/
def Date.ordinal (d : Date) : Nat := daysBeforeYear d.year + daysBeforeMonth d.year d.month + d.day

/-- The numbers of dates grow as the dates do. -/
theorem Date.ordinal_lt_of_num_lt {d e : Date} (h : d.num < e.num) : d.ordinal < e.ordinal := by
  have hd := d.day_lt
  have he := e.day_lt
  have hdle := d.day_le
  have hege := e.day_ge
  have hdm := d.month_le
  have hdm1 := d.month_ge
  have hem := e.month_le
  have hem1 := e.month_ge
  have hdy := d.year_ge
  unfold ordinal
  unfold num at h
  rcases Nat.lt_trichotomy d.year e.year with hlt | heq | hgt
  · have hyear := daysBeforeYear_mono (by omega) hlt
    have hmonth := daysBeforeMonth_mono d.year hdm1 (show d.month < 13 by omega)
    omega
  · rw [heq] at h hdle ⊢
    rcases Nat.lt_trichotomy d.month e.month with hlt | hmeq | hgt
    · have hmonth := daysBeforeMonth_mono e.year hdm1 hlt
      omega
    · rw [hmeq] at h ⊢
      omega
    · omega
  · omega

theorem Date.ordinal_lt_iff {d e : Date} : d.ordinal < e.ordinal ↔ d.num < e.num := by
  refine ⟨fun h => ?_, Date.ordinal_lt_of_num_lt⟩
  rcases Nat.lt_trichotomy d.num e.num with hlt | heq | hgt
  · exact hlt
  · rw [Date.num_injective heq] at h
    omega
  · have hback := Date.ordinal_lt_of_num_lt hgt
    omega

/-! ### Times -/

/-- A UTC time of microsecond precision. -/
structure Clock where
  stamp : Stamp
  micro : Nat
  micro_lt : micro < 1000000
deriving DecidableEq

/-- The microseconds of a day and time. -/
def micros (ordinal hour minute second micro : Nat) : Nat :=
  (((ordinal * 24 + hour) * 60 + minute) * 60 + second) * 1000000 + micro

namespace Clock

def instant (c : Clock) : Int :=
  micros c.stamp.date.ordinal c.stamp.hour c.stamp.minute c.stamp.second c.micro

/-- The fraction of a second, left out when it is zero, and the offset. -/
def tailChars (c : Clock) : List Char :=
  if c.micro = 0 then "+00:00".toList else '.' :: (digits 6 c.micro ++ "+00:00".toList)

/-- `datetime.isoformat()`, as characters. -/
def chars (c : Clock) : List Char :=
  c.stamp.date.chars ++ 'T' :: (digits 2 c.stamp.hour ++ ':' :: (digits 2 c.stamp.minute ++
    ':' :: (digits 2 c.stamp.second ++ c.tailChars)))

/-- `datetime.isoformat()`. -/
def isoformat (c : Clock) : String := String.ofList c.chars

@[simp] theorem toList_isoformat (c : Clock) : c.isoformat.toList = c.chars := String.toList_ofList

theorem tailChars_lt {c d : Clock} : c.tailChars < d.tailChars ↔ c.micro < d.micro := by
  have hc := c.micro_lt
  have hd := d.micro_lt
  have hplus : ('+' : Char) < '.' := by decide
  unfold tailChars
  by_cases hc0 : c.micro = 0
  · by_cases hd0 : d.micro = 0
    · rw [if_pos hc0, if_pos hd0, hc0, hd0]
      exact iff_of_false (List.lt_irrefl _) (lt_irrefl 0)
    · rw [if_pos hc0, if_neg hd0, hc0]
      exact iff_of_true (List.cons_lt_cons_iff.mpr (.inl hplus)) (Nat.pos_of_ne_zero hd0)
  · by_cases hd0 : d.micro = 0
    · rw [if_neg hc0, if_pos hd0, hd0]
      refine iff_of_false (fun h => ?_) (Nat.not_lt_zero _)
      rcases List.cons_lt_cons_iff.mp h with hlt | ⟨heq, -⟩
      · exact absurd hlt (lt_asymm hplus)
      · exact absurd heq (by decide)
    · rw [if_neg hc0, if_neg hd0, List.cons_lt_cons_iff, append_lt_append_iff (by simp),
        digits_lt (by omega) (by omega)]
      simp

theorem chars_lt {c d : Clock} : c.chars < d.chars ↔ c.instant < d.instant := by
  have hch := c.stamp.hour_lt
  have hcm := c.stamp.minute_lt
  have hcs := c.stamp.second_lt
  have hcu := c.micro_lt
  have hdh := d.stamp.hour_lt
  have hdm := d.stamp.minute_lt
  have hds := d.stamp.second_lt
  have hdu := d.micro_lt
  rw [chars, chars, append_lt_append_iff (by simp), List.cons_lt_cons_iff,
    append_lt_append_iff (by simp), List.cons_lt_cons_iff, append_lt_append_iff (by simp),
    List.cons_lt_cons_iff, append_lt_append_iff (by simp), tailChars_lt,
    digits_lt (by omega) (by omega), digits_inj (by omega) (by omega),
    digits_lt (by omega) (by omega), digits_inj (by omega) (by omega),
    digits_lt (by omega) (by omega), digits_inj (by omega) (by omega), Date.chars_lt,
    Date.chars_inj, ← Date.ordinal_lt_iff]
  simp only [lt_irrefl, false_or, true_and, instant, micros]
  have hdate : c.stamp.date = d.stamp.date ↔ c.stamp.date.ordinal = d.stamp.date.ordinal := by
    refine ⟨fun h => by rw [h], fun h => ?_⟩
    refine Date.num_injective (Nat.le_antisymm ?_ ?_)
    · exact Nat.le_of_not_lt fun hlt => by
        have hback := Date.ordinal_lt_of_num_lt hlt
        omega
    · exact Nat.le_of_not_lt fun hlt => by
        have hback := Date.ordinal_lt_of_num_lt hlt
        omega
  rw [hdate]
  omega

/-- **Texts order UTC times.** -/
theorem isoformat_lt_isoformat {c d : Clock} : c.isoformat < d.isoformat ↔ c.instant < d.instant := by
  rw [String.lt_iff_toList_lt, toList_isoformat, toList_isoformat, chars_lt]

end Clock

/-! ### Reading texts -/

/-- The number that a text of digits denotes. -/
def decimal (s : List Char) : Nat := s.foldl (fun v c => 10 * v + (c.toNat - 48)) 0

/-- A number of exactly `w` digits, and what follows it. -/
def takeNumber (w : Nat) (s : List Char) : Option (Nat × List Char) :=
  if (s.take w).length = w ∧ (s.take w).all Char.isDigit then
    some (decimal (s.take w), s.drop w)
  else none

/-- One of some characters, and what follows it. -/
def takeChar (p : Char → Bool) : List Char → Option (List Char)
  | [] => none
  | c :: s => if p c then some s else none

/-- The microseconds of a fraction of a second; digits from the seventh on are cut off. -/
def fraction (s : List Char) : Option (Nat × List Char) :=
  let digits := s.takeWhile Char.isDigit
  if digits = [] then none
  else some (decimal ((digits ++ List.replicate 6 '0').take 6), s.dropWhile Char.isDigit)

/-- A fraction of a second, which may be missing. -/
def takeMicros : List Char → Option (Nat × List Char)
  | '.' :: s => fraction s
  | s => some (0, s)

/-- Seconds and microseconds, which may be missing. -/
def takeSeconds : List Char → Option (Nat × Nat × List Char)
  | ':' :: s => do
      let (second, s) ← takeNumber 2 s
      let (micro, s) ← takeMicros s
      some (second, micro, s)
  | s => some (0, 0, s)

/-- The offset of a zone, in minutes. -/
def zoneMinutes : List Char → Option Int
  | ['Z'] => some 0
  | ['z'] => some 0
  | sign :: s => do
      let (hour, s) ← takeNumber 2 s
      let s ← takeChar (· = ':') s
      let (minute, s) ← takeNumber 2 s
      if s = [] ∧ hour < 24 ∧ minute < 60 then
        if sign = '+' then some (hour * 60 + minute : Nat)
        else if sign = '-' then some (-(hour * 60 + minute : Nat))
        else none
      else none
  | [] => none

/-- A date, by its number, and what follows it. -/
def takeDate (s : List Char) : Option (Nat × List Char) := do
  let (year, s) ← takeNumber 4 s
  let s ← takeChar (· = '-') s
  let (month, s) ← takeNumber 2 s
  let s ← takeChar (· = '-') s
  let (day, s) ← takeNumber 2 s
  if 1 ≤ year ∧ 1 ≤ month ∧ month ≤ 12 ∧ 1 ≤ day ∧ day ≤ daysInMonth year month then
    some (daysBeforeYear year + daysBeforeMonth year month + day, s)
  else none

/-- A time of the day with the given number, in microseconds, and what follows it. -/
def takeTime (ordinal : Nat) (s : List Char) : Option (Nat × List Char) := do
  let (hour, s) ← takeNumber 2 s
  let s ← takeChar (· = ':') s
  let (minute, s) ← takeNumber 2 s
  let (second, micro, s) ← takeSeconds s
  if hour < 24 ∧ minute < 60 ∧ second < 60 then
    some (micros ordinal hour minute second micro, s)
  else none

/-- The instant that an ISO-8601 date and time with a zone denotes. -/
def instantOfChars (s : List Char) : Option Int := do
  let (ordinal, s) ← takeDate s
  let s ← takeChar (fun c => c = 'T' || c = 't' || c = ' ') s
  let (time, s) ← takeTime ordinal s
  let offset ← zoneMinutes s
  some (time - offset * 60000000)

/-- The instant that a text denotes. -/
def instantOf (s : String) : Option Int := instantOfChars s.toList

theorem decimal_digits : ∀ {w n : Nat}, n < 10 ^ w → decimal (digits w n) = n
  | 0, n, h => by
      have hn : n = 0 := by simpa using h
      rw [hn]
      rfl
  | w + 1, n, h => by
      have hhigh : decimal (digits w (n / 10)) = n / 10 := decimal_digits (by
        rw [Nat.pow_succ] at h
        exact Nat.div_lt_of_lt_mul (by omega))
      have hdigit : ∀ d < 10, (digit d).toNat - 48 = d := by decide
      unfold decimal at hhigh ⊢
      rw [digits, List.foldl_append, hhigh, List.foldl_cons, List.foldl_nil,
        hdigit _ (Nat.mod_lt _ (by decide))]
      omega

theorem isDigit_digits : ∀ w n : Nat, (digits w n).all Char.isDigit = true
  | 0, _ => rfl
  | w + 1, n => by
      have hdigit : ∀ d < 10, (digit d).isDigit = true := by decide
      rw [digits, List.all_append, isDigit_digits w, List.all_cons, List.all_nil,
        hdigit _ (Nat.mod_lt _ (by decide))]
      rfl

@[simp] theorem takeNumber_digits {w n : Nat} (h : n < 10 ^ w) (s : List Char) :
    takeNumber w (digits w n ++ s) = some (n, s) := by
  have htake : (digits w n ++ s).take w = digits w n := by
    rw [List.take_append_of_le_length (by simp), List.take_of_length_le (by simp)]
  have hdrop : (digits w n ++ s).drop w = s := by
    rw [List.drop_append_of_le_length (by simp), List.drop_of_length_le (by simp)]
    rfl
  unfold takeNumber
  rw [htake, hdrop, if_pos ⟨digits_length w n, isDigit_digits w n⟩, decimal_digits h]

theorem takeMicros_tail (c : Clock) : takeMicros c.tailChars = some (c.micro, "+00:00".toList) := by
  have hmicro := c.micro_lt
  have hplus : ('+' : Char).isDigit = false := by decide
  unfold Clock.tailChars
  by_cases hzero : c.micro = 0
  · rw [if_pos hzero, hzero]
    rfl
  · rw [if_neg hzero]
    have htake : (digits 6 c.micro ++ "+00:00".toList).takeWhile Char.isDigit = digits 6 c.micro := by
      rw [List.takeWhile_append_of_pos (List.all_eq_true.mp (isDigit_digits 6 c.micro))]
      show digits 6 c.micro ++ List.takeWhile Char.isDigit ('+' :: _) = _
      rw [List.takeWhile_cons_of_neg (by simp [hplus]), List.append_nil]
    have hdrop : (digits 6 c.micro ++ "+00:00".toList).dropWhile Char.isDigit =
        "+00:00".toList := by
      rw [List.dropWhile_append_of_pos (List.all_eq_true.mp (isDigit_digits 6 c.micro))]
      rfl
    have hne : digits 6 c.micro ≠ [] := by
      intro hnil
      have hlength := digits_length 6 c.micro
      rw [hnil] at hlength
      cases hlength
    show fraction (digits 6 c.micro ++ "+00:00".toList) = _
    unfold fraction
    dsimp only
    rw [htake, hdrop, if_neg hne, List.take_append_of_le_length (by simp),
      List.take_of_length_le (by simp), decimal_digits (by omega)]

/-- A date that was written is read back. -/
theorem takeDate_chars (d : Date) (s : List Char) :
    takeDate (d.chars ++ s) = some (d.ordinal, s) := by
  have hy := d.year_le
  have hy1 := d.year_ge
  have hm := d.month_le
  have hd := d.day_lt
  have hvalid : 1 ≤ d.year ∧ 1 ≤ d.month ∧ d.month ≤ 12 ∧ 1 ≤ d.day ∧
      d.day ≤ daysInMonth d.year d.month :=
    ⟨by omega, d.month_ge, hm, d.day_ge, d.day_le⟩
  unfold takeDate Date.chars
  rw [List.append_assoc, takeNumber_digits (by omega)]
  show (takeNumber 2 ((digits 2 d.month ++ '-' :: digits 2 d.day) ++ s)).bind _ = _
  rw [List.append_assoc, takeNumber_digits (by omega)]
  show (takeNumber 2 (digits 2 d.day ++ s)).bind _ = _
  rw [takeNumber_digits (by omega)]
  exact if_pos hvalid

/-- A time that was written is read back. -/
theorem takeTime_chars (c : Clock) :
    takeTime c.stamp.date.ordinal (digits 2 c.stamp.hour ++ ':' :: (digits 2 c.stamp.minute ++
      ':' :: (digits 2 c.stamp.second ++ c.tailChars))) =
      some (micros c.stamp.date.ordinal c.stamp.hour c.stamp.minute c.stamp.second c.micro,
        "+00:00".toList) := by
  have hh := c.stamp.hour_lt
  have hm := c.stamp.minute_lt
  have hs := c.stamp.second_lt
  unfold takeTime
  rw [takeNumber_digits (by omega)]
  show (takeNumber 2 (digits 2 c.stamp.minute ++ _)).bind _ = _
  rw [takeNumber_digits (by omega)]
  show ((takeNumber 2 (digits 2 c.stamp.second ++ c.tailChars)).bind fun p =>
    (takeMicros p.2).bind fun q => some (p.1, q.1, q.2)).bind _ = _
  rw [takeNumber_digits (by omega)]
  show ((takeMicros c.tailChars).bind fun q => some (c.stamp.second, q.1, q.2)).bind _ = _
  rw [takeMicros_tail]
  exact if_pos ⟨hh, hm, hs⟩

/-- **Round trip.** What `isoformat` writes of a time denotes its instant. -/
theorem instantOf_isoformat (c : Clock) : instantOf c.isoformat = some c.instant := by
  have hzone : zoneMinutes "+00:00".toList = some 0 := by decide
  rw [instantOf, Clock.toList_isoformat, Clock.chars, instantOfChars, takeDate_chars]
  show (takeTime c.stamp.date.ordinal _).bind
    (fun p => (zoneMinutes p.2).bind fun offset => some ((p.1 : Int) - offset * 60000000)) = _
  rw [takeTime_chars, Option.bind_some, hzone, Option.bind_some, zero_mul, sub_zero]
  rfl

end Lib
