import EighthLayer.Lib.Positional
import Mathlib.Data.String.Basic
import Mathlib.Tactic.IntervalCases

/-!
# EighthLayer.Lib.Calendar

UTC dates and timestamps of second precision, and their fixed-width ISO texts
`YYYY-MM-DD` and `YYYY-MM-DDTHH:MM:SSZ`.

Programs that keep such texts in a database compare them as strings. Within
years of four digits this is sound: the text is an order embedding
(`Stamp.iso_lt_iso`), and the window of a day, given by the two texts that start
and end it, holds exactly the timestamps of that day (`Stamp.inWindow_iff`).
-/

namespace Lib

/-! ### Lexicographic order of texts -/

/-- What lies between two texts that share a prefix has that prefix. -/
theorem prefix_of_between : ∀ {p s x y : List Char},
    ¬ s < p ++ x → ¬ p ++ y < s → ∃ t, s = p ++ t
  | [], s, _, _, _, _ => ⟨s, rfl⟩
  | c :: p, [], x, y, hlo, _ => absurd (List.nil_lt_cons c (p ++ x)) hlo
  | c :: p, d :: s, x, y, hlo, hhi => by
      simp only [List.cons_append, List.cons_lt_cons_iff, not_or, not_and] at hlo hhi
      have hdc : d = c := le_antisymm (not_lt.mp hhi.1) (not_lt.mp hlo.1)
      obtain ⟨t, rfl⟩ := prefix_of_between (hlo.2 hdc) (hhi.2 hdc.symm)
      exact ⟨t, by rw [hdc]; rfl⟩

/-! ### Fixed-width decimals -/

/-- The digit of `d < 10`. -/
def digit (d : Nat) : Char := Char.ofNat (48 + d)

theorem digit_lt_digit : ∀ d < 10, ∀ e < 10, (digit d < digit e ↔ d < e) := by decide

theorem digit_inj : ∀ d < 10, ∀ e < 10, (digit d = digit e ↔ d = e) := by decide

/-- The last `w` decimal digits of `n`. -/
def digits : (w n : Nat) → List Char
  | 0, _ => []
  | w + 1, n => digits w (n / 10) ++ [digit (n % 10)]

@[simp] theorem digits_length : ∀ w n : Nat, (digits w n).length = w
  | 0, _ => rfl
  | w + 1, n => by rw [digits, List.length_append, digits_length w]; rfl

/-- Only digits stand in a fixed-width decimal. -/
theorem not_mem_digits {c : Char} (h : ∀ d < 10, digit d ≠ c) : ∀ w n : Nat, c ∉ digits w n
  | 0, _ => List.not_mem_nil
  | w + 1, n => by
      rw [digits, List.mem_append, List.mem_singleton]
      rintro (hmem | rfl)
      · exact not_mem_digits h w (n / 10) hmem
      · exact h (n % 10) (by omega) rfl

theorem digits_eq_places (w n : Nat) : digits w n = places 10 digit w n := by
  induction w generalizing n with
  | zero => rfl
  | succ w ih => rw [digits, places, ih]

theorem digits_inj {w a b : Nat} (ha : a < 10 ^ w) (hb : b < 10 ^ w) :
    digits w a = digits w b ↔ a = b := by
  rw [digits_eq_places, digits_eq_places]
  exact places_inj digit_inj ha hb

/-- Numbers of one width compare as their texts do. -/
theorem digits_lt {w a b : Nat} (ha : a < 10 ^ w) (hb : b < 10 ^ w) :
    digits w a < digits w b ↔ a < b := by
  rw [digits_eq_places, digits_eq_places]
  exact places_lt_iff digit_lt_digit ha hb

/-! ### Dates -/

/-- The Gregorian leap years. -/
def isLeap (y : Nat) : Bool := y % 4 = 0 && (y % 100 ≠ 0 || y % 400 = 0)

/-- The number of days of a month. -/
def daysInMonth (y m : Nat) : Nat :=
  if m = 2 then (if isLeap y then 29 else 28)
  else if m = 4 ∨ m = 6 ∨ m = 9 ∨ m = 11 then 30 else 31

theorem daysInMonth_pos (y m : Nat) : 1 ≤ daysInMonth y m := by
  unfold daysInMonth
  split_ifs <;> omega

theorem daysInMonth_le (y m : Nat) : daysInMonth y m ≤ 31 := by
  unfold daysInMonth
  split_ifs <;> omega

/-- A calendar date of a four-digit year. -/
structure Date where
  year : Nat
  month : Nat
  day : Nat
  year_ge : 1000 ≤ year
  year_le : year ≤ 9999
  month_ge : 1 ≤ month
  month_le : month ≤ 12
  day_ge : 1 ≤ day
  day_le : day ≤ daysInMonth year month
deriving DecidableEq

namespace Date

/-- The date as one number, which orders dates by time. -/
def num (d : Date) : Nat := d.year * 10000 + d.month * 100 + d.day

theorem day_lt (d : Date) : d.day < 100 := by
  have := d.day_le
  have := daysInMonth_le d.year d.month
  omega

theorem num_injective {d e : Date} (h : d.num = e.num) : d = e := by
  have hd := d.day_lt
  have he := e.day_lt
  have hdm := d.month_le
  have hem := e.month_le
  unfold num at h
  cases d
  cases e
  simp only [Date.mk.injEq] at *
  omega

/-- The day before, within four-digit years. -/
def pred (d : Date) : Option Date :=
  if _h : 1 < d.day then
    some { d with day := d.day - 1, day_ge := by omega, day_le := by have := d.day_le; omega }
  else if _h : 1 < d.month then
    some { d with
      month := d.month - 1, day := daysInMonth d.year (d.month - 1)
      month_ge := by omega, month_le := by have := d.month_le; omega
      day_ge := daysInMonth_pos _ _, day_le := Nat.le_refl _ }
  else if _h : 1000 < d.year then
    some { year := d.year - 1, month := 12, day := 31
           year_ge := by omega, year_le := by have := d.year_le; omega
           month_ge := by decide, month_le := by decide, day_ge := by decide
           day_le := by simp [daysInMonth] }
  else none

/-- The day before is earlier. -/
theorem pred_lt {d p : Date} (h : d.pred = some p) : p.num < d.num := by
  have hdl := d.day_lt
  unfold pred at h
  split at h
  · cases h
    simp only [num]
    omega
  · split at h
    · cases h
      have hdays := daysInMonth_le d.year (d.month - 1)
      simp only [num]
      omega
    · split at h
      · cases h
        have := d.month_ge
        simp only [num]
        omega
      · cases h

/-- `YYYY-MM-DD`, as characters. -/
def chars (d : Date) : List Char :=
  digits 4 d.year ++ ('-' :: (digits 2 d.month ++ ('-' :: digits 2 d.day)))

/-- `date.isoformat()`. -/
def iso (d : Date) : String := String.ofList d.chars

@[simp] theorem toList_iso (d : Date) : d.iso.toList = d.chars := String.toList_ofList

@[simp] theorem chars_length (d : Date) : d.chars.length = 10 := by simp [chars]

theorem chars_inj {d e : Date} : d.chars = e.chars ↔ d = e := by
  refine ⟨fun h => ?_, fun h => by rw [h]⟩
  have hd := d.day_lt
  have he := e.day_lt
  obtain ⟨hy, hrest⟩ := List.append_inj h (by simp)
  obtain ⟨hm, hrest⟩ := List.append_inj (List.cons.inj hrest).2 (by simp)
  have hyear := (digits_inj (by have := d.year_le; omega) (by have := e.year_le; omega)).mp hy
  have hmonth := (digits_inj (by have := d.month_le; omega) (by have := e.month_le; omega)).mp hm
  have hday := (digits_inj (by omega) (by omega)).mp (List.cons.inj hrest).2
  exact num_injective (by rw [num, num, hyear, hmonth, hday])

theorem chars_lt {d e : Date} : d.chars < e.chars ↔ d.num < e.num := by
  have hd := d.day_lt
  have he := e.day_lt
  have hdm := d.month_le
  have hem := e.month_le
  have hdy := d.year_le
  have hey := e.year_le
  rw [chars, chars, append_lt_append_iff (by simp), List.cons_lt_cons_iff,
    append_lt_append_iff (by simp), List.cons_lt_cons_iff,
    digits_lt (by omega) (by omega), digits_inj (by omega) (by omega),
    digits_lt (by omega) (by omega), digits_inj (by omega) (by omega),
    digits_lt (by omega) (by omega)]
  simp only [lt_irrefl, false_or, true_and, num]
  omega

end Date

/-! ### Timestamps -/

/-- A UTC timestamp of second precision. -/
structure Stamp where
  date : Date
  hour : Nat
  minute : Nat
  second : Nat
  hour_lt : hour < 24
  minute_lt : minute < 60
  second_lt : second < 60
deriving DecidableEq

namespace Stamp

/-- The timestamp as one number, which orders timestamps by time. -/
def num (s : Stamp) : Nat := s.date.num * 1000000 + s.hour * 10000 + s.minute * 100 + s.second

/-- `HH:MM:SSZ`, as characters. -/
def timeChars (s : Stamp) : List Char :=
  digits 2 s.hour ++ (':' :: (digits 2 s.minute ++ (':' :: (digits 2 s.second ++ ['Z']))))

/-- `strftime("%Y-%m-%dT%H:%M:%SZ")`, as characters. -/
def chars (s : Stamp) : List Char := s.date.chars ++ 'T' :: s.timeChars

/-- `strftime("%Y-%m-%dT%H:%M:%SZ")`. -/
def iso (s : Stamp) : String := String.ofList s.chars

@[simp] theorem toList_iso (s : Stamp) : s.iso.toList = s.chars := String.toList_ofList

/-- The texts of timestamps compare as the timestamps do. -/
theorem chars_lt {s t : Stamp} : s.chars < t.chars ↔ s.num < t.num := by
  have hsh := s.hour_lt
  have hsm := s.minute_lt
  have hss := s.second_lt
  have hth := t.hour_lt
  have htm := t.minute_lt
  have hts := t.second_lt
  rw [chars, chars, append_lt_append_iff (by simp), List.cons_lt_cons_iff, timeChars, timeChars,
    append_lt_append_iff (by simp), List.cons_lt_cons_iff,
    append_lt_append_iff (by simp), List.cons_lt_cons_iff, append_lt_append_iff (by simp),
    digits_lt (by omega) (by omega), digits_inj (by omega) (by omega),
    digits_lt (by omega) (by omega), digits_inj (by omega) (by omega),
    digits_lt (by omega) (by omega), Date.chars_lt, Date.chars_inj]
  simp only [lt_irrefl, false_or, true_and, and_false, or_false, num]
  constructor
  · rintro (h | ⟨h, h'⟩)
    · omega
    · rw [h]
      omega
  · intro h
    rcases Nat.lt_trichotomy s.date.num t.date.num with hlt | heq | hgt
    · exact Or.inl hlt
    · exact Or.inr ⟨Date.num_injective heq, by rw [heq] at h; omega⟩
    · omega

/-- **Texts order timestamps.** -/
theorem iso_lt_iso {s t : Stamp} : s.iso < t.iso ↔ s.num < t.num := by
  rw [String.lt_iff_toList_lt, toList_iso, toList_iso, chars_lt]

theorem iso_le_iso {s t : Stamp} : s.iso ≤ t.iso ↔ s.num ≤ t.num := by
  rw [← not_lt, iso_lt_iso, not_lt]

/-! ### The window of a day -/

/-- The text `day` followed by the first second of a day. -/
def dayStart (day : String) : String := day ++ "T00:00:00Z"

/-- The text `day` followed by the last second of a day. -/
def dayEnd (day : String) : String := day ++ "T23:59:59Z"

/-- The last second of a date, as a timestamp. -/
def endOf (d : Date) : Stamp := ⟨d, 23, 59, 59, by decide, by decide, by decide⟩

/-- The first second of a date, as a timestamp. -/
def startOf (d : Date) : Stamp := ⟨d, 0, 0, 0, by decide, by decide, by decide⟩

theorem dayEnd_iso (d : Date) : dayEnd d.iso = (endOf d).iso := by
  apply String.toList_injective
  have htime : "T23:59:59Z".toList = 'T' :: (endOf d).timeChars := by
    have hclosed : "T23:59:59Z".toList =
        'T' :: (digits 2 23 ++ (':' :: (digits 2 59 ++ (':' :: (digits 2 59 ++ ['Z']))))) := by
      decide
    exact hclosed
  rw [dayEnd, String.toList_append, Date.toList_iso, toList_iso, chars, htime]
  rfl

theorem dayStart_iso (d : Date) : dayStart d.iso = (startOf d).iso := by
  apply String.toList_injective
  have htime : "T00:00:00Z".toList = 'T' :: (startOf d).timeChars := by
    have hclosed : "T00:00:00Z".toList =
        'T' :: (digits 2 0 ++ (':' :: (digits 2 0 ++ (':' :: (digits 2 0 ++ ['Z']))))) := by
      decide
    exact hclosed
  rw [dayStart, String.toList_append, Date.toList_iso, toList_iso, chars, htime]
  rfl

/-- The only `T` of a timestamp's text stands after the ten characters of its date. -/
theorem date_of_prefix {s : Stamp} {p t : List Char} (h : s.chars = p ++ 'T' :: t) :
    s.date.chars = p := by
  have hnot : ∀ w n : Nat, 'T' ∉ digits w n := not_mem_digits (by decide)
  have hdate : 'T' ∉ s.date.chars := by simp [Date.chars, hnot]
  have htime : 'T' ∉ s.timeChars := by simp [timeChars, hnot]
  rcases List.append_eq_append_iff.mp h with ⟨a, hp, ha⟩ | ⟨a, hd, ha⟩
  · cases a with
    | nil => rw [hp, List.append_nil]
    | cons c a =>
        rw [List.cons_append, List.cons.injEq] at ha
        exact absurd (by rw [ha.2]; simp) htime
  · cases a with
    | nil => rw [hd, List.append_nil]
    | cons c a =>
        rw [List.cons_append, List.cons.injEq] at ha
        exact absurd (by rw [hd, ← ha.1]; simp) hdate

/-- **The window of a day.** Whatever text `day` is, the timestamps between its
start and end texts are the ones whose date reads `day`. -/
theorem inWindow_iff (s : Stamp) (day : String) :
    (dayStart day ≤ s.iso ∧ s.iso ≤ dayEnd day) ↔ s.date.iso = day := by
  constructor
  · rintro ⟨hlo, hhi⟩
    have hstart : "T00:00:00Z".toList = ['T'] ++ "00:00:00Z".toList := by decide
    have hend : "T23:59:59Z".toList = ['T'] ++ "23:59:59Z".toList := by decide
    rw [← not_lt, String.lt_iff_toList_lt] at hlo hhi
    rw [dayStart, String.toList_append, toList_iso, hstart, ← List.append_assoc] at hlo
    rw [dayEnd, String.toList_append, toList_iso, hend, ← List.append_assoc] at hhi
    obtain ⟨t, ht⟩ := prefix_of_between hlo hhi
    rw [List.append_assoc] at ht
    apply String.toList_injective
    rw [Date.toList_iso, date_of_prefix ht]
  · rintro rfl
    have hh := s.hour_lt
    have hm := s.minute_lt
    have hs := s.second_lt
    rw [dayStart_iso, dayEnd_iso, iso_le_iso, iso_le_iso]
    simp only [num, startOf, endOf]
    omega

end Stamp

/-! ### Bounds of some times

They have names so that times which are written out do not each bring proofs of their own. -/

namespace Written

theorem year_ge : 1000 ≤ 2026 := by decide
theorem year_le : 2026 ≤ 9999 := by decide
theorem may_ge : 1 ≤ 5 := by decide
theorem may_le : 5 ≤ 12 := by decide
theorem june_ge : 1 ≤ 6 := by decide
theorem june_le : 6 ≤ 12 := by decide
theorem july_ge : 1 ≤ 7 := by decide
theorem july_le : 7 ≤ 12 := by decide
theorem first_ge : 1 ≤ 1 := by decide
theorem second_ge : 1 ≤ 2 := by decide
theorem may_first_le : 1 ≤ daysInMonth 2026 5 := by decide
theorem may_second_le : 2 ≤ daysInMonth 2026 5 := by decide
theorem june_first_le : 1 ≤ daysInMonth 2026 6 := by decide
theorem july_first_le : 1 ≤ daysInMonth 2026 7 := by decide
theorem hour_zero : 0 < 24 := by decide
theorem hour_one : 1 < 24 := by decide
theorem hour_two : 2 < 24 := by decide
theorem hour_nine : 9 < 24 := by decide
theorem hour_twelve : 12 < 24 := by decide
theorem hour_thirteen : 13 < 24 := by decide
theorem sixtieth_zero : 0 < 60 := by decide
theorem sixtieth_thirty : 30 < 60 := by decide
theorem micro_zero : 0 < 1000000 := by decide
theorem micro_half : 500000 < 1000000 := by decide
theorem nano_zero : 0 < 1000000000 := by decide
theorem nano_quarter : 250000000 < 1000000000 := by decide
theorem zone_zero : (0 : Int).natAbs < 1440 := by decide

end Written

end Lib
