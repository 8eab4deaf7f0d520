import EighthLayer.Lib.IsoText
import Mathlib.Data.Nat.Find
import Mathlib.Tactic.Ring

/-!
# EighthLayer.Lib.Shift

Adding a length of time to a time, and how many whole seconds a length of time has when it is
divided in floating point.
-/

namespace Lib

/-! ### Dates by number -/

/-- The year that a numbered day is in. -/
def yearOf (n : Nat) : Nat := Nat.findGreatest (fun y => daysBeforeYear y < n) (n / 365 + 1)

/-- The month of a year that its days up to `rest` end in. -/
def monthOf (y rest : Nat) : Nat := Nat.findGreatest (fun m => daysBeforeMonth y m < rest) 12

/-- `date(y, m, d)`. -/
def Date.ofParts (y m d : Nat) : Option Date :=
  if h : (1 ≤ d ∧ d ≤ daysInMonth y m) ∧ (1 ≤ m ∧ m ≤ 12) ∧ 1000 ≤ y ∧ y ≤ 9999 then
    some ⟨y, m, d, h.2.2.1, h.2.2.2, h.2.1.1, h.2.1.2, h.1.1, h.1.2⟩
  else none

theorem Date.ofParts_self (d : Date) : Date.ofParts d.year d.month d.day = some d :=
  dif_pos ⟨⟨d.day_ge, d.day_le⟩, ⟨d.month_ge, d.month_le⟩, d.year_ge, d.year_le⟩

/-- The date with a number: `date.fromordinal`. -/
def Date.ofOrdinal (n : Nat) : Option Date :=
  let y := yearOf n
  let m := monthOf y (n - daysBeforeYear y)
  Date.ofParts y m (n - daysBeforeYear y - daysBeforeMonth y m)

theorem Date.ordinal_ofOrdinal {n : Nat} {d : Date} (h : Date.ofOrdinal n = some d) :
    d.ordinal = n := by
  unfold ofOrdinal ofParts at h
  dsimp only at h
  split at h
  · obtain rfl := Option.some.inj h
    unfold ordinal
    dsimp only
    omega
  · cases h

theorem daysBeforeYear_le (y : Nat) : 365 * (y - 1) ≤ daysBeforeYear y := by
  unfold daysBeforeYear
  have : (y - 1) / 100 ≤ (y - 1) / 4 := Nat.div_le_div_left (by decide) (by decide)
  omega

theorem Date.yearOf_ordinal (d : Date) : yearOf d.ordinal = d.year := by
  have hday := d.day_le
  have hmonth := daysBeforeMonth_mono d.year d.month_ge (show d.month < 13 by have := d.month_le; omega)
  refine Nat.findGreatest_eq_iff.mpr ⟨?_, fun _ => ?_, fun y hlt _ => not_lt.mpr ?_⟩
  · have hle := daysBeforeYear_le d.year
    unfold ordinal
    omega
  · have hge := d.day_ge
    unfold ordinal
    omega
  · have hyear := daysBeforeYear_mono (by have := d.year_ge; omega) hlt
    unfold ordinal
    omega

theorem Date.monthOf_ordinal (d : Date) :
    monthOf d.year (d.ordinal - daysBeforeYear d.year) = d.month := by
  have hrest : d.ordinal - daysBeforeYear d.year = daysBeforeMonth d.year d.month + d.day := by
    unfold ordinal
    omega
  rw [hrest]
  refine Nat.findGreatest_eq_iff.mpr ⟨d.month_le, fun _ => ?_, fun m hlt _ => not_lt.mpr ?_⟩
  · have hge := d.day_ge
    omega
  · have hday := d.day_le
    have hmonth := daysBeforeMonth_mono d.year d.month_ge hlt
    omega

/-- Every date is that of its number. -/
theorem Date.ofOrdinal_ordinal (d : Date) : Date.ofOrdinal d.ordinal = some d := by
  have hday : d.ordinal - daysBeforeYear d.year - daysBeforeMonth d.year d.month = d.day := by
    unfold ordinal
    omega
  unfold ofOrdinal
  dsimp only
  rw [yearOf_ordinal, monthOf_ordinal, hday, ofParts_self]

/-! ### Times by instant -/

/-- The time of an instant. -/
def Clock.ofInstant (t : Int) : Option Clock :=
  if t < 0 then none
  else
    let n := t.toNat
    let second := n / 1000000
    (Date.ofOrdinal (second / 86400)).map fun date =>
      ⟨⟨date, second / 3600 % 24, second / 60 % 60, second % 60, Nat.mod_lt _ (by decide),
        Nat.mod_lt _ (by decide), Nat.mod_lt _ (by decide)⟩, n % 1000000, Nat.mod_lt _ (by decide)⟩

theorem Clock.instant_ofInstant {t : Int} {c : Clock} (h : Clock.ofInstant t = some c) :
    c.instant = t := by
  unfold ofInstant at h
  split at h
  · cases h
  · obtain ⟨date, hdate, rfl⟩ := Option.map_eq_some_iff.mp h
    have hordinal := Date.ordinal_ofOrdinal hdate
    unfold instant micros
    dsimp only
    rw [hordinal]
    omega

theorem Clock.instant_injective {c d : Clock} (h : c.instant = d.instant) : c = d := by
  have hc := c.micro_lt
  have hd := d.micro_lt
  rw [instant_eq, instant_eq] at h
  obtain ⟨stamp, micro, hu⟩ := c
  obtain ⟨stamp', micro', hu'⟩ := d
  obtain rfl : stamp = stamp' := Stamp.seconds_inj (by dsimp only at *; omega)
  obtain rfl : micro = micro' := by dsimp only at *; omega
  rfl

/-- Every time is that of its instant. -/
theorem Clock.ofInstant_instant (c : Clock) : Clock.ofInstant c.instant = some c := by
  have hh := c.stamp.hour_lt
  have hm := c.stamp.minute_lt
  have hs := c.stamp.second_lt
  have hu := c.micro_lt
  have hday : c.instant.toNat / 1000000 / 86400 = c.stamp.date.ordinal := by
    unfold instant micros
    omega
  have hsome : (Clock.ofInstant c.instant).isSome = true := by
    unfold ofInstant
    rw [if_neg (by unfold instant; omega)]
    dsimp only
    rw [hday, Date.ofOrdinal_ordinal]
    rfl
  obtain ⟨d, hd⟩ := Option.isSome_iff_exists.mp hsome
  rw [hd, instant_injective (instant_ofInstant hd)]

/-- `dt + timedelta(…)`, in microseconds; none is its `OverflowError`. -/
def Clock.shift (c : Clock) (by_ : Int) : Option Clock := Clock.ofInstant (c.instant + by_)

theorem Clock.instant_shift {c d : Clock} {by_ : Int} (h : c.shift by_ = some d) :
    d.instant = c.instant + by_ := instant_ofInstant h

theorem Clock.shift_eq_some_iff {c d : Clock} {by_ : Int} :
    c.shift by_ = some d ↔ d.instant = c.instant + by_ := by
  refine ⟨instant_shift, fun h => ?_⟩
  rw [shift, ← h, ofInstant_instant]

-- the sum is never to be computed by unfolding, where a window is a literal
attribute [irreducible] Clock.shift

/-! ### Times in between -/

/-- A date that is not the last one has a next one. -/
theorem Date.exists_succ {d e : Date} (h : d.ordinal < e.ordinal) :
    ∃ f : Date, f.ordinal = d.ordinal + 1 := by
  have hday := d.day_le
  have hday1 := d.day_ge
  have hmonth := d.month_le
  have hmonth1 := d.month_ge
  rcases Nat.lt_or_eq_of_le hday with hlt | hlast
  · refine ⟨⟨d.year, d.month, d.day + 1, d.year_ge, d.year_le, d.month_ge, d.month_le, by omega,
      hlt⟩, ?_⟩
    unfold ordinal
    dsimp only
    omega
  · rcases Nat.lt_or_eq_of_le hmonth with hlt | hdec
    · refine ⟨⟨d.year, d.month + 1, 1, d.year_ge, d.year_le, by omega, hlt, le_rfl,
        daysInMonth_pos _ _⟩, ?_⟩
      unfold ordinal
      dsimp only
      rw [daysBeforeMonth_succ _ _ d.month_ge]
      omega
    · by_cases hyear : d.year = 9999
      · -- the last day of all
        have hnum := ordinal_lt_iff.mp h
        have he := e.year_le
        have hem := e.month_le
        have hed := e.day_le
        have hdays := daysInMonth_le e.year e.month
        have hdec31 : daysInMonth d.year d.month = 31 := by
          rw [hdec]
          rfl
        unfold num at hnum
        omega
      · have hle := d.year_le
        have hge := d.year_ge
        refine ⟨⟨d.year + 1, 1, 1, by omega, by omega, le_rfl, by decide, le_rfl,
          daysInMonth_pos _ _⟩, ?_⟩
        have hnext := daysBeforeYear_succ d.year (by omega)
        have hdecember : daysBeforeMonth d.year 13 =
            daysBeforeMonth d.year 12 + daysInMonth d.year 12 :=
          daysBeforeMonth_succ d.year 12 (by decide)
        have hjanuary : daysBeforeMonth (d.year + 1) 1 = 0 := rfl
        rw [hdec] at hlast
        unfold ordinal
        dsimp only
        rw [hdec]
        omega

theorem Date.exists_of_between {a b : Date} {n : Nat} (ha : a.ordinal ≤ n) (hb : n ≤ b.ordinal) :
    ∃ d : Date, d.ordinal = n := by
  induction n with
  | zero => exact ⟨a, Nat.le_zero.mp ha⟩
  | succ n ih =>
      rcases Nat.lt_or_eq_of_le ha with hlt | heq
      · obtain ⟨d, rfl⟩ := ih (by omega) (by omega)
        exact exists_succ (d := d) hb
      · exact ⟨a, heq⟩

/-- What lies between two times is one. -/
theorem Clock.exists_of_between {a b : Clock} {t : Int} (ha : a.instant ≤ t) (hb : t ≤ b.instant) :
    ∃ c : Clock, c.instant = t := by
  have hah := a.stamp.hour_lt
  have ham := a.stamp.minute_lt
  have has := a.stamp.second_lt
  have hbh := b.stamp.hour_lt
  have hbm := b.stamp.minute_lt
  have hbs := b.stamp.second_lt
  have hau := a.micro_lt
  have hbu := b.micro_lt
  unfold instant micros at ha hb
  obtain ⟨date, hdate⟩ : ∃ d : Date, d.ordinal = t.toNat / 1000000 / 86400 :=
    Date.exists_of_between (a := a.stamp.date) (b := b.stamp.date) (by omega) (by omega)
  refine ⟨⟨⟨date, t.toNat / 1000000 / 3600 % 24, t.toNat / 1000000 / 60 % 60,
    t.toNat / 1000000 % 60, Nat.mod_lt _ (by decide), Nat.mod_lt _ (by decide),
    Nat.mod_lt _ (by decide)⟩, t.toNat % 1000000, Nat.mod_lt _ (by decide)⟩, ?_⟩
  unfold instant micros
  dsimp only
  rw [hdate]
  omega

/-! ### Whole seconds

`timedelta.total_seconds` divides in floating point, and `int` cuts the fraction off. Over very long
times the quotient is rounded to a whole second before that. -/

/-- The whole number nearest to a quotient, and the even one of two. -/
def nearestEven (a b : Nat) : Nat :=
  if 2 * (a % b) < b ∨ (2 * (a % b) = b ∧ a / b % 2 = 0) then a / b else a / b + 1

/-- `int(delta.total_seconds())` of some microseconds: the quotient has 53 bits, of which the
fraction has those that the whole seconds leave. -/
def wholeSeconds (n : Nat) : Nat :=
  let bits := 52 - (n / 1000000).log2
  nearestEven (n * 2 ^ bits) 1000000 / 2 ^ bits

theorem nearestEven_ge (a b : Nat) : a / b ≤ nearestEven a b := by
  unfold nearestEven
  split
  · exact le_rfl
  · exact Nat.le_succ _

/-- What is rounded up to a whole number is at least half way there. -/
theorem nearestEven_le {a b m : Nat} (hb : 0 < b) (h : a + b < m * b + (b + 1) / 2) :
    nearestEven a b < m := by
  have hdiv := Nat.div_add_mod a b
  have hmod := Nat.mod_lt a hb
  unfold nearestEven
  have hlt : a / b < m := by
    rw [Nat.div_lt_iff_lt_mul hb]
    omega
  split
  · exact hlt
  · rename_i hup
    rcases Nat.lt_or_eq_of_le (Nat.succ_le_of_lt hlt) with hlt' | heq
    · exact hlt'
    · have hm : m * b = b * (a / b) + b := by
        rw [← heq, Nat.succ_mul, Nat.mul_comm]
      omega

theorem wholeSeconds_ge (n : Nat) : n / 1000000 ≤ wholeSeconds n := by
  unfold wholeSeconds
  dsimp only
  generalize 52 - (n / 1000000).log2 = bits
  have hpos : 0 < 2 ^ bits := Nat.two_pow_pos bits
  rw [Nat.le_div_iff_mul_le hpos]
  refine le_trans ?_ (nearestEven_ge _ _)
  rw [Nat.le_div_iff_mul_le (by decide), Nat.mul_right_comm]
  exact Nat.mul_le_mul_right _ (Nat.div_mul_le_self n 1000000)

theorem wholeSeconds_le (n : Nat) : wholeSeconds n ≤ n / 1000000 + 1 := by
  unfold wholeSeconds
  dsimp only
  generalize 52 - (n / 1000000).log2 = bits
  have hpos : 0 < 2 ^ bits := Nat.two_pow_pos bits
  rw [← Nat.lt_succ_iff, Nat.div_lt_iff_lt_mul hpos]
  refine nearestEven_le (by decide) ?_
  have hn : n < (n / 1000000 + 1) * 1000000 := by omega
  have hmul : n * 2 ^ bits < (n / 1000000 + 1) * 1000000 * 2 ^ bits :=
    Nat.mul_lt_mul_of_pos_right hn hpos
  have hsucc : (n / 1000000 + 1).succ * 2 ^ bits * 1000000 =
      (n / 1000000 + 1) * 1000000 * 2 ^ bits + 1000000 * 2 ^ bits := by
    rw [Nat.succ_eq_add_one]
    ring
  omega

/-- For some five hundred years the seconds are exact. -/
theorem wholeSeconds_eq {n : Nat} (h : n / 1000000 < 2 ^ 34) : wholeSeconds n = n / 1000000 := by
  refine le_antisymm ?_ (wholeSeconds_ge n)
  have hlog : (n / 1000000).log2 < 34 := by
    by_cases hzero : n / 1000000 = 0
    · rw [hzero]
      decide
    · exact (Nat.log2_lt hzero).mpr h
  unfold wholeSeconds
  dsimp only
  have hbits : 19 ≤ 52 - (n / 1000000).log2 := by omega
  generalize 52 - (n / 1000000).log2 = bits at hbits
  have hpow : 2 ^ 19 ≤ 2 ^ bits := Nat.pow_le_pow_right (by decide) hbits
  have hpos : 0 < 2 ^ bits := Nat.two_pow_pos bits
  rw [← Nat.lt_succ_iff, Nat.div_lt_iff_lt_mul hpos]
  refine nearestEven_le (by decide) ?_
  have hn : n + 1 ≤ (n / 1000000 + 1) * 1000000 := by omega
  have hmul := Nat.mul_le_mul_right (2 ^ bits) hn
  have hsucc : (n / 1000000).succ * 2 ^ bits * 1000000 = (n / 1000000 + 1) * 1000000 * 2 ^ bits := by
    rw [Nat.succ_eq_add_one]
    ring
  rw [Nat.add_mul, Nat.one_mul] at hmul
  omega

end Lib
