import Mathlib.Logic.Function.Iterate
import Mathlib.Tactic.IntervalCases
import KeywordSieve.Calendar

/-!
The calendar. It goes from one day to the next by the lengths of the months and the rule of the leap
years; from 1 January 1970 on, the date that is computed for the number of a day is the one that the
calendar comes to after so many days.
-/
namespace KeywordSieve.Date

structure IsDay (d : Date) : Prop where
  month : 1 ≤ d.month ∧ d.month ≤ 12
  day : 1 ≤ d.day ∧ d.day ≤ daysInMonth d.year d.month

def next (d : Date) : Date :=
  if d.day < daysInMonth d.year d.month then { d with day := d.day + 1 }
  else if d.month < 12 then ⟨d.year, d.month + 1, 1⟩
  else ⟨d.year + 1, 1, 1⟩

/-- The day from which the days are counted. -/
def epoch : Date := ⟨1970, 1, 1⟩

variable {d : Date}

theorem daysInMonth_cases (year : Int) (month : Nat) :
    (month = 2 ∧ isLeap year = true ∧ daysInMonth year month = 29) ∨
      (month = 2 ∧ isLeap year = false ∧ daysInMonth year month = 28) ∨
      ((month = 4 ∨ month = 6 ∨ month = 9 ∨ month = 11) ∧ daysInMonth year month = 30) ∨
      (month ≠ 2 ∧ month ≠ 4 ∧ month ≠ 6 ∧ month ≠ 9 ∧ month ≠ 11 ∧
        daysInMonth year month = 31) := by
  rw [daysInMonth]
  cases isLeap year <;> grind

theorem isLeap_iff (year : Int) :
    isLeap year = true ↔ year % 4 = 0 ∧ (year % 100 ≠ 0 ∨ year % 400 = 0) := by
  simp [isLeap]

/-- From one year to the next there is one leap day more just if it is a leap year. -/
theorem leapDays_step (year : Int) :
    year / 4 - year / 100 + year / 400 =
      (year - 1) / 4 - (year - 1) / 100 + (year - 1) / 400 + (isLeap year).toNat := by
  have h4 : year / 4 = (year - 1) / 4 + if year % 4 = 0 then 1 else 0 := by split <;> omega
  have h100 : year / 100 = (year - 1) / 100 + if year % 100 = 0 then 1 else 0 := by split <;> omega
  have h400 : year / 400 = (year - 1) / 400 + if year % 400 = 0 then 1 else 0 := by split <;> omega
  have hleap : ((isLeap year).toNat : Int) = (if year % 4 = 0 then 1 else 0) -
      (if year % 100 = 0 then 1 else 0) + if year % 400 = 0 then 1 else 0 := by
    by_cases h : isLeap year = true
    · have hcases := (isLeap_iff year).1 h
      rw [h, Bool.toNat_true]
      omega
    · have hcases := mt (isLeap_iff year).2 h
      rw [Bool.not_eq_true] at h
      rw [h, Bool.toNat_false]
      omega
  rw [h4, h100, h400, hleap]
  omega

theorem daysInMonth_bounds (year : Int) (month : Nat) :
    28 ≤ daysInMonth year month ∧ daysInMonth year month ≤ 31 := by
  obtain ⟨-, -, h⟩ | ⟨-, -, h⟩ | ⟨-, h⟩ | ⟨-, -, -, -, -, h⟩ := daysInMonth_cases year month
  all_goals omega

theorem isDay_epoch : epoch.IsDay := by
  constructor <;> decide

theorem isDay_first (year : Int) {month : Nat} (h : 1 ≤ month ∧ month ≤ 12) :
    IsDay ⟨year, month, 1⟩ where
  month := h
  day := ⟨Nat.le_refl 1, Nat.le_trans (show 1 ≤ 28 by decide) (daysInMonth_bounds year month).1⟩

/-- Behind each day of the calendar comes another. -/
theorem IsDay.next (h : d.IsDay) : d.next.IsDay := by
  have hmonth := h.month
  rw [Date.next]
  split
  · exact ⟨hmonth, by simp only; omega⟩
  · split
    · exact isDay_first _ (by omega)
    · exact isDay_first _ (by decide)

/-- Each day has the number behind that of the day before. -/
theorem toDays_next (h : d.IsDay) : d.next.toDays = d.toDays + 1 := by
  obtain ⟨year, month, day⟩ := d
  obtain ⟨⟨hm, hm'⟩, -, hd⟩ := h
  have hlength := daysInMonth_cases year month
  have hleap := leapDays_step year
  simp only [next, toDays] at hm hm' hd ⊢
  generalize daysInMonth year month = length at *
  generalize isLeap year = leap at *
  split
  · simp only
    split <;> omega
  · -- a year that begins in March has one leap day more only behind a February
    obtain ⟨h, hl, h29⟩ | ⟨h, hl, h28⟩ | h30 | h31 := hlength
    · rw [hl, Bool.toNat_true] at hleap
      simp only [h, Nat.reduceAdd, Nat.reduceLT, Nat.reduceLeDiff, ↓reduceIte]
      omega
    · rw [hl, Bool.toNat_false] at hleap
      simp only [h, Nat.reduceAdd, Nat.reduceLT, Nat.reduceLeDiff, ↓reduceIte]
      omega
    all_goals
      have hother : ¬ month = 2 := by omega
      interval_cases month
      all_goals
        simp only [Nat.reduceAdd, Nat.reduceLT, Nat.reduceLeDiff, ↓reduceIte]
        omega

/-- The years and days of an era: `century`, `leap` and `rest` count the centuries, the spans of
four years and the years in these that are over. -/
theorem yearOfEra_eq {century leap rest day dayOfEra : Int} (hc : 0 ≤ century ∧ century ≤ 3)
    (hl : 0 ≤ leap ∧ leap ≤ 24) (hr : 0 ≤ rest ∧ rest ≤ 3) (hd : 0 ≤ day)
    (hd' : day ≤ 364 ∨ day = 365 ∧ rest = 3 ∧ (leap < 24 ∨ century = 3))
    (h : dayOfEra = 36524 * century + (1461 * leap + 365 * rest + day)) :
    (dayOfEra - dayOfEra / 1460 + dayOfEra / 36524 - dayOfEra / 146096) / 365 =
      100 * century + 4 * leap + rest := by
  -- the last day of an era is the only one whose century is not told by the quotient
  have hcentury : ∀ more : Int, 0 ≤ more → (more ≤ 36523 ∨ century = 3 ∧ more = 36524) →
      (36524 * century + more) / 36524 - (36524 * century + more) / 146096 = century := by
    intro more h h'
    omega
  have hk := hcentury (1461 * leap + 365 * rest + day) (by omega) (by omega)
  rw [← h] at hk
  generalize dayOfEra / 146096 = last at *
  generalize dayOfEra / 36524 = quotient at *
  have hspans : dayOfEra / 1460 = 25 * century + leap ∨
      dayOfEra / 1460 = 25 * century + leap + 1 := by omega
  omega

/-- The day of a month and its place in a year that begins in March. -/
structure InMarchYear (part day : Int) : Prop where
  isPart : 0 ≤ part ∧ part ≤ 11
  isDay : 1 ≤ day ∧ day ≤ 31
  ofShort : part = 1 ∨ part = 3 ∨ part = 6 ∨ part = 8 → day ≤ 30
  ofLast : part = 11 → day ≤ 29

variable {part day : Int}

/-- The month is found from the place of the day in the year. -/
theorem InMarchYear.part_eq (h : InMarchYear part day) :
    (5 * ((153 * part + 2) / 5 + day - 1) + 2) / 153 = part := by
  obtain ⟨⟨hp, hp'⟩, hd, hs, hl⟩ := h
  interval_cases part <;> omega

theorem InMarchYear.bounds (h : InMarchYear part day) :
    0 ≤ (153 * part + 2) / 5 + day - 1 ∧ ((153 * part + 2) / 5 + day - 1 ≤ 364 ∨
      (153 * part + 2) / 5 + day - 1 = 365 ∧ part = 11 ∧ day = 29) := by
  obtain ⟨⟨hp, hp'⟩, hd, hs, hl⟩ := h
  interval_cases part <;> omega

/-- The number of a day, counted from the beginning of its era. -/
theorem era_eq (era : Int) {dayOfEra : Int} (h : 0 ≤ dayOfEra ∧ dayOfEra < 146097) :
    (146097 * era + dayOfEra - 719468 + 719468) / 146097 = era ∧
      (146097 * era + dayOfEra - 719468 + 719468) % 146097 = dayOfEra := by
  omega

theorem yearParts_eq (century : Int) {leap rest : Int} (hl : 0 ≤ leap ∧ leap ≤ 24)
    (hr : 0 ≤ rest ∧ rest ≤ 3) : (100 * century + 4 * leap + rest) / 4 = 25 * century + leap ∧
      (100 * century + 4 * leap + rest) / 100 = century := by
  omega

theorem ofDays_of_parts {era century leap rest : Int} (hc : 0 ≤ century ∧ century ≤ 3)
    (hl : 0 ≤ leap ∧ leap ≤ 24) (hr : 0 ≤ rest ∧ rest ≤ 3) (h : InMarchYear part day)
    (hlast : part = 11 → day = 29 → rest = 3 ∧ (leap < 24 ∨ century = 3)) :
    ofDays (146097 * era + (36524 * century + (1461 * leap + 365 * rest +
        ((153 * part + 2) / 5 + day - 1))) - 719468) =
      ⟨100 * century + 4 * leap + rest + 400 * era + (if part < 10 then 0 else 1),
        (if part < 10 then part + 3 else part - 9).toNat, day.toNat⟩ := by
  have hlong : (153 * part + 2) / 5 + day - 1 ≤ 364 ∨
      (153 * part + 2) / 5 + day - 1 = 365 ∧ rest = 3 ∧ (leap < 24 ∨ century = 3) :=
    h.bounds.2.imp_right fun ⟨he, hp, hd⟩ => ⟨he, hlast hp hd⟩
  have hyear := yearOfEra_eq hc hl hr h.bounds.1 hlong rfl
  have hpart := h.part_eq
  have hday : ((153 * part + 2) / 5 + day - 1 - (153 * part + 2) / 5 + 1).toNat = day.toNat := by
    congr 1
    omega
  have hfirst := h.bounds.1
  generalize (153 * part + 2) / 5 + day - 1 = dayOfYear at *
  have hdays : 36524 * century + (1461 * leap + 365 * rest + dayOfYear) -
      (365 * (100 * century + 4 * leap + rest) + (25 * century + leap) - century) = dayOfYear := by
    clear hyear hlong hpart
    omega
  have hera : 0 ≤ 36524 * century + (1461 * leap + 365 * rest + dayOfYear) ∧
      36524 * century + (1461 * leap + 365 * rest + dayOfYear) < 146097 := by
    clear hyear hdays hpart
    omega
  obtain ⟨hquotient, hrest⟩ := era_eq era hera
  obtain ⟨h4, h100⟩ := yearParts_eq century hl hr
  simp only [ofDays, hquotient, hrest, hyear, h4, h100, hdays, hpart, hday]
  have hp := h.isPart
  split
  · rw [if_neg (by omega)]
  · rw [if_pos (by omega)]

/-- Before a leap year comes the last year of a span of four, which is not the last one of a century
unless that is the last one of an era. -/
theorem last_of_isLeap {year : Int}
    (h : (year + 1) % 4 = 0 ∧ ((year + 1) % 100 ≠ 0 ∨ (year + 1) % 400 = 0)) :
    year % 4 = 3 ∧ (year % 100 / 4 < 24 ∨ year % 400 / 100 = 3) := by
  refine ⟨by omega, h.2.imp ?_ ?_⟩
  · intro h100
    have hrest : year % 100 % 4 = 3 ∧ year % 100 ≤ 98 := by omega
    omega
  · intro h400
    have hrest : year % 400 = 399 := by omega
    omega

/-- The centuries, the spans of four years and the years of an era up to a year. -/
theorem parts_bounds (year : Int) :
    (0 ≤ year % 400 / 100 ∧ year % 400 / 100 ≤ 3) ∧
      (0 ≤ year % 100 / 4 ∧ year % 100 / 4 ≤ 24) ∧ 0 ≤ year % 4 ∧ year % 4 ≤ 3 := by
  have hc : 0 ≤ year % 400 ∧ year % 400 < 400 := by omega
  have hl : 0 ≤ year % 100 ∧ year % 100 < 100 := by omega
  generalize year % 400 = c at *
  generalize year % 100 = l at *
  omega

theorem sum_parts (year : Int) :
    100 * (year % 400 / 100) + 4 * (year % 100 / 4) + year % 4 + 400 * (year / 400) = year := by
  have hcentury : 100 * (year % 400 / 100) + 400 * (year / 400) = 100 * (year / 100) := by omega
  have hspan : 4 * (year % 100 / 4) + year % 4 = year % 100 := by omega
  omega

theorem days_parts (year : Int) :
    365 * year + year / 4 - year / 100 + year / 400 = 146097 * (year / 400) +
      (36524 * (year % 400 / 100) + (1461 * (year % 100 / 4) + 365 * (year % 4))) := by
  have hcentury : year % 400 / 100 = year / 100 - 4 * (year / 400) := by omega
  have hspan : year % 100 / 4 = year / 4 - 25 * (year / 100) := by omega
  have hrest : year % 4 = year - 4 * (year / 4) := by omega
  rw [hcentury, hspan, hrest]
  omega

/-- The date that is computed for the number of a day is that day. -/
theorem ofDays_toDays (h : d.IsDay) : ofDays d.toDays = d := by
  obtain ⟨year, month, day⟩ := d
  obtain ⟨⟨hm, hm'⟩, hd, hd'⟩ := h
  simp only at hm hm' hd hd'
  have hlength := daysInMonth_cases year month
  have hleap := isLeap_iff year
  generalize daysInMonth year month = length at *
  -- the year that begins in March, and the place of the month in it
  generalize hY : (if month ≤ 2 then year - 1 else year) = marchYear
  generalize hP : (if month ≤ 2 then (month : Int) + 9 else month - 3) = part
  have hin : InMarchYear part day := by
    constructor <;> omega
  have hdays : toDays ⟨year, month, day⟩ = 146097 * (marchYear / 400) +
      (36524 * (marchYear % 400 / 100) + (1461 * (marchYear % 100 / 4) + 365 * (marchYear % 4) +
        ((153 * part + 2) / 5 + day - 1))) - 719468 := by
    have hparts := days_parts marchYear
    simp only [toDays, hY, hP]
    omega
  have hlast : part = 11 → (day : Int) = 29 →
      marchYear % 4 = 3 ∧ (marchYear % 100 / 4 < 24 ∨ marchYear % 400 / 100 = 3) := by
    intro hp hd
    have hfeb : month = 2 := by omega
    have hyear : marchYear + 1 = year := by omega
    obtain ⟨-, h29, -⟩ | ⟨-, -, h28⟩ | h30 | h31 := hlength
    · exact last_of_isLeap (hyear ▸ hleap.1 h29)
    all_goals omega
  obtain ⟨hcentury, hspan, hrest⟩ := parts_bounds marchYear
  rw [hdays, ofDays_of_parts hcentury hspan hrest hin hlast, sum_parts]
  clear hdays hlast hin hcentury hspan hrest
  congr 1 <;> omega

theorem isDay_iterate (n : Nat) : IsDay (next^[n] epoch) := by
  induction n with
  | zero => exact isDay_epoch
  | succ n ih =>
    rw [Function.iterate_succ_apply']
    exact ih.next

/-- The days are counted one by one. -/
theorem toDays_iterate (n : Nat) : (next^[n] epoch).toDays = n := by
  induction n with
  | zero => decide
  | succ n ih =>
    rw [Function.iterate_succ_apply', toDays_next (isDay_iterate n), ih]
    rfl

/-- The date that is computed for a number of days is the one that the calendar comes to. -/
theorem ofDays_natCast (n : Nat) : ofDays n = next^[n] epoch := by
  have h := ofDays_toDays (isDay_iterate n)
  rwa [toDays_iterate] at h

theorem year_iterate (n : Nat) : 1970 ≤ (next^[n] epoch).year := by
  induction n with
  | zero => decide
  | succ n ih =>
    rw [Function.iterate_succ_apply', next]
    split
    · exact ih
    · split
      · exact ih
      · simp only
        omega

def IsBefore (d d' : Date) : Prop :=
  d.year < d'.year ∨ d.year = d'.year ∧ (d.month < d'.month ∨ d.month = d'.month ∧ d.day < d'.day)

theorem IsBefore.trans {d d' d'' : Date} (h : d.IsBefore d') (h' : d'.IsBefore d'') :
    d.IsBefore d'' := by
  rw [IsBefore] at *
  omega

theorem isBefore_next (d : Date) : d.IsBefore d.next := by
  rw [IsBefore, next]
  split
  · simp
  · split <;> simp

/-- The order of the count is that of the calendar. -/
theorem isBefore_iterate {m n : Nat} (h : m < n) : (next^[m] epoch).IsBefore (next^[n] epoch) := by
  induction h with
  | refl =>
    rw [Function.iterate_succ_apply']
    exact isBefore_next _
  | step _ ih =>
    rw [Function.iterate_succ_apply']
    exact ih.trans (isBefore_next _)

end KeywordSieve.Date
