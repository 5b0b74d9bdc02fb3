import Mathlib.Data.Char
import Mathlib.Data.List.Lex
import Mathlib.Data.Nat.Digits.Defs
import KeywordSieve.Proofs.Days
import KeywordSieve.Proofs.Stamps

/-!
The order of stamps. A stamp is made of columns, each of a fixed width, that write how often a unit
of time is over; so stamps are ordered as the milliseconds that they denote. Nothing is rounded:
what is less than a millisecond is left out.
-/
namespace KeywordSieve

open Double Text

namespace Text

variable {P Q : Nat → Text} {bound bound' width width' m n k w : Nat} {s t : Text}

/-- Texts of one width for the numbers below a bound, ordered as these. -/
structure IsScale (P : Nat → Text) (bound width : Nat) : Prop where
  length : ∀ n < bound, (P n).length = width
  lt : ∀ m n, m < n → n < bound → P m < P n

theorem append_lt_append (hl : s.length = t.length) (h : s < t) (u v : Text) :
    s ++ u < t ++ v := by
  induction s generalizing t with
  | nil =>
    rw [List.length_nil, eq_comm, List.length_eq_zero_iff] at hl
    subst hl
    exact absurd h (List.not_lt_nil _)
  | cons c s ih =>
    cases t with
    | nil => cases hl
    | cons d t =>
      rw [List.cons_append, List.cons_append, List.cons_lt_cons_iff]
      exact (List.cons_lt_cons_iff.1 h).imp_right fun ⟨hc, hst⟩ =>
        ⟨hc, ih (Nat.succ.inj hl) hst⟩

namespace IsScale

theorem mono (h : IsScale P bound width) (hb : bound' ≤ bound) : IsScale P bound' width where
  length n hn := h.length n (Nat.lt_of_lt_of_le hn hb)
  lt m n hmn hn := h.lt m n hmn (Nat.lt_of_lt_of_le hn hb)

theorem cons (h : IsScale P bound width) (c : Char) :
    IsScale (fun n => c :: P n) bound (width + 1) where
  length n hn := congrArg (· + 1) (h.length n hn)
  lt m n hmn hn := List.cons_lt_cons_iff.2 (Or.inr ⟨rfl, h.lt m n hmn hn⟩)

/-- A column for the quotient with one for the rest behind it. -/
theorem append (h : IsScale P bound width) (h' : IsScale Q k width') :
    IsScale (fun n => P (n / k) ++ Q (n % k)) (bound * k) (width + width') where
  length n hn := by
    have hk : 0 < k := Nat.pos_of_lt_mul_left hn
    have hq : n / k < bound := Nat.div_lt_of_lt_mul (by rwa [Nat.mul_comm])
    rw [List.length_append, h.length _ hq, h'.length _ (Nat.mod_lt n hk)]
  lt m n hmn hn := by
    have hk : 0 < k := Nat.pos_of_lt_mul_left hn
    have hq : n / k < bound := Nat.div_lt_of_lt_mul (by rwa [Nat.mul_comm])
    have hle : m / k ≤ n / k := Nat.div_le_div_right (Nat.le_of_lt hmn)
    obtain hlt | he := Nat.lt_or_eq_of_le hle
    · apply append_lt_append _ (h.lt _ _ hlt hq)
      rw [h.length _ (Nat.lt_trans hlt hq), h.length _ hq]
    · have hrest : m % k < n % k := by
        have hm := Nat.div_add_mod m k
        have hn := Nat.div_add_mod n k
        rw [he] at hm
        omega
      rw [he]
      exact List.append_left_lt (h'.lt _ _ hrest (Nat.mod_lt n hk))

theorem le (h : IsScale P bound width) (hmn : m ≤ n) (hn : n < bound) : P m ≤ P n := by
  obtain hlt | rfl := Nat.lt_or_eq_of_le hmn
  · exact le_of_lt (h.lt m n hlt hn)
  · exact le_rfl

theorem inj (h : IsScale P bound width) (hm : m < bound) (hn : n < bound) (he : P m = P n) :
    m = n := by
  have hlt : ¬ m < n := fun hlt => List.lt_irrefl (P n) (he ▸ h.lt m n hlt hn)
  have hgt : ¬ n < m := fun hgt => List.lt_irrefl (P n) (he ▸ h.lt n m hgt hm)
  omega

end IsScale

theorem isScale_digitChar : IsScale (fun n => [Nat.digitChar n]) 10 1 where
  length _ _ := rfl
  lt m n hmn hn := by
    have hchars : ∀ n < 10, ∀ m < n, [Nat.digitChar m] < [Nat.digitChar n] := by decide
    exact hchars n hn m hmn

theorem digits_one (h : n < 10) : digits 1 n = [Nat.digitChar n] := by
  rw [digits, ofNat, Nat.toDigits_of_lt_base h]
  rfl

/-- The last digit, and those in front of it. -/
theorem digits_succ (hw : 0 < w) (n : Nat) :
    digits (w + 1) n = digits w (n / 10) ++ [Nat.digitChar (n % 10)] := by
  obtain hlt | hge := Nat.lt_or_ge n 10
  · obtain ⟨w, rfl⟩ := Nat.exists_eq_add_of_lt hw
    have hzero : ofNat 0 = ['0'] := rfl
    rw [digits, digits, ofNat, Nat.toDigits_of_lt_base hlt, Nat.div_eq_of_lt hlt,
      Nat.mod_eq_of_lt hlt, hzero, padLeft, padLeft]
    simp [List.replicate_succ']
  · rw [digits, digits, ofNat, ofNat, Nat.toDigits_of_base_le (by decide) hge, padLeft, padLeft,
      List.length_append, List.length_singleton, Nat.add_sub_add_right, List.append_assoc]

/-- Digits of one width are ordered as their numbers are. -/
theorem isScale_digits (hw : 0 < w) : IsScale (digits w) (10 ^ w) w := by
  induction w, hw using Nat.le_induction with
  | base =>
    have h := isScale_digitChar
    constructor
    · intro n hn
      rw [digits_one hn, h.length n hn]
    · intro m n hmn hn
      rw [digits_one (Nat.lt_trans hmn hn), digits_one hn]
      exact h.lt m n hmn hn
  | succ w hw ih =>
    have heq : digits (w + 1) = fun n => digits w (n / 10) ++ [Nat.digitChar (n % 10)] :=
      funext (digits_succ hw)
    rw [heq]
    exact ih.append isScale_digitChar

theorem digits_append_lt (hw : 0 < w) (hm : m < 10 ^ w) (hn : n < 10 ^ w)
    (h : m < n ∨ m = n ∧ s < t) : digits w m ++ s < digits w n ++ t := by
  obtain hlt | ⟨rfl, hst⟩ := h
  · apply append_lt_append _ ((isScale_digits hw).lt m n hlt hn)
    rw [(isScale_digits hw).length m hm, (isScale_digits hw).length n hn]
  · exact List.append_left_lt hst

/-- A separator and the rest behind it. -/
theorem IsScale.column (h : IsScale P bound width) (c : Char) (hw : 0 < w) (hk : k ≤ 10 ^ w) :
    IsScale (fun n => P (n / k) ++ c :: digits w (n % k)) (bound * k) (width + (w + 1)) :=
  h.append (((isScale_digits hw).mono hk).cons c)

/-- A number that fills a width has no zeros in front. -/
theorem digits_of_le (hw : 0 < w) (h : 10 ^ w ≤ n) : digits (w + 1) n = ofNat n := by
  have hl : ¬ (Nat.toDigits 10 n).length ≤ w := by
    rw [Nat.length_toDigits_le_iff (by decide) hw]
    omega
  rw [digits, padLeft, ofNat, Nat.sub_eq_zero_of_le (by omega)]
  rfl

end Text

namespace Double

variable {n d x unit : Nat}

theorem roundDiv_near (hd : 0 < d) :
    2 * n ≤ 2 * (roundDiv n d * d) + d ∧ 2 * (roundDiv n d * d) ≤ 2 * n + d := by
  have hn := Nat.div_add_mod' n d
  have hr := Nat.mod_lt n hd
  rw [roundDiv]
  split
  · rw [Nat.add_mul, Nat.one_mul]
    omega
  · omega

/-- A quotient that is less than a half away from a whole number is rounded to it. -/
theorem roundDiv_eq (h : 2 * x < 2 * (n * unit) + unit) (h' : 2 * (n * unit) < 2 * x + unit) :
    roundDiv x unit = n := by
  have hu : 0 < unit := by omega
  obtain ⟨hlow, hhigh⟩ := roundDiv_near (n := x) hu
  rcases Nat.lt_trichotomy (roundDiv x unit) n with hlt | he | hgt
  · have hle := Nat.mul_le_mul_right unit hlt
    rw [Nat.succ_mul] at hle
    omega
  · exact he
  · have hle := Nat.mul_le_mul_right unit hgt
    rw [Nat.succ_mul] at hle
    omega

/-- A double with twenty bits or more behind the point is near to the quotient that it is for. -/
theorem exists_near (negative : Bool) (hn : n ≠ 0) (hd : 0 < d) (hq : exponentOf n d ≤ -20) :
    ∃ m e, ofRatio negative n d = .finite negative m (-(e + 1 : Nat)) ∧
      twoTo 21 * (n * twoTo (e + 1)) ≤ twoTo 21 * (m * d) + twoTo (e + 1) * d ∧
      twoTo 21 * (m * d) ≤ twoTo 21 * (n * twoTo (e + 1)) + twoTo (e + 1) * d := by
  obtain ⟨e, he⟩ : ∃ e : Nat, exponentOf n d = -(e + 20 : Nat) :=
    ⟨(-exponentOf n d - 20).toNat, by omega⟩
  have htwenty : twoTo (e + 20) = 1048576 * twoTo e := by
    rw [Nat.mul_comm]
    exact Nat.pow_add 2 e 20
  have hnineteen : twoTo (e + 19) = 524288 * twoTo e := by
    rw [Nat.mul_comm]
    exact Nat.pow_add 2 e 19
  have hshort : twoTo 21 = 2097152 := by decide
  have hunit : d ≤ twoTo e * d := Nat.le_mul_of_pos_left d (twoTo_pos e)
  obtain ⟨hlow, hhigh⟩ := roundDiv_near (n := n * twoTo (e + 20)) hd
  obtain ⟨hc, hr⟩ | hr := ofRatio_cases negative hn he
  · rw [hc] at hlow hhigh
    refine ⟨twoTo 52, e + 18, hr, ?_⟩
    rw [hshort, hnineteen]
    rw [htwenty] at hlow hhigh
    simp only [Nat.mul_left_comm n, Nat.mul_assoc] at hlow hhigh ⊢
    omega
  · refine ⟨_, e + 19, hr, ?_⟩
    rw [hshort, htwenty]
    rw [htwenty] at hlow hhigh
    simp only [Nat.mul_left_comm n, Nat.mul_assoc] at hlow hhigh ⊢
    omega

/-- What is below a limit of 53 bits in all has twenty bits behind the point at least. -/
theorem exponentOf_le (hn : n < twoTo 33 * 1000000) : exponentOf n 1000000 ≤ -20 := by
  have hd : Nat.log2 1000000 = 19 := by decide
  have hlog : n.log2 ≤ 52 := by
    by_cases hz : n = 0
    · rw [hz, Nat.log2_zero]
      decide
    · rw [← Nat.lt_succ_iff, Nat.log2_lt hz]
      calc n < twoTo 33 * 1000000 := hn
        _ < 2 ^ 53 := by decide
  rw [exponentOf, leastExponent, hd]
  obtain hlt | he := Nat.lt_or_eq_of_le hlog
  · split <;> omega
  · have hscaled : scaled n 1000000 ((52 : Nat) - (19 : Nat) - 52) = (n * twoTo 19, 1000000) := rfl
    have hfits : n * twoTo 19 < twoTo 52 * 1000000 := by
      have hone : twoTo 52 * 1000000 = twoTo 33 * 1000000 * twoTo 19 := by decide
      rw [hone]
      exact Nat.mul_lt_mul_of_pos_right hn (twoTo_pos 19)
    rw [he, hscaled, if_pos hfits]
    decide

end Double

namespace Date

/-- The days that are over at the end of the year 9999. -/
def allDays : Nat := 2932897

theorem iterate_bounds {n : Nat} (hn : n < allDays) :
    ((next^[n] epoch).year.toNat < 10 ^ 4 ∧ 1000 ≤ (next^[n] epoch).year) ∧
      (next^[n] epoch).month < 10 ^ 2 ∧ (next^[n] epoch).day < 10 ^ 2 := by
  have hyear : firstYear ≤ (ofDays n).year ∧ (ofDays n).year ≤ lastYear := by
    rw [allDays] at hn
    exact year_ofDays (by omega) (by omega)
  rw [ofDays_natCast, lastYear] at hyear
  have hfirst := year_iterate n
  have hday := isDay_iterate n
  have hmonth := hday.month
  have hlength := hday.day
  have hmost := (daysInMonth_bounds (next^[n] epoch).year (next^[n] epoch).month).2
  omega

theorem text_lt {d d' : Date} (h : d.IsBefore d') (h₀ : 0 ≤ d.year)
    (hd : d.year.toNat < 10 ^ 4 ∧ d.month < 10 ^ 2 ∧ d.day < 10 ^ 2)
    (hd' : d'.year.toNat < 10 ^ 4 ∧ d'.month < 10 ^ 2 ∧ d'.day < 10 ^ 2) : d.text < d'.text := by
  simp only [text, List.append_assoc, List.cons_append]
  refine digits_append_lt (by decide) hd.1 hd'.1 (h.imp (by omega) fun ⟨hy, hrest⟩ => ?_)
  refine ⟨by rw [hy], List.cons_lt_cons_iff.2 (Or.inr ⟨rfl, ?_⟩)⟩
  refine digits_append_lt (by decide) hd.2.1 hd'.2.1 (hrest.imp_right fun ⟨hm, hday⟩ => ?_)
  have hlt := (isScale_digits (by decide)).lt _ _ hday hd'.2.2
  exact ⟨hm, List.cons_lt_cons_iff.2 (Or.inr ⟨rfl, hlt⟩)⟩

theorem isScale_text : IsScale (fun n => (next^[n] epoch).text) allDays 10 where
  length n hn := by
    obtain ⟨⟨hyear, -⟩, hmonth, hday⟩ := iterate_bounds hn
    have hlength : ∀ {w n : Nat}, 0 < w → n < 10 ^ w → (digits w n).length = w :=
      fun hw hn => (isScale_digits hw).length _ hn
    simp only [text, List.length_append, List.length_cons, hlength (by decide) hyear,
      hlength (by decide) hmonth, hlength (by decide) hday]
  lt m n hmn hn := by
    obtain ⟨⟨hyear, hfirst⟩, hrest⟩ := iterate_bounds (Nat.lt_trans hmn hn)
    obtain ⟨⟨hyear', -⟩, hrest'⟩ := iterate_bounds hn
    exact text_lt (isBefore_iterate hmn) (by omega) ⟨hyear, hrest⟩ ⟨hyear', hrest'⟩

end Date

namespace Log.Time

/-- The seconds that 33 bits hold. -/
def exactSeconds : Nat := twoTo 33

/-- The double of a time gives its microseconds back. -/
theorem microseconds_seconds {n : Nat} (hn : n < exactSeconds * 1000000) :
    microseconds (seconds n) = n := by
  rw [seconds, microsecondsPerSecond, Int.natAbs_natCast, decide_eq_false (by omega)]
  by_cases hz : n = 0
  · subst hz
    decide +kernel
  obtain ⟨m, e, hs, hlow, hhigh⟩ := exists_near false hz (by decide) (exponentOf_le hn)
  rw [hs]
  simp only [microseconds, ratio_neg, microsecondsPerSecond, Bool.false_eq_true, ↓reduceIte]
  congr 1
  have hunit := twoTo_pos (e + 1)
  have hshort : twoTo 21 = 2097152 := by decide
  rw [hshort] at hlow hhigh
  apply roundDiv_eq <;> omega

def stampAt (us : Int) : Except Fault Text := do
  let t ← instant us
  if t.date.year < Date.firstYear ∨ Date.lastYear < t.date.year then
    .error (.calendar (.year (t.date.year.bmod (twoTo 32))))
  else return dateText t.date ++ 'T' :: t.time.clock ++
    '.' :: digits 3 (t.time.microsecond / 1000) ++ ['Z']

/-- The columns of a stamp: a day, and behind it what is over of an hour, a minute, a second and a
millisecond in it. -/
def columns : Nat → Text :=
  let days n := (Date.next^[n] Date.epoch).text
  let hours n := days (n / 24) ++ 'T' :: digits 2 (n % 24)
  let minutes n := hours (n / 60) ++ ':' :: digits 2 (n % 60)
  let seconds n := minutes (n / 60) ++ ':' :: digits 2 (n % 60)
  fun n => seconds (n / 1000) ++ '.' :: digits 3 (n % 1000)

/-- A text denotes a time in milliseconds: it is the day of the calendar with the hour, the minute,
the second and the millisecond. -/
def Denotes (t : Text) (time : Nat) : Prop :=
  ∃ days hour minute second milli, hour < 24 ∧ minute < 60 ∧ second < 60 ∧ milli < 1000 ∧
    time = (((days * 24 + hour) * 60 + minute) * 60 + second) * 1000 + milli ∧
    t = (Date.next^[days] Date.epoch).text ++ 'T' :: digits 2 hour ++ ':' :: digits 2 minute ++
      ':' :: digits 2 second ++ '.' :: digits 3 milli ++ ['Z']

def allMilliseconds : Nat := Date.allDays * 24 * 60 * 60 * 1000

theorem allMilliseconds_eq : allMilliseconds = 253402300800000 := by decide

theorem isScale_columns : IsScale columns allMilliseconds 23 :=
  (((Date.isScale_text.column 'T' (w := 2) (by decide) (by decide)).column ':' (w := 2) (by decide)
    (by decide)).column ':' (w := 2) (by decide) (by decide)).column '.' (by decide) (by decide)

/-- The columns of a number of milliseconds denote it. -/
theorem denotes_columns (n : Nat) : Denotes (columns n ++ ['Z']) n :=
  ⟨n / 1000 / 60 / 60 / 24, n / 1000 / 60 / 60 % 24, n / 1000 / 60 % 60, n / 1000 % 60, n % 1000,
    Nat.mod_lt _ (by decide), Nat.mod_lt _ (by decide), Nat.mod_lt _ (by decide),
    Nat.mod_lt _ (by decide), by omega, rfl⟩

/-- The day of an instant is the one that the calendar comes to, and its year has four digits. -/
theorem date_ofMicroseconds (us : Nat) :
    (DateTime.ofMicroseconds us).date = Date.next^[us / 1000000 / 86400] Date.epoch := by
  have hdays : (us : Int) / 1000000 / DateTime.secondsPerDay = (us / 1000000 / 86400 : Nat) := rfl
  rw [DateTime.ofMicroseconds, hdays, Date.ofDays_natCast]

theorem time_ofMicroseconds (us : Nat) :
    (DateTime.ofMicroseconds us).time = ⟨us / 1000000 / 60 / 60 % 24, us / 1000000 / 60 % 60,
      us / 1000000 % 60, us % 1000000⟩ := by
  have hofDay : ((us : Int) / 1000000 % DateTime.secondsPerDay).toNat = us / 1000000 % 86400 := rfl
  have hmicro : ((us : Int) % 1000000).toNat = us % 1000000 := rfl
  simp only [DateTime.ofMicroseconds, hofDay, hmicro, TimeOfDay.mk.injEq, and_true]
  generalize us / 1000000 = second
  omega

theorem dateText_eq {d : Date} (h : 1000 ≤ d.year) : dateText d = d.text := by
  obtain ⟨year, hyear⟩ := Int.eq_ofNat_of_zero_le (show 0 ≤ d.year by omega)
  have hfour : 10 ^ 3 ≤ year := by omega
  have hdigits : ofInt d.year = digits 4 d.year.toNat := by
    rw [hyear, Int.toNat_natCast, digits_of_le (by decide) hfour]
    rfl
  rw [dateText, Date.text, hdigits]

theorem stampAt_eq_ok {us : Int} {t : DateTime} (hi : instant us = .ok t)
    (hy : 1000 ≤ t.date.year ∧ t.date.year ≤ 9999) :
    stampAt us = .ok (t.date.text ++ 'T' :: t.time.clock ++
      '.' :: digits 3 (t.time.microsecond / 1000) ++ ['Z']) := by
  have hyear : ¬ (t.date.year < Date.firstYear ∨ Date.lastYear < t.date.year) := by
    rw [Date.firstYear, Date.lastYear]
    omega
  rw [stampAt, hi, ← dateText_eq hy.1]
  exact if_neg hyear

/-- The stamp of an instant in the years 1970 to 9999 has the columns of its whole milliseconds. -/
theorem stampAt_eq {us : Nat} (h : us / 1000 < allMilliseconds) :
    stampAt us = .ok (columns (us / 1000) ++ ['Z']) := by
  rw [allMilliseconds_eq] at h
  have hdays : us / 1000000 / 86400 < Date.allDays := by
    rw [Date.allDays]
    omega
  obtain ⟨⟨hlast, hfirst⟩, -⟩ := Date.iterate_bounds hdays
  have hdate := date_ofMicroseconds us
  have hinstant : instant us = .ok (DateTime.ofMicroseconds us) := by
    apply instant_eq_ok
    rw [firstSecond, lastSecond]
    omega
  have hsecond : us / 1000 / 1000 = us / 1000000 := Nat.div_div_eq_div_mul us 1000 1000
  have hday : us / 1000000 / 60 / 60 / 24 = us / 1000000 / 86400 := by
    rw [Nat.div_div_eq_div_mul, Nat.div_div_eq_div_mul]
  have hmilli : us % 1000000 / 1000 = us / 1000 % 1000 := by omega
  rw [stampAt_eq_ok hinstant (by rw [hdate]; omega), hdate, time_ofMicroseconds]
  simp only [columns, TimeOfDay.clock, hsecond, hday, hmilli, List.append_assoc, List.cons_append]

/-- For times from 1970 to 9999, counted in microseconds, the stamp has 24 characters and denotes
the last full millisecond; stamps are ordered as the times are, and are the same just within a
millisecond. Up to the limit of exact seconds, that a record keeps its time as a double has no part
in this. -/
theorem stamp_floors {a b : Nat} (hab : a ≤ b) (hb : b < allMilliseconds * 1000) :
    (∀ created : Int, stamp created = stampAt (microseconds (seconds created))) ∧
    (b < exactSeconds * 1000000 → stamp a = stampAt a ∧ stamp b = stampAt b) ∧
    ∃ s t, stampAt a = .ok s ∧ stampAt b = .ok t ∧
      (s.length = 24 ∧ Denotes s (a / 1000)) ∧ (t.length = 24 ∧ Denotes t (b / 1000)) ∧
      s ≤ t ∧ (s = t ↔ a / 1000 = b / 1000) := by
  have hstamp : ∀ created : Int, stamp created = stampAt (microseconds (seconds created)) :=
    fun _ => rfl
  have hexact : ∀ n < exactSeconds * 1000000, stamp n = stampAt n := by
    intro n hn
    rw [hstamp, microseconds_seconds hn]
  -- the letter at the end is a column that is always the same
  have hscale : IsScale (fun n => columns n ++ ['Z']) allMilliseconds 24 := by
    have hletter : IsScale (fun _ => ['Z']) 1 1 := ⟨fun _ _ => rfl, fun m n hmn hn => by omega⟩
    simpa only [Nat.div_one, Nat.mul_one] using isScale_columns.append hletter
  have hb' : b / 1000 < allMilliseconds := Nat.div_lt_of_lt_mul (by rwa [Nat.mul_comm])
  have hab' : a / 1000 ≤ b / 1000 := Nat.div_le_div_right hab
  have ha' : a / 1000 < allMilliseconds := Nat.lt_of_le_of_lt hab' hb'
  refine ⟨hstamp, fun h => ⟨hexact a (by omega), hexact b h⟩, _, _, stampAt_eq ha', stampAt_eq hb',
    ⟨hscale.length _ ha', denotes_columns _⟩, ⟨hscale.length _ hb', denotes_columns _⟩,
    hscale.le hab' hb', hscale.inj ha' hb', ?_⟩
  intro h
  rw [h]

/-- The last microsecond of a leap day, and the first one behind it. -/
theorem stamp_floors_leapDay :
    let a : Nat := 951868799999999
    ∃ s t : Text, stamp a = .ok s ∧ stamp (a + 1 : Nat) = .ok t ∧
      s = "2000-02-29T23:59:59.999Z".toList ∧ t = "2000-03-01T00:00:00.000Z".toList ∧ s ≤ t ∧
      Denotes s (a / 1000) ∧ s ≠ t := by
  intro a
  have hmost : a + 1 < allMilliseconds * 1000 := by decide
  obtain ⟨-, hexact, s, t, hs, ht, ⟨-, hdenotes⟩, -, hle, hsame⟩ :=
    stamp_floors (Nat.le_succ a) hmost
  obtain ⟨ha, hb⟩ := hexact (by decide)
  have hs' : stampAt a = .ok "2000-02-29T23:59:59.999Z".toList := by decide +kernel
  have ht' : stampAt (a + 1 : Nat) = .ok "2000-03-01T00:00:00.000Z".toList := by decide +kernel
  refine ⟨s, t, ha.trans hs, hb.trans ht, Except.ok.inj (hs.symm.trans hs'),
    Except.ok.inj (ht.symm.trans ht'), hle, hdenotes, ?_⟩
  rw [Ne, hsame]
  decide

end Log.Time

end KeywordSieve
