import KeywordSieve.Log.Time

/-!
Times that have a stamp. The seconds of a time are rounded to a double, but never beyond a whole
second that bounds them, so that every time in the years 1 to 9999 up to their last second is
stamped with a year among these.
-/
namespace KeywordSieve

open Double

namespace Double

variable {n d k : Nat}

/-- Rounding does not cross a whole number. -/
theorem roundDiv_le (hd : 0 < d) (h : n ≤ k * d) : roundDiv n d ≤ k := by
  have hq : n / d ≤ k := Nat.div_le_of_le_mul (by rwa [Nat.mul_comm])
  rw [roundDiv]
  split
  · next hup =>
    -- what is rounded up leaves a rest, so it is below `k`
    rcases Nat.lt_or_eq_of_le hq with hlt | rfl
    · exact hlt
    · have hn := Nat.div_add_mod' n d
      have hr : n % d = 0 := by omega
      omega
  · exact hq

theorem exponentOf_lt (h : n.log2 < d.log2 + 51) : exponentOf n d < -1 := by
  rw [exponentOf, leastExponent]
  split <;> omega

theorem twoTo_succ (k : Nat) : twoTo (k + 1) = twoTo k * 2 := rfl

theorem twoTo_pos (k : Nat) : 0 < twoTo k := Nat.two_pow_pos k

/-- A quotient with a binary point is rounded there, or one place higher if the rounding makes the
significand too long. -/
theorem ofRatio_cases (negative : Bool) {e : Nat} (hn : n ≠ 0)
    (he : exponentOf n d = -(e + 2 : Nat)) :
    roundDiv (n * twoTo (e + 2)) d = 2 * twoTo 52 ∧
        ofRatio negative n d = .finite negative (twoTo 52) (-(e + 1 : Nat)) ∨
      ofRatio negative n d = .finite negative (roundDiv (n * twoTo (e + 2)) d) (-(e + 2 : Nat)) := by
  have hscaled : scaled n d (exponentOf n d) = (n * twoTo (e + 2), d) := by
    rw [scaled, if_pos (by omega), he, Int.neg_neg, Int.toNat_natCast]
  have hhalf : twoTo 53 = 2 * twoTo 52 := by decide
  rw [ofRatio, if_neg hn]
  simp only [hscaled, greatestExponent, hhalf]
  split
  · next hc =>
    refine Or.inl ⟨hc, ?_⟩
    rw [if_neg (by omega), he]
    congr 1
  · refine Or.inr ?_
    rw [if_neg (by omega), he]

/-- A quotient of moderate size is finite, and not above the whole numbers that bound it. -/
theorem exists_ofRatio (negative : Bool) (hd : 0 < d) (hs : n.log2 < d.log2 + 51) (h : n ≤ k * d) :
    ∃ m e, ofRatio negative n d = .finite negative m (-(e + 1 : Nat)) ∧ m ≤ k * twoTo (e + 1) := by
  by_cases hn : n = 0
  · exact ⟨0, 1073, if_pos hn, Nat.zero_le _⟩
  have hq := exponentOf_lt hs
  obtain ⟨e, he⟩ : ∃ e : Nat, exponentOf n d = -(e + 2 : Nat) :=
    ⟨(-exponentOf n d - 2).toNat, by omega⟩
  have hm : roundDiv (n * twoTo (e + 2)) d ≤ k * twoTo (e + 2) := by
    apply roundDiv_le hd
    calc n * twoTo (e + 2) ≤ k * d * twoTo (e + 2) := Nat.mul_le_mul_right _ h
      _ = k * twoTo (e + 2) * d := Nat.mul_right_comm k d _
  obtain ⟨hc, hr⟩ | hr := ofRatio_cases negative hn he
  · refine ⟨twoTo 52, e, hr, ?_⟩
    rw [hc, twoTo_succ (e + 1), ← Nat.mul_assoc, Nat.mul_comm] at hm
    exact Nat.le_of_mul_le_mul_right hm (by decide)
  · exact ⟨_, e + 1, hr, hm⟩

theorem ratio_neg (m e : Nat) : ratio m (-(e + 1 : Nat)) = (m, twoTo (e + 1)) := by
  rw [ratio, if_pos (by omega), Int.neg_neg, Int.toNat_natCast]

end Double

namespace Date

/-- The days from 1 January 1 to 31 December 9999 lie in these years. -/
theorem year_ofDays {days : Int} (h : -719162 ≤ days) (h' : days ≤ 2932896) :
    firstYear ≤ (ofDays days).year ∧ (ofDays days).year ≤ lastYear := by
  simp only [ofDays, firstYear, lastYear]
  generalize hera : (days + 719468) / 146097 = era
  generalize hrest : (days + 719468) % 146097 = rest
  have hmost : 0 ≤ era ∧ era ≤ 24 := by omega
  have hr : 0 ≤ rest ∧ rest < 146097 := by omega
  generalize hy : (rest - rest / 1460 + rest / 36524 - rest / 146096) / 365 = year
  have hyear : 0 ≤ year ∧ year ≤ 399 := by omega
  generalize hd : rest - (365 * year + year / 4 - year / 100) = day
  generalize hp : (5 * day + 2) / 153 = part
  constructor
  · by_cases hfirst : era = 0 ∧ year = 0
    · -- the days begin with a January, which the year before counts to itself
      obtain ⟨rfl, rfl⟩ := hfirst
      have hpart : ¬ part < 10 := by omega
      rw [if_neg hpart, if_pos (by omega)]
      decide
    · split <;> omega
  · by_cases hlast : era = 24 ∧ year = 399
    · -- and they end with a December
      obtain ⟨rfl, rfl⟩ := hlast
      have hday : 0 ≤ day ∧ day ≤ 305 := by omega
      have hpart : part < 10 := by omega
      rw [if_pos hpart, if_neg (by omega)]
      decide
    · split <;> omega

end Date

namespace Log.Time

variable {created : Int}

/-- The double of a time is not above a whole number of seconds that bounds the time. -/
theorem exists_seconds {bound : Nat} (hb : bound ≤ twoTo 38)
    (h : created.natAbs ≤ bound * 1000000) :
    ∃ m e, seconds created = .finite (decide (created < 0)) m (-(e + 1 : Nat)) ∧
      m ≤ bound * twoTo (e + 1) := by
  have hlog : created.natAbs.log2 < Nat.log2 1000000 + 51 := by
    have hd : Nat.log2 1000000 = 19 := by decide
    by_cases hz : created.natAbs = 0
    · rw [hz, Nat.log2_zero, hd]
      decide
    · rw [Nat.log2_lt hz, hd]
      calc created.natAbs ≤ twoTo 38 * 1000000 := Nat.le_trans h (Nat.mul_le_mul_right _ hb)
        _ < 2 ^ (19 + 51) := by decide
  exact exists_ofRatio _ (by decide) hlog h

/-- The microseconds of a time, as its double has them, are no more than those of a whole number of
seconds that bounds the time. -/
theorem exists_microseconds {bound : Nat} (hb : bound ≤ twoTo 38)
    (h : created.natAbs ≤ bound * 1000000) :
    ∃ us ≤ bound * 1000000,
      microseconds (seconds created) = if created < 0 then -(us : Int) else us := by
  obtain ⟨m, e, hs, hle⟩ := exists_seconds hb h
  refine ⟨roundDiv (m * 1000000) (twoTo (e + 1)), ?_, ?_⟩
  · apply roundDiv_le (twoTo_pos _)
    calc m * 1000000 ≤ bound * twoTo (e + 1) * 1000000 := Nat.mul_le_mul_right _ hle
      _ = bound * 1000000 * twoTo (e + 1) := Nat.mul_right_comm bound _ _
  · rw [hs]
    simp only [microseconds, ratio_neg, decide_eq_true_eq]
    rfl

/-- The whole seconds are not beyond such a number either. -/
theorem exists_wholeSeconds {bound : Nat} (hb : bound ≤ twoTo 38)
    (h : created.natAbs ≤ bound * 1000000) :
    ∃ n ≤ bound, wholeSeconds (seconds created) = if created < 0 then -(n : Int) else n := by
  obtain ⟨m, e, hs, hle⟩ := exists_seconds hb h
  have hunit := twoTo_pos (e + 1)
  simp only [hs, wholeSeconds, ratio_neg, decide_eq_true_eq]
  split
  · refine ⟨_, ?_, rfl⟩
    apply Nat.lt_succ_iff.1
    rw [Nat.div_lt_iff_lt_mul hunit, Nat.succ_mul]
    omega
  · exact ⟨_, Nat.div_le_of_le_mul (by rwa [Nat.mul_comm]), rfl⟩

def firstSecond : Int := -62135596800

def lastSecond : Int := 253402300799

/-- A time is in the years 1 to 9999, and not within their last second. -/
def HasStamp (created : Int) : Prop :=
  firstSecond * 1000000 ≤ created ∧ created ≤ lastSecond * 1000000

instance (created : Int) : Decidable (HasStamp created) := inferInstanceAs (Decidable (_ ∧ _))

/-- What is not beyond any whole second that bounds such a time is such a time. -/
theorem HasStamp.of_bounds {us : Int} (h : HasStamp created)
    (hus : ∀ bound ≤ twoTo 38, created.natAbs ≤ bound * 1000000 →
      ∃ n ≤ bound * 1000000, us = if created < 0 then -(n : Int) else n) : HasStamp us := by
  rw [HasStamp, firstSecond, lastSecond] at *
  by_cases hc : created < 0
  · have hn : created.natAbs ≤ 62135596800 * 1000000 := by omega
    obtain ⟨n, hle, he⟩ := hus _ (by decide) hn
    rw [he, if_pos hc]
    omega
  · have hn : created.natAbs ≤ 253402300799 * 1000000 := by omega
    obtain ⟨n, hle, he⟩ := hus _ (by decide) hn
    rw [he, if_neg hc]
    omega

/-- What is left of such a time in a double is such a time. -/
theorem HasStamp.rounded (h : HasStamp created) : HasStamp (microseconds (seconds created)) :=
  h.of_bounds fun _ => exists_microseconds

/-- So are its whole seconds. -/
theorem HasStamp.whole (h : HasStamp created) :
    HasStamp (wholeSeconds (seconds created) * microsecondsPerSecond) := by
  refine h.of_bounds fun bound hb hle => ?_
  obtain ⟨n, hn, he⟩ := exists_wholeSeconds hb hle
  refine ⟨n * 1000000, Nat.mul_le_mul_right _ hn, ?_⟩
  rw [he, microsecondsPerSecond]
  split <;> omega

theorem fits_iff {bits : Nat} {n : Int} :
    fits bits n = true ↔ -(twoTo (bits - 1) : Int) ≤ n ∧ n < (twoTo (bits - 1) : Int) := by
  rw [fits, Bool.and_eq_true, decide_eq_true_eq, decide_eq_true_eq]

theorem year_ofMicroseconds {us : Int}
    (h : firstSecond * 1000000 ≤ us ∧ us < (lastSecond + 1) * 1000000) :
    1 ≤ (DateTime.ofMicroseconds us).date.year ∧ (DateTime.ofMicroseconds us).date.year ≤ 9999 := by
  rw [firstSecond, lastSecond] at h
  have hdays : -719162 ≤ us / 1000000 / 86400 ∧ us / 1000000 / 86400 ≤ 2932896 := by omega
  exact Date.year_ofDays hdays.1 hdays.2

/-- The instants of the years 1 to 9999 have a date and time. -/
theorem instant_eq_ok {us : Int}
    (h : firstSecond * 1000000 ≤ us ∧ us < (lastSecond + 1) * 1000000) :
    instant us = .ok (DateTime.ofMicroseconds us) := by
  have hyear := year_ofMicroseconds h
  rw [firstSecond, lastSecond] at h
  have hsize : fits 64 (us / microsecondsPerSecond) = true := by
    have ht : twoTo 63 = 9223372036854775808 := by decide
    rw [fits_iff, ht, microsecondsPerSecond]
    omega
  have hspan : fits 32 ((DateTime.ofMicroseconds us).date.year - 1900) = true := by
    have ht : twoTo 31 = 2147483648 := by decide
    rw [fits_iff, ht]
    omega
  simp only [instant, hsize, hspan, Bool.not_true, Bool.false_eq_true, ↓reduceIte]

theorem HasStamp.year {us : Int} (h : HasStamp us) :
    1 ≤ (DateTime.ofMicroseconds us).date.year ∧ (DateTime.ofMicroseconds us).date.year ≤ 9999 := by
  rw [HasStamp] at h
  exact year_ofMicroseconds (by omega)

theorem HasStamp.instant {us : Int} (h : HasStamp us) :
    Time.instant us = .ok (DateTime.ofMicroseconds us) := by
  rw [HasStamp] at h
  exact instant_eq_ok (by omega)

theorem exists_clock (h : HasStamp created) : ∃ t, clock created = .ok t := by
  have hyear := h.whole.year
  have hfits : fits 32 (DateTime.ofMicroseconds
      (wholeSeconds (seconds created) * microsecondsPerSecond)).date.year = true := by
    have ht : twoTo 31 = 2147483648 := by decide
    rw [fits_iff, ht]
    omega
  rw [clock, h.whole.instant]
  exact ⟨_, if_pos hfits⟩

theorem exists_stamp (h : HasStamp created) : ∃ t, stamp created = .ok t := by
  have hyear := h.rounded.year
  rw [stamp, h.rounded.instant]
  refine ⟨_, if_neg ?_⟩
  rw [Date.firstYear, Date.lastYear]
  omega

end Log.Time

end KeywordSieve
