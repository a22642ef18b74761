import Mathlib.Data.Int.Basic

/-! The Gregorian calendar, before and after its introduction, and the days since the first of
January 1970.  Years are counted from March inside, so that a leap day is the last day of one. -/

namespace MysqlConnectPool.Library.Calendar

def daysBefore (year : Int) : Int := 365 * year + year / 4 - year / 100 + year / 400

def yearOf (n : Int) : Int :=
  let year := 400 * n / 146097
  if daysBefore (year + 1) ≤ n then year + 1 else year

structure Date where
  year : Int
  month : Int
  day : Int
  deriving DecidableEq

/-- The days from the first of January 1970 to a date.  A month or a day too many runs on into the
next year or month. -/
def Date.dayNumber (date : Date) : Int :=
  let months := 12 * date.year + (date.month - 3)
  daysBefore (months / 12) + (153 * (months % 12) + 2) / 5 + (date.day - 1) - 719468

def Date.ofDayNumber (n : Int) : Date :=
  let year := yearOf (n + 719468)
  let day := n + 719468 - daysBefore year
  let month := (5 * day + 2) / 153
  { year := year + (month + 2) / 12
    month := (month + 2) % 12 + 1
    day := day - (153 * month + 2) / 5 + 1 }

theorem daysBefore_yearOf (n : Int) :
    daysBefore (yearOf n) ≤ n ∧ n < daysBefore (yearOf n + 1) := by
  simp only [yearOf]
  split
  · next h =>
    refine ⟨h, ?_⟩
    simp only [daysBefore] at h ⊢
    omega
  · next h =>
    refine ⟨?_, by omega⟩
    simp only [daysBefore]
    omega

theorem daysBefore_succ (year : Int) : daysBefore (year + 1) ≤ daysBefore year + 366 := by
  simp only [daysBefore]
  omega

theorem daysBefore_mono {year year' : Int} (h : year ≤ year') : daysBefore year ≤ daysBefore year' := by
  simp only [daysBefore]
  omega

theorem day_of_year (n : Int) :
    0 ≤ n - daysBefore (yearOf n) ∧ n - daysBefore (yearOf n) ≤ 365 := by
  have h := daysBefore_yearOf n
  have hsucc := daysBefore_succ (yearOf n)
  omega

namespace Date

theorem month_ofDayNumber (n : Int) : 1 ≤ (ofDayNumber n).month ∧ (ofDayNumber n).month ≤ 12 := by
  simp only [ofDayNumber]
  omega

theorem day_ofDayNumber (n : Int) : 1 ≤ (ofDayNumber n).day ∧ (ofDayNumber n).day ≤ 31 := by
  have h := day_of_year (n + 719468)
  simp only [ofDayNumber]
  omega

theorem dayNumber_ofDayNumber (n : Int) : (ofDayNumber n).dayNumber = n := by
  have h := day_of_year (n + 719468)
  simp only [ofDayNumber, dayNumber]
  generalize yearOf (n + 719468) = year at h ⊢
  generalize hday : n + 719468 - daysBefore year = day at h ⊢
  have hmonths : 12 * (year + ((5 * day + 2) / 153 + 2) / 12) +
      (((5 * day + 2) / 153 + 2) % 12 + 1 - 3) = 12 * year + (5 * day + 2) / 153 := by omega
  have hmonth : 0 ≤ (5 * day + 2) / 153 ∧ (5 * day + 2) / 153 < 12 := by omega
  rw [hmonths, show (12 * year + (5 * day + 2) / 153) / 12 = year by omega,
    show (12 * year + (5 * day + 2) / 153) % 12 = (5 * day + 2) / 153 by omega]
  omega

example : ofDayNumber 11016 = ⟨2000, 2, 29⟩ := by decide

theorem year_ofDayNumber {n : Int} (year₁ year₂ : Int) (h₁ : daysBefore year₁ ≤ n + 719468)
    (h₂ : n + 719468 < daysBefore year₂) :
    year₁ ≤ (ofDayNumber n).year ∧ (ofDayNumber n).year ≤ year₂ := by
  have h := daysBefore_yearOf (n + 719468)
  have hday := day_of_year (n + 719468)
  have hyear : year₁ ≤ yearOf (n + 719468) ∧ yearOf (n + 719468) < year₂ := by
    generalize yearOf (n + 719468) = year at h
    simp only [daysBefore] at h h₁ h₂
    omega
  simp only [ofDayNumber]
  omega

theorem yearOf_le {m n : Int} (h : m ≤ n) : yearOf m ≤ yearOf n := by
  have hm := daysBefore_yearOf m
  have hn := daysBefore_yearOf n
  by_contra hlt
  have hyear := daysBefore_mono (show yearOf n + 1 ≤ yearOf m by omega)
  omega

theorem month_lt {year year' month month' : Int} (h : 12 * year + month < 12 * year' + month') :
    year + (month + 2) / 12 < year' + (month' + 2) / 12 ∨
      year + (month + 2) / 12 = year' + (month' + 2) / 12 ∧
        (month + 2) % 12 + 1 < (month' + 2) % 12 + 1 := by
  omega

theorem fields_ofDayNumber_lt {m n : Int} (h : m < n) :
    [(ofDayNumber m).year, (ofDayNumber m).month, (ofDayNumber m).day] <
      [(ofDayNumber n).year, (ofDayNumber n).month, (ofDayNumber n).day] := by
  have hyear := yearOf_le (m := m + 719468) (n := n + 719468) (by omega)
  have hm := day_of_year (m + 719468)
  have hn := day_of_year (n + 719468)
  simp only [ofDayNumber, List.cons_lt_cons_iff, List.not_lt_nil, and_false, or_false]
  rcases Int.lt_or_eq_of_le hyear with hyear | hyear
  · have hmonth := @month_lt (yearOf (m + 719468)) (yearOf (n + 719468))
      ((5 * (m + 719468 - daysBefore (yearOf (m + 719468))) + 2) / 153)
      ((5 * (n + 719468 - daysBefore (yearOf (n + 719468))) + 2) / 153) (by omega)
    exact hmonth.imp_right fun hsame => ⟨hsame.1, .inl hsame.2⟩
  · rw [← hyear] at hn ⊢
    generalize daysBefore (yearOf (m + 719468)) = first at *
    rcases Int.lt_or_eq_of_le (show (5 * (m + 719468 - first) + 2) / 153 ≤
      (5 * (n + 719468 - first) + 2) / 153 by omega) with hmonth | hmonth
    · exact (month_lt (by omega)).imp_right fun hsame => ⟨hsame.1, .inl hsame.2⟩
    · rw [hmonth]
      exact .inr ⟨rfl, .inr ⟨rfl, by omega⟩⟩

end Date

end MysqlConnectPool.Library.Calendar
