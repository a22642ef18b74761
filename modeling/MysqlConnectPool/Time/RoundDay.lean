import MysqlConnectPool.Time.ZoneHistory

/-! Rounding to the day, in a zone with daylight saving. -/

namespace MysqlConnectPool

open Library Library.Calendar

/-- A zone with these offsets and flags.  `flagOffset` is the offset that `mktime` takes for a local
time with a flag. -/
structure Zone.Honours (zone : Zone) (offset : Int → Offset) (dst : Int → Bool)
    (flagOffset : Bool → Int → Offset) : Prop where
  localtime (t : Int) : Tm.inYear (t + (offset t).seconds) →
    zone.localtime t = Tm.ofSeconds (if dst t then 1 else 0) (t + (offset t).seconds)
  mktime (t : Tm) : 0 ≤ t.tm_isdst → Tm.inYear t.seconds →
    zone.mktime t = t.seconds - (flagOffset (0 < t.tm_isdst) t.seconds).seconds

def localSeconds (offset : Int → Offset) (t : Int) : Int := t + (offset t).seconds

def midnightOf (offset : Int → Offset) (t : Int) : Int :=
  localSeconds offset t - localSeconds offset t % 86400

/-- An instant not after `t` shows the midnight of the day of `t`, at the offset that `mktime` takes
for the flag of `t` and for its own. -/
def ReachesMidnight (offset : Int → Offset) (dst : Int → Bool) (flagOffset : Bool → Int → Offset)
    (t : Int) : Prop :=
  ∃ u ≤ t, localSeconds offset u = midnightOf offset t ∧
    (offset u).seconds = (flagOffset (dst t) (midnightOf offset t)).seconds ∧
    (offset u).seconds = (flagOffset (dst u) (midnightOf offset t)).seconds

namespace Tm

def SameDate (t t' : Tm) : Prop :=
  t.tm_year = t'.tm_year ∧ t.tm_mon = t'.tm_mon ∧ t.tm_mday = t'.tm_mday

def AtMidnight (t : Tm) : Prop := t.tm_hour = 0 ∧ t.tm_min = 0 ∧ t.tm_sec = 0

theorem inYear_of_lt {n : Int} (h : -2 ^ 44 ≤ n ∧ n < 2 ^ 44) : inYear n := by
  have hyear := @Date.year_ofDayNumber (n / 86400) (-2 ^ 20) (2 ^ 20)
    (by simp only [daysBefore]; omega) (by simp only [daysBefore]; omega)
  rw [inYear]
  simp only [ofSeconds]
  omega

theorem sameDate_ofSeconds (isdst isdst' m n : Int) :
    SameDate (ofSeconds isdst m) (ofSeconds isdst' n) ↔ m / 86400 = n / 86400 := by
  constructor
  · rintro ⟨hyear, hmonth, hday⟩
    simp only [ofSeconds] at hyear hmonth hday
    rw [← Date.dayNumber_ofDayNumber (m / 86400), ← Date.dayNumber_ofDayNumber (n / 86400),
      Date.dayNumber, Date.dayNumber, show (Date.ofDayNumber (m / 86400)).year =
        (Date.ofDayNumber (n / 86400)).year by omega, show (Date.ofDayNumber (m / 86400)).month =
        (Date.ofDayNumber (n / 86400)).month by omega, hday]
  · intro h
    simp only [SameDate, ofSeconds, h, and_self]

theorem atMidnight_ofSeconds (isdst n : Int) : (ofSeconds isdst n).AtMidnight ↔ n % 86400 = 0 := by
  simp only [AtMidnight, ofSeconds]
  omega

end Tm

namespace DateTime

structure RoundsToMidnight (zone : Zone) (d : DateTime) : Prop where
  date : Tm.SameDate (zone.localtime (d.roundDay zone).secondsSinceEpoch)
    (zone.localtime d.secondsSinceEpoch)
  time : (zone.localtime (d.roundDay zone).secondsSinceEpoch).AtMidnight
  microseconds : (d.roundDay zone).microSecondsSinceEpoch % 1000000 = 0
  le : (d.roundDay zone).microSecondsSinceEpoch ≤ d.microSecondsSinceEpoch
  idempotent : (d.roundDay zone).roundDay zone = d.roundDay zone

theorem midnight_inRange (offset : Int → Offset) (flagOffset : Bool → Int → Offset) (t : Int)
    (flag : Bool) :
    t - 2 ^ 33 ≤ midnightOf offset t - (flagOffset flag (midnightOf offset t)).seconds ∧
      midnightOf offset t - (flagOffset flag (midnightOf offset t)).seconds ≤ t + 2 ^ 32 := by
  have hoffset := (offset t).inRange
  have hflag := (flagOffset flag (midnightOf offset t)).inRange
  have hmidnight : midnightOf offset t = localSeconds offset t - localSeconds offset t % 86400 :=
    rfl
  have hlocal : localSeconds offset t = t + (offset t).seconds := rfl
  omega

theorem wrap64_whole {r : Int} (hr : -2 ^ 36 ≤ r ∧ r < 2 ^ 44)
    (h : wrap64 (r * 1000000) % 1000000 = 0) : wrap64 (r * 1000000) = r * 1000000 := by
  have hcut : wrap64 (r * 1000000) = r * 1000000 ∨
      wrap64 (r * 1000000) = r * 1000000 - 2 ^ 64 := by
    rw [wrap64]
    omega
  rcases hcut with hself | hcut
  · exact hself
  · rw [hcut] at h
    omega

theorem secondsSinceEpoch_of_micro {d : DateTime} {t : Int}
    (h : d.microSecondsSinceEpoch = t * 1000000) : d.secondsSinceEpoch = t := by
  rw [secondsSinceEpoch, h]
  exact Int.mul_tdiv_cancel t (by decide)

theorem secondsSinceEpoch_lt (d : DateTime) : d.secondsSinceEpoch < 2 ^ 44 - 2 ^ 32 := by
  have hsplit := seconds_micros d.microSecondsSinceEpoch
  have hrange := d.inRange
  rw [secondsSinceEpoch]
  omega

section Zone

variable {zone : Zone} {offset : Int → Offset} {dst : Int → Bool}
  {flagOffset : Bool → Int → Offset} (hzone : zone.Honours offset dst flagOffset)

include hzone

theorem localtime_honours (d : DateTime) :
    zone.localtime d.secondsSinceEpoch =
      Tm.ofSeconds (if dst d.secondsSinceEpoch then 1 else 0)
        (localSeconds offset d.secondsSinceEpoch) := by
  have hrange := d.inRange
  have hoffset := (offset d.secondsSinceEpoch).inRange
  have hsplit := seconds_micros d.microSecondsSinceEpoch
  refine hzone.localtime _ (Tm.inYear_of_lt ?_)
  rw [secondsSinceEpoch] at hoffset ⊢
  omega

theorem roundDay_honours (d : DateTime) :
    d.roundDay zone = ofMicroSeconds ((midnightOf offset d.secondsSinceEpoch -
      (flagOffset (dst d.secondsSinceEpoch)
        (midnightOf offset d.secondsSinceEpoch)).seconds) * 1000000) := by
  have hrange := d.inRange
  have hoffset := (offset d.secondsSinceEpoch).inRange
  have hsplit := seconds_micros d.microSecondsSinceEpoch
  have hseconds := Tm.seconds_midnight (if dst d.secondsSinceEpoch then 1 else 0)
    (localSeconds offset d.secondsSinceEpoch)
  have hisdst : decide (0 < (if dst d.secondsSinceEpoch then 1 else 0 : Int)) =
      dst d.secondsSinceEpoch := by
    cases dst d.secondsSinceEpoch <;> rfl
  rw [roundDay]
  change ofMicroSeconds (zone.mktime { zone.localtime d.secondsSinceEpoch with
    tm_hour := 0, tm_min := 0, tm_sec := 0 } * 1000000) = _
  rw [localtime_honours hzone, hzone.mktime, hseconds]
  · change ofMicroSeconds ((midnightOf offset d.secondsSinceEpoch -
      (flagOffset (decide (0 < (if dst d.secondsSinceEpoch then 1 else 0 : Int)))
        (midnightOf offset d.secondsSinceEpoch)).seconds) * 1000000) = _
    rw [hisdst]
  · change 0 ≤ (if dst d.secondsSinceEpoch then 1 else 0 : Int)
    split <;> decide
  · rw [hseconds]
    refine Tm.inYear_of_lt ?_
    rw [localSeconds, secondsSinceEpoch] at *
    omega

theorem roundsToMidnight_iff_local (d : DateTime) :
    d.RoundsToMidnight zone ↔
      localSeconds offset (d.roundDay zone).secondsSinceEpoch =
          midnightOf offset d.secondsSinceEpoch ∧
        (d.roundDay zone).microSecondsSinceEpoch % 1000000 = 0 ∧
        (d.roundDay zone).microSecondsSinceEpoch ≤ d.microSecondsSinceEpoch ∧
        (d.roundDay zone).roundDay zone = d.roundDay zone := by
  constructor
  · rintro ⟨hdate, htime, hmicro, hle, hround⟩
    rw [localtime_honours hzone, localtime_honours hzone, Tm.sameDate_ofSeconds] at hdate
    rw [localtime_honours hzone, Tm.atMidnight_ofSeconds] at htime
    refine ⟨?_, hmicro, hle, hround⟩
    rw [midnightOf]
    omega
  · rintro ⟨hlocal, hmicro, hle, hround⟩
    rw [midnightOf] at hlocal
    refine ⟨?_, ?_, hmicro, hle, hround⟩
    · rw [localtime_honours hzone, localtime_honours hzone, Tm.sameDate_ofSeconds]
      omega
    · rw [localtime_honours hzone, Tm.atMidnight_ofSeconds]
      omega

theorem roundDay_micro {d : DateTime} (ht : -2 ^ 35 ≤ d.secondsSinceEpoch)
    (hmicro : (d.roundDay zone).microSecondsSinceEpoch % 1000000 = 0) :
    (d.roundDay zone).microSecondsSinceEpoch = (midnightOf offset d.secondsSinceEpoch -
      (flagOffset (dst d.secondsSinceEpoch)
        (midnightOf offset d.secondsSinceEpoch)).seconds) * 1000000 := by
  have hrange := midnight_inRange offset flagOffset d.secondsSinceEpoch (dst d.secondsSinceEpoch)
  have hlt := d.secondsSinceEpoch_lt
  rw [roundDay_honours hzone] at hmicro ⊢
  exact wrap64_whole (by omega) hmicro

/-- `roundDay` gives local midnight exactly where midnight was reached at the offset that the flag
of the point stands for. -/
theorem roundDay_iff (d : DateTime) (h0 : 0 ≤ d.microSecondsSinceEpoch) :
    d.RoundsToMidnight zone ↔ ReachesMidnight offset dst flagOffset d.secondsSinceEpoch := by
  rw [roundsToMidnight_iff_local hzone]
  have hsplit := seconds_micros d.microSecondsSinceEpoch
  have hseconds : d.secondsSinceEpoch = d.microSecondsSinceEpoch.tdiv 1000000 := rfl
  have hlt := d.secondsSinceEpoch_lt
  have hrange := midnight_inRange offset flagOffset d.secondsSinceEpoch (dst d.secondsSinceEpoch)
  constructor
  · rintro ⟨hlocal, hmicro, hle, hround⟩
    have he := roundDay_micro hzone (by omega) hmicro
    have hu := secondsSinceEpoch_of_micro he
    -- The second rounding begins at the same midnight, with the flag of the first result.
    have he' := roundDay_micro hzone (d := d.roundDay zone) (by omega) (by rw [hround, hmicro])
    have hmidnight : midnightOf offset (d.roundDay zone).secondsSinceEpoch =
        midnightOf offset d.secondsSinceEpoch := by
      rw [midnightOf, hlocal, midnightOf]
      omega
    rw [hround, hmidnight, he] at he'
    refine ⟨(d.roundDay zone).secondsSinceEpoch, by omega, hlocal, ?_, ?_⟩
    · rw [localSeconds] at hlocal
      omega
    · rw [localSeconds] at hlocal
      omega
  · rintro ⟨u, hle, hlocal, hflag, hown⟩
    have hlocal' := hlocal
    rw [localSeconds] at hlocal'
    have hu : midnightOf offset d.secondsSinceEpoch -
        (flagOffset (dst d.secondsSinceEpoch)
          (midnightOf offset d.secondsSinceEpoch)).seconds = u := by omega
    have hmidnight : midnightOf offset u = midnightOf offset d.secondsSinceEpoch := by
      rw [midnightOf, hlocal, midnightOf]
      omega
    have he : (d.roundDay zone).microSecondsSinceEpoch = u * 1000000 := by
      rw [roundDay_honours hzone, hu, ofMicroSeconds_micro (by have := d.inRange; omega)]
    have hsecond := secondsSinceEpoch_of_micro he
    refine ⟨by rw [hsecond, hlocal], by omega, by omega, ?_⟩
    have hu' : midnightOf offset d.secondsSinceEpoch -
        (flagOffset (dst u) (midnightOf offset d.secondsSinceEpoch)).seconds = u := by omega
    rw [roundDay_honours hzone (d.roundDay zone), hsecond, hmidnight, hu', roundDay_honours hzone, hu]

end Zone

theorem reachesMidnight_iff {offset : Int → Offset} {dst : Int → Bool} {flagOffset : Bool → Offset}
    (hflag : ∀ t, offset t = flagOffset (dst t)) (t : Int) :
    ReachesMidnight offset dst (fun flag _ => flagOffset flag) t ↔
      (offset (midnightOf offset t - (offset t).seconds)).seconds = (offset t).seconds := by
  rw [ReachesMidnight]
  simp only [← hflag, and_true]
  have hmidnight : midnightOf offset t = localSeconds offset t - localSeconds offset t % 86400 :=
    rfl
  constructor
  · rintro ⟨u, -, hlocal, hoffset⟩
    rw [localSeconds] at hlocal
    rw [show midnightOf offset t - (offset t).seconds = u by omega, hoffset]
  · intro h
    have hlocal : localSeconds offset t = t + (offset t).seconds := rfl
    refine ⟨_, ?_, ?_, h⟩
    · omega
    · rw [localSeconds, h]
      omega

def summerFlag (t : Int) : Bool := 1000000 ≤ t

def flagHour (flag : Bool) : Offset := if flag then oneHour else utc

def daylight : Zone where
  localtime t := Tm.ofSeconds (if summerFlag t then 1 else 0) (t + (flagHour (summerFlag t)).seconds)
  mktime t := t.seconds - (flagHour (0 < t.tm_isdst)).seconds

theorem daylight_honours :
    daylight.Honours (fun t => flagHour (summerFlag t)) summerFlag (fun flag _ => flagHour flag) where
  localtime _ _ := rfl
  mktime _ _ _ := rfl

def dayAfter : DateTime := ⟨1040400000000, by decide⟩

theorem roundDay_iff_dayAfter : dayAfter.RoundsToMidnight daylight :=
  (roundDay_iff daylight_honours dayAfter (by decide)).mpr
    ((reachesMidnight_iff (fun _ => rfl) _).mpr (by decide))

def dayOfChange : DateTime := ⟨1001000000000, by decide⟩

/-- Every day has its midnight, but this one is rounded to an hour before. -/
theorem roundDay_dayOfChange :
    (∀ day : Int, ∃ u, u + (flagHour (summerFlag u)).seconds = 86400 * day) ∧
      daylight.localtime (dayOfChange.roundDay daylight).secondsSinceEpoch =
        { tm_sec := 0, tm_min := 0, tm_hour := 23, tm_mday := 11, tm_mon := 0, tm_year := 70,
          tm_isdst := 0 } ∧
      ¬ dayOfChange.RoundsToMidnight daylight := by
  refine ⟨fun day => ?_, by decide, fun h => ?_⟩
  · by_cases hday : 86400 * day < 1000000
    · refine ⟨86400 * day, ?_⟩
      rw [flagHour, summerFlag, decide_eq_false (by omega), if_neg Bool.false_ne_true]
      exact Int.add_zero _
    · refine ⟨86400 * day - 3600, ?_⟩
      rw [flagHour, summerFlag, decide_eq_true (by omega), if_pos rfl]
      exact Int.sub_add_cancel _ 3600
  · have hhour := h.time.1
    exact absurd hhour (by decide)

end DateTime

end MysqlConnectPool
