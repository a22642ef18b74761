import MysqlConnectPool.Time.DbStringText

/-! Database strings in a zone with a fixed offset. -/

namespace MysqlConnectPool

open Library Library.Calendar Library.Double Library.Numeral utils

theorem Tm.seconds_ofSeconds (isdst n : Int) : (Tm.ofSeconds isdst n).seconds = n := by
  have hdate : (Date.mk ((Tm.ofSeconds isdst n).tm_year + 1900)
      ((Tm.ofSeconds isdst n).tm_mon + 1) (Tm.ofSeconds isdst n).tm_mday).dayNumber = n / 86400 := by
    simpa [Tm.ofSeconds] using Date.dayNumber_ofDayNumber (n / 86400)
  rw [Tm.seconds, hdate]
  simp only [Tm.ofSeconds]
  omega

theorem Tm.seconds_midnight (isdst n : Int) :
    { Tm.ofSeconds isdst n with tm_hour := 0, tm_min := 0, tm_sec := 0 : Tm }.seconds =
      n - n % 86400 := by
  have h := Tm.seconds_ofSeconds isdst n
  simp only [Tm.seconds, Tm.ofSeconds] at h ⊢
  omega

theorem Tm.printable_ofSeconds (isdst : Int) {n : Int} (h : -2 ^ 33 ≤ n ∧ n < 2 ^ 35) :
    DateTime.Printable (Tm.ofSeconds isdst n) := by
  have hyear := @Date.year_ofDayNumber (n / 86400) 1600 3100
    (by simp only [daysBefore]; omega) (by simp only [daysBefore]; omega)
  have hmonth := Date.month_ofDayNumber (n / 86400)
  have hday := Date.day_ofDayNumber (n / 86400)
  constructor <;> simp only [Tm.ofSeconds] <;> omega

/-- The offset of a zone, in seconds ahead of UTC; zone files keep it in 32 bits. -/
structure Offset where
  seconds : Int
  inRange : -2 ^ 31 ≤ seconds ∧ seconds < 2 ^ 31

def Offset.zone (z : Offset) : Zone where
  localtime t := Tm.ofSeconds 0 (t + z.seconds)
  mktime t :=
    let year := (Tm.ofSeconds 0 t.seconds).tm_year
    if -2 ^ 31 ≤ year ∧ year < 2 ^ 31 then t.seconds - z.seconds else -1

theorem Offset.mktime_eq (z : Offset) {t : Tm}
    (h : -2 ^ 31 ≤ (Tm.ofSeconds 0 t.seconds).tm_year ∧
      (Tm.ofSeconds 0 t.seconds).tm_year < 2 ^ 31) :
    z.zone.mktime t = t.seconds - z.seconds :=
  if_pos h

theorem Offset.mktime_localtime (z : Offset) (isdst : Int) {t : Int}
    (h : DateTime.Printable (z.zone.localtime t)) :
    z.zone.mktime { z.zone.localtime t with tm_isdst := isdst } = t := by
  have hyear : 1000 ≤ (Tm.ofSeconds 0 (t + z.seconds)).tm_year + 1900 ∧
      (Tm.ofSeconds 0 (t + z.seconds)).tm_year + 1900 ≤ 9999 := h.year
  have hseconds : { z.zone.localtime t with tm_isdst := isdst : Tm }.seconds = t + z.seconds :=
    Tm.seconds_ofSeconds 0 (t + z.seconds)
  rw [z.mktime_eq, hseconds, Int.add_sub_cancel]
  rw [hseconds]
  omega

theorem Offset.mktime_midnight (z : Offset) {t : Int}
    (h : DateTime.Printable (z.zone.localtime t)) :
    z.zone.mktime { z.zone.localtime t with tm_hour := 0, tm_min := 0, tm_sec := 0 } =
      t - (t + z.seconds) % 86400 := by
  have hyear := h.year
  have hmidnight : { z.zone.localtime t with tm_hour := 0, tm_min := 0, tm_sec := 0 : Tm }.seconds =
      t + z.seconds - (t + z.seconds) % 86400 :=
    Tm.seconds_midnight 0 (t + z.seconds)
  have hsame : (Tm.ofSeconds 0 (t + z.seconds - (t + z.seconds) % 86400)).tm_year =
      (z.zone.localtime t).tm_year := by
    simp only [Offset.zone, Tm.ofSeconds]
    congr 3
    omega
  rw [z.mktime_eq, hmidnight]
  · omega
  · rw [hmidnight, hsame]
    omega

namespace DateTime

variable (z : Offset) (d : DateTime)

theorem seconds_micros (n : Int) :
    1000000 * n.tdiv 1000000 + n.tmod 1000000 = n ∧ n.tmod 1000000 < 1000000 ∧
      -1000000 < n.tmod 1000000 ∧ (0 ≤ n → 0 ≤ n.tmod 1000000) ∧
      (n ≤ 0 → n.tmod 1000000 ≤ 0) := by
  refine ⟨Int.mul_tdiv_add_tmod n 1000000, Int.tmod_lt_of_pos n (by decide),
    Int.lt_tmod_of_pos n (by decide), Int.tmod_nonneg 1000000, fun hn => ?_⟩
  have hneg := Int.tmod_nonneg (a := -n) 1000000 (by omega)
  rw [Int.neg_tmod] at hneg
  omega

def atMidnight : Prop :=
  d.microSecondsSinceEpoch.tmod 1000000 = 0 ∧
    (d.microSecondsSinceEpoch.tdiv 1000000 + z.seconds) % 86400 = 0

def inYears : Prop :=
  -2 ^ 31 ≤ d.microSecondsSinceEpoch.tdiv 1000000 + z.seconds ∧
    d.microSecondsSinceEpoch.tdiv 1000000 + z.seconds < 2 ^ 33 + 2 ^ 32

theorem ofFields_zero :
    ofFields z.zone 0 0 0 0 0 0 0 =
      ofMicroSeconds ((-62169984000 - z.seconds) * 1000000) := by
  have hmktime : z.zone.mktime
      { tm_sec := 0, tm_min := 0, tm_hour := 0, tm_mday := 0, tm_mon := -1, tm_year := -1900
        tm_isdst := -1 } = -62169984000 - z.seconds :=
    z.mktime_eq (by decide)
  rw [ofFields, Int.add_zero]
  exact congrArg (fun t => ofMicroSeconds (t * 1000000)) hmktime

section Local

variable {z d} (hyears : d.inYears z)
include hyears

theorem inYears.printable :
    Printable (z.zone.localtime (d.microSecondsSinceEpoch.tdiv 1000000)) := by
  rw [inYears] at hyears
  exact Tm.printable_ofSeconds 0 (by omega)

theorem eq_roundDay_iff (hmicro : d.microSecondsSinceEpoch.tmod 1000000 = 0) :
    d = d.roundDay z.zone ↔ d.atMidnight z := by
  have hz := z.inRange
  have hsplit := seconds_micros d.microSecondsSinceEpoch
  have hmidnight := z.mktime_midnight hyears.printable
  rw [inYears] at hyears
  simp only [roundDay]
  rw [hmidnight, atMidnight, and_iff_right hmicro,
    DateTime.ext_iff, ofMicroSeconds_micro (by omega)]
  omega

theorem fromDbStringLocal_midnight (h : d.atMidnight z) :
    fromDbStringLocal z.zone (d.toDbStringLocal z.zone) =
      .ok (ofMicroSeconds ((-62169984000 - z.seconds) * 1000000)) := by
  rw [toDbStringLocal, if_neg (not_not_intro h.1),
    if_pos ((eq_roundDay_iff hyears h.1).mpr h), fromDbStringLocal_dateText hyears.printable,
    ofFields_zero]

theorem fromDbStringLocal_exact (hmidnight : ¬d.atMidnight z)
    (hmicro : 0 ≤ d.microSecondsSinceEpoch.tmod 1000000) :
    fromDbStringLocal z.zone (d.toDbStringLocal z.zone) = .ok d := by
  have hprintable := hyears.printable
  have hmktime := z.mktime_localtime (-1) hprintable
  have hsplit := seconds_micros d.microSecondsSinceEpoch
  have hrange := d.inRange
  rw [toDbStringLocal]
  split
  · have hfraction :=
      field_zeroPadded (n := d.microSecondsSinceEpoch.tmod 1000000) 6 ⟨hmicro, by omega⟩
    have hsix : sixDigits (zeroPadded 6 (d.microSecondsSinceEpoch.tmod 1000000)) =
        zeroPadded 6 (d.microSecondsSinceEpoch.tmod 1000000) := by
      have hlength := @length_zeroPadded _ 6 hmicro (by omega) (by decide)
      rw [sixDigits, if_neg (by omega), if_neg (by omega)]
    rw [fromDbStringLocal_fraction hprintable z.zone hfraction.digits.1 (hfraction.notMem rfl)
      (hfraction.notMem rfl) (hfraction.notMem rfl), hsix, hfraction.read, hmktime]
    refine congrArg Except.ok (DateTime.ext ?_)
    rw [ofMicroSeconds_micro (by omega)]
    omega
  · next hwhole =>
    have hzero : d.microSecondsSinceEpoch.tmod 1000000 = 0 := not_not.mp hwhole
    rw [if_neg (mt (eq_roundDay_iff hyears hzero).mp hmidnight),
      fromDbStringLocal_date_time hprintable z.zone, hmktime]
    refine congrArg Except.ok (DateTime.ext ?_)
    rw [ofMicroSeconds_micro (by omega)]
    omega

theorem fromDbStringLocal_negative (hmicro : d.microSecondsSinceEpoch.tmod 1000000 < 0)
    {e : DateTime} (he : fromDbStringLocal z.zone (d.toDbStringLocal z.zone) = .ok e) :
    ∃ u, 0 ≤ u ∧ u < 2 ^ 32 ∧
      e.microSecondsSinceEpoch = d.microSecondsSinceEpoch.tdiv 1000000 * 1000000 + u := by
  have hprintable := hyears.printable
  have hz := z.inRange
  have hsplit := seconds_micros d.microSecondsSinceEpoch
  rw [inYears] at hyears
  rw [toDbStringLocal, if_pos hmicro.ne, fromDbStringLocal_fraction hprintable z.zone
    (zeroPadded_ne_nil _ _) (notMem_zeroPadded _ _ rfl (by decide))
    (notMem_zeroPadded _ _ rfl (by decide)) (notMem_zeroPadded _ _ rfl (by decide)),
    z.mktime_localtime (-1) hprintable] at he
  cases hu : readUnsigned (sixDigits (zeroPadded 6 (d.microSecondsSinceEpoch.tmod 1000000))) with
  | error f => rw [hu] at he; cases he
  | ok u =>
    have hurange := readUnsigned_range hu
    rw [hu] at he
    rw [← Except.ok.inj he, ofMicroSeconds_micro (by omega)]
    exact ⟨u, hurange.1, hurange.2, rfl⟩

end Local

theorem timezoneOffset_eq : timezoneOffset z.zone = .ok z.seconds := by
  have hz := z.inRange
  have hprintable : Printable (z.zone.localtime (172800 - z.seconds)) :=
    Tm.printable_ofSeconds 0 (by omega)
  have htext : "1970-01-03 00:00:00".toList =
      dateText (z.zone.localtime (172800 - z.seconds)) ++
        ' ' :: timeText (z.zone.localtime (172800 - z.seconds)) := by
    simp only [Offset.zone, Int.sub_add_cancel]
    decide
  rw [timezoneOffset, htext, fromDbStringLocal_date_time hprintable,
    z.mktime_localtime (-1) hprintable]
  simp only [bind, Except.bind, secondsSinceEpoch]
  rw [ofMicroSeconds_micro (by omega), Int.mul_tdiv_cancel _ (by decide)]
  exact congrArg Except.ok (by omega)

theorem fromDbString_toDbString :
    (toDbString z.zone d >>= fromDbString z.zone) =
      (fromDbStringLocal z.zone ((d.after (-z.seconds)).toDbStringLocal z.zone)).map
        (after · z.seconds) := by
  have hz := z.inRange
  simp only [toDbString, fromDbString, timezoneOffset_eq, bind, Except.bind, pure, Except.pure]
  rw [toDouble_eq_self (by omega), toDouble_eq_self (by omega)]
  cases fromDbStringLocal z.zone ((d.after (-z.seconds)).toDbStringLocal z.zone) <;> rfl

theorem after_eq {seconds : Int} (hs : -2 ^ 31 ≤ seconds ∧ seconds ≤ 2 ^ 31) :
    d.after seconds =
      ofMicroSeconds (toDouble (toDouble d.microSecondsSinceEpoch + seconds * 1000000)) := by
  rw [after, toDouble_eq_self (n := 1000000) (by decide),
    toDouble_eq_self (n := seconds * 1000000) (by omega)]

theorem atMidnight_iff :
    d.atMidnight z ↔ (d.microSecondsSinceEpoch + z.seconds * 1000000) % 86400000000 = 0 := by
  have hsplit := seconds_micros d.microSecondsSinceEpoch
  rw [atMidnight]
  omega

theorem fromDbStringLocal_iff {z d} (hyears : d.inYears z) (h : 0 ≤ d.microSecondsSinceEpoch) :
    fromDbStringLocal z.zone (d.toDbStringLocal z.zone) = .ok d ↔ ¬d.atMidnight z := by
  constructor
  · intro hread hmidnight
    have hz := z.inRange
    rw [fromDbStringLocal_midnight hyears hmidnight] at hread
    have hmicro := congrArg microSecondsSinceEpoch (Except.ok.inj hread)
    rw [ofMicroSeconds_micro (by omega)] at hmicro
    omega
  · exact fun hmidnight => fromDbStringLocal_exact hyears hmidnight (Int.tmod_nonneg _ h)

section Shifted

variable {z} {e : DateTime}

theorem after_micro {seconds : Int} (hs : -2 ^ 31 ≤ seconds ∧ seconds ≤ 2 ^ 31)
    (hdouble : toDouble e.microSecondsSinceEpoch = e.microSecondsSinceEpoch)
    (hsum : (e.microSecondsSinceEpoch + seconds * 1000000).natAbs < 2 ^ 54) :
    (e.after seconds).microSecondsSinceEpoch =
      toDouble (e.microSecondsSinceEpoch + seconds * 1000000) := by
  have hnear := toDouble_near hsum
  rw [e.after_eq hs, hdouble, ofMicroSeconds_micro (by omega)]

theorem after_dateless :
    ((ofMicroSeconds ((-62169984000 - z.seconds) * 1000000)).after z.seconds).microSecondsSinceEpoch
      < 0 := by
  have hz := z.inRange
  have hfirst := toDouble_negative (n := (-62169984000 - z.seconds) * 1000000) (by omega)
  have hsecond := toDouble_negative
    (n := toDouble ((-62169984000 - z.seconds) * 1000000) + z.seconds * 1000000) (by omega)
  rw [after_eq _ (by omega), @ofMicroSeconds_micro ((-62169984000 - z.seconds) * 1000000) (by omega),
    ofMicroSeconds_micro (by omega)]
  omega

theorem after_fraction_ne (hyears : e.inYears z)
    (hfraction : e.microSecondsSinceEpoch.tmod 1000000 < 0) {f : DateTime}
    (hread : (fromDbStringLocal z.zone (e.toDbStringLocal z.zone)).map (after · z.seconds) =
      .ok f) : f.microSecondsSinceEpoch ≠ e.microSecondsSinceEpoch + z.seconds * 1000000 := by
  have hz := z.inRange
  have hsplit := seconds_micros e.microSecondsSinceEpoch
  cases he : fromDbStringLocal z.zone (e.toDbStringLocal z.zone) with
  | error _ => rw [he] at hread; cases hread
  | ok e' =>
    obtain ⟨u, hu0, hu32, hu⟩ := fromDbStringLocal_negative hyears hfraction he
    have hf : e'.after z.seconds = f := Except.ok.inj (by rw [he] at hread; exact hread)
    rw [inYears] at hyears
    have hsmall : e'.microSecondsSinceEpoch.natAbs < 2 ^ 53 := by omega
    rw [← hf, after_micro (by omega) (toDouble_eq_self hsmall) (by omega),
      toDouble_eq_self (by omega)]
    omega

end Shifted

section Utc

variable {z d} (h0 : 0 ≤ d.microSecondsSinceEpoch) (h53 : d.microSecondsSinceEpoch < 2 ^ 53)
include h0 h53

theorem shifted_micro :
    (d.after (-z.seconds)).microSecondsSinceEpoch =
      toDouble (d.microSecondsSinceEpoch - z.seconds * 1000000) := by
  have hz := z.inRange
  rw [after_micro (by omega) (toDouble_eq_self (by omega)) (by omega)]
  congr 1
  omega

theorem shifted_inYears : (d.after (-z.seconds)).inYears z := by
  have hz := z.inRange
  have hnear := toDouble_near (n := d.microSecondsSinceEpoch - z.seconds * 1000000) (by omega)
  rw [← shifted_micro h0 h53] at hnear
  have hsplit := seconds_micros (d.after (-z.seconds)).microSecondsSinceEpoch
  rw [inYears]
  omega

theorem fromDbString_midnight_ne (hday : (d.after (-z.seconds)).atMidnight z) :
    (toDbString z.zone d >>= fromDbString z.zone) ≠ .ok d := by
  rw [fromDbString_toDbString, fromDbStringLocal_midnight (shifted_inYears h0 h53) hday]
  intro hread
  have hd : (ofMicroSeconds ((-62169984000 - z.seconds) * 1000000)).after z.seconds = d :=
    Except.ok.inj hread
  have hbefore := after_dateless (z := z)
  rw [hd] at hbefore
  omega

theorem fromDbString_iff_of_double
    (hdouble : toDouble (d.microSecondsSinceEpoch - z.seconds * 1000000) =
      d.microSecondsSinceEpoch - z.seconds * 1000000) :
    (toDbString z.zone d >>= fromDbString z.zone) = .ok d ↔
      d.microSecondsSinceEpoch % 86400000000 ≠ 0 ∧
        (d.microSecondsSinceEpoch < z.seconds * 1000000 →
          d.microSecondsSinceEpoch % 1000000 = 0) := by
  have hz := z.inRange
  have hyears := shifted_inYears (z := z) h0 h53
  have hmicro := shifted_micro (z := z) h0 h53
  rw [hdouble] at hmicro
  have hmidnight := atMidnight_iff z (d.after (-z.seconds))
  rw [hmicro, Int.sub_add_cancel] at hmidnight
  have hsplit := seconds_micros (d.after (-z.seconds)).microSecondsSinceEpoch
  by_cases hday : (d.after (-z.seconds)).atMidnight z
  · exact iff_of_false (fromDbString_midnight_ne h0 h53 hday) fun h => h.1 (hmidnight.mp hday)
  by_cases hfraction : (d.after (-z.seconds)).microSecondsSinceEpoch.tmod 1000000 < 0
  · refine iff_of_false (fun hread => ?_) (fun h => ?_)
    · rw [fromDbString_toDbString] at hread
      exact after_fraction_ne hyears hfraction hread (by omega)
    · have := h.2
      omega
  · rw [fromDbString_toDbString, fromDbStringLocal_exact hyears hday (not_lt.mp hfraction)]
    have heq : (d.after (-z.seconds)).after z.seconds = d := by
      refine DateTime.ext ?_
      rw [after_micro (by omega) (by rw [hmicro, hdouble]) (by omega), hmicro,
        Int.sub_add_cancel, toDouble_eq_self (by omega)]
    refine iff_of_true (congrArg Except.ok heq) ⟨mt hmidnight.mpr hday, fun hbefore => ?_⟩
    omega

theorem fromDbString_ne_of_not_double
    (hdouble : toDouble (d.microSecondsSinceEpoch - z.seconds * 1000000) ≠
      d.microSecondsSinceEpoch - z.seconds * 1000000) :
    (toDbString z.zone d >>= fromDbString z.zone) ≠ .ok d := by
  have hz := z.inRange
  have hyears := shifted_inYears (z := z) h0 h53
  have hmicro := shifted_micro (z := z) h0 h53
  have hlarge := mt (toDouble_eq_iff (by omega)).mpr hdouble
  have hodd := toDouble_odd (n := d.microSecondsSinceEpoch - z.seconds * 1000000) (by omega)
    (by omega) (by omega)
  rw [← hmicro] at hodd
  by_cases hday : (d.after (-z.seconds)).atMidnight z
  · exact fromDbString_midnight_ne h0 h53 hday
  rw [fromDbString_toDbString,
    fromDbStringLocal_exact hyears hday (Int.tmod_nonneg _ (by omega))]
  intro hread
  have hd : (d.after (-z.seconds)).after z.seconds = d := Except.ok.inj hread
  have hback := congrArg microSecondsSinceEpoch hd
  rw [after_micro (by omega) (toDouble_even (by omega) hodd.1) (by omega),
    (toDouble_eq_iff (by omega)).mpr (by omega)] at hback
  omega

theorem fromDbString_iff :
    (toDbString z.zone d >>= fromDbString z.zone) = .ok d ↔
      d.microSecondsSinceEpoch % 86400000000 ≠ 0 ∧
        (d.microSecondsSinceEpoch < z.seconds * 1000000 → d.microSecondsSinceEpoch % 1000000 = 0) ∧
        (2 ^ 53 < d.microSecondsSinceEpoch - z.seconds * 1000000 →
          d.microSecondsSinceEpoch % 2 = 0) := by
  have hz := z.inRange
  have hdouble := toDouble_eq_iff (n := d.microSecondsSinceEpoch - z.seconds * 1000000) (by omega)
  by_cases h : toDouble (d.microSecondsSinceEpoch - z.seconds * 1000000) =
      d.microSecondsSinceEpoch - z.seconds * 1000000
  · rw [fromDbString_iff_of_double h0 h53 h]
    have := hdouble.mp h
    refine and_congr_right fun _ => (and_iff_left ?_).symm
    omega
  · refine iff_of_false (fromDbString_ne_of_not_double h0 h53 h) fun hcond => h (hdouble.mpr ?_)
    have := hcond.2.2
    omega

/-- Database strings read back exactly where the point is midnight neither in the zone nor in UTC,
is a whole second if shifting it back by the offset leads before 1970, and is even if shifting it
leads beyond 2^53. -/
theorem db_round_trip_iff :
    (fromDbStringLocal z.zone (d.toDbStringLocal z.zone) = .ok d ∧
        (toDbString z.zone d >>= fromDbString z.zone) = .ok d) ↔
      (d.microSecondsSinceEpoch + z.seconds * 1000000) % 86400000000 ≠ 0 ∧
        d.microSecondsSinceEpoch % 86400000000 ≠ 0 ∧
        (d.microSecondsSinceEpoch < z.seconds * 1000000 → d.microSecondsSinceEpoch % 1000000 = 0) ∧
        (2 ^ 53 < d.microSecondsSinceEpoch - z.seconds * 1000000 →
          d.microSecondsSinceEpoch % 2 = 0) := by
  have hz := z.inRange
  have hsplit := seconds_micros d.microSecondsSinceEpoch
  have hyears : d.inYears z := by
    rw [inYears]
    omega
  rw [fromDbStringLocal_iff hyears h0, atMidnight_iff, fromDbString_iff h0 h53]

end Utc

def oneHour : Offset := ⟨3600, by decide⟩

def justAfterOne : DateTime := ⟨3600000001, by decide⟩

theorem db_round_trip_iff_justAfterOne :
    fromDbStringLocal oneHour.zone (justAfterOne.toDbStringLocal oneHour.zone) =
        .ok justAfterOne ∧
      (toDbString oneHour.zone justAfterOne >>= fromDbString oneHour.zone) = .ok justAfterOne :=
  (db_round_trip_iff (z := oneHour) (d := justAfterOne) (by decide) (by decide)).mpr (by decide)

def localMidnight : DateTime := ⟨82800000000, by decide⟩

theorem localMidnight_lost :
    localMidnight.toDbStringLocal oneHour.zone = "1970-01-02".toList ∧
      fromDbStringLocal oneHour.zone (localMidnight.toDbStringLocal oneHour.zone) =
        .ok ⟨-62169987600000000, by decide⟩ ∧
      fromDbStringLocal oneHour.zone (localMidnight.toDbStringLocal oneHour.zone) ≠
        .ok localMidnight := by
  decide

end DateTime

end MysqlConnectPool
