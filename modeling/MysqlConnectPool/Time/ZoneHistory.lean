import MysqlConnectPool.Time.FixedZone

/-! Database strings in UTC, in a zone whose offset changes. -/

namespace MysqlConnectPool

open Library Library.Calendar Library.Double Library.Numeral utils

def Tm.inYear (seconds : Int) : Prop :=
  -2 ^ 31 ≤ (Tm.ofSeconds 0 seconds).tm_year ∧ (Tm.ofSeconds 0 seconds).tm_year < 2 ^ 31

/-- A zone with these offsets.  Where a local time does not exist, or exists twice, `mktime` takes one
of the offsets. -/
structure Zone.Follows (zone : Zone) (offset : Int → Offset) : Prop where
  localtime (t : Int) : Tm.inYear (t + (offset t).seconds) →
    ∃ isdst, zone.localtime t = Tm.ofSeconds isdst (t + (offset t).seconds)
  mktime (t : Tm) : Tm.inYear t.seconds → ∃ u, zone.mktime t = t.seconds - (offset u).seconds

/-- The offset that `mktime` takes at midnight of the third of January 1970. -/
def Zone.sampledOffset (zone : Zone) : Int := 172800 - zone.mktime (Tm.ofSeconds (-1) 172800)

def Zone.startsDay (zone : Zone) (t : Int) : Prop :=
  zone.mktime { zone.localtime t with tm_hour := 0, tm_min := 0, tm_sec := 0 } = t

instance (zone : Zone) (t : Int) : Decidable (zone.startsDay t) :=
  inferInstanceAs (Decidable (_ = _))

namespace DateTime

def inText (seconds : Int) : Prop := -2 ^ 16 ≤ seconds / 86400 ∧ seconds / 86400 < 2 ^ 18

def dateOf (seconds : Int) : List Char := dateText (Tm.ofSeconds 0 seconds)

def dateTimeOf (seconds : Int) : List Char :=
  dateText (Tm.ofSeconds 0 seconds) ++ ' ' :: timeText (Tm.ofSeconds 0 seconds)

/-- A date and time in UTC; what is left out of the text is zero. -/
def Denotes (text : List Char) (d : DateTime) : Prop :=
  let seconds := d.microSecondsSinceEpoch / 1000000
  text = dateTimeOf seconds ++ '.' :: zeroPadded 6 (d.microSecondsSinceEpoch % 1000000) ∨
    d.microSecondsSinceEpoch % 1000000 = 0 ∧ text = dateTimeOf seconds ∨
    d.microSecondsSinceEpoch % 86400000000 = 0 ∧ text = dateOf seconds

instance (text : List Char) (d : DateTime) : Decidable (Denotes text d) :=
  inferInstanceAs (Decidable (_ ∨ _ ∧ _ ∨ _ ∧ _))

section Texts

variable {m n : Int}

theorem inText.printable (h : inText n) : Printable (Tm.ofSeconds 0 n) := by
  rw [inText] at h
  exact Tm.printable_ofSeconds 0 (by omega)

theorem inText.inYear (h : inText n) : Tm.inYear n := by
  have hyear := h.printable.year
  rw [Tm.inYear]
  omega

theorem notMem_dateTimeOf {c : Char} (h : inText n) (hdigit : c.isDigit = false)
    (hc : c ∉ ['-', ' ', ':']) : c ∉ dateTimeOf n := by
  have ht := h.printable
  simp only [List.mem_cons, List.not_mem_nil, or_false, not_or] at hc
  simp [dateTimeOf, dateText, timeText, ht.field_year.notMem hdigit, ht.field_mon.notMem hdigit,
    ht.field_mday.notMem hdigit, ht.field_hour.notMem hdigit, ht.field_min.notMem hdigit,
    ht.field_sec.notMem hdigit, hc]

theorem space_notMem_dateOf (h : inText n) : ' ' ∉ dateOf n := by
  have ht := h.printable
  simp [dateOf, dateText, ht.field_year.notMem, ht.field_mon.notMem, ht.field_mday.notMem]

def utc : Offset := ⟨0, by decide⟩

theorem dateTimeOf_inj (hm : inText m) (hn : inText n) : dateTimeOf m = dateTimeOf n ↔ m = n := by
  refine ⟨fun h => ?_, fun h => by rw [h]⟩
  have hread {k : Int} (hk : inText k) :
      fromDbStringLocal utc.zone (dateTimeOf k) = .ok (ofMicroSeconds (k * 1000000)) := by
    have hlocal : utc.zone.localtime k = Tm.ofSeconds 0 k :=
      congrArg (Tm.ofSeconds 0) (Int.add_zero k)
    have hmktime := utc.mktime_localtime (-1) (hlocal ▸ hk.printable)
    rw [hlocal] at hmktime
    rw [dateTimeOf, fromDbStringLocal_date_time hk.printable, hmktime]
  have hsame := hread hm
  rw [h, hread hn] at hsame
  have hmicro := congrArg microSecondsSinceEpoch (Except.ok.inj hsame)
  rw [inText] at hm hn
  rw [ofMicroSeconds_micro (by omega), ofMicroSeconds_micro (by omega)] at hmicro
  omega

theorem dateTimeOf_midnight (n : Int) :
    dateTimeOf (n / 86400 * 86400) = dateOf n ++ " 00:00:00".toList := by
  have htime : timeText (Tm.ofSeconds 0 (n / 86400 * 86400)) = "00:00:00".toList := by
    simp only [timeText, Tm.ofSeconds]
    rw [show n / 86400 * 86400 % 60 = 0 by omega, show n / 86400 * 86400 / 60 % 60 = 0 by omega,
      show n / 86400 * 86400 / 3600 % 24 = 0 by omega]
    rfl
  rw [dateTimeOf, dateOf, htime]
  simp only [dateText, Tm.ofSeconds, Int.mul_ediv_cancel _ (show (86400 : Int) ≠ 0 by decide)]
  rfl

theorem dateOf_inj (hm : inText m) (hn : inText n) :
    dateOf m = dateOf n ↔ m / 86400 = n / 86400 := by
  constructor
  · intro h
    have hmidnight : dateTimeOf (m / 86400 * 86400) = dateTimeOf (n / 86400 * 86400) := by
      rw [dateTimeOf_midnight, dateTimeOf_midnight, h]
    rw [inText] at hm hn
    have hday := (dateTimeOf_inj (by rw [inText]; omega) (by rw [inText]; omega)).mp hmidnight
    omega
  · intro h
    simp only [dateOf, dateText, Tm.ofSeconds, h]

theorem dateTimeOf_ne_dateOf (hn : inText n) : dateTimeOf m ≠ dateOf n := fun h =>
  space_notMem_dateOf hn (by rw [← h, dateTimeOf]; simp)

theorem fraction_ne_dateTimeOf (hn : inText n) (fraction : List Char) :
    dateTimeOf m ++ '.' :: fraction ≠ dateTimeOf n := fun h =>
  notMem_dateTimeOf (c := '.') hn rfl (by decide) (by rw [← h]; simp)

theorem fraction_ne_dateOf (hn : inText n) (fraction : List Char) :
    dateTimeOf m ++ '.' :: fraction ≠ dateOf n := fun h =>
  space_notMem_dateOf hn (by rw [← h, dateTimeOf]; simp)

end Texts

section Denotes

variable {d : DateTime} {n : Int} (hd : inText (d.microSecondsSinceEpoch / 1000000)) (hn : inText n)
include hd hn

theorem denotes_fraction_iff {micro : Int} (hmicro : micro.natAbs < 1000000) :
    Denotes (dateTimeOf n ++ '.' :: zeroPadded 6 micro) d ↔
      n = d.microSecondsSinceEpoch / 1000000 ∧ micro = d.microSecondsSinceEpoch % 1000000 := by
  have hnumber : zeroPadded 6 micro = zeroPadded 6 (d.microSecondsSinceEpoch % 1000000) ↔
      micro = d.microSecondsSinceEpoch % 1000000 := by
    refine ⟨fun h => ?_, fun h => by rw [h]⟩
    have hread := stol_zeroPadded 6 (n := micro) (by omega)
    rw [h, stol_zeroPadded 6 (by omega)] at hread
    exact (Except.ok.inj hread).symm
  simp only [Denotes, fraction_ne_dateTimeOf hd, fraction_ne_dateOf hd, and_false, or_false]
  rw [List.append_cons_inj_of_notMem (notMem_dateTimeOf hn rfl (by decide))
    (notMem_zeroPadded 6 _ rfl (by decide)), dateTimeOf_inj hn hd, hnumber]
  simp

theorem denotes_dateTime_iff :
    Denotes (dateTimeOf n) d ↔
      n = d.microSecondsSinceEpoch / 1000000 ∧ d.microSecondsSinceEpoch % 1000000 = 0 := by
  simp only [Denotes, (fraction_ne_dateTimeOf hn _).symm, dateTimeOf_ne_dateOf hd, and_false,
    or_false, false_or, dateTimeOf_inj hn hd]
  exact and_comm

theorem denotes_date_iff :
    Denotes (dateOf n) d ↔ n / 86400 = d.microSecondsSinceEpoch / 1000000 / 86400 ∧
      d.microSecondsSinceEpoch % 86400000000 = 0 := by
  simp only [Denotes, (fraction_ne_dateOf hn _).symm, (dateTimeOf_ne_dateOf hn).symm, and_false,
    false_or, dateOf_inj hn hd]
  exact and_comm

end Denotes

section Follows

variable {zone : Zone} {offset : Int → Offset} (hzone : zone.Follows offset)
include hzone

/-- One offset of the zone is sampled, and kept. -/
theorem timezoneOffset_sampled :
    timezoneOffset zone = .ok zone.sampledOffset ∧ ∃ u, zone.sampledOffset = (offset u).seconds := by
  have hyear : Tm.inYear (Tm.ofSeconds (-1) 172800).seconds := by
    rw [Tm.seconds_ofSeconds]
    exact inText.inYear ⟨by decide, by decide⟩
  obtain ⟨u, hu⟩ := hzone.mktime _ hyear
  rw [Tm.seconds_ofSeconds] at hu
  have hz := (offset u).inRange
  have htext : "1970-01-03 00:00:00".toList =
      dateText (Tm.ofSeconds (-1) 172800) ++ ' ' :: timeText (Tm.ofSeconds (-1) 172800) := by
    decide
  refine ⟨?_, u, by rw [Zone.sampledOffset, hu]; omega⟩
  rw [timezoneOffset, htext, fromDbStringLocal_date_time (Tm.printable_ofSeconds _ (by decide)),
    show { Tm.ofSeconds (-1) 172800 with tm_isdst := -1 } = Tm.ofSeconds (-1) 172800 from rfl]
  simp only [bind, Except.bind, secondsSinceEpoch]
  rw [ofMicroSeconds_micro (by omega), Int.mul_tdiv_cancel _ (by decide), Zone.sampledOffset]
  exact congrArg Except.ok (by omega)

theorem toDbString_sampled (d : DateTime) :
    toDbString zone d = .ok ((d.after (-zone.sampledOffset)).toDbStringLocal zone) := by
  obtain ⟨hoffset, u, hu⟩ := timezoneOffset_sampled hzone
  have hz := (offset u).inRange
  rw [toDbString, hoffset]
  simp only [bind, Except.bind, pure, Except.pure]
  rw [toDouble_eq_self (by omega)]

variable {e : DateTime}

theorem eq_roundDay_iff_startsDay
    (ht : inText (e.microSecondsSinceEpoch.tdiv 1000000 +
      (offset (e.microSecondsSinceEpoch.tdiv 1000000)).seconds))
    (hwhole : e.microSecondsSinceEpoch.tmod 1000000 = 0) :
    e = e.roundDay zone ↔ zone.startsDay (e.microSecondsSinceEpoch.tdiv 1000000) := by
  have hsplit := seconds_micros e.microSecondsSinceEpoch
  obtain ⟨isdst, hlocal⟩ := hzone.localtime _ ht.inYear
  have hseconds := Tm.seconds_midnight isdst (e.microSecondsSinceEpoch.tdiv 1000000 +
      (offset (e.microSecondsSinceEpoch.tdiv 1000000)).seconds)
  obtain ⟨u, hu⟩ := hzone.mktime
    { zone.localtime (e.microSecondsSinceEpoch.tdiv 1000000) with
      tm_hour := 0, tm_min := 0, tm_sec := 0 } (by
      rw [hlocal, hseconds]
      rw [inText] at ht
      exact inText.inYear (by rw [inText]; omega))
  have hz := (offset u).inRange
  rw [hlocal, hseconds] at hu
  rw [inText] at ht
  rw [Zone.startsDay, DateTime.ext_iff]
  simp only [roundDay]
  rw [hlocal, hu, ofMicroSeconds_micro (by omega)]
  omega

theorem toDbStringLocal_follows
    (ht : inText (e.microSecondsSinceEpoch.tdiv 1000000 +
      (offset (e.microSecondsSinceEpoch.tdiv 1000000)).seconds)) :
    e.toDbStringLocal zone =
      let n := e.microSecondsSinceEpoch.tdiv 1000000 +
        (offset (e.microSecondsSinceEpoch.tdiv 1000000)).seconds
      if e.microSecondsSinceEpoch.tmod 1000000 ≠ 0 then
        dateTimeOf n ++ '.' :: zeroPadded 6 (e.microSecondsSinceEpoch.tmod 1000000)
      else if zone.startsDay (e.microSecondsSinceEpoch.tdiv 1000000) then dateOf n
      else dateTimeOf n := by
  obtain ⟨isdst, hlocal⟩ := hzone.localtime _ ht.inYear
  rw [toDbStringLocal]
  split
  · next hmicro =>
    rw [hlocal]
    simp only [dateTimeOf, List.append_assoc, List.cons_append]
    rfl
  · next hmicro =>
    have hround := eq_roundDay_iff_startsDay hzone ht (not_not.mp hmicro)
    simp only [hround, hlocal]
    rfl

end Follows

structure ShiftsToUtc (zone : Zone) (offset : Int → Offset) (d : DateTime) : Prop where
  whole : d.microSecondsSinceEpoch < zone.sampledOffset * 1000000 →
    d.microSecondsSinceEpoch % 1000000 = 0
  even : 2 ^ 53 < d.microSecondsSinceEpoch - zone.sampledOffset * 1000000 →
    d.microSecondsSinceEpoch % 2 = 0
  timed : ¬(d.microSecondsSinceEpoch % 1000000 = 0 ∧
      zone.startsDay (d.microSecondsSinceEpoch / 1000000 - zone.sampledOffset)) →
    (offset (d.microSecondsSinceEpoch / 1000000 - zone.sampledOffset)).seconds = zone.sampledOffset
  dated : d.microSecondsSinceEpoch % 1000000 = 0 →
    zone.startsDay (d.microSecondsSinceEpoch / 1000000 - zone.sampledOffset) →
    d.microSecondsSinceEpoch % 86400000000 = 0 ∧
      (d.microSecondsSinceEpoch / 1000000 - zone.sampledOffset +
          (offset (d.microSecondsSinceEpoch / 1000000 - zone.sampledOffset)).seconds) / 86400 =
        d.microSecondsSinceEpoch / 1000000 / 86400

section Utc

variable {zone : Zone} {offset : Int → Offset} (hzone : zone.Follows offset) {d : DateTime}
  (h0 : 0 ≤ d.microSecondsSinceEpoch) (h53 : d.microSecondsSinceEpoch < 2 ^ 53)
include hzone h0 h53

theorem sampled_micro :
    (d.after (-zone.sampledOffset)).microSecondsSinceEpoch =
      toDouble (d.microSecondsSinceEpoch - zone.sampledOffset * 1000000) ∧
    -2 ^ 31 ≤ zone.sampledOffset ∧ zone.sampledOffset < 2 ^ 31 := by
  obtain ⟨-, u, hu⟩ := timezoneOffset_sampled hzone
  rw [hu]
  exact ⟨shifted_micro h0 h53, (offset u).inRange⟩

theorem shifted_inText :
    inText ((d.after (-zone.sampledOffset)).microSecondsSinceEpoch.tdiv 1000000 +
      (offset ((d.after (-zone.sampledOffset)).microSecondsSinceEpoch.tdiv 1000000)).seconds) := by
  obtain ⟨hmicro, hz⟩ := sampled_micro hzone h0 h53
  have hnear := toDouble_near
    (n := d.microSecondsSinceEpoch - zone.sampledOffset * 1000000) (by omega)
  have hsplit := seconds_micros (d.after (-zone.sampledOffset)).microSecondsSinceEpoch
  have hoffset :=
    (offset ((d.after (-zone.sampledOffset)).microSecondsSinceEpoch.tdiv 1000000)).inRange
  rw [inText]
  omega

omit hzone in
theorem utc_inText : inText (d.microSecondsSinceEpoch / 1000000) := by
  rw [inText]
  omega

theorem denotes_iff_of_double
    (hdouble : toDouble (d.microSecondsSinceEpoch - zone.sampledOffset * 1000000) =
      d.microSecondsSinceEpoch - zone.sampledOffset * 1000000) :
    Denotes ((d.after (-zone.sampledOffset)).toDbStringLocal zone) d ↔
      ShiftsToUtc zone offset d := by
  obtain ⟨hmicro, hz⟩ := sampled_micro hzone h0 h53
  have htext := shifted_inText hzone h0 h53
  have hd := utc_inText h0 h53
  have heven := (toDouble_eq_iff (by omega)).mp hdouble
  have hsplit := seconds_micros (d.after (-zone.sampledOffset)).microSecondsSinceEpoch
  rw [hdouble] at hmicro
  rw [toDbStringLocal_follows hzone htext]
  by_cases hwhole : d.microSecondsSinceEpoch % 1000000 = 0
  · have hq : (d.after (-zone.sampledOffset)).microSecondsSinceEpoch.tdiv 1000000 =
        d.microSecondsSinceEpoch / 1000000 - zone.sampledOffset := by omega
    have hr : (d.after (-zone.sampledOffset)).microSecondsSinceEpoch.tmod 1000000 = 0 := by omega
    rw [hq] at htext ⊢
    simp only [hr, ne_eq, not_true_eq_false, ↓reduceIte]
    split
    · next hday =>
      rw [denotes_date_iff hd htext]
      exact ⟨fun h => ⟨fun _ => hwhole, by omega, fun hn => absurd ⟨hwhole, hday⟩ hn,
        fun _ _ => h.symm⟩, fun h => (h.dated hwhole hday).symm⟩
    · next hday =>
      rw [denotes_dateTime_iff hd htext, and_iff_left hwhole]
      refine ⟨fun h => ⟨fun _ => hwhole, by omega, fun _ => by omega, fun _ hn => absurd hn hday⟩,
        fun h => ?_⟩
      have := h.timed fun hn => hday hn.2
      omega
  · have hr : (d.after (-zone.sampledOffset)).microSecondsSinceEpoch.tmod 1000000 ≠ 0 := by omega
    simp only [ne_eq, hr, not_false_eq_true, ↓reduceIte]
    rw [denotes_fraction_iff hd htext (by omega)]
    by_cases hbefore : d.microSecondsSinceEpoch < zone.sampledOffset * 1000000
    · refine iff_of_false (fun h => ?_) fun h => hwhole (h.whole hbefore)
      omega
    · have hq : (d.after (-zone.sampledOffset)).microSecondsSinceEpoch.tdiv 1000000 =
          d.microSecondsSinceEpoch / 1000000 - zone.sampledOffset := by omega
      rw [hq]
      refine ⟨fun h => ⟨fun hb => absurd hb hbefore, by omega, fun _ => by omega,
        fun hn => absurd hn hwhole⟩, fun h => ?_⟩
      have := h.timed fun hn => hwhole hn.1
      omega

theorem not_denotes_of_not_double
    (hdouble : toDouble (d.microSecondsSinceEpoch - zone.sampledOffset * 1000000) ≠
      d.microSecondsSinceEpoch - zone.sampledOffset * 1000000) :
    ¬Denotes ((d.after (-zone.sampledOffset)).toDbStringLocal zone) d := by
  obtain ⟨hmicro, hz⟩ := sampled_micro hzone h0 h53
  have htext := shifted_inText hzone h0 h53
  have hd := utc_inText h0 h53
  have hlarge := mt (toDouble_eq_iff (by omega)).mpr hdouble
  have hodd := toDouble_odd (n := d.microSecondsSinceEpoch - zone.sampledOffset * 1000000) (by omega)
    (by omega) (by omega)
  have hsplit := seconds_micros (d.after (-zone.sampledOffset)).microSecondsSinceEpoch
  rw [← hmicro] at hodd
  rw [toDbStringLocal_follows hzone htext]
  simp only
  split
  · rw [denotes_fraction_iff hd htext (by omega)]
    omega
  · split
    · rw [denotes_date_iff hd htext]
      omega
    · rw [denotes_dateTime_iff hd htext]
      omega

/-- The string denotes UTC exactly where the zone has the sampled offset at the shifted point, or
the date alone is printed and is that of midnight in UTC, and the shift loses no microsecond. -/
theorem toDbString_utc_iff :
    (∃ text, toDbString zone d = .ok text ∧ Denotes text d) ↔ ShiftsToUtc zone offset d := by
  have hz := (sampled_micro hzone h0 h53).2
  have hdouble := toDouble_eq_iff
    (n := d.microSecondsSinceEpoch - zone.sampledOffset * 1000000) (by omega)
  have hsampled : (∃ text, toDbString zone d = .ok text ∧ Denotes text d) ↔
      Denotes ((d.after (-zone.sampledOffset)).toDbStringLocal zone) d := by
    rw [toDbString_sampled hzone]
    simp
  rw [hsampled]
  by_cases h : toDouble (d.microSecondsSinceEpoch - zone.sampledOffset * 1000000) =
      d.microSecondsSinceEpoch - zone.sampledOffset * 1000000
  · exact denotes_iff_of_double hzone h0 h53 h
  · refine iff_of_false (not_denotes_of_not_double hzone h0 h53 h) fun hutc => h (hdouble.mpr ?_)
    have := hutc.even
    omega

end Utc

def summerOffset (t : Int) : Offset := if t < 1000000 then utc else oneHour

def summer : Zone where
  localtime t := Tm.ofSeconds (if t < 1000000 then 0 else 1) (t + (summerOffset t).seconds)
  mktime t := t.seconds - (summerOffset (t.seconds - 3600)).seconds

theorem summer_follows : summer.Follows summerOffset where
  localtime _ _ := ⟨_, rfl⟩
  mktime _ _ := ⟨_, rfl⟩

theorem toDbString_utc_iff_justAfterOne :
    ∃ text, toDbString summer justAfterOne = .ok text ∧ Denotes text justAfterOne :=
  (toDbString_utc_iff summer_follows (by decide) (by decide)).mpr
    ⟨by decide, by decide, by decide, by decide⟩

def inSummer : DateTime := ⟨2000000000000, by decide⟩

theorem inSummer_not_utc :
    toDbString summer inSummer = .ok "1970-01-24 04:33:20".toList ∧
      ¬Denotes "1970-01-24 04:33:20".toList inSummer ∧
      ¬∃ text, toDbString summer inSummer = .ok text ∧ Denotes text inSummer := by
  have htext : toDbString summer inSummer = .ok "1970-01-24 04:33:20".toList := by decide
  have hdenotes : ¬Denotes "1970-01-24 04:33:20".toList inSummer := by decide
  refine ⟨htext, hdenotes, fun ⟨text, ht, hd⟩ => ?_⟩
  rw [htext] at ht
  exact hdenotes (Except.ok.inj ht ▸ hd)

end DateTime

end MysqlConnectPool
