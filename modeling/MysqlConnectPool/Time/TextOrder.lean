import MysqlConnectPool.Library.FixedWidth
import MysqlConnectPool.Time.Formatting
import MysqlConnectPool.Time.ZoneHistory

/-! The order of the texts of time points. -/

namespace MysqlConnectPool

open Library Library.Calendar Library.Numeral Library.FixedWidth

def Tm.dateNumbers (t : Tm) : List Int := [t.tm_year + 1900, t.tm_mon + 1, t.tm_mday]

def Tm.timeNumbers (t : Tm) : List Int := [t.tm_hour, t.tm_min, t.tm_sec]

section Numbers

variable {m n : Int} {x y : List Int}

theorem Tm.dateNumbers_append_lt (h : m / 86400 < n / 86400 ∨ m / 86400 = n / 86400 ∧ x < y) :
    (Tm.ofSeconds 0 m).dateNumbers ++ x < (Tm.ofSeconds 0 n).dateNumbers ++ y := by
  have hlength : (Tm.ofSeconds 0 m).dateNumbers.length = (Tm.ofSeconds 0 n).dateNumbers.length := rfl
  rw [append_lt_append_iff hlength]
  refine h.imp (fun hday => ?_) (And.imp_left fun hday => ?_)
  · simpa [dateNumbers, ofSeconds] using Date.fields_ofDayNumber_lt hday
  · simp only [dateNumbers, ofSeconds, hday]

theorem Tm.timeNumbers_append_lt (hday : m / 86400 = n / 86400) (h : m < n ∨ m = n ∧ x < y) :
    (Tm.ofSeconds 0 m).timeNumbers ++ x < (Tm.ofSeconds 0 n).timeNumbers ++ y := by
  have hlength : (Tm.ofSeconds 0 m).timeNumbers.length = (Tm.ofSeconds 0 n).timeNumbers.length := rfl
  rw [append_lt_append_iff hlength]
  refine h.imp (fun hlt => ?_) (And.imp_left (congrArg fun m => (Tm.ofSeconds 0 m).timeNumbers))
  simp only [timeNumbers, ofSeconds, List.cons_lt_cons_iff, List.not_lt_nil, and_false, or_false]
  omega

theorem Tm.numbers_lt (h : m < n ∨ m = n ∧ x < y) :
    (Tm.ofSeconds 0 m).dateNumbers ++ ((Tm.ofSeconds 0 m).timeNumbers ++ x) <
      (Tm.ofSeconds 0 n).dateNumbers ++ ((Tm.ofSeconds 0 n).timeNumbers ++ y) := by
  have hle : m ≤ n := h.elim Int.le_of_lt fun heq => Int.le_of_eq heq.1
  refine dateNumbers_append_lt ?_
  rcases Int.lt_or_eq_of_le (Int.ediv_le_ediv (by decide : (0 : Int) < 86400) hle) with hday | hday
  · exact .inl hday
  · exact .inr ⟨hday, timeNumbers_append_lt hday h⟩

end Numbers

namespace DateTime

def textFields (dash : List Char) : List FixedWidth.Field :=
  [⟨[], 4, by decide⟩, ⟨dash, 2, by decide⟩, ⟨dash, 2, by decide⟩, ⟨[' '], 2, by decide⟩,
    ⟨[':'], 2, by decide⟩, ⟨[':'], 2, by decide⟩, ⟨['.'], 6, by decide⟩]

section Print

variable {t : Tm} (ht : Printable t) (dash : List Char)
include ht

theorem Printable.year_eq :
    spacePadded 4 (t.tm_year + 1900) = zeroPadded 4 (t.tm_year + 1900) := by
  have hyear := ht.year
  exact @spacePadded_eq_zeroPadded _ 3 (by decide) (by omega) (by omega)

theorem Printable.fit (x : List Int) (hx : Fit [⟨['.'], 6, by decide⟩] x) :
    Fit (textFields dash) (t.dateNumbers ++ (t.timeNumbers ++ x)) := by
  obtain ⟨hsec, hmin, hhour, hmday, hmon, hyear⟩ := ht
  refine .cons ?_ (.cons ?_ (.cons ?_ (.cons ?_ (.cons ?_ (.cons ?_ hx))))) <;>
    simp only [FixedWidth.Field.Fits] <;> omega

theorem Printable.print_eq (x : List Int) :
    print (textFields dash) (t.dateNumbers ++ (t.timeNumbers ++ x)) =
      spacePadded 4 (t.tm_year + 1900) ++ (dash ++ (zeroPadded 2 (t.tm_mon + 1) ++ (dash ++
        (zeroPadded 2 t.tm_mday ++ ' ' :: (timeText t ++ print [⟨['.'], 6, by decide⟩] x))))) := by
  rw [ht.year_eq]
  simp [print, textFields, Tm.dateNumbers, Tm.timeNumbers, timeText]

end Print

def toFormattedStringLocal (zone : Zone) (d : DateTime) (showMicroseconds : Bool) : List Char :=
  let tm_time := zone.localtime (d.microSecondsSinceEpoch.tdiv 1000000)
  if showMicroseconds then
    let microseconds := d.microSecondsSinceEpoch.tmod 1000000
    formattedText tm_time ++ '.' :: zeroPadded 6 microseconds
  else formattedText tm_time

theorem toFormattedString_eq (d : DateTime) (showMicroseconds : Bool) :
    d.toFormattedString showMicroseconds = d.toFormattedStringLocal utc.zone showMicroseconds := by
  have hlocal (n : Int) : utc.zone.localtime n = gmtime n := congrArg (Tm.ofSeconds 0) (Int.add_zero n)
  rw [toFormattedString, toFormattedStringLocal, hlocal]

def inFourDigits (z : Offset) (d : DateTime) : Prop :=
  0 ≤ d.microSecondsSinceEpoch ∧
    d.microSecondsSinceEpoch.tdiv 1000000 + z.seconds < 253402300800

def numbers (z : Offset) (d : DateTime) (x : List Int) : List Int :=
  let t := z.zone.localtime (d.microSecondsSinceEpoch.tdiv 1000000)
  t.dateNumbers ++ (t.timeNumbers ++ x)

instance (z : Offset) (d : DateTime) : Decidable (d.atMidnight z) := inferInstanceAs (Decidable (_ ∧ _))

def fractionNumbers (d : DateTime) : List Int :=
  if d.microSecondsSinceEpoch.tmod 1000000 = 0 then [] else [d.microSecondsSinceEpoch.tmod 1000000]

def dbNumbers (z : Offset) (d : DateTime) : List Int :=
  let t := z.zone.localtime (d.microSecondsSinceEpoch.tdiv 1000000)
  t.dateNumbers ++ if d.atMidnight z then [] else t.timeNumbers ++ d.fractionNumbers

section InFourDigits

variable {z : Offset} {d e : DateTime}

theorem inFourDigits.printable (h : d.inFourDigits z) :
    Printable (z.zone.localtime (d.microSecondsSinceEpoch.tdiv 1000000)) := by
  have hz := z.inRange
  have hsplit := seconds_micros d.microSecondsSinceEpoch
  obtain ⟨hpos, hlast⟩ := h
  change Printable (Tm.ofSeconds 0 (d.microSecondsSinceEpoch.tdiv 1000000 + z.seconds))
  generalize hn : d.microSecondsSinceEpoch.tdiv 1000000 + z.seconds = n at hlast ⊢
  have hfirst : -2 ^ 33 ≤ n := by omega
  have hyear : (Date.ofDayNumber (n / 86400)).year ≤ 9999 := by
    have hnext : Date.ofDayNumber 2932897 = ⟨10000, 1, 1⟩ := by decide
    have hlt := Date.fields_ofDayNumber_lt (show n / 86400 < 2932897 by omega)
    have hmonth := Date.month_ofDayNumber (n / 86400)
    have hday := Date.day_ofDayNumber (n / 86400)
    simp only [hnext, List.cons_lt_cons_iff, List.not_lt_nil, and_false, or_false] at hlt
    omega
  have hsince := @Date.year_ofDayNumber (n / 86400) 1600 20000
    (by simp only [daysBefore]; omega) (by simp only [daysBefore]; omega)
  have hmonth := Date.month_ofDayNumber (n / 86400)
  have hday := Date.day_ofDayNumber (n / 86400)
  constructor <;> simp only [Tm.ofSeconds] <;> omega

theorem inFourDigits.fraction (h : d.inFourDigits z) :
    Fit [⟨['.'], 6, by decide⟩] [d.microSecondsSinceEpoch.tmod 1000000] := by
  have hsplit := seconds_micros d.microSecondsSinceEpoch
  have hpos := h.1
  refine .cons ?_ .nil
  simp only [FixedWidth.Field.Fits]
  omega

theorem inFourDigits.eq_roundDay_iff (h : d.inFourDigits z)
    (hmicro : d.microSecondsSinceEpoch.tmod 1000000 = 0) :
    d = d.roundDay z.zone ↔ d.atMidnight z := by
  have hz := z.inRange
  have hsplit := seconds_micros d.microSecondsSinceEpoch
  have hpos := h.1
  have hlast := h.2
  have hmidnight := z.mktime_midnight h.printable
  rw [roundDay, hmidnight, atMidnight, and_iff_right hmicro, DateTime.ext_iff,
    ofMicroSeconds_micro (by omega)]
  omega

theorem toFormattedStringLocal_eq (h : d.inFourDigits z) (showMicroseconds : Bool) :
    d.toFormattedStringLocal z.zone showMicroseconds =
      print (textFields []) (d.numbers z
        (if showMicroseconds then [d.microSecondsSinceEpoch.tmod 1000000] else [])) := by
  rw [numbers, h.printable.print_eq]
  cases showMicroseconds <;> simp [toFormattedStringLocal, formattedText, print]

theorem toDbStringLocal_eq (h : d.inFourDigits z) :
    d.toDbStringLocal z.zone = print (textFields ['-']) (d.dbNumbers z) := by
  rw [toDbStringLocal, dbNumbers]
  by_cases hmicro : d.microSecondsSinceEpoch.tmod 1000000 = 0
  · rw [if_neg (not_not_intro hmicro), if_congr (h.eq_roundDay_iff hmicro) rfl rfl]
    split
    · rw [dateText, h.printable.year_eq]
      simp [print, textFields, Tm.dateNumbers]
    · rw [fractionNumbers, if_pos hmicro, h.printable.print_eq]
      simp [dateText, print]
  · rw [if_pos hmicro, if_neg fun hmidnight => hmicro hmidnight.1, fractionNumbers, if_neg hmicro,
      h.printable.print_eq]
    simp [dateText, print]

theorem numbers_fit (h : d.inFourDigits z) (x : List Int) (hx : Fit [⟨['.'], 6, by decide⟩] x)
    (dash : List Char) : Fit (textFields dash) (d.numbers z x) :=
  h.printable.fit dash x hx

theorem dbNumbers_fit (h : d.inFourDigits z) : Fit (textFields ['-']) (d.dbNumbers z) := by
  rw [dbNumbers]
  split
  · obtain ⟨hsec, hmin, hhour, hmday, hmon, hyear⟩ := h.printable
    refine .cons ?_ (.cons ?_ (.cons ?_ .nil)) <;> simp only [FixedWidth.Field.Fits] <;> omega
  · refine h.printable.fit ['-'] _ ?_
    rw [fractionNumbers]
    split
    · exact .nil
    · exact h.fraction

theorem seconds_lt_or (z : Offset) (h : d.microSecondsSinceEpoch < e.microSecondsSinceEpoch) :
    d.microSecondsSinceEpoch.tdiv 1000000 + z.seconds <
        e.microSecondsSinceEpoch.tdiv 1000000 + z.seconds ∨
      d.microSecondsSinceEpoch.tdiv 1000000 + z.seconds =
          e.microSecondsSinceEpoch.tdiv 1000000 + z.seconds ∧
        d.microSecondsSinceEpoch.tmod 1000000 < e.microSecondsSinceEpoch.tmod 1000000 := by
  have hle := Int.tdiv_le_tdiv (by decide : (0 : Int) < 1000000) h.le
  have hdsplit := seconds_micros d.microSecondsSinceEpoch
  have hesplit := seconds_micros e.microSecondsSinceEpoch
  omega

theorem fractionNumbers_lt (h : d.inFourDigits z)
    (hlt : d.microSecondsSinceEpoch.tmod 1000000 < e.microSecondsSinceEpoch.tmod 1000000) :
    d.fractionNumbers < e.fractionNumbers := by
  have hsplit := seconds_micros d.microSecondsSinceEpoch
  have hpos := h.1
  rw [fractionNumbers, fractionNumbers, if_neg (by omega :
    ¬e.microSecondsSinceEpoch.tmod 1000000 = 0)]
  split
  · exact List.nil_lt_cons _ _
  · exact List.cons_lt_cons_iff.mpr (.inl hlt)

theorem dbNumbers_lt (hd : d.inFourDigits z) (he : e.inFourDigits z)
    (h : d.microSecondsSinceEpoch < e.microSecondsSinceEpoch) : d.dbNumbers z < e.dbNumbers z := by
  have hdsplit := seconds_micros d.microSecondsSinceEpoch
  have hesplit := seconds_micros e.microSecondsSinceEpoch
  have hdpos := hd.1
  have hepos := he.1
  refine Tm.dateNumbers_append_lt ?_
  rcases Int.lt_or_eq_of_le (Int.ediv_le_ediv (by decide : (0 : Int) < 86400)
    (show d.microSecondsSinceEpoch.tdiv 1000000 + z.seconds ≤
      e.microSecondsSinceEpoch.tdiv 1000000 + z.seconds by omega)) with hday | hday
  · exact .inl hday
  have hlater : ¬e.atMidnight z := fun hmidnight => by
    obtain ⟨hmicro, hsecond⟩ := hmidnight
    omega
  rw [if_neg hlater]
  refine .inr ⟨hday, ?_⟩
  split
  · exact List.nil_lt_cons _ _
  · refine Tm.timeNumbers_append_lt hday ?_
    exact (seconds_lt_or z h).imp_right (And.imp_right (fractionNumbers_lt hd))

theorem numbers_fraction_lt (h : d.microSecondsSinceEpoch < e.microSecondsSinceEpoch) :
    d.numbers z [d.microSecondsSinceEpoch.tmod 1000000] <
      e.numbers z [e.microSecondsSinceEpoch.tmod 1000000] :=
  Tm.numbers_lt ((seconds_lt_or z h).imp_right
    (And.imp_right fun hmicro => List.cons_lt_cons_iff.mpr (.inl hmicro)))

theorem numbers_second_lt (h : d.secondsSinceEpoch < e.secondsSinceEpoch) :
    d.numbers z [] < e.numbers z [] :=
  Tm.numbers_lt (.inl (Int.add_lt_add_right h z.seconds))

theorem toFormattedStringLocal_lt_iff (hd : d.inFourDigits z) (he : e.inFourDigits z) :
    (d.toFormattedStringLocal z.zone true < e.toFormattedStringLocal z.zone true ↔
      d.microSecondsSinceEpoch < e.microSecondsSinceEpoch) ∧
    (d.toFormattedStringLocal z.zone false < e.toFormattedStringLocal z.zone false ↔
      d.secondsSinceEpoch < e.secondsSinceEpoch) := by
  constructor
  · rw [toFormattedStringLocal_eq hd, toFormattedStringLocal_eq he, if_pos rfl, if_pos rfl,
      print_lt_iff (numbers_fit hd _ hd.fraction []) (numbers_fit he _ he.fraction [])]
    refine lt_iff_of_imp numbers_fraction_lt (fun heq => ?_) numbers_fraction_lt
    rw [DateTime.ext heq]
  · rw [toFormattedStringLocal_eq hd, toFormattedStringLocal_eq he, if_neg (by decide),
      if_neg (by decide), print_lt_iff (numbers_fit hd _ .nil []) (numbers_fit he _ .nil [])]
    refine lt_iff_of_imp numbers_second_lt (fun heq => ?_) numbers_second_lt
    exact congrArg (fun n => (z.zone.localtime n).dateNumbers ++
      ((z.zone.localtime n).timeNumbers ++ [])) heq

/-- The texts for the database are in the order of time, with and without a time or a fraction. -/
theorem toDbStringLocal_lt_iff (hd : d.inFourDigits z) (he : e.inFourDigits z) :
    d.toDbStringLocal z.zone < e.toDbStringLocal z.zone ↔
      d.microSecondsSinceEpoch < e.microSecondsSinceEpoch := by
  rw [toDbStringLocal_eq hd, toDbStringLocal_eq he, print_lt_iff (dbNumbers_fit hd) (dbNumbers_fit he)]
  refine lt_iff_of_imp (dbNumbers_lt hd he) (fun heq => ?_) (dbNumbers_lt he hd)
  rw [DateTime.ext heq]

theorem toFormattedString_lt_iff (hd : d.inFourDigits utc) (he : e.inFourDigits utc) :
    (d.toFormattedString true < e.toFormattedString true ↔
      d.microSecondsSinceEpoch < e.microSecondsSinceEpoch) ∧
    (d.toFormattedString false < e.toFormattedString false ↔
      d.secondsSinceEpoch < e.secondsSinceEpoch) := by
  simp only [toFormattedString_eq]
  exact toFormattedStringLocal_lt_iff hd he

end InFourDigits

def lastSecond : DateTime := ⟨253402300799000000, by decide⟩

theorem toFormattedString_lt_iff_lastSecond :
    justAfterOne.toFormattedString true < lastSecond.toFormattedString true :=
  (toFormattedString_lt_iff ⟨by decide, by decide⟩ ⟨by decide, by decide⟩).1.mpr (by decide)

example : (lastSecond.after 1).toFormattedString false < lastSecond.toFormattedString false := by
  decide

theorem toDbStringLocal_lt_iff_localMidnight :
    localMidnight.toDbStringLocal oneHour.zone < (localMidnight.after 1).toDbStringLocal oneHour.zone :=
  (toDbStringLocal_lt_iff (z := oneHour) ⟨by decide, by decide⟩ ⟨by decide, by decide⟩).mpr (by decide)

end DateTime

end MysqlConnectPool
