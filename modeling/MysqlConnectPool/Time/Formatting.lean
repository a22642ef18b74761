import Mathlib.Order.Bounds.Basic
import MysqlConnectPool.Time.FixedZone

/-! Formatting in UTC, and rounding to the second. -/

namespace MysqlConnectPool

open Library Library.Calendar Library.Numeral

def gmtime (seconds : Int) : Tm := Tm.ofSeconds 0 seconds

namespace DateTime

def roundSecond (d : DateTime) : DateTime :=
  ofMicroSeconds (d.microSecondsSinceEpoch - d.microSecondsSinceEpoch.tmod 1000000)

def formattedText (t : Tm) : List Char :=
  spacePadded 4 (t.tm_year + 1900) ++ zeroPadded 2 (t.tm_mon + 1) ++ zeroPadded 2 t.tm_mday ++
    ' ' :: timeText t

def toFormattedString (d : DateTime) (showMicroseconds : Bool) : List Char :=
  let tm_time := gmtime (d.microSecondsSinceEpoch.tdiv 1000000)
  if showMicroseconds then
    let microseconds := d.microSecondsSinceEpoch.tmod 1000000
    formattedText tm_time ++ '.' :: zeroPadded 6 microseconds
  else formattedText tm_time

/-- `strftime` stands for what the C library writes to the buffer. -/
def toCustomFormattedString (strftime : List Char → Tm → List Char) (d : DateTime)
    (fmtStr : List Char) (showMicroseconds : Bool := false) : List Char :=
  let tm_time := gmtime (d.microSecondsSinceEpoch.tdiv 1000000)
  let buf := strftime fmtStr tm_time
  if !showMicroseconds then buf
  else
    let microseconds := d.microSecondsSinceEpoch.tmod 1000000
    buf ++ '.' :: zeroPadded 6 microseconds

/-- A text of a whole second, which `print` prints, and of a fraction of six digits behind it. -/
def Splits (print : Tm → List Char) (d : DateTime) (text : List Char) : Prop :=
  ∃ q r, 0 ≤ r ∧ r < 1000000 ∧ q * 1000000 + r = d.microSecondsSinceEpoch ∧
    text = print (gmtime q) ++ '.' :: zeroPadded 6 r

def unsignedFraction (d : DateTime) : Prop :=
  0 ≤ d.microSecondsSinceEpoch ∨ d.microSecondsSinceEpoch % 1000000 = 0

variable {d : DateTime}

theorem unsignedFraction_iff :
    d.unsignedFraction ↔ 0 ≤ d.microSecondsSinceEpoch.tmod 1000000 := by
  have hsplit := seconds_micros d.microSecondsSinceEpoch
  rw [unsignedFraction]
  omega

theorem fraction_ne {before before' : List Char} {micro r : Int}
    (hmicro : -1000000 < micro ∧ micro < 0) (hr : 0 ≤ r ∧ r < 1000000) :
    before ++ '.' :: zeroPadded 6 micro ≠ before' ++ '.' :: zeroPadded 6 r := by
  intro h
  have hlength : (zeroPadded 6 micro).length ≤ ('.' :: zeroPadded 6 r).length := by
    have hdigits : (Nat.toDigits 10 micro.natAbs).length ≤ 6 :=
      (Nat.length_toDigits_le_iff (by decide) (by decide)).mpr (by omega)
    rw [List.length_cons, length_zeroPadded hr.1 (by omega) (by decide), zeroPadded,
      if_pos hmicro.2, List.length_cons, List.leftpad, List.length_append, List.length_replicate]
    omega
  have hsuffix : zeroPadded 6 micro <:+ before' ++ '.' :: zeroPadded 6 r := by
    rw [← h]
    exact (List.suffix_cons _ _).trans (List.suffix_append _ _)
  have hminus : '-' ∈ zeroPadded 6 micro := by
    rw [zeroPadded, if_pos hmicro.2]
    exact List.mem_cons_self
  have hmem := (List.suffix_of_suffix_length_le hsuffix (List.suffix_append _ _) hlength).mem hminus
  rcases List.mem_cons.mp hmem with hdot | hdigit
  · exact absurd hdot (by decide)
  · exact absurd ((digits_zeroPadded 6 hr.1).2 _ hdigit) (by decide)

theorem splits_iff (print : Tm → List Char) :
    Splits print d (print (gmtime (d.microSecondsSinceEpoch.tdiv 1000000)) ++
      '.' :: zeroPadded 6 (d.microSecondsSinceEpoch.tmod 1000000)) ↔ d.unsignedFraction := by
  have hsplit := seconds_micros d.microSecondsSinceEpoch
  rw [unsignedFraction_iff]
  constructor
  · rintro ⟨q, r, hr, hlt, -, htext⟩
    by_contra hneg
    exact fraction_ne ⟨by omega, by omega⟩ ⟨hr, hlt⟩ htext
  · intro h
    exact ⟨_, _, h, by omega, by omega, rfl⟩

theorem roundSecond_micro : d.roundSecond.microSecondsSinceEpoch =
    d.microSecondsSinceEpoch - d.microSecondsSinceEpoch.tmod 1000000 := by
  have hsplit := seconds_micros d.microSecondsSinceEpoch
  have hrange := d.inRange
  rw [roundSecond, ofMicroSeconds_micro (by omega)]

theorem roundSecond_isGreatest_iff :
    IsGreatest {n : Int | n % 1000000 = 0 ∧ n ≤ d.microSecondsSinceEpoch}
      d.roundSecond.microSecondsSinceEpoch ↔ d.unsignedFraction := by
  have hsplit := seconds_micros d.microSecondsSinceEpoch
  rw [roundSecond_micro, unsignedFraction_iff]
  constructor
  · rintro ⟨⟨-, hle⟩, -⟩
    omega
  · refine fun h => ⟨⟨by omega, by omega⟩, ?_⟩
    rintro n ⟨hwhole, hle⟩
    omega

/-- Formatting and rounding are right from 1970 on, and before it at whole seconds. -/
theorem formatting_iff (strftime : List Char → Tm → List Char) (d : DateTime) :
    (Splits formattedText d (d.toFormattedString true) ∧
      Splits (strftime "%Y-%m-%d %H:%M:%S".toList) d
        (toCustomFormattedString strftime d "%Y-%m-%d %H:%M:%S".toList true) ∧
      IsGreatest {n : Int | n % 1000000 = 0 ∧ n ≤ d.microSecondsSinceEpoch}
        d.roundSecond.microSecondsSinceEpoch) ↔
      (0 ≤ d.microSecondsSinceEpoch ∨ d.microSecondsSinceEpoch % 1000000 = 0) := by
  have hformatted := splits_iff (d := d) formattedText
  have hcustom := splits_iff (d := d) (strftime "%Y-%m-%d %H:%M:%S".toList)
  constructor
  · rintro ⟨htext, -, -⟩
    exact hformatted.mp htext
  · intro h
    exact ⟨hformatted.mpr h, hcustom.mpr h, roundSecond_isGreatest_iff.mpr h⟩

def beforeEpoch : DateTime := ⟨-1, by decide⟩

theorem beforeEpoch_formatted :
    beforeEpoch.toFormattedString true = "19700101 00:00:00.-00001".toList ∧
      beforeEpoch.roundSecond.microSecondsSinceEpoch = 0 ∧
      ¬ Splits formattedText beforeEpoch (beforeEpoch.toFormattedString true) := by
  refine ⟨by decide, by decide, fun h => ?_⟩
  have hfraction : beforeEpoch.unsignedFraction := (splits_iff formattedText).mp h
  rcases hfraction with hpos | hwhole
  · exact absurd hpos (by decide)
  · exact absurd hwhole (by decide)

end DateTime

end MysqlConnectPool
