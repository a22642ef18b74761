import MysqlConnectPool.Time.DateTime

/-! What the reader of database strings makes of what their printer prints. -/

namespace MysqlConnectPool.DateTime

open Library Library.Calendar Library.Double Library.Numeral utils

structure Field (s : List Char) (n : Int) : Prop where
  digits : Digits s
  read : readUnsigned s = .ok n

theorem readUnsigned_range {s : List Char} {u : Int} (h : readUnsigned s = .ok u) :
    0 ≤ u ∧ u < 2 ^ 32 := by
  rw [readUnsigned] at h
  split at h
  · cases h
  · next n _ =>
    have hu : n % 2 ^ 32 = u := Except.ok.inj h
    omega

theorem readUnsigned_zeroPadded {n : Int} (width : Nat) (h : 0 ≤ n ∧ n < 2 ^ 32) :
    readUnsigned (zeroPadded width n) = .ok n := by
  rw [readUnsigned, stol_zeroPadded width (by omega)]
  exact congrArg Except.ok (Int.emod_eq_of_lt h.1 h.2)

theorem field_zeroPadded {n : Int} (width : Nat) (h : 0 ≤ n ∧ n < 2 ^ 32) :
    Field (zeroPadded width n) n :=
  ⟨digits_zeroPadded width h.1, readUnsigned_zeroPadded width h⟩

theorem Field.notMem {s : List Char} {n : Int} (h : Field s n) {c : Char} (hc : c.isDigit = false) :
    c ∉ s := fun hmem => by
  rw [h.digits.2 c hmem] at hc
  cases hc

section Split

variable {year month day hour minute second : List Char} {Y M D h m s : Int}

theorem splitString_date (hY : Field year Y) (hM : Field month M) (hD : Field day D) :
    splitString (year ++ '-' :: (month ++ '-' :: day)) ['-'] = [year, month, day] := by
  rw [splitString_cons _ hY.digits.1 (hY.notMem rfl),
    splitString_cons _ hM.digits.1 (hM.notMem rfl), splitString_last hD.digits.1 (hD.notMem rfl)]

theorem splitString_time (hh : Field hour h) (hm : Field minute m) (hne : second ≠ [])
    (hs : ':' ∉ second) :
    splitString (hour ++ ':' :: (minute ++ ':' :: second)) [':'] = [hour, minute, second] := by
  rw [splitString_cons _ hh.digits.1 (hh.notMem rfl),
    splitString_cons _ hm.digits.1 (hm.notMem rfl), splitString_last hne hs]

theorem fromDbStringLocal_fields (zone : Zone) (hY : Field year Y) (hM : Field month M)
    (hD : Field day D) (hh : Field hour h) (hm : Field minute m) (hne : second ≠ [])
    (hspace : ' ' ∉ second) (hcolon : ':' ∉ second) :
    fromDbStringLocal zone ((year ++ '-' :: (month ++ '-' :: day)) ++
        ' ' :: (hour ++ ':' :: (minute ++ ':' :: second))) =
      (readSeconds second).map fun (s, u) => ofFields zone Y M D h m s u := by
  have hdate : ' ' ∉ year ++ '-' :: (month ++ '-' :: day) := by
    simp [hY.notMem, hM.notMem, hD.notMem]
  have htime : ' ' ∉ hour ++ ':' :: (minute ++ ':' :: second) := by
    simp [hh.notMem, hm.notMem, hspace]
  rw [fromDbStringLocal, splitString_cons _ (by simp) hdate, splitString_last (by simp) htime]
  simp only [item, List.length_cons, List.length_nil, List.getElem?_cons_zero,
    List.getElem?_cons_succ, bind, Except.bind, if_true,
    splitString_date hY hM hD, splitString_time hh hm hne hcolon, hY.read, hM.read, hD.read,
    hh.read, hm.read]
  cases readSeconds second <;> rfl

theorem readSeconds_whole (hs : Field second s) : readSeconds second = .ok (s, 0) := by
  rw [readSeconds, splitString_last hs.digits.1 (hs.notMem rfl)]
  simp [item, bind, Except.bind, hs.read]
  rfl

theorem readSeconds_fraction (hs : Field second s) {fraction : List Char} (hne : fraction ≠ [])
    (hdot : '.' ∉ fraction) :
    readSeconds (second ++ '.' :: fraction) =
      (readUnsigned (sixDigits fraction)).map fun u => (s, u) := by
  rw [readSeconds, splitString_cons _ hs.digits.1 (hs.notMem rfl), splitString_last hne hdot]
  simp only [item, List.length_cons, List.length_nil, List.getElem?_cons_zero,
    List.getElem?_cons_succ, bind, Except.bind, hs.read]
  cases readUnsigned (sixDigits fraction) <;> rfl

end Split

structure Printable (t : Tm) : Prop where
  sec : 0 ≤ t.tm_sec ∧ t.tm_sec < 60
  min : 0 ≤ t.tm_min ∧ t.tm_min < 60
  hour : 0 ≤ t.tm_hour ∧ t.tm_hour < 24
  mday : 1 ≤ t.tm_mday ∧ t.tm_mday ≤ 31
  mon : 0 ≤ t.tm_mon ∧ t.tm_mon < 12
  year : 1000 ≤ t.tm_year + 1900 ∧ t.tm_year + 1900 ≤ 9999

section Printable

variable {t : Tm} (ht : Printable t)
include ht

theorem Printable.field_year : Field (spacePadded 4 (t.tm_year + 1900)) (t.tm_year + 1900) := by
  have hyear := ht.year
  rw [@spacePadded_eq_zeroPadded _ 3 (by decide) (by omega) (by omega)]
  exact field_zeroPadded 4 (by omega)

theorem Printable.field_mon : Field (zeroPadded 2 (t.tm_mon + 1)) (t.tm_mon + 1) :=
  field_zeroPadded 2 (by have := ht.mon; omega)

theorem Printable.field_mday : Field (zeroPadded 2 t.tm_mday) t.tm_mday :=
  field_zeroPadded 2 (by have := ht.mday; omega)

theorem Printable.field_hour : Field (zeroPadded 2 t.tm_hour) t.tm_hour :=
  field_zeroPadded 2 (by have := ht.hour; omega)

theorem Printable.field_min : Field (zeroPadded 2 t.tm_min) t.tm_min :=
  field_zeroPadded 2 (by have := ht.min; omega)

theorem Printable.field_sec : Field (zeroPadded 2 t.tm_sec) t.tm_sec :=
  field_zeroPadded 2 (by have := ht.sec; omega)

theorem ofFields_tm (zone : Zone) (microSecond : Int) :
    ofFields zone (t.tm_year + 1900) (t.tm_mon + 1) t.tm_mday t.tm_hour t.tm_min t.tm_sec
        microSecond =
      ofMicroSeconds (zone.mktime { t with tm_isdst := -1 } * 1000000 + microSecond) := by
  have hsec := ht.sec
  have hmin := ht.min
  have hhour := ht.hour
  have hmday := ht.mday
  have hmon := ht.mon
  have hyear := ht.year
  have hint {n : Int} (h : 0 ≤ n ∧ n < 2 ^ 31) : toInt n = n := by rw [toInt]; omega
  have hshift {n k : Int} (hn : -2 ^ 31 ≤ n ∧ n < 2 ^ 31) : toInt (toUnsigned (n + k - k)) = n := by
    rw [toInt, toUnsigned]
    omega
  rw [ofFields, hint (by omega), hint (by omega), hint (by omega), hint (by omega),
    hshift (by omega), hshift (by omega)]

theorem fromDbStringLocal_date_time (zone : Zone) :
    fromDbStringLocal zone (dateText t ++ ' ' :: timeText t) =
      .ok (ofMicroSeconds (zone.mktime { t with tm_isdst := -1 } * 1000000)) := by
  have hs := ht.field_sec
  rw [dateText, timeText, fromDbStringLocal_fields zone ht.field_year ht.field_mon ht.field_mday
    ht.field_hour ht.field_min hs.digits.1 (hs.notMem rfl) (hs.notMem rfl), readSeconds_whole hs]
  exact congrArg Except.ok ((ofFields_tm ht zone 0).trans (by rw [Int.add_zero]))

theorem fromDbStringLocal_fraction (zone : Zone) {fraction : List Char} (hne : fraction ≠ [])
    (hspace : ' ' ∉ fraction) (hcolon : ':' ∉ fraction) (hdot : '.' ∉ fraction) :
    fromDbStringLocal zone (dateText t ++ ' ' :: (timeText t ++ '.' :: fraction)) =
      (readUnsigned (sixDigits fraction)).map fun u =>
        ofMicroSeconds (zone.mktime { t with tm_isdst := -1 } * 1000000 + u) := by
  have hs := ht.field_sec
  have htext : timeText t ++ '.' :: fraction = zeroPadded 2 t.tm_hour ++ ':' ::
      (zeroPadded 2 t.tm_min ++ ':' :: (zeroPadded 2 t.tm_sec ++ '.' :: fraction)) := by
    simp [timeText]
  rw [dateText, htext, fromDbStringLocal_fields zone ht.field_year ht.field_mon ht.field_mday
    ht.field_hour ht.field_min (by simp) (by simp [hs.notMem, hspace])
    (by simp [hs.notMem, hcolon]), readSeconds_fraction hs hne hdot]
  cases readUnsigned (sixDigits fraction) with
  | error e => rfl
  | ok u => simp [Except.map, ofFields_tm ht]

theorem fromDbStringLocal_dateText (zone : Zone) :
    fromDbStringLocal zone (dateText t) = .ok (ofFields zone 0 0 0 0 0 0 0) := by
  have hY := ht.field_year
  have hspace : ' ' ∉ dateText t := by
    simp [dateText, hY.notMem, ht.field_mon.notMem, ht.field_mday.notMem]
  rw [fromDbStringLocal, splitString_last (by simp [dateText, hY.digits.1]) hspace]
  rfl

end Printable

end MysqlConnectPool.DateTime
