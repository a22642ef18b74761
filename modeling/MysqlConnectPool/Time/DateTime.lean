import MysqlConnectPool.Library.Calendar
import MysqlConnectPool.Library.Double
import MysqlConnectPool.Library.Numeral
import MysqlConnectPool.Utils.SplitString

/-! Time points and their database strings. -/

namespace MysqlConnectPool

open Library Library.Calendar Library.Double Library.Numeral utils

def wrap64 (n : Int) : Int := (n + 2 ^ 63) % 2 ^ 64 - 2 ^ 63

def toUnsigned (n : Int) : Int := n % 2 ^ 32

def toInt (n : Int) : Int := (n + 2 ^ 31) % 2 ^ 32 - 2 ^ 31

structure Tm where
  tm_sec : Int
  tm_min : Int
  tm_hour : Int
  tm_mday : Int
  tm_mon : Int
  tm_year : Int
  tm_isdst : Int
  deriving DecidableEq

def Tm.seconds (t : Tm) : Int :=
  (Date.mk (t.tm_year + 1900) (t.tm_mon + 1) t.tm_mday).dayNumber * 86400 + t.tm_hour * 3600 +
    t.tm_min * 60 + t.tm_sec

def Tm.ofSeconds (isdst seconds : Int) : Tm :=
  let date := Date.ofDayNumber (seconds / 86400)
  { tm_sec := seconds % 60
    tm_min := seconds / 60 % 60
    tm_hour := seconds / 3600 % 24
    tm_mday := date.day
    tm_mon := date.month - 1
    tm_year := date.year - 1900
    tm_isdst := isdst }

/-- The functions of the C library that know the time zone. -/
structure Zone where
  localtime : Int → Tm
  mktime : Tm → Int

structure DateTime where
  microSecondsSinceEpoch : Int
  inRange : -2 ^ 63 ≤ microSecondsSinceEpoch ∧ microSecondsSinceEpoch < 2 ^ 63
  deriving DecidableEq

inductive Failure
  | stol (e : ReadError)
  | indexPastEnd
  deriving DecidableEq

theorem wrap64_range (n : Int) : -2 ^ 63 ≤ wrap64 n ∧ wrap64 n < 2 ^ 63 := by
  rw [wrap64]
  omega

theorem wrap64_eq_self {n : Int} (h : -2 ^ 63 ≤ n ∧ n < 2 ^ 63) : wrap64 n = n := by
  rw [wrap64]
  omega

namespace DateTime

def ofMicroSeconds (n : Int) : DateTime := ⟨wrap64 n, wrap64_range n⟩

@[ext] theorem ext {d e : DateTime} (h : d.microSecondsSinceEpoch = e.microSecondsSinceEpoch) :
    d = e := by
  cases d
  cases e
  cases h
  rfl

@[simp] theorem ofMicroSeconds_micro {n : Int} (h : -2 ^ 63 ≤ n ∧ n < 2 ^ 63) :
    (ofMicroSeconds n).microSecondsSinceEpoch = n :=
  wrap64_eq_self h

def ofFields (zone : Zone) (year month day hour minute second microSecond : Int) : DateTime :=
  ofMicroSeconds (zone.mktime
    { tm_sec := toInt second
      tm_min := toInt minute
      tm_hour := toInt hour
      tm_mday := toInt day
      tm_mon := toInt (toUnsigned (month - 1))
      tm_year := toInt (toUnsigned (year - 1900))
      tm_isdst := -1 } * 1000000 + microSecond)

def secondsSinceEpoch (d : DateTime) : Int := d.microSecondsSinceEpoch.tdiv 1000000

/-- `after`, for a double that holds a whole number. -/
def after (d : DateTime) (second : Int) : DateTime :=
  ofMicroSeconds (toDouble (toDouble d.microSecondsSinceEpoch +
    toDouble (second * toDouble 1000000)))

def roundDay (zone : Zone) (d : DateTime) : DateTime :=
  let t := zone.localtime (d.microSecondsSinceEpoch.tdiv 1000000)
  ofMicroSeconds (zone.mktime { t with tm_hour := 0, tm_min := 0, tm_sec := 0 } * 1000000)

def dateText (t : Tm) : List Char :=
  spacePadded 4 (t.tm_year + 1900) ++ '-' :: (zeroPadded 2 (t.tm_mon + 1) ++
    '-' :: zeroPadded 2 t.tm_mday)

def timeText (t : Tm) : List Char :=
  zeroPadded 2 t.tm_hour ++ ':' :: (zeroPadded 2 t.tm_min ++ ':' :: zeroPadded 2 t.tm_sec)

def toDbStringLocal (zone : Zone) (d : DateTime) : List Char :=
  let t := zone.localtime (d.microSecondsSinceEpoch.tdiv 1000000)
  let microseconds := d.microSecondsSinceEpoch.tmod 1000000
  if microseconds ≠ 0 then dateText t ++ ' ' :: (timeText t ++ '.' :: zeroPadded 6 microseconds)
  else if d = d.roundDay zone then dateText t
  else dateText t ++ ' ' :: timeText t

def item (v : List (List Char)) (i : Nat) : Except Failure (List Char) :=
  match v[i]? with
  | none => .error .indexPastEnd
  | some s => .ok s

def readUnsigned (s : List Char) : Except Failure Int :=
  match stol s with
  | .error e => .error (.stol e)
  | .ok n => .ok (toUnsigned n)

def sixDigits (s : List Char) : List Char :=
  if s.length > 6 then s.take 6
  else if s.length < 6 then s ++ List.replicate (6 - s.length) '0'
  else s

def readSeconds (s : List Char) : Except Failure (Int × Int) := do
  let seconds := splitString s ['.']
  let second ← readUnsigned (← item seconds 0)
  if 1 < seconds.length then
    let microSecond ← readUnsigned (sixDigits (← item seconds 1))
    return (second, microSecond)
  else return (second, 0)

def fromDbStringLocal (zone : Zone) (datetime : List Char) : Except Failure DateTime := do
  let v := splitString datetime [' ']
  if 2 = v.length then
    let date := splitString (← item v 0) ['-']
    if 3 = date.length then
      let year ← readUnsigned (← item date 0)
      let month ← readUnsigned (← item date 1)
      let day ← readUnsigned (← item date 2)
      let time := splitString (← item v 1) [':']
      if 2 < time.length then
        let hour ← readUnsigned (← item time 0)
        let minute ← readUnsigned (← item time 1)
        let (second, microSecond) ← readSeconds (← item time 2)
        return ofFields zone year month day hour minute second microSecond
      else return ofFields zone year month day 0 0 0 0
    else return ofFields zone 0 0 0 0 0 0 0
  else return ofFields zone 0 0 0 0 0 0 0

def timezoneOffset (zone : Zone) : Except Failure Int := do
  let d ← fromDbStringLocal zone "1970-01-03 00:00:00".toList
  return -(d.secondsSinceEpoch - 2 * 3600 * 24)

def toDbString (zone : Zone) (d : DateTime) : Except Failure (List Char) := do
  let offset ← timezoneOffset zone
  return (d.after (toDouble (-offset))).toDbStringLocal zone

def fromDbString (zone : Zone) (datetime : List Char) : Except Failure DateTime := do
  let d ← fromDbStringLocal zone datetime
  let offset ← timezoneOffset zone
  return d.after (toDouble offset)

end DateTime

end MysqlConnectPool
