import MysqlConnectPool.Library.Numeral

/-! The conversions of the C and C++ libraries from decimal text, for `int` of 32 and `long` of 64
bits. -/

namespace MysqlConnectPool.Library.Numeral

def readMagnitude (negative : Bool) (s : List Char) : Option (Bool × Nat) :=
  let digits := s.takeWhile Char.isDigit
  if digits = [] then none else some (negative, Nat.ofDigitChars 10 digits 0)

def readNumber (s : List Char) : Option (Bool × Nat) := readSigned readMagnitude s

def signed (negative : Bool) (n : Nat) : Int := if negative then -n else n

def stoi (s : List Char) : Except ReadError Int := do
  let n ← stol s
  if -2 ^ 31 ≤ n ∧ n < 2 ^ 31 then .ok n else .error .out_of_range

/-- The magnitude is what has to fit; a minus sign then negates it in the unsigned type. -/
def stoul (s : List Char) : Except ReadError Int :=
  match readNumber s with
  | none => .error .invalid_argument
  | some (negative, n) =>
    if n < 2 ^ 64 then .ok (signed negative n % 2 ^ 64) else .error .out_of_range

def stoull (s : List Char) : Except ReadError Int := stoul s

/-- Without a number 0; `none`, which is undefined behaviour, for one that does not fit. -/
def ato (bits : Nat) (s : List Char) : Option Int :=
  match readNumber s with
  | none => some 0
  | some (negative, n) =>
    if -2 ^ (bits - 1) ≤ signed negative n ∧ signed negative n < 2 ^ (bits - 1) then
      some (signed negative n)
    else none

def atoi (s : List Char) : Option Int := ato 32 s

def atoll (s : List Char) : Option Int := ato 64 s

/-! What they make of a decimal number. -/

theorem readSigned_comp (f : α → β) (read : Bool → List Char → α) (s : List Char) :
    readSigned (fun negative s => f (read negative s)) s = f (readSigned read s) := by
  rw [readSigned, readSigned]
  split <;> rfl

def toLong : Option (Bool × Nat) → Except ReadError Int
  | none => .error .invalid_argument
  | some (negative, n) =>
    if -2 ^ 63 ≤ signed negative n ∧ signed negative n < 2 ^ 63 then .ok (signed negative n)
    else .error .out_of_range

theorem readDigits_eq_toLong (negative : Bool) (s : List Char) :
    readDigits negative s = toLong (readMagnitude negative s) := by
  rw [readDigits, readMagnitude]
  by_cases h : s.takeWhile Char.isDigit = []
  · simp only [h, if_true]
    rfl
  · simp only [if_neg h]
    rfl

theorem stol_eq_toLong (s : List Char) : stol s = toLong (readNumber s) := by
  have hread : readDigits = fun negative s => toLong (readMagnitude negative s) := by
    funext negative s
    exact readDigits_eq_toLong negative s
  calc
    stol s = readSigned readDigits s := stol_eq_readSigned s
    _ = toLong (readNumber s) := by rw [hread, readSigned_comp toLong, readNumber]

theorem readMagnitude_digits (negative : Bool) {s : List Char} (h : Digits s) :
    readMagnitude negative s = some (negative, Nat.ofDigitChars 10 s 0) := by
  have htake : s.takeWhile Char.isDigit = s := List.takeWhile_eq_self_iff.mpr h.2
  rw [readMagnitude, htake, if_neg h.1]

theorem readNumber_digits {s : List Char} (h : Digits s) :
    readNumber s = some (false, Nat.ofDigitChars 10 s 0) := by
  rw [readNumber, readSigned_digits _ h, readMagnitude_digits false h]

theorem readNumber_decimal (n : Int) :
    readNumber (decimal n) = some (decide (n < 0), n.natAbs) := by
  have hdigits := digits_toDigits n.natAbs
  rw [decimal]
  by_cases hn : n < 0
  · rw [if_pos hn, decide_eq_true hn]
    exact (readMagnitude_digits true hdigits).trans (by rw [Nat.ofDigitChars_ten_toDigits])
  · rw [if_neg hn, decide_eq_false hn, readNumber_digits hdigits, Nat.ofDigitChars_ten_toDigits]

theorem signed_natAbs (n : Int) : signed (decide (n < 0)) n.natAbs = n := by
  rw [signed]
  split_ifs with hn
  · rw [decide_eq_true_eq] at hn
    omega
  · rw [decide_eq_true_eq] at hn
    omega

theorem stol_decimal (n : Int) :
    stol (decimal n) = if -2 ^ 63 ≤ n ∧ n < 2 ^ 63 then .ok n else .error .out_of_range := by
  rw [stol_eq_toLong, readNumber_decimal, toLong, signed_natAbs]

theorem stoi_decimal (n : Int) :
    stoi (decimal n) = if -2 ^ 31 ≤ n ∧ n < 2 ^ 31 then .ok n else .error .out_of_range := by
  rw [stoi, stol_decimal]
  by_cases hlong : -2 ^ 63 ≤ n ∧ n < 2 ^ 63
  · rw [if_pos hlong]
    rfl
  · rw [if_neg hlong, if_neg (by omega)]
    rfl

theorem stoul_decimal (n : Int) :
    stoul (decimal n) =
      if -2 ^ 64 < n ∧ n < 2 ^ 64 then .ok (n % 2 ^ 64) else .error .out_of_range := by
  rw [stoul, readNumber_decimal]
  simp only [signed_natAbs]
  congr 1
  rw [eq_iff_iff]
  omega

theorem ato_decimal (bits : Nat) (n : Int) :
    ato bits (decimal n) =
      if -2 ^ (bits - 1) ≤ n ∧ n < 2 ^ (bits - 1) then some n else none := by
  rw [ato, readNumber_decimal]
  simp only [signed_natAbs]

end MysqlConnectPool.Library.Numeral
