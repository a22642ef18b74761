import Mathlib.Algebra.Order.Ring.Int
import Mathlib.Data.List.TakeWhile

/-! Decimal numerals: printing with a width, and reading a signed number of 64 bits from the start of a
text. -/

namespace MysqlConnectPool.Library.Numeral

def decimal (n : Int) : List Char :=
  if n < 0 then '-' :: Nat.toDigits 10 n.natAbs else Nat.toDigits 10 n.natAbs

def spacePadded (width : Nat) (n : Int) : List Char := (decimal n).leftpad width ' '

def zeroPadded (width : Nat) (n : Int) : List Char :=
  if n < 0 then '-' :: (Nat.toDigits 10 n.natAbs).leftpad (width - 1) '0'
  else (Nat.toDigits 10 n.natAbs).leftpad width '0'

inductive ReadError
  | invalid_argument
  | out_of_range
  deriving DecidableEq

def isSpace (c : Char) : Bool := c ∈ [' ', '\t', '\n', '\x0b', '\x0c', '\x0d']

def readDigits (negative : Bool) (s : List Char) : Except ReadError Int :=
  let digits := s.takeWhile Char.isDigit
  let n : Int := Nat.ofDigitChars 10 digits 0
  let n := if negative then -n else n
  if digits = [] then .error .invalid_argument
  else if -2 ^ 63 ≤ n ∧ n < 2 ^ 63 then .ok n
  else .error .out_of_range

/-- Leading white space, a sign and digits; what follows is not read. -/
def stol (s : List Char) : Except ReadError Int :=
  match s.dropWhile isSpace with
  | '-' :: s => readDigits true s
  | '+' :: s => readDigits false s
  | s => readDigits false s

def readSigned (read : Bool → List Char → α) (s : List Char) : α :=
  match s.dropWhile isSpace with
  | '-' :: s => read true s
  | '+' :: s => read false s
  | s => read false s

theorem stol_eq_readSigned (s : List Char) : stol s = readSigned readDigits s := rfl

def Digits (s : List Char) : Prop := s ≠ [] ∧ ∀ c ∈ s, c.isDigit

theorem digits_toDigits (n : Nat) : Digits (Nat.toDigits 10 n) :=
  ⟨Nat.toDigits_ne_nil, fun _ => Nat.isDigit_of_mem_toDigits (by decide) (by decide)⟩

theorem Digits.leftpad {s : List Char} (h : Digits s) (width : Nat) :
    Digits (s.leftpad width '0') := by
  refine ⟨by simp [List.leftpad, h.1], fun c hc => ?_⟩
  rcases List.mem_append.mp hc with hc | hc
  · rw [List.eq_of_mem_replicate hc]
    rfl
  · exact h.2 c hc

theorem ofDigitChars_leftpad (s : List Char) (width : Nat) :
    Nat.ofDigitChars 10 (s.leftpad width '0') 0 = Nat.ofDigitChars 10 s 0 := by
  rw [List.leftpad, Nat.ofDigitChars_append, Nat.ofDigitChars_replicate_zero, Nat.mul_zero]

theorem readDigits_digits (negative : Bool) {s : List Char} (h : Digits s)
    (hs : Nat.ofDigitChars 10 s 0 < 2 ^ 63) :
    readDigits negative s =
      .ok (if negative then -(Nat.ofDigitChars 10 s 0 : Int) else Nat.ofDigitChars 10 s 0) := by
  have htake : s.takeWhile Char.isDigit = s := List.takeWhile_eq_self_iff.mpr h.2
  simp only [readDigits, htake, if_neg h.1]
  cases negative <;> simp <;> omega

theorem readSigned_digits (read : Bool → List Char → α) {s : List Char} (h : Digits s) :
    readSigned read s = read false s := by
  obtain ⟨c, s, rfl⟩ := List.exists_cons_of_ne_nil h.1
  have hc : c.isDigit := h.2 c List.mem_cons_self
  have hspace : isSpace c = false := by
    refine decide_eq_false fun hmem => ?_
    simp only [List.mem_cons, List.not_mem_nil, or_false] at hmem
    rcases hmem with rfl | rfl | rfl | rfl | rfl | rfl <;> exact absurd hc (by decide)
  rw [readSigned, List.dropWhile_cons_of_neg (by simp [hspace])]
  split
  · next heq => cases heq; exact absurd hc (by decide)
  · next heq => cases heq; exact absurd hc (by decide)
  · rfl

theorem stol_digits {s : List Char} (h : Digits s) (hs : Nat.ofDigitChars 10 s 0 < 2 ^ 63) :
    stol s = .ok (Nat.ofDigitChars 10 s 0 : Int) := by
  rw [stol_eq_readSigned, readSigned_digits _ h]
  exact readDigits_digits false h hs

theorem ofDigitChars_lt {s : List Char} (h : ∀ c ∈ s, c.isDigit) :
    Nat.ofDigitChars 10 s 0 < 10 ^ s.length := by
  induction s with
  | nil => decide
  | cons c s ih =>
    have hs := ih fun d hd => h d (List.mem_cons_of_mem c hd)
    have hc : c.toNat - '0'.toNat ≤ 9 := by
      have hdigit := h c List.mem_cons_self
      simp only [Char.isDigit, Bool.and_eq_true, decide_eq_true_eq] at hdigit
      have hnine : c.toNat ≤ 57 := hdigit.2
      have hzero : '0'.toNat = 48 := rfl
      omega
    rw [Nat.ofDigitChars_cons, Nat.mul_zero, Nat.zero_add, Nat.ofDigitChars_eq_ofDigitChars_zero,
      List.length_cons, Nat.pow_succ]
    have := Nat.mul_le_mul_left (10 ^ s.length) hc
    omega

theorem ofDigitChars_take {s : List Char} (h : ∀ c ∈ s, c.isDigit) (n : Nat) :
    Nat.ofDigitChars 10 (s.take n) 0 = Nat.ofDigitChars 10 s 0 / 10 ^ (s.length - n) := by
  have hdrop : Nat.ofDigitChars 10 (s.drop n) 0 < 10 ^ (s.length - n) := by
    rw [← List.length_drop]
    exact ofDigitChars_lt fun c hc => h c (List.mem_of_mem_drop hc)
  have hs : Nat.ofDigitChars 10 s 0 = 10 ^ (s.length - n) * Nat.ofDigitChars 10 (s.take n) 0 +
      Nat.ofDigitChars 10 (s.drop n) 0 := by
    rw [← List.length_drop, ← Nat.ofDigitChars_eq_ofDigitChars_zero, ← Nat.ofDigitChars_append,
      List.take_append_drop]
  rw [hs, Nat.mul_add_div (Nat.pow_pos (by decide)), Nat.div_eq_of_lt hdrop, Nat.add_zero]

theorem stol_minus {s : List Char} (h : Digits s) (hs : Nat.ofDigitChars 10 s 0 < 2 ^ 63) :
    stol ('-' :: s) = .ok (-(Nat.ofDigitChars 10 s 0 : Int)) :=
  readDigits_digits true h hs

theorem stol_zeroPadded {n : Int} (width : Nat) (h : n.natAbs < 2 ^ 63) :
    stol (zeroPadded width n) = .ok n := by
  have hvalue (w : Nat) :
      Nat.ofDigitChars 10 ((Nat.toDigits 10 n.natAbs).leftpad w '0') 0 = n.natAbs := by
    rw [ofDigitChars_leftpad, Nat.ofDigitChars_ten_toDigits]
  have hdigits := digits_toDigits n.natAbs
  rw [zeroPadded]
  split
  · rw [stol_minus (hdigits.leftpad _) (by rw [hvalue]; exact h), hvalue]
    congr 1
    omega
  · rw [stol_digits (hdigits.leftpad _) (by rw [hvalue]; exact h), hvalue]
    congr 1
    omega

theorem digits_zeroPadded {n : Int} (width : Nat) (h : 0 ≤ n) : Digits (zeroPadded width n) := by
  rw [zeroPadded, if_neg (by omega)]
  exact (digits_toDigits _).leftpad _

theorem zeroPadded_ne_nil (width : Nat) (n : Int) : zeroPadded width n ≠ [] := by
  rw [zeroPadded]
  split
  · nofun
  · exact ((digits_toDigits _).leftpad _).1

theorem notMem_zeroPadded {c : Char} (width : Nat) (n : Int) (hdigit : c.isDigit = false)
    (hminus : c ≠ '-') : c ∉ zeroPadded width n := by
  have hpad (w : Nat) : c ∉ (Nat.toDigits 10 n.natAbs).leftpad w '0' := fun h => by
    rw [((digits_toDigits _).leftpad w).2 c h] at hdigit
    cases hdigit
  rw [zeroPadded]
  split
  · exact List.not_mem_cons_of_ne_of_not_mem hminus (hpad _)
  · exact hpad width

theorem length_zeroPadded {n : Int} {width : Nat} (h₁ : 0 ≤ n) (h₂ : n.natAbs < 10 ^ width)
    (hwidth : 0 < width) : (zeroPadded width n).length = width := by
  have hlength : (Nat.toDigits 10 n.natAbs).length ≤ width :=
    (Nat.length_toDigits_le_iff (by decide) hwidth).mpr h₂
  rw [zeroPadded, if_neg (by omega), List.leftpad, List.length_append, List.length_replicate]
  omega

theorem spacePadded_eq_zeroPadded {n : Int} {width : Nat} (hwidth : 0 < width) (h₁ : 0 ≤ n)
    (h₂ : 10 ^ width ≤ n.natAbs) : spacePadded (width + 1) n = zeroPadded (width + 1) n := by
  have hlength : width + 1 - (Nat.toDigits 10 n.natAbs).length = 0 := by
    have h := mt (Nat.length_toDigits_le_iff (b := 10) (n := n.natAbs) (by decide) hwidth).mp
      (by omega)
    omega
  rw [spacePadded, zeroPadded, decimal, if_neg (by omega), if_neg (by omega), List.leftpad,
    List.leftpad, hlength]
  rfl

end MysqlConnectPool.Library.Numeral
