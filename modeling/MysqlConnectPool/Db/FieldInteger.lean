import MysqlConnectPool.Library.Conversion

/-! The integral specialisations of `Field::as`. -/

namespace MysqlConnectPool.Field

open Library.Numeral

/-- `undefined` is undefined behaviour. -/
inductive Outcome
  | returns (n : Int)
  | throws (e : ReadError)
  | undefined
  deriving DecidableEq

def Outcome.ofExcept (cast : Int → Int) : Except ReadError Int → Outcome
  | .ok n => .returns (cast n)
  | .error e => .throws e

def Outcome.ofOption (cast : Int → Int) : Option Int → Outcome
  | some n => .returns (cast n)
  | none => .undefined

inductive Integral
  | int
  | long
  | long_long
  | unsigned_int
  | unsigned_long
  | unsigned_long_long
  | int8_t
  | uint8_t
  deriving DecidableEq

def Integral.bits : Integral → Nat
  | .int | .unsigned_int => 32
  | .long | .long_long | .unsigned_long | .unsigned_long_long => 64
  | .int8_t | .uint8_t => 8

def Integral.isSigned : Integral → Bool
  | .int | .long | .long_long | .int8_t => true
  | .unsigned_int | .unsigned_long | .unsigned_long_long | .uint8_t => false

def Integral.Representable (T : Integral) (n : Int) : Prop :=
  if T.isSigned then -2 ^ (T.bits - 1) ≤ n ∧ n < 2 ^ (T.bits - 1) else 0 ≤ n ∧ n < 2 ^ T.bits

instance (T : Integral) (n : Int) : Decidable (T.Representable n) :=
  inferInstanceAs (Decidable (if T.isSigned then -2 ^ (T.bits - 1) ≤ n ∧ n < 2 ^ (T.bits - 1)
    else 0 ≤ n ∧ n < 2 ^ T.bits))

def Integral.cast (T : Integral) (n : Int) : Int :=
  if T.isSigned then n.bmod (2 ^ T.bits) else n % 2 ^ T.bits

/-- `Field::as`; the value is `none` where `isNull` holds. -/
def as (T : Integral) : Option (List Char) → Outcome
  | none => .returns 0
  | some value =>
    match T with
    | .int => .ofExcept id (stoi value)
    | .long => .ofExcept id (stol value)
    | .int8_t => .ofOption Integral.int8_t.cast (atoi value)
    | .long_long => .ofOption id (atoll value)
    | .unsigned_int => .ofExcept Integral.unsigned_int.cast (stoul value)
    | .unsigned_long => .ofExcept id (stoul value)
    | .uint8_t => .ofOption Integral.uint8_t.cast (atoi value)
    | .unsigned_long_long => .ofExcept id (stoull value)

/-- What the conversion should do with the text of `n`. -/
def Exact (T : Integral) (n : Int) : Prop :=
  (T.Representable n → as T (some (decimal n)) = .returns n) ∧
    (¬ T.Representable n → ∃ e, as T (some (decimal n)) = .throws e)

/-- When it does: `long long`, `int8_t` and `uint8_t` read what does not fit without a check, a
minus sign is negated away in the unsigned types, and `unsigned int` cuts what `unsigned long`
holds. -/
def Integral.Safe : Integral → Int → Prop
  | .int, _ | .long, _ => True
  | .long_long, n => -2 ^ 63 ≤ n ∧ n < 2 ^ 63
  | .int8_t, n => -2 ^ 7 ≤ n ∧ n < 2 ^ 7
  | .uint8_t, n => 0 ≤ n ∧ n < 2 ^ 8
  | .unsigned_int, n => ¬ (-2 ^ 64 < n ∧ n < 0) ∧ ¬ (2 ^ 32 ≤ n ∧ n < 2 ^ 64)
  | .unsigned_long, n | .unsigned_long_long, n => ¬ (-2 ^ 64 < n ∧ n < 0)

theorem exact_iff_of_returns {T : Integral} {n m : Int}
    (h : as T (some (decimal n)) = .returns m) : Exact T n ↔ T.Representable n ∧ m = n := by
  rw [Exact, h]
  constructor
  · rintro ⟨hreturns, hthrows⟩
    by_cases hT : T.Representable n
    · exact ⟨hT, Outcome.returns.inj (hreturns hT)⟩
    · obtain ⟨e, he⟩ := hthrows hT
      cases he
  · rintro ⟨hT, rfl⟩
    exact ⟨fun _ => rfl, fun hnot => absurd hT hnot⟩

theorem exact_iff_of_throws {T : Integral} {n : Int} {e : ReadError}
    (h : as T (some (decimal n)) = .throws e) : Exact T n ↔ ¬ T.Representable n := by
  rw [Exact, h]
  constructor
  · rintro ⟨hreturns, -⟩ hT
    cases hreturns hT
  · intro hnot
    exact ⟨fun hT => absurd hT hnot, fun _ => ⟨e, rfl⟩⟩

theorem not_exact_of_undefined {T : Integral} {n : Int}
    (h : as T (some (decimal n)) = .undefined) : ¬ Exact T n := by
  rw [Exact, h]
  rintro ⟨hreturns, hthrows⟩
  by_cases hT : T.Representable n
  · cases hreturns hT
  · obtain ⟨e, he⟩ := hthrows hT
    cases he

section Conversions

variable {T : Integral} {n : Int} {p : Prop} [Decidable p] {cast : Int → Int}

theorem exact_of_checked {r : Except ReadError Int}
    (hr : r = if p then .ok n else .error .out_of_range)
    (h : as T (some (decimal n)) = .ofExcept id r) (hp : p ↔ T.Representable n) : Exact T n := by
  subst hr
  by_cases hn : p
  · rw [if_pos hn] at h
    exact (exact_iff_of_returns h).mpr ⟨hp.mp hn, rfl⟩
  · rw [if_neg hn] at h
    exact (exact_iff_of_throws h).mpr fun hT => hn (hp.mpr hT)

theorem exact_iff_of_unchecked {r : Option Int} (hr : r = if p then some n else none)
    (h : as T (some (decimal n)) = .ofOption cast r) (hp : T.Representable n → p)
    (hcast : T.Representable n → cast n = n) : Exact T n ↔ T.Representable n := by
  subst hr
  by_cases hn : p
  · rw [if_pos hn] at h
    rw [exact_iff_of_returns h]
    exact and_iff_left_of_imp hcast
  · rw [if_neg hn] at h
    exact iff_of_false (not_exact_of_undefined h) fun hT => hn (hp hT)

theorem exact_iff_of_magnitude (h : as T (some (decimal n)) = .ofExcept cast (stoul (decimal n)))
    (hT : T.Representable n → 0 ≤ n ∧ n < 2 ^ 64) (hcast : T.Representable n → cast n = n) :
    Exact T n ↔ (-2 ^ 64 < n ∧ n < 2 ^ 64 → T.Representable n) := by
  rw [stoul_decimal] at h
  by_cases hn : -2 ^ 64 < n ∧ n < 2 ^ 64
  · rw [if_pos hn] at h
    rw [exact_iff_of_returns h]
    constructor
    · rintro ⟨hn, -⟩ -
      exact hn
    · intro himp
      obtain ⟨hle, hlt⟩ := hT (himp hn)
      exact ⟨himp hn, by rw [Int.emod_eq_of_lt hle hlt]; exact hcast (himp hn)⟩
  · rw [if_neg hn] at h
    rw [exact_iff_of_throws h]
    refine iff_of_true (fun hrep => ?_) fun himp => absurd himp hn
    have := hT hrep
    omega

end Conversions

theorem as_exact_iff (T : Integral) (n : Int) : Exact T n ↔ T.Safe n := by
  cases T with
  | int => exact iff_of_true (exact_of_checked (stoi_decimal n) rfl Iff.rfl) trivial
  | long => exact iff_of_true (exact_of_checked (stol_decimal n) rfl Iff.rfl) trivial
  | long_long => exact exact_iff_of_unchecked (ato_decimal 64 n) rfl id fun _ => rfl
  | unsigned_int =>
    have hT : Integral.unsigned_int.Representable n ↔ 0 ≤ n ∧ n < 2 ^ 32 := Iff.rfl
    have hcast : Integral.unsigned_int.Representable n → Integral.unsigned_int.cast n = n :=
      fun h => Int.emod_eq_of_lt (hT.mp h).1 (hT.mp h).2
    rw [exact_iff_of_magnitude rfl (by rw [hT]; omega) hcast, hT, Integral.Safe]
    omega
  | unsigned_long =>
    have hT : Integral.unsigned_long.Representable n ↔ 0 ≤ n ∧ n < 2 ^ 64 := Iff.rfl
    have hcast : Integral.unsigned_long.Representable n → id n = n := fun _ => rfl
    rw [exact_iff_of_magnitude rfl hT.mp hcast, hT, Integral.Safe]
    omega
  | unsigned_long_long =>
    have hT : Integral.unsigned_long_long.Representable n ↔ 0 ≤ n ∧ n < 2 ^ 64 := Iff.rfl
    have hcast : Integral.unsigned_long_long.Representable n → id n = n := fun _ => rfl
    rw [exact_iff_of_magnitude rfl hT.mp hcast, hT, Integral.Safe]
    omega
  | int8_t =>
    have hT : Integral.int8_t.Representable n ↔ -2 ^ 7 ≤ n ∧ n < 2 ^ 7 := Iff.rfl
    refine exact_iff_of_unchecked (ato_decimal 32 n) rfl ?_ fun h => ?_
    · rw [hT]
      omega
    · rw [hT] at h
      change n.bmod 256 = n
      exact Int.bmod_eq_of_le (by omega) (by omega)
  | uint8_t =>
    have hT : Integral.uint8_t.Representable n ↔ 0 ≤ n ∧ n < 2 ^ 8 := Iff.rfl
    refine exact_iff_of_unchecked (ato_decimal 32 n) rfl ?_ fun h => ?_
    · rw [hT]
      omega
    · rw [hT] at h
      exact Int.emod_eq_of_lt h.1 h.2

/-- The text of -1 comes back as the greatest `unsigned long`. -/
theorem as_unsigned_long_minus_one :
    as .unsigned_long (some (decimal (-1))) = .returns (2 ^ 64 - 1) ∧
      ¬ Exact .unsigned_long (-1) := by
  have h : as .unsigned_long (some (decimal (-1))) = .returns (2 ^ 64 - 1) := by decide
  refine ⟨h, fun hexact => ?_⟩
  obtain ⟨e, he⟩ := hexact.2 (by decide)
  rw [h] at he
  cases he

end MysqlConnectPool.Field
