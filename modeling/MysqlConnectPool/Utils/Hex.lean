import Mathlib.Data.List.Basic

/-! `hexToBinaryString` and `hexToBinaryVector`. -/

namespace MysqlConnectPool.utils

def char (c : Char) : Int8 := Int8.ofNat c.toNat

def fill (round : Nat → Option α) (n : Nat) (ret : List α) : Option (List α) :=
  (List.range n).foldlM (fun ret i => (round i).map (ret.set i)) ret

/-- One round of the loop, `none` where it returns early. The arithmetic is that of `int`, and
storing it in a `char` that of `Int8`. -/
def hexToBinaryString.round (ptr : List Int8) (i : Nat) : Option Int8 := do
  let p := i * 2
  let c1 := ptr.getD p 0
  let c1 ←
    (if char '0' ≤ c1 ∧ c1 ≤ char '9' then some (c1 - char '0')
    else if char 'a' ≤ c1 ∧ c1 ≤ char 'f' then some (c1 - char 'a' + 10)
    else if char 'A' ≤ c1 ∧ c1 ≤ char 'F' then some (c1 - char 'A' + 10)
    else none)
  let c2 := ptr.getD (p + 1) 0
  let c2 ←
    (if char '0' ≤ c2 ∧ c2 ≤ char '9' then some (c2 - char '0')
    else if char 'a' ≤ c2 ∧ c2 ≤ char 'f' then some (c2 - char 'a' + 10)
    else if char 'A' ≤ c2 ∧ c2 ≤ char 'F' then some (c2 - char 'A' + 10)
    else none)
  return c1 * 16 + c2

/-- `none` where the assertion fails. -/
def hexToBinaryString (ptr : List Int8) : Option (List Int8) :=
  if ptr.length % 2 = 0 then
    let ret := List.replicate (ptr.length / 2) 0
    some ((fill (hexToBinaryString.round ptr) ret.length ret).getD [])
  else none

def hexToBinaryVector.round (ptr : List Int8) (i : Nat) : Option Int8 := do
  let p := i * 2
  let c1 := ptr.getD p 0
  let c1 ←
    (if char '0' ≤ c1 ∧ c1 ≤ char '9' then some (c1 - char '0')
    else if char 'a' ≤ c1 ∧ c1 ≤ char 'f' then some (c1 - char 'a' + 10)
    else if char 'A' ≤ c1 ∧ c1 ≤ char 'F' then some (c1 - char 'A' + 10)
    else none)
  let c2 := ptr.getD (p + 1) 0
  let c2 ←
    (if char '0' ≤ c2 ∧ c2 ≤ char '9' then some (c2 - char '0')
    else if char 'a' ≤ c2 ∧ c2 ≤ char 'f' then some (c2 - char 'a' + 10)
    else if char 'A' ≤ c2 ∧ c2 ≤ char 'F' then some (c2 - char 'A' + 10)
    else none)
  return c1 * 16 + c2

def hexToBinaryVector (ptr : List Int8) : Option (List Int8) :=
  if ptr.length % 2 = 0 then
    let ret := List.replicate (ptr.length / 2) 0
    some ((fill (hexToBinaryVector.round ptr) ret.length ret).getD [])
  else none

/-! The loop. -/

theorem fill_succ (round : Nat → Option α) (n : Nat) (ret : List α) :
    fill round (n + 1) ret =
      (fill round n ret).bind fun ret => (round n).map (ret.set n) := by
  rw [fill, List.range_succ, List.foldlM_append]
  simp [fill]

theorem fill_eq_some {round : Nat → Option α} {n : Nat} {ret out : List α}
    (hn : n ≤ ret.length) (h : fill round n ret = some out) :
    out.length = ret.length ∧ ∀ i < n, out[i]? = round i := by
  induction n generalizing out with
  | zero =>
    cases h
    exact ⟨rfl, fun i hi => absurd hi (Nat.not_lt_zero i)⟩
  | succ n ih =>
    rw [fill_succ] at h
    obtain ⟨mid, hmid, h⟩ := Option.bind_eq_some_iff.mp h
    obtain ⟨b, hb, rfl⟩ := Option.map_eq_some_iff.mp h
    obtain ⟨hlength, hget⟩ := ih (by omega) hmid
    refine ⟨by rw [List.length_set, hlength], fun i hi => ?_⟩
    by_cases hin : n = i
    · subst hin
      rw [List.getElem?_set_self (by omega), hb]
    · rw [List.getElem?_set_ne hin, hget i (by omega)]

theorem fill_eq_none_iff {round : Nat → Option α} {n : Nat} {ret : List α} :
    fill round n ret = none ↔ ∃ i < n, round i = none := by
  induction n with
  | zero => simp [fill]
  | succ n ih =>
    rw [fill_succ]
    cases h : fill round n ret with
    | none =>
      obtain ⟨i, hi, hround⟩ := ih.mp h
      exact iff_of_true rfl ⟨i, by omega, hround⟩
    | some mid =>
      rw [h] at ih
      have hsome : ∀ i < n, round i ≠ none := fun i hi hround =>
        absurd (ih.mpr ⟨i, hi, hround⟩) (Option.some_ne_none mid)
      constructor
      · intro hlast
        exact ⟨n, by omega, by simpa using hlast⟩
      · rintro ⟨i, hi, hround⟩
        obtain rfl : i = n := by
          by_contra hne
          exact hsome i (by omega) hround
        simp [hround]

/-! Hexadecimal digits. -/

inductive HexDigit (c : Int8) : Nat → Prop
  | decimal {v : Nat} : v < 10 → c.toInt = '0'.toNat + v → HexDigit c v
  | lower {v : Nat} : v < 6 → c.toInt = 'a'.toNat + v → HexDigit c (10 + v)
  | upper {v : Nat} : v < 6 → c.toInt = 'A'.toNat + v → HexDigit c (10 + v)

theorem HexDigit.lt {c : Int8} {v : Nat} (h : HexDigit c v) : v < 16 := by
  cases h <;> omega

def hexDigit (c : Int8) : Option Int8 :=
  if char '0' ≤ c ∧ c ≤ char '9' then some (c - char '0')
  else if char 'a' ≤ c ∧ c ≤ char 'f' then some (c - char 'a' + 10)
  else if char 'A' ≤ c ∧ c ≤ char 'F' then some (c - char 'A' + 10)
  else none

theorem hexToBinaryString.round_eq (ptr : List Int8) (i : Nat) :
    hexToBinaryString.round ptr i = (hexDigit (ptr.getD (i * 2) 0)).bind fun c1 =>
      (hexDigit (ptr.getD (i * 2 + 1) 0)).bind fun c2 => some (c1 * 16 + c2) := rfl

theorem hexToBinaryVector.round_eq (ptr : List Int8) (i : Nat) :
    hexToBinaryVector.round ptr i = (hexDigit (ptr.getD (i * 2) 0)).bind fun c1 =>
      (hexDigit (ptr.getD (i * 2 + 1) 0)).bind fun c2 => some (c1 * 16 + c2) := rfl


theorem sub_char {c : Int8} {a : Char} {v : Nat} (h : c.toInt = a.toNat + v) :
    c - char a = Int8.ofNat v := by
  have hc : c = Int8.ofNat a.toNat + Int8.ofNat v := by
    rw [← Int8.ofInt_toInt c, h, ← Int8.ofNat_add, ← Int8.ofInt_eq_ofNat]
    rfl
  rw [hc, char]
  grind

theorem hexDigit_eq (c : Int8) : hexDigit c =
    if 48 ≤ c.toInt ∧ c.toInt ≤ 57 then some (c - char '0')
    else if 97 ≤ c.toInt ∧ c.toInt ≤ 102 then some (c - char 'a' + 10)
    else if 65 ≤ c.toInt ∧ c.toInt ≤ 70 then some (c - char 'A' + 10)
    else none := by
  simp only [hexDigit, Int8.le_iff_toInt_le]
  rfl

theorem hexDigit_of {c : Int8} {v : Nat} (h : HexDigit c v) :
    hexDigit c = some (Int8.ofNat v) := by
  rw [hexDigit_eq]
  cases h with
  | @decimal v hv hc =>
    rw [sub_char hc]
    simp only [Char.reduceToNat] at hc
    rw [if_pos (by omega)]
  | @lower v hv hc =>
    rw [sub_char (a := 'a') hc]
    simp only [Char.reduceToNat] at hc
    rw [if_neg (by omega), if_pos (by omega), Int8.ofNat_add, Int8.add_comm]
    rfl
  | @upper v hv hc =>
    rw [sub_char (a := 'A') hc]
    simp only [Char.reduceToNat] at hc
    rw [if_neg (by omega), if_neg (by omega), if_pos (by omega), Int8.ofNat_add, Int8.add_comm]
    rfl

theorem hexDigit_eq_none {c : Int8} (h : ¬ ∃ v, HexDigit c v) : hexDigit c = none := by
  rw [hexDigit_eq]
  split_ifs with hdecimal hlower hupper
  · exact absurd ⟨_, .decimal (v := (c.toInt - 48).toNat) (by omega) (by simp; omega)⟩ h
  · exact absurd ⟨_, .lower (v := (c.toInt - 97).toNat) (by omega) (by simp; omega)⟩ h
  · exact absurd ⟨_, .upper (v := (c.toInt - 65).toNat) (by omega) (by simp; omega)⟩ h
  · rfl

/-! Rounds and results. -/

theorem hexToBinaryString.round_of {ptr : List Int8} {i v1 v2 : Nat}
    (h1 : HexDigit (ptr.getD (i * 2) 0) v1) (h2 : HexDigit (ptr.getD (i * 2 + 1) 0) v2) :
    hexToBinaryString.round ptr i = some (Int8.ofNat (16 * v1 + v2)) := by
  rw [hexToBinaryString.round_eq, hexDigit_of h1, hexDigit_of h2, Nat.mul_comm,
    Int8.ofNat_add, Int8.ofNat_mul]
  rfl

theorem hexToBinaryString.round_eq_none {ptr : List Int8} {i : Nat} {c : Int8}
    (hc : c = ptr.getD (i * 2) 0 ∨ c = ptr.getD (i * 2 + 1) 0) (h : ¬ ∃ v, HexDigit c v) :
    hexToBinaryString.round ptr i = none := by
  rw [hexToBinaryString.round_eq]
  rcases hc with rfl | rfl
  · rw [hexDigit_eq_none h]
    rfl
  · rw [hexDigit_eq_none h]
    cases hexDigit (ptr.getD (i * 2) 0) <;> rfl

theorem hexToBinaryString_eq_hexToBinaryVector (ptr : List Int8) :
    hexToBinaryString ptr = hexToBinaryVector ptr := by
  have hround : hexToBinaryString.round ptr = hexToBinaryVector.round ptr := by
    funext i
    rw [hexToBinaryString.round_eq, hexToBinaryVector.round_eq]
  rw [hexToBinaryString, hexToBinaryVector, hround]

theorem hexToBinaryString_of_even {ptr : List Int8} (heven : ptr.length % 2 = 0) :
    hexToBinaryString ptr = some ((fill (hexToBinaryString.round ptr) (ptr.length / 2)
      (List.replicate (ptr.length / 2) 0)).getD []) := by
  rw [hexToBinaryString, if_pos heven]
  simp only [List.length_replicate]

theorem hexToBinaryString_get {ptr : List Int8} (heven : ptr.length % 2 = 0)
    (h : ∀ i < ptr.length / 2, hexToBinaryString.round ptr i ≠ none) :
    ∃ bytes, hexToBinaryString ptr = some bytes ∧ bytes.length = ptr.length / 2 ∧
      ∀ i < ptr.length / 2, bytes[i]? = hexToBinaryString.round ptr i := by
  rw [hexToBinaryString_of_even heven]
  cases hfill : fill (hexToBinaryString.round ptr) (ptr.length / 2)
      (List.replicate (ptr.length / 2) 0) with
  | none =>
    obtain ⟨i, hi, hround⟩ := fill_eq_none_iff.mp hfill
    exact absurd hround (h i hi)
  | some out =>
    obtain ⟨hlength, hget⟩ := fill_eq_some (by simp) hfill
    rw [List.length_replicate] at hlength
    exact ⟨out, rfl, hlength, hget⟩

theorem hexToBinaryString_eq_nil {ptr : List Int8} {c : Int8} (heven : ptr.length % 2 = 0)
    (hc : c ∈ ptr) (h : ¬ ∃ v, HexDigit c v) : hexToBinaryString ptr = some [] := by
  obtain ⟨k, hk, rfl⟩ := List.mem_iff_getElem.mp hc
  have hround : hexToBinaryString.round ptr (k / 2) = none := by
    refine hexToBinaryString.round_eq_none (c := ptr[k]) ?_ h
    rcases Nat.mod_two_eq_zero_or_one k with hmod | hmod
    · left
      rw [show k / 2 * 2 = k by omega, List.getD_eq_getElem?_getD, List.getElem?_eq_getElem hk]
      rfl
    · right
      rw [show k / 2 * 2 + 1 = k by omega, List.getD_eq_getElem?_getD,
        List.getElem?_eq_getElem hk]
      rfl
  rw [hexToBinaryString_of_even heven, fill_eq_none_iff.mpr ⟨k / 2, by omega, hround⟩]
  rfl

inductive Encodes : List Int8 → List Int8 → Prop
  | nil : Encodes [] []
  | cons {b c1 c2 : Int8} {bytes text : List Int8} :
    HexDigit c1 (b.toUInt8.toNat / 16) → HexDigit c2 (b.toUInt8.toNat % 16) →
    Encodes bytes text → Encodes (b :: bytes) (c1 :: c2 :: text)

theorem Encodes.length_eq {bytes text : List Int8} (h : Encodes bytes text) :
    text.length = 2 * bytes.length := by
  induction h with
  | nil => rfl
  | cons _ _ _ ih =>
    rw [List.length_cons, List.length_cons, List.length_cons, ih]
    omega

theorem Encodes.digits {bytes text : List Int8} (h : Encodes bytes text) {i : Nat} {b : Int8}
    (hb : bytes[i]? = some b) :
    HexDigit (text.getD (i * 2) 0) (b.toUInt8.toNat / 16) ∧
      HexDigit (text.getD (i * 2 + 1) 0) (b.toUInt8.toNat % 16) := by
  induction h generalizing i with
  | nil => simp at hb
  | cons h1 h2 _ ih =>
    cases i with
    | zero =>
      obtain rfl : _ = b := by simpa using hb
      exact ⟨h1, h2⟩
    | succ i =>
      have := ih (i := i) (by simpa using hb)
      rwa [show (i + 1) * 2 = i * 2 + 1 + 1 by omega, List.getD_cons_succ, List.getD_cons_succ,
        List.getD_cons_succ, List.getD_cons_succ]

theorem hexToBinaryString_of_encodes {bytes text : List Int8} (h : Encodes bytes text) :
    hexToBinaryString text = some bytes := by
  have hlength := h.length_eq
  have heven : text.length % 2 = 0 := by omega
  have hround : ∀ i < text.length / 2, hexToBinaryString.round text i = bytes[i]? := by
    intro i hi
    have hb : bytes[i]? = some bytes[i] := List.getElem?_eq_getElem (by omega)
    obtain ⟨h1, h2⟩ := h.digits hb
    rw [hexToBinaryString.round_of h1 h2, hb, Nat.div_add_mod, ← UInt8.toInt8_ofNat',
      UInt8.ofNat_toNat, Int8.toInt8_toUInt8]
  obtain ⟨decoded, hdecode, hdecoded, hget⟩ := hexToBinaryString_get heven fun i hi => by
    rw [hround i hi, List.getElem?_eq_getElem (by omega)]
    exact Option.some_ne_none _
  refine hdecode.trans (congrArg some (List.ext_getElem? fun i => ?_))
  by_cases hi : i < text.length / 2
  · rw [hget i hi, hround i hi]
  · rw [List.getElem?_eq_none (by omega), List.getElem?_eq_none (by omega)]

theorem exists_hexDigit {v : Nat} (hv : v < 16) : ∃ c, HexDigit c v := by
  by_cases hlow : v < 10
  · exact ⟨Int8.ofNat (48 + v), .decimal hlow (Int8.toInt_ofNat_of_lt (by omega))⟩
  · obtain ⟨w, rfl⟩ := Nat.exists_eq_add_of_le (Nat.le_of_not_lt hlow)
    exact ⟨Int8.ofNat (97 + w), .lower (by omega) (Int8.toInt_ofNat_of_lt (by omega))⟩

theorem exists_encodes (bytes : List Int8) : ∃ text, Encodes bytes text := by
  induction bytes with
  | nil => exact ⟨[], .nil⟩
  | cons b bytes ih =>
    obtain ⟨text, htext⟩ := ih
    have hb := b.toUInt8.toNat_lt
    obtain ⟨c1, h1⟩ := exists_hexDigit (v := b.toUInt8.toNat / 16) (by omega)
    obtain ⟨c2, h2⟩ := exists_hexDigit (v := b.toUInt8.toNat % 16) (by omega)
    exact ⟨c1 :: c2 :: text, .cons h1 h2 htext⟩

theorem hexToBinaryString_of_digits {ptr : List Int8} (heven : ptr.length % 2 = 0)
    (h : ∀ c ∈ ptr, ∃ v, HexDigit c v) :
    ∃ bytes, hexToBinaryString ptr = some bytes ∧ bytes.length = ptr.length / 2 ∧
      ∀ i < ptr.length / 2, ∃ c1 c2 v1 v2, ptr[2 * i]? = some c1 ∧ ptr[2 * i + 1]? = some c2 ∧
        HexDigit c1 v1 ∧ HexDigit c2 v2 ∧ bytes[i]? = some (Int8.ofNat (16 * v1 + v2)) := by
  have hround : ∀ i < ptr.length / 2, ∃ c1 c2 v1 v2, ptr[2 * i]? = some c1 ∧
      ptr[2 * i + 1]? = some c2 ∧ HexDigit c1 v1 ∧ HexDigit c2 v2 ∧
      hexToBinaryString.round ptr i = some (Int8.ofNat (16 * v1 + v2)) := by
    intro i hi
    obtain ⟨v1, h1⟩ := h ptr[2 * i] (List.getElem_mem (by omega))
    obtain ⟨v2, h2⟩ := h ptr[2 * i + 1] (List.getElem_mem (by omega))
    have hget1 : ptr[2 * i]? = some ptr[2 * i] := List.getElem?_eq_getElem (by omega)
    have hget2 : ptr[2 * i + 1]? = some ptr[2 * i + 1] := List.getElem?_eq_getElem (by omega)
    refine ⟨_, _, v1, v2, hget1, hget2, h1, h2, hexToBinaryString.round_of ?_ ?_⟩
    · rwa [Nat.mul_comm, List.getD_eq_getElem?_getD, hget1]
    · rwa [Nat.mul_comm, List.getD_eq_getElem?_getD, hget2]
  obtain ⟨bytes, hdecode, hlength, hget⟩ := hexToBinaryString_get heven fun i hi => by
    obtain ⟨_, _, v1, v2, -, -, -, -, hsome⟩ := hround i hi
    rw [hsome]
    exact Option.some_ne_none _
  refine ⟨bytes, hdecode, hlength, fun i hi => ?_⟩
  obtain ⟨c1, c2, v1, v2, hget1, hget2, h1, h2, hsome⟩ := hround i hi
  exact ⟨c1, c2, v1, v2, hget1, hget2, h1, h2, by rw [hget i hi, hsome]⟩

/-- The two versions agree, decode what is encoded, and keep nothing of a text with a character
that is no digit. -/
theorem hexToBinary_correct (ptr : List Int8) (heven : ptr.length % 2 = 0) :
    hexToBinaryString ptr = hexToBinaryVector ptr ∧
    ((∀ c ∈ ptr, ∃ v, HexDigit c v) →
      ∃ bytes, hexToBinaryString ptr = some bytes ∧ bytes.length = ptr.length / 2 ∧
        ∀ i < ptr.length / 2, ∃ c1 c2 v1 v2, ptr[2 * i]? = some c1 ∧ ptr[2 * i + 1]? = some c2 ∧
          HexDigit c1 v1 ∧ HexDigit c2 v2 ∧
          bytes[i]? = some (Int8.ofNat ((16 * v1 + v2) % 256))) ∧
    (∀ bytes, Encodes bytes ptr → hexToBinaryString ptr = some bytes) ∧
    ((∃ c ∈ ptr, ¬ ∃ v, HexDigit c v) → hexToBinaryString ptr = some []) := by
  refine ⟨hexToBinaryString_eq_hexToBinaryVector ptr, fun h => ?_,
    fun bytes h => hexToBinaryString_of_encodes h,
    fun ⟨c, hc, h⟩ => hexToBinaryString_eq_nil heven hc h⟩
  obtain ⟨bytes, hdecode, hlength, hget⟩ := hexToBinaryString_of_digits heven h
  refine ⟨bytes, hdecode, hlength, fun i hi => ?_⟩
  obtain ⟨c1, c2, v1, v2, hget1, hget2, h1, h2, hbyte⟩ := hget i hi
  have hlt := h1.lt
  have hlt' := h2.lt
  exact ⟨c1, c2, v1, v2, hget1, hget2, h1, h2, by rw [Nat.mod_eq_of_lt (by omega), hbyte]⟩

theorem hexToBinary_correct_fA09 :
    hexToBinaryString [char 'f', char 'A', char '0', char '9'] =
        hexToBinaryVector [char 'f', char 'A', char '0', char '9'] ∧
      hexToBinaryString [char 'f', char 'A', char '0', char '9'] = some [-6, 9] :=
  have h := hexToBinary_correct [char 'f', char 'A', char '0', char '9'] (by decide)
  ⟨h.1, h.2.2.1 [-6, 9]
    (.cons (.lower (v := 5) (by decide) (by decide)) (.upper (v := 0) (by decide) (by decide))
      (.cons (.decimal (v := 0) (by decide) (by decide)) (.decimal (v := 9) (by decide) (by decide))
        .nil))⟩

end MysqlConnectPool.utils
