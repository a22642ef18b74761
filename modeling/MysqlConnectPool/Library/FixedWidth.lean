import MysqlConnectPool.Library.Numeral

/-! Numbers printed in fixed widths, with a text before each.  The texts are in the order of the
numbers, the first number first. -/

namespace MysqlConnectPool.Library.FixedWidth

open Numeral

section Lists

variable {α : Type*} [LT α]

theorem append_lt_append_iff {a b : List α} (h : a.length = b.length) (s t : List α) :
    a ++ s < b ++ t ↔ a < b ∨ a = b ∧ s < t := by
  induction a generalizing b with
  | nil =>
    obtain rfl := List.length_eq_zero_iff.mp h.symm
    simp
  | cons x a ih =>
    cases b with
    | nil => cases h
    | cons y b =>
      rw [List.cons_append, List.cons_append, List.cons_lt_cons_iff, List.cons_lt_cons_iff,
        ih (Nat.succ.inj h), List.cons.injEq]
      tauto

theorem append_lt_append_left_iff [Std.Irrefl (· < · : α → α → Prop)] (a s t : List α) :
    a ++ s < a ++ t ↔ s < t := by
  rw [append_lt_append_iff rfl]
  simp [List.lt_irrefl]

theorem lt_iff_of_imp [Std.Irrefl (· < · : α → α → Prop)] [Std.Asymm (· < · : α → α → Prop)]
    {s t : List α} {a b : Int} (hlt : a < b → s < t) (heq : a = b → s = t) (hgt : b < a → t < s) :
    s < t ↔ a < b := by
  refine ⟨fun hst => ?_, hlt⟩
  rcases Int.lt_trichotomy a b with hab | hab | hab
  · exact hab
  · exact absurd (heq hab ▸ hst) (List.lt_irrefl t)
  · exact absurd hst (List.lt_asymm (hgt hab))

end Lists

theorem mul_add_lt_iff {p x y a b : Nat} (ha : a < p) (hb : b < p) :
    p * x + a < p * y + b ↔ x < y ∨ x = y ∧ a < b := by
  rcases Nat.lt_trichotomy x y with hlt | rfl | hgt
  · have hmul := Nat.mul_le_mul_left p (Nat.succ_le_of_lt hlt)
    rw [Nat.mul_succ] at hmul
    omega
  · omega
  · have hmul := Nat.mul_le_mul_left p (Nat.succ_le_of_lt hgt)
    rw [Nat.mul_succ] at hmul
    omega

theorem ofDigitChars_cons_eq (c : Char) (s : List Char) :
    Nat.ofDigitChars 10 (c :: s) 0 =
      10 ^ s.length * (c.toNat - '0'.toNat) + Nat.ofDigitChars 10 s 0 := by
  rw [Nat.ofDigitChars_cons, Nat.ofDigitChars_eq_ofDigitChars_zero, Nat.mul_zero, Nat.zero_add]

theorem isDigit_iff {c d : Char} (hc : c.isDigit) (hd : d.isDigit) :
    (c < d ↔ c.toNat - '0'.toNat < d.toNat - '0'.toNat) ∧
      (c = d ↔ c.toNat - '0'.toNat = d.toNat - '0'.toNat) := by
  simp only [Char.isDigit, Bool.and_eq_true, decide_eq_true_eq] at hc hd
  have hcval : 48 ≤ c.toNat := hc.1
  have hdval : 48 ≤ d.toNat := hd.1
  have hlt : c < d ↔ c.toNat < d.toNat := Iff.rfl
  rw [hlt, ← Char.toNat_inj, show '0'.toNat = 48 from rfl]
  omega

theorem digits_lt_iff {s t : List Char} (hs : ∀ c ∈ s, c.isDigit) (ht : ∀ c ∈ t, c.isDigit)
    (h : s.length = t.length) :
    s < t ↔ Nat.ofDigitChars 10 s 0 < Nat.ofDigitChars 10 t 0 := by
  induction s generalizing t with
  | nil =>
    obtain rfl := List.length_eq_zero_iff.mp h.symm
    simp
  | cons c s ih =>
    cases t with
    | nil => cases h
    | cons d t =>
      have hlength := Nat.succ.inj h
      have hs' := fun x hx => hs x (List.mem_cons_of_mem c hx)
      have ht' := fun x hx => ht x (List.mem_cons_of_mem d hx)
      obtain ⟨hlt, heq⟩ := isDigit_iff (hs c List.mem_cons_self) (ht d List.mem_cons_self)
      rw [List.cons_lt_cons_iff, ih hs' ht' hlength, ofDigitChars_cons_eq, ofDigitChars_cons_eq,
        ← hlength, mul_add_lt_iff (ofDigitChars_lt hs') (hlength ▸ ofDigitChars_lt ht'), hlt, heq]

theorem ofDigitChars_zeroPadded (width : Nat) {n : Int} (h : 0 ≤ n) :
    Nat.ofDigitChars 10 (zeroPadded width n) 0 = n.natAbs := by
  rw [zeroPadded, if_neg (by omega), ofDigitChars_leftpad, Nat.ofDigitChars_ten_toDigits]

structure Field where
  before : List Char
  width : Nat
  width_pos : 0 < width

def Field.Fits (f : Field) (n : Int) : Prop := 0 ≤ n ∧ n.natAbs < 10 ^ f.width

section Field

variable {f : Field} {m n : Int} (hm : f.Fits m) (hn : f.Fits n)
include hm hn

theorem Field.length_eq : (zeroPadded f.width m).length = (zeroPadded f.width n).length := by
  rw [length_zeroPadded hm.1 hm.2 f.width_pos, length_zeroPadded hn.1 hn.2 f.width_pos]

theorem Field.lt_iff : zeroPadded f.width m < zeroPadded f.width n ↔ m < n := by
  rw [digits_lt_iff (digits_zeroPadded _ hm.1).2 (digits_zeroPadded _ hn.1).2
    (Field.length_eq hm hn), ofDigitChars_zeroPadded _ hm.1, ofDigitChars_zeroPadded _ hn.1]
  have hmpos := hm.1
  have hnpos := hn.1
  omega

theorem Field.eq_iff : zeroPadded f.width m = zeroPadded f.width n ↔ m = n := by
  refine ⟨fun h => ?_, fun h => h ▸ rfl⟩
  have hvalue := congrArg (fun s => Nat.ofDigitChars 10 s 0) h
  simp only [ofDigitChars_zeroPadded _ hm.1, ofDigitChars_zeroPadded _ hn.1] at hvalue
  have hmpos := hm.1
  have hnpos := hn.1
  omega

end Field

def print : List Field → List Int → List Char
  | f :: fs, n :: ns => f.before ++ (zeroPadded f.width n ++ print fs ns)
  | _, _ => []

inductive Fit : List Field → List Int → Prop
  | nil : Fit fs []
  | cons : f.Fits n → Fit fs ns → Fit (f :: fs) (n :: ns)

theorem nil_lt_print (f : Field) (fs : List Field) (n : Int) (ns : List Int) :
    [] < print (f :: fs) (n :: ns) := by
  obtain ⟨c, text, htext⟩ := List.exists_cons_of_ne_nil (zeroPadded_ne_nil f.width n)
  rw [print, htext]
  cases f.before with
  | nil => exact List.nil_lt_cons _ _
  | cons => exact List.nil_lt_cons _ _

theorem print_lt_iff {fs : List Field} {ms ns : List Int} (hms : Fit fs ms) (hns : Fit fs ns) :
    print fs ms < print fs ns ↔ ms < ns := by
  induction hms generalizing ns with
  | nil =>
    cases hns with
    | nil => exact iff_of_false (List.lt_irrefl _) (List.lt_irrefl _)
    | cons =>
      exact iff_of_true (nil_lt_print _ _ _ _) (List.nil_lt_cons _ _)
  | cons hm _ ih =>
    cases hns with
    | nil => simp [print]
    | cons hn hns =>
      rw [print, print, append_lt_append_left_iff, append_lt_append_iff (Field.length_eq hm hn),
        Field.lt_iff hm hn, Field.eq_iff hm hn, ih hns, List.cons_lt_cons_iff]

end MysqlConnectPool.Library.FixedWidth
