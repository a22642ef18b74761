import MysqlConnectPool.Time.FixedZone

/-! The reader of database strings, on every text it may be given. -/

namespace MysqlConnectPool.DateTime

open Library.Numeral utils

@[simp] theorem item_zero (s : List Char) (v : List (List Char)) : item (s :: v) 0 = .ok s := rfl

@[simp] theorem item_succ (s : List Char) (v : List (List Char)) (i : Nat) :
    item (s :: v) (i + 1) = item v i := rfl

@[simp] theorem bind_item {α : Type} (s : List Char) (f : List Char → Except Failure α) :
    (Except.ok s >>= f) = f s := rfl

theorem readUnsigned_ne_indexPastEnd (s : List Char) : readUnsigned s ≠ .error .indexPastEnd := by
  intro h
  rw [readUnsigned] at h
  split at h <;> cases h

theorem isOk_readUnsigned (s : List Char) : (readUnsigned s).isOk = (stol s).isOk := by
  rw [readUnsigned]
  cases stol s <;> rfl

theorem ok_ne_error {α : Type} (a : α) (e : Failure) : Except.ok a ≠ Except.error e := by
  intro h
  cases h

theorem ok_iff_false {α : Type} (a : α) (e : Failure) : Except.ok a = Except.error e ↔ false :=
  iff_of_false (ok_ne_error a e) Bool.false_ne_true

theorem bind_readUnsigned_iff {α : Type} {s : List Char} {f : Int → Except Failure α} {p : Bool}
    (hf : ∀ u, f u = .error .indexPastEnd ↔ p) :
    (readUnsigned s >>= f) = .error .indexPastEnd ↔ (stol s).isOk && p := by
  have hne := readUnsigned_ne_indexPastEnd s
  rw [← isOk_readUnsigned]
  cases h : readUnsigned s with
  | error e =>
    rw [h] at hne
    exact iff_of_false (fun he => hne (congrArg Except.error (Except.error.inj he)))
      Bool.false_ne_true
  | ok u => exact hf u

theorem bind_readUnsigned_ne {α : Type} {s : List Char} {f : Int → Except Failure α}
    (hf : ∀ u, f u ≠ .error .indexPastEnd) : (readUnsigned s >>= f) ≠ .error .indexPastEnd := by
  rw [Ne, @bind_readUnsigned_iff _ _ _ false fun u => iff_of_false (hf u) Bool.false_ne_true]
  simp

theorem readSeconds_indexPastEnd_iff (s : List Char) :
    readSeconds s = .error .indexPastEnd ↔ s.all (· = '.') := by
  have hnil := @splitString_eq_nil_iff '.' s
  rw [readSeconds, List.all_eq_true]
  simp only [decide_eq_true_eq, ← hnil]
  cases splitString s ['.'] with
  | nil => exact iff_of_true rfl rfl
  | cons second pieces =>
    refine iff_of_false ?_ (List.cons_ne_nil second pieces)
    cases pieces with
    | nil => exact bind_readUnsigned_ne fun u => ok_ne_error _ _
    | cons fraction rest =>
      refine bind_readUnsigned_ne fun u => ?_
      rw [if_pos (by simp)]
      exact bind_readUnsigned_ne fun u => ok_ne_error _ _

/-- A date that is read, and a time whose hour and minute are read and whose second is nothing but
dots. -/
def secondOfDots (datetime : List Char) : Bool :=
  match splitString datetime [' '] with
  | [date, time] =>
    match splitString date ['-'], splitString time [':'] with
    | [year, month, day], hour :: minute :: second :: _ =>
      (stol year).isOk && ((stol month).isOk && ((stol day).isOk &&
        ((stol hour).isOk && ((stol minute).isOk && second.all (· = '.')))))
    | _, _ => false
  | _ => false

theorem fromDbStringLocal_indexPastEnd_iff (zone : Zone) (datetime : List Char) :
    fromDbStringLocal zone datetime = .error .indexPastEnd ↔ secondOfDots datetime := by
  rw [fromDbStringLocal, secondOfDots]
  obtain _ | ⟨date, _ | ⟨time, _ | ⟨more, pieces⟩⟩⟩ := splitString datetime [' ']
  · exact ok_iff_false _ _
  · exact ok_iff_false _ _
  · simp only [List.length_cons, List.length_nil, Nat.reduceAdd, ↓reduceIte, item_zero, item_succ,
      bind_item]
    obtain _ | ⟨year, _ | ⟨month, _ | ⟨day, _ | ⟨more, pieces⟩⟩⟩⟩ := splitString date ['-']
    · exact ok_iff_false _ _
    · exact ok_iff_false _ _
    · exact ok_iff_false _ _
    · simp only [List.length_cons, List.length_nil, Nat.reduceAdd, ↓reduceIte, item_zero, item_succ,
        bind_item]
      have hshort {f : Int → Int → Int → Except Failure DateTime}
          (hf : ∀ Y M D, f Y M D ≠ .error .indexPastEnd) :
          (readUnsigned year >>= fun Y => readUnsigned month >>= fun M =>
            readUnsigned day >>= fun D => f Y M D) ≠ .error .indexPastEnd :=
        bind_readUnsigned_ne fun Y => bind_readUnsigned_ne fun M => bind_readUnsigned_ne fun D =>
          hf Y M D
      obtain _ | ⟨hour, _ | ⟨minute, _ | ⟨second, rest⟩⟩⟩ := splitString time [':']
      · exact iff_of_false (hshort fun Y M D => ok_ne_error _ _) Bool.false_ne_true
      · exact iff_of_false (hshort fun Y M D => ok_ne_error _ _) Bool.false_ne_true
      · exact iff_of_false (hshort fun Y M D => ok_ne_error _ _) Bool.false_ne_true
      · refine bind_readUnsigned_iff fun Y => bind_readUnsigned_iff fun M =>
          bind_readUnsigned_iff fun D => ?_
        rw [if_pos (by simp)]
        refine bind_readUnsigned_iff fun h => bind_readUnsigned_iff fun m => ?_
        rw [← readSeconds_indexPastEnd_iff]
        simp only [item_zero, item_succ, bind_item]
        cases readSeconds second with
        | error e => simp [bind, Except.bind]
        | ok su => exact iff_of_false (ok_ne_error _ _) (ok_ne_error _ _)
    · exact ok_iff_false _ _
  · exact ok_iff_false _ _

/-- The reader returns or throws what `stol` throws, exactly for the texts whose second is not
dots only. -/
theorem fromDbStringLocal_safe_iff (zone : Zone) (datetime : List Char) :
    ((∃ d, fromDbStringLocal zone datetime = .ok d) ∨
        ∃ e, fromDbStringLocal zone datetime = .error (.stol e)) ↔
      secondOfDots datetime = false := by
  rw [← Bool.not_eq_true, ← fromDbStringLocal_indexPastEnd_iff zone]
  cases fromDbStringLocal zone datetime with
  | ok d => exact iff_of_true (.inl ⟨d, rfl⟩) (ok_ne_error _ _)
  | error failure =>
    cases failure with
    | stol e => simp
    | indexPastEnd => simp

theorem dots_indexPastEnd :
    fromDbStringLocal oneHour.zone "1970-01-03 00:00:.".toList = .error .indexPastEnd ∧
      ¬((∃ d, fromDbStringLocal oneHour.zone "1970-01-03 00:00:.".toList = .ok d) ∨
        ∃ e, fromDbStringLocal oneHour.zone "1970-01-03 00:00:.".toList = .error (.stol e)) := by
  have hindex : fromDbStringLocal oneHour.zone "1970-01-03 00:00:.".toList =
      .error .indexPastEnd := by decide
  refine ⟨hindex, ?_⟩
  rw [hindex]
  simp

structure Figures where
  text : List Char
  digits : Digits text
  inRange : Nat.ofDigitChars 10 text 0 < 2 ^ 31

def Figures.value (n : Figures) : Int := Nat.ofDigitChars 10 n.text 0

theorem Figures.field (n : Figures) : Field n.text n.value := by
  have hrange := n.inRange
  refine ⟨n.digits, ?_⟩
  rw [readUnsigned, stol_digits n.digits (by omega), value]
  exact congrArg Except.ok (Int.emod_eq_of_lt (by omega) (by omega))

structure Fraction where
  text : List Char
  digits : ∀ c ∈ text, c.isDigit

def Fraction.microSeconds (fraction : Fraction) : Int :=
  (Nat.ofDigitChars 10 fraction.text 0 * 1000000 / 10 ^ fraction.text.length : Nat)

theorem Fraction.notMem (fraction : Fraction) {c : Char} (hc : c.isDigit = false) :
    c ∉ fraction.text := fun hmem => by
  rw [fraction.digits c hmem] at hc
  cases hc

theorem sixDigits_eq (s : List Char) :
    6 < s.length ∧ sixDigits s = s.take 6 ∨
      s.length ≤ 6 ∧ sixDigits s = s ++ List.replicate (6 - s.length) '0' := by
  rw [sixDigits]
  rcases Nat.lt_trichotomy s.length 6 with hlt | heq | hgt
  · exact .inr ⟨hlt.le, by rw [if_neg (by omega), if_pos hlt]⟩
  · exact .inr ⟨heq.le, by simp [heq]⟩
  · exact .inl ⟨hgt, if_pos hgt⟩

theorem length_sixDigits (s : List Char) : (sixDigits s).length = 6 := by
  obtain ⟨hs, h⟩ | ⟨hs, h⟩ := sixDigits_eq s
  · rw [h, List.length_take, Nat.min_eq_left hs.le]
  · rw [h, List.length_append, List.length_replicate, Nat.add_sub_cancel' hs]

theorem Fraction.digits_sixDigits (fraction : Fraction) :
    ∀ c ∈ sixDigits fraction.text, c.isDigit := by
  intro c hc
  obtain ⟨_, h⟩ | ⟨_, h⟩ := sixDigits_eq fraction.text
  · rw [h] at hc
    exact fraction.digits c (List.mem_of_mem_take hc)
  · rw [h, List.mem_append] at hc
    rcases hc with hc | hc
    · exact fraction.digits c hc
    · rw [List.eq_of_mem_replicate hc]
      rfl

theorem Fraction.ofDigitChars_sixDigits (fraction : Fraction) :
    (Nat.ofDigitChars 10 (sixDigits fraction.text) 0 : Int) = fraction.microSeconds := by
  obtain ⟨s, hs⟩ := fraction
  rw [microSeconds, Int.ofNat_inj]
  obtain ⟨hlong, hsix⟩ | ⟨hshort, hsix⟩ := sixDigits_eq s
  · have hpow : 10 ^ s.length = 10 ^ (s.length - 6) * 1000000 := by
      rw [← Nat.pow_add (m := s.length - 6) (n := 6) (a := 10), Nat.sub_add_cancel hlong.le]
    rw [hsix, ofDigitChars_take hs, hpow, Nat.mul_div_mul_right _ _ (by decide)]
  · have hpow : 1000000 = 10 ^ (6 - s.length) * 10 ^ s.length := by
      rw [← Nat.pow_add, Nat.sub_add_cancel hshort]
    rw [hsix, Nat.ofDigitChars_append, Nat.ofDigitChars_replicate_zero, hpow, ← Nat.mul_assoc,
      Nat.mul_div_cancel _ (Nat.pow_pos (by decide)), Nat.mul_comm]

theorem Fraction.read (fraction : Fraction) :
    readUnsigned (sixDigits fraction.text) = .ok fraction.microSeconds := by
  have hlength := length_sixDigits fraction.text
  have hdigits := fraction.digits_sixDigits
  have hlt := ofDigitChars_lt hdigits
  rw [hlength] at hlt
  rw [readUnsigned, stol_digits ⟨List.ne_nil_of_length_pos (by omega), hdigits⟩ (by omega),
    ← fraction.ofDigitChars_sixDigits]
  exact congrArg Except.ok (Int.emod_eq_of_lt (by omega) (by omega))

def fractionText : Option Fraction → List Char
  | none => []
  | some fraction => '.' :: fraction.text

def fractionMicroSeconds : Option Fraction → Int
  | none => 0
  | some fraction => fraction.microSeconds

theorem readSeconds_figures (s : Figures) (fraction : Option Fraction) :
    readSeconds (s.text ++ fractionText fraction) = .ok (s.value, fractionMicroSeconds fraction) := by
  match fraction with
  | none => rw [fractionText, List.append_nil, readSeconds_whole s.field, fractionMicroSeconds]
  | some fraction =>
    rw [fractionText, fractionMicroSeconds]
    by_cases hne : fraction.text = []
    · -- nothing behind the point makes no second piece
      have hsplit : splitString (s.text ++ '.' :: fraction.text) ['.'] = [s.text] := by
        rw [hne, splitString_cons _ s.digits.1 (s.field.notMem rfl)]
        rfl
      have hzero : fraction.microSeconds = 0 := by simp [Fraction.microSeconds, hne]
      rw [readSeconds, hsplit, item_zero, bind_item, s.field.read, hzero]
      rfl
    · rw [readSeconds_fraction s.field hne (fraction.notMem rfl), fraction.read]
      rfl

theorem fromDbStringLocal_spaces (zone : Zone) {date : List Char} (hne : date ≠ [])
    (hspace : ' ' ∉ date) (n : Nat) (time : List Char) :
    fromDbStringLocal zone (date ++ ' ' :: (List.replicate n ' ' ++ time)) =
      fromDbStringLocal zone (date ++ ' ' :: time) := by
  rw [fromDbStringLocal, fromDbStringLocal, splitString_cons _ hne hspace, splitString_replicate,
    splitString_cons _ hne hspace]

theorem fromDbStringLocal_full (zone : Zone) (Y M D h m s : Figures) (spaces : Nat)
    (fraction : Option Fraction) :
    fromDbStringLocal zone
        ((Y.text ++ '-' :: (M.text ++ '-' :: D.text)) ++ ' ' :: (List.replicate spaces ' ' ++
          (h.text ++ ':' :: (m.text ++ ':' :: (s.text ++ fractionText fraction))))) =
      .ok (ofFields zone Y.value M.value D.value h.value m.value s.value
        (fractionMicroSeconds fraction)) := by
  have hdate : ' ' ∉ Y.text ++ '-' :: (M.text ++ '-' :: D.text) := by
    simp [Y.field.notMem, M.field.notMem, D.field.notMem]
  have hfraction {c : Char} (hdigit : c.isDigit = false) (hpoint : c ≠ '.') :
      c ∉ fractionText fraction := by
    match fraction with
    | none => nofun
    | some fraction => exact List.not_mem_cons_of_ne_of_not_mem hpoint (fraction.notMem hdigit)
  rw [fromDbStringLocal_spaces zone (by simp) hdate, fromDbStringLocal_fields zone Y.field M.field
    D.field h.field m.field (by simp [s.digits.1])
    (by simp [s.field.notMem, hfraction]) (by simp [s.field.notMem, hfraction]),
    readSeconds_figures]
  rfl

end MysqlConnectPool.DateTime
