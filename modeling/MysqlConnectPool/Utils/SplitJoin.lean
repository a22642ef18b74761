import MysqlConnectPool.Library.Cuts
import MysqlConnectPool.Utils.SplitString

/-! `splitString` on positions, and the join it undoes. -/

namespace MysqlConnectPool.utils

open Library

def find (s delimiter : List Char) (last : Nat) : Option Nat :=
  (List.range' last (s.length + 1 - last)).find? fun next => delimiter.isPrefixOf (s.drop next)

def substr (s : List Char) (pos len : Nat) : List Char := (s.drop pos).take len

/-- The loop of `splitString` as the source has it; without a result it is still running when the
rounds are used up. -/
def splitString.loop (s delimiter : List Char) (acceptEmptyString : Bool) :
    Nat → Nat → List (List Char) → Option (List (List Char))
  | 0, _, _ => none
  | fuel + 1, last, v =>
    match find s delimiter last with
    | some next =>
      loop s delimiter acceptEmptyString fuel (next + delimiter.length)
        (if next > last ∨ acceptEmptyString then v ++ [substr s last (next - last)] else v)
    | none =>
      some (if s.length > last ∨ acceptEmptyString then v ++ [s.drop last] else v)

def splitStringIn (fuel : Nat) (s delimiter : List Char) (acceptEmptyString : Bool) :
    Option (List (List Char)) :=
  if delimiter = [] then some [] else splitString.loop s delimiter acceptEmptyString fuel 0 []

example : splitStringIn 6 "aaaab".toList "aa".toList true =
    some ["".toList, "".toList, "b".toList] := by decide

theorem find_of_leftmost {s d piece rest : List Char} {last : Nat} (hlast : last ≤ s.length)
    (hs : s.drop last = piece ++ (d ++ rest)) (h : Leftmost d piece rest) :
    find s d last = some (last + piece.length) := by
  have hlength : s.length - last = piece.length + (d.length + rest.length) := by
    rw [← List.length_drop, hs, List.length_append, List.length_append]
  rw [find, List.find?_range'_eq_some]
  refine ⟨?_, List.mem_range'_1.mpr ⟨by omega, by omega⟩, fun j hj hlt => ?_⟩
  · rw [← List.drop_drop, hs, List.drop_left, List.isPrefixOf_iff_prefix]
    exact List.prefix_append d rest
  · have hnot := h (j - last) (by omega)
    rw [← hs, List.drop_drop, Nat.add_sub_cancel' hj] at hnot
    rw [Bool.not_eq_true', ← Bool.not_eq_true, List.isPrefixOf_iff_prefix]
    exact hnot

theorem find_eq_none {s d : List Char} {last : Nat} (h : ¬ d <:+: s.drop last) :
    find s d last = none := by
  rw [find, List.find?_eq_none]
  intro next hnext hprefix
  have hle : last ≤ next := (List.mem_range'_1.mp hnext).1
  refine h ((List.isPrefixOf_iff_prefix.mp hprefix).isInfix.trans ?_)
  rw [← Nat.add_sub_cancel' hle, ← List.drop_drop]
  exact (List.drop_suffix _ _).isInfix

theorem push_eq_emit {acceptEmptyString : Bool} {c : Prop} [Decidable c] {piece : List Char}
    (h : c ↔ piece ≠ []) (v : List (List Char)) :
    (if c ∨ acceptEmptyString then v ++ [piece] else v) = v ++ emit acceptEmptyString piece := by
  rw [emit]
  split_ifs with hc hne hne
  · rfl
  · rw [h] at hc
    exact absurd hc hne
  · rw [← h] at hne
    exact absurd hne hc
  · rw [List.append_nil]

theorem splitString.loop_of_cuts {s d : List Char} {acceptEmptyString : Bool} (hd : d ≠ [])
    {rest : List Char} {pieces : List (List Char)} (h : Cuts d rest pieces) {fuel last : Nat}
    (v : List (List Char)) (hlast : last ≤ s.length) (hrest : s.drop last = rest)
    (hfuel : s.length - last < fuel) :
    splitString.loop s d acceptEmptyString fuel last v =
      some (v ++ pieces.flatMap (emit acceptEmptyString)) := by
  induction h generalizing fuel last v with
  | @last rest hnot =>
    obtain ⟨fuel, rfl⟩ := Nat.exists_eq_add_one_of_ne_zero (by omega : fuel ≠ 0)
    have htail : s.length > last ↔ s.drop last ≠ [] := by
      rw [ne_eq, List.drop_eq_nil_iff]
      omega
    rw [splitString.loop, find_eq_none (by rwa [hrest])]
    simp only [push_eq_emit htail, List.flatMap_singleton]
    rw [hrest]
  | @cut piece rest pieces hleft hcuts ih =>
    obtain ⟨fuel, rfl⟩ := Nat.exists_eq_add_one_of_ne_zero (by omega : fuel ≠ 0)
    have hlength : s.length - last = piece.length + (d.length + rest.length) := by
      rw [← List.length_drop, hrest, List.length_append, List.length_append]
    have hpos : 0 < d.length := List.length_pos_iff.mpr hd
    have hpiece : substr s last (last + piece.length - last) = piece := by
      rw [substr, hrest, Nat.add_sub_cancel_left, List.take_left]
    have hpush : last + piece.length > last ↔ piece ≠ [] := by
      rw [← List.length_pos_iff]
      omega
    have hnext : s.drop (last + piece.length + d.length) = rest := by
      rw [← List.drop_drop, ← List.drop_drop, hrest, List.drop_left, List.drop_left]
    rw [splitString.loop, find_of_leftmost hlast hrest hleft]
    simp only [hpiece, push_eq_emit hpush]
    rw [ih _ (by omega) hnext (by omega), List.flatMap_cons, List.append_assoc]

theorem splitStringIn_of_cuts {s d : List Char} (hd : d ≠ []) {pieces : List (List Char)}
    (h : Cuts d s pieces) {fuel : Nat} (hfuel : s.length < fuel) (acceptEmptyString : Bool) :
    splitStringIn fuel s d acceptEmptyString =
      some (pieces.flatMap (emit acceptEmptyString)) := by
  rw [splitStringIn, if_neg hd,
    splitString.loop_of_cuts hd h [] (Nat.zero_le _) List.drop_zero (by omega), List.nil_append]

/-! The same cuts by characters. -/

theorem splitFrom_skip {d : List Char} {acceptEmptyString : Bool} (piece skipped rest : List Char) :
    splitFrom d acceptEmptyString skipped.length piece (skipped ++ rest) =
      splitFrom d acceptEmptyString 0 piece rest := by
  induction skipped with
  | nil => rfl
  | cons c skipped ih => rw [List.length_cons, List.cons_append, splitFrom, ih]

theorem splitFrom_of_no_delimiter {d : List Char} {acceptEmptyString : Bool} (piece : List Char)
    {s : List Char} (h : ¬ d <:+: s) :
    splitFrom d acceptEmptyString 0 piece s = emit acceptEmptyString (piece ++ s) := by
  induction s generalizing piece with
  | nil => rw [splitFrom, List.append_nil]
  | cons c s ih =>
    rw [List.infix_cons_iff, not_or] at h
    rw [splitFrom, if_neg (by rw [List.isPrefixOf_iff_prefix]; exact h.1), ih _ h.2,
      List.append_assoc]
    rfl

theorem splitFrom_of_leftmost {d : List Char} (hd : d ≠ []) {acceptEmptyString : Bool}
    (before : List Char) {piece rest : List Char} (h : Leftmost d piece rest) :
    splitFrom d acceptEmptyString 0 before (piece ++ (d ++ rest)) =
      emit acceptEmptyString (before ++ piece) ++ splitFrom d acceptEmptyString 0 [] rest := by
  induction piece generalizing before with
  | nil =>
    obtain ⟨c, d, rfl⟩ := List.exists_cons_of_ne_nil hd
    rw [List.nil_append, List.cons_append, splitFrom,
      if_pos (by
        rw [← List.cons_append, List.isPrefixOf_iff_prefix]
        exact List.prefix_append (c :: d) rest),
      List.length_cons, Nat.add_sub_cancel, splitFrom_skip, List.append_nil]
  | cons c piece ih =>
    rw [leftmost_cons] at h
    rw [List.cons_append, splitFrom,
      if_neg (by rw [List.isPrefixOf_iff_prefix]; exact h.1), ih _ h.2, List.append_assoc]
    rfl

theorem splitFrom_of_cuts {d : List Char} (hd : d ≠ []) {s : List Char}
    {pieces : List (List Char)} (h : Cuts d s pieces) (acceptEmptyString : Bool) :
    splitFrom d acceptEmptyString 0 [] s = pieces.flatMap (emit acceptEmptyString) := by
  induction h with
  | last hnot => rw [splitFrom_of_no_delimiter _ hnot, List.nil_append, List.flatMap_singleton]
  | cut hleft _ ih => rw [splitFrom_of_leftmost hd _ hleft, ih, List.nil_append, List.flatMap_cons]

theorem splitStringIn_eq_splitString {s : List Char} {fuel : Nat} (hfuel : s.length < fuel)
    (d : List Char) (acceptEmptyString : Bool) :
    splitStringIn fuel s d acceptEmptyString = some (splitString s d acceptEmptyString) := by
  by_cases hd : d = []
  · rw [splitStringIn, if_pos hd, splitString, if_pos hd]
  · obtain ⟨pieces, hcuts⟩ := exists_cuts hd s
    rw [splitStringIn_of_cuts hd hcuts hfuel, splitString, if_neg hd, splitFrom_of_cuts hd hcuts]

/-! Splitting and joining. -/

theorem flatMap_emit_true (pieces : List (List Char)) : pieces.flatMap (emit true) = pieces := by
  have hemit : emit true = fun piece => [piece] := by
    funext piece
    rw [emit, if_pos (Or.inr rfl)]
  rw [hemit, List.flatMap_singleton']

theorem cuts_unique {d : List Char} (hd : d ≠ []) {s : List Char} {pieces cuts : List (List Char)}
    (hpieces : Cuts d s pieces) (hcuts : Cuts d s cuts) : pieces = cuts := by
  rw [← flatMap_emit_true pieces, ← splitFrom_of_cuts hd hpieces, splitFrom_of_cuts hd hcuts,
    flatMap_emit_true]

theorem flatMap_emit_false (pieces : List (List Char)) :
    pieces.flatMap (emit false) = pieces.filter (· ≠ []) := by
  induction pieces with
  | nil => rfl
  | cons piece pieces ih =>
    rw [List.flatMap_cons, ih, List.filter_cons]
    by_cases hpiece : piece = [] <;> simp [emit, hpiece]

/-- Splitting ends, is undone by joining, cuts at the leftmost occurrences, and without empty
pieces leaves the others. -/
theorem splitString_join (s d : List Char) (hd : d ≠ []) :
    ∃ pieces, (∀ fuel > s.length, splitStringIn fuel s d true = some pieces) ∧
      d.intercalate pieces = s ∧ (∀ piece ∈ pieces, ¬ d <:+: piece) ∧
      (∀ cuts, Cuts d s cuts ↔ cuts = pieces) ∧
      ∀ fuel > s.length, splitStringIn fuel s d false = some (pieces.filter (· ≠ [])) := by
  obtain ⟨pieces, hcuts⟩ := exists_cuts hd s
  refine ⟨pieces, fun fuel hfuel => ?_, hcuts.intercalate_eq, hcuts.not_contained hd,
    fun cuts => ⟨fun h => cuts_unique hd h hcuts, fun h => h ▸ hcuts⟩, fun fuel hfuel => ?_⟩
  · rw [splitStringIn_of_cuts hd hcuts hfuel, flatMap_emit_true]
  · rw [splitStringIn_of_cuts hd hcuts hfuel, flatMap_emit_false]

theorem splitString_join_aa : ∃ pieces,
    splitStringIn 6 "aaaab".toList "aa".toList true = some pieces ∧
      "aa".toList.intercalate pieces = "aaaab".toList := by
  obtain ⟨pieces, hpieces, hjoin, -⟩ :=
    splitString_join "aaaab".toList "aa".toList (by decide)
  exact ⟨pieces, hpieces 6 (by decide), hjoin⟩

end MysqlConnectPool.utils
