import Mathlib.Data.List.Basic

/-! `splitString`. -/

namespace MysqlConnectPool.utils

def emit (acceptEmptyString : Bool) (piece : List Char) : List (List Char) :=
  if piece ≠ [] ∨ acceptEmptyString then [piece] else []

def splitFrom (delimiter : List Char) (acceptEmptyString : Bool) :
    Nat → List Char → List Char → List (List Char)
  | _, piece, [] => emit acceptEmptyString piece
  | skip + 1, piece, _ :: s => splitFrom delimiter acceptEmptyString skip piece s
  | 0, piece, c :: s =>
    if delimiter.isPrefixOf (c :: s) then
      emit acceptEmptyString piece ++
        splitFrom delimiter acceptEmptyString (delimiter.length - 1) [] s
    else splitFrom delimiter acceptEmptyString 0 (piece ++ [c]) s

def splitString (s delimiter : List Char) (acceptEmptyString : Bool := false) :
    List (List Char) :=
  if delimiter = [] then [] else splitFrom delimiter acceptEmptyString 0 [] s

example : splitString "a--b-c--".toList "--".toList = ["a".toList, "b-c".toList] := by decide

theorem splitFrom_last {c : Char} {acceptEmptyString : Bool} (piece : List Char) {s : List Char}
    (hs : c ∉ s) :
    splitFrom [c] acceptEmptyString 0 piece s = emit acceptEmptyString (piece ++ s) := by
  induction s generalizing piece with
  | nil => rw [splitFrom, List.append_nil]
  | cons d s ih =>
    rw [List.mem_cons, not_or] at hs
    rw [splitFrom, if_neg (by simp [hs.1]), ih _ hs.2]
    simp

theorem splitFrom_delimiter {c : Char} {acceptEmptyString : Bool} (piece : List Char)
    {s : List Char} (rest : List Char) (hs : c ∉ s) :
    splitFrom [c] acceptEmptyString 0 piece (s ++ c :: rest) =
      emit acceptEmptyString (piece ++ s) ++ splitFrom [c] acceptEmptyString 0 [] rest := by
  induction s generalizing piece with
  | nil => simp [splitFrom]
  | cons d s ih =>
    rw [List.mem_cons, not_or] at hs
    rw [List.cons_append, splitFrom, if_neg (by simp [hs.1]), ih _ hs.2]
    simp

theorem splitString_cons {c : Char} {s : List Char} (rest : List Char) (hne : s ≠ [])
    (hs : c ∉ s) : splitString (s ++ c :: rest) [c] = s :: splitString rest [c] := by
  rw [splitString, if_neg nofun, splitFrom_delimiter _ _ hs, splitString, if_neg nofun]
  simp [emit, hne]

theorem splitString_last {c : Char} {s : List Char} (hne : s ≠ []) (hs : c ∉ s) :
    splitString s [c] = [s] := by
  rw [splitString, if_neg nofun, splitFrom_last _ hs]
  simp [emit, hne]

theorem splitString_delimiter (c : Char) (rest : List Char) :
    splitString (c :: rest) [c] = splitString rest [c] := by
  rw [splitString, if_neg nofun, splitString, if_neg nofun]
  simp [splitFrom, emit]

theorem splitString_replicate (c : Char) (n : Nat) (rest : List Char) :
    splitString (List.replicate n c ++ rest) [c] = splitString rest [c] := by
  induction n with
  | zero => rfl
  | succ n ih => rw [List.replicate_succ, List.cons_append, splitString_delimiter, ih]

theorem splitFrom_ne_nil (c : Char) {piece : List Char} (hpiece : piece ≠ []) (s : List Char) :
    splitFrom [c] false 0 piece s ≠ [] := by
  induction s generalizing piece with
  | nil => simp [splitFrom, emit, hpiece]
  | cons d s ih =>
    rw [splitFrom]
    split
    · simp [emit, hpiece]
    · exact ih (by simp)

theorem splitString_eq_nil_iff {c : Char} {s : List Char} :
    splitString s [c] = [] ↔ ∀ d ∈ s, d = c := by
  induction s with
  | nil => simp [splitString, splitFrom, emit]
  | cons d s ih =>
    by_cases hd : d = c
    · subst hd
      rw [splitString_delimiter, ih]
      simp
    · rw [splitString, if_neg nofun, splitFrom, if_neg (by simpa using fun h => hd h.symm)]
      exact iff_of_false (splitFrom_ne_nil c (by simp) s) fun h => hd (h d List.mem_cons_self)

end MysqlConnectPool.utils
