import Mathlib.Data.List.Infix

/-! Texts cut at a delimiter. -/

namespace MysqlConnectPool.Library

variable {α : Type u} {d : List α}

/-- No occurrence of `d` begins before the one that follows `piece`. -/
def Leftmost (d piece rest : List α) : Prop :=
  ∀ k < piece.length, ¬ d <+: (piece ++ (d ++ rest)).drop k

theorem Leftmost.nil (d rest : List α) : Leftmost d [] rest :=
  fun k hk => absurd hk (Nat.not_lt_zero k)

theorem leftmost_cons {a : α} {piece rest : List α} :
    Leftmost d (a :: piece) rest ↔
      ¬ d <+: a :: (piece ++ (d ++ rest)) ∧ Leftmost d piece rest := by
  constructor
  · intro h
    exact ⟨h 0 (by simp), fun k hk => h (k + 1) (by simpa using hk)⟩
  · rintro ⟨hfirst, hrest⟩ k hk
    cases k with
    | zero => exact hfirst
    | succ k => exact hrest k (by simpa using hk)

theorem exists_leftmost {s : List α} (h : d <:+: s) :
    ∃ piece rest, s = piece ++ (d ++ rest) ∧ Leftmost d piece rest := by
  induction s with
  | nil =>
    obtain rfl := List.infix_nil.mp h
    exact ⟨[], [], rfl, .nil _ _⟩
  | cons a s ih =>
    by_cases hfirst : d <+: a :: s
    · obtain ⟨rest, hrest⟩ := hfirst
      exact ⟨[], rest, hrest.symm, .nil _ _⟩
    · obtain ⟨piece, rest, rfl, hleft⟩ := ih ((List.infix_cons_iff.mp h).resolve_left hfirst)
      exact ⟨a :: piece, rest, rfl, leftmost_cons.mpr ⟨hfirst, hleft⟩⟩

theorem Leftmost.not_contained (hd : d ≠ []) {piece rest : List α} (h : Leftmost d piece rest) :
    ¬ d <:+: piece := by
  rintro ⟨before, after, rfl⟩
  have hlength : 0 < d.length := List.length_pos_iff.mpr hd
  refine h before.length (by simp only [List.length_append]; omega) ?_
  rw [List.append_assoc, List.append_assoc, List.drop_left]
  exact List.prefix_append d _

/-- The pieces of a text cut at the leftmost occurrence of the delimiter, then at the leftmost one
behind it, and so on. -/
inductive Cuts (d : List α) : List α → List (List α) → Prop
  | last {s : List α} : ¬ d <:+: s → Cuts d s [s]
  | cut {piece rest : List α} {pieces : List (List α)} :
    Leftmost d piece rest → Cuts d rest pieces → Cuts d (piece ++ (d ++ rest)) (piece :: pieces)

theorem exists_cuts (hd : d ≠ []) (s : List α) : ∃ pieces, Cuts d s pieces := by
  induction hn : s.length using Nat.strong_induction_on generalizing s with
  | _ n ih =>
    by_cases h : d <:+: s
    · obtain ⟨piece, rest, rfl, hleft⟩ := exists_leftmost h
      have hlength : 0 < d.length := List.length_pos_iff.mpr hd
      obtain ⟨pieces, hpieces⟩ := ih rest.length (by
        simp only [List.length_append] at hn
        omega) rest rfl
      exact ⟨piece :: pieces, .cut hleft hpieces⟩
    · exact ⟨[s], .last h⟩

theorem Cuts.ne_nil {s : List α} {pieces : List (List α)} (h : Cuts d s pieces) : pieces ≠ [] := by
  cases h <;> exact List.cons_ne_nil _ _

theorem Cuts.intercalate_eq {s : List α} {pieces : List (List α)} (h : Cuts d s pieces) :
    d.intercalate pieces = s := by
  induction h with
  | last => exact List.intercalate_singleton
  | cut _ hrest ih => rw [List.intercalate_cons_of_ne_nil hrest.ne_nil, ih, List.append_assoc]

theorem Cuts.not_contained (hd : d ≠ []) {s : List α} {pieces : List (List α)}
    (h : Cuts d s pieces) : ∀ piece ∈ pieces, ¬ d <:+: piece := by
  induction h with
  | last hs =>
    intro piece hpiece
    rwa [List.mem_singleton.mp hpiece]
  | cut hleft _ ih => exact List.forall_mem_cons.mpr ⟨hleft.not_contained hd, ih⟩

end MysqlConnectPool.Library
