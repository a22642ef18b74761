import Mathlib.Algebra.Ring.Int.Defs
import Mathlib.Data.List.Basic

/-! Loops from one position to another, and positions that are kept one ahead to go backwards. -/

universe u v

namespace MysqlConnectPool.Library.Traversal

section Visit

variable {α : Type u} {β : Type v} {atEnd : α → Bool} {next : α → α} {read : α → Option β}

/-- What a loop reads between a position and the end; a read that fails ends it, and it is still
running when the turns are used up. -/
def visit (atEnd : α → Bool) (next : α → α) (read : α → Option β) : Nat → α → Option (List β)
  | 0, _ => none
  | fuel + 1, a =>
    if atEnd a then some []
    else (read a).bind fun b => (visit atEnd next read fuel (next a)).map (b :: ·)

theorem visit_eq (pos : Nat → α) {xs : List β}
    (hread : ∀ k (h : k < xs.length), read (pos k) = some xs[k])
    (hnext : ∀ k, k < xs.length → next (pos k) = pos (k + 1))
    (hend : ∀ k, k ≤ xs.length → atEnd (pos k) = decide (k = xs.length)) {fuel : Nat}
    (hfuel : xs.length < fuel) : visit atEnd next read fuel (pos 0) = some xs := by
  induction fuel generalizing pos xs with
  | zero => exact absurd hfuel (Nat.not_lt_zero _)
  | succ fuel ih =>
    cases xs with
    | nil => exact if_pos ((hend 0 (Nat.le_refl 0)).trans rfl)
    | cons x xs =>
      have hrest : visit atEnd next read fuel (pos 1) = some xs := by
        refine ih (fun k => pos (k + 1)) (fun k hk => ?_) (fun k hk => ?_) (fun k hk => ?_)
          (Nat.lt_of_succ_lt_succ hfuel)
        · exact (hread (k + 1) (Nat.succ_lt_succ hk)).trans (by simp)
        · exact hnext (k + 1) (Nat.succ_lt_succ hk)
        · exact (hend (k + 1) (Nat.succ_le_succ hk)).trans (by simp)
      have hfirst := hend 0 (Nat.zero_le _)
      rw [visit, hfirst, if_neg (by simp), hread 0 (Nat.succ_pos _), hnext 0 (Nat.succ_pos _),
        Option.bind_some, hrest]
      rfl

end Visit

inductive Move
  | increment
  | decrement
  | advance (i : Int)
  | retreat (i : Int)

namespace Move

def apply : Move → Int → Int
  | .increment, a => a + 1
  | .decrement, a => a - 1
  | .advance i, a => a + i
  | .retreat i, a => a - i

def mirror : Move → Move
  | .increment => .decrement
  | .decrement => .increment
  | .advance i => .retreat i
  | .retreat i => .advance i

def distance : Move → Int
  | .increment => 1
  | .decrement => -1
  | .advance i => i
  | .retreat i => -i

theorem foldl_mirror (ms : List Move) (a : Int) :
    ms.foldl (fun a m => m.mirror.apply a) a = a - (ms.map distance).sum := by
  induction ms generalizing a with
  | nil => simp
  | cons m ms ih =>
    rw [List.foldl_cons, ih, List.map_cons, List.sum_cons]
    cases m <;> simp only [mirror, apply, distance] <;> omega

end Move

end MysqlConnectPool.Library.Traversal
