import Mathlib.Data.List.Sort
import Mathlib.Data.Multiset.AddSub

/-! Priority queues that yield an element of least key.  Which one among equal keys
is left to the implementation. -/

universe u v w

namespace MysqlConnectPool.Library

structure MinQueue {α : Type u} {K : Type v} [LinearOrder K] (key : α → K) where
  Q : Type w
  empty : Q
  push : α → Q → Q
  top? : Q → Option α
  pop : Q → Q
  elems : Q → Multiset α
  elems_empty : elems empty = 0
  elems_push : ∀ a q, elems (push a q) = a ::ₘ elems q
  top?_eq_none : ∀ q, top? q = none ↔ elems q = 0
  elems_pop : ∀ q a, top? q = some a → elems q = a ::ₘ elems (pop q)
  top?_le : ∀ q a, top? q = some a → ∀ b ∈ elems q, key a ≤ key b

namespace MinQueue

variable {α : Type u} {K : Type v} [LinearOrder K] {key : α → K} (H : MinQueue key)

attribute [simp] elems_empty elems_push

theorem mem_of_top? {q : H.Q} {a : α} (h : H.top? q = some a) : a ∈ H.elems q := by
  rw [H.elems_pop q a h]
  exact Multiset.mem_cons_self a _

theorem exists_top? {q : H.Q} {a : α} (h : a ∈ H.elems q) : ∃ b, H.top? q = some b := by
  cases ht : H.top? q with
  | none =>
    rw [(H.top?_eq_none q).mp ht] at h
    exact absurd h (Multiset.notMem_zero a)
  | some b => exact ⟨b, rfl⟩

theorem key_top?_push_of_le {q : H.Q} {a b c : α} (h : H.top? q = some b) (hab : key b ≤ key a)
    (hc : H.top? (H.push a q) = some c) : key c = key b := by
  apply le_antisymm
  · exact H.top?_le _ c hc b (by simp [H.mem_of_top? h])
  · have hmem := H.mem_of_top? hc
    rw [elems_push, Multiset.mem_cons] at hmem
    rcases hmem with rfl | hmem
    · exact hab
    · exact H.top?_le q b h c hmem

theorem key_top?_push_of_lt {q : H.Q} {a c : α} (h : ∀ b, H.top? q = some b → key a < key b)
    (hc : H.top? (H.push a q) = some c) : key c = key a := by
  apply le_antisymm
  · exact H.top?_le _ c hc a (by simp)
  · have hmem := H.mem_of_top? hc
    rw [elems_push, Multiset.mem_cons] at hmem
    rcases hmem with rfl | hmem
    · exact le_refl _
    · obtain ⟨b, hb⟩ := H.exists_top? hmem
      exact (h b hb).le.trans (H.top?_le q b hb c hmem)

def takeWhileLe (bound : K) : Nat → H.Q → List α × H.Q
  | 0, q => ([], q)
  | n + 1, q =>
    match H.top? q with
    | none => ([], q)
    | some a =>
      if key a ≤ bound then
        let r := takeWhileLe bound n (H.pop q)
        (a :: r.1, r.2)
      else ([], q)

theorem elems_takeWhileLe (bound : K) (n : Nat) (q : H.Q) :
    H.elems q = (H.takeWhileLe bound n q).1 + H.elems (H.takeWhileLe bound n q).2 := by
  induction n generalizing q with
  | zero => simp [takeWhileLe]
  | succ n ih =>
    unfold takeWhileLe
    cases ht : H.top? q with
    | none => simp
    | some a =>
      by_cases ha : key a ≤ bound
      · simp only [ha, ↓reduceIte]
        rw [H.elems_pop q a ht, ← Multiset.cons_coe, Multiset.cons_add, ← ih]
      · simp [ha]

theorem le_of_mem_takeWhileLe {bound : K} {n : Nat} {q : H.Q} {a : α}
    (h : a ∈ (H.takeWhileLe bound n q).1) : key a ≤ bound := by
  induction n generalizing q with
  | zero => simp [takeWhileLe] at h
  | succ n ih =>
    unfold takeWhileLe at h
    cases ht : H.top? q with
    | none => simp [ht] at h
    | some b =>
      by_cases hb : key b ≤ bound
      · simp only [ht, hb, ↓reduceIte, List.mem_cons] at h
        rcases h with rfl | h
        · exact hb
        · exact ih h
      · simp [ht, hb] at h

theorem pairwise_takeWhileLe (bound : K) (n : Nat) (q : H.Q) :
    (H.takeWhileLe bound n q).1.Pairwise (fun a b => key a ≤ key b) := by
  induction n generalizing q with
  | zero => exact List.Pairwise.nil
  | succ n ih =>
    unfold takeWhileLe
    cases ht : H.top? q with
    | none => exact List.Pairwise.nil
    | some a =>
      by_cases ha : key a ≤ bound
      · simp only [ha, ↓reduceIte]
        refine List.pairwise_cons.mpr ⟨fun b hb => H.top?_le q a ht b ?_, ih (H.pop q)⟩
        rw [H.elems_pop q a ht, H.elems_takeWhileLe bound n (H.pop q)]
        exact Multiset.mem_cons_of_mem (Multiset.mem_add.mpr (.inl (Multiset.mem_coe.mpr hb)))
      · simp only [ha, ↓reduceIte]
        exact List.Pairwise.nil

theorem lt_of_mem_rest {bound : K} {n : Nat} {q : H.Q} (hn : (H.elems q).card ≤ n) {a : α}
    (h : a ∈ H.elems (H.takeWhileLe bound n q).2) : bound < key a := by
  induction n generalizing q with
  | zero =>
    have : H.elems q = 0 := Multiset.card_eq_zero.mp (Nat.le_zero.mp hn)
    simp [takeWhileLe, this] at h
  | succ n ih =>
    unfold takeWhileLe at h
    cases ht : H.top? q with
    | none => simp [ht, (H.top?_eq_none q).mp ht] at h
    | some b =>
      by_cases hb : key b ≤ bound
      · simp only [ht, hb, ↓reduceIte] at h
        apply ih _ h
        rw [H.elems_pop q b ht, Multiset.card_cons] at hn
        omega
      · simp only [ht, hb, ↓reduceIte] at h
        exact (not_le.mp hb).trans_le (H.top?_le q b ht a h)

def sorted (key : α → K) : MinQueue key where
  Q := { l : List α // l.Pairwise (fun a b => key a ≤ key b) }
  empty := ⟨[], List.Pairwise.nil⟩
  push a q := ⟨q.1.orderedInsert (fun a b => key a ≤ key b) a, by
    have : Std.Total (fun a b : α => key a ≤ key b) := ⟨fun a b => le_total (key a) (key b)⟩
    have : IsTrans α (fun a b => key a ≤ key b) := ⟨fun _ _ _ => le_trans⟩
    exact List.Pairwise.orderedInsert a q.1 q.2⟩
  top? q := q.1.head?
  pop q := ⟨q.1.tail, q.2.tail⟩
  elems q := q.1
  elems_empty := rfl
  elems_push a q := by
    rw [Multiset.cons_coe, Multiset.coe_eq_coe]
    exact List.perm_orderedInsert _ a q.1
  top?_eq_none q := by simp [List.head?_eq_none_iff]
  elems_pop q a h := by
    obtain ⟨l, hl⟩ := q
    cases l with
    | nil => simp at h
    | cons b l =>
      obtain rfl : b = a := by simpa using h
      rfl
  top?_le q a h b hb := by
    obtain ⟨l, hl⟩ := q
    cases l with
    | nil => simp at h
    | cons c l =>
      obtain rfl : c = a := by simpa using h
      rcases List.mem_cons.mp hb with rfl | hb
      · exact le_refl _
      · exact List.rel_of_pairwise_cons hl hb

end MinQueue

end MysqlConnectPool.Library
