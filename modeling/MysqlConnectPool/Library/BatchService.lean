import Mathlib.Tactic.Ring
import MysqlConnectPool.Library.System

/-! Waiters served in batches, in the order of their arrival.  A waiter of a batch waits again behind
the others, and a batch that is full doubles the capacity of the next. -/

universe u

namespace MysqlConnectPool.Library.BatchService

structure State (α : Type u) where
  capacity : Nat
  waiting : List α
  batch : List α

inductive Label (α : Type u)
  | arrive (a : α)
  | leave (a : α)
  | take
  | serve (a : α)

def Label.takes : Label α → Bool
  | .take => true
  | _ => false

def Label.names [DecidableEq α] (a : α) : Label α → Bool
  | .leave b | .serve b => b = a
  | _ => false

variable {α : Type u}

def State.take (s : State α) : State α where
  capacity := if (s.waiting.take s.capacity).length = s.capacity then 2 * s.capacity else s.capacity
  waiting := s.waiting.drop s.capacity ++ s.waiting.take s.capacity
  batch := s.waiting.take s.capacity

def State.Before (s : State α) (a : α) (n : Nat) : Prop :=
  ∃ before behind, s.waiting = before ++ a :: behind ∧ before.length = n

theorem take_before {s : State α} {a : α} {n : Nat} (h : s.Before a n) (hbatch : a ∉ s.take.batch) :
    s.capacity ≤ n ∧ s.take.capacity = 2 * s.capacity ∧ s.take.Before a (n - s.capacity) := by
  obtain ⟨before, behind, hwaiting, hlength⟩ := h
  have hle : s.capacity ≤ n := by
    by_contra hlt
    refine hbatch ?_
    rw [State.take, hwaiting, List.take_append]
    refine List.mem_append_right _ ?_
    rw [show s.capacity - before.length = (s.capacity - before.length - 1) + 1 by omega,
      List.take_succ_cons]
    exact List.mem_cons_self
  refine ⟨hle, ?_, before.drop s.capacity,
    behind ++ (before ++ a :: behind).take s.capacity, ?_, ?_⟩
  · have hfull : (s.waiting.take s.capacity).length = s.capacity := by
      rw [List.length_take, hwaiting, List.length_append, hlength]
      omega
    exact if_pos hfull
  · rw [State.take, hwaiting, List.drop_append_of_le_length (by omega), List.append_assoc,
      List.cons_append]
  · rw [List.length_drop, hlength]

variable [DecidableEq α]

def step (s : State α) : Label α → Option (State α)
  | .arrive a => if a ∈ s.waiting then none else some { s with waiting := s.waiting ++ [a] }
  | .leave a => some { s with waiting := s.waiting.erase a }
  | .take => if s.batch = [] then some s.take else none
  | .serve a =>
    match s.batch with
    | [] => none
    | b :: batch => if b = a then some { s with batch := batch } else none

def system (α : Type u) [DecidableEq α] : System (State α) (Label α) where
  init s := s.waiting = [] ∧ s.batch = []
  step := step

variable {s t : State α} {a : α} {l : Label α}

theorem step_serve {b : α} (h : step s (.serve b) = some t) :
    s.batch = b :: t.batch ∧ t.waiting = s.waiting ∧ t.capacity = s.capacity := by
  cases hbatch : s.batch with
  | nil => simp [step, hbatch] at h
  | cons c batch =>
    obtain ⟨rfl, rfl⟩ : c = b ∧ _ = t := by simpa [step, hbatch] using h
    exact ⟨rfl, rfl, rfl⟩

theorem step_take (h : step s .take = some t) : s.batch = [] ∧ t = s.take := by
  obtain ⟨hbatch, rfl⟩ : s.batch = [] ∧ s.take = t := by simpa [step] using h
  exact ⟨hbatch, rfl⟩

theorem Before.step {n : Nat} (h : s.Before a n) (hst : step s l = some t) (htakes : l.takes = false)
    (hname : l.names a = false) : t.capacity = s.capacity ∧ ∃ m ≤ n, t.Before a m := by
  obtain ⟨before, behind, hwaiting, hlength⟩ := h
  cases l with
  | arrive b =>
    obtain ⟨-, rfl⟩ : b ∉ s.waiting ∧ _ = t := by simpa [BatchService.step] using hst
    exact ⟨rfl, n, Nat.le_refl n, before, behind ++ [b], by simp [hwaiting], hlength⟩
  | leave b =>
    cases hst
    have hne : b ≠ a := by simpa [Label.names] using hname
    refine ⟨rfl, ?_⟩
    by_cases hb : b ∈ before
    · refine ⟨_, ?_, before.erase b, behind, ?_, rfl⟩
      · rw [← hlength]
        exact (List.erase_sublist ..).length_le
      · rw [hwaiting, List.erase_append_left _ hb]
    · refine ⟨n, Nat.le_refl n, before, behind.erase b, ?_, hlength⟩
      rw [hwaiting, List.erase_append_right _ hb, List.erase_cons_tail (by simpa using hne.symm)]
  | take => cases htakes
  | serve b =>
    obtain ⟨-, hsame, hcapacity⟩ := step_serve hst
    exact ⟨hcapacity, n, Nat.le_refl n, before, behind, hsame.trans hwaiting, hlength⟩

theorem countP_takes_of_mem {ls : List (Label α)} (hmem : a ∈ s.batch)
    (hr : (system α).run s ls = some t) (hnames : ∀ l ∈ ls, l.names a = false) :
    ls.countP Label.takes = 0 := by
  induction ls generalizing s with
  | nil => rfl
  | cons l ls ih =>
    obtain ⟨m, hm, hr⟩ := Option.bind_eq_some_iff.mp hr
    have hrest := fun hmem => ih hmem hr fun l hl => hnames l (List.mem_cons_of_mem _ hl)
    cases l with
    | arrive b =>
      obtain ⟨-, rfl⟩ : b ∉ s.waiting ∧ _ = m := by simpa [system, BatchService.step] using hm
      simpa [Label.takes] using hrest hmem
    | leave b =>
      cases hm
      simpa [Label.takes] using hrest hmem
    | take =>
      rw [(step_take hm).1] at hmem
      cases hmem
    | serve b =>
      have hne : b ≠ a := by simpa [Label.names] using hnames _ List.mem_cons_self
      rw [(step_serve hm).1] at hmem
      simpa [Label.takes] using hrest ((List.mem_cons.mp hmem).resolve_left hne.symm)

/-- All batches but the last of those that a waiter waits for are full, and of those before it. -/
theorem capacity_mul_le {n : Nat} {ls : List (Label α)} (h : s.Before a n)
    (hr : (system α).run s ls = some t) (hnames : ∀ l ∈ ls, l.names a = false) :
    s.capacity * (2 ^ (ls.countP Label.takes - 1) - 1) ≤ n := by
  induction ls generalizing s n with
  | nil => exact Nat.zero_le n
  | cons l ls ih =>
    obtain ⟨m, hm, hr⟩ := Option.bind_eq_some_iff.mp hr
    have hrest := fun l hl => hnames l (List.mem_cons_of_mem _ hl)
    cases htakes : l.takes with
    | false =>
      obtain ⟨hcapacity, k, hk, hbefore⟩ := Before.step h hm htakes (hnames l List.mem_cons_self)
      have hle := ih hbefore hr hrest
      rw [List.countP_cons_of_neg (by simp [htakes]), ← hcapacity]
      omega
    | true =>
      obtain rfl : l = .take := by
        cases l with
        | take => rfl
        | _ => cases htakes
      obtain ⟨-, rfl⟩ := step_take hm
      rw [List.countP_cons_of_pos htakes, Nat.add_sub_cancel]
      by_cases hmem : a ∈ s.take.batch
      · rw [countP_takes_of_mem hmem hr hrest]
        exact Nat.zero_le n
      · obtain ⟨hle, hcapacity, hbefore⟩ := take_before h hmem
        have hsum := ih hbefore hr hrest
        rw [hcapacity] at hsum
        cases hcount : ls.countP Label.takes with
        | zero => exact Nat.zero_le n
        | succ k =>
          rw [hcount, Nat.add_sub_cancel] at hsum
          have hpow : 2 ^ (k + 1) - 1 = 2 * (2 ^ k - 1) + 1 := by
            have hpos := Nat.two_pow_pos k
            rw [Nat.pow_succ]
            omega
          calc s.capacity * (2 ^ (k + 1) - 1) = 2 * s.capacity * (2 ^ k - 1) + s.capacity := by
                rw [hpow]
                ring
            _ ≤ n - s.capacity + s.capacity := Nat.add_le_add_right hsum _
            _ = n := Nat.sub_add_cancel hle

end MysqlConnectPool.Library.BatchService
