import MysqlConnectPool.MySQLImpl.MySQLConnector

/-! What a history says about its statements.  `Follows` is the contract: one statement at a
time, its results handed on in the order in which they were stored, then one outcome. -/

namespace MysqlConnectPool.MySQLConnector

/-- A statement without an outcome: its text, and the results stored for it that its callback
has not received. -/
structure Pending where
  sql_ : List UInt8
  results : List (Option Nat)

/-- A history with `n` accepted statements, the last of which may be pending. -/
inductive Follows : List Event → Nat → Option Pending → Prop
  | nil : Follows [] 0 none
  | accepted : Follows trace n none →
      Follows (trace ++ [.accepted (n + 1) sql_]) (n + 1) (some ⟨sql_, []⟩)
  | stored : Follows trace n (some ⟨sql_, results⟩) →
      Follows (trace ++ [.stored n ret atOnce]) n (some ⟨sql_, results ++ [ret]⟩)
  | reported : Follows trace n (some p) → Follows (trace ++ [.reported n]) n (some p)
  | applied : Follows trace n (some p) → Follows (trace ++ [.applied n (some n)]) n (some p)
  | callback : Follows trace n (some ⟨sql_, ret :: results⟩) →
      Follows (trace ++ [.callback n ret]) n (some ⟨sql_, results⟩)
  | exception : Follows trace n (some ⟨sql_, []⟩) →
      Follows (trace ++ [.exception n message sql_]) n none
  | finished : Follows trace n (some ⟨sql_, []⟩) → Follows (trace ++ [.finished n]) n none
  | idle : Follows trace n p → Follows (trace ++ [.idle k]) n p
  | status : Follows trace n p → Follows (trace ++ [.status status_]) n p
  | ok : Follows trace n p → Follows (trace ++ [.ok]) n p
  | close : Follows trace n p → Follows (trace ++ [.close]) n p

def Event.outcomeOf : Event → Option Nat
  | .exception k _ _ | .finished k => some k
  | _ => none

def Event.serves : Event → Option Nat
  | .callback k _ | .exception k _ _ | .finished k => some k
  | _ => none

def Event.storedFor (k : Nat) : Event → Option (Option Nat)
  | .stored j ret _ => if j = k then some ret else none
  | _ => none

def Event.calledFor (k : Nat) : Event → Option (Option Nat)
  | .callback j ret => if j = k then some ret else none
  | _ => none

def outcomes (trace : List Event) (k : Nat) : Nat := trace.countP fun e => e.outcomeOf = some k

@[simp] theorem outcomes_nil (k : Nat) : outcomes [] k = 0 := rfl

@[simp] theorem outcomes_concat (trace : List Event) (e : Event) (k : Nat) :
    outcomes (trace ++ [e]) k = outcomes trace k + if e.outcomeOf = some k then 1 else 0 := by
  simp [outcomes, List.countP_append, List.countP_cons]

theorem outcomes_pos {trace : List Event} {e : Event} {k : Nat} (he : e ∈ trace)
    (hk : e.outcomeOf = some k) : 0 < outcomes trace k :=
  List.countP_pos_iff.mpr ⟨e, he, decide_eq_true hk⟩

namespace Follows

variable {trace : List Event} {n k : Nat} {p : Option Pending}

theorem accepted_pos (h : Follows trace n p) (hp : p ≠ none) : 0 < n := by
  induction h with
  | nil => exact absurd rfl hp
  | accepted => exact Nat.succ_pos _
  | exception | finished => exact absurd rfl hp
  | stored _ ih | callback _ ih | reported _ ih | applied _ ih => exact ih (Option.some_ne_none _)
  | idle _ ih | status _ ih | ok _ ih | close _ ih => exact ih hp

/-- Every accepted statement but a pending one has ended once. -/
theorem outcomes_eq (h : Follows trace n p) (k : Nat) :
    outcomes trace k = if 0 < k ∧ (k < n ∨ k = n ∧ p = none) then 1 else 0 := by
  induction h with
  | nil => rw [outcomes_nil, if_neg (by omega)]
  | accepted _ ih =>
    rw [outcomes_concat, ih]
    simp only [Event.outcomeOf, reduceCtorEq, if_false, and_false, or_false, and_true]
    exact if_congr (by omega) rfl rfl
  | stored _ ih | callback _ ih | reported _ ih | applied _ ih | idle _ ih | status _ ih | ok _ ih
  | close _ ih =>
    rw [outcomes_concat, ih]
    simp [Event.outcomeOf]
  | exception h ih | finished h ih =>
    have hpos := h.accepted_pos (Option.some_ne_none _)
    rw [outcomes_concat, ih]
    simp only [Event.outcomeOf, reduceCtorEq, and_false, or_false, and_true, Option.some.injEq]
    split_ifs <;> omega

theorem outcomes_pending {q : Pending} (h : Follows trace n (some q)) : outcomes trace n = 0 := by
  rw [h.outcomes_eq, if_neg (by simp)]

/-- The results stored for a statement are those that its callback has received, in the same
order, and those that a pending statement still has to receive. -/
theorem results_eq (h : Follows trace n p) (k : Nat) :
    trace.filterMap (Event.storedFor k) = trace.filterMap (Event.calledFor k) ++
      (if k = n then p.elim [] Pending.results else []) := by
  induction h with
  | nil => simp
  | accepted h ih =>
    simpa [List.filterMap_append, List.filterMap_cons, Event.storedFor, Event.calledFor] using ih
  | @stored _ n _ _ _ _ h ih | @callback _ n _ _ _ h ih =>
    rw [List.filterMap_append, List.filterMap_append, ih]
    by_cases hk : k = n
    · subst hk
      simp [List.filterMap_cons, Event.storedFor, Event.calledFor]
    · simp [List.filterMap_cons, Event.storedFor, Event.calledFor, hk, Ne.symm hk]
  | reported _ ih | applied _ ih | idle _ ih | status _ ih | ok _ ih | close _ ih =>
    simpa [List.filterMap_append, List.filterMap_cons, Event.storedFor, Event.calledFor] using ih
  | exception _ ih | finished _ ih =>
    simpa [List.filterMap_append, List.filterMap_cons, Event.storedFor, Event.calledFor] using ih

def Silent (trace : List Event) : Prop :=
  trace.Pairwise fun e e' => ∀ k, e.outcomeOf = some k → e'.serves ≠ some k

theorem silent_concat {e : Event} (h : Follows trace n p) (hs : Silent trace)
    (he : ∀ j, e.serves = some j → j = n ∧ p ≠ none) : Silent (trace ++ [e]) := by
  refine List.pairwise_append.mpr ⟨hs, List.pairwise_singleton _ _, ?_⟩
  intro a ha b hb k hk hserves
  obtain rfl := List.mem_singleton.mp hb
  obtain ⟨rfl, hp⟩ := he k hserves
  have hpos := outcomes_pos ha hk
  rw [h.outcomes_eq, if_neg (by simp [hp])] at hpos
  exact absurd hpos (Nat.lt_irrefl 0)

theorem silent (h : Follows trace n p) : Silent trace := by
  induction h with
  | nil => exact List.Pairwise.nil
  | accepted h ih | stored h ih | reported h ih | applied h ih | idle h ih | status h ih | ok h ih
  | close h ih =>
    exact h.silent_concat ih nofun
  | callback h ih | exception h ih | finished h ih =>
    refine h.silent_concat ih fun j hj => ⟨?_, Option.some_ne_none _⟩
    exact (Option.some.inj hj).symm

theorem accepted_mem (h : Follows trace n p) {sql_ : List UInt8} (hk : .accepted k sql_ ∈ trace) :
    0 < k ∧ k ≤ n := by
  induction h with
  | nil => cases hk
  | accepted _ ih =>
    rcases List.mem_append.mp hk with hold | hnew
    · exact (ih hold).imp_right Nat.le_succ_of_le
    · obtain ⟨rfl, rfl⟩ : k = _ + 1 ∧ _ = _ := by simpa using hnew
      exact ⟨Nat.succ_pos _, Nat.le_refl _⟩
  | stored _ ih | callback _ ih | reported _ ih | applied _ ih | exception _ ih | finished _ ih
  | idle _ ih | status _ ih | ok _ ih | close _ ih => exact ih (by simpa using hk)

theorem applied_target (h : Follows trace n p) {target : Option Nat}
    (hk : .applied k target ∈ trace) : target = some k := by
  induction h with
  | nil => cases hk
  | applied _ ih =>
    rcases List.mem_append.mp hk with hold | hnew
    · exact ih hold
    · obtain ⟨rfl, rfl⟩ : k = _ ∧ target = _ := by simpa using hnew
      rfl
  | accepted _ ih | stored _ ih | callback _ ih | reported _ ih | exception _ ih | finished _ ih
  | idle _ ih | status _ ih | ok _ ih | close _ ih => exact ih (by simpa using hk)

theorem pending_accepted {q : Pending} (h : Follows trace n p) (hp : p = some q) :
    .accepted n q.sql_ ∈ trace := by
  induction h generalizing q with
  | nil => cases hp
  | accepted => simp [← Option.some.inj hp]
  | stored _ ih | callback _ ih =>
    have hq := ih rfl
    rw [← Option.some.inj hp]
    exact List.mem_append_left _ hq
  | exception | finished => cases hp
  | reported _ ih | applied _ ih | idle _ ih | status _ ih | ok _ ih | close _ ih =>
    exact List.mem_append_left _ (ih hp)

theorem exception_accepted (h : Follows trace n p) {message sql_ : List UInt8}
    (hk : .exception k message sql_ ∈ trace) : .accepted k sql_ ∈ trace := by
  induction h with
  | nil => cases hk
  | exception h ih =>
    rcases List.mem_append.mp hk with hold | hnew
    · exact List.mem_append_left _ (ih hold)
    · obtain ⟨rfl, rfl, rfl⟩ : k = _ ∧ message = _ ∧ sql_ = _ := by simpa using hnew
      exact List.mem_append_left _ (h.pending_accepted rfl)
  | accepted _ ih | stored _ ih | callback _ ih | reported _ ih | applied _ ih | finished _ ih
  | idle _ ih | status _ ih | ok _ ih | close _ ih =>
    exact List.mem_append_left _ (ih (by simpa using hk))

end Follows

end MysqlConnectPool.MySQLConnector
