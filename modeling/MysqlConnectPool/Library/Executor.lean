import MysqlConnectPool.Library.System

/-! A queue of tasks, called one at a time in the order of their submission. -/

universe u

namespace MysqlConnectPool.Library.Executor

structure State (F : Type u) where
  waiting : List F
  called : List F

inductive Label (F : Type u)
  | submit (f : F)
  | call

variable {F : Type u}

def step (s : State F) : Label F → Option (State F)
  | .submit f => some { s with waiting := s.waiting ++ [f] }
  | .call =>
    match s.waiting with
    | [] => none
    | f :: rest => some ⟨rest, s.called ++ [f]⟩

def system (F : Type u) : System (State F) (Label F) where
  init s := s = ⟨[], []⟩
  step := step

def Label.submitted : Label F → Option F
  | .submit f => some f
  | .call => none

theorem step_call {s t : State F} (h : step s .call = some t) :
    ∃ f, s.waiting = f :: t.waiting ∧ t.called = s.called ++ [f] := by
  cases hwaiting : s.waiting with
  | nil => simp [step, hwaiting] at h
  | cons f rest =>
    obtain rfl : _ = t := by simpa [step, hwaiting] using h
    exact ⟨f, rfl, rfl⟩

theorem step_eq {s t : State F} {l : Label F} (h : step s l = some t) :
    t.called ++ t.waiting = s.called ++ s.waiting ++ l.submitted.toList := by
  cases l with
  | submit f =>
    cases h
    exact (List.append_assoc _ _ _).symm
  | call =>
    obtain ⟨f, hwaiting, hcalled⟩ := step_call h
    simp [hwaiting, hcalled, Label.submitted]

/-- Everything submitted waits or has been called, once and in the order of submission. -/
theorem run_eq {s t : State F} {ls : List (Label F)} (h : (system F).run s ls = some t) :
    t.called ++ t.waiting = s.called ++ s.waiting ++ ls.filterMap Label.submitted := by
  induction ls generalizing s with
  | nil =>
    cases h
    exact (List.append_nil _).symm
  | cons l ls ih =>
    obtain ⟨m, hm, h⟩ := Option.bind_eq_some_iff.mp h
    rw [ih h, step_eq hm, List.append_assoc]
    congr 1
    cases l <;> rfl

end MysqlConnectPool.Library.Executor
