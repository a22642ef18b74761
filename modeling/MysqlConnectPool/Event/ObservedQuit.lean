import MysqlConnectPool.Event.EventLoop
import MysqlConnectPool.Library.System

/-! Threads that watch a loop with `isRunning` before they call `quit`. -/

universe u v w

namespace MysqlConnectPool.EventLoop

open Library System

variable {ι : Type w} {Addr : Type u} {Func : Type v}

/-- History: `runs` counts the runs of `loop` that have begun.  For each thread, `reading` is the
run in which `isRunning` has read `looping_` as true and is about to read `quit_`, `observed` the
last run for which it was true, `quitting` the run that the thread had observed when its `quit`
in progress stored the flag, and `quitDone` that of its last such `quit` that has completed. -/
structure Watched (ι : Type w) (Addr : Type u) (Func : Type v) where
  loop : State ι Addr Func
  runs : Nat
  reading : ι → Option Nat
  observed : ι → Option Nat
  quitting : ι → Option Nat
  quitDone : ι → Option Nat

/-- The two loads of `isRunning`, the steps of the loop and its callers, and an exception from
an event callback or a functor, which leaves the loop. -/
inductive WatchedLabel (ι : Type w) (Addr : Type u) (Func : Type v)
  | loadLooping (p : ι)
  | loadQuit (p : ι)
  | act (l : Label ι Addr Func)
  | throw

def Phase.throws : Phase → Bool
  | .handling _ | .calling => true
  | _ => false

def Label.thread (threadId_ : ι) : Label ι Addr Func → ι
  | .queueInLoop p _ _ | .link p | .testLooping p | .quit p | .testThread p | .wakeup p => p
  | .loop | .pollReturns _ | .wakeupRead | .userReturns => threadId_

namespace Watched

variable {s t : Watched ι Addr Func}

/-- What is known of a run concerns a run that has begun, and a `quit` behind an observation of
the current run stands. -/
structure Inv (s : Watched ι Addr Func) : Prop where
  observed : ∀ p r, s.observed p = some r → r ≤ s.runs
  quitting : ∀ p r, s.quitting p = some r → r ≤ s.runs
  quitDone : ∀ p r, s.quitDone p = some r → r ≤ s.runs
  stands : ∀ p, s.quitting p = some s.runs ∨ s.quitDone p = some s.runs →
    s.loop.quit_ = true ∧ s.loop.phase ≠ .starting

theorem Inv.quits_le (h : Inv s) {q : ι} {r : Nat}
    (hq : s.quitting q = some r ∨ s.quitDone q = some r) : r ≤ s.runs :=
  hq.elim (h.quitting q r) (h.quitDone q r)

section History

variable [DecidableEq ι]

def follow (s : Watched ι Addr Func) (t : State ι Addr Func) (l : Label ι Addr Func) :
    Watched ι Addr Func :=
  { s with
    loop := t
    runs :=
      match l with
      | .loop => if s.loop.phase = .outside then s.runs + 1 else s.runs
      | _ => s.runs
    quitting :=
      match l with
      | .quit p => Function.update s.quitting p (s.observed p)
      | .testThread p | .wakeup p =>
        if t.caller p = .idle then Function.update s.quitting p none else s.quitting
      | _ => s.quitting
    quitDone :=
      match l with
      | .testThread p | .wakeup p =>
        if t.caller p = .idle then
          Function.update s.quitDone p ((s.quitting p).or (s.quitDone p))
        else s.quitDone
      | _ => s.quitDone }

theorem follow_quits {u : State ι Addr Func} {l : Label ι Addr Func} {q : ι} {r : Nat}
    (h : (s.follow u l).quitting q = some r ∨ (s.follow u l).quitDone q = some r) :
    (s.quitting q = some r ∨ s.quitDone q = some r) ∨ l = .quit q ∧ s.observed q = some r := by
  cases l with
  | quit p =>
    rcases h with h | h
    · by_cases hqp : q = p
      · subst hqp
        exact Or.inr ⟨rfl, (Function.update_self q _ _).symm.trans h⟩
      · exact Or.inl (Or.inl ((Function.update_of_ne hqp _ _).symm.trans h))
    · exact Or.inl (Or.inr h)
  | testThread p | wakeup p =>
    refine Or.inl ?_
    simp only [follow] at h
    split at h
    · by_cases hqp : q = p
      · subst hqp
        simp only [Function.update_self, reduceCtorEq, false_or, Option.or_eq_some_iff] at h
        exact h.imp_right fun h => h.2
      · simpa only [Function.update_of_ne hqp] using h
    · exact h
  | queueInLoop | link | testLooping | loop | pollReturns | wakeupRead | userReturns =>
    exact Or.inl h

theorem follow_runs_le {u : State ι Addr Func} {l : Label ι Addr Func} :
    s.runs ≤ (s.follow u l).runs := by
  cases l with
  | loop =>
    simp only [follow]
    split
    · exact Nat.le_succ _
    · exact Nat.le_refl _
  | queueInLoop | link | testLooping | quit | testThread | wakeup | pollReturns | wakeupRead
    | userReturns => exact Nat.le_refl _

theorem follow_runs_eq {u : State ι Addr Func} {l : Label ι Addr Func}
    (hl : l = .loop → s.loop.phase ≠ .outside) : (s.follow u l).runs = s.runs := by
  cases l with
  | loop => exact if_neg (hl rfl)
  | queueInLoop | link | testLooping | quit | testThread | wakeup | pollReturns | wakeupRead
    | userReturns => rfl

end History

end Watched

variable [DecidableEq ι] [DecidableEq Addr]

namespace Watched

def init (front : Addr) : Watched ι Addr Func where
  loop := EventLoop.init front
  runs := 0
  reading _ := none
  observed _ := none
  quitting _ := none
  quitDone _ := none

def step (threadId_ : ι) (s : Watched ι Addr Func) :
    WatchedLabel ι Addr Func → Option (Watched ι Addr Func)
  | .loadLooping p =>
    if s.loop.mayCall threadId_ p ∧ s.reading p = none then
      some { s with
        reading := Function.update s.reading p (if s.loop.looping_ then some s.runs else none) }
    else none
  | .loadQuit p =>
    (s.reading p).map fun run =>
      { s with
        reading := Function.update s.reading p none
        observed :=
          if s.loop.quit_ = false ∧ run = s.runs then Function.update s.observed p (some run)
          else s.observed }
  | .act l =>
    if s.reading (l.thread threadId_) = none then
      (EventLoop.step threadId_ s.loop l).map fun t => s.follow t l
    else none
  | .throw =>
    if s.reading threadId_ = none ∧ s.loop.caller threadId_ = .idle ∧ s.loop.phase.throws then
      some { s with loop := { s.loop with phase := .leaving } }
    else none

def system (ι : Type w) (Addr : Type u) (Func : Type v) [DecidableEq ι] [DecidableEq Addr]
    (threadId_ : ι) : System (Watched ι Addr Func) (WatchedLabel ι Addr Func) where
  init s := ∃ front, s = init front
  step := step threadId_

/-- A thread that has observed this run does not store `quit_` between the two stores with
which the run begins. -/
def settled (s : Watched ι Addr Func) : WatchedLabel ι Addr Func → Bool
  | .act (.quit p) => !(s.loop.phase = .starting ∧ s.observed p = some s.runs)
  | _ => true

end Watched

omit [DecidableEq ι] in
theorem loopStep_quit {s t : State ι Addr Func} (h : s.loopStep = some t) :
    (s.phase = .outside ∧ t.quit_ = s.quit_) ∨
      (s.phase = .starting ∧ t.phase = .condition) ∨
      (s.phase ≠ .outside ∧ t.quit_ = s.quit_ ∧ t.phase ≠ .starting) := by
  cases hp : s.phase with
  | outside =>
    simp only [State.loopStep, hp, Option.some.injEq] at h
    subst h
    exact Or.inl ⟨rfl, rfl⟩
  | starting =>
    simp only [State.loopStep, hp, Option.some.injEq] at h
    subst h
    exact Or.inr (Or.inl ⟨rfl, rfl⟩)
  | leaving =>
    simp only [State.loopStep, hp, Option.some.injEq] at h
    subst h
    exact Or.inr (Or.inr ⟨nofun, rfl, nofun⟩)
  | condition | draining =>
    simp only [State.loopStep, hp, Option.some.injEq] at h
    subst h
    refine Or.inr (Or.inr ⟨nofun, rfl, ?_⟩)
    dsimp only
    split <;> exact nofun
  | dequeuing =>
    refine Or.inr (Or.inr ⟨nofun, ?_⟩)
    simp only [State.loopStep, hp] at h
    split at h
    · split at h
      · cases h
        exact ⟨rfl, nofun⟩
      · cases h
        exact ⟨rfl, nofun⟩
    · cases h
      exact ⟨rfl, nofun⟩
    · cases h
      exact ⟨rfl, nofun⟩
  | polling | handling _ | calling | destroying =>
    simp only [State.loopStep, hp] at h
    cases h

theorem step_quit {threadId_ : ι} {s t : State ι Addr Func} {l : Label ι Addr Func}
    (h : step threadId_ s l = some t) :
    (∃ p, l = .quit p ∧ t.quit_ = true ∧ t.phase = s.phase) ∨
      (l = .loop ∧ s.phase = .outside ∧ t.quit_ = s.quit_) ∨
      (l = .loop ∧ s.phase = .starting ∧ t.phase = .condition) ∨
      ((∀ p, l ≠ .quit p) ∧ (l = .loop → s.phase ≠ .outside) ∧ t.quit_ = s.quit_ ∧
        (t.phase = .starting → s.phase = .starting)) := by
  cases l with
  | queueInLoop p newNode cb =>
    obtain ⟨_, h⟩ := Option.ite_none_right_eq_some.mp h
    obtain ⟨q, _, rfl⟩ := Option.map_eq_some_iff.mp h
    exact Or.inr (Or.inr (Or.inr ⟨nofun, nofun, rfl, fun hp => hp⟩))
  | link p =>
    obtain ⟨_, h⟩ := Option.ite_none_right_eq_some.mp h
    obtain ⟨q, _, rfl⟩ := Option.map_eq_some_iff.mp h
    exact Or.inr (Or.inr (Or.inr ⟨nofun, nofun, rfl, fun hp => hp⟩))
  | testLooping p | testThread p | wakeup p =>
    obtain ⟨_, h⟩ := Option.ite_none_right_eq_some.mp h
    cases h
    exact Or.inr (Or.inr (Or.inr ⟨nofun, nofun, rfl, fun hp => hp⟩))
  | quit p =>
    obtain ⟨_, h⟩ := Option.ite_none_right_eq_some.mp h
    cases h
    exact Or.inl ⟨p, rfl, rfl, rfl⟩
  | pollReturns _ | wakeupRead =>
    obtain ⟨_, h⟩ := Option.ite_none_right_eq_some.mp h
    cases h
    exact Or.inr (Or.inr (Or.inr ⟨nofun, nofun, rfl, nofun⟩))
  | userReturns =>
    obtain ⟨_, h⟩ := Option.ite_none_right_eq_some.mp h
    refine Or.inr (Or.inr (Or.inr ⟨nofun, nofun, ?_⟩))
    split at h <;> cases h <;> exact ⟨rfl, nofun⟩
  | loop =>
    obtain ⟨_, h⟩ := Option.ite_none_right_eq_some.mp h
    rcases loopStep_quit h with ⟨hp, hquit⟩ | ⟨hp, ht⟩ | ⟨hp, hquit, ht⟩
    · exact Or.inr (Or.inl ⟨rfl, hp, hquit⟩)
    · exact Or.inr (Or.inr (Or.inl ⟨rfl, hp, ht⟩))
    · exact Or.inr (Or.inr (Or.inr ⟨nofun, fun _ => hp, hquit, fun hst => absurd hst ht⟩))

namespace Watched

variable {threadId_ : ι} {s t : Watched ι Addr Func}

theorem Inv.follow {u : State ι Addr Func} {l : Label ι Addr Func} (h : Inv s)
    (hok : settled s (.act l) = true) (hst : EventLoop.step threadId_ s.loop l = some u) :
    Inv (s.follow u l) := by
  have hquits : ∀ {q r}, (s.follow u l).quitting q = some r ∨ (s.follow u l).quitDone q = some r →
      r ≤ s.runs := by
    intro q r hq
    rcases follow_quits hq with hq | ⟨_, hq⟩
    · exact h.quits_le hq
    · exact h.observed q r hq
  refine ⟨fun p r hp => Nat.le_trans (h.observed p r hp) follow_runs_le,
    fun p r hp => Nat.le_trans (hquits (Or.inl hp)) follow_runs_le,
    fun p r hp => Nat.le_trans (hquits (Or.inr hp)) follow_runs_le, fun p hp => ?_⟩
  change u.quit_ = true ∧ u.phase ≠ .starting
  rcases step_quit hst with ⟨q, rfl, hquit, hphase⟩ | ⟨rfl, hphase, _⟩ | ⟨rfl, hphase, _⟩ |
    ⟨hne, hloop, hquit, hphase⟩
  · -- the store of `quit`; the condition excludes the second store of `loop` behind it
    refine ⟨hquit, fun hstarting => ?_⟩
    rw [hphase] at hstarting
    rw [follow_runs_eq (l := .quit q) nofun] at hp
    rcases follow_quits hp with hp | ⟨hpq, hobserved⟩
    · exact (h.stands p hp).2 hstarting
    · cases hpq
      simp [settled, hstarting, hobserved] at hok
  · -- a new run begins, and nobody has observed it
    have hruns : (s.follow u .loop).runs = s.runs + 1 := if_pos hphase
    rw [hruns] at hp
    exact absurd (hquits hp) (Nat.not_succ_le_self _)
  · have hruns : (s.follow u .loop).runs = s.runs := follow_runs_eq (by rw [hphase]; nofun)
    rw [hruns] at hp
    have hs := h.stands p ((follow_quits hp).resolve_right fun hq => by cases hq.1)
    exact absurd hphase hs.2
  · rw [follow_runs_eq hloop] at hp
    have hs := h.stands p ((follow_quits hp).resolve_right fun hq => hne p hq.1)
    exact ⟨hquit.trans hs.1, fun hstarting => hs.2 (hphase hstarting)⟩

theorem Inv.step {l : WatchedLabel ι Addr Func} (h : Inv s) (hok : settled s l = true)
    (hst : s.step threadId_ l = some t) : Inv t := by
  cases l with
  | loadLooping p =>
    obtain ⟨_, hst⟩ := Option.ite_none_right_eq_some.mp hst
    cases hst
    exact ⟨h.observed, h.quitting, h.quitDone, h.stands⟩
  | loadQuit p =>
    obtain ⟨run, _, rfl⟩ := Option.map_eq_some_iff.mp hst
    refine ⟨fun q r hq => ?_, h.quitting, h.quitDone, h.stands⟩
    dsimp only at hq
    split at hq
    · rename_i hrun
      by_cases hqp : q = p
      · subst hqp
        rw [Function.update_self] at hq
        cases hq
        exact Nat.le_of_eq hrun.2
      · rw [Function.update_of_ne hqp] at hq
        exact h.observed q r hq
    · exact h.observed q r hq
  | act l =>
    obtain ⟨_, hst⟩ := Option.ite_none_right_eq_some.mp hst
    obtain ⟨u, hu, rfl⟩ := Option.map_eq_some_iff.mp hst
    exact h.follow hok hu
  | throw =>
    obtain ⟨_, hst⟩ := Option.ite_none_right_eq_some.mp hst
    cases hst
    exact ⟨h.observed, h.quitting, h.quitDone, fun p hp => ⟨(h.stands p hp).1, nofun⟩⟩

end Watched

open Watched in
/-- When nobody who has observed a run stores `quit_` between its two first stores, a completed
`quit` behind an observation stands to the end of that run. -/
theorem quit_stands {threadId_ : ι} {s : Watched ι Addr Func}
    (h : (Watched.system ι Addr Func threadId_).ReachableWhen (fun s l => settled s l) s) (p : ι)
    (hquit : s.quitDone p = some s.runs) : s.loop.quit_ = true := by
  have hinv : Inv s := by
    refine h.invariant ?_ fun s l t hs hok hst => hs.step hok hst
    rintro s ⟨front, rfl⟩
    exact ⟨nofun, nofun, nofun, nofun⟩
  exact (hinv.stands p (Or.inr hquit)).1

def observeAndQuit : List (WatchedLabel Nat Nat Nat) :=
  [.loadLooping 1, .loadQuit 1, .act (.quit 1), .act (.testThread 1), .act (.wakeup 1)]

theorem quit_stands_observeAndQuit :
    ∃ s : Watched Nat Nat Nat, (Watched.system Nat Nat Nat 0).runWhen (fun s l => Watched.settled s l)
        (Watched.init 0) ([.act .loop, .act .loop] ++ observeAndQuit) = some s ∧
      s.loop.phase = .condition ∧ s.loop.quit_ = true := by
  obtain ⟨s, hrun, hs⟩ := exists_runWhen (Watched.system Nat Nat Nat 0) (fun s l => Watched.settled s l)
    (Watched.init 0) ([.act .loop, .act .loop] ++ observeAndQuit)
    (fun s => s.loop.phase = .condition ∧ s.quitDone 1 = some s.runs) (by decide)
  obtain ⟨hphase, hquit⟩ := of_decide_eq_true hs
  exact ⟨s, hrun, hphase,
    quit_stands (ReachableWhen.run (ReachableWhen.init ⟨0, rfl⟩) hrun) 1 hquit⟩

/-- The loop clears the flag behind the `quit`, and polls. -/
theorem quit_lost :
    ∃ s : Watched Nat Nat Nat, (Watched.system Nat Nat Nat 0).run (Watched.init 0)
        ([.act .loop] ++ observeAndQuit ++ [.act .loop]) = some s ∧
      s.loop.phase = .condition ∧ s.quitDone 1 = some s.runs ∧ s.loop.quit_ = false := by
  obtain ⟨s, hrun, hs⟩ := exists_run (Watched.system Nat Nat Nat 0) (Watched.init 0)
    ([.act .loop] ++ observeAndQuit ++ [.act .loop])
    (fun s => s.loop.phase = .condition ∧ s.quitDone 1 = some s.runs ∧ s.loop.quit_ = false)
    (by decide)
  exact ⟨s, hrun, of_decide_eq_true hs⟩

end MysqlConnectPool.EventLoop
