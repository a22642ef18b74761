import Mathlib.Logic.Function.Basic
import MysqlConnectPool.Library.System

/-! The slot `t_loopInThisThread` of each thread, through the lives of any number of loops. -/

universe u v

namespace MysqlConnectPool.LoopThreads

open Library System

structure EventLoop (Thread : Type u) where
  threadId_ : Thread
  threadLocalLoopPtr_ : Thread
  looping_ : Bool
  quit_ : Bool

def EventLoop.isRunning {Thread : Type u} (loop : EventLoop Thread) : Bool :=
  loop.looping_ && !loop.quit_

/-- `live` holds the loops that exist, by their addresses, and `inside` for each thread the
calls of `loop` that it is in, the innermost first: those with `true` have cleared `looping_`. -/
structure State (Thread : Type u) (Addr : Type v) where
  t_loopInThisThread : Thread → Option Addr
  live : Addr → Option (EventLoop Thread)
  inside : Thread → List (Addr × Bool)

/-- Steps of the thread `p`; an address may be used again.  `leave` clears `looping_`, at the end
of the loop or by an exception; `loopReturns` clears the slot, which an exception that is not
caught skips. -/
inductive Label (Thread : Type u) (Addr : Type v)
  | construct (p : Thread) (this : Addr)
  | destroy (p : Thread) (this : Addr)
  | moveToCurrentThread (p : Thread) (this : Addr)
  | quit (p : Thread) (this : Addr)
  | loop (p : Thread) (this : Addr)
  | leave (p : Thread)
  | loopReturns (p : Thread)
  | loopThrows (p : Thread)

variable {Thread : Type u} {Addr : Type v}

def init : State Thread Addr where
  t_loopInThisThread _ := none
  live _ := none
  inside _ := []

variable [DecidableEq Thread] [DecidableEq Addr]

namespace State

def setSlot (s : State Thread Addr) (p : Thread) (loop : Option Addr) : State Thread Addr :=
  { s with t_loopInThisThread := Function.update s.t_loopInThisThread p loop }

def setLoop (s : State Thread Addr) (this : Addr) (loop : Option (EventLoop Thread)) :
    State Thread Addr :=
  { s with live := Function.update s.live this loop }

def setInside (s : State Thread Addr) (p : Thread) (calls : List (Addr × Bool)) :
    State Thread Addr :=
  { s with inside := Function.update s.inside p calls }

end State

/-- There is no step where a fatal check or an assertion ends the process, and while the
destructor spins. -/
def step (s : State Thread Addr) : Label Thread Addr → Option (State Thread Addr)
  | .construct p this =>
    if s.live this = none ∧ s.t_loopInThisThread p = none then
      some ((s.setLoop this (some ⟨p, p, false, false⟩)).setSlot p (some this))
    else none
  | .destroy _ this =>
    match s.live this with
    | some loop => if loop.looping_ then none else some (s.setLoop this none)
    | none => none
  | .moveToCurrentThread p this =>
    match s.live this with
    | some loop =>
      if loop.isRunning then none
      else if loop.threadId_ = p then some s
      else if s.t_loopInThisThread p ≠ none then none
      else
        some (((s.setSlot loop.threadLocalLoopPtr_ none).setSlot p (some this)).setLoop this
          (some { loop with threadId_ := p, threadLocalLoopPtr_ := p }))
    | none => none
  | .quit _ this =>
    match s.live this with
    | some loop => some (s.setLoop this (some { loop with quit_ := true }))
    | none => none
  | .loop p this =>
    match s.live this with
    | some loop =>
      if loop.looping_ = false ∧ loop.threadId_ = p then
        some ((s.setLoop this (some { loop with looping_ := true, quit_ := false })).setInside p
          ((this, false) :: s.inside p))
      else none
    | none => none
  | .leave p =>
    match s.inside p with
    | (this, false) :: rest =>
      match s.live this with
      | some loop =>
        some ((s.setLoop this (some { loop with looping_ := false })).setInside p
          ((this, true) :: rest))
      | none => none
    | _ => none
  | .loopReturns p =>
    match s.inside p with
    | (_, true) :: rest => some ((s.setSlot p none).setInside p rest)
    | _ => none
  | .loopThrows p =>
    match s.inside p with
    | (_, true) :: rest => some (s.setInside p rest)
    | _ => none

def system (Thread : Type u) (Addr : Type v) [DecidableEq Thread] [DecidableEq Addr] :
    System (State Thread Addr) (Label Thread Addr) where
  init s := s = init
  step := step

/-- The slot of each thread holds exactly the live loop that belongs to it. -/
def OneLoop (s : State Thread Addr) : Prop :=
  ∀ p this, s.t_loopInThisThread p = some this ↔ ∃ loop, s.live this = some loop ∧ loop.threadId_ = p

/-- The slots are right, no two live loops belong to one thread, and where none does a new one
can be constructed. -/
structure Consistent (s : State Thread Addr) : Prop where
  slots : OneLoop s
  unique : ∀ a b l m, s.live a = some l → s.live b = some m → l.threadId_ = m.threadId_ → a = b
  constructs : ∀ p this, (∀ a l, s.live a = some l → l.threadId_ ≠ p) → s.live this = none →
    (step s (.construct p this)).isSome = true

theorem consistent_iff {s : State Thread Addr} : Consistent s ↔ OneLoop s := by
  refine ⟨fun h => h.slots, fun h => ⟨h, ?_, ?_⟩⟩
  · intro a b l m ha hb hlm
    have hslot := (h l.threadId_ a).mpr ⟨l, ha, rfl⟩
    exact Option.some.inj (hslot.symm.trans ((h l.threadId_ b).mpr ⟨m, hb, hlm.symm⟩))
  · intro p this hnone hfresh
    have hslot : s.t_loopInThisThread p = none := by
      refine Option.eq_none_iff_forall_ne_some.mpr fun a ha => ?_
      obtain ⟨l, hl, hp⟩ := (h p a).mp ha
      exact hnone a l hl hp
    rw [step, if_pos ⟨hfresh, hslot⟩]
    rfl

def Saved (s : State Thread Addr) : Prop :=
  ∀ this loop, s.live this = some loop → loop.threadLocalLoopPtr_ = loop.threadId_

/-- No loop is destroyed, and `loop` returns only on a thread to which no loop belongs any
more. -/
def keepsLoop (s : State Thread Addr) : Label Thread Addr → Bool
  | .destroy _ _ => false
  | .loopReturns p => s.t_loopInThisThread p = none
  | _ => true

variable {s t : State Thread Addr} {p : Thread} {this : Addr}

omit [DecidableEq Thread] in
theorem oneLoop_setLoop {loop loop' : EventLoop Thread} (h : OneLoop s)
    (hlive : s.live this = some loop) (hthread : loop'.threadId_ = loop.threadId_) :
    OneLoop (s.setLoop this (some loop')) := by
  intro p a
  refine (h p a).trans ?_
  by_cases ha : a = this
  · subst ha
    simp [State.setLoop, hlive, hthread]
  · simp [State.setLoop, Function.update_of_ne ha]

omit [DecidableEq Thread] in
theorem saved_setLoop_none (h : Saved s) : Saved (s.setLoop this none) := by
  intro a l ha
  by_cases hat : a = this
  · subst hat
    simp [State.setLoop] at ha
  · exact h a l (by simpa [State.setLoop, Function.update_of_ne hat] using ha)

omit [DecidableEq Thread] in
theorem saved_setLoop {loop : EventLoop Thread} (h : Saved s)
    (hptr : loop.threadLocalLoopPtr_ = loop.threadId_) : Saved (s.setLoop this (some loop)) := by
  intro a l ha
  by_cases hat : a = this
  · subst hat
    have hl : loop = l := by simpa [State.setLoop] using ha
    exact hl ▸ hptr
  · exact h a l (by simpa [State.setLoop, Function.update_of_ne hat] using ha)

theorem oneLoop_construct (h : OneLoop s) (hfresh : s.live this = none)
    (hslot : s.t_loopInThisThread p = none) :
    OneLoop ((s.setLoop this (some ⟨p, p, false, false⟩)).setSlot p (some this)) := by
  intro q a
  have hnone : ¬∃ l, s.live a = some l ∧ l.threadId_ = p := fun hl =>
    Option.some_ne_none a (((h p a).mpr hl).symm.trans hslot)
  by_cases hq : q = p <;> by_cases ha : a = this
  · subst hq ha
    simp [State.setSlot, State.setLoop]
  · subst hq
    simpa [State.setSlot, State.setLoop, Function.update_of_ne ha, Ne.symm ha] using hnone
  · subst ha
    have hslot' : s.t_loopInThisThread q ≠ some a := fun hqa => by
      obtain ⟨l, hl, _⟩ := (h q a).mp hqa
      exact Option.some_ne_none l (hl.symm.trans hfresh)
    simpa [State.setSlot, State.setLoop, Function.update_of_ne hq, Ne.symm hq] using hslot'
  · simpa [State.setSlot, State.setLoop, Function.update_of_ne hq, Function.update_of_ne ha] using h q a

omit [DecidableEq Thread] in
theorem not_oneLoop_destroy {loop : EventLoop Thread} (h : OneLoop s) (hlive : s.live this = some loop) :
    ¬OneLoop (s.setLoop this none) := by
  intro hone
  have hslot : s.t_loopInThisThread loop.threadId_ = some this := (h _ _).mpr ⟨loop, hlive, rfl⟩
  obtain ⟨l, hl, _⟩ := (hone loop.threadId_ this).mp hslot
  simp [State.setLoop] at hl

theorem oneLoop_moveToCurrentThread {loop : EventLoop Thread} (h : OneLoop s)
    (hlive : s.live this = some loop) (hptr : loop.threadLocalLoopPtr_ = loop.threadId_)
    (hslot : s.t_loopInThisThread p = none) :
    OneLoop (((s.setSlot loop.threadLocalLoopPtr_ none).setSlot p (some this)).setLoop this
      (some { loop with threadId_ := p, threadLocalLoopPtr_ := p })) := by
  intro q a
  have hold : s.t_loopInThisThread loop.threadId_ = some this := (h _ _).mpr ⟨loop, hlive, rfl⟩
  rw [hptr]
  by_cases hq : q = p <;> by_cases ha : a = this
  · subst hq ha
    simp [State.setSlot, State.setLoop]
  · subst hq
    have hnone : ¬∃ l, s.live a = some l ∧ l.threadId_ = q := fun hl =>
      Option.some_ne_none a (((h q a).mpr hl).symm.trans hslot)
    simpa [State.setSlot, State.setLoop, Function.update_of_ne ha, Ne.symm ha] using hnone
  · -- the old slot has been cleared, and no other slot held this loop
    subst ha
    have hslot' : Function.update s.t_loopInThisThread loop.threadId_ none q ≠ some a := by
      intro hqa
      by_cases hqr : q = loop.threadId_
      · rw [hqr, Function.update_self] at hqa
        cases hqa
      · rw [Function.update_of_ne hqr] at hqa
        obtain ⟨l, hl, hthread⟩ := (h q a).mp hqa
        cases hlive.symm.trans hl
        exact hqr hthread.symm
    simpa [State.setSlot, State.setLoop, Function.update_of_ne hq, Ne.symm hq] using hslot'
  · have hslots : Function.update s.t_loopInThisThread loop.threadId_ none q = some a ↔
        ∃ l, s.live a = some l ∧ l.threadId_ = q := by
      by_cases hqr : q = loop.threadId_
      · subst hqr
        rw [Function.update_self, ← h]
        rw [hold]
        simp [Ne.symm ha]
      · rw [Function.update_of_ne hqr]
        exact h q a
    simpa [State.setSlot, State.setLoop, Function.update_of_ne hq, Function.update_of_ne ha] using hslots

omit [DecidableEq Addr] in
theorem oneLoop_returns (h : OneLoop s) :
    OneLoop (s.setSlot p none) ↔ s.t_loopInThisThread p = none := by
  constructor
  · intro hone
    refine Option.eq_none_iff_forall_ne_some.mpr fun a ha => ?_
    have hcleared : (s.setSlot p none).t_loopInThisThread p = some a := (hone p a).mpr ((h p a).mp ha)
    simp [State.setSlot] at hcleared
  · intro hslot
    have hself : s.setSlot p none = s := by
      rw [State.setSlot, ← hslot, Function.update_eq_self]
    rwa [hself]

inductive Does (s : State Thread Addr) : Label Thread Addr → State Thread Addr → Prop
  | construct (p : Thread) (this : Addr) :
    s.live this = none → s.t_loopInThisThread p = none →
    Does s (.construct p this)
      ((s.setLoop this (some ⟨p, p, false, false⟩)).setSlot p (some this))
  | destroy (p : Thread) (this : Addr) (loop : EventLoop Thread) :
    s.live this = some loop → Does s (.destroy p this) (s.setLoop this none)
  | stays (p : Thread) (this : Addr) : Does s (.moveToCurrentThread p this) s
  | moves (p : Thread) (this : Addr) (loop : EventLoop Thread) :
    s.live this = some loop → s.t_loopInThisThread p = none →
    Does s (.moveToCurrentThread p this)
      (((s.setSlot loop.threadLocalLoopPtr_ none).setSlot p (some this)).setLoop this
        (some { loop with threadId_ := p, threadLocalLoopPtr_ := p }))
  | quit (p : Thread) (this : Addr) (loop : EventLoop Thread) :
    s.live this = some loop →
    Does s (.quit p this) (s.setLoop this (some { loop with quit_ := true }))
  | loop (p : Thread) (this : Addr) (loop : EventLoop Thread) :
    s.live this = some loop →
    Does s (.loop p this)
      ((s.setLoop this (some { loop with looping_ := true, quit_ := false })).setInside p
        ((this, false) :: s.inside p))
  | leave (p : Thread) (this : Addr) (loop : EventLoop Thread) (rest : List (Addr × Bool)) :
    s.live this = some loop →
    Does s (.leave p)
      ((s.setLoop this (some { loop with looping_ := false })).setInside p ((this, true) :: rest))
  | loopReturns (p : Thread) (rest : List (Addr × Bool)) :
    Does s (.loopReturns p) ((s.setSlot p none).setInside p rest)
  | loopThrows (p : Thread) (rest : List (Addr × Bool)) : Does s (.loopThrows p) (s.setInside p rest)

theorem step_does {l : Label Thread Addr} (hst : step s l = some t) : Does s l t := by
  cases l with
  | construct p this =>
    obtain ⟨⟨hfresh, hslot⟩, hst⟩ := Option.ite_none_right_eq_some.mp hst
    cases hst
    exact .construct p this hfresh hslot
  | destroy p this =>
    cases hlive : s.live this with
    | none => simp [step, hlive] at hst
    | some loop =>
      simp only [step, hlive, Option.ite_none_left_eq_some, Option.some.injEq] at hst
      rw [← hst.2]
      exact .destroy p this loop hlive
  | moveToCurrentThread p this =>
    cases hlive : s.live this with
    | none => simp [step, hlive] at hst
    | some loop =>
      simp only [step, hlive, Option.ite_none_left_eq_some] at hst
      obtain ⟨_, hst⟩ := hst
      split at hst
      · cases hst
        exact .stays p this
      · obtain ⟨hslot, hst⟩ := Option.ite_none_left_eq_some.mp hst
        cases hst
        exact .moves p this loop hlive (not_not.mp hslot)
  | quit p this =>
    cases hlive : s.live this with
    | none => simp [step, hlive] at hst
    | some loop =>
      simp only [step, hlive, Option.some.injEq] at hst
      rw [← hst]
      exact .quit p this loop hlive
  | loop p this =>
    cases hlive : s.live this with
    | none => simp [step, hlive] at hst
    | some loop =>
      simp only [step, hlive] at hst
      obtain ⟨_, hst⟩ := Option.ite_none_right_eq_some.mp hst
      cases hst
      exact .loop p this loop hlive
  | leave p =>
    simp only [step] at hst
    split at hst
    · split at hst
      · next this rest _ _ loop hlive =>
        cases hst
        exact .leave p this loop rest hlive
      · cases hst
    · cases hst
  | loopReturns p =>
    simp only [step] at hst
    split at hst
    · cases hst
      exact .loopReturns p _
    · cases hst
  | loopThrows p =>
    simp only [step] at hst
    split at hst
    · cases hst
      exact .loopThrows p _
    · cases hst

theorem step_iff {l : Label Thread Addr} (hsaved : Saved s) (h : OneLoop s) (hst : step s l = some t) :
    OneLoop t ↔ keepsLoop s l = true := by
  cases step_does hst with
  | construct p this hfresh hslot => exact iff_of_true (oneLoop_construct h hfresh hslot) rfl
  | destroy p this loop hlive =>
    exact iff_of_false (not_oneLoop_destroy h hlive) Bool.false_ne_true
  | stays p this => exact iff_of_true h rfl
  | moves p this loop hlive hslot =>
    exact iff_of_true (oneLoop_moveToCurrentThread h hlive (hsaved this loop hlive) hslot) rfl
  | quit p this loop hlive => exact iff_of_true (oneLoop_setLoop h hlive rfl) rfl
  | loop p this loop hlive => exact iff_of_true (oneLoop_setLoop h hlive rfl) rfl
  | leave p this loop rest hlive => exact iff_of_true (oneLoop_setLoop h hlive rfl) rfl
  | loopReturns p rest => exact (oneLoop_returns h).trans (by simp [keepsLoop])
  | loopThrows p rest => exact iff_of_true h rfl

theorem step_saved {l : Label Thread Addr} (h : Saved s) (hst : step s l = some t) : Saved t := by
  cases step_does hst with
  | construct p this => exact saved_setLoop h rfl
  | destroy p this => exact saved_setLoop_none h
  | moves p this loop => exact saved_setLoop h rfl
  | quit p this loop hlive => exact saved_setLoop h (h this loop hlive)
  | loop p this loop hlive => exact saved_setLoop (s := s) h (h this loop hlive)
  | leave p this loop rest hlive => exact saved_setLoop (s := s) h (h this loop hlive)
  | stays | loopReturns | loopThrows => exact h

/-- Every state of a run is consistent exactly when every step of the run meets the condition. -/
theorem oneLoop_iff {s : State Thread Addr} {ls : List (Label Thread Addr)}
    (hr : (system Thread Addr).run init ls = some s) :
    (∀ pre t, pre <+: ls → (system Thread Addr).run init pre = some t → Consistent t) ↔
      (system Thread Addr).runWhen keepsLoop init ls = some s := by
  have hinit : OneLoop (init : State Thread Addr) := by
    intro p a
    simp [init]
  exact runWhen_iff (J := Saved)
    (fun _ _ _ hsaved h hst => consistent_iff.trans (step_iff hsaved (consistent_iff.mp h) hst))
    (fun _ _ _ hsaved _ _ hst => step_saved hsaved hst) nofun (consistent_iff.mpr hinit) hr

def moveAndLoop : List (Label Nat Nat) :=
  [.construct 0 10, .moveToCurrentThread 1 10, .construct 0 11, .loop 1 10, .quit 0 10, .leave 1]

theorem oneLoop_iff_moveAndLoop :
    ∃ s, (system Nat Nat).run init moveAndLoop = some s ∧ s.t_loopInThisThread 1 = some 10 ∧
      Consistent s := by
  obtain ⟨s, hrun, hs⟩ := exists_run (system Nat Nat) init moveAndLoop
    (fun s => s.t_loopInThisThread 1 = some 10) (by decide)
  have hwhen : (system Nat Nat).runWhen keepsLoop init moveAndLoop = some s := by
    rw [← hrun]
    rfl
  exact ⟨s, hrun, of_decide_eq_true hs,
    (oneLoop_iff hrun).mpr hwhen moveAndLoop s (List.prefix_refl _) hrun⟩

/-- The only loop of a thread is destroyed, and its slot stays: there is no new one. And the loop
of a thread returns, and its slot is empty though the loop lives. -/
theorem slot_disagrees :
    (∃ s, (system Nat Nat).run init [.construct 0 10, .destroy 0 10] = some s ∧
      s.live 10 = none ∧ s.t_loopInThisThread 0 = some 10 ∧ (step s (.construct 0 11)).isNone = true ∧
      ¬Consistent s) ∧
    ∃ s, (system Nat Nat).run init [.construct 0 10, .loop 0 10, .leave 0, .loopReturns 0] = some s ∧
      (s.live 10).isSome = true ∧ s.t_loopInThisThread 0 = none ∧ ¬Consistent s := by
  constructor
  · obtain ⟨s, hrun, hs⟩ := exists_run (system Nat Nat) init [.construct 0 10, .destroy 0 10]
      (fun s => (s.live 10).isNone = true ∧ s.t_loopInThisThread 0 = some 10 ∧
        (step s (.construct 0 11)).isNone = true) (by decide)
    obtain ⟨hlive, hslot, hfatal⟩ := of_decide_eq_true hs
    refine ⟨s, hrun, Option.isNone_iff_eq_none.mp hlive, hslot, hfatal, fun hcons => ?_⟩
    obtain ⟨l, hl, _⟩ := (hcons.slots 0 10).mp hslot
    simp [hl] at hlive
  · obtain ⟨s, hrun, hs⟩ := exists_run (system Nat Nat) init
      [.construct 0 10, .loop 0 10, .leave 0, .loopReturns 0]
      (fun s => (s.live 10).any (fun l => l.threadId_ = 0) = true ∧ s.t_loopInThisThread 0 = none)
      (by decide)
    obtain ⟨hlive, hslot⟩ := of_decide_eq_true hs
    obtain ⟨l, hl, hthread⟩ := (Option.any_eq_true _ _).mp hlive
    refine ⟨s, hrun, by simp [hl], hslot, fun hcons => ?_⟩
    have hfull := (hcons.slots 0 10).mpr ⟨l, hl, of_decide_eq_true hthread⟩
    rw [hslot] at hfull
    cases hfull

end MysqlConnectPool.LoopThreads
