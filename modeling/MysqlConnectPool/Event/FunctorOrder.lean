import MysqlConnectPool.Event.NoLostWakeup
import MysqlConnectPool.Utils.MPSCQueueSpec

/-! The loop as an executor: functors are called on the loop thread in the order of their
exchanges, and none is left behind when nothing more happens. -/

universe u v w

namespace MysqlConnectPool.EventLoop

open Library

variable {ι : Type w} {Addr : Type u} {Func : Type v} [DecidableEq Addr]

def State.dequeues (s : State ι Addr Func) : Bool :=
  match s.phase, s.funcs_.consumer with
  | .dequeuing, .idle => !s.funcs_.empty
  | .dequeuing, _ => true
  | _, _ => false

theorem loopStep_funcs {s t : State ι Addr Func} (h : s.loopStep = some t)
    (hidle : s.phase = .dequeuing ∨ s.funcs_.consumer = .idle) :
    t.caller = s.caller ∧ (t.phase = .dequeuing ∨ t.funcs_.consumer = .idle) ∧
      t.funcs_ = if s.dequeues then s.funcs_.dequeueStep else s.funcs_ := by
  cases hp : s.phase with
  | dequeuing =>
    simp only [State.loopStep, State.dequeues, hp] at h ⊢
    cases hc : s.funcs_.consumer with
    | idle =>
      simp only [hc] at h ⊢
      split at h
      · next he =>
        cases h
        exact ⟨rfl, Or.inr hc, by simp [he]⟩
      · next he =>
        cases h
        exact ⟨rfl, Or.inl rfl, by simp [he]⟩
    | advanced tail output =>
      simp only [hc] at h ⊢
      cases h
      refine ⟨rfl, Or.inr ?_, rfl⟩
      simp [MPSCQueue.State.dequeueStep, hc, MPSCQueue.State.dequeueFree]
    | loaded | moved =>
      simp only [hc] at h ⊢
      cases h
      exact ⟨rfl, Or.inl rfl, rfl⟩
  | outside | starting | condition | leaving =>
    have hc := hidle.resolve_left (by simp [hp])
    obtain rfl : _ = t := by simpa [State.loopStep, hp] using h
    exact ⟨rfl, Or.inr hc, by simp [State.dequeues, hp]⟩
  | draining =>
    have hc := hidle.resolve_left (by simp [hp])
    obtain rfl : _ = t := by simpa [State.loopStep, hp] using h
    exact ⟨rfl, Or.inr hc, by simp [State.dequeues, hp]⟩
  | polling | handling | calling | destroying => simp [State.loopStep, hp] at h

variable [DecidableEq ι]

theorem step_funcs {threadId_ : ι} {s t : State ι Addr Func} {l : Label ι Addr Func}
    (h : step threadId_ s l = some t) (hidle : s.phase = .dequeuing ∨ s.funcs_.consumer = .idle) :
    (∃ p newNode cb, l = .queueInLoop p newNode cb ∧
        MPSCQueue.step s.funcs_ (.exchange p newNode cb) = some t.funcs_ ∧
        t = { s.setCaller p .exchanged with funcs_ := t.funcs_ }) ∨
      (∃ p, l = .link p ∧ MPSCQueue.step s.funcs_ (.link p) = some t.funcs_ ∧
        t = { s.setCaller p .linked with funcs_ := t.funcs_ }) ∨
      (l = .loop ∧ t.caller = s.caller ∧ (t.phase = .dequeuing ∨ t.funcs_.consumer = .idle) ∧
        t.funcs_ = if s.dequeues then s.funcs_.dequeueStep else s.funcs_) ∨
      ((∀ p newNode cb, l ≠ .queueInLoop p newNode cb) ∧ (∀ p, l ≠ .link p) ∧ l ≠ .loop ∧
        t.funcs_ = s.funcs_ ∧ (t.phase = .dequeuing ∨ t.funcs_.consumer = .idle) ∧
        ∀ p, s.caller p = .exchanged → t.caller p = .exchanged) := by
  have hcaller : ∀ {p c}, s.caller p ≠ .exchanged → ∀ q, s.caller q = .exchanged →
      (s.setCaller p c).caller q = .exchanged := by
    intro p c hp q hq
    have hne : q ≠ p := fun heq => hp (heq ▸ hq)
    exact (Function.update_of_ne hne _ _).trans hq
  cases l with
  | queueInLoop p newNode cb =>
    obtain ⟨_, h⟩ := Option.ite_none_right_eq_some.mp h
    obtain ⟨q, hq, rfl⟩ := Option.map_eq_some_iff.mp h
    exact Or.inl ⟨p, newNode, cb, rfl, hq, rfl⟩
  | link p =>
    obtain ⟨_, h⟩ := Option.ite_none_right_eq_some.mp h
    obtain ⟨q, hq, rfl⟩ := Option.map_eq_some_iff.mp h
    exact Or.inr (Or.inl ⟨p, rfl, hq, rfl⟩)
  | loop =>
    obtain ⟨_, h⟩ := Option.ite_none_right_eq_some.mp h
    exact Or.inr (Or.inr (Or.inl ⟨rfl, loopStep_funcs h hidle⟩))
  | quit p =>
    obtain ⟨hmay, h⟩ := Option.ite_none_right_eq_some.mp h
    cases h
    have hp : s.caller p = .idle := by
      simp only [State.mayCall, decide_eq_true_eq] at hmay
      exact hmay.1
    exact Or.inr (Or.inr (Or.inr ⟨by simp, by simp, by simp, rfl, hidle, hcaller (by simp [hp])⟩))
  | testLooping p | testThread p | wakeup p =>
    obtain ⟨hp, h⟩ := Option.ite_none_right_eq_some.mp h
    cases h
    exact Or.inr (Or.inr (Or.inr ⟨by simp, by simp, by simp, rfl, hidle, hcaller (by simp [hp])⟩))
  | pollReturns _ | wakeupRead =>
    obtain ⟨hp, h⟩ := Option.ite_none_right_eq_some.mp h
    cases h
    have hc := hidle.resolve_left (by simp [hp.1])
    exact Or.inr (Or.inr (Or.inr ⟨by simp, by simp, by simp, rfl, Or.inr hc, fun _ hq => hq⟩))
  | userReturns =>
    obtain ⟨_, h⟩ := Option.ite_none_right_eq_some.mp h
    refine Or.inr (Or.inr (Or.inr ⟨by simp, by simp, by simp, ?_⟩))
    split at h <;> cases h <;> rename_i hp <;>
      exact ⟨rfl, Or.inr (hidle.resolve_left (by simp [hp])), fun _ hq => hq⟩

def queueSteps (s : State ι Addr Func) : Label ι Addr Func → List (MPSCQueue.Label ι Addr Func)
  | .queueInLoop p newNode cb => [.exchange p newNode cb]
  | .link p => [.link p]
  | .loop => if s.dequeues then [.dequeue] else []
  | _ => []

theorem run_queueSteps {threadId_ : ι} {s t : State ι Addr Func} {l : Label ι Addr Func}
    (h : step threadId_ s l = some t) (hidle : s.phase = .dequeuing ∨ s.funcs_.consumer = .idle) :
    (MPSCQueue.system ι Addr Func).run s.funcs_ (queueSteps s l) = some t.funcs_ := by
  rcases step_funcs h hidle with ⟨p, newNode, cb, rfl, hq, -⟩ | ⟨p, rfl, hq, -⟩ |
    ⟨rfl, -, -, hq⟩ | ⟨hqueue, hlink, hloop, hq, -⟩
  · exact Option.bind_eq_some_iff.mpr ⟨_, hq, rfl⟩
  · exact Option.bind_eq_some_iff.mpr ⟨_, hq, rfl⟩
  · rw [hq, queueSteps]
    split <;> rfl
  · rw [hq]
    cases l with
    | queueInLoop p newNode cb => exact absurd rfl (hqueue p newNode cb)
    | link p => exact absurd rfl (hlink p)
    | loop => exact absurd rfl hloop
    | testLooping | quit | testThread | wakeup | pollReturns | wakeupRead | userReturns => rfl

structure CallsAgree (s : State ι Addr Func) : Prop where
  queue : (MPSCQueue.system ι Addr Func).Reachable s.funcs_
  consumer : s.phase = .dequeuing ∨ s.funcs_.consumer = .idle
  pending : ∀ p, s.funcs_.pending p ≠ none → s.caller p = .exchanged

theorem CallsAgree.step {threadId_ : ι} {s t : State ι Addr Func} {l : Label ι Addr Func}
    (h : CallsAgree s) (hst : step threadId_ s l = some t) : CallsAgree t := by
  have hqueue := h.queue.run (run_queueSteps hst h.consumer)
  rcases step_funcs hst h.consumer with ⟨p, newNode, cb, -, hq, ht⟩ | ⟨p, -, hq, ht⟩ |
    ⟨-, hcaller, hconsumer, hq⟩ | ⟨-, -, -, hq, hconsumer, hcaller⟩
  · have hexchange : s.funcs_.enqueueExchange p newNode cb = t.funcs_ :=
      Option.some.inj (Option.ite_none_right_eq_some.mp hq).2
    refine ⟨hqueue, ?_, ?_⟩
    · rw [← hexchange, ht]
      exact h.consumer
    · intro q hne
      rw [ht]
      by_cases hqp : q = p
      · subst hqp
        exact Function.update_self _ _ _
      · rw [← hexchange] at hne
        refine (Function.update_of_ne hqp _ _).trans (h.pending q fun hnone => hne ?_)
        exact (Function.update_of_ne hqp _ _).trans hnone
  · have hpending := MPSCQueue.pending_link h.queue hq
    refine ⟨hqueue, ?_, ?_⟩
    · obtain ⟨ab, -, hlink⟩ : ∃ ab, s.funcs_.pending p = some ab ∧
          s.funcs_.enqueueLink p ab.1 ab.2 = t.funcs_ := by
        cases hp : s.funcs_.pending p with
        | none => simp [MPSCQueue.step, hp] at hq
        | some ab => exact ⟨ab, rfl, by simpa [MPSCQueue.step, hp] using hq⟩
      have hconsumer : t.funcs_.consumer = s.funcs_.consumer := by
        rw [← hlink]
        unfold MPSCQueue.State.enqueueLink
        split <;> rfl
      rw [hconsumer, ht]
      exact h.consumer
    · intro q hne
      rw [hpending] at hne
      by_cases hqp : q = p
      · subst hqp
        exact absurd (Function.update_self _ _ _) hne
      · rw [ht]
        refine (Function.update_of_ne hqp _ _).trans (h.pending q fun hnone => hne ?_)
        exact (Function.update_of_ne hqp _ _).trans hnone
  · refine ⟨hqueue, hconsumer, ?_⟩
    intro q hne
    rw [hcaller]
    refine h.pending q fun hnone => hne ?_
    rw [hq]
    split
    · rw [(MPSCQueue.dequeueStep_history s.funcs_).2.1, hnone]
    · exact hnone
  · refine ⟨hqueue, hconsumer, fun q hne => hcaller q (h.pending q ?_)⟩
    rwa [hq] at hne

theorem Reachable.callsAgree {threadId_ : ι} {s : State ι Addr Func}
    (h : (system ι Addr Func threadId_).Reachable s) : CallsAgree s := by
  refine h.invariant ?_ (fun s i t hs hst => hs.step hst)
  rintro _ ⟨front, rfl⟩
  exact ⟨.init ⟨front, rfl⟩, Or.inr rfl, fun p hne => absurd rfl hne⟩

def refinesQueue (threadId_ : ι) :
    Refinement (system ι Addr Func threadId_) (MPSCQueue.system ι Addr Func) where
  abs s := s.funcs_
  acts := queueSteps
  init := by
    rintro _ ⟨front, rfl⟩
    exact ⟨front, rfl⟩
  step _ _ _ h hst := run_queueSteps hst (Reachable.callsAgree h).consumer

/-- The loop is an executor: `queueInLoop` submits, and a functor is called as soon as it has
been dequeued. -/
def refinesExecutor (threadId_ : ι) :
    Refinement (system ι Addr Func threadId_) (Executor.system Func) :=
  (refinesQueue threadId_).trans MPSCQueue.refinesExecutor

def Label.queued : Label ι Addr Func → Option Func
  | .queueInLoop _ _ cb => some cb
  | _ => none

theorem submitted_acts {threadId_ : ι} {s t : State ι Addr Func} {l : Label ι Addr Func}
    (hst : step threadId_ s l = some t) :
    ((refinesExecutor threadId_).acts s l).filterMap Executor.Label.submitted =
      l.queued.toList := by
  change (MPSCQueue.refinesExecutor.trace s.funcs_ (queueSteps s l)).filterMap _ = _
  cases l with
  | queueInLoop p newNode cb =>
    obtain ⟨_, hst⟩ := Option.ite_none_right_eq_some.mp hst
    obtain ⟨q, hq, -⟩ := Option.map_eq_some_iff.mp hst
    have hstep : (MPSCQueue.system ι Addr Func).step s.funcs_ (.exchange p newNode cb) = some q := hq
    rw [queueSteps, Refinement.trace, hstep]
    rfl
  | link p =>
    obtain ⟨_, hst⟩ := Option.ite_none_right_eq_some.mp hst
    obtain ⟨q, hq, -⟩ := Option.map_eq_some_iff.mp hst
    have hstep : (MPSCQueue.system ι Addr Func).step s.funcs_ (.link p) = some q := hq
    rw [queueSteps, Refinement.trace, hstep]
    rfl
  | loop =>
    rw [queueSteps]
    split
    · change List.filterMap _ (s.funcs_.consumer.inHand.map (fun _ => Executor.Label.call) ++ []) = []
      cases s.funcs_.consumer <;> rfl
    · rfl
  | testLooping | quit | testThread | wakeup | pollReturns | wakeupRead | userReturns => rfl

theorem waiting_eq_nil {threadId_ : ι} {s : State ι Addr Func}
    (h : (system ι Addr Func threadId_).Reachable s) (hpoll : s.phase = .polling)
    (hfd : s.wakeupFd_ = 0) (hidle : ∀ p, s.caller p = .idle) : s.funcs_.waiting = [] := by
  have hagree := Reachable.callsAgree h
  obtain ⟨done, rest, hi⟩ := MPSCQueue.exists_inv hagree.queue
  have hconsumer : s.funcs_.consumer = .idle := hagree.consumer.resolve_left (by simp [hpoll])
  have hpending : ∀ p, s.funcs_.pending p = none := by
    intro p
    by_contra hne
    have := hagree.pending p hne
    rw [hidle p] at this
    cases this
  have hempty : s.funcs_.empty = true := by
    refine ((Reachable.inv h).funcs (by simp [hpoll, Phase.drained])).resolve_right ?_
    rintro (hfd' | ⟨p, howes⟩)
    · omega
    · simp [State.owesWakeup, hidle p] at howes
  rw [hi.waiting_eq, hconsumer, hi.rest_eq_nil hpending hempty]
  rfl

/-- Functors are called in the order of their exchanges, each at most once and none before it was
queued; once no call is under way and the loop thread sleeps in `poll` with nothing to wake it,
all of them have been called. -/
theorem functors_called_in_order {threadId_ : ι} {front : Addr} {s : State ι Addr Func}
    {ls : List (Label ι Addr Func)}
    (hr : (system ι Addr Func threadId_).run (init front) ls = some s) :
    (∃ acts, (Executor.system Func).run ⟨[], []⟩ acts = some ⟨s.funcs_.waiting, s.funcs_.dequeued⟩ ∧
      acts.filterMap Executor.Label.submitted = ls.filterMap Label.queued) ∧
    s.funcs_.dequeued ++ s.funcs_.waiting = ls.filterMap Label.queued ∧
    (s.phase = .polling → s.wakeupFd_ = 0 → (∀ p, s.caller p = .idle) →
      s.funcs_.dequeued = ls.filterMap Label.queued) := by
  have hinit : (system ι Addr Func threadId_).Reachable (init front) := .init ⟨front, rfl⟩
  have hrun := (refinesExecutor threadId_).run hinit hr
  have hacts := (refinesExecutor threadId_).filterMap_trace (g := Label.queued)
    (fun s i t hst => submitted_acts hst) hr
  have horder := Executor.run_eq hrun
  rw [hacts] at horder
  refine ⟨⟨_, hrun, hacts⟩, horder, fun hpoll hfd hidle => ?_⟩
  have hwaiting := waiting_eq_nil (hinit.run hr) hpoll hfd hidle
  change s.funcs_.dequeued ++ s.funcs_.waiting = _ at horder
  rwa [hwaiting, List.append_nil] at horder

def twoFunctors : List (Label Bool Nat Char) :=
  [.queueInLoop true 1 'a', .link true, .testLooping true, .wakeup true, .loop, .loop, .loop,
    .pollReturns true, .wakeupRead, .userReturns, .loop, .loop, .loop, .loop, .loop,
    .queueInLoop true 2 'b', .userReturns, .loop, .link true, .testLooping true, .wakeup true,
    .userReturns, .loop, .loop, .loop, .loop, .loop, .userReturns, .loop, .userReturns, .loop,
    .loop, .pollReturns true, .wakeupRead, .userReturns, .loop, .loop]

theorem functors_called_in_order_two :
    ∃ s : State Bool Nat Char, (system Bool Nat Char false).run (init 0) twoFunctors = some s ∧
      s.phase = .polling ∧ s.funcs_.dequeued = ['a', 'b'] := by
  have hr : (system Bool Nat Char false).run (init 0) twoFunctors = some _ := rfl
  exact ⟨_, hr, rfl, (functors_called_in_order hr).2.2 rfl rfl (fun p => by cases p <;> rfl)⟩

end MysqlConnectPool.EventLoop
