import MysqlConnectPool.Event.EventLoop
import MysqlConnectPool.Utils.MPSCQueueInv

/-! The loop thread never sleeps on work that nobody is about to announce. -/

universe u v w

namespace MysqlConnectPool.EventLoop

variable {ι : Type w} {Addr : Type u} {Func : Type v}

/-- The thread `p` has made its exchange or its store of `quit_`, and its write to
`wakeupFd_` is still to come. -/
def State.owesWakeup (threadId_ : ι) (s : State ι Addr Func) (p : ι) : Prop :=
  match s.caller p with
  | .idle => False
  | .exchanged | .linked => p ≠ threadId_ ∨ s.looping_ = false
  | .quitStored => p ≠ threadId_
  | .waking => True

def State.woken (threadId_ : ι) (s : State ι Addr Func) : Prop :=
  0 < s.wakeupFd_ ∨ ∃ p, s.owesWakeup threadId_ p

def Phase.inLoop : Phase → Bool
  | .outside => false
  | _ => true

/-- The phases after which the queue is not drained again before the next `poll`. -/
def Phase.drained : Phase → Bool
  | .outside | .starting | .condition | .polling | .leaving => true
  | _ => false

structure Inv (threadId_ : ι) (s : State ι Addr Func) : Prop where
  looping : s.looping_ = s.phase.inLoop
  userCode : s.caller threadId_ ≠ .idle → s.phase.runsUserCode
  funcs : s.phase.drained → s.funcs_.empty = true ∨ s.woken threadId_
  quit : s.phase = .polling → s.quit_ = false ∨ s.woken threadId_

theorem woken_setCaller [DecidableEq ι] {threadId_ p : ι} {s t : State ι Addr Func} {c : Caller}
    (hs : s.woken threadId_) (ht : t.caller = Function.update s.caller p c)
    (hl : t.looping_ = s.looping_) (hfd : s.wakeupFd_ ≤ t.wakeupFd_)
    (hp : s.owesWakeup threadId_ p → t.owesWakeup threadId_ p ∨ 0 < t.wakeupFd_) :
    t.woken threadId_ := by
  rcases hs with hfd' | ⟨q, hq⟩
  · exact Or.inl (Nat.lt_of_lt_of_le hfd' hfd)
  · by_cases hqp : q = p
    · subst hqp
      rcases hp hq with hp | hp
      · exact Or.inr ⟨q, hp⟩
      · exact Or.inl hp
    · refine Or.inr ⟨q, ?_⟩
      simpa [State.owesWakeup, ht, hl, Function.update_of_ne hqp] using hq

theorem Inv.drained_caller {threadId_ p : ι} {s : State ι Addr Func} (h : Inv threadId_ s)
    (hd : s.phase.drained) (hp : p = threadId_ → s.phase.runsUserCode) :
    p ≠ threadId_ ∨ s.looping_ = false := by
  by_cases hpt : p = threadId_
  · right
    have := hp hpt
    rw [h.looping]
    cases hph : s.phase <;> simp_all [Phase.drained, Phase.runsUserCode, Phase.inLoop]
  · exact Or.inl hpt

theorem Inv.polling_caller {threadId_ p : ι} {s : State ι Addr Func}
    (hph : s.phase = .polling) (hp : p = threadId_ → s.phase.runsUserCode) : p ≠ threadId_ := by
  intro hpt
  have := hp hpt
  simp [hph, Phase.runsUserCode] at this

/-- The invariant reads the queue and `quit_` only while the loop is not handling. -/
theorem Inv.of_not_drained {threadId_ : ι} {s : State ι Addr Func}
    (hl : s.looping_ = s.phase.inLoop)
    (hu : s.caller threadId_ ≠ .idle → s.phase.runsUserCode) (hd : s.phase.drained = false) :
    Inv threadId_ s where
  looping := hl
  userCode := hu
  funcs h := by simp [hd] at h
  quit h := by simp [h, Phase.drained] at hd

theorem Inv.init [DecidableEq Addr] {threadId_ : ι} (front : Addr) :
    Inv threadId_ (init front : State ι Addr Func) where
  looping := rfl
  userCode h := (h rfl).elim
  funcs _ := Or.inl (by simp [EventLoop.init, MPSCQueue.State.empty, MPSCQueue.State.next,
    MPSCQueue.init])
  quit h := by cases h

theorem Inv.moved {threadId_ : ι} {s t : State ι Addr Func} (h : Inv threadId_ s)
    (hidle : s.caller threadId_ = .idle) (hc : t.caller = s.caller)
    (hfd : t.wakeupFd_ = s.wakeupFd_) (hl : t.looping_ = t.phase.inLoop)
    (hf : t.funcs_.empty = true ∨ s.phase.drained ∧ t.funcs_ = s.funcs_)
    (hq : t.phase = .polling → t.quit_ = false) : Inv threadId_ t where
  looping := hl
  userCode hne := (hne (by rw [hc, hidle])).elim
  funcs := by
    intro _
    rcases hf with hf | ⟨hd, hf⟩
    · exact Or.inl hf
    · rw [hf]
      refine (h.funcs hd).imp_right ?_
      rintro (hw | ⟨p, hp⟩)
      · exact Or.inl (hfd ▸ hw)
      · -- a thread that owes is not the loop thread, so `looping_` does not matter to it
        have hpt : p ≠ threadId_ := by
          rintro rfl
          simp [State.owesWakeup, hidle] at hp
        refine Or.inr ⟨p, ?_⟩
        unfold State.owesWakeup at hp ⊢
        rw [hc]
        cases hcp : s.caller p <;> simp_all
  quit hpoll := Or.inl (hq hpoll)

theorem Inv.loopStep [DecidableEq Addr] {threadId_ : ι} {s t : State ι Addr Func} (h : Inv threadId_ s)
    (hidle : s.caller threadId_ = .idle) (hst : s.loopStep = some t) : Inv threadId_ t := by
  have hl := h.looping
  unfold State.loopStep at hst
  cases hph : s.phase with
  | outside =>
    obtain rfl : _ = t := by simpa [hph] using hst
    exact h.moved hidle rfl rfl rfl (Or.inr ⟨by simp [hph, Phase.drained], rfl⟩) (by simp)
  | starting =>
    obtain rfl : _ = t := by simpa [hph] using hst
    exact h.moved hidle rfl rfl (by simp [hl, hph, Phase.inLoop])
      (Or.inr ⟨by simp [hph, Phase.drained], rfl⟩) (by simp)
  | condition =>
    obtain rfl : _ = t := by simpa [hph] using hst
    refine h.moved hidle rfl rfl ?_ (Or.inr ⟨by simp [hph, Phase.drained], rfl⟩) ?_
    · cases hq : s.quit_ <;> simp [hl, hph, Phase.inLoop]
    · cases hq : s.quit_ <;> simp
  | draining =>
    obtain rfl : _ = t := by simpa [hph] using hst
    cases he : s.funcs_.empty with
    | true =>
      exact h.moved hidle rfl rfl (by simp [hl, hph, Phase.inLoop]) (Or.inl he) (by simp)
    | false =>
      exact of_not_drained (by simp [hl, hph, Phase.inLoop]) (by simp [hidle])
        (by simp [Phase.drained])
  | dequeuing =>
    simp only [hph] at hst
    split at hst
    · split at hst
      · cases hst
        exact of_not_drained (by simp [hl, hph, Phase.inLoop]) (by simp [hidle]) rfl
      · cases hst
        exact of_not_drained (by simp [hl, hph]) (by simp [hidle]) (by simp [Phase.drained])
    · cases hst
      exact of_not_drained (by simp [hl, hph, Phase.inLoop]) (by simp [hidle]) rfl
    · cases hst
      exact of_not_drained (by simp [hl, hph]) (by simp [hidle]) (by simp [Phase.drained])
  | leaving =>
    obtain rfl : _ = t := by simpa [hph] using hst
    exact h.moved hidle rfl rfl rfl (Or.inr ⟨by simp [hph, Phase.drained], rfl⟩) (by simp)
  | _ => simp [hph] at hst

variable [DecidableEq ι]

theorem Inv.owing {threadId_ p : ι} {s t : State ι Addr Func} {c : Caller} (h : Inv threadId_ s)
    (hp : p = threadId_ → s.phase.runsUserCode) (ht : t.caller = Function.update s.caller p c)
    (hl : t.looping_ = s.looping_) (hph : t.phase = s.phase)
    (howes : p ≠ threadId_ ∨ s.looping_ = false → t.owesWakeup threadId_ p) :
    Inv threadId_ t where
  looping := by rw [hl, hph, h.looping]
  userCode := by
    intro hne
    rw [hph]
    by_cases hpt : p = threadId_
    · exact hp hpt
    · exact h.userCode (by simpa [ht, Function.update_of_ne (Ne.symm hpt)] using hne)
  funcs := by
    intro hd
    rw [hph] at hd
    exact Or.inr (Or.inr ⟨p, howes (h.drained_caller hd hp)⟩)
  quit := by
    intro hpoll
    rw [hph] at hpoll
    exact Or.inr (Or.inr ⟨p, howes (Or.inl (polling_caller hpoll hp))⟩)

theorem Inv.own {threadId_ : ι} {s t : State ι Addr Func} {c : Caller} (h : Inv threadId_ s)
    (hu : s.phase.runsUserCode) (ht : t.caller = Function.update s.caller threadId_ c)
    (hl : t.looping_ = s.looping_) (hph : t.phase = s.phase) (hf : t.funcs_ = s.funcs_)
    (hfd : t.wakeupFd_ = s.wakeupFd_) (howes : ¬ s.owesWakeup threadId_ threadId_) :
    Inv threadId_ t where
  looping := by rw [hl, hph, h.looping]
  userCode _ := by rwa [hph]
  funcs := by
    intro hd
    rw [hph] at hd
    rw [hf]
    exact (h.funcs hd).imp_right
      (fun hw => woken_setCaller hw ht hl (Nat.le_of_eq hfd.symm) (fun ho => (howes ho).elim))
  quit := by
    intro hpoll
    rw [hph] at hpoll
    simp [hpoll, Phase.runsUserCode] at hu

theorem Inv.wakeup {threadId_ p : ι} {s : State ι Addr Func} (h : Inv threadId_ s)
    (hp : s.caller p ≠ .idle) :
    Inv threadId_ { s.setCaller p .idle with wakeupFd_ := s.wakeupFd_ + 1 } where
  looping := h.looping
  userCode := by
    intro hne
    by_cases hpt : p = threadId_
    · exact h.userCode (hpt ▸ hp)
    · exact h.userCode (by
        simpa [State.setCaller, Function.update_of_ne (Ne.symm hpt)] using hne)
  funcs _ := Or.inr (Or.inl (Nat.succ_pos _))
  quit _ := Or.inr (Or.inl (Nat.succ_pos _))

variable [DecidableEq Addr]

theorem Inv.step {threadId_ : ι} {s t : State ι Addr Func} (h : Inv threadId_ s)
    {i : Label ι Addr Func} (hst : step threadId_ s i = some t) : Inv threadId_ t := by
  have hin : ∀ p, s.caller p ≠ .idle → p = threadId_ → s.phase.runsUserCode := by
    rintro p hp rfl
    exact h.userCode hp
  cases i with
  | queueInLoop p newNode cb =>
    simp only [EventLoop.step, State.mayCall, decide_eq_true_eq, Option.ite_none_right_eq_some,
      Option.map_eq_some_iff] at hst
    obtain ⟨⟨-, hp⟩, q, -, rfl⟩ := hst
    exact h.owing hp rfl rfl rfl (by simp [State.owesWakeup, State.setCaller])
  | link p =>
    simp only [EventLoop.step, Option.ite_none_right_eq_some, Option.map_eq_some_iff] at hst
    obtain ⟨hc, q, -, rfl⟩ := hst
    exact h.owing (hin p (by simp [hc])) rfl rfl rfl (by simp [State.owesWakeup, State.setCaller])
  | testLooping p =>
    simp only [EventLoop.step, Option.ite_none_right_eq_some, Option.some.injEq] at hst
    obtain ⟨hc, rfl⟩ := hst
    have hp := hin p (by simp [hc])
    by_cases howes : p ≠ threadId_ ∨ s.looping_ = false
    · exact h.owing hp rfl rfl rfl (by simp [State.owesWakeup, State.setCaller, howes])
    · obtain ⟨rfl, hl⟩ : p = threadId_ ∧ s.looping_ = true := by simpa using howes
      exact h.own (hp rfl) rfl rfl rfl rfl rfl (by simp [State.owesWakeup, hc, hl])
  | quit p =>
    simp only [EventLoop.step, State.mayCall, decide_eq_true_eq, Option.ite_none_right_eq_some,
      Option.some.injEq] at hst
    obtain ⟨⟨hc, hp⟩, rfl⟩ := hst
    by_cases hpt : p = threadId_
    · subst hpt
      exact h.own (hp rfl) rfl rfl rfl rfl rfl (by simp [State.owesWakeup, hc])
    · exact h.owing hp rfl rfl rfl (by simp [State.owesWakeup, State.setCaller, hpt])
  | testThread p =>
    simp only [EventLoop.step, Option.ite_none_right_eq_some, Option.some.injEq] at hst
    obtain ⟨hc, rfl⟩ := hst
    have hp := hin p (by simp [hc])
    by_cases hpt : p = threadId_
    · subst hpt
      exact h.own (hp rfl) rfl rfl rfl rfl rfl (by simp [State.owesWakeup, hc])
    · exact h.owing hp rfl rfl rfl (by simp [State.owesWakeup, State.setCaller, hpt])
  | wakeup p =>
    simp only [EventLoop.step, Option.ite_none_right_eq_some, Option.some.injEq] at hst
    obtain ⟨hc, rfl⟩ := hst
    exact h.wakeup (by simp [hc])
  | loop =>
    simp only [EventLoop.step, Option.ite_none_right_eq_some] at hst
    exact h.loopStep hst.1 hst.2
  | pollReturns wakeupActive =>
    simp only [EventLoop.step, Option.ite_none_right_eq_some, Option.some.injEq] at hst
    obtain ⟨⟨hph, -⟩, rfl⟩ := hst
    exact of_not_drained (by simp [h.looping, hph, Phase.inLoop]) (fun _ => rfl) rfl
  | wakeupRead =>
    simp only [EventLoop.step, Option.ite_none_right_eq_some, Option.some.injEq] at hst
    obtain ⟨⟨hph, -⟩, rfl⟩ := hst
    exact of_not_drained (by simp [h.looping, hph, Phase.inLoop]) (fun _ => rfl) rfl
  | userReturns =>
    simp only [EventLoop.step, Option.ite_none_right_eq_some] at hst
    obtain ⟨hidle, hst⟩ := hst
    split at hst
    case h_4 => cases hst
    all_goals
      rename_i hph
      cases hst
      exact of_not_drained (by simp [h.looping, hph, Phase.inLoop]) (by simp [hidle])
        (by simp [Phase.drained])

theorem Reachable.inv {threadId_ : ι} {s : State ι Addr Func}
    (h : (system ι Addr Func threadId_).Reachable s) : Inv threadId_ s := by
  refine h.invariant ?_ (fun s i t hs hst => hs.step hst)
  rintro _ ⟨front, rfl⟩
  exact Inv.init front

/-- While the loop thread is blocked in `poll` on an empty eventfd, every functor it
could run and every `quit` is still to be announced by some thread. -/
theorem no_lost_wakeup {threadId_ : ι} {s : State ι Addr Func}
    (h : (system ι Addr Func threadId_).Reachable s) (hpoll : s.phase = .polling)
    (hfd : s.wakeupFd_ = 0) (hwork : s.funcs_.empty = false ∨ s.quit_ = true) :
    ∃ p, s.owesWakeup threadId_ p := by
  have hi := Reachable.inv h
  have hwoken : s.woken threadId_ := by
    rcases hwork with hf | hq
    · rcases hi.funcs (by simp [hpoll, Phase.drained]) with he | hw
      · simp [hf] at he
      · exact hw
    · rcases hi.quit hpoll with he | hw
      · simp [hq] at he
      · exact hw
  rcases hwoken with hw | hw
  · omega
  · exact hw

theorem no_lost_wakeup_linked :
    ∃ s : State Nat Nat Char,
      (system Nat Nat Char 0).run (init 0)
        [.loop, .loop, .loop, .queueInLoop 1 1 'a', .link 1] = some s ∧
      s.funcs_.empty = false ∧ ∃ p, s.owesWakeup 0 p := by
  have hr : (system Nat Nat Char 0).run (init 0)
      [.loop, .loop, .loop, .queueInLoop 1 1 'a', .link 1] = some _ := rfl
  exact ⟨_, hr, rfl, no_lost_wakeup (Library.System.Reachable.run (.init ⟨0, rfl⟩) hr)
    rfl rfl (Or.inl rfl)⟩

end MysqlConnectPool.EventLoop
