import MysqlConnectPool.Event.TimerIds

/-! What a cancelled timer may still do. -/

universe u w

namespace MysqlConnectPool.EventLoopTimers

open TimerQueue (Timer)

variable {ι : Type w} {H : Library.MinQueue.{0, 0, u} Timer.when_}

/-- No functor erases a timer that a later one adds. -/
def Func.InOrder : Func → Func → Prop
  | .erase id, g => g.adds ≠ some id
  | _, _ => True

theorem State.added_iff {s : State ι H} {id : Nat} :
    s.added id = true ↔ ∀ f ∈ s.funcs_, f.adds ≠ some id := by
  simp [State.added]

theorem State.dead_iff {s : State ι H} {id : Nat} :
    s.dead id = true ↔ id ∉ s.timerQueue_.timerIdSet_ ∧ ∀ f ∈ s.funcs_, f.adds ≠ some id := by
  rw [State.dead, Bool.and_eq_true, decide_eq_true_eq, State.added_iff]

structure Inv (s : State ι H) : Prop where
  called : ∀ c ∈ s.called, s.dead c.1 = true ∧ c.1 ∈ s.returned ∧
    s.timerQueue_.started.count c.1 = c.2
  cancelling : ∀ p c, s.cancelling p = some c → c.id ∈ s.returned
  erasing : ∀ id, .erase id ∈ s.funcs_ → id ∈ s.returned
  inOrder : s.funcs_.Pairwise Func.InOrder

theorem Inv.init [DecidableEq ι] (threadId_ : ι) (clock : Int) :
    Inv (init threadId_ clock : State ι H) := by
  constructor <;> simp [EventLoopTimers.init]

theorem Inv.quiet {s : State ι H} (h : Inv s) {q : TimerQueue.State H}
    (hset : q.timerIdSet_ ⊆ s.timerQueue_.timerIdSet_)
    (hcount : ∀ id ∉ s.timerQueue_.timerIdSet_,
      q.started.count id = s.timerQueue_.started.count id) :
    Inv { s with timerQueue_ := q } where
  called := by
    intro c hc
    obtain ⟨hdead, hret, hn⟩ := h.called c hc
    obtain ⟨hid, hfuncs⟩ := State.dead_iff.mp hdead
    exact ⟨State.dead_iff.mpr ⟨fun hmem => hid (hset hmem), hfuncs⟩, hret,
      (hcount c.1 hid).trans hn⟩
  cancelling := h.cancelling
  erasing := h.erasing
  inOrder := h.inOrder

theorem Inv.add {s : State ι H} (h : Inv s) {timer : Timer} {lag : Nat}
    (hc : ∀ c ∈ s.called, c.1 ≠ timer.id_) :
    Inv { s with timerQueue_ := s.timerQueue_.addTimerInLoop timer lag } where
  called := by
    intro c hmem
    obtain ⟨hdead, hret, hn⟩ := h.called c hmem
    obtain ⟨hid, hfuncs⟩ := State.dead_iff.mp hdead
    obtain ⟨clock, fd, -, heq⟩ := s.timerQueue_.addTimerInLoop_eq timer lag
    simp only [heq]
    refine ⟨State.dead_iff.mpr ⟨?_, hfuncs⟩, hret, hn⟩
    intro hin
    rcases Finset.mem_insert.mp hin with he | hin
    · exact hc c hmem he
    · exact hid hin
  cancelling := h.cancelling
  erasing := h.erasing
  inOrder := h.inOrder

theorem Inv.effect {s : State ι H} (h : Inv s) {id : Nat} (hdead : s.dead id)
    (hret : id ∈ s.returned) : Inv (s.effect id) where
  called := by
    intro c hc
    rcases List.mem_append.mp hc with hc | hc
    · exact h.called c hc
    · obtain rfl := List.mem_singleton.mp hc
      exact ⟨hdead, hret, rfl⟩
  cancelling := h.cancelling
  erasing := h.erasing
  inOrder := h.inOrder

theorem Inv.queue {s : State ι H} (h : Inv s) {f : Func}
    (hcalled : ∀ c ∈ s.called, f.adds ≠ some c.1)
    (herase : ∀ id, f = .erase id → id ∈ s.returned)
    (horder : ∀ g ∈ s.funcs_, g.InOrder f) :
    Inv { s with funcs_ := s.funcs_ ++ [f] } where
  called := by
    intro c hc
    obtain ⟨hdead, hret, hn⟩ := h.called c hc
    obtain ⟨hid, hfuncs⟩ := State.dead_iff.mp hdead
    refine ⟨State.dead_iff.mpr ⟨hid, ?_⟩, hret, hn⟩
    intro g hg
    rcases List.mem_append.mp hg with hg | hg
    · exact hfuncs g hg
    · obtain rfl := List.mem_singleton.mp hg
      exact hcalled c hc
  cancelling := h.cancelling
  erasing := by
    intro id hid
    rcases List.mem_append.mp hid with hid | hid
    · exact h.erasing id hid
    · exact herase id (List.mem_singleton.mp hid).symm
  inOrder := by
    refine List.pairwise_append.mpr ⟨h.inOrder, List.pairwise_singleton _ _, ?_⟩
    intro g hg f' hf'
    obtain rfl := List.mem_singleton.mp hf'
    exact horder g hg

theorem Inv.runFunc {s : State ι H} (h : Inv s) {f : Func} {rest : List Func} {lag : Nat}
    (hf : s.funcs_ = f :: rest) : Inv (s.runFunc f rest lag) := by
  have hsub : ∀ g, g ∈ rest → g ∈ s.funcs_ := fun g hg => hf ▸ List.mem_cons_of_mem f hg
  have hrest : Inv { s with funcs_ := rest } := {
    called := by
      intro c hc
      obtain ⟨hdead, hret, hn⟩ := h.called c hc
      obtain ⟨hid, hfuncs⟩ := State.dead_iff.mp hdead
      exact ⟨State.dead_iff.mpr ⟨hid, fun g hg => hfuncs g (hsub g hg)⟩, hret, hn⟩
    cancelling := h.cancelling
    erasing := fun id hid => h.erasing id (hsub _ hid)
    inOrder := (hf ▸ h.inOrder).of_cons }
  cases f with
  | addTimerInLoop timer =>
    apply hrest.add
    intro c hc heq
    exact (State.dead_iff.mp (h.called c hc).1).2 (.addTimerInLoop timer) (by simp [hf])
      (congrArg some heq.symm)
  | erase id =>
    have hlater := (List.pairwise_cons.mp (hf ▸ h.inOrder)).1
    apply Inv.effect
    · exact hrest.quiet (Finset.erase_subset _ _) (fun _ _ => rfl)
    · exact State.dead_iff.mpr ⟨Finset.notMem_erase _ _, hlater⟩
    · exact h.erasing id (by simp [hf])

variable [DecidableEq ι]

theorem Inv.give {s : State ι H} (h : Inv s) (p : ι) (id : Nat) :
    Inv { s with
      adding := Function.update s.adding p none, returned := s.returned ++ [id] } where
  called c hc := by
    obtain ⟨hdead, hret, hn⟩ := h.called c hc
    exact ⟨hdead, List.mem_append_left _ hret, hn⟩
  cancelling q c hc := List.mem_append_left _ (h.cancelling q c hc)
  erasing i hi := List.mem_append_left _ (h.erasing i hi)
  inOrder := h.inOrder

theorem Inv.addTimer {s : State ι H} (h : Inv s) {p : ι} {timer : Timer} {lag : Nat}
    (hnew : timer.id_ ∉ s.returned) : Inv (s.addTimer p timer lag) := by
  have hg := h.give p timer.id_
  have hc : ∀ c ∈ s.called, c.1 ≠ timer.id_ := by
    rintro c hc heq
    exact hnew (heq ▸ (h.called c hc).2.1)
  unfold State.addTimer
  dsimp only
  split
  · exact hg.add hc
  · apply hg.queue
    · exact fun c hmem heq => hc c hmem (Option.some.inj heq).symm
    · intro id heq
      cases heq
    · intro f hf
      cases f with
      | addTimerInLoop => trivial
      | erase id =>
        intro heq
        exact hnew (Option.some.inj heq ▸ h.erasing id hf)

theorem Inv.setCancel {s : State ι H} (h : Inv s) {p : ι} {c : Option Cancel}
    (hc : ∀ d, c = some d → d.id ∈ s.returned) : Inv (s.setCancel p c) where
  called := h.called
  cancelling := by
    intro q d hq
    by_cases hqp : q = p
    · exact hc d (by simpa [State.setCancel, hqp] using hq)
    · exact h.cancelling q d (by simpa [State.setCancel, hqp] using hq)
  erasing := h.erasing
  inOrder := h.inOrder

theorem Inv.invalidateTimer {s : State ι H} (h : Inv s) {p : ι} {id : Nat}
    (hret : id ∈ s.returned)
    (htimely : s.isInLoopThread p → s.added id) :
    Inv (s.invalidateTimer p id) := by
  have hs := h.setCancel (p := p) (c := none) (by simp)
  unfold State.invalidateTimer
  dsimp only
  split
  next hp =>
    apply Inv.effect
    · exact hs.quiet (Finset.erase_subset _ _) (fun _ _ => rfl)
    · exact State.dead_iff.mpr ⟨Finset.notMem_erase _ _, State.added_iff.mp (htimely hp)⟩
    · exact hret
  next =>
    apply hs.queue
    · intro c _ heq
      cases heq
    · intro i hi
      obtain rfl := Func.erase.inj hi
      exact hret
    · intro f _
      cases f with
      | addTimerInLoop => trivial
      | erase =>
        intro heq
        cases heq

theorem Inv.testLooping {s : State ι H} (h : Inv s) {p : ι} {id : Nat} (hret : id ∈ s.returned)
    (htimely : s.looping_ || s.dead id) : Inv (s.testLooping p id) := by
  unfold State.testLooping
  split
  next => exact h.setCancel (by rintro _ ⟨⟩; exact hret)
  next hl =>
    have hdead : s.dead id = true := by simpa [hl] using htimely
    exact (h.setCancel (by simp)).effect hdead hret

theorem Inv.testQuit {s : State ι H} (h : Inv s) {p : ι} {id : Nat} (hret : id ∈ s.returned)
    (htimely : !s.quit_ || s.dead id) : Inv (s.testQuit p id) := by
  unfold State.testQuit
  split
  next hq =>
    have hdead : s.dead id = true := by simpa [hq] using htimely
    exact (h.setCancel (by simp)).effect hdead hret
  next => exact h.setCancel (by rintro _ ⟨⟩; exact hret)

theorem Inv.step {s t : State ι H} (h : Inv s) (hids : Ids s) {i : Label ι}
    (hok : timelyCancel s i) (hst : step s i = some t) : Inv t := by
  cases step_does hst with
  | addTimer p lag timer hp => exact h.addTimer (hids.adding p timer hp).2
  | invalidateTimer p id _ hret => exact h.setCancel (by rintro _ ⟨⟩; exact hret)
  | testLooping p id hc =>
    exact h.testLooping (h.cancelling p _ hc) (by simpa [timelyCancel, hc] using hok)
  | testQuit p id hc =>
    exact h.testQuit (h.cancelling p _ hc) (by simpa [timelyCancel, hc] using hok)
  | passed p id hc =>
    refine h.invalidateTimer (h.cancelling p _ hc) fun hloop => ?_
    simpa [timelyCancel, hc, hloop] using hok
  | runFunc lag f rest _ _ _ hf => exact h.runFunc hf
  | timer i q _ hmakes hq =>
    obtain ⟨hset, hcount⟩ := TimerQueue.step_quiet hq (by
      rintro timer lag rfl
      simp [loopMakes] at hmakes)
    exact h.quiet hset hcount
  | construct | quit | loopBegins | loopResets | loopEnds | moveToCurrentThread =>
    exact { h with }

/-- In a run whose cancels are all timely, no callback starts once a call of
`invalidateTimer` for its timer has taken effect. -/
theorem invalidated_never_starts {s : State ι H}
    (h : (system ι H).ReachableWhen (fun s i => timelyCancel s i) s) :
    ∀ c ∈ s.called, s.timerQueue_.started.count c.1 = c.2 := by
  have hi : Ids s ∧ Inv s := by
    refine h.invariant (I := fun s => Ids s ∧ Inv s) ?_ ?_
    · rintro _ ⟨threadId_, clock, rfl⟩
      exact ⟨Ids.init threadId_ clock, Inv.init threadId_ clock⟩
    · exact fun s i t hs hok hst => ⟨hs.1.step hst, hs.2.step hs.1 hok hst⟩
  exact fun c hc => (hi.2.called c hc).2.2

theorem invalidated_never_starts_queued :
    ∃ s : State Nat (Library.MinQueue.sorted Timer.when_),
      (system Nat _).runWhen timelyCancel (init 0 0)
        [.construct 0 100 1, .addTimer 0 0, .loop, .loop, .timer (.tick 200), .timer .handleRead,
          .timer .next, .invalidateTimer 7 1, .cancelStep 7, .cancelStep 7, .cancelStep 7,
          .timer .callbackReturns, .timer (.finish 0), .runFunc 0] = some s ∧
      s.called = [(1, 1)] ∧ ∀ c ∈ s.called, s.timerQueue_.started.count c.1 = c.2 := by
  obtain ⟨s, hs, hp⟩ := (system Nat (.sorted Timer.when_)).exists_runWhen timelyCancel (init 0 0)
    [.construct 0 100 1, .addTimer 0 0, .loop, .loop, .timer (.tick 200), .timer .handleRead,
      .timer .next, .invalidateTimer 7 1, .cancelStep 7, .cancelStep 7, .cancelStep 7,
      .timer .callbackReturns, .timer (.finish 0), .runFunc 0]
    (fun s => s.called == [(1, 1)]) (by decide +kernel)
  exact ⟨s, hs, by simpa using hp,
    invalidated_never_starts (Library.System.ReachableWhen.run (.init ⟨0, 0, rfl⟩) hs)⟩

/-- A cancel before the loop runs is dropped and the timer starts; and a cancel on the
loop thread overtakes a queued add. -/
theorem invalidated_starts :
    (∃ s : State Nat (Library.MinQueue.sorted Timer.when_),
      (system Nat _).run (init 0 0)
        [.construct 0 100 0, .addTimer 0 0, .invalidateTimer 0 1, .cancelStep 0, .loop, .loop,
          .timer (.tick 200), .timer .handleRead, .timer .next] = some s ∧
      s.called = [(1, 0)] ∧ s.timerQueue_.started = [1]) ∧
    (∃ s : State Nat (Library.MinQueue.sorted Timer.when_),
      (system Nat _).run (init 0 0)
        [.loop, .loop, .construct 7 100 0, .addTimer 7 0, .invalidateTimer 0 1, .cancelStep 0,
          .cancelStep 0, .cancelStep 0, .runFunc 0, .timer (.tick 200), .timer .handleRead,
          .timer .next] = some s ∧
      s.called = [(1, 0)] ∧ s.timerQueue_.started = [1]) := by
  constructor
  · obtain ⟨s, hs, hp⟩ := (system Nat (.sorted Timer.when_)).exists_run (init 0 0)
      [.construct 0 100 0, .addTimer 0 0, .invalidateTimer 0 1, .cancelStep 0, .loop, .loop,
        .timer (.tick 200), .timer .handleRead, .timer .next]
      (fun s => s.called = [(1, 0)] ∧ s.timerQueue_.started = [1]) (by decide +kernel)
    exact ⟨s, hs, of_decide_eq_true hp⟩
  · obtain ⟨s, hs, hp⟩ := (system Nat (.sorted Timer.when_)).exists_run (init 0 0)
      [.loop, .loop, .construct 7 100 0, .addTimer 7 0, .invalidateTimer 0 1, .cancelStep 0,
        .cancelStep 0, .cancelStep 0, .runFunc 0, .timer (.tick 200), .timer .handleRead,
        .timer .next]
      (fun s => s.called = [(1, 0)] ∧ s.timerQueue_.started = [1]) (by decide +kernel)
    exact ⟨s, hs, of_decide_eq_true hp⟩

end MysqlConnectPool.EventLoopTimers
