import MysqlConnectPool.Event.EventLoopTimers

/-! The ids that `timersCreated_` gives to timers, and what the calls of the loop do in
its timer queue. -/

universe u w

namespace MysqlConnectPool.EventLoopTimers

open TimerQueue (Timer)

variable {ι : Type w} {H : Library.MinQueue.{0, 0, u} Timer.when_}

def State.handedOver (s : State ι H) : List Nat :=
  s.timerQueue_.added.map (·.id_) ++ s.funcs_.filterMap Func.adds

structure Ids (s : State ι H) : Prop where
  returned : ∀ id ∈ s.returned, id ≤ s.timersCreated_
  adding : ∀ p t, s.adding p = some t → t.id_ ≤ s.timersCreated_ ∧ t.id_ ∉ s.returned
  addingOnce : ∀ p q t u, s.adding p = some t → s.adding q = some u → t.id_ = u.id_ → p = q
  handedOver : ∀ id ∈ s.handedOver, id ∈ s.returned
  once : s.handedOver.Nodup

theorem Ids.congr {s t : State ι H} (h : Ids s) (hcreated : t.timersCreated_ = s.timersCreated_)
    (hadding : t.adding = s.adding) (hreturned : t.returned = s.returned)
    (hhanded : t.handedOver = s.handedOver) : Ids t where
  returned := by
    rw [hcreated, hreturned]
    exact h.returned
  adding := by
    rw [hcreated, hadding, hreturned]
    exact h.adding
  addingOnce := by
    rw [hadding]
    exact h.addingOnce
  handedOver := by
    rw [hhanded, hreturned]
    exact h.handedOver
  once := by
    rw [hhanded]
    exact h.once

theorem Ids.hand {s t : State ι H} (h : Ids s) {id : Nat}
    (hcreated : t.timersCreated_ = s.timersCreated_)
    (hadding : t.adding = s.adding) (hreturned : t.returned = s.returned)
    (hhanded : t.handedOver.Perm (id :: s.handedOver))
    (hret : id ∈ s.returned) (hnew : id ∉ s.handedOver) : Ids t where
  returned := by
    rw [hcreated, hreturned]
    exact h.returned
  adding := by
    rw [hcreated, hadding, hreturned]
    exact h.adding
  addingOnce := by
    rw [hadding]
    exact h.addingOnce
  handedOver := by
    intro i hi
    rw [hreturned]
    rcases List.mem_cons.mp (hhanded.mem_iff.mp hi) with rfl | hmem
    · exact hret
    · exact h.handedOver i hmem
  once := hhanded.nodup_iff.mpr (List.nodup_cons.mpr ⟨hnew, h.once⟩)

theorem Ids.runFunc {s : State ι H} (h : Ids s) {f : Func} {rest : List Func} {lag : Nat}
    (hf : s.funcs_ = f :: rest) : Ids (s.runFunc f rest lag) := by
  cases f with
  | addTimerInLoop timer =>
    refine h.congr rfl rfl rfl ?_
    change (s.timerQueue_.addTimerInLoop timer lag).added.map (·.id_) ++
      rest.filterMap Func.adds = s.handedOver
    rw [TimerQueue.State.addTimerInLoop_added, State.handedOver, hf, List.map_append,
      List.append_assoc]
    rfl
  | erase id =>
    refine h.congr rfl rfl rfl ?_
    change s.timerQueue_.added.map (·.id_) ++ rest.filterMap Func.adds = s.handedOver
    rw [State.handedOver, hf]
    rfl

theorem Ids.adding_new {s : State ι H} (h : Ids s) {p : ι} {timer : Timer}
    (hp : s.adding p = some timer) : timer.id_ ∉ s.handedOver :=
  fun hmem => (h.adding p timer hp).2 (h.handedOver _ hmem)

theorem Ids.queued_new {s : State ι H} (h : Ids s) {timer : Timer} {rest : List Func}
    (hf : s.funcs_ = .addTimerInLoop timer :: rest) :
    timer.id_ ∉ s.timerQueue_.added.map (·.id_) := by
  have honce := h.once
  rw [State.handedOver, hf] at honce
  exact fun hmem => (List.nodup_append.mp honce).2.2 _ hmem _ List.mem_cons_self rfl

theorem Ids.init (threadId_ : ι) (clock : Int) : Ids (init threadId_ clock : State ι H) := by
  constructor <;> simp [EventLoopTimers.init, TimerQueue.init, State.handedOver]

variable [DecidableEq ι]

theorem Ids.construct {s : State ι H} (h : Ids s) (p : ι) (when interval : Int) :
    Ids (s.construct p when interval) where
  returned := fun id hid => Nat.le_succ_of_le (h.returned id hid)
  adding := by
    intro q t hq
    by_cases hqp : q = p
    · subst hqp
      obtain rfl : Timer.create (s.timersCreated_ + 1) when interval = t := by
        simpa [State.construct] using hq
      exact ⟨Nat.le_refl _, fun hmem => absurd (h.returned _ hmem) (Nat.not_succ_le_self _)⟩
    · have := h.adding q t (by simpa [State.construct, hqp] using hq)
      exact ⟨Nat.le_succ_of_le this.1, this.2⟩
  addingOnce := by
    have hold : ∀ q t, q ≠ p → (s.construct p when interval).adding q = some t →
        s.adding q = some t := by
      intro q t hqp hq
      simpa [State.construct, hqp] using hq
    have hnew : ∀ t, (s.construct p when interval).adding p = some t →
        t.id_ = s.timersCreated_ + 1 := by
      intro t hp
      obtain rfl : Timer.create (s.timersCreated_ + 1) when interval = t := by
        simpa [State.construct] using hp
      rfl
    intro q r t u hq hr hid
    by_cases hqp : q = p
    · by_cases hrp : r = p
      · rw [hqp, hrp]
      · have h₁ := hnew t (hqp ▸ hq)
        have h₂ := (h.adding r u (hold r u hrp hr)).1
        omega
    · by_cases hrp : r = p
      · have h₁ := hnew u (hrp ▸ hr)
        have h₂ := (h.adding q t (hold q t hqp hq)).1
        omega
      · exact h.addingOnce q r t u (hold q t hqp hq) (hold r u hrp hr) hid
  handedOver := h.handedOver
  once := h.once

theorem Ids.give {s : State ι H} (h : Ids s) {p : ι} {timer : Timer}
    (hp : s.adding p = some timer) :
    Ids { s with
      adding := Function.update s.adding p none, returned := s.returned ++ [timer.id_] } where
  returned := by
    intro id hid
    rcases List.mem_append.mp hid with hid | hid
    · exact h.returned id hid
    · rw [List.mem_singleton.mp hid]
      exact (h.adding p timer hp).1
  adding := by
    intro q t hq
    by_cases hqp : q = p
    · simp [hqp] at hq
    · have hq' : s.adding q = some t := by simpa [hqp] using hq
      refine ⟨(h.adding q t hq').1, ?_⟩
      rw [List.mem_append, List.mem_singleton]
      rintro (hmem | hid)
      · exact (h.adding q t hq').2 hmem
      · exact hqp (h.addingOnce q p t timer hq' hp hid)
  addingOnce := by
    intro q r t u hq hr
    by_cases hqp : q = p
    · simp [hqp] at hq
    · by_cases hrp : r = p
      · simp [hrp] at hr
      · exact h.addingOnce q r t u (by simpa [hqp] using hq) (by simpa [hrp] using hr)
  handedOver := fun id hid => List.mem_append_left _ (h.handedOver id hid)
  once := h.once

theorem Ids.addTimer {s : State ι H} (h : Ids s) {p : ι} {timer : Timer} {lag : Nat}
    (hp : s.adding p = some timer) : Ids (s.addTimer p timer lag) := by
  have hret : timer.id_ ∈ s.returned ++ [timer.id_] := by simp
  unfold State.addTimer
  dsimp only
  split
  · refine (h.give hp).hand rfl rfl rfl ?_ hret (h.adding_new hp)
    unfold State.handedOver
    dsimp only
    rw [TimerQueue.State.addTimerInLoop_added, List.map_append, List.append_assoc]
    exact List.perm_middle
  · refine (h.give hp).hand rfl rfl rfl ?_ hret (h.adding_new hp)
    unfold State.handedOver
    dsimp only
    rw [List.filterMap_append, ← List.append_assoc]
    exact List.perm_append_singleton _ _

theorem Ids.step {s t : State ι H} (h : Ids s) {i : Label ι} (hst : step s i = some t) :
    Ids t := by
  cases step_does hst with
  | construct p when interval _ => exact h.construct p when interval
  | addTimer p lag timer hp => exact h.addTimer hp
  | testLooping p id _ =>
    unfold State.testLooping
    split <;> exact h.congr rfl rfl rfl rfl
  | testQuit p id _ =>
    unfold State.testQuit
    split <;> exact h.congr rfl rfl rfl rfl
  | passed p id _ =>
    dsimp only [State.invalidateTimer]
    split
    · exact h.congr rfl rfl rfl rfl
    · refine h.congr rfl rfl rfl ?_
      simp [State.handedOver, State.setCancel, Func.adds]
  | runFunc lag f rest _ _ _ hf => exact h.runFunc hf
  | timer i q _ hmakes hq =>
    have hadded : q.added = s.timerQueue_.added := TimerQueue.step_added hq (by
      rintro timer lag rfl
      simp [loopMakes] at hmakes)
    refine h.congr rfl rfl rfl ?_
    rw [State.handedOver, State.handedOver, hadded]
  | invalidateTimer | quit | loopBegins | loopResets | loopEnds | moveToCurrentThread =>
    exact h.congr rfl rfl rfl rfl

theorem Reachable.ids {s : State ι H} (h : (system ι H).Reachable s) : Ids s := by
  refine h.invariant ?_ (fun s i t hs hst => hs.step hst)
  rintro _ ⟨threadId_, clock, rfl⟩
  exact Ids.init threadId_ clock

/-- While the loop thread is in a call, the queue is not at work on its timers. -/
def State.CallsOpen (s : State ι H) : Prop :=
  s.free s.threadId_ = true ∨ s.timerQueue_.open_ = true

theorem State.open_of_adding {s : State ι H} (h : s.CallsOpen) {p : ι} {timer : Timer}
    (hp : s.adding p = some timer) (hloop : s.isInLoopThread p) : s.timerQueue_.open_ = true := by
  obtain rfl : s.threadId_ = p := of_decide_eq_true hloop
  refine h.resolve_left ?_
  simp [State.free, hp]

theorem State.open_of_cancelling {s : State ι H} (h : s.CallsOpen) {p : ι} {c : Cancel}
    (hp : s.cancelling p = some c) (hloop : s.isInLoopThread p) : s.timerQueue_.open_ = true := by
  obtain rfl : s.threadId_ = p := of_decide_eq_true hloop
  refine h.resolve_left ?_
  simp [State.free, hp]

/-- A step inside a call of `p`: on the loop thread it leaves the queue open, elsewhere it
leaves the loop thread and the queue as they are. -/
theorem State.CallsOpen.call {s t : State ι H} (h : s.CallsOpen) {p : ι}
    (hid : t.threadId_ = s.threadId_)
    (hloop : s.isInLoopThread p = true → t.timerQueue_.open_ = true)
    (hfree : ∀ q, q ≠ p → t.free q = s.free q)
    (hqueue : s.isInLoopThread p = false → t.timerQueue_ = s.timerQueue_) : t.CallsOpen := by
  cases hp : s.isInLoopThread p with
  | true => exact Or.inr (hloop hp)
  | false =>
    have hne : s.threadId_ ≠ p := of_decide_eq_false hp
    rw [State.CallsOpen, hid, hfree _ hne, hqueue hp]
    exact h

theorem State.free_setCancel (s : State ι H) {p q : ι} (hq : q ≠ p) (c : Option Cancel) :
    (s.setCancel p c).free q = s.free q := by
  simp [State.free, State.setCancel, hq]

theorem State.open_of_mayCall {s : State ι H} {p : ι} (h : s.mayCall p)
    (hloop : s.isInLoopThread p = true) : s.timerQueue_.open_ = true := by
  simpa [State.mayCall, hloop] using (Bool.and_eq_true_iff.mp h).2

theorem State.CallsOpen.setCancel {s : State ι H} (h : s.CallsOpen) {p : ι} {c : Option Cancel}
    (hopen : s.isInLoopThread p = true → s.timerQueue_.open_ = true) :
    (s.setCancel p c).CallsOpen :=
  h.call rfl hopen (fun _ hq => s.free_setCancel hq c) (fun _ => rfl)

theorem State.CallsOpen.addTimer {s : State ι H} (h : s.CallsOpen) {p : ι} {timer : Timer}
    {lag : Nat} (hp : s.adding p = some timer) : (s.addTimer p timer lag).CallsOpen := by
  have hopen := State.open_of_adding h hp
  dsimp only [State.addTimer]
  split
  next hloop =>
    refine .inr ?_
    rw [TimerQueue.State.addTimerInLoop_open]
    exact hopen hloop
  next hloop =>
    refine h.call rfl hopen ?_ (fun _ => rfl)
    intro q hq
    simp [State.free, hq]

theorem State.CallsOpen.step {s t : State ι H} (h : s.CallsOpen) {i : Label ι}
    (hst : step s i = some t) : t.CallsOpen := by
  cases step_does hst with
  | construct p when interval hmay =>
    refine h.call rfl (State.open_of_mayCall hmay) ?_ (fun _ => rfl)
    intro q hq
    simp [State.free, State.construct, hq]
  | addTimer p lag timer hp => exact h.addTimer hp
  | invalidateTimer p id hmay _ => exact h.setCancel (State.open_of_mayCall hmay)
  | testLooping p id hc =>
    unfold State.testLooping
    split <;> exact h.setCancel (State.open_of_cancelling h hc)
  | testQuit p id hc =>
    unfold State.testQuit
    split <;> exact h.setCancel (State.open_of_cancelling h hc)
  | passed p id hc =>
    have hopen := State.open_of_cancelling h hc
    dsimp only [State.invalidateTimer]
    split
    next hloop => exact .inr (hopen hloop)
    next => exact h.setCancel hopen
  | quit | loopBegins | loopResets | loopEnds => exact h
  | runFunc lag f rest hfree =>
    cases f with
    | addTimerInLoop timer => exact .inl hfree
    | erase id => exact .inl hfree
  | timer i q hfree => exact .inl hfree
  | moveToCurrentThread p _ hfree => exact .inl hfree

theorem Reachable.callsOpen {s : State ι H} (h : (system ι H).Reachable s) : s.CallsOpen := by
  refine h.invariant ?_ (fun s i t hs hst => hs.step hst)
  rintro _ ⟨threadId_, clock, rfl⟩
  exact .inl rfl

def queueActs (s : State ι H) : Label ι → List TimerQueue.Label
  | .addTimer p lag =>
    match s.adding p with
    | some timer => if s.isInLoopThread p then [.addTimerInLoop timer lag] else []
    | none => []
  | .cancelStep p =>
    match s.cancelling p with
    | some (.passed id) => if s.isInLoopThread p then [.invalidateTimer id] else []
    | _ => []
  | .runFunc lag =>
    match s.funcs_ with
    | .addTimerInLoop timer :: _ => [.addTimerInLoop timer lag]
    | .erase id :: _ => [.invalidateTimer id]
    | [] => []
  | .timer i => [i]
  | _ => []

theorem State.addTimer_timerQueue (s : State ι H) (p : ι) (timer : Timer) (lag : Nat) :
    (s.addTimer p timer lag).timerQueue_ =
      if s.isInLoopThread p then s.timerQueue_.addTimerInLoop timer lag else s.timerQueue_ :=
  apply_ite State.timerQueue_ _ _ _

theorem State.invalidateTimer_timerQueue (s : State ι H) (p : ι) (id : Nat) :
    (s.invalidateTimer p id).timerQueue_ =
      if s.isInLoopThread p then s.timerQueue_.invalidateTimer id else s.timerQueue_ :=
  apply_ite State.timerQueue_ _ _ _

theorem State.addTimer_queue {s : State ι H} (hids : Ids s) (hopen : s.CallsOpen) {p : ι}
    {timer : Timer} {lag : Nat} (hp : s.adding p = some timer) :
    (TimerQueue.system H).run s.timerQueue_ (queueActs s (.addTimer p lag)) =
      some (s.addTimer p timer lag).timerQueue_ := by
  simp only [queueActs, hp, State.addTimer_timerQueue]
  split
  next hloop =>
    have hnew : timer.id_ ∉ s.timerQueue_.added.map (·.id_) :=
      fun hmem => hids.adding_new hp (List.mem_append_left _ hmem)
    exact Library.System.run_singleton.trans (if_pos ⟨State.open_of_adding hopen hp hloop, hnew⟩)
  next => rfl

theorem State.passed_queue {s : State ι H} (hopen : s.CallsOpen) {p : ι} {id : Nat}
    (hc : s.cancelling p = some (.passed id)) :
    (TimerQueue.system H).run s.timerQueue_ (queueActs s (.cancelStep p)) =
      some (s.invalidateTimer p id).timerQueue_ := by
  simp only [queueActs, hc, State.invalidateTimer_timerQueue]
  split
  next hloop =>
    exact Library.System.run_singleton.trans (if_pos (State.open_of_cancelling hopen hc hloop))
  next => rfl

theorem State.runFunc_queue {s : State ι H} (hids : Ids s) (hbatch : s.timerQueue_.batch = none)
    {f : Func} {rest : List Func} {lag : Nat} (hf : s.funcs_ = f :: rest) :
    (TimerQueue.system H).run s.timerQueue_ (queueActs s (.runFunc lag)) =
      some (s.runFunc f rest lag).timerQueue_ := by
  have hopen : s.timerQueue_.open_ = true := by simp [TimerQueue.State.open_, hbatch]
  simp only [queueActs, hf]
  cases f with
  | addTimerInLoop timer =>
    exact Library.System.run_singleton.trans (if_pos ⟨hopen, hids.queued_new hf⟩)
  | erase id => exact Library.System.run_singleton.trans (if_pos hopen)

theorem State.step_queue {s t : State ι H} (hids : Ids s) (hopen : s.CallsOpen) {i : Label ι}
    (hst : step s i = some t) :
    (TimerQueue.system H).run s.timerQueue_ (queueActs s i) = some t.timerQueue_ := by
  cases step_does hst with
  | addTimer p lag timer hp => exact State.addTimer_queue hids hopen hp
  | testLooping p id hc =>
    simp only [queueActs, hc, State.testLooping]
    split <;> rfl
  | testQuit p id hc =>
    simp only [queueActs, hc, State.testQuit]
    split <;> rfl
  | passed p id hc => exact State.passed_queue hopen hc
  | runFunc lag f rest _ hbatch _ hf => exact State.runFunc_queue hids hbatch hf
  | timer i q _ _ hq => exact Library.System.run_singleton.trans hq
  | construct | invalidateTimer | quit | loopBegins | loopResets | loopEnds |
      moveToCurrentThread => rfl

theorem init_queue {s : State ι H} (h : (system ι H).init s) :
    (TimerQueue.system H).init s.timerQueue_ := by
  obtain ⟨threadId_, clock, rfl⟩ := h
  exact ⟨clock, rfl⟩

/-- The calls work the timer queue as its own steps do, and the id of a timer that comes
into it is new because `timersCreated_` gave it. -/
def refinesTimerQueue : Library.Refinement (system ι H) (TimerQueue.system H) where
  abs s := s.timerQueue_
  acts := queueActs
  init _ h := init_queue h
  step _ _ _ h hst := State.step_queue (Reachable.ids h) (Reachable.callsOpen h) hst

theorem Reachable.timerQueue {s : State ι H} (h : (system ι H).Reachable s) :
    (TimerQueue.system H).Reachable s.timerQueue_ := refinesTimerQueue.reachable h

end MysqlConnectPool.EventLoopTimers
