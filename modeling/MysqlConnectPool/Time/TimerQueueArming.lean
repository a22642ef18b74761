import MysqlConnectPool.Time.TimerQueueInv

/-! The timerfd against the earliest timer of the heap. -/

universe u

namespace MysqlConnectPool.TimerQueue

variable {H : Library.MinQueue.{0, 0, u} Timer.when_}

theorem toNanoseconds_split {microSeconds : Int} (h : 0 ≤ microSeconds) :
    (⟨microSeconds.tdiv 1000000, microSeconds.tmod 1000000 * 1000⟩ : Timespec).toNanoseconds =
      microSeconds * 1000 := by
  rw [Int.tdiv_eq_ediv_of_nonneg h, Int.tmod_eq_emod_of_nonneg h]
  simp only [Timespec.toNanoseconds]
  omega

theorem howMuchTimeFromNow_pos (when now : Int) :
    100000 ≤ (howMuchTimeFromNow when now).toNanoseconds := by
  unfold howMuchTimeFromNow
  dsimp only
  split
  · rw [toNanoseconds_split (by omega)]
    omega
  · rw [toNanoseconds_split (by omega)]
    omega

theorem howMuchTimeFromNow_le (when now : Int) :
    (howMuchTimeFromNow when now).toNanoseconds ≤ max (when - now) 100000 := by
  unfold howMuchTimeFromNow
  dsimp only
  split
  · rw [toNanoseconds_split (by omega)]
    exact le_max_right _ _
  · next h =>
    rw [toNanoseconds_split (by omega)]
    apply le_max_of_le_left
    have hnonneg : 0 ≤ when - now := by
      by_contra hneg
      have : (when - now).tdiv 1000 ≤ 0 := by
        have := Int.tdiv_nonneg (a := -(when - now)) (b := 1000) (by omega) (by omega)
        rw [Int.neg_tdiv] at this
        omega
      omega
    rw [Int.tdiv_eq_ediv_of_nonneg hnonneg]
    omega

/-- The timerfd is set, or has expired unread, and with the delay between the clock
reading and the setting allowed for it is not late for a timer due at `when`. -/
def Arm.Covers (a : Arm) (when : Int) : Prop :=
  a.readAt ≤ a.armedAt ∧ a.armedAt < a.expiry ∧
    a.expiry ≤ max (when + (a.armedAt - a.readAt)) (a.armedAt + 100000)

def State.Armed (s : State H) : Prop :=
  ∀ top, H.top? s.timers_ = some top → ∃ a, s.timerfd_ = some a ∧ a.Covers top.when_

theorem resetTimerfd_covers (s : State H) (expiration : Int) (lag : Nat) :
    ∃ a, (s.resetTimerfd expiration lag).timerfd_ = some a ∧ a.Covers expiration := by
  have hpos := howMuchTimeFromNow_pos expiration s.clock
  have hle := howMuchTimeFromNow_le expiration s.clock
  have hne : (howMuchTimeFromNow expiration s.clock).toNanoseconds ≠ 0 := by omega
  refine ⟨_, if_neg hne, ?_, ?_, ?_⟩
  · dsimp only
    omega
  · dsimp only
    omega
  · dsimp only
    omega

theorem rearm_armed (s : State H) (lag : Nat) : (s.rearm lag).Armed := by
  intro top htop
  unfold State.rearm at htop ⊢
  cases ht : H.top? s.timers_ with
  | none => simp [ht] at htop
  | some t =>
    simp only [ht] at htop ⊢
    obtain rfl : t = top := by
      have : H.top? s.timers_ = some top := htop
      simpa [ht] using this
    exact resetTimerfd_covers s t.when_ lag

theorem addTimerInLoop_armed {s : State H} (h : s.Armed) (timer : Timer) (lag : Nat) :
    (s.addTimerInLoop timer lag).Armed := by
  intro top htop
  unfold State.addTimerInLoop State.insert at htop ⊢
  dsimp only at htop ⊢
  cases ht : H.top? s.timers_ with
  | none =>
    simp only [ht, ↓reduceIte] at htop ⊢
    have hkey : top.when_ = timer.when_ :=
      H.key_top?_push_of_lt (fun b hb => by simp [ht] at hb) htop
    rw [hkey]
    exact resetTimerfd_covers _ _ _
  | some t =>
    by_cases hlt : timer.when_ < t.when_
    · simp only [ht, hlt, decide_true, ↓reduceIte] at htop ⊢
      have hkey : top.when_ = timer.when_ := by
        refine H.key_top?_push_of_lt (fun b hb => ?_) htop
        obtain rfl : t = b := by simpa [ht] using hb
        exact hlt
      rw [hkey]
      exact resetTimerfd_covers _ _ _
    · -- the earliest deadline stays what it was, and so does the timerfd
      simp only [ht, hlt, decide_false, Bool.false_eq_true, ↓reduceIte] at htop ⊢
      rw [H.key_top?_push_of_le ht (not_lt.mp hlt) htop]
      exact h t ht

def State.ArmedBetween (s : State H) : Prop := s.batch = none → s.Armed

theorem State.ArmedBetween.step {s t : State H} (h : s.ArmedBetween) {i : Label}
    (hst : step s i = some t) : t.ArmedBetween := by
  cases step_transition hst with
  | addTimerInLoop timer lag _ _ =>
    intro hb
    obtain ⟨c, fd, -, heq⟩ := s.addTimerInLoop_eq timer lag
    rw [heq] at hb
    exact addTimerInLoop_armed (h hb) timer lag
  | invalidateTimer id _ => exact h
  | handleRead _ => nofun
  | next =>
    intro hb
    unfold State.next at hb
    split at hb <;> cases hb
  | callbackReturns => nofun
  | finish now passed lag _ => exact fun _ => rearm_armed _ lag
  | reset lag _ => exact fun _ => rearm_armed _ lag
  | tick d => exact h

/-- Between two calls the timerfd covers the earliest timer of the heap. -/
theorem timerfd_covers_top {s : State H} (h : (system H).Reachable s) (hb : s.batch = none)
    {top : Timer} (htop : H.top? s.timers_ = some top) :
    ∃ a, s.timerfd_ = some a ∧ a.readAt ≤ a.armedAt ∧ a.armedAt < a.expiry ∧
      a.expiry ≤ max (top.when_ + (a.armedAt - a.readAt)) (a.armedAt + 100000) := by
  refine h.invariant (I := State.ArmedBetween) ?_ (fun s i t hs hst => hs.step hst) hb top htop
  rintro _ ⟨clock, rfl⟩ _ top htop
  have hempty : H.top? H.empty = none := (H.top?_eq_none _).mpr H.elems_empty
  simp [init, hempty] at htop

theorem timerfd_covers_top_after_batch :
    ∃ s : State (Library.MinQueue.sorted Timer.when_),
      (system _).run (init 0)
        [.addTimerInLoop (.create 1 100 0) 0, .addTimerInLoop (.create 2 1000000000 0) 0,
          .tick 200000, .handleRead, .next, .addTimerInLoop (.create 3 2000000000 0) 0,
          .callbackReturns, .finish 7] = some s ∧
      ∃ a, s.timerfd_ = some a ∧ a.readAt ≤ a.armedAt ∧ a.armedAt < a.expiry ∧
        a.expiry ≤ max (1000000000 + (a.armedAt - a.readAt)) (a.armedAt + 100000) := by
  obtain ⟨s, hs, hp⟩ := (system (.sorted Timer.when_)).exists_run (init 0)
    [.addTimerInLoop (.create 1 100 0) 0, .addTimerInLoop (.create 2 1000000000 0) 0,
      .tick 200000, .handleRead, .next, .addTimerInLoop (.create 3 2000000000 0) 0,
      .callbackReturns, .finish 7]
    (fun s => s.batch = none ∧ s.timers_.1.head? = some (.create 2 1000000000 0))
    (by decide +kernel)
  obtain ⟨hb, htop⟩ := of_decide_eq_true hp
  exact ⟨s, hs, timerfd_covers_top (Library.System.Reachable.run (.init ⟨0, rfl⟩) hs) hb htop⟩

/-- A setting that comes five milliseconds after the clock reading expires that much
past the deadline; and inside a callback the heap can wait without a timerfd set. -/
theorem timerfd_late_or_unset :
    (∃ s : State (Library.MinQueue.sorted Timer.when_),
      (system _).run (init 0) [.addTimerInLoop (.create 1 1000000000 0) 5000000] = some s ∧
      ∃ top a, (Library.MinQueue.sorted Timer.when_).top? s.timers_ = some top ∧
        s.timerfd_ = some a ∧ max top.when_ (a.armedAt + 100000) < a.expiry) ∧
    (∃ s : State (Library.MinQueue.sorted Timer.when_),
      (system _).run (init 0)
        [.addTimerInLoop (.create 1 100 0) 0, .addTimerInLoop (.create 2 1000000000 0) 0,
          .tick 200000, .handleRead, .next, .addTimerInLoop (.create 3 2000000000 0) 0] = some s ∧
      (Library.MinQueue.sorted Timer.when_).top? s.timers_ = some (.create 2 1000000000 0) ∧
      s.timerfd_ = none) := by
  constructor
  · obtain ⟨s, hs, hp⟩ := (system (.sorted Timer.when_)).exists_run (init 0)
      [.addTimerInLoop (.create 1 1000000000 0) 5000000]
      (fun s => s.timers_.1.head? = some (.create 1 1000000000 0) ∧
        s.timerfd_ = some ⟨0, 5000000, 1005000000⟩) (by decide +kernel)
    obtain ⟨htop, hfd⟩ := of_decide_eq_true hp
    exact ⟨s, hs, _, _, htop, hfd, by decide⟩
  · obtain ⟨s, hs, hp⟩ := (system (.sorted Timer.when_)).exists_run (init 0)
      [.addTimerInLoop (.create 1 100 0) 0, .addTimerInLoop (.create 2 1000000000 0) 0,
        .tick 200000, .handleRead, .next, .addTimerInLoop (.create 3 2000000000 0) 0]
      (fun s => s.timers_.1.head? = some (.create 2 1000000000 0) ∧ s.timerfd_ = none)
      (by decide +kernel)
    exact ⟨s, hs, of_decide_eq_true hp⟩

end MysqlConnectPool.TimerQueue
