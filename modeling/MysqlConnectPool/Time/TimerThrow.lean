import MysqlConnectPool.Time.TimerQueueArming

/-! A callback that throws out of `handleRead`. -/

universe u

namespace MysqlConnectPool.TimerQueue

variable {H : Library.MinQueue.{0, 0, u} Timer.when_}

/-- An exception of the callback that runs leaves `handleRead`, and the batch goes with its frame. -/
def State.throw (s : State H) : Option (State H) :=
  match s.batch with
  | some ⟨_, _, _, true⟩ => some { s with batch := none }
  | _ => none

/-- What an exception thrown in `s`, in a `handleRead` that began in `s₀`, leaves in `s'`.  A timer is
live unless it was erased or is a one-shot timer whose turn has come. -/
structure CostsOnlyItself (s₀ s s' : State H) : Prop where
  scheduled : ∀ t ∈ s₀.heap, some t ≠ s.passed.getLast? → t.id_ ∈ s.timerIdSet_ →
    (t.repeat_ = true ∨ t ∉ s.passed) → t.id_ ∈ ids s'.heap
  notCalling : s'.callingExpiredTimers_ = false
  armed : s'.Armed

section Throw

variable {s₀ s s' t : State H} {labels : List Label}

theorem throw_eq (h : s.throw = some s') :
    s' = { s with batch := none } ∧ ∃ b, s.batch = some b ∧ b.running = true := by
  unfold State.throw at h
  split at h
  · next now passed todo hb =>
    exact ⟨(Option.some.inj h).symm, _, hb, rfl⟩
  · cases h

theorem step_calling {i : Label} (hst : step s i = some t) (hi : ∀ lag, i ≠ .finish lag)
    (hcalling : s.callingExpiredTimers_ = true) : t.callingExpiredTimers_ = true := by
  cases step_transition hst with
  | addTimerInLoop timer lag _ _ =>
    obtain ⟨c, fd, -, heq⟩ := s.addTimerInLoop_eq timer lag
    rw [heq]
    exact hcalling
  | invalidateTimer id _ => exact hcalling
  | handleRead _ => rfl
  | next =>
    unfold State.next
    split
    · exact hcalling
    · exact hcalling
  | callbackReturns => exact hcalling
  | finish now passed lag _ => exact absurd rfl (hi lag)
  | reset lag _ =>
    obtain ⟨c, fd, -, heq⟩ := s.reset_eq lag
    rw [heq]
    exact hcalling
  | tick d => exact hcalling

theorem run_calling (hr : (system H).run s labels = some t) (hi : ∀ lag, .finish lag ∉ labels)
    (hcalling : s.callingExpiredTimers_ = true) : t.callingExpiredTimers_ = true := by
  induction labels generalizing s with
  | nil =>
    cases hr
    exact hcalling
  | cons i labels ih =>
    obtain ⟨u, hu, hr⟩ := Option.bind_eq_some_iff.mp hr
    refine ih hr (fun lag hmem => hi lag (List.mem_cons_of_mem i hmem)) (step_calling hu ?_ hcalling)
    rintro lag rfl
    exact hi lag List.mem_cons_self

theorem throw_loses_batch (h : s.Inv) (hthrow : s.throw = some s') :
    ∀ t ∈ s.passed ++ s.todo, t.id_ ∉ ids s'.heap := by
  obtain ⟨rfl, -⟩ := throw_eq hthrow
  intro t ht hmem
  have hd := h.distinct
  have hsplit : s.waiting + ↑s.passed = s.heap + ↑(s.passed ++ s.todo) := by
    rw [State.waiting, Multiset.add_assoc, ← Multiset.coe_add,
      Multiset.add_comm (s.todo : Multiset Timer)]
  rw [hsplit, ids_add] at hd
  exact Multiset.disjoint_left.mp (Multiset.nodup_add.mp hd).2.2 hmem
    (Multiset.mem_map_of_mem _ (Multiset.mem_coe.mpr ht))

/-- An exception never costs only itself, whichever callback of whichever batch throws it: the mark
stays set. -/
theorem not_costsOnlyItself (hr : (system H).run s₀ (.handleRead :: labels) = some s)
    (hbatch : ∀ lag, .finish lag ∉ labels) (hthrow : s.throw = some s') :
    ¬CostsOnlyItself s₀ s s' := by
  obtain ⟨s₁, hread, hr⟩ := Option.bind_eq_some_iff.mp hr
  have hcalling : s₁.callingExpiredTimers_ = true := by
    simp only [system, step, Option.ite_none_right_eq_some, Option.some.injEq] at hread
    rw [← hread.2]
    rfl
  obtain ⟨rfl, -⟩ := throw_eq hthrow
  intro h
  have hset := run_calling hr hbatch hcalling
  rw [h.notCalling] at hset
  cases hset

end Throw

def bothDue : List Label :=
  [.addTimerInLoop (.create 1 100 0) 0, .addTimerInLoop (.create 2 200 1) 0, .tick 200000]

theorem not_costsOnlyItself_first :
    ∃ s₀ s s' : State (Library.MinQueue.sorted Timer.when_),
      (system _).run (init 0) bothDue = some s₀ ∧
      (system _).run s₀ [.handleRead, .next] = some s ∧ s.throw = some s' ∧
      ¬CostsOnlyItself s₀ s s' := by
  obtain ⟨s₀, hs₀, hp⟩ := (system (.sorted Timer.when_)).exists_run (init 0) bothDue
    (fun s₀ => ((system (.sorted Timer.when_)).run s₀ [.handleRead, .next]).any fun s =>
      s.throw.isSome) (by decide +kernel)
  obtain ⟨s, hs, hp⟩ := Library.System.exists_run _ _ _ _ hp
  obtain ⟨s', hthrow⟩ := Option.isSome_iff_exists.mp hp
  exact ⟨s₀, s, s', hs₀, hs, hthrow, not_costsOnlyItself hs (by simp) hthrow⟩

/-- The callback of the first throws: the second is live and not scheduled, the mark is set and the
timerfd is not. -/
theorem throw_loses_periodic :
    ∃ s₀ s s' : State (Library.MinQueue.sorted Timer.when_),
      (system _).run (init 0) bothDue = some s₀ ∧
      (system _).run s₀ [.handleRead, .next] = some s ∧ s.throw = some s' ∧
      (2 ∈ s'.timerIdSet_ ∧ s'.timers_.1 = [] ∧ s'.callingExpiredTimers_ = true ∧
        s'.timerfd_ = none) ∧ ¬CostsOnlyItself s₀ s s' := by
  obtain ⟨s₀, hs₀, hp⟩ := (system (.sorted Timer.when_)).exists_run (init 0) bothDue
    (fun s₀ => ((system (.sorted Timer.when_)).run s₀ [.handleRead, .next]).any fun s =>
      s.throw.any fun s' => 2 ∈ s'.timerIdSet_ ∧ s'.timers_.1 = [] ∧
        s'.callingExpiredTimers_ = true ∧ s'.timerfd_ = none) (by decide +kernel)
  obtain ⟨s, hs, hp⟩ := Library.System.exists_run _ _ _ _ hp
  cases hthrow : s.throw with
  | none => simp [hthrow] at hp
  | some s' =>
    rw [hthrow, Option.any_some] at hp
    have hlost := of_decide_eq_true hp
    refine ⟨s₀, s, s', hs₀, hs, hthrow, hlost, fun h => ?_⟩
    have hcalling := hlost.2.2.1
    rw [h.notCalling] at hcalling
    cases hcalling

end MysqlConnectPool.TimerQueue
