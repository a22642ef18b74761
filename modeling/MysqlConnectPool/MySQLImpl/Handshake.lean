import MysqlConnectPool.MySQLImpl.LifeCycle

/-! The handshake of a connection: while it goes on there is something to wait for, and an
operation that completes takes it further. -/

namespace MysqlConnectPool.MySQLConnector

open Library Handler System

/-- The environment in which no start call completes and leaves a handshake behind: neither the
connect that `init` starts nor a statement that is started before `Ok`. -/
def pendingStarts : Environment where
  event _ _ := true
  action _ _ _ := true
  turn _ _ := true
  reply s site call r :=
    match site, call with
    | .init, .mysql_get_socket => s.waitStatus_ ≠ 0 || r.number < 0
    | .startQuery, .mysql_real_query_start _ => 3 ≤ s.status_.rank || r.wait ≠ 0 || r.number = 0
    | .startStoreResult true, .mysql_store_result_start => 3 ≤ s.status_.rank || r.wait ≠ 0
    | _, _ => true

theorem stable_rank (r : Nat) : Stable fun s => r ≤ s.status_.rank where
  waited _ _ h := h
  noted _ h := h
  executing _ _ h := h
  log _ _ _ h := h
  queued _ _ h := h
  interest _ _ _ h := h
  armed _ _ _ h := h
  cleared _ h := h
  accept _ _ h := h
  closed s _ _ h := Nat.le_trans h s.status_.rank_le_bad
  disconnected s _ h := Nat.le_trans h s.status_.rank_le_bad
  bad s h := Nat.le_trans h s.status_.rank_le_bad
  halted _ _ h := h

structure Handshaking (s : State) : Prop where
  nothingQueued : s.status_.rank < 3 → s.funcs_ = []
  waiting : s.status_.rank < 3 → s.eventDispatcherPtr_ ≠ none → s.waitStatus_ ≠ 0

theorem handshaking_of_rank {s : State} (h : 3 ≤ s.status_.rank) : Handshaking s :=
  ⟨fun hs => absurd h (Nat.not_le_of_lt hs), fun hs => absurd h (Nat.not_le_of_lt hs)⟩

theorem handshaking_of_wait {s : State} (hf : s.funcs_ = []) (hw : s.waitStatus_ ≠ 0) :
    Handshaking s :=
  ⟨fun _ => hf, fun _ _ => hw⟩

section Run

variable {cfg : Config} {s t : State} {fuel : Nat}

theorem handshaking_over {α : Type} {m : M α}
    (h : wp m (fun _ t => 3 ≤ t.status_.rank) (fun t => 3 ≤ t.status_.rank ∧ Halted t) s) :
    wp m (fun _ => Handshaking) Halted s :=
  wp_mono h (fun _ _ ht => handshaking_of_rank ht) (fun _ ht => ht.2)

theorem setEventDispatcher_handshaking (h : Handshaking s) :
    wp setEventDispatcher (fun _ => Handshaking) Halted s :=
  wp_setEventDispatcher_end
    (fun _ hd _ => ⟨h.nothingQueued, fun hs _ => h.waiting hs (hd ▸ Option.some_ne_none _)⟩)
    (fun _ _ _ _ => halted_halted _ _) (fun _ => halted_halted _ _)

theorem startQuery_handshaking (hs : s.status_.rank < 3) (hf : s.funcs_ = []) :
    wp (startQuery cfg pendingStarts) (fun _ => Handshaking) Halted s := by
  refine wp_startQuery (fun _ => halted_halted _ _) (fun r _ _ h0 => handshaking_of_wait hf h0)
    (fun r _ hr h0 herr => ?_) (fun r _ _ _ _ => ?_)
  · have hanswer : ¬s.status_.rank < 3 ∨ r.wait ≠ 0 ∨ r.number = 0 := by
      simpa [pendingStarts, or_assoc] using hr
    rcases hanswer.resolve_left (not_not.mpr hs) with hw | hn
    · exact absurd h0 hw
    · exact absurd hn herr
  · have hanswer : ∀ r', pendingStarts.reply (((s.waited r).executing .RealQuery).executing
        .StoreResult) (.startStoreResult true) .mysql_store_result_start r' = true →
        r'.wait ≠ 0 := by
      intro r' hr'
      have hr' : ¬s.status_.rank < 3 ∨ r'.wait ≠ 0 := by
        simpa [pendingStarts, State.executing, State.waited] using hr'
      exact hr'.resolve_left (not_not.mpr hs)
    exact wp_startStoreResult (fun _ => halted_halted _ _)
      (fun r' _ _ h0 => handshaking_of_wait hf h0)
      (fun r' _ hr' h0 _ => absurd h0 (hanswer r' hr')) (fun r' _ hr' h0 => absurd h0 (hanswer r' hr'))

theorem perform_handshaking {origin : Option Callback} (a : Action) (h : Handshaking s) :
    wp (perform cfg pendingStarts origin a) (fun _ => Handshaking) Halted s := by
  by_cases hs : s.status_.rank < 3
  · refine wp_perform (fun statement _ _ => ?_) (fun _ _ => ?_)
    · refine wp_execSqlInLoop (halted_halted _ _) (fun sql_ _ _ => ?_)
      refine wp_mono (Q := fun _ => Handshaking) ?_
        (fun _ _ ht => setEventDispatcher_handshaking ⟨ht.nothingQueued, ht.waiting⟩)
        (fun _ ht => ht)
      exact startQuery_handshaking (s := s.accept sql_) hs (h.nothingQueued hs)
    · exact wp_disconnect (fun _ => handshaking_of_rank (Nat.le_succ 3)) (fun _ => halted_halted _ _)
  · exact handshaking_over ((stable_rank 3).perform a (Nat.not_lt.mp hs))

theorem callUser_handshaking {cb : Callback} (h : Handshaking s) :
    wp (callUser cfg pendingStarts cb) (fun _ => Handshaking) Halted s :=
  wp_callUser (fun a _ ht => perform_handshaking a ht) (fun _ => h)

theorem handleClosed_handshaking :
    wp (handleClosed cfg pendingStarts) (fun _ => Handshaking) Halted s :=
  wp_handleClosed (fun hbad => handshaking_of_rank (by rw [hbad]; decide))
    (fun _ _ => halted_halted _ _)
    (fun _ _ => handshaking_over ((stable_rank 3).callUser (Nat.le_succ 3)))

theorem becomeOk_handshaking : wp (becomeOk cfg pendingStarts) (fun _ => Handshaking) Halted s := by
  have hok : 3 ≤ ((s.setStatus .Ok).log .ok).status_.rank := Nat.le_refl 3
  exact handshaking_over (wp_becomeOk (wp_mono ((stable_rank 3).callUser hok)
    (fun _ _ ht => (stable_rank 3).setEventDispatcher ht) (fun _ ht => ht)))

theorem characterSetDone_handshaking {err : Int} :
    wp (characterSetDone cfg pendingStarts err) (fun _ => Handshaking) Halted s :=
  wp_characterSetDone (fun _ => halted_halted _ _) (fun _ => halted_halted _ _)
    (fun _ => handleClosed_handshaking) (fun _ => becomeOk_handshaking)

theorem continueSetCharacterSet_handshaking {status : Wait} (hf : s.funcs_ = []) :
    wp (continueSetCharacterSet cfg pendingStarts status) (fun _ => Handshaking) Halted s :=
  wp_continueSetCharacterSet (fun _ => halted_halted _ _)
    (fun _ _ h0 => setEventDispatcher_handshaking (handshaking_of_wait hf h0))
    (fun _ _ _ => characterSetDone_handshaking)

theorem startSetCharacterSet_handshaking (hf : s.funcs_ = []) :
    wp (startSetCharacterSet cfg pendingStarts) (fun _ => Handshaking) Halted s :=
  wp_startSetCharacterSet (fun _ => halted_halted _ _)
    (fun _ _ h0 => setEventDispatcher_handshaking (handshaking_of_wait hf h0))
    (fun _ _ _ => characterSetDone_handshaking)

theorem continueConnect_handshaking {site : Site} {status : Wait} (hf : s.funcs_ = []) :
    wp (continueConnect cfg pendingStarts site status) (fun _ => Handshaking) Halted s :=
  wp_continueConnect (fun _ => halted_halted _ _)
    (fun _ _ h0 => setEventDispatcher_handshaking (handshaking_of_wait hf h0))
    (fun _ _ _ => halted_halted _ _) (fun _ _ _ => handleClosed_handshaking)
    (fun _ _ _ => becomeOk_handshaking) (fun _ _ _ => startSetCharacterSet_handshaking hf)

theorem init_handshaking (h : Handshaking s) (hs : s.status_ = .None)
    (hd : s.eventDispatcherPtr_ = none) :
    wp (init cfg pendingStarts) (fun _ => Handshaking) Halted s := by
  have hf : s.funcs_ = [] := h.nothingQueued (by rw [hs]; decide)
  have hfail : ∀ r, wp (failInit cfg pendingStarts) (fun _ => Handshaking) Halted
      (s.connecting r) := fun r =>
    wp_failInit (fun _ => halted_halted _ _)
      (callUser_handshaking ⟨fun _ => hf, fun _ hne => absurd hd hne⟩)
  refine wp_init (fun _ => halted_halted _ _) (fun r _ _ => hfail r) (fun r _ _ _ _ => hfail r)
    (fun r _ ⟨fd, hreply, hfd⟩ => setEventDispatcher_handshaking (handshaking_of_wait hf ?_))
  have hanswer : (s.connecting r).waitStatus_ ≠ 0 ∨ fd.number < 0 := by
    simpa only [pendingStarts, Bool.or_eq_true, decide_eq_true_eq] using hreply
  exact hanswer.resolve_right (Int.not_lt.mpr hfd)

theorem handleTimeout_handshaking (h : Handshaking s) :
    wp (handleTimeout cfg pendingStarts) (fun _ => Handshaking) Halted s :=
  wp_handleTimeout
    (fun _ _ hs => continueConnect_handshaking (h.nothingQueued (by rw [hs]; decide)))
    (fun _ hs => continueSetCharacterSet_handshaking (h.nothingQueued (by rw [hs]; decide)))
    (fun _ _ => h)

theorem handleEvent_handshaking {pollIn pollOut pollPri : Bool} (h : Handshaking s) :
    wp (handleEvent cfg pendingStarts fuel pollIn pollOut pollPri) (fun _ => Handshaking) Halted s :=
  wp_handleEvent
    (fun _ _ hs => continueConnect_handshaking (h.nothingQueued (by rw [hs]; decide)))
    (fun _ hs => continueSetCharacterSet_handshaking (h.nothingQueued (by rw [hs]; decide)))
    (fun _ hs => handshaking_over ((stable_rank 3).handleCmd (by rw [hs]; decide))) (fun _ => h)

theorem handle_handshaking (l : LoopEvent) (hlife : Life 0 s) (h : Handshaking s) :
    wp (handle cfg pendingStarts fuel l) (fun _ => Handshaking) Halted s := by
  refine wp_handle (fun _ hs => init_handshaking h hs (hlife.fresh hs).2)
    (fun _ _ _ _ _ => handleEvent_handshaking h) (fun f rest _ hf => ?_)
    (fun n _ _ => handleTimeout_handshaking ⟨h.nothingQueued, h.waiting⟩)
    (fun a _ => perform_handshaking a h)
  have hs : 3 ≤ s.status_.rank :=
    Nat.not_lt.mp fun hlt => List.cons_ne_nil f rest (hf ▸ h.nothingQueued hlt)
  exact wp_mono ((stable_rank 3).runFunc f (s := s.running f rest) hs)
    (fun _ _ ht => handshaking_of_rank ht) (fun _ ht => ht.2)

theorem reachable_handshaking (h : (system cfg pendingStarts).Reachable s)
    (hrun : s.stopped = none) : Handshaking s := by
  have hinv : Life 0 s ∧ (Handshaking s ∨ Halted s) := by
    refine h.invariant (I := fun t => Life 0 t ∧ (Handshaking t ∨ Halted t)) ?_ ?_
    · rintro t rfl
      exact ⟨Life.init, Or.inl ⟨fun _ => rfl, fun _ hd => absurd rfl hd⟩⟩
    · intro t l u ⟨hlife, ht⟩ hst
      refine ⟨hlife.step hst, ?_⟩
      rcases ht with ht | ht
      · exact step_inv (fun fuel _ => handle_handshaking l.1 hlife ht) hst
      · obtain ⟨⟨hnone, _⟩, _⟩ := Option.ite_none_right_eq_some.mp hst
        exact absurd (Option.isNone_iff_eq_none.mp hnone) ht
  exact hinv.2.resolve_right (not_not.mpr hrun)

end Run

/-- The answers with which an operation of the handshake completes, and the status to which
they take the connection: the answers to a continue call, to `mysql_errno` while connecting, and
to the start call for the character set. -/
inductive Advances (cfg : Config) : ConnectStatus → List Input → ConnectStatus → Prop
  | connect (r e : Reply) (is : List Input) : cfg.characterSetEmpty = true → r.wait = 0 →
    (r.ret ≠ none ∨ e.number = 0) → Advances cfg .Connecting (.reply r :: .reply e :: is) .Ok
  | connectThenWait (r e c : Reply) (is : List Input) : cfg.characterSetEmpty = false →
    r.wait = 0 → (r.ret ≠ none ∨ e.number = 0) → c.wait ≠ 0 →
    Advances cfg .Connecting (.reply r :: .reply e :: .reply c :: is) .SettingCharacterSet
  | connectThenSet (r e c : Reply) (is : List Input) : cfg.characterSetEmpty = false →
    r.wait = 0 → (r.ret ≠ none ∨ e.number = 0) → c.wait = 0 → c.number = 0 →
    Advances cfg .Connecting (.reply r :: .reply e :: .reply c :: is) .Ok
  | set (c : Reply) (is : List Input) : c.wait = 0 → c.number = 0 →
    Advances cfg .SettingCharacterSet (.reply c :: is) .Ok

/-- The connection has come to `st`, through `okCallback_` if that is `Ok`. -/
structure Reached (st : ConnectStatus) (s : State) : Prop where
  rank : st.rank ≤ s.status_.rank
  ok : st = .Ok → .ok ∈ s.trace

theorem stable_reached (st : ConnectStatus) : Stable (Reached st) where
  waited _ _ h := ⟨h.rank, h.ok⟩
  noted _ h := ⟨h.rank, h.ok⟩
  executing _ _ h := ⟨h.rank, h.ok⟩
  log _ _ _ h := ⟨h.rank, fun hst => List.mem_append_left _ (h.ok hst)⟩
  queued _ _ h := ⟨h.rank, h.ok⟩
  interest _ _ _ h := ⟨h.rank, h.ok⟩
  armed _ _ _ h := ⟨h.rank, h.ok⟩
  cleared _ h := ⟨h.rank, h.ok⟩
  accept _ _ h := ⟨h.rank, fun hst => List.mem_append_left _ (h.ok hst)⟩
  closed _ _ _ h :=
    ⟨st.rank_le_bad, fun hst => List.mem_append_left _ (List.mem_append_left _ (h.ok hst))⟩
  disconnected _ _ h := ⟨st.rank_le_bad, fun hst => List.mem_append_left _ (h.ok hst)⟩
  bad _ h := ⟨st.rank_le_bad, fun hst => List.mem_append_left _ (h.ok hst)⟩
  halted _ _ h := ⟨h.rank, h.ok⟩

section Advance

variable {cfg : Config} {env : Environment} {s t : State} {is : List Input} {st : ConnectStatus}

theorem wp_run_reached {m : M Unit}
    (h : wp m (fun _ => Reached st) (fun t => Reached st t ∧ Halted t) s)
    (hr : m.run s is = some t) : Reached st t :=
  (wp_run h hr).elim (fun ⟨_, ht⟩ => ht) fun ht => ht.1

theorem becomeOk_reached :
    wp (becomeOk cfg env) (fun _ => Reached .Ok) (fun t => Reached .Ok t ∧ Halted t) s := by
  have hok : Reached .Ok ((s.setStatus .Ok).log .ok) :=
    ⟨Nat.le_refl _, fun _ => List.mem_append_right _ (List.mem_singleton_self _)⟩
  exact wp_becomeOk (wp_mono ((stable_reached .Ok).callUser hok)
    (fun _ _ ht => (stable_reached .Ok).setEventDispatcher ht) (fun _ ht => ht))

theorem continueSetCharacterSet_reached {status : Wait} (h : Advances cfg .SettingCharacterSet is st)
    (hptr : s.mysqlPtr_ = true) (hr : (continueSetCharacterSet cfg env status).run s is = some t) :
    Reached st t := by
  cases h with
  | set c is h0 hnumber =>
    rw [continueSetCharacterSet, run_handshake_then hptr, if_pos h0] at hr
    obtain ⟨_, hr⟩ := Option.ite_none_right_eq_some.mp hr
    rw [characterSetDone, if_neg (not_not.mpr hnumber)] at hr
    exact wp_run_reached becomeOk_reached hr

theorem run_continueConnect {site : Site} {status : Wait} {r e : Reply} (hptr : s.mysqlPtr_ = true)
    (h0 : r.wait = 0) (hok : r.ret ≠ none ∨ e.number = 0)
    (hr : (continueConnect cfg env site status).run s (.reply r :: .reply e :: is) = some t) :
    (if cfg.characterSetEmpty then becomeOk cfg env else startSetCharacterSet cfg env).run
      (s.asked r) is = some t := by
  have hret : ¬(r.ret.isNone = true ∧ e.number ≠ 0) := fun ⟨hnone, hne⟩ =>
    hok.elim (fun h => h (Option.isNone_iff_eq_none.mp hnone)) hne
  rw [continueConnect, run_handshake_then hptr, if_pos h0] at hr
  obtain ⟨_, hr⟩ := Option.ite_none_right_eq_some.mp hr
  rw [run_mysql_then (s := s.asked r) hptr, if_neg hret] at hr
  exact (Option.ite_none_right_eq_some.mp hr).2

theorem continueConnect_reached {site : Site} {status : Wait} (h : Advances cfg .Connecting is st)
    (hptr : s.mysqlPtr_ = true) (hr : (continueConnect cfg env site status).run s is = some t) :
    Reached st t := by
  cases h with
  | connect r e is hempty h0 hok =>
    have hnext := run_continueConnect hptr h0 hok hr
    rw [hempty, if_pos rfl] at hnext
    exact wp_run_reached becomeOk_reached hnext
  | connectThenWait r e c is hempty h0 hok hc =>
    have hnext := run_continueConnect hptr h0 hok hr
    rw [hempty, if_neg Bool.false_ne_true, startSetCharacterSet,
      run_handshake_then (s := s.asked r) hptr, if_neg hc] at hnext
    have hset : Reached .SettingCharacterSet
        (((s.asked r).asked c).setStatus .SettingCharacterSet) := ⟨Nat.le_refl _, nofun⟩
    exact wp_run_reached (wp_update_bind.mpr ((stable_reached _).setEventDispatcher hset))
      (Option.ite_none_right_eq_some.mp hnext).2
  | connectThenSet r e c is hempty h0 hok hc hnumber =>
    have hnext := run_continueConnect hptr h0 hok hr
    rw [hempty, if_neg Bool.false_ne_true, startSetCharacterSet,
      run_handshake_then (s := s.asked r) hptr, if_pos hc, characterSetDone,
      if_neg (not_not.mpr hnumber)] at hnext
    exact wp_run_reached becomeOk_reached (Option.ite_none_right_eq_some.mp hnext).2

def LoopEvent.continues : LoopEvent → Bool
  | .fdEvent _ _ _ | .timeout _ => true
  | _ => false

theorem handleTimeout_reached (hptr : s.mysqlPtr_ = true) (h : Advances cfg s.status_ is st)
    (hr : (handleTimeout cfg env).run s is = some t) : Reached st t := by
  rw [handleTimeout, run_state_then] at hr
  cases hs : s.status_ with
  | Connecting =>
    rw [hs] at h hr
    exact continueConnect_reached h hptr hr
  | SettingCharacterSet =>
    rw [hs] at h hr
    exact continueSetCharacterSet_reached h hptr hr
  | None | Ok | Bad =>
    rw [hs] at h
    cases h

theorem handleEvent_reached {fuel : Nat} {pollIn pollOut pollPri : Bool} (hptr : s.mysqlPtr_ = true)
    (h : Advances cfg s.status_ is st)
    (hr : (handleEvent cfg env fuel pollIn pollOut pollPri).run s is = some t) : Reached st t := by
  rw [handleEvent, run_state_then] at hr
  cases hs : s.status_ with
  | Connecting =>
    rw [hs] at h hr
    exact continueConnect_reached h hptr hr
  | SettingCharacterSet =>
    rw [hs] at h hr
    exact continueSetCharacterSet_reached h hptr hr
  | None | Ok | Bad =>
    rw [hs] at h
    cases h

theorem step_reached {l : LoopEvent} (hl : l.continues = true) (hptr : s.mysqlPtr_ = true)
    (h : Advances cfg s.status_ is st) (hst : step cfg env s (l, is) = some t) : Reached st t := by
  obtain ⟨_, hr⟩ := Option.ite_none_right_eq_some.mp hst
  cases l with
  | fdEvent pollIn pollOut pollPri =>
    rw [handle, run_guard_then] at hr
    exact handleEvent_reached hptr h (Option.ite_none_right_eq_some.mp hr).2
  | timeout n =>
    rw [handle, run_guard_then] at hr
    exact handleTimeout_reached (s := { s with timers := s.timers.erase n }) hptr h
      (Option.ite_none_right_eq_some.mp hr).2
  | init | func | user => cases hl

end Advance

/-- When no start call completes early, a handshake that goes on has something to wait for, and an
operation that completes takes it on, to `Ok` only through `okCallback_`. -/
theorem handshake_waits (cfg : Config) {s : State} (h : (system cfg pendingStarts).Reachable s)
    (hrun : s.stopped = none) (hd : s.eventDispatcherPtr_ ≠ none) :
    (s.status_ = .Connecting ∨ s.status_ = .SettingCharacterSet → s.waitStatus_ ≠ 0) ∧
      (s.status_ = .Ok → .ok ∈ s.trace) ∧
      ∀ l is st t, LoopEvent.continues l = true → Advances cfg s.status_ is st →
        step cfg pendingStarts s (l, is) = some t → st.rank ≤ t.status_.rank ∧
          (st = .Ok → .ok ∈ t.trace) := by
  have hlife : Life 0 s := reachable_life h
  refine ⟨fun hs => ?_, fun hs => ?_, fun l is st t hl hadvances hst => ?_⟩
  · exact (reachable_handshaking h hrun).waiting (by rcases hs with hs | hs <;> rw [hs] <;> decide) hd
  · have hok : Event.ok ∈ s.calls := by
      rw [hlife.ok hs]
      exact List.mem_singleton_self _
    exact List.mem_of_mem_filter hok
  · have hptr : s.mysqlPtr_ = true := by
      refine Bool.of_not_eq_false fun hp => ?_
      rw [hlife.handle hp] at hadvances
      cases hadvances
    have hreached := step_reached hl hptr hadvances hst
    exact ⟨hreached.rank, hreached.ok⟩

theorem handshake_waits_connected :
    ∃ s t, (system ⟨true, true, List.flatMap escapeByte⟩ pendingStarts).run init₀
        (connected.take 1) = some s ∧ s.waitStatus_ ≠ 0 ∧
      step ⟨true, true, List.flatMap escapeByte⟩ pendingStarts s
        (.fdEvent true false false, [.reply { ret := some 1 }, .reply {}, .turn []]) = some t ∧
      .ok ∈ t.trace := by
  obtain ⟨s, hrun, hs⟩ := exists_run (system ⟨true, true, List.flatMap escapeByte⟩ pendingStarts) init₀
    (connected.take 1) (fun s => s.stopped = none ∧ s.status_ = .Connecting ∧
      s.eventDispatcherPtr_ ≠ none ∧
      (step ⟨true, true, List.flatMap escapeByte⟩ pendingStarts s (.fdEvent true false false,
        [.reply { ret := some 1 }, .reply {}, .turn []])).isSome) (by decide)
  obtain ⟨hstopped, hstatus, hd, hsome⟩ := of_decide_eq_true hs
  obtain ⟨t, ht⟩ := Option.isSome_iff_exists.mp hsome
  have hwaits := handshake_waits _ (System.Reachable.run (System.Reachable.init rfl) hrun) hstopped hd
  have hadvances : Advances ⟨true, true, List.flatMap escapeByte⟩ s.status_
      [.reply { ret := some 1 }, .reply {}, .turn []] .Ok := by
    rw [hstatus]
    exact .connect _ _ _ rfl rfl (Or.inr rfl)
  exact ⟨s, t, hrun, hwaits.1 (Or.inl hstatus), ht, (hwaits.2.2 _ _ _ _ rfl hadvances ht).2 rfl⟩

def connectedAtOnce : List (LoopEvent × List Input) :=
  [(.init, [.reply { ret := some 1 }, .reply {}, .reply { number := 5 }])]

/-- The connection is made, and nothing will ever happen to it: nothing is waited for, queued or
timed. -/
theorem handshake_stuck :
    ∃ s, (system ⟨true, true, List.flatMap escapeByte⟩ anything).run init₀ connectedAtOnce = some s ∧
      s.stopped = none ∧ s.eventDispatcherPtr_ = some ⟨false, false⟩ ∧ s.status_ = .Connecting ∧
      s.waitStatus_ = 0 ∧ s.trace = [.status .Connecting] ∧ s.funcs_ = [] ∧ s.timers = [] := by
  obtain ⟨s, hrun, hs⟩ := exists_run (system ⟨true, true, List.flatMap escapeByte⟩ anything) init₀
    connectedAtOnce (fun s => s.stopped = none ∧ s.eventDispatcherPtr_ = some ⟨false, false⟩ ∧
      s.status_ = .Connecting ∧ s.waitStatus_ = 0 ∧ s.trace = [.status .Connecting] ∧
      s.funcs_ = [] ∧ s.timers = []) (by decide)
  exact ⟨s, hrun, of_decide_eq_true hs⟩

end MysqlConnectPool.MySQLConnector
