import MysqlConnectPool.MySQLImpl.MySQLConnectorRules
import MysqlConnectPool.MySQLImpl.PlaceholderLexing

/-! Error reports where `ABSL_LOG(FATAL)` terminates the process. -/

namespace MysqlConnectPool.MySQLConnector

open Library Handler System

def NoException (trace : List Event) : Prop := ∀ k message sql_, .exception k message sql_ ∉ trace

theorem NoException.log {trace : List Event} (h : NoException trace) {e : Event}
    (he : ∀ k message sql_, e ≠ .exception k message sql_) : NoException (trace ++ [e]) := by
  intro k message sql_ hmem
  rcases List.mem_append.mp hmem with hold | hnew
  · exact h k message sql_ hold
  · exact he k message sql_ (List.mem_singleton.mp hnew).symm

structure Awaiting (s : State) : Prop where
  noException : NoException s.trace
  queued : ∀ k, .reported k ∈ s.trace → .outputError k ∈ s.funcs_

structure Ended (s : State) : Prop where
  noException : NoException s.trace
  stopped : s.stopped ≠ none

def Event.isPlain : Event → Bool
  | .exception .. | .reported _ => false
  | _ => true

theorem Awaiting.log {s t : State} (h : Awaiting s) {e : Event} (he : e.isPlain = true)
    (htrace : t.trace = s.trace ++ [e]) (hfuncs : t.funcs_ = s.funcs_) : Awaiting t where
  noException := by
    rw [htrace]
    apply h.noException.log
    rintro k message sql_ rfl
    cases he
  queued k hk := by
    rw [htrace] at hk
    rw [hfuncs]
    rcases List.mem_append.mp hk with hold | hnew
    · exact h.queued k hold
    · obtain rfl := List.mem_singleton.mp hnew
      cases he

theorem Awaiting.setStatus {s : State} (h : Awaiting s) (status_ : ConnectStatus) :
    Awaiting (s.setStatus status_) := h.log (e := .status status_) rfl rfl rfl

theorem Awaiting.logWorking {s : State} (h : Awaiting s) {e : Nat → Event}
    (he : (e s.accepted).isPlain = true) : Awaiting (s.logWorking e) := by
  unfold State.logWorking
  split
  · exact h.log he rfl rfl
  · exact h

theorem NoException.report {s : State} (h : NoException s.trace) :
    NoException (s.logWorking .reported).trace := by
  unfold State.logWorking
  dsimp only
  split
  · exact h.log (by simp)
  · exact h

theorem Awaiting.keep {s t : State} (h : Awaiting s) (htrace : t.trace = s.trace)
    (hfuncs : t.funcs_ = s.funcs_) : Awaiting t where
  noException := htrace ▸ h.noException
  queued k hk := hfuncs ▸ h.queued k (htrace ▸ hk)

theorem Awaiting.asked {s : State} (h : Awaiting s) (r : Reply) : Awaiting (s.asked r) :=
  h.keep rfl rfl

theorem Awaiting.queued_append {s : State} (h : Awaiting s) (f : Func) : Awaiting (s.queued f) where
  noException := h.noException
  queued k hk := List.mem_append_left _ (h.queued k hk)

theorem Awaiting.report {s t : State} (h : Awaiting s) (htrace : t.trace = (s.logWorking .reported).trace)
    (hfuncs : t.funcs_ = s.funcs_ ++ [.outputError s.accepted]) : Awaiting t where
  noException := htrace ▸ h.noException.report
  queued j hj := by
    rw [htrace] at hj
    rw [hfuncs]
    by_cases hw : s.isWorking_ = true
    · rw [State.logWorking, if_pos hw] at hj
      rcases List.mem_append.mp hj with hold | hnew
      · exact List.mem_append_left _ (h.queued j hold)
      · obtain rfl : j = s.accepted := by simpa using hnew
        simp
    · rw [State.logWorking, if_neg hw] at hj
      exact List.mem_append_left _ (h.queued j hj)

section Terminating

variable {cfg : Config} {env : Environment} {s : State}

theorem setEventDispatcher_awaits (h : Awaiting s) :
    wp setEventDispatcher (fun _ => Awaiting) Ended s :=
  wp_setEventDispatcher_end (fun _ _ _ => h.keep rfl rfl)
    (fun _ _ _ _ => ⟨h.noException, Option.some_ne_none _⟩)
    (fun _ => ⟨h.noException, Option.some_ne_none _⟩)

theorem startStoreResult_awaits {direct : Func → M Unit}
    (herror : ∀ k t, NoException t.trace → wp (direct (.outputError k)) (fun _ => Awaiting) Ended t)
    (hresult : ∀ k ret t, Awaiting t → wp (direct (.getResult k ret)) (fun _ => Awaiting) Ended t)
    {queue : Bool} (h : Awaiting s) :
    wp (startStoreResult env direct queue) (fun _ => Awaiting) Ended s := by
  refine wp_startStoreResult (fun _ => ⟨h.noException, Option.some_ne_none _⟩)
    (fun _ _ _ _ => h.keep rfl rfl) (fun r _ _ _ _ => ⟨fun _ => ?_, fun _ => ?_⟩)
    (fun r _ _ _ => ?_)
  · exact h.report rfl rfl
  · exact herror _ _ (NoException.report (s := (s.waited r).executing .None) h.noException)
  · have hr : Awaiting ((s.waited r).executing .None) := h.keep rfl rfl
    have hstored := hr.logWorking (e := fun k => .stored k r.ret true) rfl
    exact ⟨fun _ => hstored.queued_append _, fun _ => hresult _ _ _ hstored⟩

variable (hcfg : cfg.fatalReturns = false)

include hcfg

theorem outputError_terminates {Q : Unit → State → Prop} (h : NoException s.trace) :
    wp (outputError cfg env) Q Ended s := by
  unfold outputError
  rw [wp_disableAll]
  refine ⟨fun _ => ?_, fun _ => ⟨h, Option.some_ne_none _⟩⟩
  rw [wp_mysql]
  refine ⟨fun _ _ _ => ?_, fun _ => ⟨h, Option.some_ne_none _⟩⟩
  rw [wp_fatal]
  exact ⟨fun ht => absurd (hcfg.symm.trans ht) Bool.false_ne_true,
    fun _ => ⟨h, Option.some_ne_none _⟩⟩

theorem failCmd_terminates {Q : Unit → State → Prop} (h : Awaiting s) :
    wp (failCmd cfg env) Q Ended s :=
  wp_failCmd (fun ht => absurd (hcfg.symm.trans ht) Bool.false_ne_true)
    (fun _ => ⟨NoException.report (s := s.executing .None) h.noException, Option.some_ne_none _⟩)

theorem execSqlInLoop_awaits {statement : Statement} (h : Awaiting s) :
    wp (execSqlInLoop cfg env statement) (fun _ => Awaiting) Ended s := by
  refine wp_execSqlInLoop ⟨h.noException, Option.some_ne_none _⟩ (fun sql_ _ _ => ?_)
  have haccept : Awaiting (s.accept sql_) := h.log rfl rfl rfl
  refine wp_mono (Q := fun _ => Awaiting) ?_
    (fun _ _ ht => setEventDispatcher_awaits (ht.keep rfl rfl)) (fun _ ht => ht)
  refine wp_startQuery (fun _ => ⟨haccept.noException, Option.some_ne_none _⟩)
    (fun _ _ _ _ => haccept.keep rfl rfl) (fun r _ _ _ _ => ⟨fun ht => ?_, fun _ => ?_⟩)
    (fun r _ _ _ _ => ?_)
  · exact absurd (hcfg.symm.trans ht) Bool.false_ne_true
  · exact ⟨NoException.report (s := ((s.accept sql_).waited r).executing .RealQuery)
      haccept.noException, Option.some_ne_none _⟩
  · exact startStoreResult_awaits (fun _ _ _ => wp_stuck) (fun _ _ _ _ => wp_stuck)
      (haccept.keep rfl rfl)

theorem perform_awaits {origin : Option Callback} (a : Action) (h : Awaiting s) :
    wp (perform cfg env origin a) (fun _ => Awaiting) Ended s :=
  wp_perform (fun _ _ _ => execSqlInLoop_awaits hcfg h)
    (fun _ _ => wp_disconnect (fun _ => (h.setStatus .Bad).keep rfl rfl)
      (fun _ => ⟨(h.setStatus .Bad).noException, Option.some_ne_none _⟩))

theorem callUser_awaits {cb : Callback} (h : Awaiting s) :
    wp (callUser cfg env cb) (fun _ => Awaiting) Ended s :=
  wp_callUser (fun a _ ht => perform_awaits hcfg a ht) (fun _ => h)

theorem handleClosed_awaits (h : Awaiting s) :
    wp (handleClosed cfg env) (fun _ => Awaiting) Ended s :=
  wp_handleClosed (fun _ => h)
    (fun _ _ => ⟨(h.setStatus .Bad).noException, Option.some_ne_none _⟩)
    (fun _ _ => callUser_awaits hcfg ((h.setStatus .Bad).log rfl rfl rfl))

theorem getResult_awaits (fuel : Nat) (ret : Option Nat) (h : Awaiting s) :
    wp (getResult cfg env fuel ret) (fun _ => Awaiting) Ended s := by
  induction fuel generalizing ret s with
  | zero => exact wp_stuck
  | succ fuel ih =>
    refine wp_getResult (fun _ => ⟨h.noException, Option.some_ne_none _⟩) (fun _ _ => h)
      (fun _ _ => ⟨h.noException, Option.some_ne_none _⟩) (fun k _ _ _ => ?_)
    have hcall : Awaiting (s.log (.callback k ret)) := h.log rfl rfl rfl
    refine wp_mono (callUser_awaits hcfg hcall) (fun _ t ht => ?_) (fun _ ht => ht)
    refine ⟨fun _ => ⟨ht.noException, Option.some_ne_none _⟩, fun _ _ _ _ => ?_, fun _ => ?_⟩
    · exact callUser_awaits hcfg (ht.log rfl rfl rfl)
    · refine wp_startNextResult (fun _ => ⟨ht.noException, Option.some_ne_none _⟩)
        (fun _ _ _ _ => ht.keep rfl rfl) (fun _ _ _ _ => ?_) (fun _ _ _ _ => ?_)
      · exact failCmd_terminates hcfg (ht.keep rfl rfl)
      · exact startStoreResult_awaits (fun _ _ hu => outputError_terminates hcfg hu)
          (fun _ ret _ hu => ih ret hu) (ht.keep rfl rfl)

theorem handleCmd_awaits {fuel : Nat} {status : Wait} (h : Awaiting s) :
    wp (handleCmd cfg env fuel status) (fun _ => Awaiting) Ended s := by
  have hended : ∀ why, Ended (s.halted why) :=
    fun why => ⟨h.noException, Option.some_ne_none why⟩
  refine wp_handleCmd (fun _ call => ?_) (fun _ => ?_) (fun _ _ => handleClosed_awaits hcfg h)
    (fun _ _ => h)
  · refine wp_continueQuery (fun _ => hended _) (fun _ _ _ => ?_) (fun _ _ _ _ => ?_)
      (fun r _ _ _ => ?_)
    · exact setEventDispatcher_awaits (h.keep rfl rfl)
    · exact failCmd_terminates hcfg (h.keep rfl rfl)
    · have hr : Awaiting (s.waited r) := h.keep rfl rfl
      refine wp_mono ?_ (fun _ _ ht => setEventDispatcher_awaits ht) (fun _ ht => ht)
      exact startStoreResult_awaits (fun _ _ hu => outputError_terminates hcfg hu)
        (fun _ ret _ hu => getResult_awaits hcfg fuel ret hu) hr
  · refine wp_continueStoreResult (fun _ => hended _) (fun _ _ _ => ?_) (fun _ _ _ => ?_)
      (fun r _ _ => ?_)
    · exact setEventDispatcher_awaits (h.keep rfl rfl)
    · exact failCmd_terminates hcfg (h.keep rfl rfl)
    · have hr : Awaiting (s.waited r) := h.keep rfl rfl
      exact wp_mono (getResult_awaits hcfg fuel r.ret (hr.logWorking rfl))
        (fun _ _ ht => setEventDispatcher_awaits ht) (fun _ ht => ht)

theorem becomeOk_awaits (h : Awaiting s) : wp (becomeOk cfg env) (fun _ => Awaiting) Ended s :=
  wp_becomeOk (wp_mono (callUser_awaits hcfg ((h.setStatus .Ok).log rfl rfl rfl))
    (fun _ _ ht => setEventDispatcher_awaits ht) (fun _ ht => ht))

theorem characterSetDone_awaits {err : Int} (h : Awaiting s) :
    wp (characterSetDone cfg env err) (fun _ => Awaiting) Ended s :=
  wp_characterSetDone (fun _ => ⟨h.noException, Option.some_ne_none _⟩)
    (fun _ => ⟨h.noException, Option.some_ne_none _⟩) (fun _ => handleClosed_awaits hcfg h)
    (fun _ => becomeOk_awaits hcfg h)

theorem continueSetCharacterSet_awaits {status : Wait} (h : Awaiting s) :
    wp (continueSetCharacterSet cfg env status) (fun _ => Awaiting) Ended s :=
  wp_continueSetCharacterSet (fun _ => ⟨h.noException, Option.some_ne_none _⟩)
    (fun r _ _ => setEventDispatcher_awaits (h.asked r))
    (fun r _ _ => characterSetDone_awaits hcfg (h.asked r))

theorem continueConnect_awaits {site : Site} {status : Wait} (h : Awaiting s) :
    wp (continueConnect cfg env site status) (fun _ => Awaiting) Ended s := by
  refine wp_continueConnect (fun _ => ⟨h.noException, Option.some_ne_none _⟩)
    (fun r _ _ => setEventDispatcher_awaits (h.asked r))
    (fun r _ _ => ⟨(h.asked r).noException, Option.some_ne_none _⟩)
    (fun r _ _ => handleClosed_awaits hcfg (h.asked r))
    (fun r _ _ => becomeOk_awaits hcfg (h.asked r)) (fun r _ _ => ?_)
  have hr : Awaiting (s.asked r) := h.asked r
  exact wp_startSetCharacterSet (fun _ => ⟨hr.noException, Option.some_ne_none _⟩)
    (fun r' _ _ => setEventDispatcher_awaits ((hr.asked r').setStatus .SettingCharacterSet))
    (fun r' _ _ => characterSetDone_awaits hcfg (hr.asked r'))

theorem init_awaits (h : Awaiting s) : wp (init cfg env) (fun _ => Awaiting) Ended s := by
  have hfail : ∀ {t}, Awaiting t → wp (failInit cfg env) (fun _ => Awaiting) Ended t :=
    fun ht => wp_failInit (fun _ => ⟨ht.noException, Option.some_ne_none _⟩)
      (callUser_awaits hcfg (ht.log rfl rfl rfl))
  have hconnecting : ∀ r, Awaiting (s.connecting r) := fun r => (h.setStatus .Connecting).asked r
  exact wp_init (fun _ => ⟨(h.setStatus .Connecting).noException, Option.some_ne_none _⟩)
    (fun r _ _ => hfail (hconnecting r)) (fun r _ _ _ _ => hfail (hconnecting r))
    (fun r _ _ => setEventDispatcher_awaits ((hconnecting r).keep rfl rfl))

theorem runFunc_awaits {fuel : Nat} {f : Func} {rest : List Func} (h : Awaiting s)
    (hf : s.funcs_ = f :: rest) :
    wp (runFunc cfg env fuel f) (fun _ t => Awaiting { t with inFunc := false }) Ended
      (s.running f rest) := by
  have hrun : NoException (s.running f rest).trace := h.noException.log (by simp)
  cases f with
  | outputError k => exact outputError_terminates hcfg hrun
  | getResult k ret =>
    have hkeep : Awaiting (s.running (.getResult k ret) rest) := by
      refine ⟨hrun, fun j hj => ?_⟩
      have hold : .reported j ∈ s.trace := by simpa [State.running, State.log] using hj
      have hqueued : .outputError j ∈ .getResult k ret :: rest := hf ▸ h.queued j hold
      exact (List.mem_cons.mp hqueued).resolve_left (by simp)
    exact wp_mono (getResult_awaits hcfg fuel ret hkeep) (fun _ _ ht => ht.keep rfl rfl)
      (fun _ ht => ht)

theorem handle_awaits (fuel : Nat) (l : LoopEvent) (h : Awaiting s) :
    wp (handle cfg env fuel l) (fun _ => Awaiting) Ended s := by
  refine wp_handle (fun _ _ => init_awaits hcfg h) (fun _ _ _ _ _ => ?_)
    (fun f rest _ hf => runFunc_awaits hcfg h hf) (fun n _ _ => ?_)
    (fun a _ => perform_awaits hcfg a h)
  · exact wp_handleEvent (fun _ _ _ => continueConnect_awaits hcfg h)
      (fun _ _ => continueSetCharacterSet_awaits hcfg h) (fun _ _ => handleCmd_awaits hcfg h)
      (fun _ => h)
  · have hn : Awaiting { s with timers := s.timers.erase n } := h.keep rfl rfl
    exact wp_handleTimeout (fun _ _ _ => continueConnect_awaits hcfg hn)
      (fun _ _ => continueSetCharacterSet_awaits hcfg hn) (fun _ _ => hn)

end Terminating

def Event.isExceptionOf (k : Nat) : Event → Bool
  | .exception j .. => j = k
  | _ => false

/-- What a statement is owed whose step has failed: one exception with its text, the idle
callback, and a connection that takes or has taken the next statement. -/
structure Recovered (s : State) (k : Nat) : Prop where
  running : s.stopped = none
  exception_once : ∃ message sql_, .accepted k sql_ ∈ s.trace ∧
    s.trace.filter (Event.isExceptionOf k) = [.exception k message sql_]
  idle : .idle k ∈ s.trace
  ready : s.status_ = .Ok ∧ (s.isWorking_ = false ∨ k < s.accepted)

/-- Where `ABSL_LOG(FATAL)` terminates, no reported error of a statement ever leads to that:
the process has ended, or its end is queued. -/
theorem error_never_recovers (cfg : Config) (hcfg : cfg.fatalReturns = false) (env : Environment)
    {s : State} (h : (system cfg env).Reachable s) (k : Nat) (hk : .reported k ∈ s.trace) :
    ¬Recovered s k ∧ (s.stopped ≠ none ∨ .outputError k ∈ s.funcs_) := by
  have hinit : Awaiting init₀ :=
    ⟨fun _ _ _ => List.not_mem_nil, fun _ hmem => absurd hmem List.not_mem_nil⟩
  have hinv : Awaiting s ∨ Ended s :=
    reachable_inv hinit (fun _ ht => ht.stopped) (fun fuel l _ ht _ => handle_awaits hcfg fuel l ht) h
  have hnone : NoException s.trace := hinv.elim Awaiting.noException Ended.noException
  refine ⟨fun hrec => ?_, ?_⟩
  · obtain ⟨message, sql_, _, hfilter⟩ := hrec.exception_once
    have hmem : .exception k message sql_ ∈ s.trace.filter (Event.isExceptionOf k) := by
      rw [hfilter]
      exact List.mem_singleton_self _
    exact hnone k message sql_ (List.mem_filter.mp hmem).1
  · exact hinv.elim (fun ha => Or.inr (ha.queued k hk)) (fun he => Or.inl he.stopped)

def duplicateKey : List (LoopEvent × List Input) :=
  connected ++
    [(.user (.execSqlInLoop insertStatement),
        [.reply {}, .reply {}, .reply { number := 1062 }]),
      (.func, [.reply { number := 1062 }])]

theorem error_never_recovers_duplicateKey :
    ∃ s, (system ⟨false, true, List.flatMap escapeByte⟩ anything).run init₀ duplicateKey = some s ∧
      .reported 1 ∈ s.trace ∧ ¬Recovered s 1 := by
  obtain ⟨s, hrun, hs⟩ := exists_run (system ⟨false, true, List.flatMap escapeByte⟩ anything) init₀
    duplicateKey (fun s => .reported 1 ∈ s.trace) (by decide)
  have hmem : .reported 1 ∈ s.trace := by simpa using hs
  exact ⟨s, hrun, hmem, (error_never_recovers _ rfl anything
    (System.Reachable.run (System.Reachable.init rfl) hrun) 1 hmem).1⟩

/-- The statement is accepted on an `Ok` connection and the process is terminated. -/
theorem error_terminates :
    ∃ s, (system ⟨false, true, List.flatMap escapeByte⟩ anything).run init₀ duplicateKey = some s ∧
      s.status_ = .Ok ∧ .accepted 1 insertStatement.sql ∈ s.trace ∧ .reported 1 ∈ s.trace ∧
      s.stopped = some .fatal ∧ ¬Recovered s 1 := by
  obtain ⟨s, hrun, hs⟩ := exists_run (system ⟨false, true, List.flatMap escapeByte⟩ anything) init₀
    duplicateKey (fun s => s.status_ = .Ok ∧ .accepted 1 insertStatement.sql ∈ s.trace ∧
      .reported 1 ∈ s.trace ∧ s.stopped = some .fatal) (by decide)
  obtain ⟨hok, haccepted, hreported, hstopped⟩ := of_decide_eq_true hs
  exact ⟨s, hrun, hok, haccepted, hreported, hstopped, fun hrec => by
    have hrunning := hrec.running
    rw [hstopped] at hrunning
    cases hrunning⟩

end MysqlConnectPool.MySQLConnector
