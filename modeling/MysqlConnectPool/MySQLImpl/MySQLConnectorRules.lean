import MysqlConnectPool.MySQLImpl.MySQLConnector

/-! The weakest preconditions of the connector's primitive steps. -/

namespace MysqlConnectPool.MySQLConnector

open Library Handler

def State.halted (s : State) (why : Stop) : State := { s with stopped := some why }

variable {cfg : Config} {env : Environment} {α : Type} {s : State} {E : State → Prop}

section Bind

variable {Q : α → State → Prop}

theorem wp_useHandle {f : Unit → M α} :
    wp (useHandle >>= f) Q E s ↔
      (s.mysqlPtr_ = true → wp (f ()) Q E s) ∧ (s.mysqlPtr_ = false → E (s.halted .nullHandle)) := by
  simp only [useHandle, halt, bind_then, wp_state_bind, ite_then, pure_then, stop_then]
  cases s.mysqlPtr_ with
  | true => simp
  | false => simp [State.halted]

theorem wp_mysql {site : Site} {call : Call} {f : Reply → M α} :
    wp (mysql env site call >>= f) Q E s ↔
      (s.mysqlPtr_ = true → ∀ r, env.reply s site call r = true → wp (f r) Q E s) ∧
        (s.mysqlPtr_ = false → E (s.halted .nullHandle)) := by
  simp only [mysql, bind_then, wp_useHandle, wp_ask_bind]
  refine and_congr_left fun _ => imp_congr_right fun _ => ?_
  constructor
  · intro h r hr
    exact h (.reply r) r (by simp [hr])
  · intro h i r hi
    cases i with
    | reply r' =>
      obtain ⟨hr, rfl⟩ : env.reply s site call r' = true ∧ r' = r := by simpa using hi
      exact h r' hr
    | turn _ => cases hi

def State.waited (s : State) (r : Reply) : State :=
  { s with waitStatus_ := r.wait, waits := s.waits + 1 }

theorem wp_wait {site : Site} {call : Call} {f : Reply → M α} :
    wp (wait env site call >>= f) Q E s ↔
      (s.mysqlPtr_ = true → ∀ r, env.reply s site call r = true → wp (f r) Q E (s.waited r)) ∧
        (s.mysqlPtr_ = false → E (s.halted .nullHandle)) := by
  simp only [wait, bind_then, wp_mysql, wp_update_bind, pure_then, State.waited]

def State.asked (s : State) (r : Reply) : State := (s.waited r).noted

theorem wp_handshake {site : Site} {call : Call} {f : Reply → M α} :
    wp (handshake env site call >>= f) Q E s ↔
      (s.mysqlPtr_ = true → ∀ r, env.reply s site call r = true → wp (f r) Q E (s.asked r)) ∧
        (s.mysqlPtr_ = false → E (s.halted .nullHandle)) := by
  simp only [handshake, bind_then, wp_wait, wp_update_bind, pure_then]
  rfl

theorem run_mysql_then {site : Site} {call : Call} {f : Reply → M α} {r : Reply} {is : List Input}
    (hptr : s.mysqlPtr_ = true) :
    (mysql env site call >>= f).run s (.reply r :: is) =
      if env.reply s site call r then (f r).run s is else none := by
  have hmysql : (mysql env site call >>= f) s (.reply r :: is) =
      if env.reply s site call r then f r s is else .stuck := by
    simp only [mysql, useHandle, bind_then, ite_then, pure_then]
    change (if s.mysqlPtr_ then _ else _ : M α) s _ = _
    rw [if_pos hptr]
    change Handler.bind (ask _) f s (.reply r :: is) = _
    simp only [Handler.bind, ask]
    cases env.reply s site call r <;> rfl
  unfold run
  rw [hmysql]
  cases env.reply s site call r <;> rfl

theorem run_wait_then {site : Site} {call : Call} {f : Reply → M α} {r : Reply} {is : List Input}
    (hptr : s.mysqlPtr_ = true) :
    (wait env site call >>= f).run s (.reply r :: is) =
      if env.reply s site call r then (f r).run (s.waited r) is else none := by
  simp only [wait, bind_then, run_mysql_then hptr]
  rfl

theorem run_handshake_then {site : Site} {call : Call} {f : Reply → M α} {r : Reply}
    {is : List Input} (hptr : s.mysqlPtr_ = true) :
    (handshake env site call >>= f).run s (.reply r :: is) =
      if env.reply s site call r then (f r).run (s.asked r) is else none := by
  simp only [handshake, bind_then, run_wait_then hptr]
  rfl

theorem wp_failed {site : Site} {ret : Option Nat} {f : Bool → M α} :
    wp (failed env site ret >>= f) Q E s ↔
      (∀ x, ret = some x → wp (f false) Q E s) ∧
        (ret = none →
          (s.mysqlPtr_ = true → ∀ r, env.reply s site .mysql_errno r = true →
            wp (f (r.number ≠ 0)) Q E s) ∧
          (s.mysqlPtr_ = false → E (s.halted .nullHandle))) := by
  cases ret with
  | some x => simp [failed]
  | none => simp [failed, wp_mysql]

theorem wp_updateEvents {g : EventDispatcher → EventDispatcher} {f : Unit → M α} :
    wp (updateEvents g >>= f) Q E s ↔
      (∀ d, s.eventDispatcherPtr_ = some d →
        wp (f ()) Q E { s with eventDispatcherPtr_ := some (g d) }) ∧
      (s.eventDispatcherPtr_ = none → E (s.halted .nullDispatcher)) := by
  simp only [updateEvents, halt, bind_then, wp_state_bind]
  cases s.eventDispatcherPtr_ with
  | some d => simp
  | none => simp [State.halted]

def EventDispatcher.armedFor (d : EventDispatcher) (w : Wait) : EventDispatcher where
  isReading := d.isReading || w.has MYSQL_WAIT_READ || w.has MYSQL_WAIT_EXCEPT
  isWriting := w.has MYSQL_WAIT_WRITE

def State.armed (s : State) (d : EventDispatcher) : State :=
  { s with
    eventDispatcherPtr_ := some (d.armedFor s.waitStatus_)
    timers := if s.waitStatus_.has MYSQL_WAIT_TIMEOUT then s.waits :: s.timers else s.timers
    timed := if s.waitStatus_.has MYSQL_WAIT_TIMEOUT then s.waits :: s.timed else s.timed }

theorem wp_setEventDispatcher {f : Unit → M α} :
    wp (setEventDispatcher >>= f) Q E s ↔
      (∀ d, s.eventDispatcherPtr_ = some d →
        ((s.waitStatus_.has MYSQL_WAIT_TIMEOUT = true → s.mysqlPtr_ = true) →
          wp (f ()) Q E (s.armed d)) ∧
        (s.waitStatus_.has MYSQL_WAIT_TIMEOUT = true → s.mysqlPtr_ = false →
          E ({ s with eventDispatcherPtr_ := some (d.armedFor s.waitStatus_) }.halted .nullHandle))) ∧
      (s.eventDispatcherPtr_ = none → E (s.halted .nullDispatcher)) := by
  simp only [setEventDispatcher, enableReading, enableWriting, disableWriting, bind_then,
    wp_state_bind, ite_then, pure_then]
  cases hd : s.eventDispatcherPtr_ with
  | none =>
    cases hr : (s.waitStatus_.has MYSQL_WAIT_READ || s.waitStatus_.has MYSQL_WAIT_EXCEPT) <;>
      cases hw : s.waitStatus_.has MYSQL_WAIT_WRITE <;> simp [wp_updateEvents, hd]
  | some d =>
    cases hr : s.waitStatus_.has MYSQL_WAIT_READ <;>
      cases he : s.waitStatus_.has MYSQL_WAIT_EXCEPT <;>
      cases hw : s.waitStatus_.has MYSQL_WAIT_WRITE <;>
      cases ht : s.waitStatus_.has MYSQL_WAIT_TIMEOUT <;>
      simp [wp_updateEvents, wp_useHandle, hd, hr, he, hw, ht, State.armed, EventDispatcher.armedFor]

theorem wp_fatal {f : Unit → M α} :
    wp (fatal cfg >>= f) Q E s ↔
      (cfg.fatalReturns = true → wp (f ()) Q E s) ∧
        (cfg.fatalReturns = false → E (s.halted .fatal)) := by
  unfold fatal halt
  cases cfg.fatalReturns with
  | true => simp
  | false => simp [State.halted]

theorem wp_invoke {function : Option Nat} {e : Nat → Event} {f : Nat → M α} :
    wp (invoke function e >>= f) Q E s ↔
      (∀ k, function = some k → wp (f k) Q E (s.log (e k))) ∧
        (function = none → E (s.halted .emptyFunction)) := by
  unfold invoke halt
  cases function with
  | some k => simp
  | none => simp [State.halted]

theorem wp_report {f : Unit → M α} :
    wp (report >>= f) Q E s ↔ wp (f ()) Q E (s.logWorking .reported) := Iff.rfl

def State.executing (s : State) (e : ExecStatus) : State := { s with execStatus_ := e }

theorem wp_setExecStatus {e : ExecStatus} {f : Unit → M α} :
    wp (setExecStatus e >>= f) Q E s ↔ wp (f ()) Q E (s.executing e) := Iff.rfl

def State.disabled (s : State) : State := { s with eventDispatcherPtr_ := some ⟨false, false⟩ }

theorem wp_disableAll {f : Unit → M α} :
    wp (disableAll >>= f) Q E s ↔
      (s.eventDispatcherPtr_ ≠ none → wp (f ()) Q E s.disabled) ∧
        (s.eventDispatcherPtr_ = none → E (s.halted .nullDispatcher)) := by
  rw [disableAll, wp_updateEvents]
  refine and_congr_left fun _ => ?_
  cases s.eventDispatcherPtr_ with
  | some d => simp [State.disabled]
  | none => simp

end Bind

def State.queued (s : State) (f : Func) : State := { s with funcs_ := s.funcs_ ++ [f] }

theorem wp_queueInLoop {Q : Unit → State → Prop} {f : Func} :
    wp (queueInLoop f) Q E s ↔ Q () (s.queued f) := wp_update

theorem wp_setEventDispatcher_end {Q : Unit → State → Prop}
    (harmed : ∀ d, s.eventDispatcherPtr_ = some d →
      (s.waitStatus_.has MYSQL_WAIT_TIMEOUT = true → s.mysqlPtr_ = true) → Q () (s.armed d))
    (hnull : ∀ d, s.eventDispatcherPtr_ = some d → s.waitStatus_.has MYSQL_WAIT_TIMEOUT = true →
      s.mysqlPtr_ = false →
      E ({ s with eventDispatcherPtr_ := some (d.armedFor s.waitStatus_) }.halted .nullHandle))
    (hnone : s.eventDispatcherPtr_ = none → E (s.halted .nullDispatcher)) :
    wp setEventDispatcher Q E s := by
  rw [← then_pure setEventDispatcher, wp_setEventDispatcher]
  exact ⟨fun d hd => ⟨fun h => (wp_pure _).mpr (harmed d hd h), hnull d hd⟩, hnone⟩

theorem wp_callUser {I : State → Prop} {cb : Callback}
    (hperform : ∀ a t, I t → wp (perform cfg env (some cb) a) (fun _ => I) E t)
    (h : env.turn s cb = true → I s) :
    wp (callUser cfg env cb) (fun _ => I) E s := by
  unfold callUser
  rw [wp_ask_bind]
  intro i actions hi
  cases i with
  | turn as =>
    obtain ⟨hturn, rfl⟩ : env.turn s cb = true ∧ as = actions := by simpa using hi
    exact wp_forM hperform as (h hturn)
  | reply _ => cases hi

/-! What each function does, with all its branches. -/

section Functions

variable {Q : Unit → State → Prop} {direct : Func → M Unit} {fuel : Nat}

def Completes (direct : Func → M Unit) (queue : Bool) (Q : Unit → State → Prop) (E : State → Prop)
    (f : Func) (s : State) : Prop :=
  (queue = true → Q () (s.queued f)) ∧ (queue = false → wp (direct f) Q E s)

theorem wp_startStoreResult {queue : Bool}
    (hnull : s.mysqlPtr_ = false → E ((s.executing .StoreResult).halted .nullHandle))
    (hwait : ∀ r, s.mysqlPtr_ = true → env.reply (s.executing .StoreResult)
      (.startStoreResult queue) .mysql_store_result_start r = true →
      r.wait ≠ 0 → Q () ((s.waited r).executing .StoreResult))
    (herror : ∀ r, s.mysqlPtr_ = true → env.reply (s.executing .StoreResult)
      (.startStoreResult queue) .mysql_store_result_start r = true → r.wait = 0 → r.ret = none →
      Completes direct queue Q E (.outputError s.accepted)
        (((s.waited r).executing .None).logWorking .reported))
    (hresult : ∀ r, s.mysqlPtr_ = true → env.reply (s.executing .StoreResult)
      (.startStoreResult queue) .mysql_store_result_start r = true → r.wait = 0 →
      Completes direct queue Q E (.getResult s.accepted r.ret)
        (((s.waited r).executing .None).logWorking fun k => .stored k r.ret true)) :
    wp (startStoreResult env direct queue) Q E s := by
  unfold startStoreResult
  simp only [wp_setExecStatus, wp_wait]
  refine ⟨fun hptr r hr => ?_, hnull⟩
  have hptr' : s.mysqlPtr_ = true := hptr
  split
  · rename_i hr0
    have hres : wp (if queue then queueInLoop (.getResult s.accepted r.ret)
        else direct (.getResult s.accepted r.ret)) Q E
        (((s.waited r).executing .None).logWorking fun k => .stored k r.ret true) := by
      cases queue with
      | true => exact wp_queueInLoop.mpr ((hresult r hptr' hr hr0).1 rfl)
      | false => exact (hresult r hptr' hr hr0).2 rfl
    simp only [wp_setExecStatus, wp_failed, wp_state_bind]
    refine ⟨fun x _ => hres, fun hret => ⟨fun _ e _ => ?_, fun hp => ?_⟩⟩
    · by_cases he : e.number = 0
      · simp only [he, ne_eq, not_true_eq_false, decide_false, Bool.false_eq_true, if_false]
        exact hres
      · simp only [he, ne_eq, not_false_eq_true, decide_true, if_true, wp_report]
        cases queue with
        | true => exact wp_queueInLoop.mpr ((herror r hptr' hr hr0 hret).1 rfl)
        | false => exact (herror r hptr' hr hr0 hret).2 rfl
    · exact absurd (hptr'.symm.trans hp) (by decide)
  · rename_i hr0
    exact (wp_pure _).mpr (hwait r hptr' hr hr0)

theorem wp_failCmd
    (hreturns : cfg.fatalReturns = true →
      wp (outputError cfg env) Q E ((s.executing .None).logWorking .reported))
    (hfatal : cfg.fatalReturns = false →
      E (((s.executing .None).logWorking .reported).halted .fatal)) :
    wp (failCmd cfg env) Q E s := by
  unfold failCmd
  rw [wp_setExecStatus, wp_report, wp_fatal]
  exact ⟨hreturns, hfatal⟩

theorem wp_startQuery
    (hnull : s.mysqlPtr_ = false → E (s.halted .nullHandle))
    (hwait : ∀ r, s.mysqlPtr_ = true →
      env.reply s .startQuery (.mysql_real_query_start s.sql_) r = true → r.wait ≠ 0 →
      Q () ((s.waited r).executing .RealQuery))
    (herror : ∀ r, s.mysqlPtr_ = true →
      env.reply s .startQuery (.mysql_real_query_start s.sql_) r = true → r.wait = 0 → r.number ≠ 0 →
      (cfg.fatalReturns = true → Q () ((((s.waited r).executing .RealQuery).logWorking
        .reported).queued (.outputError s.accepted))) ∧
      (cfg.fatalReturns = false →
        E ((((s.waited r).executing .RealQuery).logWorking .reported).halted .fatal)))
    (hstore : ∀ r, s.mysqlPtr_ = true →
      env.reply s .startQuery (.mysql_real_query_start s.sql_) r = true → r.wait = 0 → r.number = 0 →
      wp (startStoreResult env (fun _ => stuck) true) Q E ((s.waited r).executing .RealQuery)) :
    wp (startQuery cfg env) Q E s := by
  unfold startQuery
  simp only [wp_state_bind, wp_wait, wp_setExecStatus]
  refine ⟨fun hptr r hr => ?_, hnull⟩
  split
  · rename_i hr0
    split
    · rename_i herr
      simp only [wp_report, wp_fatal, wp_queueInLoop]
      exact herror r hptr hr hr0 herr
    · rename_i herr
      exact hstore r hptr hr hr0 (not_not.mp herr)
  · rename_i hr0
    exact (wp_pure _).mpr (hwait r hptr hr hr0)

def State.accept (s : State) (sql_ : List UInt8) : State :=
  { s.log (.accepted (s.accepted + 1) sql_) with
    callback_ := some (s.accepted + 1), isWorking_ := true,
    exceptionCallback_ := some (s.accepted + 1), sql_ := sql_, accepted := s.accepted + 1 }

theorem wp_execSqlInLoop {statement : Statement}
    (hhalt : E (s.halted .assertion))
    (haccept : ∀ sql_, s.isWorking_ = false →
      preparedSql cfg.mysql_real_escape_string statement.sql statement.paraNum statement.vectors =
        some sql_ →
      wp (startQuery cfg env) (fun _ t => wp setEventDispatcher Q E t.noted) E (s.accept sql_)) :
    wp (execSqlInLoop cfg env statement) Q E s := by
  unfold execSqlInLoop
  rw [wp_state_bind]
  split
  · exact wp_stop.mpr hhalt
  · rename_i hworking
    split
    · exact wp_stop.mpr hhalt
    · rename_i sql_ hsql
      exact wp_update_bind.mpr
        (wp_then (haccept sql_ (Bool.eq_false_iff.mpr hworking) hsql) fun _ _ ht =>
          wp_update_bind.mpr ht)

theorem wp_disconnect
    (hdone : s.eventDispatcherPtr_ ≠ none →
      Q () { s.disabled.setStatus .Bad with mysqlPtr_ := false })
    (hnone : s.eventDispatcherPtr_ = none →
      E ((s.setStatus .Bad).halted .nullDispatcher)) :
    wp disconnect Q E s := by
  unfold disconnect
  rw [setStatus, wp_update_bind, wp_disableAll]
  exact ⟨fun h => wp_update.mpr (hdone h), hnone⟩

theorem wp_perform {origin : Option Callback} {a : Action}
    (hexec : ∀ statement, a = .execSqlInLoop statement → env.action s origin a = true →
      wp (execSqlInLoop cfg env statement) Q E s)
    (hdisconnect : a = .disconnect → env.action s origin a = true → wp disconnect Q E s) :
    wp (perform cfg env origin a) Q E s := by
  unfold perform
  rw [wp_guard_bind]
  intro ha
  cases a with
  | execSqlInLoop statement => exact hexec statement rfl ha
  | disconnect => exact hdisconnect rfl ha

theorem wp_handleClosed
    (hbad : s.status_ = .Bad → Q () s)
    (hnone : s.status_ ≠ .Bad → s.eventDispatcherPtr_ = none →
      E ((s.setStatus .Bad).halted .nullDispatcher))
    (hclose : s.status_ ≠ .Bad → s.eventDispatcherPtr_ ≠ none →
      wp (callUser cfg env .closeCallback_) Q E ((s.disabled.setStatus .Bad).log .close)) :
    wp (handleClosed cfg env) Q E s := by
  unfold handleClosed
  rw [wp_state_bind]
  split
  · rename_i h
    exact (wp_pure _).mpr (hbad h)
  · rename_i h
    rw [setStatus, wp_update_bind, wp_disableAll]
    exact ⟨fun hd => wp_update_bind.mpr (hclose h hd), hnone h⟩

def State.cleared (s : State) : State :=
  { s with exceptionCallback_ := none, callback_ := none, isWorking_ := false }

theorem wp_outputError
    (hnone : s.eventDispatcherPtr_ = none → E (s.halted .nullDispatcher))
    (hnull : s.eventDispatcherPtr_ ≠ none → s.mysqlPtr_ = false → E (s.disabled.halted .nullHandle))
    (hfatal : s.eventDispatcherPtr_ ≠ none → cfg.fatalReturns = false → E (s.disabled.halted .fatal))
    (hidle : ∀ e, s.eventDispatcherPtr_ ≠ none →
      env.reply s.disabled .outputError .mysql_errno e = true → s.isWorking_ = false →
      (e.gone = true → wp (handleClosed cfg env) Q E s.disabled) ∧
        (e.gone = false → Q () s.disabled))
    (hempty : s.eventDispatcherPtr_ ≠ none → s.isWorking_ = true → s.exceptionCallback_ = none →
      E (s.disabled.halted .emptyFunction))
    (hworking : ∀ e k message, s.mysqlPtr_ = true → s.eventDispatcherPtr_ ≠ none →
      env.reply s.disabled .outputError .mysql_errno e = true → s.isWorking_ = true →
      s.exceptionCallback_ = some k →
      wp (callUser cfg env .exceptionCallback_) (fun _ t =>
        (e.gone = true → wp (handleClosed cfg env) Q E t.cleared) ∧
        (e.gone = false → wp (callUser cfg env .idleCb_) Q E (t.cleared.log (.idle k)))) E
        (s.disabled.log (.exception k message s.sql_))) :
    wp (outputError cfg env) Q E s := by
  unfold outputError
  rw [wp_disableAll]
  refine ⟨fun hd => ?_, hnone⟩
  rw [wp_mysql]
  refine ⟨fun hptr e he => ?_, hnull hd⟩
  simp only [wp_fatal, wp_state_bind]
  refine ⟨fun _ => ⟨fun _ => ?_, hfatal hd⟩, hfatal hd⟩
  split
  · rename_i hworks
    simp only [wp_mysql, wp_invoke]
    refine ⟨fun _ m _ => ⟨fun k hk => ?_, hempty hd hworks⟩, hnull hd⟩
    refine wp_then (hworking e k m.text hptr hd he hworks hk) fun _ t ht => ?_
    rw [wp_update_bind]
    cases hgone : e.gone with
    | true => exact ht.1 hgone
    | false => exact wp_update_bind.mpr ((then_pure (callUser cfg env _)).symm ▸ ht.2 hgone)
  · rename_i hworks
    have hend := hidle e hd he (Bool.eq_false_iff.mpr hworks)
    cases hgone : e.gone with
    | true => exact hend.1 hgone
    | false => exact (wp_pure _).mpr (hend.2 hgone)

theorem wp_startNextResult
    (hnull : s.mysqlPtr_ = false → E ((s.executing .NextResult).halted .nullHandle))
    (hwait : ∀ r, s.mysqlPtr_ = true →
      env.reply (s.executing .NextResult) .getResult .mysql_next_result_start r = true →
      r.wait ≠ 0 → Q () ((s.waited r).executing .NextResult))
    (hfail : ∀ r, s.mysqlPtr_ = true → r.wait = 0 → r.number ≠ 0 →
      wp (failCmd cfg env) Q E ((s.waited r).executing .NextResult))
    (hstore : ∀ r, s.mysqlPtr_ = true → r.wait = 0 → r.number = 0 →
      wp (startStoreResult env direct false) Q E ((s.waited r).executing .NextResult)) :
    wp (startNextResult cfg env direct) Q E s := by
  unfold startNextResult
  simp only [wp_setExecStatus, wp_wait]
  refine ⟨fun hptr r hr => ?_, hnull⟩
  split
  · rename_i hr0
    split
    · rename_i herr
      exact hfail r hptr hr0 herr
    · rename_i herr
      exact hstore r hptr hr0 (not_not.mp herr)
  · rename_i hr0
    exact (wp_pure _).mpr (hwait r hptr hr hr0)

theorem getResult_succ (ret : Option Nat) :
    getResult cfg env (fuel + 1) ret = (do
      useHandle
      let s ← state
      if s.isWorking_ then do
        let k ← invoke s.callback_ fun k => .callback k ret
        callUser cfg env .callback_
        let more ← mysql env .getResult .mysql_more_results
        if more.number = 0 then do
          update fun s => s.cleared.log (.finished k)
          callUser cfg env .idleCb_
        else startNextResult cfg env (runFunc cfg env fuel)
      else pure ()) := by
  rw [getResult]
  rfl

theorem wp_getResult {ret : Option Nat}
    (hnull : s.mysqlPtr_ = false → E (s.halted .nullHandle))
    (hidle : s.mysqlPtr_ = true → s.isWorking_ = false → Q () s)
    (hempty : s.isWorking_ = true → s.callback_ = none → E (s.halted .emptyFunction))
    (hworking : ∀ k, s.mysqlPtr_ = true → s.isWorking_ = true → s.callback_ = some k →
      wp (callUser cfg env .callback_) (fun _ t =>
        (t.mysqlPtr_ = false → E (t.halted .nullHandle)) ∧
        (∀ more, t.mysqlPtr_ = true → env.reply t .getResult .mysql_more_results more = true →
          more.number = 0 → wp (callUser cfg env .idleCb_) Q E (t.cleared.log (.finished k))) ∧
        (t.mysqlPtr_ = true → wp (startNextResult cfg env (runFunc cfg env fuel)) Q E t)) E
        (s.log (.callback k ret))) :
    wp (getResult cfg env (fuel + 1) ret) Q E s := by
  rw [getResult_succ, wp_useHandle]
  refine ⟨fun hptr => ?_, hnull⟩
  rw [wp_state_bind]
  split
  · rename_i hworks
    rw [wp_invoke]
    refine ⟨fun k hk => ?_, hempty hworks⟩
    refine wp_then (hworking k hptr hworks hk) fun _ t ht => ?_
    rw [wp_mysql]
    refine ⟨fun hptr more hmore => ?_, ht.1⟩
    split
    · rename_i h0
      exact wp_update_bind.mpr (ht.2.1 more hptr hmore h0)
    · exact ht.2.2 hptr
  · rename_i hworks
    exact (wp_pure _).mpr (hidle hptr (Bool.eq_false_iff.mpr hworks))

theorem wp_continueQuery {call : Call}
    (hnull : s.mysqlPtr_ = false → E (s.halted .nullHandle))
    (hwait : ∀ r, s.mysqlPtr_ = true → r.wait ≠ 0 → wp setEventDispatcher Q E (s.waited r))
    (hfail : ∀ r, s.mysqlPtr_ = true → r.wait = 0 → r.number ≠ 0 →
      wp (failCmd cfg env) Q E (s.waited r))
    (hstore : ∀ r, s.mysqlPtr_ = true → r.wait = 0 → r.number = 0 →
      wp (startStoreResult env (runFunc cfg env fuel) false) (fun _ => wp setEventDispatcher Q E) E
        (s.waited r)) :
    wp (continueQuery cfg env fuel call) Q E s := by
  unfold continueQuery
  rw [wp_wait]
  refine ⟨fun hptr r _ => ?_, hnull⟩
  split
  · rename_i hr0
    split
    · rename_i herr
      exact hfail r hptr hr0 herr
    · rename_i herr
      exact wp_bind (hstore r hptr hr0 (not_not.mp herr))
  · rename_i hr0
    exact hwait r hptr hr0

theorem wp_continueStoreResult {status : Wait}
    (hnull : s.mysqlPtr_ = false → E (s.halted .nullHandle))
    (hwait : ∀ r, s.mysqlPtr_ = true → r.wait ≠ 0 → wp setEventDispatcher Q E (s.waited r))
    (hfail : ∀ r, s.mysqlPtr_ = true → r.wait = 0 → wp (failCmd cfg env) Q E (s.waited r))
    (hresult : ∀ r, s.mysqlPtr_ = true → r.wait = 0 →
      wp (getResult cfg env fuel r.ret) (fun _ => wp setEventDispatcher Q E) E
        ((s.waited r).logWorking fun k => .stored k r.ret false)) :
    wp (continueStoreResult cfg env fuel status) Q E s := by
  unfold continueStoreResult
  rw [wp_wait]
  refine ⟨fun hptr r _ => ?_, hnull⟩
  split
  · rename_i hr0
    have hstored : wp (update (fun s => s.logWorking fun k => .stored k r.ret false) >>= fun _ =>
        getResult cfg env fuel r.ret >>= fun _ => setEventDispatcher) Q E (s.waited r) :=
      wp_update_bind.mpr (wp_bind (hresult r hptr hr0))
    rw [wp_failed]
    refine ⟨fun x _ => hstored, fun _ => ⟨fun _ e _ => ?_, fun hp => ?_⟩⟩
    · by_cases he : e.number = 0
      · simp only [he, ne_eq, not_true_eq_false, decide_false, Bool.false_eq_true, if_false]
        exact hstored
      · simp only [he, ne_eq, not_false_eq_true, decide_true, if_true]
        exact hfail r hptr hr0
    · exact absurd (hptr.symm.trans hp) (by decide)
  · rename_i hr0
    exact hwait r hptr hr0

theorem wp_handleCmd {status : Wait}
    (hquery : s.execStatus_ = .RealQuery ∨ s.execStatus_ = .NextResult →
      ∀ call, wp (continueQuery cfg env fuel call) Q E s)
    (hstore : s.execStatus_ = .StoreResult → wp (continueStoreResult cfg env fuel status) Q E s)
    (hclosed : s.execStatus_ = .None → s.waitStatus_ = 0 → wp (handleClosed cfg env) Q E s)
    (hnone : s.execStatus_ = .None → s.waitStatus_ ≠ 0 → Q () s) :
    wp (handleCmd cfg env fuel status) Q E s := by
  unfold handleCmd
  rw [wp_state_bind]
  cases he : s.execStatus_ with
  | RealQuery => exact hquery (Or.inl he) _
  | StoreResult => exact hstore he
  | NextResult => exact hquery (Or.inr he) _
  | None =>
    dsimp only
    split
    · rename_i hw
      exact hclosed he hw
    · rename_i hw
      exact (wp_pure _).mpr (hnone he hw)

theorem wp_becomeOk
    (h : wp (callUser cfg env .okCallback_) (fun _ => wp setEventDispatcher Q E) E
      ((s.setStatus .Ok).log .ok)) : wp (becomeOk cfg env) Q E s :=
  wp_update_bind.mpr (wp_update_bind.mpr (wp_bind h))

theorem wp_characterSetDone {err : Int}
    (hnull : s.mysqlPtr_ = false → E (s.halted .nullHandle))
    (hfatal : cfg.fatalReturns = false → E (s.halted .fatal))
    (hclosed : err ≠ 0 → wp (handleClosed cfg env) Q E s)
    (hok : err = 0 → wp (becomeOk cfg env) Q E s) :
    wp (characterSetDone cfg env err) Q E s := by
  unfold characterSetDone
  split
  · rename_i herr
    simp only [wp_useHandle, wp_fatal]
    exact ⟨fun _ => ⟨fun _ => ⟨fun _ => hclosed herr, hfatal⟩, hfatal⟩, hnull⟩
  · rename_i herr
    exact hok (not_not.mp herr)

theorem wp_continueSetCharacterSet {status : Wait}
    (hnull : s.mysqlPtr_ = false → E (s.halted .nullHandle))
    (hwait : ∀ r, s.mysqlPtr_ = true → r.wait ≠ 0 → wp setEventDispatcher Q E (s.asked r))
    (hdone : ∀ r, s.mysqlPtr_ = true → r.wait = 0 →
      wp (characterSetDone cfg env r.number) Q E (s.asked r)) :
    wp (continueSetCharacterSet cfg env status) Q E s := by
  unfold continueSetCharacterSet
  rw [wp_handshake]
  refine ⟨fun hptr r _ => ?_, hnull⟩
  split
  · rename_i hr0
    exact hdone r hptr hr0
  · rename_i hr0
    exact hwait r hptr hr0

theorem wp_startSetCharacterSet
    (hnull : s.mysqlPtr_ = false → E (s.halted .nullHandle))
    (hwait : ∀ r, s.mysqlPtr_ = true → r.wait ≠ 0 →
      wp setEventDispatcher Q E ((s.asked r).setStatus .SettingCharacterSet))
    (hdone : ∀ r, s.mysqlPtr_ = true → r.wait = 0 →
      wp (characterSetDone cfg env r.number) Q E (s.asked r)) :
    wp (startSetCharacterSet cfg env) Q E s := by
  unfold startSetCharacterSet
  rw [wp_handshake]
  refine ⟨fun hptr r _ => ?_, hnull⟩
  split
  · rename_i hr0
    exact hdone r hptr hr0
  · rename_i hr0
    exact wp_update_bind.mpr (hwait r hptr hr0)

theorem wp_continueConnect {site : Site} {status : Wait}
    (hnull : s.mysqlPtr_ = false → E (s.halted .nullHandle))
    (hwait : ∀ r, s.mysqlPtr_ = true → r.wait ≠ 0 → wp setEventDispatcher Q E (s.asked r))
    (hfatal : ∀ r, r.wait = 0 → cfg.fatalReturns = false → E ((s.asked r).halted .fatal))
    (hclosed : ∀ r, s.mysqlPtr_ = true → r.wait = 0 → wp (handleClosed cfg env) Q E (s.asked r))
    (hok : ∀ r, s.mysqlPtr_ = true → r.wait = 0 → wp (becomeOk cfg env) Q E (s.asked r))
    (hset : ∀ r, s.mysqlPtr_ = true → r.wait = 0 →
      wp (startSetCharacterSet cfg env) Q E (s.asked r)) :
    wp (continueConnect cfg env site status) Q E s := by
  unfold continueConnect
  rw [wp_handshake]
  refine ⟨fun hptr r _ => ?_, hnull⟩
  split
  · rename_i hr0
    rw [wp_mysql]
    refine ⟨fun _ e _ => ?_, fun hp => absurd (hptr.symm.trans hp) (by decide)⟩
    split
    · simp only [wp_fatal]
      exact ⟨fun _ => ⟨fun _ => hclosed r hptr hr0, hfatal r hr0⟩, hfatal r hr0⟩
    · split
      · exact hok r hptr hr0
      · exact hset r hptr hr0
  · rename_i hr0
    exact hwait r hptr hr0

theorem wp_handleTimeout
    (hconnect : ∀ site status, s.status_ = .Connecting →
      wp (continueConnect cfg env site status) Q E s)
    (hset : ∀ status, s.status_ = .SettingCharacterSet →
      wp (continueSetCharacterSet cfg env status) Q E s)
    (hrest : s.status_ ≠ .Connecting → s.status_ ≠ .SettingCharacterSet → Q () s) :
    wp (handleTimeout cfg env) Q E s := by
  unfold handleTimeout
  rw [wp_state_bind]
  cases hs : s.status_ with
  | Connecting => exact hconnect _ _ hs
  | SettingCharacterSet => exact hset _ hs
  | None => exact (wp_pure _).mpr (hrest (by simp [hs]) (by simp [hs]))
  | Ok => exact (wp_pure _).mpr (hrest (by simp [hs]) (by simp [hs]))
  | Bad => exact (wp_pure _).mpr (hrest (by simp [hs]) (by simp [hs]))

theorem wp_handleEvent {pollIn pollOut pollPri : Bool}
    (hconnect : ∀ site status, s.status_ = .Connecting →
      wp (continueConnect cfg env site status) Q E s)
    (hset : ∀ status, s.status_ = .SettingCharacterSet →
      wp (continueSetCharacterSet cfg env status) Q E s)
    (hok : ∀ status, s.status_ = .Ok → wp (handleCmd cfg env fuel status) Q E s)
    (hrest : s.status_ = .None ∨ s.status_ = .Bad → Q () s) :
    wp (handleEvent cfg env fuel pollIn pollOut pollPri) Q E s := by
  unfold handleEvent
  rw [wp_state_bind]
  cases hs : s.status_ with
  | Connecting => exact hconnect _ _ hs
  | SettingCharacterSet => exact hset _ hs
  | Ok => exact hok _ hs
  | None => exact (wp_pure _).mpr (hrest (Or.inl hs))
  | Bad => exact (wp_pure _).mpr (hrest (Or.inr hs))

def State.connecting (s : State) (r : Reply) : State :=
  (s.setStatus .Connecting).asked r

@[simp] theorem State.connecting_waitStatus_ (s : State) (r : Reply) :
    (s.connecting r).waitStatus_ = r.wait := rfl

@[simp] theorem State.connecting_status_ (s : State) (r : Reply) :
    (s.connecting r).status_ = .Connecting := rfl

theorem wp_failInit (hfatal : cfg.fatalReturns = false → E (s.halted .fatal))
    (hclose : wp (callUser cfg env .closeCallback_) Q E (s.log .close)) :
    wp (failInit cfg env) Q E s := by
  unfold failInit
  rw [wp_fatal]
  exact ⟨fun _ => wp_update_bind.mpr hclose, hfatal⟩

theorem wp_init
    (hnull : s.mysqlPtr_ = false →
      E ((s.setStatus .Connecting).halted .nullHandle))
    (hfail : ∀ r, s.mysqlPtr_ = true → r.wait = 0 → wp (failInit cfg env) Q E (s.connecting r))
    (hnosocket : ∀ r fd, s.mysqlPtr_ = true → fd.number < 0 →
      env.reply (s.connecting r) .init .mysql_get_socket fd = true →
      wp (failInit cfg env) Q E (s.connecting r))
    (hdispatch : ∀ r, s.mysqlPtr_ = true →
      (∃ fd, env.reply (s.connecting r) .init .mysql_get_socket fd = true ∧ 0 ≤ fd.number) →
      wp setEventDispatcher Q E
        { s.connecting r with eventDispatcherPtr_ := some ⟨false, false⟩ }) :
    wp (init cfg env) Q E s := by
  unfold init
  rw [setStatus, wp_update_bind, wp_handshake]
  refine ⟨fun hptr r _ => ?_, hnull⟩
  have hcreate : wp (createDispatcher cfg env) Q E (s.connecting r) := by
    unfold createDispatcher
    rw [wp_mysql]
    refine ⟨fun _ fd hfd => ?_, fun hp => absurd (hptr.symm.trans hp) (by decide)⟩
    split
    · rename_i hneg
      exact hnosocket r fd hptr hneg hfd
    · rename_i hfd0
      exact wp_update_bind.mpr (hdispatch r hptr ⟨fd, hfd, Int.not_lt.mp hfd0⟩)
  split
  · rename_i hr0
    rw [wp_mysql]
    refine ⟨fun _ e he => ?_, fun hp => absurd (hptr.symm.trans hp) (by decide)⟩
    split
    · exact hfail r hptr hr0
    · exact hcreate
  · exact hcreate

def State.running (s : State) (f : Func) (rest : List Func) : State :=
  { s.log (.applied f.statement (if s.isWorking_ then s.callback_ else none)) with
    funcs_ := rest, inFunc := true }

theorem wp_handle {l : LoopEvent}
    (hinit : l = .init → s.status_ = .None → wp (init cfg env) Q E s)
    (hevent : ∀ pollIn pollOut pollPri, l = .fdEvent pollIn pollOut pollPri →
      s.eventDispatcherPtr_ ≠ none → wp (handleEvent cfg env fuel pollIn pollOut pollPri) Q E s)
    (hfunc : ∀ f rest, l = .func → s.funcs_ = f :: rest →
      wp (runFunc cfg env fuel f) (fun _ t => Q () { t with inFunc := false }) E
        (s.running f rest))
    (htimeout : ∀ n, l = .timeout n → n ∈ s.timers →
      wp (handleTimeout cfg env) Q E { s with timers := s.timers.erase n })
    (huser : ∀ a, l = .user a → wp (perform cfg env none a) Q E s) :
    wp (handle cfg env fuel l) Q E s := by
  cases l with
  | init =>
    rw [handle, wp_guard_bind]
    exact fun h => hinit rfl (by simpa using h)
  | fdEvent pollIn pollOut pollPri =>
    rw [handle, wp_guard_bind]
    refine fun h => hevent _ _ _ rfl fun hd => ?_
    simp [hd] at h
  | func =>
    rw [handle, wp_state_bind]
    cases hf : s.funcs_ with
    | nil => exact wp_stuck
    | cons f rest =>
      refine wp_update_bind.mpr (wp_then (hfunc f rest rfl hf) fun _ t ht => ?_)
      exact wp_update.mpr ht
  | timeout n =>
    rw [handle, wp_guard_bind]
    exact fun h => wp_update_bind.mpr (htimeout n rfl (by simpa using h))
  | user a => exact huser a rfl

end Functions

theorem step_inv {I : State → Prop} {l : LoopEvent × List Input} {t : State}
    (hhandle : ∀ fuel, env.event s l.1 = true → wp (handle cfg env fuel l.1) (fun _ => I) E s)
    (h : step cfg env s l = some t) : I t ∨ E t := by
  obtain ⟨⟨_, hevent⟩, hrun⟩ := Option.ite_none_right_eq_some.mp h
  exact (wp_run (hhandle _ hevent) hrun).imp_left fun ⟨_, ht⟩ => ht

/-- The invariant rule for the connector: `I` holds whenever control is in the loop, `E`
when the process has ended. -/
theorem reachable_inv {I : State → Prop} (hinit : I init₀) (hE : ∀ t, E t → t.stopped ≠ none)
    (hhandle : ∀ fuel l t, I t → env.event t l = true → wp (handle cfg env fuel l) (fun _ => I) E t)
    (h : (system cfg env).Reachable s) : I s ∨ E s := by
  refine h.invariant (I := fun t => I t ∨ E t) (fun t (ht : t = init₀) => Or.inl (ht ▸ hinit)) ?_
  intro t l u ht hst
  rcases ht with hI | hended
  · exact step_inv (fun fuel hevent => hhandle fuel _ t hI hevent) hst
  · obtain ⟨⟨hrun, _⟩, _⟩ := Option.ite_none_right_eq_some.mp hst
    exact absurd (Option.isNone_iff_eq_none.mp hrun) (hE t hended)

end MysqlConnectPool.MySQLConnector
