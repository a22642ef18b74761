import MysqlConnectPool.MySQLImpl.MySQLConnectorRules
import MysqlConnectPool.MySQLImpl.PlaceholderLexing
import MysqlConnectPool.MySQLImpl.StatementLog

/-! Every statement is answered: what the runs have in common in which nothing comes between
a statement and its completion. -/

namespace MysqlConnectPool.MySQLConnector

open Library Handler System

def State.answered (s : State) : Bool :=
  s.accepted = 0 ∨ outcomes s.trace s.accepted ≠ 0

/-- No fd event is handled while the error of a query that failed at its start is queued; a
connection that is closed answers at once; statements are given to a connection that was `Ok`
and has its handle; `disconnect` waits for the outcome of the last statement. -/
def careful : Environment where
  event s l :=
    match l with
    | .fdEvent .. => !(s.status_ = .Ok ∧ s.execStatus_ ≠ .None ∧ s.funcs_ ≠ [])
    | _ => true
  action s _ a :=
    match a with
    | .execSqlInLoop _ => !s.isWorking_ && (s.status_ = .Ok ∨ s.status_ = .Bad) && s.mysqlPtr_
    | .disconnect => s.answered
  turn _ _ := true
  reply s _ _ r := s.status_ = .Bad → r.wait = 0

def Func.results : Func → List (Option Nat)
  | .outputError _ => []
  | .getResult _ ret => [ret]

structure Free (s : State) : Prop where
  follows : Follows s.trace s.accepted none
  running : s.stopped = none
  notWorking : s.isWorking_ = false
  nothingQueued : s.funcs_ = []
  dispatcher : s.status_ = .Ok ∨ s.status_ = .Bad ∨ s.timers ≠ [] → s.eventDispatcherPtr_ ≠ none

/-- The last accepted statement is pending, with these results on their way to it. -/
structure Busy (results : List (Option Nat)) (s : State) : Prop where
  follows : Follows s.trace s.accepted (some ⟨s.sql_, results⟩)
  running : s.stopped = none
  working : s.isWorking_ = true
  callback : s.callback_ = some s.accepted
  exceptionCallback : s.exceptionCallback_ = some s.accepted
  status : s.status_ = .Ok ∨ s.status_ = .Bad
  handle : s.mysqlPtr_ = true
  dispatcher : s.eventDispatcherPtr_ ≠ none

structure Waiting (s : State) : Prop extends Busy [] s where
  nothingQueued : s.funcs_ = []
  ok : s.status_ = .Ok
  execStatus : s.execStatus_ ≠ .None
  waitStatus : s.waitStatus_ ≠ 0

structure Queued (f : Func) (s : State) : Prop extends Busy f.results s where
  queued : s.funcs_ = [f]
  statement : f.statement = s.accepted

def Accounted (s : State) : Prop := Free s ∨ Waiting s ∨ ∃ f, Queued f s

def Holding (results : List (Option Nat)) (s : State) : Prop :=
  Free s ∨ Busy results s ∧ s.funcs_ = []

structure Over (s : State) : Prop where
  follows : Follows s.trace s.accepted none
  nothingQueued : s.funcs_ = []
  stopped : s.stopped ≠ none

structure Excepted (s : State) : Prop where
  follows : Follows s.trace s.accepted none
  running : s.stopped = none
  working : s.isWorking_ = true
  nothingQueued : s.funcs_ = []
  dispatcher : s.eventDispatcherPtr_ ≠ none

section Keeps

variable {s : State} {results : List (Option Nat)} {f : Func}

theorem Free.over (h : Free s) (why : Stop) : Over (s.halted why) :=
  ⟨h.follows, h.nothingQueued, Option.some_ne_none why⟩

theorem Free.waited (h : Free s) (r : Reply) : Free (s.waited r) :=
  ⟨h.follows, h.running, h.notWorking, h.nothingQueued, h.dispatcher⟩

theorem Free.asked (h : Free s) (r : Reply) : Free (s.asked r) :=
  ⟨h.follows, h.running, h.notWorking, h.nothingQueued, h.dispatcher⟩

theorem Free.executing (h : Free s) (e : ExecStatus) : Free (s.executing e) :=
  ⟨h.follows, h.running, h.notWorking, h.nothingQueued, h.dispatcher⟩

theorem Free.disabled (h : Free s) : Free s.disabled :=
  ⟨h.follows, h.running, h.notWorking, h.nothingQueued, fun _ => Option.some_ne_none _⟩

theorem Free.armed (h : Free s) (d : EventDispatcher) : Free (s.armed d) :=
  ⟨h.follows, h.running, h.notWorking, h.nothingQueued, fun _ => Option.some_ne_none _⟩

theorem Free.logWorking (h : Free s) (e : Nat → Event) : Free (s.logWorking e) := by
  refine ⟨?_, h.running, h.notWorking, h.nothingQueued, h.dispatcher⟩
  simpa [State.logWorking, h.notWorking] using h.follows

theorem Free.log (h : Free s) {e : Event} (he : Follows (s.trace ++ [e]) s.accepted none) :
    Free (s.log e) :=
  ⟨he, h.running, h.notWorking, h.nothingQueued, h.dispatcher⟩

theorem Free.withStatus (h : Free s) (hd : s.eventDispatcherPtr_ ≠ none) (st : ConnectStatus) :
    Free (s.setStatus st) :=
  ⟨h.follows.status, h.running, h.notWorking, h.nothingQueued, fun _ => hd⟩

theorem Busy.not_answered (h : Busy results s) : s.answered = false := by
  apply decide_eq_false
  have hpos := h.follows.accepted_pos (Option.some_ne_none _)
  rw [h.follows.outcomes_pending]
  omega

theorem Busy.waited (h : Busy results s) (r : Reply) : Busy results (s.waited r) :=
  ⟨h.follows, h.running, h.working, h.callback, h.exceptionCallback, h.status, h.handle, h.dispatcher⟩

theorem Busy.executing (h : Busy results s) (e : ExecStatus) : Busy results (s.executing e) :=
  ⟨h.follows, h.running, h.working, h.callback, h.exceptionCallback, h.status, h.handle, h.dispatcher⟩

theorem Busy.armed (h : Busy results s) (d : EventDispatcher) : Busy results (s.armed d) :=
  ⟨h.follows, h.running, h.working, h.callback, h.exceptionCallback, h.status, h.handle,
    Option.some_ne_none _⟩

theorem Busy.closed (h : Busy results s) :
    Busy results ((s.disabled.setStatus .Bad).log .close) :=
  ⟨h.follows.status.close, h.running, h.working, h.callback, h.exceptionCallback, Or.inr rfl, h.handle,
    Option.some_ne_none _⟩

theorem Busy.logWorking (h : Busy results s) {e : Nat → Event} {results' : List (Option Nat)}
    (he : Follows (s.trace ++ [e s.accepted]) s.accepted (some ⟨s.sql_, results'⟩)) :
    Busy results' (s.logWorking e) := by
  refine ⟨?_, h.running, h.working, h.callback, h.exceptionCallback, h.status, h.handle, h.dispatcher⟩
  simpa [State.logWorking, h.working] using he

theorem Busy.report (h : Busy [] s) : Busy [] (s.logWorking .reported) :=
  h.logWorking h.follows.reported

theorem Busy.store (h : Busy [] s) (ret : Option Nat) (atOnce : Bool) :
    Busy [ret] (s.logWorking fun k => .stored k ret atOnce) := h.logWorking h.follows.stored

theorem Busy.called {ret : Option Nat} (h : Busy (ret :: results) s) :
    Busy results (s.log (.callback s.accepted ret)) :=
  ⟨h.follows.callback, h.running, h.working, h.callback, h.exceptionCallback, h.status, h.handle,
    h.dispatcher⟩

theorem Busy.excepted (h : Busy [] s) (hf : s.funcs_ = []) (message : List UInt8) :
    Excepted (s.disabled.log (.exception s.accepted message s.sql_)) :=
  ⟨h.follows.exception, h.running, h.working, hf, Option.some_ne_none _⟩

theorem Excepted.answered (h : Excepted s) : Free s.cleared :=
  ⟨h.follows, h.running, rfl, h.nothingQueued, fun _ => h.dispatcher⟩

theorem Busy.finished (h : Busy [] s) (hf : s.funcs_ = []) :
    Free (s.cleared.log (.finished s.accepted)) :=
  ⟨h.follows.finished, h.running, rfl, hf, fun _ => h.dispatcher⟩

theorem Busy.not_bad (h : Busy results s) (hs : s.status_ ≠ .Bad) : s.status_ = .Ok :=
  h.status.resolve_right hs

theorem Holding.waited (h : Holding results s) (r : Reply) : Holding results (s.waited r) :=
  h.imp (fun h => h.waited r) fun h => ⟨h.1.waited r, h.2⟩

theorem Holding.executing (h : Holding results s) (e : ExecStatus) :
    Holding results (s.executing e) :=
  h.imp (fun h => h.executing e) fun h => ⟨h.1.executing e, h.2⟩

theorem Holding.report (h : Holding [] s) : Holding [] (s.logWorking .reported) :=
  h.imp (fun h => h.logWorking _) fun h => ⟨h.1.report, h.2⟩

theorem Holding.store (h : Holding [] s) (ret : Option Nat) (atOnce : Bool) :
    Holding [ret] (s.logWorking fun k => .stored k ret atOnce) :=
  h.imp (fun h => h.logWorking _) fun h => ⟨h.1.store ret atOnce, h.2⟩

theorem Holding.free_of_reset (h : Holding results s) (hptr : s.mysqlPtr_ = false) : Free s :=
  h.resolve_right fun hb => Bool.false_ne_true (hptr.symm.trans hb.1.handle)

theorem Holding.free_of_not_working (h : Holding results s) (hw : s.isWorking_ = false) : Free s :=
  h.resolve_right fun hb => Bool.false_ne_true (hw.symm.trans hb.1.working)

theorem Holding.free_of_noDispatcher (h : Holding results s) (hd : s.eventDispatcherPtr_ = none) :
    Free s :=
  h.resolve_right fun hb => hb.1.dispatcher hd

theorem Holding.asked (h : Holding [] s) (hs : s.status_ ≠ .Bad) (hexec : s.execStatus_ ≠ .None)
    (hwait : s.waitStatus_ ≠ 0) : Accounted s :=
  h.imp (fun h => h) fun h => Or.inl ⟨h.1, h.2, h.1.not_bad hs, hexec, hwait⟩

theorem Queued.accounted (h : Queued f s) : Accounted s := Or.inr (Or.inr ⟨f, h⟩)

theorem Busy.queued (h : Busy f.results s) (hf : s.funcs_ = []) (hk : f.statement = s.accepted) :
    Accounted (s.queued f) :=
  Queued.accounted ⟨⟨h.follows, h.running, h.working, h.callback, h.exceptionCallback, h.status,
    h.handle, h.dispatcher⟩, by simp [State.queued, hf], hk⟩

theorem Accounted.armed (h : Accounted s) (d : EventDispatcher) : Accounted (s.armed d) := by
  rcases h with h | h | ⟨f, h⟩
  · exact Or.inl (h.armed d)
  · exact Or.inr (Or.inl ⟨h.toBusy.armed d, h.nothingQueued, h.ok, h.execStatus, h.waitStatus⟩)
  · exact Queued.accounted ⟨h.toBusy.armed d, h.queued, h.statement⟩

theorem Accounted.free (h : Accounted s) (hn : ∀ results, ¬Busy results s) : Free s := by
  rcases h with h | h | ⟨f, h⟩
  · exact h
  · exact absurd h.toBusy (hn _)
  · exact absurd h.toBusy (hn _)

theorem Accounted.free_of_status (h : Accounted s) (hok : s.status_ ≠ .Ok) (hbad : s.status_ ≠ .Bad) :
    Free s := h.free fun _ hb => hb.status.elim hok hbad

theorem Queued.runs {f : Func} (h : Queued f s) : Holding f.results (s.running f []) := by
  refine Or.inr ⟨⟨?_, h.running, h.working, h.callback, h.exceptionCallback, h.status, h.handle,
    h.dispatcher⟩, rfl⟩
  simpa [State.running, State.log, h.working, h.callback, h.statement] using h.follows.applied

theorem Accounted.keep (h : Accounted s) (inFunc : Bool) (asks : List Wait) {timers : List Nat}
    (ht : timers ≠ [] → s.timers ≠ []) :
    Accounted { s with timers := timers, inFunc := inFunc, asks := asks } := by
  rcases h with h | h | ⟨f, h⟩
  · exact Or.inl ⟨h.follows, h.running, h.notWorking, h.nothingQueued,
      fun hst => h.dispatcher (hst.imp_right fun hst => hst.imp_right ht)⟩
  · exact Or.inr (Or.inl ⟨⟨h.follows, h.running, h.working, h.callback, h.exceptionCallback,
      h.status, h.handle, h.dispatcher⟩, h.nothingQueued, h.ok, h.execStatus, h.waitStatus⟩)
  · exact Queued.accounted ⟨⟨h.follows, h.running, h.working, h.callback, h.exceptionCallback,
      h.status, h.handle, h.dispatcher⟩, h.queued, h.statement⟩

theorem Accounted.erased (h : Accounted s) (n : Nat) :
    Accounted { s with timers := s.timers.erase n } :=
  h.keep s.inFunc s.asks fun ht hnil => ht (by simp [hnil])

theorem Accounted.noted (h : Accounted s) : Accounted s.noted := h.keep s.inFunc _ id

theorem Accounted.returned (h : Accounted s) : Accounted { s with inFunc := false } :=
  h.keep false s.asks id

theorem Accounted.dispatcher (h : Accounted s) (ht : s.timers ≠ []) : s.eventDispatcherPtr_ ≠ none := by
  rcases h with h | h | ⟨f, h⟩
  · exact h.dispatcher (Or.inr (Or.inr ht))
  · exact h.toBusy.dispatcher
  · exact h.toBusy.dispatcher

end Keeps

section Run

variable {cfg : Config} {s : State} {results : List (Option Nat)} {fuel : Nat}

theorem setEventDispatcher_accounts (h : Accounted s) :
    wp setEventDispatcher (fun _ => Accounted) Over s := by
  refine wp_setEventDispatcher_end (fun d _ _ => h.armed d) (fun d _ _ hptr => ?_) (fun hd => ?_)
  · have hfree := h.free fun _ hb => Bool.false_ne_true (hptr.symm.trans hb.handle)
    exact ⟨hfree.follows, hfree.nothingQueued, Option.some_ne_none _⟩
  · exact (h.free fun _ hb => hb.dispatcher hd).over _

theorem startStoreResult_queues {direct : Func → M Unit} (h : Busy [] s) (hf : s.funcs_ = []) :
    wp (startStoreResult careful direct true) (fun _ => Accounted) Over s := by
  refine wp_startStoreResult (fun hptr => absurd (h.handle.symm.trans hptr) (by decide))
    (fun r _ hr h0 => ?_) (fun r _ _ _ _ => ⟨fun _ => ?_, nofun⟩)
    (fun r _ _ _ => ⟨fun _ => ?_, nofun⟩)
  · have hbad : s.status_ ≠ .Bad := fun hb => h0 (by simpa [careful, State.executing, hb] using hr)
    exact Or.inr (Or.inl ⟨(h.waited r).executing _, hf, h.not_bad hbad, nofun, h0⟩)
  · exact Busy.queued (f := .outputError s.accepted) ((h.waited r).executing .None).report hf rfl
  · exact Busy.queued (f := .getResult s.accepted r.ret)
      (((h.waited r).executing .None).store r.ret true) hf rfl

theorem startQuery_accounts (hcfg : cfg.fatalReturns = true) (h : Busy [] s) (hf : s.funcs_ = []) :
    wp (startQuery cfg careful) (fun _ => Accounted) Over s := by
  have hquery : ∀ r, Busy [] ((s.waited r).executing .RealQuery) :=
    fun r => (h.waited r).executing _
  refine wp_startQuery (fun hptr => absurd (h.handle.symm.trans hptr) (by decide))
    (fun r _ hr h0 => ?_) (fun r _ _ _ _ => ⟨fun _ => ?_, fun hc => ?_⟩) (fun r _ _ _ _ => ?_)
  · have hbad : s.status_ ≠ .Bad := fun hb => h0 (by simpa [careful, hb] using hr)
    exact Or.inr (Or.inl ⟨hquery r, hf, h.not_bad hbad, nofun, h0⟩)
  · exact Busy.queued (f := .outputError s.accepted) (hquery r).report hf rfl
  · exact absurd (hcfg.symm.trans hc) (by decide)
  · exact startStoreResult_queues (hquery r) hf

theorem execSqlInLoop_accounts (hcfg : cfg.fatalReturns = true) {statement : Statement} (h : Free s)
    (hstatus : s.status_ = .Ok ∨ s.status_ = .Bad) (hptr : s.mysqlPtr_ = true) :
    wp (execSqlInLoop cfg careful statement) (fun _ => Accounted) Over s := by
  refine wp_execSqlInLoop (h.over _) (fun sql_ _ _ => ?_)
  have haccept : Busy [] (s.accept sql_) :=
    ⟨h.follows.accepted, h.running, rfl, rfl, rfl, hstatus, hptr,
      h.dispatcher (hstatus.imp_right Or.inl)⟩
  exact wp_mono (startQuery_accounts hcfg haccept h.nothingQueued)
    (fun _ _ ht => setEventDispatcher_accounts ht.noted) (fun _ ht => ht)

theorem disconnect_frees (h : Free s) : wp disconnect (fun _ => Free) Over s := by
  refine wp_disconnect (fun _ => ?_) (fun _ => ?_)
  · exact ⟨h.follows.status, h.running, h.notWorking, h.nothingQueued,
      fun _ => Option.some_ne_none _⟩
  · exact ⟨h.follows.status, h.nothingQueued, Option.some_ne_none _⟩

theorem perform_accounts (hcfg : cfg.fatalReturns = true) {origin : Option Callback} (a : Action)
    (h : Accounted s) :
    wp (perform cfg careful origin a) (fun _ => Accounted) Over s := by
  refine wp_perform (fun statement ha hact => ?_) (fun ha hact => ?_)
  · subst ha
    obtain ⟨⟨hworking, hstatus⟩, hptr⟩ :
        (s.isWorking_ = false ∧ (s.status_ = .Ok ∨ s.status_ = .Bad)) ∧ s.mysqlPtr_ = true := by
      simpa [careful] using hact
    have hfree := h.free fun _ hb => Bool.false_ne_true (hworking.symm.trans hb.working)
    exact execSqlInLoop_accounts hcfg hfree hstatus hptr
  · subst ha
    have hanswered : s.answered = true := hact
    have hfree := h.free fun _ hb => Bool.false_ne_true (hb.not_answered.symm.trans hanswered)
    exact wp_mono (disconnect_frees hfree) (fun _ _ ht => Or.inl ht) (fun _ ht => ht)

theorem callUser_accounts (hcfg : cfg.fatalReturns = true) {cb : Callback} (h : Accounted s) :
    wp (callUser cfg careful cb) (fun _ => Accounted) Over s :=
  wp_callUser (fun a _ ht => perform_accounts hcfg a ht) (fun _ => h)

theorem callUser_busy {cb : Callback} (h : Busy results s) :
    wp (callUser cfg careful cb) (fun _ t => t = s) Over s := by
  refine wp_callUser (I := fun t => t = s) (fun a t ht => ?_) (fun _ => rfl)
  subst ht
  refine wp_perform (fun _ ha hact => ?_) (fun ha hact => ?_)
  · subst ha
    simp [careful, h.working] at hact
  · subst ha
    exact absurd (h.not_answered.symm.trans hact) (by decide)

theorem callUser_excepted {cb : Callback} (h : Excepted s) :
    wp (callUser cfg careful cb) (fun _ => Excepted) Over s := by
  refine wp_callUser (fun a t ht => ?_) (fun _ => h)
  refine wp_perform (fun _ ha hact => ?_) (fun _ _ => ?_)
  · subst ha
    simp [careful, ht.working] at hact
  · exact wp_disconnect
      (fun _ => ⟨ht.follows.status, ht.running, ht.working, ht.nothingQueued, Option.some_ne_none _⟩)
      (fun hd => absurd hd ht.dispatcher)

theorem startStoreResult_accounts {direct : Func → M Unit}
    (hdirect : ∀ f t, Holding f.results t → wp (direct f) (fun _ => Accounted) Over t)
    (h : Holding [] s) :
    wp (startStoreResult careful direct false) (fun _ => Accounted) Over s := by
  refine wp_startStoreResult (fun hptr => (h.free_of_reset hptr).executing _ |>.over _)
    (fun r _ hr h0 => ?_) (fun r _ _ _ _ => ⟨nofun, fun _ => ?_⟩)
    (fun r _ _ _ => ⟨nofun, fun _ => ?_⟩)
  · have hbad : s.status_ ≠ .Bad := fun hb => h0 (by simpa [careful, State.executing, hb] using hr)
    exact ((h.waited r).executing .StoreResult).asked hbad nofun h0
  · exact hdirect (.outputError _) _ ((h.waited r).executing .None).report
  · exact hdirect (.getResult _ r.ret) _ (((h.waited r).executing .None).store r.ret true)

theorem setEventDispatcher_asked (h : Holding [] s) (hok : s.status_ = .Ok)
    (hexec : s.execStatus_ ≠ .None) (h0 : s.waitStatus_ ≠ 0) :
    wp setEventDispatcher (fun _ => Accounted) Over s :=
  setEventDispatcher_accounts (h.asked (by simp [hok]) hexec h0)

section Statement

variable (hcfg : cfg.fatalReturns = true)

include hcfg

theorem handleClosed_accounts (h : Free s ∨ ∃ f, Queued f s) :
    wp (handleClosed cfg careful) (fun _ => Accounted) Over s := by
  refine wp_handleClosed (fun _ => h.imp_right Or.inr) (fun _ hd => ?_)
    (fun _ _ => callUser_accounts hcfg ?_)
  · rcases h with h | ⟨f, h⟩
    · exact ⟨h.follows.status, h.nothingQueued, Option.some_ne_none _⟩
    · exact absurd hd h.dispatcher
  · rcases h with h | ⟨f, h⟩
    · have hbad := h.disabled.withStatus (Option.some_ne_none _) .Bad
      exact Or.inl (hbad.log h.follows.status.close)
    · exact Queued.accounted ⟨h.toBusy.closed, h.queued, h.statement⟩

theorem outputError_accounts (h : Holding [] s) :
    wp (outputError cfg careful) (fun _ => Accounted) Over s := by
  refine wp_outputError (fun hd => (h.free_of_noDispatcher hd).over _)
    (fun _ hptr => (h.free_of_reset hptr).disabled.over _)
    (fun _ hc => absurd (hcfg.symm.trans hc) (by decide)) (fun _ _ _ hw => ?_) (fun _ hw he => ?_)
    (fun e k message _ _ _ hw hk => ?_)
  · have hfree := (h.free_of_not_working hw).disabled
    exact ⟨fun _ => handleClosed_accounts hcfg (Or.inl hfree), fun _ => Or.inl hfree⟩
  · rcases h with h | h
    · exact absurd (h.notWorking.symm.trans hw) (by decide)
    · exact absurd (h.1.exceptionCallback.symm.trans he) (Option.some_ne_none _)
  · rcases h with h | ⟨h, hf⟩
    · exact absurd (h.notWorking.symm.trans hw) (by decide)
    obtain rfl : s.accepted = k := Option.some.inj (h.exceptionCallback.symm.trans hk)
    refine wp_mono (callUser_excepted (h.excepted hf message)) (fun _ t ht => ?_) (fun _ ht => ht)
    exact ⟨fun _ => handleClosed_accounts hcfg (Or.inl ht.answered),
      fun _ => callUser_accounts hcfg (Or.inl (ht.answered.log ht.follows.idle))⟩

theorem failCmd_accounts (h : Holding [] s) :
    wp (failCmd cfg careful) (fun _ => Accounted) Over s :=
  wp_failCmd (fun _ => outputError_accounts hcfg (h.executing .None).report)
    (fun hc => absurd (hcfg.symm.trans hc) (by decide))

theorem getResult_accounts (fuel : Nat) (ret : Option Nat) (h : Holding [ret] s) :
    wp (getResult cfg careful fuel ret) (fun _ => Accounted) Over s := by
  induction fuel generalizing ret s with
  | zero => exact wp_stuck
  | succ fuel ih =>
    refine wp_getResult (fun hptr => (h.free_of_reset hptr).over _)
      (fun _ hw => Or.inl (h.free_of_not_working hw)) (fun hw hk => ?_) (fun k _ hw hk => ?_)
    · rcases h with h | h
      · exact absurd (h.notWorking.symm.trans hw) (by decide)
      · exact absurd (h.1.callback.symm.trans hk) (Option.some_ne_none _)
    rcases h with h | ⟨h, hf⟩
    · exact absurd (h.notWorking.symm.trans hw) (by decide)
    obtain rfl : s.accepted = k := Option.some.inj (h.callback.symm.trans hk)
    have hcalled : Busy [] (s.log (.callback s.accepted ret)) := h.called
    refine wp_mono (callUser_busy hcalled) (fun _ t ht => ?_) (fun _ ht => ht)
    subst ht
    refine ⟨fun hptr => absurd (h.handle.symm.trans hptr) (by decide), fun _ _ _ _ => ?_, fun _ => ?_⟩
    · exact callUser_accounts hcfg (Or.inl (hcalled.finished hf))
    · have hnext : ∀ r, Holding [] (((s.log (.callback s.accepted ret)).waited r).executing
          .NextResult) := fun r => Or.inr ⟨(hcalled.waited r).executing _, hf⟩
      refine wp_startNextResult (fun hptr => absurd (h.handle.symm.trans hptr) (by decide))
        (fun r _ hr h0 => ?_) (fun r _ _ _ => failCmd_accounts hcfg (hnext r))
        (fun r _ _ _ => startStoreResult_accounts (fun f u hu => ?_) (hnext r))
      · have hbad : s.status_ ≠ .Bad :=
          fun hb => h0 (by simpa [careful, State.executing, State.log, hb] using hr)
        exact (hnext r).asked hbad nofun h0
      · cases f with
        | outputError k => exact outputError_accounts hcfg hu
        | getResult k ret => exact ih ret hu

theorem runFunc_accounts (f : Func) (h : Holding f.results s) :
    wp (runFunc cfg careful fuel f) (fun _ => Accounted) Over s := by
  cases f with
  | outputError k => exact outputError_accounts hcfg h
  | getResult k ret => exact getResult_accounts hcfg fuel ret h

theorem handleCmd_accounts {status : Wait} (h : Accounted s) (hok : s.status_ = .Ok)
    (hqueue : s.execStatus_ = .None ∨ s.funcs_ = []) :
    wp (handleCmd cfg careful fuel status) (fun _ => Accounted) Over s := by
  have hholding : s.execStatus_ ≠ .None → Holding [] s := by
    intro hexec
    rcases h with h | h | ⟨f, h⟩
    · exact Or.inl h
    · exact Or.inr ⟨h.toBusy, h.nothingQueued⟩
    · exact absurd (h.queued.symm.trans (hqueue.resolve_left hexec)) (List.cons_ne_nil _ _)
  have hset : ∀ t, Accounted t → wp setEventDispatcher (fun _ => Accounted) Over t :=
    fun _ ht => setEventDispatcher_accounts ht
  refine wp_handleCmd (fun hexec call => ?_) (fun hexec => ?_) (fun hexec _ => ?_) (fun _ _ => h)
  · have hne : s.execStatus_ ≠ .None := by rcases hexec with he | he <;> simp [he]
    have hs := hholding hne
    refine wp_continueQuery (fun hptr => (hs.free_of_reset hptr).over _)
      (fun r _ h0 => setEventDispatcher_asked (hs.waited r) hok hne h0)
      (fun r _ _ _ => failCmd_accounts hcfg (hs.waited r)) (fun r _ _ _ => ?_)
    exact wp_mono (startStoreResult_accounts (fun f _ hu => runFunc_accounts hcfg f hu) (hs.waited r))
      (fun _ t ht => hset t ht) (fun _ ht => ht)
  · have hne : s.execStatus_ ≠ .None := by simp [hexec]
    have hs := hholding hne
    refine wp_continueStoreResult (fun hptr => (hs.free_of_reset hptr).over _)
      (fun r _ h0 => setEventDispatcher_asked (hs.waited r) hok hne h0)
      (fun r _ _ => failCmd_accounts hcfg (hs.waited r)) (fun r _ _ => ?_)
    exact wp_mono (getResult_accounts hcfg fuel r.ret ((hs.waited r).store r.ret false))
      (fun _ t ht => hset t ht) (fun _ ht => ht)
  · refine handleClosed_accounts hcfg (h.imp_right fun h => h.resolve_left fun hw => ?_)
    exact hw.execStatus hexec

theorem becomeOk_accounts (h : Free s) (hd : s.eventDispatcherPtr_ ≠ none) :
    wp (becomeOk cfg careful) (fun _ => Accounted) Over s :=
  wp_becomeOk (wp_mono (callUser_accounts hcfg (Or.inl ((h.withStatus hd .Ok).log h.follows.status.ok)))
    (fun _ _ ht => setEventDispatcher_accounts ht) (fun _ ht => ht))

theorem characterSetDone_accounts {err : Int} (h : Free s) (hd : s.eventDispatcherPtr_ ≠ none) :
    wp (characterSetDone cfg careful err) (fun _ => Accounted) Over s :=
  wp_characterSetDone (fun _ => h.over _) (fun _ => h.over _)
    (fun _ => handleClosed_accounts hcfg (Or.inl h)) (fun _ => becomeOk_accounts hcfg h hd)

theorem continueSetCharacterSet_accounts {status : Wait} (h : Free s)
    (hd : s.eventDispatcherPtr_ ≠ none) :
    wp (continueSetCharacterSet cfg careful status) (fun _ => Accounted) Over s :=
  wp_continueSetCharacterSet (fun _ => h.over _)
    (fun r _ _ => setEventDispatcher_accounts (Or.inl (h.asked r)))
    (fun r _ _ => characterSetDone_accounts hcfg (h.asked r) hd)

theorem continueConnect_accounts {site : Site} {status : Wait} (h : Free s)
    (hd : s.eventDispatcherPtr_ ≠ none) :
    wp (continueConnect cfg careful site status) (fun _ => Accounted) Over s := by
  refine wp_continueConnect (fun _ => h.over _)
    (fun r _ _ => setEventDispatcher_accounts (Or.inl (h.asked r)))
    (fun r _ _ => (h.asked r).over _)
    (fun r _ _ => handleClosed_accounts hcfg (Or.inl (h.asked r)))
    (fun r _ _ => becomeOk_accounts hcfg (h.asked r) hd) (fun r _ _ => ?_)
  have hr := h.asked r
  refine wp_startSetCharacterSet (fun _ => hr.over _) (fun r' _ _ => ?_)
    (fun r' _ _ => characterSetDone_accounts hcfg (hr.asked r') hd)
  exact setEventDispatcher_accounts (Or.inl ((hr.asked r').withStatus hd _))

theorem handleTimeout_accounts (h : Accounted s) (hd : s.eventDispatcherPtr_ ≠ none) :
    wp (handleTimeout cfg careful) (fun _ => Accounted) Over s :=
  wp_handleTimeout
    (fun _ _ hs => continueConnect_accounts hcfg (h.free_of_status (by simp [hs]) (by simp [hs])) hd)
    (fun _ hs =>
      continueSetCharacterSet_accounts hcfg (h.free_of_status (by simp [hs]) (by simp [hs])) hd)
    (fun _ _ => h)

theorem init_accounts (h : Free s) :
    wp (init cfg careful) (fun _ => Accounted) Over s := by
  have hconnecting : ∀ r, Free (s.connecting r) := fun r =>
    ⟨h.follows.status, h.running, h.notWorking, h.nothingQueued,
      fun hst => h.dispatcher (Or.inr (Or.inr ((hst.resolve_left nofun).resolve_left nofun)))⟩
  have hfail : ∀ r, wp (failInit cfg careful) (fun _ => Accounted) Over (s.connecting r) := fun r =>
    wp_failInit (fun _ => (hconnecting r).over _)
      (callUser_accounts hcfg (Or.inl ((hconnecting r).log h.follows.status.close)))
  refine wp_init (fun _ => ⟨h.follows.status, h.nothingQueued, Option.some_ne_none _⟩)
    (fun r _ _ => hfail r)
    (fun r _ _ _ _ => hfail r) (fun r _ _ => setEventDispatcher_accounts (Or.inl ?_))
  exact ⟨h.follows.status, h.running, h.notWorking, h.nothingQueued, fun _ => Option.some_ne_none _⟩

theorem handle_accounts (fuel : Nat) (l : LoopEvent) (h : Accounted s) (hl : careful.event s l = true) :
    wp (handle cfg careful fuel l) (fun _ => Accounted) Over s := by
  refine wp_handle
    (fun _ hs => init_accounts hcfg (h.free_of_status (by simp [hs]) (by simp [hs])))
    (fun _ _ _ hfd hd => ?_) (fun f rest _ hf => ?_) (fun n _ hn => ?_)
    (fun a _ => perform_accounts hcfg a h)
  · subst hfd
    refine wp_handleEvent
      (fun _ _ hs => continueConnect_accounts hcfg (h.free_of_status (by simp [hs]) (by simp [hs])) hd)
      (fun _ hs =>
        continueSetCharacterSet_accounts hcfg (h.free_of_status (by simp [hs]) (by simp [hs])) hd)
      (fun _ hs => handleCmd_accounts hcfg h hs ?_) (fun _ => h)
    have hqueue : s.status_ ≠ .Ok ∨ s.execStatus_ = .None ∨ s.funcs_ = [] := by
      simpa [careful] using hl
    exact hqueue.resolve_left (not_not.mpr hs)
  · rcases h with h | h | ⟨g, h⟩
    · exact absurd (hf.symm.trans h.nothingQueued) (List.cons_ne_nil _ _)
    · exact absurd (hf.symm.trans h.nothingQueued) (List.cons_ne_nil _ _)
    · obtain ⟨rfl, rfl⟩ : g = f ∧ [] = rest := by simpa using h.queued.symm.trans hf
      exact wp_mono (runFunc_accounts hcfg g h.runs) (fun _ _ ht => ht.returned) (fun _ ht => ht)
  · exact handleTimeout_accounts hcfg (h.erased n) (h.dispatcher (List.ne_nil_of_mem hn))

end Statement

end Run

structure InProgress (k : Nat) (s : State) : Prop where
  running : s.stopped = none
  last : k = s.accepted
  working : s.isWorking_ = true
  callback : s.callback_ = some k
  exceptionCallback : s.exceptionCallback_ = some k
  completion : (∃ f, f.statement = k ∧ s.funcs_ = [f]) ∨
    s.funcs_ = [] ∧ s.status_ = .Ok ∧ s.execStatus_ ≠ .None ∧ s.waitStatus_ ≠ 0

def Func.resultFor (k : Nat) : Func → Option (Option Nat)
  | .outputError _ => none
  | .getResult j ret => if j = k then some ret else none

/-- Every accepted statement gets its results in their order and then one outcome, unless it is
still in progress; nothing of it reaches another statement; and a closed connection with
nothing queued, or a process that has ended, owes no outcome. -/
structure Answered (s : State) : Prop where
  results : ∀ k, s.trace.filterMap (Event.storedFor k) =
    s.trace.filterMap (Event.calledFor k) ++ s.funcs_.filterMap (Func.resultFor k)
  outcome : ∀ k sql_, .accepted k sql_ ∈ s.trace →
    outcomes s.trace k = 1 ∨ outcomes s.trace k = 0 ∧ InProgress k s
  silent : s.trace.Pairwise fun e e' => ∀ k, e.outcomeOf = some k → e'.serves ≠ some k
  own : ∀ k target, .applied k target ∈ s.trace → target = some k
  ownError : ∀ k message sql_, .exception k message sql_ ∈ s.trace → .accepted k sql_ ∈ s.trace
  closed : s.status_ = .Bad ∨ s.stopped ≠ none → s.funcs_ = [] →
    ∀ k sql_, .accepted k sql_ ∈ s.trace → outcomes s.trace k = 1

section Answers

variable {s : State}

theorem answered_of_free (h : Follows s.trace s.accepted none) (hf : s.funcs_ = []) : Answered s := by
  have houtcome : ∀ k sql_, .accepted k sql_ ∈ s.trace → outcomes s.trace k = 1 := by
    intro k sql_ hk
    obtain ⟨hpos, hle⟩ := h.accepted_mem hk
    rw [h.outcomes_eq, if_pos ⟨hpos, by simpa [← Nat.le_iff_lt_or_eq] using hle⟩]
  refine ⟨fun k => ?_, fun k sql_ hk => Or.inl (houtcome k sql_ hk), h.silent,
    fun _ _ => h.applied_target, fun _ _ _ => h.exception_accepted, fun _ _ => houtcome⟩
  simpa [hf] using h.results_eq k

theorem answered_of_busy {results : List (Option Nat)} (h : Busy results s)
    (hresults : ∀ k, s.funcs_.filterMap (Func.resultFor k) = if k = s.accepted then results else [])
    (hcompletion : (∃ f, f.statement = s.accepted ∧ s.funcs_ = [f]) ∨
      s.funcs_ = [] ∧ s.status_ = .Ok ∧ s.execStatus_ ≠ .None ∧ s.waitStatus_ ≠ 0) :
    Answered s := by
  refine ⟨fun k => ?_, fun k sql_ hk => ?_, h.follows.silent, fun _ _ => h.follows.applied_target,
    fun _ _ _ => h.follows.exception_accepted, fun hclosed hf => ?_⟩
  · rw [h.follows.results_eq k, hresults k]
    rfl
  · obtain ⟨hpos, hle⟩ := h.follows.accepted_mem hk
    rcases Nat.lt_or_eq_of_le hle with hlt | rfl
    · left
      rw [h.follows.outcomes_eq, if_pos ⟨hpos, Or.inl hlt⟩]
    · exact Or.inr ⟨h.follows.outcomes_pending,
        h.running, rfl, h.working, h.callback, h.exceptionCallback, hcompletion⟩
  · rcases hcompletion with ⟨f, _, hone⟩ | ⟨_, hok, _⟩
    · exact absurd (hone.symm.trans hf) (List.cons_ne_nil _ _)
    · rcases hclosed with hbad | hstopped
      · exact absurd (hok.symm.trans hbad) (by decide)
      · exact absurd h.running hstopped

theorem Accounted.all_answered (h : Accounted s) : Answered s := by
  rcases h with h | h | ⟨f, h⟩
  · exact answered_of_free h.follows h.nothingQueued
  · refine answered_of_busy h.toBusy (fun k => ?_)
      (Or.inr ⟨h.nothingQueued, h.ok, h.execStatus, h.waitStatus⟩)
    simp [h.nothingQueued]
  · refine answered_of_busy h.toBusy (fun k => ?_) (Or.inl ⟨f, h.statement, h.queued⟩)
    rw [h.queued, ← h.statement]
    cases f with
    | outputError j => simp [Func.resultFor, Func.results, List.filterMap_cons]
    | getResult j ret =>
      by_cases hk : k = j
      · simp [Func.resultFor, Func.results, Func.statement, hk]
      · simp [Func.resultFor, Func.statement, hk, Ne.symm hk]

end Answers

/-- In every run of this kind every accepted statement is answered. -/
theorem statements_answered (cfg : Config) (hcfg : cfg.fatalReturns = true) {s : State}
    (h : (system cfg careful).Reachable s) : Answered s := by
  have hinit : Accounted init₀ := Or.inl ⟨.nil, rfl, rfl, rfl, fun h => by simp [init₀] at h⟩
  have hinv : Accounted s ∨ Over s :=
    reachable_inv hinit (fun _ ht => ht.stopped)
      (fun fuel l _ ht hl => handle_accounts hcfg fuel l ht hl) h
  rcases hinv with hs | hs
  · exact hs.all_answered
  · exact answered_of_free hs.follows hs.nothingQueued

def twoStatements : List (LoopEvent × List Input) :=
  connected ++
    [(.user (.execSqlInLoop insertStatement), [.reply { wait := MYSQL_WAIT_READ }]),
      (.fdEvent true false false,
        [.reply {}, .reply { ret := some 1 }, .turn [], .reply { number := 1 },
          .reply { wait := MYSQL_WAIT_READ }]),
      (.fdEvent true false false,
        [.reply {}, .reply { ret := some 2 }, .turn [], .reply {},
          .turn [.execSqlInLoop insertStatement], .reply { number := 1 }]),
      (.func, [.reply { number := 1064 }, .reply {}, .turn [], .turn []]),
      (.user .disconnect, [])]

theorem statements_answered_twoStatements :
    ∃ s, (system ⟨true, true, List.flatMap escapeByte⟩ careful).run init₀ twoStatements = some s ∧
      s.status_ = .Bad ∧ .finished 1 ∈ s.trace ∧
      .exception 2 [] insertStatement.sql ∈ s.trace ∧ Answered s := by
  obtain ⟨s, hrun, hs⟩ := exists_run (system ⟨true, true, List.flatMap escapeByte⟩ careful) init₀
    twoStatements (fun s => s.status_ = .Bad ∧ .finished 1 ∈ s.trace ∧
      .exception 2 [] insertStatement.sql ∈ s.trace) (by decide)
  obtain ⟨hbad, hfinished, hexception⟩ := of_decide_eq_true hs
  exact ⟨s, hrun, hbad, hfinished, hexception, statements_answered _ rfl
    (System.Reachable.run (System.Reachable.init rfl) hrun)⟩

def eventBeforeError : List (LoopEvent × List Input) :=
  connected ++
    [(.user (.execSqlInLoop insertStatement), [.reply { number := 1 }]),
      (.fdEvent true false false,
        [.reply { number := 1 }, .reply { number := 2014 }, .reply {}, .turn [],
          .turn [.execSqlInLoop insertStatement], .reply { wait := MYSQL_WAIT_READ }]),
      (.func, [.reply { number := 2014 }, .reply {}, .turn [], .turn []])]

def closedBeforeResult : List (LoopEvent × List Input) :=
  connected ++
    [(.user (.execSqlInLoop insertStatement), [.reply {}, .reply { ret := some 1 }]),
      (.fdEvent true false false, [.turn []]),
      (.func, [.turn [], .reply { number := 1 }, .reply { wait := MYSQL_WAIT_READ }])]

def disconnectWhileWaiting : List (LoopEvent × List Input) :=
  connected ++
    [(.user (.execSqlInLoop insertStatement), [.reply { wait := MYSQL_WAIT_READ }]),
      (.user .disconnect, [])]

/-- The first run gives the error of one statement to the next; the other two leave a statement
behind on a closed connection. -/
theorem statement_not_answered :
    (∃ s, (system ⟨true, true, List.flatMap escapeByte⟩ anything).run init₀ eventBeforeError =
      some s ∧ .applied 1 (some 2) ∈ s.trace ∧ .exception 2 [] insertStatement.sql ∈ s.trace ∧
      ¬Answered s) ∧
    ∀ inputs ∈ [closedBeforeResult, disconnectWhileWaiting],
      ∃ s, (system ⟨true, true, List.flatMap escapeByte⟩ anything).run init₀ inputs = some s ∧
        s.status_ = .Bad ∧ s.funcs_ = [] ∧ .accepted 1 insertStatement.sql ∈ s.trace ∧
        outcomes s.trace 1 = 0 ∧ ¬Answered s := by
  refine ⟨?_, fun inputs hinputs => ?_⟩
  · obtain ⟨s, hrun, hs⟩ := exists_run (system ⟨true, true, List.flatMap escapeByte⟩ anything) init₀
      eventBeforeError (fun s => .applied 1 (some 2) ∈ s.trace ∧
        .exception 2 [] insertStatement.sql ∈ s.trace) (by decide)
    obtain ⟨happlied, hexception⟩ := of_decide_eq_true hs
    exact ⟨s, hrun, happlied, hexception, fun h => absurd (h.own 1 (some 2) happlied) (by decide)⟩
  · have htest : ((system ⟨true, true, List.flatMap escapeByte⟩ anything).run init₀ inputs).any
        (fun s => s.status_ = .Bad ∧ s.funcs_ = [] ∧ .accepted 1 insertStatement.sql ∈ s.trace ∧
          outcomes s.trace 1 = 0) = true := by
      rcases List.mem_pair.mp hinputs with rfl | rfl <;> decide
    obtain ⟨s, hrun, hs⟩ := exists_run _ _ _ _ htest
    obtain ⟨hbad, hfuncs, haccepted, hnone⟩ := of_decide_eq_true hs
    exact ⟨s, hrun, hbad, hfuncs, haccepted, hnone, fun h =>
      absurd (hnone.symm.trans (h.closed (Or.inl hbad) hfuncs 1 _ haccepted)) (by decide)⟩

end MysqlConnectPool.MySQLConnector
