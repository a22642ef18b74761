import MysqlConnectPool.MySQLImpl.MySQLConnectorStable
import MysqlConnectPool.MySQLImpl.PlaceholderLexing

/-! Whether the waits that the library asks for are armed. -/

namespace MysqlConnectPool.MySQLConnector

open Library Handler System

/-- Every wait in `waitStatus_` is armed: with read or write interest, or with a timer set
since the wait was returned. -/
structure Armed (s : State) : Prop where
  read : s.waitStatus_.has MYSQL_WAIT_READ = true ∨ s.waitStatus_.has MYSQL_WAIT_EXCEPT = true →
    ∃ d, s.eventDispatcherPtr_ = some d ∧ d.isReading = true
  write : s.waitStatus_.has MYSQL_WAIT_WRITE = true →
    ∃ d, s.eventDispatcherPtr_ = some d ∧ d.isWriting = true
  timeout : s.waitStatus_.has MYSQL_WAIT_TIMEOUT = true → s.waits ∈ s.timed

def State.covers (s : State) (w : Wait) : Bool :=
  s.eventDispatcherPtr_.any (fun d =>
    (d.isReading || !(w.has MYSQL_WAIT_READ || w.has MYSQL_WAIT_EXCEPT)) &&
      (d.isWriting || !w.has MYSQL_WAIT_WRITE)) && !w.has MYSQL_WAIT_TIMEOUT

/-- The answers with which the connector arms every wait.  The calls that a queued
`getResult` makes ask for nothing but what is armed, an error that is not the loss of the
server is handled when nothing is waited for, and there is a socket when something is. -/
def armedAnswers : Environment where
  event _ _ := true
  action _ _ _ := true
  turn _ _ := true
  reply s site call r :=
    match site, call with
    | .getResult, .mysql_next_result_start => !s.inFunc || r.wait = 0 || s.covers r.wait
    | .startStoreResult false, .mysql_store_result_start =>
      !s.inFunc || r.wait = 0 || s.covers r.wait
    | .outputError, .mysql_errno => s.waitStatus_ = 0 || r.gone
    | .init, .mysql_get_socket => s.waitStatus_ = 0 || 0 ≤ r.number
    | _, _ => true

@[simp] theorem Wait.zero_has (bit : Wait) : Wait.has 0#32 bit = false := by
  simp [Wait.has]

theorem armed_of_wait_eq_zero {s : State} (h : s.waitStatus_ = 0) : Armed s := by
  refine ⟨?_, ?_, ?_⟩ <;> simp [h]

theorem armed_armed (s : State) (d : EventDispatcher) : Armed (s.armed d) where
  read h := by
    have h' : s.waitStatus_.has MYSQL_WAIT_READ = true ∨
        s.waitStatus_.has MYSQL_WAIT_EXCEPT = true := h
    exact ⟨_, rfl, by simpa [EventDispatcher.armedFor, or_assoc] using Or.inr h'⟩
  write h := ⟨_, rfl, h⟩
  timeout h := by
    have h' : s.waitStatus_.has MYSQL_WAIT_TIMEOUT = true := h
    simp [State.armed, h']

theorem armed_of_covers {s t : State} (h : s.covers t.waitStatus_ = true)
    (hd : t.eventDispatcherPtr_ = s.eventDispatcherPtr_) : Armed t := by
  unfold State.covers at h
  cases hs : s.eventDispatcherPtr_ with
  | none => simp [hs] at h
  | some d =>
    simp only [hs, Option.any_some, Bool.and_eq_true, Bool.or_eq_true, Bool.not_eq_true',
      Bool.or_eq_false_iff] at h
    obtain ⟨⟨hread, hwrite⟩, htimeout⟩ := h
    have hdt : t.eventDispatcherPtr_ = some d := hd.trans hs
    refine ⟨fun hr => ⟨d, hdt, ?_⟩, fun hw => ⟨d, hdt, ?_⟩, fun ht => ?_⟩
    · refine hread.resolve_right fun hn => ?_
      rcases hr with hr | hr
      · exact Bool.false_ne_true (hn.1.symm.trans hr)
      · exact Bool.false_ne_true (hn.2.symm.trans hr)
    · exact hwrite.resolve_right fun hn => Bool.false_ne_true (hn.symm.trans hw)
    · exact absurd (htimeout.symm.trans ht) Bool.false_ne_true

theorem Armed.keep {s t : State} (h : Armed s) (hwait : t.waitStatus_ = s.waitStatus_)
    (hd : t.eventDispatcherPtr_ = s.eventDispatcherPtr_) (hwaits : t.waits = s.waits)
    (htimed : t.timed = s.timed) : Armed t := by
  refine ⟨?_, ?_, ?_⟩
  · rw [hwait, hd]
    exact h.read
  · rw [hwait, hd]
    exact h.write
  · rw [hwait, hwaits, htimed]
    exact h.timeout

def Ready (s : State) : Prop := s.status_ = .Bad ∨ Armed s

theorem Ready.keep {s t : State} (h : Ready s) (hstatus : t.status_ = s.status_)
    (hwait : t.waitStatus_ = s.waitStatus_) (hd : t.eventDispatcherPtr_ = s.eventDispatcherPtr_)
    (hwaits : t.waits = s.waits) (htimed : t.timed = s.timed) : Ready t :=
  h.imp (fun hs => hstatus.trans hs) (fun ha => ha.keep hwait hd hwaits htimed)

structure Settled (b : Bool) (s : State) : Prop where
  inFunc : s.inFunc = b
  ready : Ready s

/-- Inside a handler: where `setEventDispatcher` does not follow, the waits are armed now. -/
structure Mid (b : Bool) (s : State) : Prop where
  inFunc : s.inFunc = b
  ready : b = true → Ready s

section Run

variable {cfg : Config} {s t : State} {b : Bool}

theorem Settled.mid (h : Settled b s) : Mid b s := ⟨h.inFunc, fun _ => h.ready⟩

theorem Settled.keep (h : Settled b s) (hin : t.inFunc = s.inFunc)
    (hstatus : t.status_ = s.status_) (hwait : t.waitStatus_ = s.waitStatus_)
    (hd : t.eventDispatcherPtr_ = s.eventDispatcherPtr_) (hwaits : t.waits = s.waits)
    (htimed : t.timed = s.timed) : Settled b t :=
  ⟨hin.trans h.inFunc, h.ready.keep hstatus hwait hd hwaits htimed⟩

theorem Mid.keep (h : Mid b s) (hin : t.inFunc = s.inFunc)
    (hstatus : t.status_ = s.status_) (hwait : t.waitStatus_ = s.waitStatus_)
    (hd : t.eventDispatcherPtr_ = s.eventDispatcherPtr_) (hwaits : t.waits = s.waits)
    (htimed : t.timed = s.timed) : Mid b t :=
  ⟨hin.trans h.inFunc, fun hb => (h.ready hb).keep hstatus hwait hd hwaits htimed⟩

theorem settled_of_wait_eq_zero (hin : s.inFunc = b) (h : s.waitStatus_ = 0) : Settled b s :=
  ⟨hin, Or.inr (armed_of_wait_eq_zero h)⟩

theorem setEventDispatcher_settles (h : s.inFunc = b) :
    wp setEventDispatcher (fun _ => Settled b) Halted s :=
  wp_setEventDispatcher_end (fun d _ _ => ⟨h, Or.inr (armed_armed s d)⟩)
    (fun _ _ _ _ => halted_halted _ _) (fun _ => halted_halted _ _)

theorem startQuery_keeps (h : s.inFunc = b) :
    wp (startQuery cfg armedAnswers) (fun _ t => t.inFunc = b) Halted s :=
  wp_startQuery (fun _ => halted_halted _ _) (fun _ _ _ _ => h)
    (fun _ _ _ _ _ => ⟨fun _ => h, fun _ => halted_halted _ _⟩)
    (fun _ _ _ _ _ => wp_startStoreResult (fun _ => halted_halted _ _) (fun _ _ _ _ => h)
      (fun _ _ _ _ _ => ⟨fun _ => h, nofun⟩)
      (fun _ _ _ _ => ⟨fun _ => h, nofun⟩))

theorem perform_settles {origin : Option Callback} (a : Action) (h : s.inFunc = b) :
    wp (perform cfg armedAnswers origin a) (fun _ => Settled b) Halted s := by
  refine wp_perform (fun statement _ _ => ?_) (fun _ _ => ?_)
  · refine wp_execSqlInLoop (halted_halted _ _) (fun sql_ _ _ => ?_)
    exact wp_mono (startQuery_keeps h) (fun _ _ ht => setEventDispatcher_settles ht)
      (fun _ ht => ht)
  · exact wp_disconnect (fun _ => ⟨h, Or.inl rfl⟩) (fun _ => halted_halted _ _)

theorem callUser_settled {cb : Callback} (h : Settled b s) :
    wp (callUser cfg armedAnswers cb) (fun _ => Settled b) Halted s :=
  wp_callUser (fun a _ ht => perform_settles a ht.inFunc) (fun _ => h)

theorem callUser_mid {cb : Callback} (h : Mid b s) :
    wp (callUser cfg armedAnswers cb) (fun _ => Mid b) Halted s :=
  wp_callUser (fun a _ ht => wp_mono (perform_settles a ht.inFunc) (fun _ _ hu => hu.mid)
    (fun _ hu => hu)) (fun _ => h)

theorem callUser_keeps {cb : Callback} (h : s.inFunc = b) :
    wp (callUser cfg armedAnswers cb) (fun _ t => t.inFunc = b) Halted s :=
  wp_callUser (fun a _ ht => wp_mono (perform_settles a ht) (fun _ _ hu => hu.inFunc)
    (fun _ hu => hu)) (fun _ => h)

theorem handleClosed_settles (h : s.inFunc = b) :
    wp (handleClosed cfg armedAnswers) (fun _ => Settled b) Halted s :=
  wp_handleClosed (fun hbad => ⟨h, Or.inl hbad⟩) (fun _ _ => halted_halted _ _)
    (fun _ _ => callUser_settled ⟨h, Or.inl rfl⟩)

theorem outputError_settles (h : s.inFunc = b) :
    wp (outputError cfg armedAnswers) (fun _ => Settled b) Halted s := by
  have hwait : ∀ {e : Reply}, armedAnswers.reply s.disabled .outputError .mysql_errno e = true →
      e.gone = false → s.waitStatus_ = 0 := by
    intro e he hgone
    simpa [armedAnswers, hgone, State.disabled] using he
  refine wp_outputError (fun _ => halted_halted _ _) (fun _ _ => halted_halted _ _)
    (fun _ _ => halted_halted _ _) (fun e _ he _ => ⟨fun _ => handleClosed_settles h, fun hg => ?_⟩)
    (fun _ _ _ => halted_halted _ _) (fun e k message _ _ he _ _ => ?_)
  · exact settled_of_wait_eq_zero h (hwait he hg)
  · cases hgone : e.gone with
    | true =>
      refine wp_mono (callUser_keeps h)
        (fun _ t ht => ⟨fun _ => ?_, fun hg => absurd hg.symm Bool.false_ne_true⟩) (fun _ ht => ht)
      exact handleClosed_settles ht
    | false =>
      have hsettled : Settled b (s.disabled.log (.exception k message s.sql_)) :=
        settled_of_wait_eq_zero h (hwait he hgone)
      refine wp_mono (callUser_settled hsettled)
        (fun _ t ht => ⟨fun hg => absurd hg Bool.false_ne_true, fun _ => ?_⟩) (fun _ ht => ht)
      exact callUser_settled (ht.keep rfl rfl rfl rfl rfl rfl)

theorem failCmd_settles (h : s.inFunc = b) :
    wp (failCmd cfg armedAnswers) (fun _ => Settled b) Halted s :=
  wp_failCmd (fun _ => outputError_settles h) (fun _ => halted_halted _ _)

theorem mid_of_answer {r : Reply} (h : s.inFunc = b)
    (hr : (!s.inFunc || r.wait = 0 || s.covers r.wait) = true)
    (hin : t.inFunc = s.inFunc) (hwait : t.waitStatus_ = r.wait)
    (hd : t.eventDispatcherPtr_ = s.eventDispatcherPtr_) : Mid b t := by
  refine ⟨hin.trans h, fun hb => Or.inr ?_⟩
  rw [h, hb] at hr
  by_cases h0 : r.wait = 0
  · exact armed_of_wait_eq_zero (hwait.trans h0)
  · refine armed_of_covers (s := s) ?_ hd
    have hcovers : r.wait = 0 ∨ s.covers r.wait = true := by simpa using hr
    rw [hwait]
    exact hcovers.resolve_left h0

theorem startStoreResult_mid {direct : Func → M Unit}
    (herror : ∀ k t, Settled b t → wp (direct (.outputError k)) (fun _ => Mid b) Halted t)
    (hresult : ∀ k ret t, Settled b t → wp (direct (.getResult k ret)) (fun _ => Mid b) Halted t)
    (h : s.inFunc = b) :
    wp (startStoreResult armedAnswers direct false) (fun _ => Mid b) Halted s :=
  wp_startStoreResult (fun _ => halted_halted _ _)
    (fun _ _ hr _ => mid_of_answer (s := s.executing .StoreResult) h hr rfl rfl rfl)
    (fun _ _ _ h0 _ => ⟨nofun,
      fun _ => herror _ _ (settled_of_wait_eq_zero h h0)⟩)
    (fun _ _ _ h0 => ⟨nofun,
      fun _ => hresult _ _ _ (settled_of_wait_eq_zero h h0)⟩)

theorem getResult_mid (fuel : Nat) (ret : Option Nat) (h : Mid b s) :
    wp (getResult cfg armedAnswers fuel ret) (fun _ => Mid b) Halted s := by
  induction fuel generalizing ret s with
  | zero => exact wp_stuck
  | succ fuel ih =>
    refine wp_getResult (fun _ => halted_halted _ _) (fun _ _ => h) (fun _ _ => halted_halted _ _)
      (fun k _ _ _ => ?_)
    have hcall : Mid b (s.log (.callback k ret)) := h.keep rfl rfl rfl rfl rfl rfl
    refine wp_mono (callUser_mid hcall) (fun _ t ht => ?_) (fun _ ht => ht)
    refine ⟨fun _ => halted_halted _ _, fun _ _ _ _ => ?_, fun _ => ?_⟩
    · exact callUser_mid (ht.keep rfl rfl rfl rfl rfl rfl)
    · have hin : t.inFunc = b := ht.inFunc
      refine wp_startNextResult (fun _ => halted_halted _ _) (fun _ _ hr _ => ?_)
        (fun _ _ _ _ => ?_) (fun _ _ _ _ => ?_)
      · exact mid_of_answer (s := t.executing .NextResult) hin hr rfl rfl rfl
      · exact wp_mono (failCmd_settles hin) (fun _ _ hu => hu.mid) (fun _ hu => hu)
      · exact startStoreResult_mid
          (fun _ _ hu => wp_mono (outputError_settles hu.inFunc) (fun _ _ hv => hv.mid)
            (fun _ hv => hv))
          (fun _ ret _ hu => ih ret hu.mid) hin

theorem handleCmd_settles {fuel : Nat} {status : Wait} (h : Settled b s) :
    wp (handleCmd cfg armedAnswers fuel status) (fun _ => Settled b) Halted s := by
  have hin : s.inFunc = b := h.inFunc
  have hlast : ∀ {t}, Mid b t → wp setEventDispatcher (fun _ => Settled b) Halted t :=
    fun ht => setEventDispatcher_settles ht.inFunc
  refine wp_handleCmd (fun _ call => ?_) (fun _ => ?_) (fun _ _ => handleClosed_settles hin)
    (fun _ _ => h)
  · refine wp_continueQuery (fun _ => halted_halted _ _)
      (fun _ _ _ => setEventDispatcher_settles hin) (fun _ _ _ _ => failCmd_settles hin)
      (fun r _ _ _ => ?_)
    have hr : (s.waited r).inFunc = b := hin
    refine wp_mono (startStoreResult_mid ?_ ?_ hr) (fun _ _ ht => hlast ht) (fun _ ht => ht)
    · exact fun _ _ hu => wp_mono (outputError_settles hu.inFunc) (fun _ _ hv => hv.mid)
        (fun _ hv => hv)
    · exact fun _ ret _ hu => getResult_mid fuel ret hu.mid
  · refine wp_continueStoreResult (fun _ => halted_halted _ _)
      (fun _ _ _ => setEventDispatcher_settles hin) (fun _ _ _ => failCmd_settles hin)
      (fun r _ h0 => ?_)
    have hr : Settled b ((s.waited r).logWorking fun k => .stored k r.ret false) :=
      settled_of_wait_eq_zero hin h0
    exact wp_mono (getResult_mid fuel r.ret hr.mid) (fun _ _ ht => hlast ht) (fun _ ht => ht)

theorem becomeOk_settles (hin : s.inFunc = b) :
    wp (becomeOk cfg armedAnswers) (fun _ => Settled b) Halted s :=
  wp_becomeOk (wp_mono (callUser_keeps hin) (fun _ _ ht => setEventDispatcher_settles ht)
    (fun _ ht => ht))

theorem characterSetDone_settles {err : Int} (hin : s.inFunc = b) :
    wp (characterSetDone cfg armedAnswers err) (fun _ => Settled b) Halted s :=
  wp_characterSetDone (fun _ => halted_halted _ _) (fun _ => halted_halted _ _)
    (fun _ => handleClosed_settles hin) (fun _ => becomeOk_settles hin)

theorem continueSetCharacterSet_settles {status : Wait} (hin : s.inFunc = b) :
    wp (continueSetCharacterSet cfg armedAnswers status) (fun _ => Settled b) Halted s :=
  wp_continueSetCharacterSet (fun _ => halted_halted _ _)
    (fun _ _ _ => setEventDispatcher_settles hin) (fun _ _ _ => characterSetDone_settles hin)

theorem continueConnect_settles {site : Site} {status : Wait} (hin : s.inFunc = b) :
    wp (continueConnect cfg armedAnswers site status) (fun _ => Settled b) Halted s :=
  wp_continueConnect (fun _ => halted_halted _ _) (fun _ _ _ => setEventDispatcher_settles hin)
    (fun _ _ _ => halted_halted _ _) (fun _ _ _ => handleClosed_settles hin)
    (fun _ _ _ => becomeOk_settles hin)
    (fun _ _ _ => wp_startSetCharacterSet (fun _ => halted_halted _ _)
      (fun _ _ _ => setEventDispatcher_settles hin) (fun _ _ _ => characterSetDone_settles hin))

theorem init_settles (hin : s.inFunc = b) :
    wp (init cfg armedAnswers) (fun _ => Settled b) Halted s := by
  have hfail : ∀ {r}, r.wait = 0 → wp (failInit cfg armedAnswers) (fun _ => Settled b) Halted
      (s.connecting r) := by
    intro r h0
    have hclose : Settled b ((s.connecting r).log .close) := settled_of_wait_eq_zero hin h0
    exact wp_failInit (fun _ => halted_halted _ _) (callUser_settled hclose)
  refine wp_init (fun _ => halted_halted _ _) (fun _ _ h0 => hfail h0)
    (fun r fd _ hneg hfd => hfail ?_) (fun _ _ _ => setEventDispatcher_settles hin)
  have hsocket : (s.connecting r).waitStatus_ = 0 ∨ 0 ≤ fd.number := by
    simpa only [armedAnswers, Bool.or_eq_true, decide_eq_true_eq] using hfd
  exact hsocket.resolve_right (by omega)

theorem runFunc_settles {fuel : Nat} {f : Func} {rest : List Func} (h : Settled false s) :
    wp (runFunc cfg armedAnswers fuel f) (fun _ t => Settled false { t with inFunc := false }) Halted
      (s.running f rest) := by
  have hrun : Settled true (s.running f rest) := ⟨rfl, h.ready.keep rfl rfl rfl rfl rfl⟩
  have hback : ∀ {t}, Ready t → Settled false { t with inFunc := false } :=
    fun ht => ⟨rfl, ht.keep rfl rfl rfl rfl rfl⟩
  cases f with
  | outputError k =>
    exact wp_mono (outputError_settles hrun.inFunc) (fun _ _ ht => hback ht.ready) (fun _ ht => ht)
  | getResult k ret =>
    exact wp_mono (getResult_mid fuel ret hrun.mid) (fun _ _ ht => hback (ht.ready rfl))
      (fun _ ht => ht)

theorem handle_settles (fuel : Nat) (l : LoopEvent) (h : Settled false s) :
    wp (handle cfg armedAnswers fuel l) (fun _ => Settled false) Halted s := by
  refine wp_handle (fun _ _ => init_settles h.inFunc) (fun _ _ _ _ _ => ?_)
    (fun f rest _ _ => runFunc_settles h) (fun n _ _ => ?_) (fun a _ => perform_settles a h.inFunc)
  · exact wp_handleEvent (fun _ _ _ => continueConnect_settles h.inFunc)
      (fun _ _ => continueSetCharacterSet_settles h.inFunc) (fun _ _ => handleCmd_settles h)
      (fun _ => h)
  · have hn : Settled false { s with timers := s.timers.erase n } :=
      h.keep rfl rfl rfl rfl rfl rfl
    exact wp_handleTimeout (fun _ _ _ => continueConnect_settles hn.inFunc)
      (fun _ _ => continueSetCharacterSet_settles hn.inFunc) (fun _ _ => hn)

end Run

/-- Between handlers every wait is armed, in all runs with such answers. -/
theorem waits_armed (cfg : Config) {s : State} (h : (system cfg armedAnswers).Reachable s)
    (hrun : s.stopped = none) (hstatus : s.status_ ≠ .Bad) : Armed s := by
  have hinv : Settled false s ∨ Halted s :=
    reachable_inv (settled_of_wait_eq_zero rfl rfl) (fun _ ht => ht)
      (fun fuel l _ ht _ => handle_settles fuel l ht) h
  rcases hinv with hsettled | hhalted
  · exact hsettled.ready.resolve_left hstatus
  · exact absurd hrun hhalted

def secondResult : List (LoopEvent × List Input) :=
  connected ++
    [(.user (.execSqlInLoop insertStatement), [.reply {}, .reply { ret := some 1 }]),
      (.func, [.turn [], .reply { number := 1 }, .reply { wait := MYSQL_WAIT_READ }])]

theorem waits_armed_secondResult :
    ∃ s, (system ⟨true, true, List.flatMap escapeByte⟩ armedAnswers).run init₀ secondResult = some s ∧
      s.waitStatus_ = MYSQL_WAIT_READ ∧ Armed s := by
  obtain ⟨s, hrun, hs⟩ := exists_run (system ⟨true, true, List.flatMap escapeByte⟩ armedAnswers)
    init₀ secondResult (fun s => s.stopped = none ∧ s.status_ ≠ .Bad ∧
      s.waitStatus_ = MYSQL_WAIT_READ) (by decide)
  obtain ⟨hstopped, hstatus, hwait⟩ := of_decide_eq_true hs
  exact ⟨s, hrun, hwait, waits_armed _ (System.Reachable.run (System.Reachable.init rfl) hrun)
    hstopped hstatus⟩

def secondResultTimeout : List (LoopEvent × List Input) :=
  connected ++
    [(.user (.execSqlInLoop insertStatement), [.reply {}, .reply { ret := some 1 }]),
      (.func, [.turn [], .reply { number := 1 },
        .reply { wait := MYSQL_WAIT_READ ||| MYSQL_WAIT_TIMEOUT }])]

theorem wait_not_armed :
    ∃ s, (system ⟨true, true, List.flatMap escapeByte⟩ anything).run init₀ secondResultTimeout =
        some s ∧
      s.stopped = none ∧ s.status_ = .Ok ∧ ¬Armed s := by
  obtain ⟨s, hrun, hs⟩ := exists_run (system ⟨true, true, List.flatMap escapeByte⟩ anything)
    init₀ secondResultTimeout (fun s => s.stopped = none ∧ s.status_ = .Ok ∧
      s.waitStatus_.has MYSQL_WAIT_TIMEOUT = true ∧ s.waits ∉ s.timed) (by decide)
  obtain ⟨hstopped, hstatus, htimeout, hnone⟩ := of_decide_eq_true hs
  exact ⟨s, hrun, hstopped, hstatus, fun harmed => hnone (harmed.timeout htimeout)⟩

end MysqlConnectPool.MySQLConnector
