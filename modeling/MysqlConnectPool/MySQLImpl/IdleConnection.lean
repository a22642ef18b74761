import MysqlConnectPool.MySQLImpl.LifeCycle

/-! Whether an idle connection notices that the server closes it. -/

namespace MysqlConnectPool.MySQLConnector

open Library Handler System

def State.isReading (s : State) : Bool := s.eventDispatcherPtr_.any fun d => d.isReading

structure Idle (s : State) : Prop where
  running : s.stopped = none
  ok : s.status_ = .Ok
  notWorking : s.isWorking_ = false
  nothingQueued : s.funcs_ = []

/-- What leads a readable event to `handleClosed`. -/
structure Watching (s : State) : Prop where
  execStatus : s.execStatus_ = .None
  waitStatus : s.waitStatus_ = 0
  reading : s.isReading = true

def Event.storedBy (k : Nat) : Event → Option Bool
  | .stored j _ atOnce => if j = k then some atOnce else none
  | _ => none

/-- The call that started to store the last result of the statement also finished it. -/
def State.storedAtOnce (s : State) : Bool :=
  (s.trace.filterMap (Event.storedBy s.accepted)).getLast? = some true

def Wait.toRead (w : Wait) : Bool := w.has MYSQL_WAIT_READ || w.has MYSQL_WAIT_EXCEPT

/-- A call of the handshake, or a statement when it was started, has asked to wait for something
to read. -/
def State.askedToRead (s : State) : Bool := s.asks.any Wait.toRead

/-- The answers that keep it so: errors are losses of the server, the last result set has
been stored by the call that starts it, and before `okCallback_` a call has asked to wait for
something to read. -/
def watchedAnswers : Environment where
  event _ _ := true
  action _ _ _ := true
  turn s cb := cb ≠ .okCallback_ || s.askedToRead
  reply s site call r :=
    match site, call with
    | .outputError, .mysql_errno => r.gone
    | .getResult, .mysql_more_results => r.number ≠ 0 || s.storedAtOnce
    | _, _ => true

/-- The connection is lost, or will be when the queue has run. -/
def Doomed (s : State) : Prop := s.status_ = .Bad ∨ ∃ k, .outputError k ∈ s.funcs_

theorem stable_doomed : Stable Doomed where
  waited _ _ h := h
  noted _ h := h
  executing _ _ h := h
  log _ _ _ h := h
  queued _ _ h := h.imp_right fun ⟨k, hk⟩ => ⟨k, List.mem_append_left _ hk⟩
  interest _ _ _ h := h
  armed _ _ _ h := h
  cleared _ h := h
  accept _ _ h := h
  closed _ _ _ _ := Or.inl rfl
  disconnected _ _ _ := Or.inl rfl
  bad _ _ := Or.inl rfl
  halted _ _ h := h

structure Reading (s : State) : Prop where
  ok : s.status_ = .Ok → s.isReading = true
  asked : s.askedToRead = true → s.isReading = true ∨ s.eventDispatcherPtr_ = none
  fresh : s.status_ = .None → s.asks = [] ∨ s.eventDispatcherPtr_ ≠ none

structure Steady (s : State) : Prop where
  reading : Reading s
  idle : s.isWorking_ = false →
    s.execStatus_ = .None ∧ (s.status_ = .Ok → s.waitStatus_ = 0) ∧ s.funcs_ = []
  queue : s.funcs_ = [] ∨ ∃ k ret, s.funcs_ = [.getResult k ret] ∧ s.execStatus_ = .None ∧
    (s.status_ = .Ok → s.waitStatus_ = 0)

structure Stepping (s : State) : Prop where
  working : s.isWorking_ = true
  reading : Reading s
  nothingQueued : s.funcs_ = []

structure Shaking (s : State) : Prop where
  notNone : s.status_ ≠ .None
  notOk : s.status_ ≠ .Ok
  asked : s.askedToRead = true →
    s.isReading = true ∨ s.eventDispatcherPtr_ = none ∨ s.waitStatus_.toRead = true
  idle : s.isWorking_ = false → s.execStatus_ = .None ∧ s.funcs_ = []
  queue : s.funcs_ = [] ∨ ∃ k ret, s.funcs_ = [.getResult k ret] ∧ s.execStatus_ = .None

def Safe (s : State) : Prop := Doomed s ∨ Steady s

theorem State.askedToRead_noted (s : State) :
    s.noted.askedToRead = (s.askedToRead || s.waitStatus_.toRead) := by
  simp [State.askedToRead, State.noted]

theorem State.storedAtOnce_log (s : State) {e : Event} (he : e.storedBy s.accepted = none) :
    (s.log e).storedAtOnce = s.storedAtOnce := by
  simp [State.storedAtOnce, State.log, he]

theorem State.storedAtOnce_logWorking {s : State} (hworking : s.isWorking_ = true) (ret : Option Nat)
    (atOnce : Bool) : (s.logWorking fun k => .stored k ret atOnce).storedAtOnce = atOnce := by
  simp [State.storedAtOnce, State.logWorking, hworking, Event.storedBy]

section Run

variable {cfg : Config} {s t : State} {fuel : Nat}

theorem Reading.keep (h : Reading s) (hstatus : t.status_ = s.status_)
    (hd : t.eventDispatcherPtr_ = s.eventDispatcherPtr_) (hasks : t.asks = s.asks) :
    Reading t where
  ok ht := by
    rw [State.isReading, hd]
    exact h.ok (hstatus.symm.trans ht)
  asked ht := by
    rw [State.askedToRead, hasks] at ht
    rw [State.isReading, hd]
    exact h.asked ht
  fresh ht := by
    rw [hasks, hd]
    exact h.fresh (hstatus.symm.trans ht)

theorem Stepping.steady (h : Stepping s) : Steady s where
  reading := h.reading
  idle hw := absurd (h.working.symm.trans hw) (by decide)
  queue := Or.inl h.nothingQueued

theorem Stepping.keep (h : Stepping s) (hworking : t.isWorking_ = s.isWorking_)
    (hstatus : t.status_ = s.status_) (hd : t.eventDispatcherPtr_ = s.eventDispatcherPtr_)
    (hfuncs : t.funcs_ = s.funcs_) (hasks : t.asks = s.asks) : Stepping t where
  working := hworking.trans h.working
  reading := h.reading.keep hstatus hd hasks
  nothingQueued := hfuncs.trans h.nothingQueued

theorem Wait.toRead_zero : Wait.toRead 0 = false := by decide

theorem Shaking.steady (h : Shaking s) (h0 : s.waitStatus_ = 0) : Steady s where
  reading := by
    refine ⟨fun hs => absurd hs h.notOk, fun ha => ?_, fun hs => absurd hs h.notNone⟩
    refine (h.asked ha).imp_right fun hwait => hwait.resolve_right ?_
    rw [h0, Wait.toRead_zero]
    exact Bool.false_ne_true
  idle hw := ⟨(h.idle hw).1, fun hs => absurd hs h.notOk, (h.idle hw).2⟩
  queue := h.queue.imp_right fun ⟨k, ret, hf, he⟩ => ⟨k, ret, hf, he, fun hs => absurd hs h.notOk⟩

theorem State.isReading_armed {d : EventDispatcher} (hd : s.eventDispatcherPtr_ = some d)
    (h : s.isReading = true ∨ s.waitStatus_.toRead = true) : (s.armed d).isReading = true := by
  simp only [State.isReading, hd, Option.any_some] at h
  simp only [State.isReading, State.armed, EventDispatcher.armedFor, Option.any_some, Bool.or_assoc,
    Bool.or_eq_true_iff] at h ⊢
  simpa only [Wait.toRead, Bool.or_eq_true_iff] using h

theorem Reading.armed (h : Reading s) {d : EventDispatcher} (hd : s.eventDispatcherPtr_ = some d) :
    Reading (s.armed d) where
  ok hs := State.isReading_armed hd (Or.inl (h.ok hs))
  asked ha := Or.inl (State.isReading_armed hd
    (Or.inl ((h.asked ha).resolve_right (hd ▸ Option.some_ne_none d))))
  fresh _ := Or.inr (Option.some_ne_none _)

theorem Reading.noted_armed (h : Reading s) {d : EventDispatcher}
    (hd : s.eventDispatcherPtr_ = some d) : Reading (s.noted.armed d) where
  ok hs := State.isReading_armed hd (Or.inl (h.ok hs))
  asked ha := by
    refine Or.inl (State.isReading_armed (s := s.noted) hd ?_)
    rcases Bool.or_eq_true_iff.mp (s.askedToRead_noted.symm.trans ha) with hold | hnew
    · exact Or.inl ((h.asked hold).resolve_right (hd ▸ Option.some_ne_none d))
    · exact Or.inr hnew
  fresh _ := Or.inr (Option.some_ne_none _)

theorem setEventDispatcher_safe (h : Safe s) :
    wp setEventDispatcher (fun _ => Safe) Halted s := by
  rcases h with h | h
  · exact wp_mono (stable_doomed.setEventDispatcher h) (fun _ _ ht => Or.inl ht) (fun _ ht => ht.2)
  · refine wp_setEventDispatcher_end (fun d hd _ => Or.inr ?_) (fun _ _ _ _ => halted_halted _ _)
      (fun _ => halted_halted _ _)
    exact ⟨h.reading.armed hd, h.idle, h.queue⟩

theorem setEventDispatcher_noted (h : Safe s) :
    wp setEventDispatcher (fun _ => Safe) Halted s.noted := by
  rcases h with h | h
  · exact wp_mono (stable_doomed.setEventDispatcher (stable_doomed.noted s h))
      (fun _ _ ht => Or.inl ht) (fun _ ht => ht.2)
  · refine wp_setEventDispatcher_end (fun d hd _ => Or.inr ?_) (fun _ _ _ _ => halted_halted _ _)
      (fun _ => halted_halted _ _)
    exact ⟨h.reading.noted_armed hd, h.idle, h.queue⟩

theorem setEventDispatcher_shaking (h : Shaking s) :
    wp setEventDispatcher (fun _ => Safe) Halted s := by
  refine wp_setEventDispatcher_end (fun d hd _ => Or.inr ?_) (fun _ _ _ _ => halted_halted _ _)
    (fun _ => halted_halted _ _)
  have harmed : s.askedToRead = true → (s.armed d).isReading = true := by
    intro ha
    refine State.isReading_armed hd ((h.asked ha).imp_right fun hwait => ?_)
    exact hwait.resolve_left (hd ▸ Option.some_ne_none d)
  refine ⟨⟨fun hs => absurd hs h.notOk, fun ha => Or.inl (harmed ha), fun hs => absurd hs h.notNone⟩,
    fun hw => ⟨(h.idle hw).1, fun hs => absurd hs h.notOk, (h.idle hw).2⟩, ?_⟩
  exact h.queue.imp_right fun ⟨k, ret, hf, he⟩ => ⟨k, ret, hf, he, fun hs => absurd hs h.notOk⟩

theorem startStoreResult_safe {direct : Func → M Unit} {queue : Bool}
    (herror : ∀ k t, wp (direct (.outputError k)) (fun _ => Safe) Halted t)
    (hresult : ∀ k ret t, Stepping t → t.waitStatus_ = 0 → t.execStatus_ = .None →
      wp (direct (.getResult k ret)) (fun _ => Safe) Halted t) (h : Stepping s) :
    wp (startStoreResult watchedAnswers direct queue) (fun _ => Safe) Halted s := by
  refine wp_startStoreResult (fun _ => halted_halted _ _) (fun r _ _ _ => ?_)
    (fun r _ _ _ _ => ⟨fun _ => ?_, fun _ => herror _ _⟩)
    (fun r _ _ h0 => ⟨fun _ => ?_, fun _ => ?_⟩)
  · have hr : Stepping ((s.waited r).executing .StoreResult) := h.keep rfl rfl rfl rfl rfl
    exact Or.inr hr.steady
  · exact Or.inl (Or.inr ⟨s.accepted, List.mem_append_right _ (List.mem_singleton_self _)⟩)
  · refine Or.inr ⟨h.reading.keep rfl rfl rfl, fun hw => absurd (h.working.symm.trans hw) (by decide),
      Or.inr ?_⟩
    have hfuncs : s.funcs_ ++ [.getResult s.accepted r.ret] = [.getResult s.accepted r.ret] := by
      rw [h.nothingQueued, List.nil_append]
    exact ⟨s.accepted, r.ret, hfuncs, rfl, fun _ => h0⟩
  · exact hresult _ _ _ (h.keep rfl rfl rfl rfl rfl) h0 rfl

theorem execSqlInLoop_safe {statement : Statement} (h : Safe s) :
    wp (execSqlInLoop cfg watchedAnswers statement) (fun _ => Safe) Halted s := by
  rcases h with h | h
  · exact wp_mono (stable_doomed.execSqlInLoop h) (fun _ _ ht => Or.inl ht) (fun _ ht => ht.2)
  · refine wp_execSqlInLoop (halted_halted _ _) (fun sql_ hworking _ => ?_)
    have haccept : Stepping (s.accept sql_) :=
      ⟨rfl, h.reading.keep rfl rfl rfl, (h.idle hworking).2.2⟩
    refine wp_mono (Q := fun _ => Safe) ?_ (fun _ _ ht => setEventDispatcher_noted ht)
      (fun _ ht => ht)
    have hquery : ∀ r, Stepping (((s.accept sql_).waited r).executing .RealQuery) :=
      fun r => haccept.keep rfl rfl rfl rfl rfl
    refine wp_startQuery (fun _ => halted_halted _ _) (fun r _ _ _ => Or.inr (hquery r).steady)
      (fun r _ _ _ _ => ⟨fun _ => ?_, fun _ => halted_halted _ _⟩) (fun r _ _ _ _ => ?_)
    · exact Or.inl (Or.inr ⟨_, List.mem_append_right _ (List.mem_singleton_self _)⟩)
    · exact startStoreResult_safe (fun _ _ => wp_stuck) (fun _ _ _ _ _ _ => wp_stuck) (hquery r)

theorem perform_safe {origin : Option Callback} (a : Action) (h : Safe s) :
    wp (perform cfg watchedAnswers origin a) (fun _ => Safe) Halted s :=
  wp_perform (fun _ _ _ => execSqlInLoop_safe h)
    (fun _ _ => wp_disconnect (fun _ => Or.inl (Or.inl rfl)) (fun _ => halted_halted _ _))

theorem callUser_safe {cb : Callback} (h : watchedAnswers.turn s cb = true → Safe s) :
    wp (callUser cfg watchedAnswers cb) (fun _ => Safe) Halted s :=
  wp_callUser (fun a _ ht => perform_safe a ht) h

theorem callUser_working {I : State → Prop} (hworking : ∀ t, I t → t.isWorking_ = true) {cb : Callback}
    (h : I s) :
    wp (callUser cfg watchedAnswers cb) (fun _ t => Doomed t ∨ I t) Halted s := by
  refine wp_callUser (fun a t ht => ?_) (fun _ => Or.inr h)
  rcases ht with ht | ht
  · exact wp_mono (stable_doomed.perform a ht) (fun _ _ hu => Or.inl hu) (fun _ hu => hu.2)
  · refine wp_perform (fun _ _ _ => ?_)
      (fun _ _ => wp_disconnect (fun _ => Or.inl (Or.inl rfl)) (fun _ => halted_halted _ _))
    exact wp_execSqlInLoop (halted_halted _ _)
      (fun _ hw _ => absurd ((hworking t ht).symm.trans hw) (by decide))

theorem handleClosed_bad :
    wp (handleClosed cfg watchedAnswers) (fun _ t => t.status_ = .Bad) Halted s :=
  wp_handleClosed (fun h => h) (fun _ _ => halted_halted _ _)
    (fun _ _ => wp_mono (stable_bad.callUser rfl) (fun _ _ ht => ht) (fun _ ht => ht.2))

theorem outputError_bad :
    wp (outputError cfg watchedAnswers) (fun _ t => t.status_ = .Bad) Halted s := by
  have hgone : ∀ {e : Reply}, watchedAnswers.reply s.disabled .outputError .mysql_errno e = true →
      e.gone ≠ false := by
    intro e he hfalse
    exact absurd (hfalse.symm.trans he) (by decide)
  refine wp_outputError (fun _ => halted_halted _ _) (fun _ _ => halted_halted _ _)
    (fun _ _ => halted_halted _ _)
    (fun e _ he _ => ⟨fun _ => handleClosed_bad, fun hg => absurd hg (hgone he)⟩)
    (fun _ _ _ => halted_halted _ _) (fun e k message _ _ he _ _ => ?_)
  have hany : wp (callUser cfg watchedAnswers .exceptionCallback_) (fun _ _ => True) Halted
      (s.disabled.log (.exception k message s.sql_)) :=
    wp_callUser (fun a t _ => wp_mono (stable_true.perform a trivial) (fun _ _ _ => trivial)
      (fun _ ht => ht.2)) (fun _ => trivial)
  exact wp_mono hany (fun _ _ _ => ⟨fun _ => handleClosed_bad, fun hg => absurd hg (hgone he)⟩)
    (fun _ ht => ht)

theorem outputError_safe : wp (outputError cfg watchedAnswers) (fun _ => Safe) Halted s :=
  wp_mono outputError_bad (fun _ _ ht => Or.inl (Or.inl ht)) (fun _ ht => ht)

theorem failCmd_safe : wp (failCmd cfg watchedAnswers) (fun _ => Safe) Halted s :=
  wp_failCmd (fun _ => outputError_safe) (fun _ => halted_halted _ _)

structure Delivering (s : State) : Prop extends Stepping s where
  waitStatus : s.status_ = .Ok → s.waitStatus_ = 0
  stored : s.storedAtOnce = true → s.execStatus_ = .None

theorem getResult_safe (fuel : Nat) (ret : Option Nat) (h : Doomed s ∨ Delivering s) :
    wp (getResult cfg watchedAnswers fuel ret) (fun _ => Safe) Halted s := by
  induction fuel generalizing ret s with
  | zero => exact wp_stuck
  | succ fuel ih =>
    rcases h with h | h
    · exact wp_mono (stable_doomed.getResult _ ret h) (fun _ _ ht => Or.inl ht) (fun _ ht => ht.2)
    refine wp_getResult (fun _ => halted_halted _ _) (fun _ _ => Or.inr h.toStepping.steady)
      (fun _ _ => halted_halted _ _) (fun k _ _ _ => ?_)
    have hcall : Delivering (s.log (.callback k ret)) :=
      ⟨h.toStepping.keep rfl rfl rfl rfl rfl, h.waitStatus,
        fun hs => h.stored ((s.storedAtOnce_log rfl).symm.trans hs)⟩
    refine wp_mono (callUser_working (fun _ ht => ht.working) hcall) (fun _ t ht => ?_)
      (fun _ ht => ht)
    refine ⟨fun _ => halted_halted _ _, fun more _ hmore h0 => ?_, fun _ => ?_⟩
    · refine callUser_safe (fun _ => ht.imp (fun hd => hd) (fun ht => ?_))
      have hexec : t.execStatus_ = .None := ht.stored (by simpa [watchedAnswers, h0] using hmore)
      exact ⟨ht.reading.keep rfl rfl rfl, fun _ => ⟨hexec, ht.waitStatus, ht.nothingQueued⟩,
        Or.inl ht.nothingQueued⟩
    · rcases ht with ht | ht
      · exact wp_mono (stable_doomed.startNextResult (fun f _ hu => stable_doomed.runFunc f hu) ht)
          (fun _ _ hu => Or.inl hu) (fun _ hu => hu.2)
      · have hnext : ∀ r, Stepping ((t.waited r).executing .NextResult) :=
          fun r => ht.toStepping.keep rfl rfl rfl rfl rfl
        exact wp_startNextResult (fun _ => halted_halted _ _)
          (fun r _ _ _ => Or.inr (hnext r).steady) (fun _ _ _ _ => failCmd_safe)
          (fun r _ _ _ => startStoreResult_safe (fun _ _ => outputError_safe)
            (fun _ ret _ hu h0 hexec => ih ret (Or.inr ⟨hu, fun _ => h0, fun _ => hexec⟩)) (hnext r))

theorem Steady.stepping (h : Steady s) (hexec : s.execStatus_ ≠ .None) : Stepping s where
  working := by
    cases hw : s.isWorking_ with
    | true => rfl
    | false => exact absurd (h.idle hw).1 hexec
  reading := h.reading
  nothingQueued := h.queue.resolve_right fun ⟨_, _, _, hnone, _⟩ => hexec hnone

theorem handleCmd_safe {status : Wait} (h : Safe s) :
    wp (handleCmd cfg watchedAnswers fuel status) (fun _ => Safe) Halted s := by
  rcases h with h | h
  · exact wp_mono (stable_doomed.handleCmd h) (fun _ _ ht => Or.inl ht) (fun _ ht => ht.2)
  have hwaited : s.execStatus_ ≠ .None → ∀ r, Stepping (s.waited r) :=
    fun hexec r => (h.stepping hexec).keep rfl rfl rfl rfl rfl
  refine wp_handleCmd (fun hexec call => ?_) (fun hexec => ?_)
    (fun _ _ => wp_mono handleClosed_bad (fun _ _ ht => Or.inl (Or.inl ht)) (fun _ ht => ht))
    (fun _ _ => Or.inr h)
  · have hr := hwaited (by rcases hexec with he | he <;> simp [he])
    refine wp_continueQuery (fun _ => halted_halted _ _)
      (fun r _ _ => setEventDispatcher_safe (Or.inr (hr r).steady)) (fun _ _ _ _ => failCmd_safe)
      (fun r _ _ _ => ?_)
    refine wp_mono (startStoreResult_safe (fun _ _ => outputError_safe) ?_ (hr r))
      (fun _ _ ht => setEventDispatcher_safe ht) (fun _ ht => ht)
    exact fun _ ret _ hu h0 hexec =>
      getResult_safe fuel ret (Or.inr ⟨hu, fun _ => h0, fun _ => hexec⟩)
  · have hr := hwaited (by simp [hexec])
    refine wp_continueStoreResult (fun _ => halted_halted _ _)
      (fun r _ _ => setEventDispatcher_safe (Or.inr (hr r).steady)) (fun _ _ _ => failCmd_safe)
      (fun r _ h0 => ?_)
    have hstored : Delivering ((s.waited r).logWorking fun k => .stored k r.ret false) := by
      refine ⟨(hr r).keep rfl rfl rfl rfl rfl, fun _ => h0, fun hs => ?_⟩
      rw [State.storedAtOnce_logWorking (hr r).working] at hs
      exact absurd hs Bool.false_ne_true
    exact wp_mono (getResult_safe fuel r.ret (Or.inr hstored))
      (fun _ _ ht => setEventDispatcher_safe ht) (fun _ ht => ht)

theorem Steady.shaking (h : Steady s) (hnone : s.status_ ≠ .None) (hok : s.status_ ≠ .Ok)
    (r : Reply) : Shaking (s.asked r) where
  notNone := hnone
  notOk := hok
  asked ha := by
    rcases Bool.or_eq_true_iff.mp ((s.waited r).askedToRead_noted.symm.trans ha) with hold | hnew
    · exact (h.reading.asked hold).imp_right Or.inl
    · exact Or.inr (Or.inr hnew)
  idle hw := ⟨(h.idle hw).1, (h.idle hw).2.2⟩
  queue := h.queue.imp_right fun ⟨k, ret, hf, he, _⟩ => ⟨k, ret, hf, he⟩

theorem becomeOk_safe (h : Steady s) (h0 : s.waitStatus_ = 0) (hd : s.eventDispatcherPtr_ ≠ none) :
    wp (becomeOk cfg watchedAnswers) (fun _ => Safe) Halted s := by
  refine wp_becomeOk (wp_mono (callUser_safe fun hturn => Or.inr ?_)
    (fun _ _ ht => setEventDispatcher_safe ht) (fun _ ht => ht))
  have hasked : s.askedToRead = true := hturn
  have hreading : s.isReading = true := (h.reading.asked hasked).resolve_right hd
  exact ⟨⟨fun _ => hreading, fun _ => Or.inl hreading, nofun⟩,
    fun hw => ⟨(h.idle hw).1, fun _ => h0, (h.idle hw).2.2⟩,
    h.queue.imp_right fun ⟨k, ret, hf, he, _⟩ => ⟨k, ret, hf, he, fun _ => h0⟩⟩

theorem characterSetDone_safe {err : Int} (h : Steady s) (h0 : s.waitStatus_ = 0)
    (hd : s.eventDispatcherPtr_ ≠ none) :
    wp (characterSetDone cfg watchedAnswers err) (fun _ => Safe) Halted s :=
  wp_characterSetDone (fun _ => halted_halted _ _) (fun _ => halted_halted _ _)
    (fun _ => wp_mono handleClosed_bad (fun _ _ ht => Or.inl (Or.inl ht)) (fun _ ht => ht))
    (fun _ => becomeOk_safe h h0 hd)

theorem Doomed.queued (h : Doomed s) (hstatus : s.status_ ≠ .Bad) :
    ∃ k, .outputError k ∈ s.funcs_ := h.resolve_left hstatus

theorem continueSetCharacterSet_safe {status : Wait} (h : Safe s)
    (hstatus : s.status_ = .SettingCharacterSet) (hd : s.eventDispatcherPtr_ ≠ none) :
    wp (continueSetCharacterSet cfg watchedAnswers status) (fun _ => Safe) Halted s := by
  rcases h with h | h
  · obtain ⟨k, hk⟩ := h.queued (by simp [hstatus])
    exact wp_mono ((stable_queued _).continueSetCharacterSet (fun _ ht => ht) hk)
      (fun _ _ ht => Or.inl (Or.inr ⟨k, ht⟩)) (fun _ ht => ht.2)
  · have hr := h.shaking (by simp [hstatus]) (by simp [hstatus])
    exact wp_continueSetCharacterSet (fun _ => halted_halted _ _)
      (fun r _ _ => setEventDispatcher_shaking (hr r))
      (fun r _ h0 => characterSetDone_safe ((hr r).steady h0) h0 hd)

theorem continueConnect_safe {site : Site} {status : Wait} (h : Safe s)
    (hstatus : s.status_ = .Connecting) (hd : s.eventDispatcherPtr_ ≠ none) :
    wp (continueConnect cfg watchedAnswers site status) (fun _ => Safe) Halted s := by
  rcases h with h | h
  · obtain ⟨k, hk⟩ := h.queued (by simp [hstatus])
    exact wp_mono ((stable_queued _).continueConnect (fun _ ht => ht) (fun _ ht => ht) hk)
      (fun _ _ ht => Or.inl (Or.inr ⟨k, ht⟩)) (fun _ ht => ht.2)
  · have hr := h.shaking (by simp [hstatus]) (by simp [hstatus])
    refine wp_continueConnect (fun _ => halted_halted _ _)
      (fun r _ _ => setEventDispatcher_shaking (hr r)) (fun _ _ _ => halted_halted _ _)
      (fun _ _ _ => wp_mono handleClosed_bad (fun _ _ ht => Or.inl (Or.inl ht)) (fun _ ht => ht))
      (fun r _ h0 => becomeOk_safe ((hr r).steady h0) h0 hd) (fun r _ h0 => ?_)
    have hr' := ((hr r).steady h0).shaking (hr r).notNone (hr r).notOk
    refine wp_startSetCharacterSet (fun _ => halted_halted _ _) (fun r' _ _ => ?_)
      (fun r' _ h0 => characterSetDone_safe ((hr' r').steady h0) h0 hd)
    exact setEventDispatcher_shaking
      ⟨nofun, nofun, (hr' r').asked, (hr' r').idle, (hr' r').queue⟩

theorem init_safe (h : Safe s) (hlife : Life 0 s) (hstatus : s.status_ = .None) :
    wp (init cfg watchedAnswers) (fun _ => Safe) Halted s := by
  rcases h with h | h
  · obtain ⟨k, hk⟩ := h.queued (by simp [hstatus])
    have hfail : ∀ r, wp (failInit cfg watchedAnswers) (fun _ => Safe) Halted (s.connecting r) :=
      fun r => wp_failInit (fun _ => halted_halted _ _)
        (callUser_safe fun _ => Or.inl (Or.inr ⟨k, hk⟩))
    exact wp_init (fun _ => halted_halted _ _) (fun r _ _ => hfail r) (fun r _ _ _ _ => hfail r)
      (fun r _ _ => setEventDispatcher_safe (Or.inl (Or.inr ⟨k, hk⟩)))
  have hasks : s.asks = [] := (h.reading.fresh hstatus).resolve_right (not_not.mpr (hlife.fresh hstatus).2)
  have hfirst : ∀ r, (s.connecting r).askedToRead = r.wait.toRead := by
    intro r
    change (s.asks ++ [r.wait]).any _ = _
    simp [hasks]
  have hidle : s.isWorking_ = false → s.execStatus_ = .None ∧ s.funcs_ = [] :=
    fun hw => ⟨(h.idle hw).1, (h.idle hw).2.2⟩
  have hqueue : s.funcs_ = [] ∨ ∃ k ret, s.funcs_ = [.getResult k ret] ∧ s.execStatus_ = .None :=
    h.queue.imp_right fun ⟨k, ret, hf, he, _⟩ => ⟨k, ret, hf, he⟩
  have hfail : ∀ r, wp (failInit cfg watchedAnswers) (fun _ => Safe) Halted (s.connecting r) := by
    intro r
    refine wp_failInit (fun _ => halted_halted _ _) (callUser_safe fun _ => Or.inr ?_)
    refine ⟨⟨nofun, fun _ => Or.inr (hlife.fresh hstatus).2, nofun⟩,
      fun hw => ⟨(hidle hw).1, nofun, (hidle hw).2⟩, ?_⟩
    exact hqueue.imp_right fun ⟨k, ret, hf, he⟩ => ⟨k, ret, hf, he, nofun⟩
  exact wp_init (fun _ => halted_halted _ _) (fun r _ _ => hfail r) (fun r _ _ _ _ => hfail r)
    (fun r _ _ => setEventDispatcher_shaking ⟨nofun, nofun,
      fun ha => Or.inr (Or.inr ((hfirst r).symm.trans ha)), hidle, hqueue⟩)

theorem runFunc_safe {f : Func} {rest : List Func} (h : Safe s) (hf : s.funcs_ = f :: rest) :
    wp (runFunc cfg watchedAnswers fuel f) (fun _ t => Safe { t with inFunc := false }) Halted
      (s.running f rest) := by
  have hback : ∀ t, Safe t → Safe { t with inFunc := false } :=
    fun t ht => ht.imp (fun hd => hd) fun hs => ⟨hs.reading.keep rfl rfl rfl, hs.idle, hs.queue⟩
  cases f with
  | outputError k => exact wp_mono outputError_safe (fun _ t ht => hback t ht) (fun _ ht => ht)
  | getResult k ret =>
    refine wp_mono (getResult_safe fuel ret ?_) (fun _ t ht => hback t ht) (fun _ ht => ht)
    rcases h with (h | ⟨j, hj⟩) | h
    · exact Or.inl (Or.inl h)
    · rw [hf] at hj
      exact Or.inl (Or.inr ⟨j, (List.mem_cons.mp hj).resolve_left (by simp)⟩)
    · rcases h.queue with hnil | ⟨_, _, hone, hexec, hwait⟩
      · rw [hf] at hnil
        cases hnil
      · have hworking : s.isWorking_ = true := by
          cases hw : s.isWorking_ with
          | true => rfl
          | false =>
            rw [(h.idle hw).2.2] at hf
            cases hf
        rw [hf] at hone
        obtain ⟨_, rfl⟩ := List.cons.inj hone
        exact Or.inr ⟨⟨hworking, h.reading.keep rfl rfl rfl, rfl⟩, hwait, fun _ => hexec⟩

theorem handle_safe (fuel : Nat) (l : LoopEvent) (h : Safe s) (hlife : Life 0 s) :
    wp (handle cfg watchedAnswers fuel l) (fun _ => Safe) Halted s := by
  refine wp_handle (fun _ hs => init_safe h hlife hs) (fun _ _ _ _ hd => ?_)
    (fun f rest _ hf => runFunc_safe h hf) (fun n _ hn => ?_) (fun a _ => perform_safe a h)
  · exact wp_handleEvent (fun _ _ hs => continueConnect_safe h hs hd)
      (fun _ hs => continueSetCharacterSet_safe h hs hd) (fun _ _ => handleCmd_safe h) (fun _ => h)
  · have herased : Safe { s with timers := s.timers.erase n } :=
      h.imp (fun hd => hd) fun hs => ⟨hs.reading.keep rfl rfl rfl, hs.idle, hs.queue⟩
    have hd := hlife.timers (List.ne_nil_of_mem hn)
    exact wp_handleTimeout (fun _ _ hs => continueConnect_safe herased hs hd)
      (fun _ hs => continueSetCharacterSet_safe herased hs hd) (fun _ _ => herased)

end Run

theorem Watching.closes {cfg : Config} {env : Environment} {s : State} (h : Watching s)
    (hidle : Idle s) {pollOut pollPri : Bool} (hevent : env.event s (.fdEvent true pollOut pollPri) = true)
    (inputs : List Input) :
    step cfg env s (.fdEvent true pollOut pollPri, inputs) = (handleClosed cfg env).run s inputs := by
  have hinterest : s.eventDispatcherPtr_.any (fun d => !d.isNoneEvent) = true := by
    have hreading := h.reading
    unfold State.isReading at hreading
    cases hd : s.eventDispatcherPtr_ with
    | none => simp [hd] at hreading
    | some d =>
      rw [hd, Option.any_some] at hreading
      simp [EventDispatcher.isNoneEvent, hreading]
  have hnone : s.stopped.isNone = true := Option.isNone_iff_eq_none.mpr hidle.running
  rw [step, if_pos ⟨hnone, hevent⟩, handle,
    run_guard_then, if_pos hinterest, handleEvent, run_state_then]
  simp only [hidle.ok]
  rw [handleCmd, run_state_then]
  simp only [h.execStatus, h.waitStatus, if_true]

/-- With such answers an idle connection is watched in every run, and closes at the next
readable event. -/
theorem idle_watching (cfg : Config) {s : State} (h : (system cfg watchedAnswers).Reachable s)
    (hidle : Idle s) :
    Watching s ∧ ∀ pollOut pollPri inputs,
      step cfg watchedAnswers s (.fdEvent true pollOut pollPri, inputs) =
        (handleClosed cfg watchedAnswers).run s inputs := by
  have hinit : Safe init₀ :=
    Or.inr ⟨⟨nofun, nofun, fun _ => Or.inl rfl⟩, fun _ => ⟨rfl, nofun, rfl⟩, Or.inl rfl⟩
  have hinv : Safe s ∧ Life 0 s ∨ Halted s := by
    refine reachable_inv (I := fun s => Safe s ∧ Life 0 s) ⟨hinit, Life.init⟩ (fun _ ht => ht) ?_ h
    exact fun fuel l t ht _ => wp_and (handle_safe fuel l ht.1 ht.2)
      (wp_mono (handle_life l ht.2) (fun _ _ hu => hu) fun _ hu => hu.2)
  have hwatching : Watching s := by
    rcases hinv with ⟨hdoomed | hsteady, -⟩ | hhalted
    · rcases hdoomed with hbad | ⟨k, hk⟩
      · exact absurd (hbad.symm.trans hidle.ok) (by decide)
      · rw [hidle.nothingQueued] at hk
        cases hk
    · have hrest := hsteady.idle hidle.notWorking
      exact ⟨hrest.1, hrest.2.1 hidle.ok, hsteady.reading.ok hidle.ok⟩
    · exact absurd hidle.running hhalted
  exact ⟨hwatching, fun _ _ inputs => hwatching.closes hidle rfl inputs⟩

def immediate : List (LoopEvent × List Input) :=
  connected ++
    [(.user (.execSqlInLoop insertStatement), [.reply {}, .reply { ret := some 1 }]),
      (.func, [.turn [], .reply {}, .turn []])]

theorem idle_watching_immediate :
    ∃ s, (system ⟨true, true, List.flatMap escapeByte⟩ watchedAnswers).run init₀ immediate =
        some s ∧ .finished 1 ∈ s.trace ∧ Watching s := by
  obtain ⟨s, hrun, hs⟩ := exists_run (system ⟨true, true, List.flatMap escapeByte⟩ watchedAnswers)
    init₀ immediate (fun s => s.stopped = none ∧ s.status_ = .Ok ∧ s.isWorking_ = false ∧
      s.funcs_ = [] ∧ .finished 1 ∈ s.trace) (by decide)
  obtain ⟨hstopped, hok, hworking, hfuncs, hfinished⟩ := of_decide_eq_true hs
  exact ⟨s, hrun, hfinished, (idle_watching _ (System.Reachable.run (System.Reachable.init rfl) hrun)
    ⟨hstopped, hok, hworking, hfuncs⟩).1⟩

def continuedStore : List (LoopEvent × List Input) :=
  connected ++
    [(.user (.execSqlInLoop insertStatement), [.reply { wait := MYSQL_WAIT_READ }]),
      (.fdEvent true false false, [.reply {}, .reply { wait := MYSQL_WAIT_READ }]),
      (.fdEvent true false false, [.reply { ret := some 1 }, .turn [], .reply {}, .turn []])]

def rejectedQuery : List (LoopEvent × List Input) :=
  connected ++
    [(.user (.execSqlInLoop insertStatement), [.reply { number := 1 }]),
      (.func, [.reply { number := 1064 }, .reply {}, .turn [], .turn []])]

/-- The first run leaves `execStatus_` stale, the second also takes the read interest away. -/
theorem idle_not_watching :
    (∃ s, (system ⟨true, true, List.flatMap escapeByte⟩ anything).run init₀ continuedStore = some s ∧
      Idle s ∧ s.execStatus_ = .StoreResult ∧ ¬Watching s) ∧
    ∃ s, (system ⟨true, true, List.flatMap escapeByte⟩ anything).run init₀ rejectedQuery = some s ∧
      Idle s ∧ s.execStatus_ = .RealQuery ∧ s.isReading = false ∧ ¬Watching s := by
  constructor
  · obtain ⟨s, hrun, hs⟩ := exists_run (system ⟨true, true, List.flatMap escapeByte⟩ anything) init₀
      continuedStore (fun s => s.stopped = none ∧ s.status_ = .Ok ∧ s.isWorking_ = false ∧
        s.funcs_ = [] ∧ s.execStatus_ = .StoreResult) (by decide)
    obtain ⟨hstopped, hok, hworking, hfuncs, hexec⟩ := of_decide_eq_true hs
    exact ⟨s, hrun, ⟨hstopped, hok, hworking, hfuncs⟩, hexec, fun h => by
      have hnone := h.execStatus
      rw [hexec] at hnone
      cases hnone⟩
  · obtain ⟨s, hrun, hs⟩ := exists_run (system ⟨true, true, List.flatMap escapeByte⟩ anything) init₀
      rejectedQuery (fun s => s.stopped = none ∧ s.status_ = .Ok ∧ s.isWorking_ = false ∧
        s.funcs_ = [] ∧ s.execStatus_ = .RealQuery ∧ s.isReading = false) (by decide)
    obtain ⟨hstopped, hok, hworking, hfuncs, hexec, hreading⟩ := of_decide_eq_true hs
    exact ⟨s, hrun, ⟨hstopped, hok, hworking, hfuncs⟩, hexec, hreading, fun h =>
      Bool.false_ne_true (hreading.symm.trans h.reading)⟩

end MysqlConnectPool.MySQLConnector
