import MysqlConnectPool.MySQLImpl.MySQLConnectorRules
import MysqlConnectPool.MySQLImpl.PlaceholderLexing

/-! Whether the handle that `disconnect` resets is used again. -/

namespace MysqlConnectPool.MySQLConnector

open Library Handler System

/-- The environment in which nothing is left to be done with the handle when a user disconnects:
no completion is queued, `getResult` is not in the middle of its statement, and where
`setEventDispatcher` follows the callback there is no timeout to ask for.  Statements are given
to a connection that has its handle, or that refuses them because it is working. -/
def orderly : Environment where
  event _ _ := true
  action s origin a :=
    match a with
    | .execSqlInLoop _ => s.mysqlPtr_ || s.isWorking_
    | .disconnect =>
      s.funcs_ = [] && origin ≠ some .callback_ &&
        (origin = none || s.inFunc || !s.waitStatus_.has MYSQL_WAIT_TIMEOUT)
  turn _ _ := true
  reply _ _ _ _ := true

structure Linked (b : Bool) (s : State) : Prop where
  running : s.stopped = none
  inFunc : s.inFunc = b
  handle : s.mysqlPtr_ = true

structure Gone (b : Bool) (s : State) : Prop where
  running : s.stopped = none
  inFunc : s.inFunc = b
  bad : s.status_ = .Bad
  nothingQueued : s.funcs_ = []

def Spare (b : Bool) (s : State) : Prop :=
  Linked b s ∨ Gone b s ∧ (b = true ∨ s.waitStatus_.has MYSQL_WAIT_TIMEOUT = false)

def Detached (s : State) : Prop := Linked false s ∨ Gone false s

def Unharmed (s : State) : Prop := s.stopped ≠ none ∧ s.stopped ≠ some .nullHandle

section Run

variable {cfg : Config} {s t : State} {b : Bool}

theorem unharmed_halted (s : State) {why : Stop} (h : why ≠ .nullHandle) :
    Unharmed (s.halted why) :=
  ⟨Option.some_ne_none why, fun hs => h (Option.some.inj hs)⟩

theorem Linked.keep (h : Linked b s) (hstopped : t.stopped = s.stopped)
    (hin : t.inFunc = s.inFunc) (hptr : t.mysqlPtr_ = s.mysqlPtr_) : Linked b t :=
  ⟨hstopped.trans h.running, hin.trans h.inFunc, hptr.trans h.handle⟩

theorem Linked.logWorking (h : Linked b s) (e : Nat → Event) : Linked b (s.logWorking e) :=
  h.keep rfl rfl rfl

theorem Linked.used (h : Linked b s) {P : Prop} (hptr : s.mysqlPtr_ = false) : P :=
  absurd (h.handle.symm.trans hptr) (by decide)

theorem Spare.keep (h : Spare b s) (hstopped : t.stopped = s.stopped)
    (hin : t.inFunc = s.inFunc) (hptr : t.mysqlPtr_ = s.mysqlPtr_)
    (hstatus : t.status_ = s.status_) (hwait : t.waitStatus_ = s.waitStatus_)
    (hfuncs : t.funcs_ = s.funcs_) : Spare b t := by
  rcases h with h | ⟨h, hw⟩
  · exact Or.inl (h.keep hstopped hin hptr)
  · exact Or.inr ⟨⟨hstopped.trans h.running, hin.trans h.inFunc, hstatus.trans h.bad,
      hfuncs.trans h.nothingQueued⟩, hw.imp_right fun hw => hwait ▸ hw⟩

theorem Spare.running (h : Spare b s) : s.stopped = none :=
  h.elim (fun h => h.running) fun h => h.1.running

theorem Spare.inFunc (h : Spare b s) : s.inFunc = b :=
  h.elim (fun h => h.inFunc) fun h => h.1.inFunc

theorem Spare.linked (h : Spare b s) (hs : s.status_ ≠ .Bad) : Linked b s :=
  h.resolve_right fun hg => hs hg.1.bad

theorem Spare.detached (h : Spare false s) : Detached s := h.imp_right fun h => h.1

theorem setEventDispatcher_linked (h : Linked b s) :
    wp setEventDispatcher (fun _ => Linked b) Unharmed s :=
  wp_setEventDispatcher_end (fun _ _ _ => h.keep rfl rfl rfl) (fun _ _ _ hptr => h.used hptr)
    (fun _ => unharmed_halted s nofun)

theorem setEventDispatcher_spare (h : Spare false s) :
    wp setEventDispatcher (fun _ => Spare false) Unharmed s := by
  refine wp_setEventDispatcher_end (fun _ _ _ => h.keep rfl rfl rfl rfl rfl rfl) (fun _ _ ht hptr => ?_)
    (fun _ => unharmed_halted s nofun)
  rcases h with h | ⟨_, hw⟩
  · exact h.used hptr
  · exact absurd (ht.symm.trans (hw.resolve_left Bool.false_ne_true)) (by decide)

theorem startStoreResult_linked {direct : Func → M Unit} {queue : Bool} {R : State → Prop}
    (hlinked : ∀ t, Linked b t → R t)
    (hdirect : ∀ f t, Linked b t → wp (direct f) (fun _ => R) Unharmed t) (h : Linked b s) :
    wp (startStoreResult orderly direct queue) (fun _ => R) Unharmed s :=
  wp_startStoreResult (fun hptr => h.used hptr) (fun _ _ _ _ => hlinked _ (h.keep rfl rfl rfl))
    (fun _ _ _ _ _ => ⟨fun _ => hlinked _ (h.keep rfl rfl rfl), fun _ => hdirect _ _ (h.keep rfl rfl rfl)⟩)
    (fun _ _ _ _ => ⟨fun _ => hlinked _ (h.keep rfl rfl rfl), fun _ => hdirect _ _ (h.keep rfl rfl rfl)⟩)

theorem execSqlInLoop_linked {statement : Statement} (h : Linked b s) :
    wp (execSqlInLoop cfg orderly statement) (fun _ => Linked b) Unharmed s := by
  refine wp_execSqlInLoop (unharmed_halted s nofun) (fun sql_ _ _ => ?_)
  have haccept : Linked b (s.accept sql_) := h.keep rfl rfl rfl
  refine wp_mono (Q := fun _ => Linked b) ?_
    (fun _ _ ht => setEventDispatcher_linked (ht.keep rfl rfl rfl)) (fun _ ht => ht)
  exact wp_startQuery (fun hptr => haccept.used hptr) (fun _ _ _ _ => haccept.keep rfl rfl rfl)
    (fun _ _ _ _ _ => ⟨fun _ => haccept.keep rfl rfl rfl, fun _ => unharmed_halted _ nofun⟩)
    (fun _ _ _ _ _ => startStoreResult_linked (fun _ ht => ht) (fun _ _ _ => wp_stuck)
      (haccept.keep rfl rfl rfl))

theorem execSqlInLoop_working {statement : Statement} {R : State → Prop} (h : s.isWorking_ = true) :
    wp (execSqlInLoop cfg orderly statement) (fun _ => R) Unharmed s :=
  wp_execSqlInLoop (unharmed_halted s nofun)
    (fun _ hworking => absurd (h.symm.trans hworking) (by decide))

theorem execSqlInLoop_orderly (origin : Option Callback) {statement : Statement} {R : State → Prop}
    (hlinked : ∀ t, Linked b t → R t) (hrun : s.stopped = none) (hin : s.inFunc = b)
    (ha : orderly.action s origin (.execSqlInLoop statement) = true) :
    wp (execSqlInLoop cfg orderly statement) (fun _ => R) Unharmed s := by
  have hcase : s.mysqlPtr_ = true ∨ s.isWorking_ = true := by simpa [orderly] using ha
  rcases hcase with hptr | hworking
  · exact wp_mono (execSqlInLoop_linked ⟨hrun, hin, hptr⟩) (fun _ t ht => hlinked t ht) (fun _ ht => ht)
  · exact execSqlInLoop_working hworking

theorem perform_spare {cb : Callback} (a : Action) (h : Spare b s) :
    wp (perform cfg orderly (some cb) a) (fun _ => Spare b) Unharmed s := by
  refine wp_perform (fun statement he ha => execSqlInLoop_orderly (some cb)
    (fun _ ht => Or.inl ht) h.running h.inFunc (he ▸ ha)) (fun he ha => ?_)
  subst he
  have hcase : s.funcs_ = [] ∧ (b = true ∨ s.waitStatus_.has MYSQL_WAIT_TIMEOUT = false) := by
    have ha : (s.funcs_ = [] ∧ cb ≠ .callback_) ∧
        (s.inFunc = true ∨ s.waitStatus_.has MYSQL_WAIT_TIMEOUT = false) := by
      simpa [orderly] using ha
    exact ⟨ha.1.1, h.inFunc ▸ ha.2⟩
  exact wp_disconnect (fun _ => Or.inr ⟨⟨h.running, h.inFunc, rfl, hcase.1⟩, hcase.2⟩)
    (fun _ => unharmed_halted _ nofun)

theorem callUser_spare {cb : Callback} (h : Spare b s) :
    wp (callUser cfg orderly cb) (fun _ => Spare b) Unharmed s :=
  wp_callUser (fun a _ ht => perform_spare a ht) (fun _ => h)

theorem callUser_linked (h : Linked b s) :
    wp (callUser cfg orderly .callback_) (fun _ => Linked b) Unharmed s := by
  refine wp_callUser (fun a t ht => ?_) (fun _ => h)
  refine wp_perform (fun statement _ _ => execSqlInLoop_linked ht) (fun he ha => ?_)
  subst he
  exact absurd ha (by simp [orderly])

theorem handleClosed_spare (h : Spare b s) :
    wp (handleClosed cfg orderly) (fun _ => Spare b) Unharmed s :=
  wp_handleClosed (fun _ => h) (fun _ _ => unharmed_halted _ nofun)
    (fun hs _ => callUser_spare (Or.inl ((h.linked hs).keep rfl rfl rfl)))

theorem outputError_spare (h : Linked b s) :
    wp (outputError cfg orderly) (fun _ => Spare b) Unharmed s := by
  have hdisabled : Spare b s.disabled := Or.inl (h.keep rfl rfl rfl)
  refine wp_outputError (fun _ => unharmed_halted _ nofun) (fun _ hptr => h.used hptr)
    (fun _ _ => unharmed_halted _ nofun)
    (fun _ _ _ _ => ⟨fun _ => handleClosed_spare hdisabled, fun _ => hdisabled⟩)
    (fun _ _ _ => unharmed_halted _ nofun) (fun e k message _ _ _ _ _ => ?_)
  refine wp_mono (callUser_spare (hdisabled.keep rfl rfl rfl rfl rfl rfl)) (fun _ t ht => ?_)
    (fun _ ht => ht)
  exact ⟨fun _ => handleClosed_spare (ht.keep rfl rfl rfl rfl rfl rfl),
    fun _ => callUser_spare (ht.keep rfl rfl rfl rfl rfl rfl)⟩

theorem failCmd_spare (h : Linked b s) :
    wp (failCmd cfg orderly) (fun _ => Spare b) Unharmed s :=
  wp_failCmd (fun _ => outputError_spare (h.keep rfl rfl rfl)) (fun _ => unharmed_halted _ nofun)

theorem getResult_spare (fuel : Nat) (ret : Option Nat) (h : Linked b s) :
    wp (getResult cfg orderly fuel ret) (fun _ => Spare b) Unharmed s := by
  induction fuel generalizing ret s with
  | zero => exact wp_stuck
  | succ fuel ih =>
    refine wp_getResult (fun hptr => h.used hptr) (fun _ _ => Or.inl h)
      (fun _ _ => unharmed_halted _ nofun) (fun k _ _ _ => ?_)
    refine wp_mono (callUser_linked (h.keep rfl rfl rfl)) (fun _ t ht => ?_) (fun _ ht => ht)
    refine ⟨fun hptr => ht.used hptr, fun _ _ _ _ => ?_, fun _ => ?_⟩
    · exact callUser_spare (Or.inl (ht.keep rfl rfl rfl))
    · refine wp_startNextResult (fun hptr => ht.used hptr) (fun _ _ _ _ => Or.inl (ht.keep rfl rfl rfl))
        (fun _ _ _ _ => failCmd_spare (ht.keep rfl rfl rfl)) (fun _ _ _ _ => ?_)
      refine startStoreResult_linked (fun _ hu => Or.inl hu) (fun f u hu => ?_) (ht.keep rfl rfl rfl)
      cases f with
      | outputError k => exact outputError_spare hu
      | getResult k ret => exact ih ret hu

theorem runFunc_spare {fuel : Nat} (f : Func) (h : Linked b s) :
    wp (runFunc cfg orderly fuel f) (fun _ => Spare b) Unharmed s := by
  cases f with
  | outputError k => exact outputError_spare h
  | getResult k ret => exact getResult_spare fuel ret h

theorem handleCmd_spare {fuel : Nat} {status : Wait} (h : Linked false s) :
    wp (handleCmd cfg orderly fuel status) (fun _ => Spare false) Unharmed s := by
  have hwaited : ∀ r, Linked false (s.waited r) := fun r => h.keep rfl rfl rfl
  refine wp_handleCmd (fun _ call => ?_) (fun _ => ?_) (fun _ _ => handleClosed_spare (Or.inl h))
    (fun _ _ => Or.inl h)
  · refine wp_continueQuery (fun hptr => h.used hptr)
      (fun r _ _ => setEventDispatcher_spare (Or.inl (hwaited r)))
      (fun r _ _ _ => failCmd_spare (hwaited r)) (fun r _ _ _ => ?_)
    exact wp_mono (startStoreResult_linked (fun _ ht => Or.inl ht) (fun f _ ht => runFunc_spare f ht)
      (hwaited r)) (fun _ _ ht => setEventDispatcher_spare ht) (fun _ ht => ht)
  · refine wp_continueStoreResult (fun hptr => h.used hptr)
      (fun r _ _ => setEventDispatcher_spare (Or.inl (hwaited r)))
      (fun r _ _ => failCmd_spare (hwaited r)) (fun r _ _ => ?_)
    exact wp_mono (getResult_spare fuel r.ret ((hwaited r).logWorking _))
      (fun _ _ ht => setEventDispatcher_spare ht) (fun _ ht => ht)

theorem becomeOk_spare (h : Linked false s) :
    wp (becomeOk cfg orderly) (fun _ => Spare false) Unharmed s :=
  wp_becomeOk (wp_mono (callUser_spare (Or.inl (h.keep rfl rfl rfl)))
    (fun _ _ ht => setEventDispatcher_spare ht) (fun _ ht => ht))

theorem characterSetDone_spare {err : Int} (h : Linked false s) :
    wp (characterSetDone cfg orderly err) (fun _ => Spare false) Unharmed s :=
  wp_characterSetDone (fun hptr => h.used hptr) (fun _ => unharmed_halted _ nofun)
    (fun _ => handleClosed_spare (Or.inl h)) (fun _ => becomeOk_spare h)

theorem continueSetCharacterSet_spare {status : Wait} (h : Linked false s) :
    wp (continueSetCharacterSet cfg orderly status) (fun _ => Spare false) Unharmed s :=
  wp_continueSetCharacterSet (fun hptr => h.used hptr)
    (fun _ _ _ => setEventDispatcher_spare (Or.inl (h.keep rfl rfl rfl)))
    (fun _ _ _ => characterSetDone_spare (h.keep rfl rfl rfl))

theorem continueConnect_spare {site : Site} {status : Wait} (h : Linked false s) :
    wp (continueConnect cfg orderly site status) (fun _ => Spare false) Unharmed s := by
  have hasked : ∀ r, Linked false (s.asked r) := fun r => h.keep rfl rfl rfl
  exact wp_continueConnect (fun hptr => h.used hptr)
    (fun r _ _ => setEventDispatcher_spare (Or.inl (hasked r)))
    (fun _ _ _ => unharmed_halted _ nofun) (fun r _ _ => handleClosed_spare (Or.inl (hasked r)))
    (fun r _ _ => becomeOk_spare (hasked r))
    (fun r _ _ => wp_startSetCharacterSet (fun hptr => h.used hptr)
      (fun _ _ _ => setEventDispatcher_spare (Or.inl (h.keep rfl rfl rfl)))
      (fun _ _ _ => characterSetDone_spare (h.keep rfl rfl rfl)))

theorem init_spare (h : Linked false s) : wp (init cfg orderly) (fun _ => Spare false) Unharmed s := by
  have hfail : ∀ r, wp (failInit cfg orderly) (fun _ => Spare false) Unharmed (s.connecting r) :=
    fun r => wp_failInit (fun _ => unharmed_halted _ nofun)
      (callUser_spare (Or.inl (h.keep rfl rfl rfl)))
  exact wp_init (fun hptr => h.used hptr) (fun r _ _ => hfail r) (fun r _ _ _ _ => hfail r)
    (fun _ _ _ => setEventDispatcher_spare (Or.inl (h.keep rfl rfl rfl)))

theorem Detached.running (h : Detached s) : s.stopped = none :=
  h.elim (fun h => h.running) fun h => h.running

theorem Detached.linked (h : Detached s) (hs : s.status_ ≠ .Bad) : Linked false s :=
  h.resolve_right fun hg => hs hg.bad

theorem handleTimeout_detached (h : Detached s) :
    wp (handleTimeout cfg orderly) (fun _ => Detached) Unharmed s := by
  have hlinked : ∀ st, s.status_ = st → st ≠ .Bad → Linked false s := fun _ hs hne =>
    h.linked (hs ▸ hne)
  exact wp_handleTimeout
    (fun _ _ hs => wp_mono (continueConnect_spare (hlinked _ hs nofun)) (fun _ _ ht => ht.detached)
      (fun _ ht => ht))
    (fun _ hs => wp_mono (continueSetCharacterSet_spare (hlinked _ hs nofun))
      (fun _ _ ht => ht.detached) (fun _ ht => ht))
    (fun _ _ => h)

theorem handleEvent_detached {fuel : Nat} {pollIn pollOut pollPri : Bool} (h : Detached s) :
    wp (handleEvent cfg orderly fuel pollIn pollOut pollPri) (fun _ => Detached) Unharmed s := by
  have hlinked : ∀ st, s.status_ = st → st ≠ .Bad → Linked false s := fun _ hs hne =>
    h.linked (hs ▸ hne)
  exact wp_handleEvent
    (fun _ _ hs => wp_mono (continueConnect_spare (hlinked _ hs nofun)) (fun _ _ ht => ht.detached)
      (fun _ ht => ht))
    (fun _ hs => wp_mono (continueSetCharacterSet_spare (hlinked _ hs nofun))
      (fun _ _ ht => ht.detached) (fun _ ht => ht))
    (fun _ hs => wp_mono (handleCmd_spare (hlinked _ hs nofun)) (fun _ _ ht => ht.detached)
      (fun _ ht => ht))
    (fun _ => h)

theorem perform_detached (a : Action) (h : Detached s) :
    wp (perform cfg orderly none a) (fun _ => Detached) Unharmed s := by
  have hrun : s.stopped = none := h.running
  have hin : s.inFunc = false := h.elim (fun h => h.inFunc) fun h => h.inFunc
  refine wp_perform (fun statement he ha => execSqlInLoop_orderly none
    (fun _ ht => Or.inl ht) hrun hin (he ▸ ha)) (fun he ha => ?_)
  subst he
  have hfuncs : s.funcs_ = [] := by simpa [orderly] using ha
  exact wp_disconnect (fun _ => Or.inr ⟨hrun, hin, rfl, hfuncs⟩) (fun _ => unharmed_halted _ nofun)

theorem handle_detached (fuel : Nat) (l : LoopEvent) (h : Detached s) :
    wp (handle cfg orderly fuel l) (fun _ => Detached) Unharmed s := by
  refine wp_handle (fun _ hs => ?_) (fun _ _ _ _ _ => handleEvent_detached h) (fun f rest _ hf => ?_)
    (fun n _ _ => ?_) (fun a _ => perform_detached a h)
  · exact wp_mono (init_spare (h.linked (by rw [hs]; decide))) (fun _ _ ht => ht.detached)
      (fun _ ht => ht)
  · have hlinked : Linked false s := h.resolve_right fun hg =>
      List.cons_ne_nil f rest (hf.symm.trans hg.nothingQueued)
    have hrun : Linked true (s.running f rest) := ⟨hlinked.running, rfl, hlinked.handle⟩
    refine wp_mono (runFunc_spare f hrun) (fun _ t ht => ?_) (fun _ ht => ht)
    exact ht.imp (fun hl => ⟨hl.running, rfl, hl.handle⟩)
      fun hg => ⟨hg.1.running, rfl, hg.1.bad, hg.1.nothingQueued⟩
  · exact handleTimeout_detached (h.imp (fun hl => hl.keep rfl rfl rfl)
      fun hg => ⟨hg.running, hg.inFunc, hg.bad, hg.nothingQueued⟩)

end Run

/-- Behind an orderly `disconnect` no step uses the null handle. -/
theorem handle_not_used (cfg : Config) {s : State} (h : (system cfg orderly).Reachable s) :
    s.stopped ≠ some .nullHandle := by
  have hinv : Detached s ∨ Unharmed s :=
    reachable_inv (Or.inl ⟨rfl, rfl, rfl⟩) (fun _ ht => ht.1)
      (fun fuel l _ ht _ => handle_detached fuel l ht) h
  rcases hinv with hdetached | hended
  · rw [hdetached.running]
    nofun
  · exact hended.2

def disconnectWaiting : List (LoopEvent × List Input) :=
  connected ++
    [(.user (.execSqlInLoop insertStatement),
        [.reply { wait := MYSQL_WAIT_READ ||| MYSQL_WAIT_TIMEOUT }]),
      (.user .disconnect, []), (.timeout 3, [])]

theorem handle_not_used_disconnectWaiting :
    ∃ s, (system ⟨true, true, List.flatMap escapeByte⟩ orderly).run init₀ disconnectWaiting = some s ∧
      s.mysqlPtr_ = false ∧ s.timers = [] ∧ s.stopped ≠ some .nullHandle := by
  obtain ⟨s, hrun, hs⟩ := exists_run (system ⟨true, true, List.flatMap escapeByte⟩ orderly) init₀
    disconnectWaiting (fun s => s.mysqlPtr_ = false ∧ s.timers = []) (by decide)
  obtain ⟨hptr, htimers⟩ := of_decide_eq_true hs
  exact ⟨s, hrun, hptr, htimers,
    handle_not_used _ (System.Reachable.run (System.Reachable.init rfl) hrun)⟩

def resultQueued : List (LoopEvent × List Input) :=
  connected ++ [(.user (.execSqlInLoop insertStatement), [.reply {}, .reply { ret := some 1 }])]

def usesNullHandle (ls : List (LoopEvent × List Input)) : Bool :=
  ((system ⟨true, true, List.flatMap escapeByte⟩ anything).run init₀ ls).any fun s =>
    !s.mysqlPtr_ && s.stopped = some .nullHandle

/-- A queued `getResult`, a queued `outputError`, `getResult` behind its callback, and a statement
behind `disconnect`. -/
theorem handle_used :
    usesNullHandle (resultQueued ++ [(.user .disconnect, []), (.func, [])]) = true ∧
      usesNullHandle (connected ++
        [(.user (.execSqlInLoop insertStatement), [.reply { number := 1 }]),
          (.user .disconnect, []), (.func, [])]) = true ∧
      usesNullHandle (resultQueued ++ [(.func, [.turn [.disconnect]])]) = true ∧
      usesNullHandle (connected ++
        [(.user .disconnect, []), (.user (.execSqlInLoop insertStatement), [])]) = true := by
  decide

end MysqlConnectPool.MySQLConnector
