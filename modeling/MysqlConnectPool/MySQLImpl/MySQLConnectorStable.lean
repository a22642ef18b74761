import MysqlConnectPool.MySQLImpl.MySQLConnectorRules

/-! Predicates that nothing undoes: what every primitive step of the connector keeps, every
function of the statement path keeps. -/

namespace MysqlConnectPool.MySQLConnector

open Library Handler

def Halted (s : State) : Prop := s.stopped ≠ none

theorem halted_halted (s : State) (why : Stop) : Halted (s.halted why) := Option.some_ne_none why

def Event.isConnection : Event → Bool
  | .status _ | .ok | .close => true
  | _ => false

/-- The steps of the statement path.  `bad` and `halted` are about a process that ends, the
other changes of the status stand under `closed` and `disconnected`. -/
structure Stable (I : State → Prop) : Prop where
  waited : ∀ s r, I s → I (s.waited r)
  noted : ∀ s, I s → I s.noted
  executing : ∀ s e, I s → I (s.executing e)
  log : ∀ s e, e.isConnection = false → I s → I (s.log e)
  queued : ∀ s f, I s → I (s.queued f)
  interest : ∀ s d, s.eventDispatcherPtr_ ≠ none → I s → I { s with eventDispatcherPtr_ := some d }
  armed : ∀ s d, s.eventDispatcherPtr_ = some d → I s → I (s.armed d)
  cleared : ∀ s, I s → I s.cleared
  accept : ∀ s sql_, I s → I (s.accept sql_)
  closed : ∀ s, s.status_ ≠ .Bad → s.eventDispatcherPtr_ ≠ none → I s →
    I ((s.disabled.setStatus .Bad).log .close)
  disconnected : ∀ s, s.eventDispatcherPtr_ ≠ none → I s →
    I { s.disabled.setStatus .Bad with mysqlPtr_ := false }
  bad : ∀ s, I s → I (s.setStatus .Bad)
  halted : ∀ s why, I s → I (s.halted why)

theorem stable_bad : Stable fun s => s.status_ = .Bad where
  waited _ _ h := h
  noted _ h := h
  executing _ _ h := h
  log _ _ _ h := h
  queued _ _ h := h
  interest _ _ _ h := h
  armed _ _ _ h := h
  cleared _ h := h
  accept _ _ h := h
  closed _ _ _ _ := rfl
  disconnected _ _ _ := rfl
  bad _ _ := rfl
  halted _ _ h := h

theorem stable_true : Stable fun _ => True := by
  constructor <;> intros <;> trivial

theorem stable_queued (f : Func) : Stable fun s => f ∈ s.funcs_ where
  waited _ _ h := h
  noted _ h := h
  executing _ _ h := h
  log _ _ _ h := h
  queued _ _ h := List.mem_append_left _ h
  interest _ _ _ h := h
  armed _ _ _ h := h
  cleared _ h := h
  accept _ _ h := h
  closed _ _ _ h := h
  disconnected _ _ h := h
  bad _ h := h
  halted _ _ h := h

namespace Stable

variable {I : State → Prop} {cfg : Config} {env : Environment} {s : State} {fuel : Nat}

theorem logWorking (hI : Stable I) (e : Nat → Event) (he : ∀ k, (e k).isConnection = false)
    (h : I s) : I (s.logWorking e) := by
  unfold State.logWorking
  split
  · exact hI.log s _ (he _) h
  · exact h

theorem asked (hI : Stable I) (s : State) (r : Reply) (h : I s) : I (s.asked r) :=
  hI.noted _ (hI.waited s r h)

theorem disabled (hI : Stable I) (hd : s.eventDispatcherPtr_ ≠ none) (h : I s) : I s.disabled :=
  hI.interest s _ hd h

theorem stops (hI : Stable I) (why : Stop) (h : I s) : I (s.halted why) ∧ Halted (s.halted why) :=
  ⟨hI.halted s why h, halted_halted s why⟩

theorem setEventDispatcher (hI : Stable I) (h : I s) :
    wp setEventDispatcher (fun _ => I) (fun t => I t ∧ Halted t) s :=
  wp_setEventDispatcher_end (fun d hd _ => hI.armed s d hd h)
    (fun d hd _ _ => hI.stops _ (hI.interest s _ (hd ▸ Option.some_ne_none d) h))
    (fun _ => hI.stops _ h)

theorem startStoreResult (hI : Stable I) {direct : Func → M Unit} {queue : Bool}
    (hdirect : ∀ f t, I t → wp (direct f) (fun _ => I) (fun t => I t ∧ Halted t) t) (h : I s) :
    wp (startStoreResult env direct queue) (fun _ => I) (fun t => I t ∧ Halted t) s := by
  have hdone : ∀ r, I ((s.waited r).executing .None) :=
    fun r => hI.executing _ _ (hI.waited s r h)
  have herror : ∀ r, I (((s.waited r).executing .None).logWorking .reported) :=
    fun r => hI.logWorking _ (fun _ => rfl) (hdone r)
  have hstored : ∀ r, I (((s.waited r).executing .None).logWorking fun k => .stored k r.ret true) :=
    fun r => hI.logWorking _ (fun _ => rfl) (hdone r)
  exact wp_startStoreResult (fun _ => hI.stops _ (hI.executing s _ h))
    (fun r _ _ _ => hI.executing _ _ (hI.waited s r h))
    (fun r _ _ _ _ => ⟨fun _ => hI.queued _ _ (herror r), fun _ => hdirect _ _ (herror r)⟩)
    (fun r _ _ _ => ⟨fun _ => hI.queued _ _ (hstored r), fun _ => hdirect _ _ (hstored r)⟩)

theorem execSqlInLoop (hI : Stable I) {statement : Statement} (h : I s) :
    wp (execSqlInLoop cfg env statement) (fun _ => I) (fun t => I t ∧ Halted t) s := by
  refine wp_execSqlInLoop (hI.stops _ h) (fun sql_ _ _ => ?_)
  have haccept : I (s.accept sql_) := hI.accept s sql_ h
  have hquery : ∀ r, I (((s.accept sql_).waited r).executing .RealQuery) :=
    fun r => hI.executing _ _ (hI.waited _ r haccept)
  have hreport : ∀ r, I ((((s.accept sql_).waited r).executing .RealQuery).logWorking .reported) :=
    fun r => hI.logWorking _ (fun _ => rfl) (hquery r)
  refine wp_mono (Q := fun _ => I) ?_ (fun _ t ht => hI.setEventDispatcher (hI.noted t ht))
    (fun _ ht => ht)
  exact wp_startQuery (fun _ => hI.stops _ haccept) (fun r _ _ _ => hquery r)
    (fun r _ _ _ _ => ⟨fun _ => hI.queued _ _ (hreport r), fun _ => hI.stops _ (hreport r)⟩)
    (fun r _ _ _ _ => hI.startStoreResult (fun _ _ _ => wp_stuck) (hquery r))

theorem perform (hI : Stable I) {origin : Option Callback} (a : Action) (h : I s) :
    wp (perform cfg env origin a) (fun _ => I) (fun t => I t ∧ Halted t) s :=
  wp_perform (fun _ _ _ => hI.execSqlInLoop h)
    (fun _ _ => wp_disconnect (fun hd => hI.disconnected s hd h) (fun _ => hI.stops _ (hI.bad s h)))

theorem callUser (hI : Stable I) {cb : Callback} (h : I s) :
    wp (callUser cfg env cb) (fun _ => I) (fun t => I t ∧ Halted t) s :=
  wp_callUser (fun a _ ht => hI.perform a ht) (fun _ => h)

theorem handleClosed (hI : Stable I) (h : I s) :
    wp (handleClosed cfg env) (fun _ => I) (fun t => I t ∧ Halted t) s :=
  wp_handleClosed (fun _ => h) (fun _ _ => hI.stops _ (hI.bad s h))
    (fun hs hd => hI.callUser (hI.closed s hs hd h))

theorem outputError (hI : Stable I) (h : I s) :
    wp (outputError cfg env) (fun _ => I) (fun t => I t ∧ Halted t) s := by
  refine wp_outputError (fun _ => hI.stops _ h) (fun hd _ => hI.stops _ (hI.disabled hd h))
    (fun hd _ => hI.stops _ (hI.disabled hd h))
    (fun _ hd _ _ => ⟨fun _ => hI.handleClosed (hI.disabled hd h), fun _ => hI.disabled hd h⟩)
    (fun hd _ _ => hI.stops _ (hI.disabled hd h)) (fun e k message _ hd _ _ _ => ?_)
  have hexception := hI.log _ (.exception k message s.sql_) rfl (hI.disabled hd h)
  refine wp_mono (hI.callUser hexception) (fun _ t ht => ?_) (fun _ ht => ht)
  exact ⟨fun _ => hI.handleClosed (hI.cleared t ht),
    fun _ => hI.callUser (hI.log _ _ rfl (hI.cleared t ht))⟩

theorem failCmd (hI : Stable I) (h : I s) :
    wp (failCmd cfg env) (fun _ => I) (fun t => I t ∧ Halted t) s := by
  have hreport := hI.logWorking .reported (fun _ => rfl) (hI.executing s .None h)
  exact wp_failCmd (fun _ => hI.outputError hreport) (fun _ => hI.stops _ hreport)

theorem startNextResult (hI : Stable I) {direct : Func → M Unit}
    (hdirect : ∀ f t, I t → wp (direct f) (fun _ => I) (fun t => I t ∧ Halted t) t) (h : I s) :
    wp (startNextResult cfg env direct) (fun _ => I) (fun t => I t ∧ Halted t) s := by
  have hnext : ∀ r, I ((s.waited r).executing .NextResult) :=
    fun r => hI.executing _ _ (hI.waited s r h)
  exact wp_startNextResult (fun _ => hI.stops _ (hI.executing s _ h)) (fun r _ _ _ => hnext r)
    (fun r _ _ _ => hI.failCmd (hnext r)) (fun r _ _ _ => hI.startStoreResult hdirect (hnext r))

theorem getResult (hI : Stable I) (fuel : Nat) (ret : Option Nat) (h : I s) :
    wp (getResult cfg env fuel ret) (fun _ => I) (fun t => I t ∧ Halted t) s := by
  induction fuel generalizing ret s with
  | zero => exact wp_stuck
  | succ fuel ih =>
    refine wp_getResult (fun _ => hI.stops _ h) (fun _ _ => h) (fun _ _ => hI.stops _ h)
      (fun k _ _ _ => ?_)
    refine wp_mono (hI.callUser (hI.log s _ rfl h)) (fun _ t ht => ?_) (fun _ ht => ht)
    refine ⟨fun _ => hI.stops _ ht, fun _ _ _ _ => ?_, fun _ => ?_⟩
    · exact hI.callUser (hI.log _ _ rfl (hI.cleared t ht))
    · refine hI.startNextResult (fun f u hu => ?_) ht
      cases f with
      | outputError k => exact hI.outputError hu
      | getResult k ret => exact ih ret hu

theorem runFunc (hI : Stable I) (f : Func) (h : I s) :
    wp (runFunc cfg env fuel f) (fun _ => I) (fun t => I t ∧ Halted t) s := by
  cases f with
  | outputError k => exact hI.outputError h
  | getResult k ret => exact hI.getResult fuel ret h

theorem handleCmd (hI : Stable I) {status : Wait} (h : I s) :
    wp (handleCmd cfg env fuel status) (fun _ => I) (fun t => I t ∧ Halted t) s := by
  have hwaited : ∀ r, I (s.waited r) := fun r => hI.waited s r h
  refine wp_handleCmd (fun _ call => ?_) (fun _ => ?_) (fun _ _ => hI.handleClosed h) (fun _ _ => h)
  · refine wp_continueQuery (fun _ => hI.stops _ h)
      (fun r _ _ => hI.setEventDispatcher (hwaited r)) (fun r _ _ _ => hI.failCmd (hwaited r))
      (fun r _ _ _ => ?_)
    exact wp_mono (hI.startStoreResult (fun f _ ht => hI.runFunc f ht) (hwaited r))
      (fun _ _ ht => hI.setEventDispatcher ht) (fun _ ht => ht)
  · refine wp_continueStoreResult (fun _ => hI.stops _ h)
      (fun r _ _ => hI.setEventDispatcher (hwaited r)) (fun r _ _ => hI.failCmd (hwaited r))
      (fun r _ _ => ?_)
    exact wp_mono (hI.getResult fuel r.ret (hI.logWorking _ (fun _ => rfl) (hwaited r)))
      (fun _ _ ht => hI.setEventDispatcher ht) (fun _ ht => ht)

section Handshake

variable (hI : Stable I) (hsetting : ∀ t, I t → I (t.setStatus .SettingCharacterSet))
  (hok : ∀ t, I t → I ((t.setStatus .Ok).log .ok))

include hI hok

theorem becomeOk (h : I s) : wp (becomeOk cfg env) (fun _ => I) (fun t => I t ∧ Halted t) s :=
  wp_becomeOk (wp_mono (hI.callUser (hok s h)) (fun _ _ ht => hI.setEventDispatcher ht)
    (fun _ ht => ht))

theorem characterSetDone {err : Int} (h : I s) :
    wp (characterSetDone cfg env err) (fun _ => I) (fun t => I t ∧ Halted t) s :=
  wp_characterSetDone (fun _ => hI.stops _ h) (fun _ => hI.stops _ h)
    (fun _ => hI.handleClosed h) (fun _ => hI.becomeOk hok h)

theorem continueSetCharacterSet {status : Wait} (h : I s) :
    wp (continueSetCharacterSet cfg env status) (fun _ => I) (fun t => I t ∧ Halted t) s :=
  wp_continueSetCharacterSet (fun _ => hI.stops _ h)
    (fun r _ _ => hI.setEventDispatcher (hI.asked s r h))
    (fun r _ _ => hI.characterSetDone hok (hI.asked s r h))

include hsetting

theorem continueConnect {site : Site} {status : Wait} (h : I s) :
    wp (continueConnect cfg env site status) (fun _ => I) (fun t => I t ∧ Halted t) s := by
  have hasked : ∀ r, I (s.asked r) := fun r => hI.asked s r h
  refine wp_continueConnect (fun _ => hI.stops _ h)
    (fun r _ _ => hI.setEventDispatcher (hasked r)) (fun r _ _ => hI.stops _ (hasked r))
    (fun r _ _ => hI.handleClosed (hasked r)) (fun r _ _ => hI.becomeOk hok (hasked r))
    (fun r _ _ => ?_)
  exact wp_startSetCharacterSet (fun _ => hI.stops _ (hasked r))
    (fun r' _ _ => hI.setEventDispatcher (hsetting _ (hI.asked _ r' (hasked r))))
    (fun r' _ _ => hI.characterSetDone hok (hI.asked _ r' (hasked r)))

end Handshake

end Stable

end MysqlConnectPool.MySQLConnector
