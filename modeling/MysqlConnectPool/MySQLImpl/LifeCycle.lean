import Mathlib.Data.List.Chain
import MysqlConnectPool.MySQLImpl.MySQLConnectorStable
import MysqlConnectPool.MySQLImpl.PlaceholderLexing

/-! The life cycle of a connection: `status_` only moves forward, and the callbacks about the
connection come in order. -/

namespace MysqlConnectPool.MySQLConnector

open Library Handler System

def ConnectStatus.rank : ConnectStatus → Nat
  | .None => 0
  | .Connecting => 1
  | .SettingCharacterSet => 2
  | .Ok => 3
  | .Bad => 4

theorem ConnectStatus.rank_le_bad (st : ConnectStatus) : st.rank ≤ ConnectStatus.Bad.rank := by
  cases st <;> decide

/-- A write to `status_` moves it forward, or it is `Bad` already. -/
def ConnectStatus.Moves (st st' : ConnectStatus) : Prop :=
  st.rank < st'.rank ∨ st = .Bad ∧ st' = .Bad

instance : IsTrans ConnectStatus ConnectStatus.Moves where
  trans _ _ _ h h' := by
    rcases h with hlt | ⟨rfl, rfl⟩
    · rcases h' with hlt' | ⟨rfl, rfl⟩
      · exact Or.inl (Nat.lt_trans hlt hlt')
      · exact Or.inl hlt
    · exact h'

theorem ConnectStatus.moves_bad (st : ConnectStatus) : st.Moves .Bad := by
  cases st with
  | Bad => exact Or.inr ⟨rfl, rfl⟩
  | None | Connecting | SettingCharacterSet | Ok => exact Or.inl (by decide)

def Event.written : Event → Option ConnectStatus
  | .status st => some st
  | _ => none

def State.statuses (s : State) : List ConnectStatus := .None :: s.trace.filterMap Event.written

def Event.isCall : Event → Bool
  | .ok | .close => true
  | _ => false

def State.calls (s : State) : List Event := s.trace.filter Event.isCall

theorem Event.plain {e : Event} (he : e.isConnection = false) :
    e.written = none ∧ e.isCall = false ∧ e ≠ .ok := by
  cases e with
  | status | ok | close => cases he
  | _ => exact ⟨rfl, rfl, nofun⟩

theorem State.calls_log (s : State) {e : Event} (he : e.isCall = false) :
    (s.log e).calls = s.calls := by
  simp [State.calls, State.log, he]

theorem State.calls_setStatus (s : State) (st : ConnectStatus) : (s.setStatus st).calls = s.calls :=
  s.calls_log rfl

theorem State.calls_ok (s : State) : (s.log .ok).calls = s.calls ++ [.ok] := by
  simp [State.calls, State.log, Event.isCall]

theorem State.calls_close (s : State) : (s.log .close).calls = s.calls ++ [.close] := by
  simp [State.calls, State.log, Event.isCall]

/-- Behind each write of `Ok` stands the call of `okCallback_`, and nowhere else. -/
structure Paired (trace : List Event) : Prop where
  chain : (Event.status .None :: trace).IsChain fun e e' => e = .status .Ok ↔ e' = .ok
  last : (Event.status .None :: trace).getLast? ≠ some (.status .Ok)

namespace Paired

variable {trace before after : List Event} {e : Event}

theorem append (h : Paired trace) (hok : e ≠ .ok) (hwrite : e ≠ .status .Ok) :
    Paired (trace ++ [e]) where
  chain := by
    rw [← List.cons_append, List.isChain_append]
    refine ⟨h.chain, List.isChain_singleton e, fun e' he' e'' he'' => ?_⟩
    obtain rfl : e = e'' := by simpa using he''
    exact iff_of_false (fun heq => h.last (heq ▸ he')) hok
  last := by
    rw [← List.cons_append, List.getLast?_concat]
    exact fun heq => hwrite (Option.some.inj heq)

theorem ok (h : Paired trace) : Paired (trace ++ [.status .Ok] ++ [.ok]) where
  chain := by
    rw [List.append_assoc, ← List.cons_append, List.isChain_append]
    refine ⟨h.chain, by simp, fun e' he' e'' he'' => ?_⟩
    obtain rfl : .status .Ok = e'' := by simpa using he''
    exact iff_of_false (fun heq => h.last (heq ▸ he')) nofun
  last := by
    rw [← List.cons_append, List.getLast?_concat]
    nofun

theorem write_before (h : Paired (before ++ .ok :: after)) :
    ∃ before', before = before' ++ [.status .Ok] := by
  have hchain := h.chain
  rw [← List.cons_append, List.isChain_append] at hchain
  cases before using List.reverseRecOn with
  | nil => cases (hchain.2.2 (.status .None) rfl .ok rfl).mpr rfl
  | append_singleton before' e _ =>
    have hlast : (Event.status .None :: (before' ++ [e])).getLast? = some e := by
      rw [← List.cons_append, List.getLast?_concat]
    obtain rfl := (hchain.2.2 e hlast .ok rfl).mpr rfl
    exact ⟨before', rfl⟩

theorem ok_behind (h : Paired (before ++ .status .Ok :: after)) :
    ∃ after', after = .ok :: after' := by
  have htrace : Event.status .None :: (before ++ .status .Ok :: after) =
      (.status .None :: before ++ [.status .Ok]) ++ after := by simp
  have hchain := h.chain
  rw [htrace, List.isChain_append] at hchain
  cases after with
  | nil =>
    refine absurd ?_ h.last
    rw [htrace, List.append_nil, List.getLast?_concat]
  | cons e after' =>
    obtain rfl := (hchain.2.2 (.status .Ok) List.getLast?_concat e rfl).mp rfl
    exact ⟨after', rfl⟩

end Paired

structure Logged (s : State) : Prop where
  last : s.statuses.getLast? = some s.status_
  forward : s.statuses.IsChain ConnectStatus.Moves
  paired : Paired s.trace

namespace Logged

variable {s t : State} {e : Event} {st : ConnectStatus}

theorem keep (h : Logged s) (hstatus : t.status_ = s.status_) (htrace : t.trace = s.trace) :
    Logged t where
  last := by rw [State.statuses, htrace, hstatus]; exact h.last
  forward := by rw [State.statuses, htrace]; exact h.forward
  paired := htrace ▸ h.paired

theorem log (h : Logged s) (hwritten : e.written = none) (hok : e ≠ .ok) : Logged (s.log e) := by
  have hstatuses : (s.log e).statuses = s.statuses := by
    simp [State.statuses, State.log, hwritten]
  refine ⟨hstatuses ▸ h.last, hstatuses ▸ h.forward, h.paired.append hok ?_⟩
  rintro rfl
  cases hwritten

theorem statuses_setStatus (s : State) (st : ConnectStatus) :
    (s.setStatus st).statuses = s.statuses ++ [st] := by
  simp [State.statuses, State.setStatus, State.log, Event.written]

theorem moves (h : Logged s) (hmoves : s.status_.Moves st) :
    (s.setStatus st).statuses.getLast? = some st ∧
      (s.setStatus st).statuses.IsChain ConnectStatus.Moves := by
  rw [statuses_setStatus, List.getLast?_concat, List.isChain_append]
  refine ⟨rfl, h.forward, List.isChain_singleton st, fun st' hst' st'' hst'' => ?_⟩
  obtain rfl : st = st'' := by simpa using hst''
  obtain rfl := Option.some.inj (h.last.symm.trans hst')
  exact hmoves

theorem setStatus (h : Logged s) (hmoves : s.status_.Moves st) (hst : st ≠ .Ok) :
    Logged (s.setStatus st) :=
  ⟨(h.moves hmoves).1, (h.moves hmoves).2, h.paired.append nofun (by simpa using hst)⟩

theorem bad (h : Logged s) : Logged (s.setStatus .Bad) := h.setStatus s.status_.moves_bad nofun

theorem ok (h : Logged s) (hmoves : s.status_.Moves .Ok) : Logged ((s.setStatus .Ok).log .ok) := by
  have hstatuses : ((s.setStatus .Ok).log .ok).statuses = (s.setStatus .Ok).statuses := by
    simp [State.statuses, State.log, Event.written]
  exact ⟨hstatuses ▸ (h.moves hmoves).1, hstatuses ▸ (h.moves hmoves).2, h.paired.ok⟩

end Logged

/-- The state of a connection that has come at least as far as `r`.  A connection that failed in
`init` has called `closeCallback_` and has no dispatcher. -/
structure Life (r : Nat) (s : State) : Prop where
  forward : r ≤ s.status_.rank
  logged : Logged s
  ordered : s.calls.Sublist [.ok, .close]
  fresh : s.status_ = .None → s.calls = [] ∧ s.eventDispatcherPtr_ = none
  handshake : s.status_.rank < 3 → s.calls = [] ∨ s.eventDispatcherPtr_ = none
  notOk : s.status_.rank < 3 → .ok ∉ s.calls
  ok : s.status_ = .Ok → s.calls = [.ok]
  timers : s.timers ≠ [] → s.eventDispatcherPtr_ ≠ none
  handle : s.mysqlPtr_ = false → s.status_ = .Bad

theorem Life.self {r : Nat} {s : State} (h : Life r s) : Life s.status_.rank s :=
  { h with forward := Nat.le_refl _ }

theorem Life.keep {r : Nat} {s t : State} (h : Life r s) (hstatus : t.status_ = s.status_)
    (htrace : t.trace = s.trace) (hptr : t.mysqlPtr_ = s.mysqlPtr_)
    (hdisp : t.eventDispatcherPtr_ = s.eventDispatcherPtr_)
    (htimers : t.timers ≠ [] → s.timers ≠ []) : Life r t where
  forward := hstatus ▸ h.forward
  logged := h.logged.keep hstatus htrace
  ordered := by rw [State.calls, htrace]; exact h.ordered
  fresh hs := by rw [State.calls, htrace, hdisp]; exact h.fresh (hstatus ▸ hs)
  handshake hs := by rw [State.calls, htrace, hdisp]; exact h.handshake (hstatus ▸ hs)
  notOk hs := by rw [State.calls, htrace]; exact h.notOk (hstatus ▸ hs)
  ok hs := by rw [State.calls, htrace]; exact h.ok (hstatus ▸ hs)
  timers ht := by rw [hdisp]; exact h.timers (htimers ht)
  handle hp := by rw [hstatus]; exact h.handle (hptr ▸ hp)

theorem Life.log {r : Nat} {s : State} (h : Life r s) {e : Event} (he : e.isConnection = false) :
    Life r (s.log e) := by
  obtain ⟨hwritten, hcall, hok⟩ := Event.plain he
  have hcalls := s.calls_log hcall
  exact ⟨h.forward, h.logged.log hwritten hok, hcalls ▸ h.ordered, fun hs => hcalls ▸ h.fresh hs,
    fun hs => hcalls ▸ h.handshake hs, fun hs => hcalls ▸ h.notOk hs, fun hs => hcalls ▸ h.ok hs,
    h.timers, h.handle⟩

theorem Life.interest {r : Nat} {s t : State} (h : Life r s) (hd : s.eventDispatcherPtr_ ≠ none)
    (hstatus : t.status_ = s.status_) (htrace : t.trace = s.trace)
    (hptr : t.mysqlPtr_ = s.mysqlPtr_) (hdisp : t.eventDispatcherPtr_ ≠ none) : Life r t where
  forward := hstatus ▸ h.forward
  logged := h.logged.keep hstatus htrace
  ordered := by rw [State.calls, htrace]; exact h.ordered
  fresh hs := absurd (h.fresh (hstatus ▸ hs)).2 hd
  handshake hs := Or.inl (by
    rw [State.calls, htrace]
    exact (h.handshake (hstatus ▸ hs)).resolve_right hd)
  notOk hs := by rw [State.calls, htrace]; exact h.notOk (hstatus ▸ hs)
  ok hs := by rw [State.calls, htrace]; exact h.ok (hstatus ▸ hs)
  timers _ := hdisp
  handle hp := by rw [hstatus]; exact h.handle (hptr ▸ hp)

theorem Life.open_ {r : Nat} {s : State} (h : Life r s) (hs : s.status_ ≠ .Bad)
    (hd : s.eventDispatcherPtr_ ≠ none) : s.calls = [] ∨ s.calls = [.ok] := by
  cases hst : s.status_ with
  | Ok => exact Or.inr (h.ok hst)
  | Bad => exact absurd hst hs
  | None | Connecting | SettingCharacterSet =>
    exact Or.inl ((h.handshake (by rw [hst]; decide)).resolve_right hd)

theorem Life.bad {r : Nat} {s t : State} (h : Life r s) (hbad : t.status_ = .Bad)
    (hlogged : Logged t) (hcalls : t.calls.Sublist [.ok, .close])
    (htimers : t.timers ≠ [] → t.eventDispatcherPtr_ ≠ none) : Life r t where
  forward := by rw [hbad]; exact Nat.le_trans h.forward s.status_.rank_le_bad
  logged := hlogged
  ordered := hcalls
  fresh hs := by cases hbad.symm.trans hs
  handshake hs := by rw [hbad] at hs; exact absurd hs (by decide)
  notOk hs := by rw [hbad] at hs; exact absurd hs (by decide)
  ok hs := by cases hbad.symm.trans hs
  timers := htimers
  handle _ := hbad

theorem stable_life (r : Nat) : Stable (Life r) where
  waited _ _ h := h.keep rfl rfl rfl rfl fun ht => ht
  noted _ h := h.keep rfl rfl rfl rfl fun ht => ht
  executing _ _ h := h.keep rfl rfl rfl rfl fun ht => ht
  log _ _ he h := h.log he
  queued _ _ h := h.keep rfl rfl rfl rfl fun ht => ht
  interest _ _ hd h := h.interest hd rfl rfl rfl (Option.some_ne_none _)
  armed _ _ hd h := h.interest (hd ▸ Option.some_ne_none _) rfl rfl rfl (Option.some_ne_none _)
  cleared _ h := h.keep rfl rfl rfl rfl fun ht => ht
  accept s sql_ h := (h.log (e := .accepted (s.accepted + 1) sql_) rfl).keep rfl rfl rfl rfl fun ht => ht
  closed s hs hd h := by
    refine h.bad rfl ((h.logged.bad.log (e := .close) rfl nofun).keep rfl rfl) ?_
      fun _ => Option.some_ne_none _
    rw [State.calls_close, State.calls_setStatus]
    change (s.calls ++ [Event.close]).Sublist _
    rcases h.open_ hs hd with hc | hc
    · rw [hc]
      decide
    · rw [hc]
      decide
  disconnected s _ h :=
    h.bad rfl (h.logged.bad.keep rfl rfl) (s.calls_setStatus .Bad ▸ h.ordered)
      fun _ => Option.some_ne_none _
  bad s h := h.bad rfl h.logged.bad (s.calls_setStatus .Bad ▸ h.ordered) h.timers
  halted _ _ h := h.keep rfl rfl rfl rfl fun ht => ht

section Handshake

variable {cfg : Config} {env : Environment} {s : State} {r : Nat} {fuel : Nat}

theorem setEventDispatcher_life (h : Life r s) :
    wp setEventDispatcher (fun _ => Life r) (fun t => Life r t ∧ Halted t) s :=
  (stable_life r).setEventDispatcher h

theorem becomeOk_life (h : Life r s) (hs : s.status_.rank < 3) (hd : s.eventDispatcherPtr_ ≠ none)
    (hptr : s.mysqlPtr_ = true) :
    wp (becomeOk cfg env) (fun _ => Life r) (fun t => Life r t ∧ Halted t) s := by
  have hcalls : s.calls = [] := (h.handshake hs).resolve_right hd
  have hok : ((s.setStatus .Ok).log .ok).calls = [.ok] := by
    rw [State.calls_ok, State.calls_setStatus, hcalls]
    rfl
  refine wp_becomeOk (wp_mono ((stable_life r).callUser ?_)
    (fun _ _ ht => setEventDispatcher_life ht) (fun _ ht => ht))
  exact ⟨Nat.le_trans h.forward (Nat.le_of_lt hs), h.logged.ok (Or.inl hs), by rw [hok]; decide,
    nofun, fun hlt => absurd hlt (Nat.lt_irrefl 3), fun hlt => absurd hlt (Nat.lt_irrefl 3),
    fun _ => hok, fun _ => hd, fun hp => absurd (hptr.symm.trans hp) (by decide)⟩

theorem characterSetDone_life {err : Int} (h : Life r s) (hs : s.status_.rank < 3)
    (hd : s.eventDispatcherPtr_ ≠ none) (hptr : s.mysqlPtr_ = true) :
    wp (characterSetDone cfg env err) (fun _ => Life r) (fun t => Life r t ∧ Halted t) s :=
  wp_characterSetDone (fun _ => (stable_life r).stops _ h) (fun _ => (stable_life r).stops _ h)
    (fun _ => (stable_life r).handleClosed h) (fun _ => becomeOk_life h hs hd hptr)

theorem continueSetCharacterSet_life {status : Wait} (h : Life r s) (hs : s.status_.rank < 3)
    (hd : s.eventDispatcherPtr_ ≠ none) :
    wp (continueSetCharacterSet cfg env status) (fun _ => Life r) (fun t => Life r t ∧ Halted t) s :=
  wp_continueSetCharacterSet (fun _ => (stable_life r).stops _ h)
    (fun e _ _ => setEventDispatcher_life ((stable_life r).asked s e h))
    (fun e hptr _ => characterSetDone_life ((stable_life r).asked s e h) hs hd hptr)

theorem startSetCharacterSet_life (h : Life r s) (hs : s.status_ = .Connecting)
    (hd : s.eventDispatcherPtr_ ≠ none) :
    wp (startSetCharacterSet cfg env) (fun _ => Life r) (fun t => Life r t ∧ Halted t) s := by
  have hlt : s.status_.rank < 3 := by rw [hs]; decide
  have hasked : ∀ e, Life r (s.asked e) := fun e => (stable_life r).asked s e h
  refine wp_startSetCharacterSet (fun _ => (stable_life r).stops _ h) (fun e hptr _ => ?_)
    (fun e hptr _ => characterSetDone_life (hasked e) hlt hd hptr)
  have hcalls := (s.asked e).calls_setStatus .SettingCharacterSet
  have hforward : r ≤ ConnectStatus.SettingCharacterSet.rank := by
    have hr := h.forward
    rw [hs] at hr
    exact Nat.le_trans hr (Nat.le_succ 1)
  have hmoves : (s.asked e).status_.Moves .SettingCharacterSet := by
    change s.status_.Moves _
    rw [hs]
    exact Or.inl (by decide)
  exact setEventDispatcher_life ⟨hforward, (hasked e).logged.setStatus hmoves nofun,
    hcalls ▸ h.ordered, nofun, fun _ => hcalls ▸ h.handshake hlt, fun _ => hcalls ▸ h.notOk hlt,
    nofun, fun _ => hd, fun hp => absurd (hptr.symm.trans hp) (by decide)⟩

theorem continueConnect_life {site : Site} {status : Wait} (h : Life r s)
    (hs : s.status_ = .Connecting) (hd : s.eventDispatcherPtr_ ≠ none) :
    wp (continueConnect cfg env site status) (fun _ => Life r) (fun t => Life r t ∧ Halted t) s := by
  have hlt : s.status_.rank < 3 := by rw [hs]; decide
  have hasked : ∀ e, Life r (s.asked e) := fun e => (stable_life r).asked s e h
  exact wp_continueConnect (fun _ => (stable_life r).stops _ h)
    (fun e _ _ => setEventDispatcher_life (hasked e))
    (fun e _ _ => (stable_life r).stops _ (hasked e))
    (fun e _ _ => (stable_life r).handleClosed (hasked e))
    (fun e hptr _ => becomeOk_life (hasked e) hlt hd hptr)
    (fun e _ _ => startSetCharacterSet_life (hasked e) hs hd)

theorem handleTimeout_life (h : Life r s) (hd : s.eventDispatcherPtr_ ≠ none) :
    wp (handleTimeout cfg env) (fun _ => Life r) (fun t => Life r t ∧ Halted t) s :=
  wp_handleTimeout (fun _ _ hs => continueConnect_life h hs hd)
    (fun _ hs => continueSetCharacterSet_life h (by rw [hs]; decide) hd) (fun _ _ => h)

theorem handleEvent_life {pollIn pollOut pollPri : Bool} (h : Life r s)
    (hd : s.eventDispatcherPtr_ ≠ none) :
    wp (handleEvent cfg env fuel pollIn pollOut pollPri) (fun _ => Life r)
      (fun t => Life r t ∧ Halted t) s :=
  wp_handleEvent (fun _ _ hs => continueConnect_life h hs hd)
    (fun _ hs => continueSetCharacterSet_life h (by rw [hs]; decide) hd)
    (fun _ _ => (stable_life r).handleCmd h) (fun _ => h)

theorem init_life (h : Life r s) (hs : s.status_ = .None) :
    wp (init cfg env) (fun _ => Life r) (fun t => Life r t ∧ Halted t) s := by
  obtain ⟨hcalls, hd⟩ := h.fresh hs
  have hforward : r ≤ 1 := by
    have hr := h.forward
    rw [hs] at hr
    exact Nat.le_trans hr (Nat.zero_le 1)
  have hhandle : s.mysqlPtr_ = false → False := fun hp => by cases hs.symm.trans (h.handle hp)
  have hlogged : Logged (s.setStatus .Connecting) :=
    h.logged.setStatus (by rw [hs]; exact Or.inl (by decide)) nofun
  have hnone : ∀ e, (s.connecting e).calls = [] := fun _ => (s.calls_setStatus .Connecting).trans hcalls
  have hconnecting : ∀ e, Life r (s.connecting e) := fun e =>
    ⟨hforward, hlogged.keep rfl rfl, by rw [hnone]; decide, nofun, fun _ => Or.inl (hnone e),
      fun _ => by rw [hnone]; nofun, nofun, h.timers, fun hp => (hhandle hp).elim⟩
  have hfail : ∀ e, wp (failInit cfg env) (fun _ => Life r) (fun t => Life r t ∧ Halted t)
      (s.connecting e) := by
    intro e
    have hclose : ((s.connecting e).log .close).calls = [.close] := by
      rw [State.calls_close, hnone]
      rfl
    refine wp_failInit (fun _ => (stable_life r).stops _ (hconnecting e))
      ((stable_life r).callUser ?_)
    exact ⟨hforward, (hconnecting e).logged.log rfl nofun, by rw [hclose]; decide, nofun,
      fun _ => Or.inr hd, fun _ => by rw [hclose]; decide, nofun, h.timers,
      fun hp => (hhandle hp).elim⟩
  refine wp_init (fun hp => (hhandle hp).elim) (fun e _ _ => hfail e) (fun e _ _ _ _ => hfail e)
    (fun e _ _ => setEventDispatcher_life ?_)
  exact ⟨hforward, (hconnecting e).logged.keep rfl rfl, (hconnecting e).ordered, nofun,
    fun _ => Or.inl (hnone e), (hconnecting e).notOk, nofun, fun _ => Option.some_ne_none _,
    fun hp => (hhandle hp).elim⟩

theorem handle_life (l : LoopEvent) (h : Life r s) :
    wp (handle cfg env fuel l) (fun _ => Life r) (fun t => Life r t ∧ Halted t) s := by
  refine wp_handle (fun _ hs => init_life h hs) (fun _ _ _ _ hd => handleEvent_life h hd)
    (fun f rest _ _ => ?_) (fun n _ hn => ?_) (fun a _ => (stable_life r).perform a h)
  · have hrunning : Life r (s.running f rest) :=
      (h.log (e := .applied f.statement (if s.isWorking_ then s.callback_ else none)) rfl).keep
        rfl rfl rfl rfl fun ht => ht
    exact wp_mono ((stable_life r).runFunc f hrunning)
      (fun _ _ ht => ht.keep rfl rfl rfl rfl fun hts => hts) (fun _ ht => ht)
  · have hne : s.timers ≠ [] := List.ne_nil_of_mem hn
    have herased : Life r { s with timers := s.timers.erase n } :=
      h.keep rfl rfl rfl rfl fun _ => hne
    exact handleTimeout_life herased (h.timers hne)

end Handshake

theorem Life.step {cfg : Config} {env : Environment} {r : Nat} {s t : State}
    {l : LoopEvent × List Input} (h : Life r s) (hst : MySQLConnector.step cfg env s l = some t) :
    Life r t :=
  (step_inv (fun _ _ => handle_life l.1 h) hst).elim (fun ht => ht) fun ht => ht.1

theorem Life.init : Life 0 init₀ where
  forward := Nat.zero_le _
  logged := ⟨rfl, List.isChain_singleton _, List.isChain_singleton _, by decide⟩
  ordered := by decide
  fresh _ := ⟨rfl, rfl⟩
  handshake _ := Or.inl rfl
  notOk := by decide
  ok := nofun
  timers := by decide
  handle := nofun

theorem reachable_life {cfg : Config} {env : Environment} {s : State}
    (h : (system cfg env).Reachable s) : Life 0 s :=
  h.invariant (fun _ hs => hs ▸ Life.init) fun _ _ _ hs hst => hs.step hst

/-- What the history of a connection looks like, inside of the handlers too. -/
structure LifeCycle (s : State) : Prop where
  current : s.statuses.getLast? = some s.status_
  forward : s.statuses.Pairwise ConnectStatus.Moves
  ok_called : ∀ before after, s.trace = before ++ .status .Ok :: after →
    ∃ after', after = .ok :: after'
  ok_only : ∀ before after, s.trace = before ++ .ok :: after →
    ∃ before', before = before' ++ [.status .Ok]
  once : s.calls.Sublist [.ok, .close]

/-- In every run each write to `status_` moves it forward and none but `Bad` follows `Bad`;
`okCallback_` is called behind the write of `Ok` at once and nowhere else, and the calls of
`okCallback_` and `closeCallback_` are one of each at most, in this order. -/
theorem life_cycle {cfg : Config} {s t : State} {ls : List (LoopEvent × List Input)}
    (h : (system cfg anything).Reachable s) (hr : (system cfg anything).run s ls = some t) :
    LifeCycle t ∧ s.status_.rank ≤ t.status_.rank ∧ (s.status_ = .Bad → t.status_ = .Bad) ∧
      (t.status_ = .Ok → t.calls = [.ok]) ∧
      (t.status_.rank < ConnectStatus.Ok.rank → .ok ∉ t.calls) := by
  have hrank : s.status_.rank ≤ t.status_.rank := by
    refine System.Reachable.run_rel (R := fun s t : State => s.status_.rank ≤ t.status_.rank)
      (fun _ => Nat.le_refl _) (fun _ _ _ => Nat.le_trans) (fun s l t hs hst => ?_) h hr
    exact ((reachable_life hs).self.step hst).forward
  have ht := reachable_life (h.run hr)
  have hpaired := ht.logged.paired
  have hcycle : LifeCycle t := by
    refine ⟨ht.logged.last, List.isChain_iff_pairwise.mp ht.logged.forward,
      fun before after htrace => ?_, fun before after htrace => ?_, ht.ordered⟩
    · rw [htrace] at hpaired
      exact hpaired.ok_behind
    · rw [htrace] at hpaired
      exact hpaired.write_before
  refine ⟨hcycle, hrank, fun hs => ?_, ht.ok, ht.notOk⟩
  rw [hs] at hrank
  cases hst : t.status_ with
  | Bad => rfl
  | None | Connecting | SettingCharacterSet | Ok =>
    rw [hst] at hrank
    exact absurd hrank (by decide)

def closedByServer : List (LoopEvent × List Input) :=
  connected ++ [(.fdEvent true false false, [.turn []])]

theorem life_cycle_closedByServer :
    ∃ t, (system ⟨true, true, List.flatMap escapeByte⟩ anything).run init₀ closedByServer = some t ∧
      t.statuses = [.None, .Connecting, .Ok, .Bad] ∧ t.calls = [.ok, .close] ∧ LifeCycle t := by
  obtain ⟨t, hrun, ht⟩ := exists_run (system ⟨true, true, List.flatMap escapeByte⟩ anything) init₀
    closedByServer (fun t => t.statuses = [.None, .Connecting, .Ok, .Bad] ∧ t.calls = [.ok, .close])
    (by decide)
  obtain ⟨hstatuses, hcalls⟩ := of_decide_eq_true ht
  exact ⟨t, hrun, hstatuses, hcalls, (life_cycle (System.Reachable.init rfl) hrun).1⟩

end MysqlConnectPool.MySQLConnector
