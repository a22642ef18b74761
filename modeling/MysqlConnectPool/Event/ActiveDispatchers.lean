import MysqlConnectPool.Poll.EpollPoller

/-! The callbacks of the dispatchers that `loop` finds active.  What was reported for a dispatcher is
recorded before any callback runs, and callbacks change what dispatchers want. -/

universe u

namespace MysqlConnectPool

inductive Callback
  | event
  | close
  | error
  | read
  | write
  deriving DecidableEq

namespace EventDispatcher

def isSet (d : EventDispatcher) : Callback → Bool
  | .event => d.eventCallback_
  | .close => d.closeCallback_
  | .error => d.errorCallback_
  | .read => d.readCallback_
  | .write => d.writeCallback_

def hungUp (d : EventDispatcher) : Bool :=
  d.realEvents_ &&& POLLHUP ≠ 0 ∧ d.realEvents_ &&& POLLIN = 0

def failed (d : EventDispatcher) : Bool := d.realEvents_ &&& (POLLNVAL ||| POLLERR) ≠ 0

def readable (d : EventDispatcher) : Bool :=
  d.realEvents_ &&& (POLLIN ||| POLLPRI ||| POLLRDHUP) ≠ 0

def writable (d : EventDispatcher) : Bool := d.realEvents_ &&& POLLOUT ≠ 0

end EventDispatcher

namespace ActiveDispatchers

open EventDispatcher

variable {Addr : Type u} [DecidableEq Addr]

/-- A call of `handleEvent`: whether `tie_.lock()` finds the owner alive, and the calls that each
callback makes on any dispatcher. -/
structure Turn (Addr : Type u) where
  this : Addr
  guard : Bool
  effects : Callback → List (Addr × Interest)

structure Invocation where
  callback : Callback
  dispatcher : EventDispatcher

structure State (Addr : Type u) where
  poller : EpollPoller.State Addr
  invocations : List Invocation

section Steps

variable (fd_ : Addr ↪ Nat)

def performAll (s : EpollPoller.State Addr) (calls : List (Addr × Interest)) :
    EpollPoller.State Addr :=
  calls.foldl (fun s call => s.perform fd_ call.1 call.2) s

def State.invoke (s : State Addr) (turn : Turn Addr) (callback : Callback) : State Addr :=
  if (s.poller.dispatchers turn.this).isSet callback then
    { poller := performAll fd_ s.poller (turn.effects callback)
      invocations := s.invocations ++ [⟨callback, s.poller.dispatchers turn.this⟩] }
  else s

def State.handleEventSafely (s : State Addr) (turn : Turn Addr) : State Addr :=
  let d := s.poller.dispatchers turn.this
  if d.eventCallback_ then s.invoke fd_ turn .event
  else if d.hungUp then s.invoke fd_ turn .close
  else if d.failed then s.invoke fd_ turn .error
  else
    let s := if d.readable then s.invoke fd_ turn .read else s
    if (s.poller.dispatchers turn.this).writable then s.invoke fd_ turn .write else s

def State.handleEvent (s : State Addr) (turn : Turn Addr) : State Addr :=
  let d := s.poller.dispatchers turn.this
  if d.isNoneEvent then s
  else if d.tied_ then
    if turn.guard then s.handleEventSafely fd_ turn else s
  else s.handleEventSafely fd_ turn

def State.fillActiveDispatchers (s : State Addr) (reports : List (Addr × BitVec 32)) :
    State Addr :=
  { s with
    poller :=
      { s.poller with
        dispatchers := reports.foldl (fun dispatchers report =>
          Function.update dispatchers report.1
            { dispatchers report.1 with realEvents_ := report.2 }) s.poller.dispatchers } }

inductive Label (Addr : Type u)
  | poll : List (Addr × BitVec 32) → Label Addr
  | handleEvent : Turn Addr → Label Addr
  | interest : Addr → Interest → Label Addr

def system : Library.System (State Addr) (Label Addr) where
  init s := s.invocations = []
  step s
    | .poll reports => some (s.fillActiveDispatchers reports)
    | .handleEvent turn => some (s.handleEvent fd_ turn)
    | .interest this call => some { s with poller := s.poller.perform fd_ this call }

end Steps

def Invocation.respects (invocation : Invocation) : Bool :=
  match invocation.callback with
  | .read => invocation.dispatcher.isReading
  | .write => invocation.dispatcher.isWriting
  | _ => true

def maskAfter (this : Addr) (calls : List (Addr × Interest)) (events_ : BitVec 32) : BitVec 32 :=
  calls.foldl (fun events_ call => if call.1 = this then call.2.mask events_ else events_) events_

section Frame

variable {fd_ : Addr ↪ Nat}

theorem performAll_dispatchers (s : EpollPoller.State Addr) (calls : List (Addr × Interest))
    (this : Addr) :
    ∃ state_, (performAll fd_ s calls).dispatchers this =
      { s.dispatchers this with
        events_ := maskAfter this calls (s.dispatchers this).events_, state_ := state_ } := by
  induction calls generalizing s with
  | nil => exact ⟨_, rfl⟩
  | cons call calls ih =>
    obtain ⟨state_, hstate⟩ := ih (s.perform fd_ call.1 call.2)
    refine ⟨state_, Eq.trans hstate ?_⟩
    rw [EpollPoller.State.perform_eq_change, EpollPoller.State.change_eq]
    by_cases hcall : call.1 = this
    · subst hcall
      simp [maskAfter]
    · simp [maskAfter, hcall, Function.update_of_ne (Ne.symm hcall)]

theorem invoke_dispatchers (fd_ : Addr ↪ Nat) (s : State Addr) (turn : Turn Addr)
    (callback : Callback) :
    ∃ state_, (s.invoke fd_ turn callback).poller.dispatchers turn.this =
      { s.poller.dispatchers turn.this with
        events_ := maskAfter turn.this
          (if (s.poller.dispatchers turn.this).isSet callback then turn.effects callback else [])
          (s.poller.dispatchers turn.this).events_
        state_ := state_ } := by
  rw [State.invoke]
  split
  · exact performAll_dispatchers s.poller _ turn.this
  · exact ⟨_, rfl⟩

end Frame

def AllRespect (s : State Addr) : Prop := ∀ invocation ∈ s.invocations, invocation.respects

/-- A call of `handleEvent` gets past its tests to the callbacks for reading and writing. -/
def passes (d : EventDispatcher) (guard : Bool) : Bool :=
  !d.isNoneEvent && (!d.tied_ || guard) && !d.eventCallback_ && !d.hungUp && !d.failed

/-- What was recorded for a dispatcher is still wanted when its turn comes; what was recorded for
writing, after its own callback for reading. -/
def stillWanted (d : EventDispatcher) (turn : Turn Addr) : Prop :=
  (d.readable → d.readCallback_ → d.isReading) ∧
    (d.writable → d.writeCallback_ →
      maskAfter turn.this (if d.readable ∧ d.readCallback_ then turn.effects .read else [])
        d.events_ &&& getKWriteEvent ≠ 0)

instance (d : EventDispatcher) (turn : Turn Addr) : Decidable (stillWanted d turn) :=
  inferInstanceAs (Decidable (_ ∧ _))

def recordsHold (s : State Addr) : Label Addr → Bool
  | .handleEvent turn =>
    passes (s.poller.dispatchers turn.this) turn.guard →
      stillWanted (s.poller.dispatchers turn.this) turn
  | _ => true

section Respect

variable {fd_ : Addr ↪ Nat} {s : State Addr} {turn : Turn Addr}

theorem allRespect_invoke_iff (callback : Callback) :
    AllRespect (s.invoke fd_ turn callback) ↔
      AllRespect s ∧ ((s.poller.dispatchers turn.this).isSet callback →
        (Invocation.mk callback (s.poller.dispatchers turn.this)).respects) := by
  rw [State.invoke]
  split
  · simp [AllRespect, *, or_imp, forall_and]
  · simp [*]

def State.invokeRead (fd_ : Addr ↪ Nat) (s : State Addr) (turn : Turn Addr) : State Addr :=
  if (s.poller.dispatchers turn.this).readable then s.invoke fd_ turn .read else s

theorem allRespect_invokeRead_iff (fd_ : Addr ↪ Nat) (turn : Turn Addr) (hs : AllRespect s) :
    AllRespect (s.invokeRead fd_ turn) ↔
      ((s.poller.dispatchers turn.this).readable → (s.poller.dispatchers turn.this).readCallback_ →
        (s.poller.dispatchers turn.this).isReading) := by
  rw [State.invokeRead]
  split
  · next hreadable =>
    rw [allRespect_invoke_iff, and_iff_right hs, imp_iff_right hreadable]
    rfl
  · next hreadable => exact iff_of_true hs fun h => absurd h hreadable

theorem invokeRead_dispatchers (fd_ : Addr ↪ Nat) (s : State Addr) (turn : Turn Addr) :
    ∃ state_, (s.invokeRead fd_ turn).poller.dispatchers turn.this =
      let d := s.poller.dispatchers turn.this
      { d with
        events_ := maskAfter turn.this
          (if d.readable ∧ d.readCallback_ then turn.effects .read else []) d.events_
        state_ := state_ } := by
  rw [State.invokeRead]
  split
  · next hreadable =>
    obtain ⟨state_, h⟩ := invoke_dispatchers fd_ s turn .read
    refine ⟨state_, h.trans ?_⟩
    simp only [hreadable, true_and]
    rfl
  · next hreadable =>
    refine ⟨(s.poller.dispatchers turn.this).state_, ?_⟩
    simp [hreadable, maskAfter]

theorem allRespect_readWrite_iff (fd_ : Addr ↪ Nat) (turn : Turn Addr) (hs : AllRespect s) :
    AllRespect (if ((s.invokeRead fd_ turn).poller.dispatchers turn.this).writable then
        (s.invokeRead fd_ turn).invoke fd_ turn .write else s.invokeRead fd_ turn) ↔
      stillWanted (s.poller.dispatchers turn.this) turn := by
  obtain ⟨state_, hd⟩ := invokeRead_dispatchers fd_ s turn
  have hread := allRespect_invokeRead_iff fd_ turn hs
  rw [stillWanted, ← hread]
  split
  · next hwritable =>
    rw [hd] at hwritable
    rw [allRespect_invoke_iff, hd]
    exact and_congr_right fun _ => ⟨fun h _ hset => of_decide_eq_true (h hset),
      fun h hset => decide_eq_true (h hwritable hset)⟩
  · next hwritable =>
    rw [hd] at hwritable
    exact (and_iff_left fun h => absurd h hwritable).symm

theorem allRespect_handleEventSafely_iff (fd_ : Addr ↪ Nat) (turn : Turn Addr) (hs : AllRespect s) :
    AllRespect (s.handleEventSafely fd_ turn) ↔
      (let d := s.poller.dispatchers turn.this
       !d.eventCallback_ && !d.hungUp && !d.failed → stillWanted d turn) := by
  have hother {callback : Callback} (h : callback ≠ .read ∧ callback ≠ .write) :
      AllRespect (s.invoke fd_ turn callback) := by
    refine (allRespect_invoke_iff callback).mpr ⟨hs, fun _ => ?_⟩
    cases callback <;> simp_all [Invocation.respects]
  have hrest := allRespect_readWrite_iff fd_ turn hs
  rw [State.handleEventSafely]
  split
  · next h => exact iff_of_true (hother (by decide)) (by simp [h])
  split
  · next h => exact iff_of_true (hother (by decide)) (by simp [h])
  split
  · next h => exact iff_of_true (hother (by decide)) (by simp [h])
  · next hevent hhup hfailed => exact hrest.trans (by simp [hevent, hhup, hfailed])

theorem allRespect_step_iff {label : Label Addr} {t : State Addr} (hs : AllRespect s)
    (hst : (system fd_).step s label = some t) : AllRespect t ↔ recordsHold s label = true := by
  cases label with
  | poll reports =>
    cases hst
    exact iff_of_true hs rfl
  | interest this call =>
    cases hst
    exact iff_of_true hs rfl
  | handleEvent turn =>
    cases hst
    have hsafely := allRespect_handleEventSafely_iff fd_ turn hs
    rw [recordsHold, decide_eq_true_eq, State.handleEvent, passes]
    split
    · next hnone => exact iff_of_true hs (by simp [hnone])
    split
    · next htied =>
      split
      · next hguard =>
        rw [hsafely]
        simp [*]
      · next hguard => exact iff_of_true hs (by simp [htied, hguard])
    · next htied =>
      rw [hsafely]
      simp [*]

/-- Callbacks are called for what their dispatchers want, exactly in the runs in which at each turn
the record is still wanted. -/
theorem allRespect_run_iff {labels : List (Label Addr)} {t : State Addr}
    (hinit : (system fd_).init s) (hr : (system fd_).run s labels = some t) :
    (∀ pre u, pre <+: labels → (system fd_).run s pre = some u → AllRespect u) ↔
      (system fd_).runWhen recordsHold s labels = some t := by
  have hs : AllRespect s := fun invocation h => by
    rw [show s.invocations = [] from hinit] at h
    cases h
  exact Library.System.runWhen_iff (I := AllRespect) (J := fun _ => True)
    (fun _ _ _ _ hs hst => allRespect_step_iff hs hst) (fun _ _ _ _ _ _ _ => trivial) trivial hs hr

end Respect

def start : State Nat := { poller := EpollPoller.newPoller, invocations := [] }

def wanting : List (Label Nat) :=
  [.interest 3 .enableReading, .interest 4 .enableReading, .interest 4 .enableWriting]

def disablesOther : Turn Nat where
  this := 3
  guard := true
  effects
    | .read => [(4, .disableReading)]
    | _ => []

def noEffect : Turn Nat where
  this := 4
  guard := true
  effects _ := []

def handled (reports : List (Nat × BitVec 32)) : List (Label Nat) :=
  wanting ++ [.poll reports, .handleEvent disablesOther, .handleEvent noEffect]

theorem allRespect_run_iff_writable :
    ∃ t, (system (Function.Embedding.refl Nat)).run start (handled [(3, POLLIN), (4, POLLOUT)]) =
        some t ∧
      ∀ pre u, pre <+: handled [(3, POLLIN), (4, POLLOUT)] →
        (system (Function.Embedding.refl Nat)).run start pre = some u → AllRespect u := by
  obtain ⟨t, ht, -⟩ := (system (Function.Embedding.refl Nat)).exists_run start
    (handled [(3, POLLIN), (4, POLLOUT)]) (fun _ => true) (by decide)
  exact ⟨t, ht, (allRespect_run_iff (s := start) rfl ht).mpr ht⟩

/-- Both are reported readable; the second is called for reading all the same. -/
theorem disabled_reading_called :
    ∃ t, (system (Function.Embedding.refl Nat)).run start (handled [(3, POLLIN), (4, POLLIN)]) =
        some t ∧
      ((t.poller.dispatchers 4).isReading = false ∧
        t.invocations.map (·.callback) = [.read, .read]) ∧ ¬AllRespect t := by
  obtain ⟨t, ht, htest⟩ := (system (Function.Embedding.refl Nat)).exists_run start
    (handled [(3, POLLIN), (4, POLLIN)])
    (fun t => ((t.poller.dispatchers 4).isReading = false ∧
      t.invocations.map (·.callback) = [.read, .read]) ∧
        t.invocations.all Invocation.respects = false) (by decide)
  obtain ⟨hcalled, hrespects⟩ := of_decide_eq_true htest
  refine ⟨t, ht, hcalled, fun h => ?_⟩
  rw [List.all_eq_true.mpr h] at hrespects
  cases hrespects

end ActiveDispatchers

end MysqlConnectPool
