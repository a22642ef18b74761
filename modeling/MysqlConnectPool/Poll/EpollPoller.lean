import Mathlib.Logic.Embedding.Basic
import MysqlConnectPool.Event.EventDispatcher
import MysqlConnectPool.Library.System

/-! The poller of a loop: the registration of its dispatchers in the interest set of the kernel. -/

universe u

namespace MysqlConnectPool.EpollPoller

open EventDispatcher

structure EpollEvent (Addr : Type u) where
  events : BitVec 32
  ptr : Addr
  deriving DecidableEq

inductive Operation
  | EPOLL_CTL_ADD
  | EPOLL_CTL_MOD
  | EPOLL_CTL_DEL
  deriving DecidableEq

structure Request where
  operation : Operation
  registered : Bool
  deriving DecidableEq

def Request.legal : Request → Bool
  | ⟨.EPOLL_CTL_ADD, registered⟩ => !registered
  | ⟨.EPOLL_CTL_MOD, registered⟩ => registered
  | ⟨.EPOLL_CTL_DEL, registered⟩ => registered

variable {Addr : Type u}

/-- The registrations after a call; a call that is not legal fails. -/
def epoll_ctl (interestSet : Nat → Option (EpollEvent Addr)) (operation : Operation) (fd : Nat)
    (event : EpollEvent Addr) : Nat → Option (EpollEvent Addr) :=
  if (Request.mk operation (interestSet fd).isSome).legal then
    match operation with
    | .EPOLL_CTL_ADD | .EPOLL_CTL_MOD => Function.update interestSet fd (some event)
    | .EPOLL_CTL_DEL => Function.update interestSet fd none
  else interestSet

section Kernel

variable {interestSet : Nat → Option (EpollEvent Addr)} {operation : Operation} {fd : Nat}
  {event : EpollEvent Addr}

theorem epoll_ctl_other {other : Nat} (hne : other ≠ fd) :
    epoll_ctl interestSet operation fd event other = interestSet other := by
  unfold epoll_ctl
  split
  · cases operation <;> exact Function.update_of_ne hne _ _
  · rfl

theorem epoll_ctl_self (h : (Request.mk operation (interestSet fd).isSome).legal) :
    epoll_ctl interestSet operation fd event fd =
      if operation = .EPOLL_CTL_DEL then none else some event := by
  unfold epoll_ctl
  rw [if_pos h]
  cases operation <;> exact Function.update_self _ _ _

end Kernel

variable [DecidableEq Addr]

/-- The dispatchers of the poller, and what the kernel has of them.  `requests` and `updated` are
there for the statements: all calls of `epoll_ctl`, and whether a dispatcher was updated since it was
made or removed. -/
structure State (Addr : Type u) where
  dispatchers : Addr → EventDispatcher
  interestSet : Nat → Option (EpollEvent Addr)
  requests : List Request
  updated : Addr → Bool

namespace State

-- each dispatcher has an fd of its own
variable (fd_ : Addr ↪ Nat)

def setState (s : State Addr) (channel : Addr) (index : PollState) : State Addr :=
  { s with
    dispatchers :=
      Function.update s.dispatchers channel { s.dispatchers channel with state_ := index } }

def updateEventDispatcher (s : State Addr) (operation : Operation) (channel : Addr) : State Addr :=
  { s with
    interestSet := epoll_ctl s.interestSet operation (fd_ channel)
      { events := (s.dispatchers channel).events_, ptr := channel }
    requests := ⟨operation, (s.interestSet (fd_ channel)).isSome⟩ :: s.requests }

def registerEventDispatcher (s : State Addr) (channel : Addr) : State Addr :=
  match (s.dispatchers channel).state_ with
  | .kNew | .kDeleted =>
    (s.setState channel .kAdded).updateEventDispatcher fd_ .EPOLL_CTL_ADD channel
  | .kAdded =>
    if (s.dispatchers channel).isNoneEvent then
      (s.updateEventDispatcher fd_ .EPOLL_CTL_DEL channel).setState channel .kDeleted
    else s.updateEventDispatcher fd_ .EPOLL_CTL_MOD channel

def removeEventDispatcher (s : State Addr) (channel : Addr) : Option (State Addr) :=
  if (s.dispatchers channel).isNoneEvent then
    match (s.dispatchers channel).state_ with
    | .kNew => none
    | .kAdded =>
      some ((s.updateEventDispatcher fd_ .EPOLL_CTL_DEL channel).setState channel .kNew)
    | .kDeleted => some (s.setState channel .kNew)
  else none

def update (s : State Addr) (this : Addr) : State Addr :=
  { s.registerEventDispatcher fd_ this with updated := Function.update s.updated this true }

def change (mask : BitVec 32 → BitVec 32) (s : State Addr) (this : Addr) : State Addr :=
  { s with
    dispatchers := Function.update s.dispatchers this
      { s.dispatchers this with events_ := mask (s.dispatchers this).events_ } }.update fd_ this

def enableReading (s : State Addr) (this : Addr) : State Addr :=
  change fd_ (· ||| getKReadEvent) s this

def enableWriting (s : State Addr) (this : Addr) : State Addr :=
  change fd_ (· ||| getKWriteEvent) s this

def disableReading (s : State Addr) (this : Addr) : State Addr :=
  change fd_ (· &&& ~~~getKReadEvent) s this

def disableWriting (s : State Addr) (this : Addr) : State Addr :=
  change fd_ (· &&& ~~~getKWriteEvent) s this

def disableAll (s : State Addr) (this : Addr) : State Addr :=
  change fd_ (fun _ => getKNoneEvent) s this

def updateEvents (s : State Addr) (this : Addr) (events : BitVec 32) : State Addr :=
  change fd_ (fun _ => events) s this

def remove (s : State Addr) (this : Addr) : Option (State Addr) :=
  (s.removeEventDispatcher fd_ this).map fun t =>
    { t with updated := Function.update t.updated this false }

def perform (s : State Addr) (this : Addr) : Interest → State Addr
  | .enableReading => s.enableReading fd_ this
  | .enableWriting => s.enableWriting fd_ this
  | .disableReading => s.disableReading fd_ this
  | .disableWriting => s.disableWriting fd_ this
  | .disableAll => s.disableAll fd_ this
  | .updateEvents events => s.updateEvents fd_ this events

end State

inductive Label (Addr : Type u)
  | interest : (this : Addr) → Interest → Label Addr
  | remove : (this : Addr) → Label Addr

def step (fd_ : Addr ↪ Nat) (s : State Addr) : Label Addr → Option (State Addr)
  | .interest this operation => some (s.perform fd_ this operation)
  | .remove this => s.remove fd_ this

def system (fd_ : Addr ↪ Nat) : Library.System (State Addr) (Label Addr) where
  init s := (∀ this, (s.dispatchers this).events_ = getKNoneEvent ∧
    (s.dispatchers this).state_ = .kNew) ∧ s.interestSet = (fun _ => none) ∧ s.requests = [] ∧
    s.updated = fun _ => false
  step := step fd_

namespace State

variable {fd_ : Addr ↪ Nat} {s t : State Addr} {this other : Addr}

theorem perform_eq_change (operation : Interest) :
    s.perform fd_ this operation = change fd_ operation.mask s this := by
  cases operation <;> rfl

def registration (d : EventDispatcher) (this : Addr) : Option (EpollEvent Addr) :=
  if d.state_ = .kAdded then some ⟨d.events_, this⟩ else none

structure Inv (fd_ : Addr ↪ Nat) (s : State Addr) : Prop where
  registered : ∀ this, s.interestSet (fd_ this) = registration (s.dispatchers this) this
  legal : ∀ request ∈ s.requests, request.legal
  updated : ∀ this, s.updated this ↔ (s.dispatchers this).state_ ≠ .kNew

structure Local (fd_ : Addr ↪ Nat) (s t : State Addr) (this : Addr) : Prop where
  others : ∀ other, other ≠ this → t.dispatchers other = s.dispatchers other ∧
    t.interestSet (fd_ other) = s.interestSet (fd_ other) ∧ t.updated other = s.updated other
  registered : t.interestSet (fd_ this) = registration (t.dispatchers this) this
  legal : ∀ request ∈ t.requests, request ∈ s.requests ∨ request.legal
  updated : t.updated this ↔ (t.dispatchers this).state_ ≠ .kNew

theorem Local.inv (h : Local fd_ s t this) (hs : Inv fd_ s) : Inv fd_ t where
  registered other := by
    by_cases hother : other = this
    · rw [hother]
      exact h.registered
    · obtain ⟨hd, hset, -⟩ := h.others other hother
      rw [hd, hset, hs.registered other]
  legal request hrequest := (h.legal request hrequest).elim (hs.legal request) id
  updated other := by
    by_cases hother : other = this
    · rw [hother]
      exact h.updated
    · obtain ⟨hd, -, hupdated⟩ := h.others other hother
      rw [hd, hupdated, hs.updated other]

def nextState (events_ : BitVec 32) : PollState → PollState
  | .kAdded => if events_ = getKNoneEvent then .kDeleted else .kAdded
  | .kNew | .kDeleted => .kAdded

def nextRequest (events_ : BitVec 32) : PollState → Operation
  | .kAdded => if events_ = getKNoneEvent then .EPOLL_CTL_DEL else .EPOLL_CTL_MOD
  | .kNew | .kDeleted => .EPOLL_CTL_ADD

theorem change_eq (mask : BitVec 32 → BitVec 32) :
    change fd_ mask s this =
      let d := s.dispatchers this
      let events_ := mask d.events_
      { dispatchers := Function.update s.dispatchers this
          { d with events_ := events_, state_ := nextState events_ d.state_ }
        interestSet := epoll_ctl s.interestSet (nextRequest events_ d.state_) (fd_ this)
          { events := events_, ptr := this }
        requests :=
          ⟨nextRequest events_ d.state_, (s.interestSet (fd_ this)).isSome⟩ :: s.requests
        updated := Function.update s.updated this true } := by
  simp only [change, update, registerEventDispatcher, Function.update_self]
  cases hstate : (s.dispatchers this).state_ with
  | kNew => simp [setState, updateEventDispatcher, nextState, nextRequest]
  | kDeleted => simp [setState, updateEventDispatcher, nextState, nextRequest]
  | kAdded =>
    by_cases hnone : mask (s.dispatchers this).events_ = getKNoneEvent
    · simp [setState, updateEventDispatcher, nextState, nextRequest, isNoneEvent, hnone]
    · simp [updateEventDispatcher, nextState, nextRequest, isNoneEvent, hnone]

omit [DecidableEq Addr] in
theorem nextRequest_legal (this : Addr) (events_ : BitVec 32) (d : EventDispatcher) :
    (Request.mk (nextRequest events_ d.state_) (registration d this).isSome).legal := by
  rw [registration]
  cases d.state_ with
  | kNew | kDeleted => simp [nextRequest, Request.legal]
  | kAdded =>
    rw [nextRequest]
    split <;> simp [Request.legal]

omit [DecidableEq Addr] in
theorem registration_next (d : EventDispatcher) (events_ : BitVec 32) :
    (if nextRequest events_ d.state_ = .EPOLL_CTL_DEL then none
      else some (EpollEvent.mk events_ this)) =
      registration { d with events_ := events_, state_ := nextState events_ d.state_ } this := by
  rw [registration]
  cases d.state_ with
  | kNew | kDeleted => simp [nextRequest, nextState]
  | kAdded =>
    rw [nextRequest, nextState]
    split <;> simp

theorem request_local {operation : Operation} {d : EventDispatcher} (event : EpollEvent Addr)
    {updated : Bool} (hlegal : (Request.mk operation (s.interestSet (fd_ this)).isSome).legal)
    (hset : (if operation = .EPOLL_CTL_DEL then none else some event) = registration d this)
    (hupdated : updated ↔ d.state_ ≠ .kNew) :
    Local fd_ s
      { dispatchers := Function.update s.dispatchers this d
        interestSet := epoll_ctl s.interestSet operation (fd_ this) event
        requests := ⟨operation, (s.interestSet (fd_ this)).isSome⟩ :: s.requests
        updated := Function.update s.updated this updated } this := by
  constructor
  case others =>
    intro other hne
    have hfd : fd_ other ≠ fd_ this := fun h => hne (fd_.injective h)
    exact ⟨Function.update_of_ne hne _ _, epoll_ctl_other hfd, Function.update_of_ne hne _ _⟩
  case registered =>
    dsimp only
    rw [epoll_ctl_self hlegal, hset, Function.update_self]
  case legal =>
    intro request hrequest
    rcases List.mem_cons.mp hrequest with rfl | hrequest
    · exact .inr hlegal
    · exact .inl hrequest
  case updated =>
    dsimp only
    rw [Function.update_self, Function.update_self]
    exact hupdated

theorem change_local (hs : Inv fd_ s) (mask : BitVec 32 → BitVec 32) :
    Local fd_ s (change fd_ mask s this) this := by
  have hlegal := nextRequest_legal this (mask (s.dispatchers this).events_) (s.dispatchers this)
  rw [← hs.registered this] at hlegal
  rw [change_eq]
  refine request_local _ hlegal (registration_next _ _) (iff_of_true rfl ?_)
  dsimp only
  cases (s.dispatchers this).state_ with
  | kNew | kDeleted => nofun
  | kAdded =>
    rw [nextState]
    split <;> nofun

theorem remove_isSome_iff (hs : Inv fd_ s) :
    (s.remove fd_ this).isSome ↔ (s.dispatchers this).isNoneEvent ∧ s.updated this := by
  rw [hs.updated, remove, Option.isSome_map, removeEventDispatcher]
  cases (s.dispatchers this).isNoneEvent with
  | false => simp
  | true => cases (s.dispatchers this).state_ <;> simp

theorem remove_local (hs : Inv fd_ s) (hremove : s.remove fd_ this = some t) :
    Local fd_ s t this := by
  have hset := hs.registered this
  simp only [remove, removeEventDispatcher, Option.map_eq_some_iff] at hremove
  obtain ⟨u, hu, rfl⟩ := hremove
  obtain ⟨-, hu⟩ := Option.ite_none_right_eq_some.mp hu
  rw [registration] at hset
  cases hstate : (s.dispatchers this).state_ with
  | kNew => simp [hstate] at hu
  | kAdded =>
    simp only [hstate, Option.some.injEq] at hu
    subst hu
    rw [if_pos hstate] at hset
    have hlegal : (Request.mk .EPOLL_CTL_DEL (s.interestSet (fd_ this)).isSome).legal := by
      simp [Request.legal, hset]
    exact request_local ⟨(s.dispatchers this).events_, this⟩ hlegal rfl (by simp)
  | kDeleted =>
    simp only [hstate, Option.some.injEq] at hu
    subst hu
    rw [if_neg (by simp [hstate])] at hset
    constructor
    case others =>
      exact fun other hne =>
        ⟨Function.update_of_ne hne _ _, rfl, Function.update_of_ne hne _ _⟩
    case registered => simpa [setState, registration] using hset
    case legal => exact fun request hrequest => .inl hrequest
    case updated => simp [setState]

theorem step_local (hs : Inv fd_ s) {label : Label Addr} (hst : step fd_ s label = some t) :
    ∃ this, Local fd_ s t this := by
  cases label with
  | interest this operation =>
    rw [step, perform_eq_change] at hst
    exact ⟨this, Option.some.inj hst ▸ change_local hs _⟩
  | remove this => exact ⟨this, remove_local hs hst⟩

theorem inv_init (h : (system fd_).init s) : Inv fd_ s := by
  obtain ⟨hnew, hset, hrequests, hupdated⟩ := h
  refine ⟨fun this => ?_, fun request hrequest => ?_, fun this => ?_⟩
  · simp [hset, registration, (hnew this).2]
  · rw [hrequests] at hrequest
    cases hrequest
  · simp [hupdated, (hnew this).2]

theorem inv_step (hs : Inv fd_ s) {label : Label Addr} (hst : step fd_ s label = some t) :
    Inv fd_ t := by
  obtain ⟨this, hlocal⟩ := step_local hs hst
  exact hlocal.inv hs

end State

section Registration

variable {fd_ : Addr ↪ Nat} {s : State Addr}

/-- What the kernel has of a dispatcher is what the dispatcher has, in every state, and a call of
`remove` that the assertions ask for passes them. -/
theorem registration_agrees (h : (system fd_).Reachable s) :
    (∀ this, (s.dispatchers this).state_ = .kAdded ↔ (s.interestSet (fd_ this)).isSome) ∧
      (∀ this event, s.interestSet (fd_ this) = some event →
        event = { events := (s.dispatchers this).events_, ptr := this }) ∧
      (∀ request ∈ s.requests, request.legal) ∧
      ∀ this, (s.dispatchers this).events_ = getKNoneEvent → s.updated this →
        (s.remove fd_ this).isSome := by
  have hs : State.Inv fd_ s :=
    h.invariant (fun _ => State.inv_init) fun _ _ _ hs => State.inv_step hs
  refine ⟨fun this => ?_, fun this event hevent => ?_, hs.legal, fun this hnone hupdated => ?_⟩
  · rw [hs.registered this, State.registration]
    split <;> simp [*]
  · rw [hs.registered this, State.registration] at hevent
    exact (Option.some.inj (Option.ite_none_right_eq_some.mp hevent).2).symm
  · exact (State.remove_isSome_iff hs).mpr ⟨decide_eq_true hnone, hupdated⟩

def Quiet (fd_ : Addr ↪ Nat) (s : State Addr) : Prop :=
  ∀ this, (s.dispatchers this).events_ = getKNoneEvent → s.interestSet (fd_ this) = none

/-- A call that leaves no interest is made on a dispatcher that is registered. -/
def leavesRegistered (s : State Addr) : Label Addr → Bool
  | .interest this operation =>
    operation.mask (s.dispatchers this).events_ = getKNoneEvent →
      (s.dispatchers this).state_ = .kAdded
  | .remove _ => true

theorem quiet_iff_of_local {t : State Addr} {this : Addr} (hlocal : State.Local fd_ s t this)
    (hquiet : Quiet fd_ s) :
    Quiet fd_ t ↔
      ((t.dispatchers this).events_ = getKNoneEvent → t.interestSet (fd_ this) = none) := by
  refine ⟨fun h => h this, fun h other hnone => ?_⟩
  by_cases hother : other = this
  · subst hother
    exact h hnone
  · obtain ⟨hd, hset, -⟩ := hlocal.others other hother
    rw [hd] at hnone
    rw [hset]
    exact hquiet other hnone

theorem change_registered_iff (hs : State.Inv fd_ s) (mask : BitVec 32 → BitVec 32) (this : Addr) :
    (((State.change fd_ mask s this).dispatchers this).events_ = getKNoneEvent →
        (State.change fd_ mask s this).interestSet (fd_ this) = none) ↔
      (mask (s.dispatchers this).events_ = getKNoneEvent →
        (s.dispatchers this).state_ = .kAdded) := by
  rw [(State.change_local hs mask).registered, State.change_eq]
  simp only [Function.update_self, State.registration]
  refine imp_congr_right fun hnone => ?_
  cases (s.dispatchers this).state_ <;> simp [State.nextState, hnone]

theorem quiet_step_iff {label : Label Addr} {t : State Addr} (hs : State.Inv fd_ s)
    (hquiet : Quiet fd_ s) (hst : step fd_ s label = some t) :
    Quiet fd_ t ↔ leavesRegistered s label = true := by
  cases label with
  | interest this operation =>
    rw [step, State.perform_eq_change, Option.some.injEq] at hst
    subst hst
    rw [quiet_iff_of_local (State.change_local hs _) hquiet, change_registered_iff hs,
      leavesRegistered, decide_eq_true_eq]
  | remove this =>
    have hlocal := State.remove_local hs hst
    have hnew : (t.dispatchers this).state_ = .kNew := by
      obtain ⟨u, -, rfl⟩ := Option.map_eq_some_iff.mp hst
      simpa using hlocal.updated
    rw [quiet_iff_of_local hlocal hquiet, hlocal.registered, State.registration, hnew]
    simp [leavesRegistered]

/-- In the runs, and only in those, in which every call that leaves no interest is made on a
registered dispatcher, no dispatcher without interest is ever polled. -/
theorem quiet_run_iff {labels : List (Label Addr)} {t : State Addr} (hinit : (system fd_).init s)
    (hr : (system fd_).run s labels = some t) :
    (∀ pre u, pre <+: labels → (system fd_).run s pre = some u → Quiet fd_ u) ↔
      (system fd_).runWhen leavesRegistered s labels = some t := by
  have hquiet : Quiet fd_ s := fun this _ => by rw [hinit.2.1]
  exact Library.System.runWhen_iff (I := Quiet fd_) (J := State.Inv fd_)
    (fun _ _ _ hs hquiet hst => quiet_step_iff hs hquiet hst)
    (fun _ _ _ hs _ _ hst => State.inv_step hs hst) (State.inv_init hinit) hquiet hr

end Registration

def newDispatcher : EventDispatcher :=
  { events_ := getKNoneEvent, realEvents_ := 0, state_ := .kNew, tied_ := false
    eventCallback_ := false, closeCallback_ := true, errorCallback_ := false
    readCallback_ := true, writeCallback_ := true }

def newPoller : State Nat :=
  { dispatchers := fun _ => newDispatcher, interestSet := fun _ => none, requests := []
    updated := fun _ => false }

theorem newPoller_init : (system (Function.Embedding.refl Nat)).init newPoller :=
  ⟨fun _ => ⟨rfl, rfl⟩, rfl, rfl, rfl⟩

theorem registration_agrees_removed :
    ∃ s, (system (Function.Embedding.refl Nat)).run newPoller
        [.interest 3 .enableReading, .interest 4 .enableWriting, .interest 3 .disableAll,
          .remove 3, .interest 3 .enableReading] = some s ∧
      ((s.dispatchers 3).state_ = .kAdded ↔ (s.interestSet 3).isSome) := by
  obtain ⟨s, hs, -⟩ := (system (Function.Embedding.refl Nat)).exists_run newPoller
    [.interest 3 .enableReading, .interest 4 .enableWriting, .interest 3 .disableAll,
      .remove 3, .interest 3 .enableReading] (fun _ => true) (by decide)
  exact ⟨s, hs, (registration_agrees
    ((Library.System.Reachable.init newPoller_init).run hs)).1 3⟩

theorem quiet_run_iff_disabled :
    ∃ s, (system (Function.Embedding.refl Nat)).run newPoller
        [.interest 3 .enableReading, .interest 3 .disableAll] = some s ∧
      ∀ pre u, pre <+: [.interest 3 .enableReading, .interest 3 .disableAll] →
        (system (Function.Embedding.refl Nat)).run newPoller pre = some u →
          Quiet (Function.Embedding.refl Nat) u := by
  obtain ⟨s, hs, -⟩ := (system (Function.Embedding.refl Nat)).exists_run newPoller
    [.interest 3 .enableReading, .interest 3 .disableAll] (fun _ => true) (by decide)
  exact ⟨s, hs, (quiet_run_iff newPoller_init hs).mpr hs⟩

/-- A second `disableAll` registers the fd again, for no event. -/
theorem disabled_twice_polled :
    ∃ s, (system (Function.Embedding.refl Nat)).run newPoller
        [.interest 3 .enableReading, .interest 3 .disableAll, .interest 3 .disableAll] = some s ∧
      (s.dispatchers 3).events_ = getKNoneEvent ∧
      s.interestSet 3 = some { events := getKNoneEvent, ptr := 3 } ∧
      ¬Quiet (Function.Embedding.refl Nat) s := by
  obtain ⟨s, hs, htest⟩ := (system (Function.Embedding.refl Nat)).exists_run newPoller
    [.interest 3 .enableReading, .interest 3 .disableAll, .interest 3 .disableAll]
    (fun s => (s.dispatchers 3).events_ = getKNoneEvent ∧
      s.interestSet 3 = some { events := getKNoneEvent, ptr := 3 }) (by decide)
  obtain ⟨hnone, hset⟩ := of_decide_eq_true htest
  refine ⟨s, hs, hnone, hset, fun hquiet => ?_⟩
  rw [show s.interestSet 3 = none from hquiet 3 hnone] at hset
  cases hset

end MysqlConnectPool.EpollPoller
