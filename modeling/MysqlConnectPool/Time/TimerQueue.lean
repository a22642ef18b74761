import Mathlib.Data.Finset.Basic
import MysqlConnectPool.Library.MinQueue
import MysqlConnectPool.Library.System

/-! Timers, the timerfd and the queue that runs the ones that are due.  Time points
are nanoseconds of the monotonic clock, intervals microseconds, both without the bound of
`int64_t`. -/

universe u

namespace MysqlConnectPool.TimerQueue

structure Timer where
  id_ : Nat
  when_ : Int
  interval_ : Int
  repeat_ : Bool
  repeat_eq : repeat_ = decide (0 < interval_)
  deriving DecidableEq

def Timer.create (id : Nat) (when interval : Int) : Timer := ⟨id, when, interval, _, rfl⟩

def Timer.restart (t : Timer) (now steadyNow : Int) : Timer :=
  { t with when_ := if t.repeat_ then now + t.interval_ * 1000 else steadyNow }

@[simp] theorem Timer.restart_id (t : Timer) (now steadyNow : Int) :
    (t.restart now steadyNow).id_ = t.id_ := rfl

@[simp] theorem Timer.restart_repeat (t : Timer) (now steadyNow : Int) :
    (t.restart now steadyNow).repeat_ = t.repeat_ := rfl

structure Timespec where
  tv_sec : Int
  tv_nsec : Int
  deriving DecidableEq

def Timespec.toNanoseconds (ts : Timespec) : Int := ts.tv_sec * 1000000000 + ts.tv_nsec

def howMuchTimeFromNow (when now : Int) : Timespec :=
  let microSeconds := (when - now).tdiv 1000
  let microSeconds := if microSeconds < 100 then 100 else microSeconds
  ⟨microSeconds.tdiv 1000000, microSeconds.tmod 1000000 * 1000⟩

/-- A timerfd set at `armedAt` from a clock reading taken at `readAt`; it stays so
until it is read after `expiry` or set again. -/
structure Arm where
  readAt : Int
  armedAt : Int
  expiry : Int
  deriving DecidableEq

/-- The batch of `handleRead`: the timers its loop has passed, those to come, and
whether the callback of the last one passed is running. -/
structure Batch where
  now : Int
  passed : List Timer
  todo : List Timer
  running : Bool
  deriving DecidableEq

/-- `batch` is what `handleRead` keeps in its frame.  The last three fields are
history: the ids whose callback has started, in order, the timers added, and the ids
erased after they were added. -/
structure State (H : Library.MinQueue Timer.when_) where
  timers_ : H.Q
  timerIdSet_ : Finset Nat
  callingExpiredTimers_ : Bool
  timerfd_ : Option Arm
  clock : Int
  batch : Option Batch
  started : List Nat
  added : List Timer
  cancelled : Finset Nat

variable {H : Library.MinQueue.{0, 0, u} Timer.when_}

def init (clock : Int) : State H where
  timers_ := H.empty
  timerIdSet_ := ∅
  callingExpiredTimers_ := false
  timerfd_ := none
  clock := clock
  batch := none
  started := []
  added := []
  cancelled := ∅

namespace State

def heap (s : State H) : Multiset Timer := H.elems s.timers_

/-- `timerfd_settime` with the relative time computed `lag` nanoseconds before it; a
zero time disarms. -/
def resetTimerfd (s : State H) (expiration : Int) (lag : Nat) : State H :=
  let newValue := howMuchTimeFromNow expiration s.clock
  let armedAt := s.clock + lag
  { s with
    clock := armedAt
    timerfd_ := if newValue.toNanoseconds = 0 then none
      else some ⟨s.clock, armedAt, armedAt + newValue.toNanoseconds⟩ }

def readTimerfd (s : State H) : State H :=
  { s with timerfd_ := s.timerfd_.filter (fun a => s.clock < a.expiry) }

def insert (s : State H) (timePtr : Timer) : Bool × State H :=
  let earliestChanged := match H.top? s.timers_ with
    | none => true
    | some top => decide (timePtr.when_ < top.when_)
  (earliestChanged, { s with timers_ := H.push timePtr s.timers_ })

def addTimerInLoop (s : State H) (timer : Timer) (lag : Nat) : State H :=
  let s := { s with
    timerIdSet_ := Insert.insert timer.id_ s.timerIdSet_, added := s.added ++ [timer] }
  let r := s.insert timer
  if r.1 then r.2.resetTimerfd timer.when_ lag else r.2

def invalidateTimer (s : State H) (id : Nat) : State H :=
  { s with
    timerIdSet_ := s.timerIdSet_.erase id
    cancelled := if id ∈ s.added.map (·.id_) then Insert.insert id s.cancelled else s.cancelled }

def getExpired (s : State H) (now : Int) : List Timer × H.Q :=
  H.takeWhileLe now s.heap.card s.timers_

/-- `handleRead` up to its loop. -/
def handleRead (s : State H) : State H :=
  let now := s.clock
  let s := s.readTimerfd
  let r := s.getExpired now
  { s with timers_ := r.2, callingExpiredTimers_ := true, batch := some ⟨now, [], r.1, false⟩ }

/-- One iteration of the loop, up to the call of `run`. -/
def next (s : State H) (b : Batch) (t : Timer) (todo : List Timer) : State H :=
  if t.id_ ∈ s.timerIdSet_ then
    { s with
      batch := some { b with passed := b.passed ++ [t], todo := todo, running := true }
      started := s.started ++ [t.id_] }
  else { s with batch := some { b with passed := b.passed ++ [t], todo := todo } }

def resetOne (now : Int) (s : State H) (timer : Timer) : State H :=
  if timer.id_ ∈ s.timerIdSet_ then
    if timer.repeat_ then (s.insert (timer.restart now s.clock)).2
    else { s with timerIdSet_ := s.timerIdSet_.erase timer.id_ }
  else s

def rearm (s : State H) (lag : Nat) : State H :=
  match H.top? s.timers_ with
  | none => s
  | some top => s.resetTimerfd top.when_ lag

/-- `reset(expired, now)`. -/
def resetExpired (s : State H) (expired : List Timer) (now : Int) (lag : Nat) : State H :=
  (expired.foldl (resetOne now) s).rearm lag

/-- `handleRead` behind its loop. -/
def finish (s : State H) (b : Batch) (lag : Nat) : State H :=
  { { s with callingExpiredTimers_ := false }.resetExpired b.passed b.now lag with batch := none }

/-- `reset()`: a new timerfd, armed for the earliest timer. -/
def reset (s : State H) (lag : Nat) : State H := { s with timerfd_ := none }.rearm lag

/-- Code outside the queue is running on the loop thread: no `handleRead`, or a
callback of one. -/
def open_ (s : State H) : Bool :=
  match s.batch with
  | none => true
  | some b => b.running

end State

inductive Label
  | addTimerInLoop (timer : Timer) (lag : Nat)
  | invalidateTimer (id : Nat)
  | handleRead
  | next
  | callbackReturns
  | finish (lag : Nat)
  | reset (lag : Nat)
  | tick (d : Nat)

/-- A timer is added once, by the call that constructed it; `EventLoopTimers` has the ids
from `timersCreated_` and shows that they meet the test. -/
def step (s : State H) : Label → Option (State H)
  | .addTimerInLoop timer lag =>
    if s.open_ ∧ timer.id_ ∉ s.added.map (·.id_) then some (s.addTimerInLoop timer lag) else none
  | .invalidateTimer id => if s.open_ then some (s.invalidateTimer id) else none
  | .handleRead => if s.batch = none then some s.handleRead else none
  | .next =>
    match s.batch with
    | some ⟨now, passed, t :: todo, false⟩ =>
      some (s.next ⟨now, passed, t :: todo, false⟩ t todo)
    | _ => none
  | .callbackReturns =>
    match s.batch with
    | some ⟨now, passed, todo, true⟩ => some { s with batch := some ⟨now, passed, todo, false⟩ }
    | _ => none
  | .finish lag =>
    match s.batch with
    | some ⟨now, passed, [], false⟩ => some (s.finish ⟨now, passed, [], false⟩ lag)
    | _ => none
  | .reset lag => if s.batch = none then some (s.reset lag) else none
  | .tick d => some { s with clock := s.clock + d }

inductive Transition (s : State H) : Label → State H → Prop
  | addTimerInLoop (timer : Timer) (lag : Nat) : s.open_ → timer.id_ ∉ s.added.map (·.id_) →
      Transition s (.addTimerInLoop timer lag) (s.addTimerInLoop timer lag)
  | invalidateTimer (id : Nat) : s.open_ → Transition s (.invalidateTimer id) (s.invalidateTimer id)
  | handleRead : s.batch = none → Transition s .handleRead s.handleRead
  | next (now : Int) (passed : List Timer) (t : Timer) (todo : List Timer) :
      s.batch = some ⟨now, passed, t :: todo, false⟩ →
      Transition s .next (s.next ⟨now, passed, t :: todo, false⟩ t todo)
  | callbackReturns (now : Int) (passed todo : List Timer) :
      s.batch = some ⟨now, passed, todo, true⟩ →
      Transition s .callbackReturns { s with batch := some ⟨now, passed, todo, false⟩ }
  | finish (now : Int) (passed : List Timer) (lag : Nat) :
      s.batch = some ⟨now, passed, [], false⟩ →
      Transition s (.finish lag) (s.finish ⟨now, passed, [], false⟩ lag)
  | reset (lag : Nat) : s.batch = none → Transition s (.reset lag) (s.reset lag)
  | tick (d : Nat) : Transition s (.tick d) { s with clock := s.clock + d }

theorem step_transition {s t : State H} {i : Label} (hst : step s i = some t) :
    Transition s i t := by
  cases i with
  | addTimerInLoop timer lag =>
    obtain ⟨⟨hopen, hfresh⟩, heq⟩ := Option.ite_none_right_eq_some.mp hst
    exact Option.some.inj heq ▸ .addTimerInLoop timer lag hopen hfresh
  | invalidateTimer id =>
    obtain ⟨hopen, heq⟩ := Option.ite_none_right_eq_some.mp hst
    exact Option.some.inj heq ▸ .invalidateTimer id hopen
  | handleRead =>
    obtain ⟨hb, heq⟩ := Option.ite_none_right_eq_some.mp hst
    exact Option.some.inj heq ▸ .handleRead hb
  | next =>
    simp only [step] at hst
    split at hst
    · next now passed t todo hb => exact Option.some.inj hst ▸ .next now passed t todo hb
    · cases hst
  | callbackReturns =>
    simp only [step] at hst
    split at hst
    · next now passed todo hb => exact Option.some.inj hst ▸ .callbackReturns now passed todo hb
    · cases hst
  | finish lag =>
    simp only [step] at hst
    split at hst
    · next now passed hb => exact Option.some.inj hst ▸ .finish now passed lag hb
    · cases hst
  | reset lag =>
    obtain ⟨hb, heq⟩ := Option.ite_none_right_eq_some.mp hst
    exact Option.some.inj heq ▸ .reset lag hb
  | tick d => exact Option.some.inj hst ▸ .tick d

def system (H : Library.MinQueue.{0, 0, u} Timer.when_) :
    Library.System (State H) Label where
  init s := ∃ clock, s = init clock
  step := step

end MysqlConnectPool.TimerQueue
