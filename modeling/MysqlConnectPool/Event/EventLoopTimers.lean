import MysqlConnectPool.Time.TimerQueueInv

/-! `runAt`, `runAfter`, `runEvery` and `invalidateTimer` called from any thread, before
and while the loop runs. -/

universe u w

namespace MysqlConnectPool.EventLoopTimers

open TimerQueue (Timer)

inductive Func
  | addTimerInLoop (timer : Timer)
  | erase (id : Nat)
  deriving DecidableEq

def Func.adds : Func → Option Nat
  | .addTimerInLoop timer => some timer.id_
  | .erase _ => none

/-- Where a thread stands inside `invalidateTimer`: before each load of `isRunning`,
and behind them. -/
inductive Cancel
  | testLooping (id : Nat)
  | testQuit (id : Nat)
  | passed (id : Nat)

def Cancel.id : Cancel → Nat
  | .testLooping id | .testQuit id | .passed id => id

inductive Phase
  | outside
  | starting
  | running
  deriving DecidableEq

/-- `funcs_` is in exchange order.  `adding p` is a timer that thread `p` has constructed
in `addTimer` and not handed over.  `returned` and `called` are history: the ids given to
callers, and the calls of `invalidateTimer` that have taken effect, each with the number
of starts its timer had then.  A call that does nothing takes effect when it returns. -/
structure State (ι : Type w) (H : Library.MinQueue.{0, 0, u} Timer.when_) where
  looping_ : Bool
  quit_ : Bool
  threadId_ : ι
  phase : Phase
  funcs_ : List Func
  timersCreated_ : Nat
  timerQueue_ : TimerQueue.State H
  adding : ι → Option Timer
  cancelling : ι → Option Cancel
  returned : List Nat
  called : List (Nat × Nat)

variable {ι : Type w} {H : Library.MinQueue.{0, 0, u} Timer.when_} [DecidableEq ι]

def init (threadId_ : ι) (clock : Int) : State ι H where
  looping_ := false
  quit_ := false
  threadId_ := threadId_
  phase := .outside
  funcs_ := []
  timersCreated_ := 0
  timerQueue_ := TimerQueue.init clock
  adding := fun _ => none
  cancelling := fun _ => none
  returned := []
  called := []

namespace State

def isInLoopThread (s : State ι H) (p : ι) : Bool := s.threadId_ = p

def free (s : State ι H) (p : ι) : Bool := (s.adding p).isNone && (s.cancelling p).isNone

def mayCall (s : State ι H) (p : ι) : Bool :=
  s.free p && (!s.isInLoopThread p || s.timerQueue_.open_)

def construct (s : State ι H) (p : ι) (when interval : Int) : State ι H :=
  { s with
    timersCreated_ := s.timersCreated_ + 1
    adding := Function.update s.adding p (some (.create (s.timersCreated_ + 1) when interval)) }

def addTimer (s : State ι H) (p : ι) (timer : Timer) (lag : Nat) : State ι H :=
  let s := { s with
    adding := Function.update s.adding p none, returned := s.returned ++ [timer.id_] }
  if s.isInLoopThread p then
    { s with timerQueue_ := s.timerQueue_.addTimerInLoop timer lag }
  else { s with funcs_ := s.funcs_ ++ [.addTimerInLoop timer] }

def effect (s : State ι H) (id : Nat) : State ι H :=
  { s with called := s.called ++ [(id, s.timerQueue_.started.count id)] }

def setCancel (s : State ι H) (p : ι) (c : Option Cancel) : State ι H :=
  { s with cancelling := Function.update s.cancelling p c }

def testLooping (s : State ι H) (p : ι) (id : Nat) : State ι H :=
  if s.looping_ then s.setCancel p (some (.testQuit id)) else (s.setCancel p none).effect id

def testQuit (s : State ι H) (p : ι) (id : Nat) : State ι H :=
  if s.quit_ then (s.setCancel p none).effect id else s.setCancel p (some (.passed id))

def invalidateTimer (s : State ι H) (p : ι) (id : Nat) : State ι H :=
  let s := s.setCancel p none
  if s.isInLoopThread p then
    { s with timerQueue_ := s.timerQueue_.invalidateTimer id }.effect id
  else { s with funcs_ := s.funcs_ ++ [.erase id] }

def runFunc (s : State ι H) (f : Func) (rest : List Func) (lag : Nat) : State ι H :=
  let s := { s with funcs_ := rest }
  match f with
  | .addTimerInLoop timer => { s with timerQueue_ := s.timerQueue_.addTimerInLoop timer lag }
  | .erase id => { s with timerQueue_ := s.timerQueue_.invalidateTimer id }.effect id

end State

inductive Label (ι : Type w)
  | construct (p : ι) (when interval : Int)
  | addTimer (p : ι) (lag : Nat)
  | invalidateTimer (p : ι) (id : Nat)
  | cancelStep (p : ι)
  | quit (p : ι)
  | loop
  | runFunc (lag : Nat)
  | timer (i : TimerQueue.Label)
  | moveToCurrentThread (p : ι)

def loopMakes (s : State ι H) : TimerQueue.Label → Bool
  | .handleRead | .next | .callbackReturns | .finish _ => s.phase = .running
  | .reset _ => s.phase = .outside
  | .tick _ => true
  | .addTimerInLoop _ _ | .invalidateTimer _ => false

def step (s : State ι H) : Label ι → Option (State ι H)
  | .construct p when interval =>
    if s.mayCall p then some (s.construct p when interval) else none
  | .addTimer p lag => (s.adding p).map fun timer => s.addTimer p timer lag
  | .invalidateTimer p id =>
    if s.mayCall p ∧ id ∈ s.returned then some (s.setCancel p (some (.testLooping id))) else none
  | .cancelStep p => (s.cancelling p).map fun
    | .testLooping id => s.testLooping p id
    | .testQuit id => s.testQuit p id
    | .passed id => s.invalidateTimer p id
  | .quit p => if s.mayCall p then some { s with quit_ := true } else none
  | .loop =>
    if s.free s.threadId_ ∧ s.timerQueue_.batch = none then
      match s.phase with
      | .outside => some { s with looping_ := true, phase := .starting }
      | .starting => some { s with quit_ := false, phase := .running }
      | .running =>
        if s.quit_ then some { s with looping_ := false, phase := .outside } else none
    else none
  | .runFunc lag =>
    if s.free s.threadId_ ∧ s.timerQueue_.batch = none ∧ s.phase = .running then
      match s.funcs_ with
      | f :: rest => some (s.runFunc f rest lag)
      | [] => none
    else none
  | .timer i =>
    if s.free s.threadId_ ∧ loopMakes s i then
      (TimerQueue.step s.timerQueue_ i).map fun q => { s with timerQueue_ := q }
    else none
  | .moveToCurrentThread p =>
    if s.free s.threadId_ ∧ s.free p ∧ s.phase = .outside ∧ s.timerQueue_.batch = none then
      some { s with threadId_ := p }
    else none

inductive Does (s : State ι H) : Label ι → State ι H → Prop
  | construct (p : ι) (when interval : Int) : s.mayCall p →
      Does s (.construct p when interval) (s.construct p when interval)
  | addTimer (p : ι) (lag : Nat) (timer : Timer) : s.adding p = some timer →
      Does s (.addTimer p lag) (s.addTimer p timer lag)
  | invalidateTimer (p : ι) (id : Nat) : s.mayCall p → id ∈ s.returned →
      Does s (.invalidateTimer p id) (s.setCancel p (some (.testLooping id)))
  | testLooping (p : ι) (id : Nat) : s.cancelling p = some (.testLooping id) →
      Does s (.cancelStep p) (s.testLooping p id)
  | testQuit (p : ι) (id : Nat) : s.cancelling p = some (.testQuit id) →
      Does s (.cancelStep p) (s.testQuit p id)
  | passed (p : ι) (id : Nat) : s.cancelling p = some (.passed id) →
      Does s (.cancelStep p) (s.invalidateTimer p id)
  | quit (p : ι) : s.mayCall p → Does s (.quit p) { s with quit_ := true }
  | loopBegins : s.free s.threadId_ → s.timerQueue_.batch = none → s.phase = .outside →
      Does s .loop { s with looping_ := true, phase := .starting }
  | loopResets : s.free s.threadId_ → s.timerQueue_.batch = none → s.phase = .starting →
      Does s .loop { s with quit_ := false, phase := .running }
  | loopEnds : s.free s.threadId_ → s.timerQueue_.batch = none → s.phase = .running → s.quit_ →
      Does s .loop { s with looping_ := false, phase := .outside }
  | runFunc (lag : Nat) (f : Func) (rest : List Func) : s.free s.threadId_ →
      s.timerQueue_.batch = none → s.phase = .running → s.funcs_ = f :: rest →
      Does s (.runFunc lag) (s.runFunc f rest lag)
  | timer (i : TimerQueue.Label) (q : TimerQueue.State H) : s.free s.threadId_ → loopMakes s i →
      TimerQueue.step s.timerQueue_ i = some q → Does s (.timer i) { s with timerQueue_ := q }
  | moveToCurrentThread (p : ι) : s.free s.threadId_ → s.free p → s.phase = .outside →
      s.timerQueue_.batch = none → Does s (.moveToCurrentThread p) { s with threadId_ := p }

theorem step_does {s t : State ι H} {i : Label ι} (hst : step s i = some t) : Does s i t := by
  cases i with
  | construct p when interval =>
    obtain ⟨hmay, heq⟩ := Option.ite_none_right_eq_some.mp hst
    exact Option.some.inj heq ▸ .construct p when interval hmay
  | addTimer p lag =>
    obtain ⟨timer, hp, rfl⟩ := Option.map_eq_some_iff.mp hst
    exact .addTimer p lag timer hp
  | invalidateTimer p id =>
    obtain ⟨⟨hmay, hret⟩, heq⟩ := Option.ite_none_right_eq_some.mp hst
    exact Option.some.inj heq ▸ .invalidateTimer p id hmay hret
  | cancelStep p =>
    obtain ⟨c, hc, rfl⟩ := Option.map_eq_some_iff.mp hst
    cases c with
    | testLooping id => exact .testLooping p id hc
    | testQuit id => exact .testQuit p id hc
    | passed id => exact .passed p id hc
  | quit p =>
    obtain ⟨hmay, heq⟩ := Option.ite_none_right_eq_some.mp hst
    exact Option.some.inj heq ▸ .quit p hmay
  | loop =>
    obtain ⟨⟨hfree, hbatch⟩, hst⟩ := Option.ite_none_right_eq_some.mp hst
    split at hst
    next hphase => exact Option.some.inj hst ▸ .loopBegins hfree hbatch hphase
    next hphase => exact Option.some.inj hst ▸ .loopResets hfree hbatch hphase
    next hphase =>
      obtain ⟨hquit, heq⟩ := Option.ite_none_right_eq_some.mp hst
      exact Option.some.inj heq ▸ .loopEnds hfree hbatch hphase hquit
  | runFunc lag =>
    obtain ⟨⟨hfree, hbatch, hphase⟩, hst⟩ := Option.ite_none_right_eq_some.mp hst
    split at hst
    next f rest hf => exact Option.some.inj hst ▸ .runFunc lag f rest hfree hbatch hphase hf
    next => cases hst
  | timer i =>
    obtain ⟨⟨hfree, hmakes⟩, hst⟩ := Option.ite_none_right_eq_some.mp hst
    obtain ⟨q, hq, rfl⟩ := Option.map_eq_some_iff.mp hst
    exact .timer i q hfree hmakes hq
  | moveToCurrentThread p =>
    obtain ⟨⟨hfree, hp, hphase, hbatch⟩, heq⟩ := Option.ite_none_right_eq_some.mp hst
    exact Option.some.inj heq ▸ .moveToCurrentThread p hfree hp hphase hbatch

def system (ι : Type w) (H : Library.MinQueue.{0, 0, u} Timer.when_) [DecidableEq ι] :
    Library.System (State ι H) (Label ι) where
  init s := ∃ threadId_ clock, s = init threadId_ clock
  step := step

def State.added (s : State ι H) (id : Nat) : Bool := s.funcs_.all (·.adds != some id)

/-- The timer `id` can start no more: it is not in the set and nothing will put it there. -/
def State.dead (s : State ι H) (id : Nat) : Bool :=
  decide (id ∉ s.timerQueue_.timerIdSet_) && s.added id

/-- A call of `invalidateTimer` finds the loop running, or the timer dead; and on the
loop thread it finds the timer added. -/
def timelyCancel (s : State ι H) : Label ι → Bool
  | .cancelStep p =>
    match s.cancelling p with
    | some (.testLooping id) => s.looping_ || s.dead id
    | some (.testQuit id) => !s.quit_ || s.dead id
    | some (.passed id) => !s.isInLoopThread p || s.added id
    | none => true
  | _ => true

end MysqlConnectPool.EventLoopTimers
