import MysqlConnectPool.Utils.MPSCQueue

/-! The atomic steps of `queueInLoop` and `quit` in any thread and of `loop` in the
loop's own thread.  Functors do not throw and `threadId_` is fixed. -/

universe u v w

namespace MysqlConnectPool.EventLoop

inductive Caller
  | idle
  | exchanged
  | linked
  | quitStored
  | waking
  deriving DecidableEq

/-- Where the loop thread stands in `loop`; `handling true` while the dispatcher of
`wakeupFd_` is among the active ones and has not been called yet. -/
inductive Phase
  | outside
  | starting
  | condition
  | polling
  | handling (wakeupActive : Bool)
  | draining
  | dequeuing
  | calling
  | destroying
  | leaving
  deriving DecidableEq

/-- The phases in which code of the user runs on the loop thread.  Inside `dequeue`
it is the destructor of the functor that is overwritten. -/
def Phase.runsUserCode : Phase → Bool
  | .outside | .handling _ | .dequeuing | .calling | .destroying => true
  | _ => false

structure State (ι : Type w) (Addr : Type u) (Func : Type v) where
  funcs_ : MPSCQueue.State ι Addr Func
  looping_ : Bool
  quit_ : Bool
  wakeupFd_ : Nat
  caller : ι → Caller
  phase : Phase

variable {ι : Type w} {Addr : Type u} {Func : Type v} [DecidableEq ι] [DecidableEq Addr]

def init (front : Addr) : State ι Addr Func where
  funcs_ := MPSCQueue.init front
  looping_ := false
  quit_ := false
  wakeupFd_ := 0
  caller := fun _ => .idle
  phase := .outside

inductive Label (ι : Type w) (Addr : Type u) (Func : Type v)
  | queueInLoop : (p : ι) → (newNode : Addr) → (cb : Func) → Label ι Addr Func
  | link : (p : ι) → Label ι Addr Func
  | testLooping : (p : ι) → Label ι Addr Func
  | quit : (p : ι) → Label ι Addr Func
  | testThread : (p : ι) → Label ι Addr Func
  | wakeup : (p : ι) → Label ι Addr Func
  | loop : Label ι Addr Func
  | pollReturns : (wakeupActive : Bool) → Label ι Addr Func
  | wakeupRead : Label ι Addr Func
  | userReturns : Label ι Addr Func

namespace State

variable (threadId_ : ι)

def setCaller (s : State ι Addr Func) (p : ι) (c : Caller) : State ι Addr Func :=
  { s with caller := Function.update s.caller p c }

def mayCall (s : State ι Addr Func) (p : ι) : Bool :=
  s.caller p = .idle ∧ (p = threadId_ → s.phase.runsUserCode)

def loopStep (s : State ι Addr Func) : Option (State ι Addr Func) :=
  match s.phase with
  | .outside => some { s with looping_ := true, phase := .starting }
  | .starting => some { s with quit_ := false, phase := .condition }
  | .condition => some { s with phase := if s.quit_ then .leaving else .polling }
  | .draining => some { s with phase := if s.funcs_.empty then .condition else .dequeuing }
  | .dequeuing =>
    match s.funcs_.consumer with
    | .idle =>
      if s.funcs_.empty then some { s with phase := .destroying }
      else some { s with funcs_ := s.funcs_.dequeueStep }
    | .advanced _ _ => some { s with funcs_ := s.funcs_.dequeueStep, phase := .calling }
    | _ => some { s with funcs_ := s.funcs_.dequeueStep }
  | .leaving => some { s with looping_ := false, phase := .outside }
  | _ => none

end State

/-- `queueInLoop` is the exchange, the store, the test and the write; `quit` is the
store of `quit_`, the test and the write. -/
def step (threadId_ : ι) (s : State ι Addr Func) : Label ι Addr Func → Option (State ι Addr Func)
  | .queueInLoop p newNode cb =>
    if s.mayCall threadId_ p then
      (MPSCQueue.step s.funcs_ (.exchange p newNode cb)).map fun q =>
        { s.setCaller p .exchanged with funcs_ := q }
    else none
  | .link p =>
    if s.caller p = .exchanged then
      (MPSCQueue.step s.funcs_ (.link p)).map fun q => { s.setCaller p .linked with funcs_ := q }
    else none
  | .testLooping p =>
    if s.caller p = .linked then
      some (s.setCaller p (if p ≠ threadId_ ∨ s.looping_ = false then .waking else .idle))
    else none
  | .quit p =>
    if s.mayCall threadId_ p then some { s.setCaller p .quitStored with quit_ := true } else none
  | .testThread p =>
    if s.caller p = .quitStored then
      some (s.setCaller p (if p ≠ threadId_ then .waking else .idle))
    else none
  | .wakeup p =>
    if s.caller p = .waking then some { s.setCaller p .idle with wakeupFd_ := s.wakeupFd_ + 1 }
    else none
  | .loop => if s.caller threadId_ = .idle then s.loopStep else none
  | .pollReturns wakeupActive =>
    -- `epoll_wait` reports the eventfd only while its counter is not zero
    if s.phase = .polling ∧ (wakeupActive → 0 < s.wakeupFd_) then
      some { s with phase := .handling wakeupActive }
    else none
  | .wakeupRead =>
    if s.phase = .handling true ∧ s.caller threadId_ = .idle then
      some { s with wakeupFd_ := 0, phase := .handling false }
    else none
  | .userReturns =>
    if s.caller threadId_ = .idle then
      match s.phase with
      | .handling false => some { s with phase := .draining }
      | .calling => some { s with phase := .dequeuing }
      | .destroying => some { s with phase := .draining }
      | _ => none
    else none

def system (ι : Type w) (Addr : Type u) (Func : Type v) [DecidableEq ι] [DecidableEq Addr]
    (threadId_ : ι) : Library.System (State ι Addr Func) (Label ι Addr Func) where
  init s := ∃ front, s = init front
  step := step threadId_

end MysqlConnectPool.EventLoop
