import MysqlConnectPool.Event.LoopTurns

/-! A loop in a thread of its own.  The constructor, `run`, `wait` and the destructor run in other
threads and `loopFuncs` in the new one; they meet in three promises.  The new thread uses
the loop from its functors and handlers, others while they may have its pointer. -/

universe u v w

namespace MysqlConnectPool.EventLoopThread

open Library

inductive Functor (Func : Type v)
  | setPromiseForLoop
  | user (f : Func)

structure Promise where
  isSet : Bool
  retrieved : Bool

inductive Once (ι : Type w)
  | idle
  | running (p : ι)
  | done

inductive LoopFuncs
  | starting
  | queueing
  | takingFuture
  | waiting
  | looping
  | returned
  deriving DecidableEq

/-- Where another thread stands in a member function: the constructor, `run`, with `true` where
the destructor has called it, the rest of the destructor, or a `join`. -/
inductive Member
  | idle
  | constructing
  | onceFlag (inDestructor : Bool)
  | takingFuture (inDestructor : Bool)
  | settingRun (inDestructor : Bool)
  | awaitingLoop (inDestructor : Bool)
  | locking
  | quitting
  | joining (inDestructor : Bool)
  deriving DecidableEq

/-- `loop_` and `joinable` tell whether the pointer is set and the thread can be joined, `alive`
whether the constructor has returned and the destructor has not been called, and `inside` counts
the calls of `run` and `wait` in progress.  `futureError` is set where a promise throws.
History: `ran` marks the threads in which `run` has returned, `quitStored` is set when the
destructor has called `quit`. -/
structure State (ι : Type w) (Addr : Type u) (Func : Type v) where
  loop : EventLoop.State ι Addr (Functor Func)
  loop_ : Bool
  promiseForLoopPointer_ : Promise
  promiseForRun_ : Promise
  promiseForLoop_ : Promise
  once_ : Once ι
  joinable : Bool
  loopFuncs : LoopFuncs
  member : ι → Member
  alive : Bool
  inside : Nat
  futureError : Bool
  ran : ι → Bool
  quitStored : Bool

variable {ι : Type w} {Addr : Type u} {Func : Type v} [DecidableEq ι] [DecidableEq Addr]

def init (front : Addr) (creator : ι) : State ι Addr Func where
  loop := EventLoop.init front
  loop_ := false
  promiseForLoopPointer_ := ⟨false, false⟩
  promiseForRun_ := ⟨false, false⟩
  promiseForLoop_ := ⟨false, false⟩
  once_ := .idle
  joinable := true
  loopFuncs := .starting
  member := Function.update (fun _ => .idle) creator .constructing
  alive := false
  inside := 0
  futureError := false
  ran _ := false
  quitStored := false

/-- Steps of the new thread in `loopFuncs`, steps of the loop and of its callers, and steps of
another thread `p` in the member functions.  `constructed`, `runReturns` and `join` end a wait. -/
inductive Label (ι : Type w) (Addr : Type u) (Func : Type v)
  | queueFirst (newNode : Addr)
  | setLoopPointer
  | getRunFuture
  | enterLoop
  | clearLoop
  | act (l : EventLoop.Label ι Addr (Functor Func))
  | constructed (p : ι)
  | run (p : ι)
  | callOnce (p : ι)
  | getLoopFuture (p : ι)
  | setRun (p : ι)
  | runReturns (p : ι)
  | destroy (p : ι)
  | lock (p : ι)
  | quit (p : ι)
  | wait (p : ι)
  | join (p : ι)

namespace State

variable (threadId_ : ι)

def setMember (s : State ι Addr Func) (p : ι) (m : Member) : State ι Addr Func :=
  { s with member := Function.update s.member p m }

omit [DecidableEq ι] [DecidableEq Addr] in
def callsPromise (s : State ι Addr Func) : Bool :=
  match s.loop.phase, s.loop.funcs_.dequeued.getLast? with
  | .calling, some .setPromiseForLoop => true
  | _, _ => false

def mayUse (s : State ι Addr Func) (p : ι) : Bool :=
  if p = threadId_ then s.loopFuncs = .looping ∧ s.loop.phase ≠ .outside ∧ s.callsPromise = false
  else s.promiseForLoopPointer_.isSet ∧ s.loopFuncs ≠ .returned ∧ s.member p = .idle

def mayAct (s : State ι Addr Func) : EventLoop.Label ι Addr (Functor Func) → Bool
  | .queueInLoop p _ (.user _) | .quit p => s.mayUse threadId_ p
  | .queueInLoop _ _ .setPromiseForLoop => false
  | .loop => s.loopFuncs = .looping ∧ s.loop.phase ≠ .outside
  | _ => true

def mayEnter (s : State ι Addr Func) (p : ι) : Bool :=
  s.alive ∧ p ≠ threadId_ ∧ s.member p = .idle ∧ s.loop.caller p = .idle

def setLoopPromise (s : State ι Addr Func) : State ι Addr Func :=
  { s with
    promiseForLoop_ := { s.promiseForLoop_ with isSet := true }
    futureError := s.futureError || s.promiseForLoop_.isSet }

def endRun (s : State ι Addr Func) (p : ι) (inDestructor : Bool) : State ι Addr Func :=
  if inDestructor then s.setMember p .locking
  else { s.setMember p .idle with inside := s.inside - 1, ran := Function.update s.ran p true }

end State

def step (threadId_ : ι) (s : State ι Addr Func) : Label ι Addr Func → Option (State ι Addr Func)
  | .queueFirst newNode =>
    if s.loopFuncs = .starting then
      (EventLoop.step threadId_ s.loop (.queueInLoop threadId_ newNode .setPromiseForLoop)).map
        fun loop => { s with loop, loopFuncs := .queueing }
    else none
  | .setLoopPointer =>
    if s.loopFuncs = .queueing ∧ s.loop.caller threadId_ = .idle then
      some { s with
        promiseForLoopPointer_ := { s.promiseForLoopPointer_ with isSet := true }
        futureError := s.futureError || s.promiseForLoopPointer_.isSet
        loopFuncs := .takingFuture }
    else none
  | .getRunFuture =>
    if s.loopFuncs = .takingFuture then
      some { s with
        promiseForRun_ := { s.promiseForRun_ with retrieved := true }
        futureError := s.futureError || s.promiseForRun_.retrieved
        loopFuncs := .waiting }
    else none
  | .enterLoop =>
    if s.loopFuncs = .waiting ∧ s.promiseForRun_.isSet then
      (EventLoop.step threadId_ s.loop .loop).map fun loop => { s with loop, loopFuncs := .looping }
    else none
  | .clearLoop =>
    if s.loopFuncs = .looping ∧ s.loop.phase = .outside then
      some { s with loop_ := false, loopFuncs := .returned }
    else none
  | .act l =>
    if s.mayAct threadId_ l then
      (EventLoop.step threadId_ s.loop l).map fun loop =>
        match l with
        | .userReturns =>
          if s.callsPromise then { s.setLoopPromise with loop } else { s with loop }
        | _ => { s with loop }
    else none
  | .constructed p =>
    if s.member p = .constructing ∧ s.promiseForLoopPointer_.isSet then
      some { s.setMember p .idle with
        promiseForLoopPointer_ := { s.promiseForLoopPointer_ with retrieved := true }
        futureError := s.futureError || s.promiseForLoopPointer_.retrieved
        loop_ := true
        alive := true }
    else none
  | .run p =>
    if s.mayEnter threadId_ p then
      some { s.setMember p (.onceFlag false) with inside := s.inside + 1 }
    else none
  | .callOnce p =>
    match s.member p, s.once_ with
    | .onceFlag d, .idle => some { s.setMember p (.takingFuture d) with once_ := .running p }
    | .onceFlag d, .done => some (s.endRun p d)
    | _, _ => none
  | .getLoopFuture p =>
    match s.member p with
    | .takingFuture d =>
      some { s.setMember p (.settingRun d) with
        promiseForLoop_ := { s.promiseForLoop_ with retrieved := true }
        futureError := s.futureError || s.promiseForLoop_.retrieved }
    | _ => none
  | .setRun p =>
    match s.member p with
    | .settingRun d =>
      some { s.setMember p (.awaitingLoop d) with
        promiseForRun_ := { s.promiseForRun_ with isSet := true }
        futureError := s.futureError || s.promiseForRun_.isSet }
    | _ => none
  | .runReturns p =>
    match s.member p with
    | .awaitingLoop d =>
      if s.promiseForLoop_.isSet then some { s.endRun p d with once_ := .done } else none
    | _ => none
  | .destroy p =>
    if s.mayEnter threadId_ p ∧ s.inside = 0 then
      some { s.setMember p (.onceFlag true) with alive := false }
    else none
  | .lock p =>
    if s.member p = .locking then
      some (s.setMember p (if s.loop_ then .quitting else .joining true))
    else none
  | .quit p =>
    if s.member p = .quitting then
      (EventLoop.step threadId_ s.loop (.quit p)).map fun loop =>
        { s.setMember p (.joining true) with loop, quitStored := true }
    else none
  | .wait p =>
    if s.mayEnter threadId_ p ∧ s.joinable then
      some { s.setMember p (.joining false) with joinable := false, inside := s.inside + 1 }
    else none
  | .join p =>
    match s.member p with
    | .joining inDestructor =>
      if s.loop.caller p = .idle ∧ (s.loopFuncs = .returned ∨ inDestructor ∧ s.joinable = false) then
        if inDestructor then some { s.setMember p .idle with joinable := false }
        else some { s.setMember p .idle with inside := s.inside - 1 }
      else none
    | _ => none

def system (ι : Type w) (Addr : Type u) (Func : Type v) [DecidableEq ι] [DecidableEq Addr]
    (threadId_ : ι) : System (State ι Addr Func) (Label ι Addr Func) where
  init s := ∃ front creator, creator ≠ threadId_ ∧ s = init front creator
  step := step threadId_

end MysqlConnectPool.EventLoopThread
