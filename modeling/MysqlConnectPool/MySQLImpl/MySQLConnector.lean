import MysqlConnectPool.Library.Handler
import MysqlConnectPool.Library.System
import MysqlConnectPool.MySQLImpl.Placeholder

/-! The connector on its loop thread: every function that the loop, a timer or a user
calls, with the answers of the MariaDB client and the turns of user code as inputs.  The
callbacks that a user sets are all set. -/

namespace MysqlConnectPool.MySQLConnector

open Library

inductive ConnectStatus
  | None
  | Connecting
  | SettingCharacterSet
  | Ok
  | Bad
  deriving DecidableEq

inductive ExecStatus
  | None
  | RealQuery
  | StoreResult
  | NextResult
  deriving DecidableEq

abbrev Wait := BitVec 32

def MYSQL_WAIT_READ : Wait := 1
def MYSQL_WAIT_WRITE : Wait := 2
def MYSQL_WAIT_EXCEPT : Wait := 4
def MYSQL_WAIT_TIMEOUT : Wait := 8

def Wait.has (w bit : Wait) : Bool := w &&& bit ≠ 0

abbrev CR_SERVER_GONE_ERROR : Int := 2006
abbrev CR_SERVER_LOST : Int := 2013

/-- The interest in `events_`; the two read bits are set and cleared together. -/
structure EventDispatcher where
  isReading : Bool
  isWriting : Bool
  deriving DecidableEq

def EventDispatcher.isNoneEvent (d : EventDispatcher) : Bool := !d.isReading && !d.isWriting

inductive Func
  | outputError (k : Nat)
  | getResult (k : Nat) (ret : Option Nat)
  deriving DecidableEq

def Func.statement : Func → Nat
  | .outputError k | .getResult k _ => k

structure Statement where
  sql : List UInt8
  paraNum : Nat
  vectors : ParameterVectors

inductive Action
  | execSqlInLoop (statement : Statement)
  | disconnect

inductive Callback
  | callback_
  | exceptionCallback_
  | idleCb_
  | okCallback_
  | closeCallback_
  deriving DecidableEq

/-- History: statements by the order of their acceptance.  `idleCb_` is called behind
`finished k`, when `isWorking_` has been cleared, and behind `idle k`, which follows the
exception of `k`.  `status` is a write to `status_`, and `stored` tells whether the call that
started the store has finished it. -/
inductive Event
  | status (status_ : ConnectStatus)
  | accepted (k : Nat) (sql_ : List UInt8)
  | stored (k : Nat) (ret : Option Nat) (atOnce : Bool)
  | reported (k : Nat)
  | applied (k : Nat) (target : Option Nat)
  | callback (k : Nat) (ret : Option Nat)
  | exception (k : Nat) (message sql_ : List UInt8)
  | finished (k : Nat)
  | idle (k : Nat)
  | ok
  | close
  deriving DecidableEq

inductive Stop
  | fatal
  | assertion
  | nullHandle
  | nullDispatcher
  | emptyFunction
  deriving DecidableEq

/-- `mysqlPtr_` is false after the reset.  `timers` holds for each pending timer the value
of `waits` when it was set; `waits` counts the returns of start and continue calls, `timed`
the values of `waits` for which a timer has been set, `asks` holds the waits that the calls of
the handshake returned and those with which a statement was started, `accepted` counts the
accepted statements.  `inFunc` is set while a queued function runs. -/
structure State where
  status_ : ConnectStatus
  execStatus_ : ExecStatus
  waitStatus_ : Wait
  isWorking_ : Bool
  callback_ : Option Nat
  exceptionCallback_ : Option Nat
  sql_ : List UInt8
  eventDispatcherPtr_ : Option EventDispatcher
  mysqlPtr_ : Bool
  funcs_ : List Func
  timers : List Nat
  waits : Nat
  timed : List Nat
  asks : List Wait
  accepted : Nat
  inFunc : Bool
  trace : List Event
  stopped : Option Stop
  deriving DecidableEq

def init₀ : State where
  status_ := .None
  execStatus_ := .None
  waitStatus_ := 0
  isWorking_ := false
  callback_ := none
  exceptionCallback_ := none
  sql_ := []
  eventDispatcherPtr_ := none
  mysqlPtr_ := true
  funcs_ := []
  timers := []
  waits := 0
  timed := []
  asks := []
  accepted := 0
  inFunc := false
  trace := []
  stopped := none

def State.log (e : Event) (s : State) : State := { s with trace := s.trace ++ [e] }

def State.setStatus (status_ : ConnectStatus) (s : State) : State :=
  { s.log (.status status_) with status_ }

def State.noted (s : State) : State := { s with asks := s.asks ++ [s.waitStatus_] }

def State.logWorking (e : Nat → Event) (s : State) : State :=
  { s with trace := if s.isWorking_ then s.trace ++ [e s.accepted] else s.trace }

inductive Site
  | init
  | handleTimeout
  | handleCmd
  | handleEvent
  | continueSetCharacterSet
  | startSetCharacterSet
  | outputError
  | startQuery
  | startStoreResult (queueInLoop : Bool)
  | getResult
  deriving DecidableEq

inductive Call
  | mysql_real_connect_start
  | mysql_real_connect_cont (status : Wait)
  | mysql_set_character_set_start
  | mysql_set_character_set_cont (status : Wait)
  | mysql_real_query_start (sql_ : List UInt8)
  | mysql_real_query_cont (status : Wait)
  | mysql_store_result_start
  | mysql_store_result_cont (status : Wait)
  | mysql_next_result_start
  | mysql_next_result_cont (status : Wait)
  | mysql_errno
  | mysql_error
  | mysql_get_socket
  | mysql_more_results
  deriving DecidableEq

/-- The answer to a call: the wait that a start or continue call returns, the pointer or
the number in its out parameter, the number or the text that another call returns. -/
structure Reply where
  wait : Wait := 0
  ret : Option Nat := none
  number : Int := 0
  text : List UInt8 := []
  deriving DecidableEq

def Reply.gone (r : Reply) : Bool :=
  r.number = CR_SERVER_GONE_ERROR ∨ r.number = CR_SERVER_LOST

inductive Input
  | reply (r : Reply)
  | turn (actions : List Action)

inductive LoopEvent
  | init
  | fdEvent (pollIn pollOut pollPri : Bool)
  | func
  | timeout (waits : Nat)
  | user (action : Action)

/-- What the environment does in which state; `action` also depends on the callback from which
a user acts, if it is one. -/
structure Environment where
  event : State → LoopEvent → Bool
  action : State → Option Callback → Action → Bool
  turn : State → Callback → Bool
  reply : State → Site → Call → Reply → Bool

def anything : Environment where
  event _ _ := true
  action _ _ _ := true
  turn _ _ := true
  reply _ _ _ _ := true

/-- `fatalReturns` reads `ABSL_LOG(FATAL)` as a log line that returns. -/
structure Config where
  fatalReturns : Bool
  characterSetEmpty : Bool
  mysql_real_escape_string : List UInt8 → List UInt8

abbrev M := Handler State Input

section Functions

variable (cfg : Config) (env : Environment)

open Handler

def halt {α : Type} (why : Stop) : M α := stop fun s => { s with stopped := some why }

def fatal : M Unit := if cfg.fatalReturns then pure () else halt .fatal

def useHandle : M Unit := do
  let s ← state
  if s.mysqlPtr_ then pure () else halt .nullHandle

def mysql (site : Site) (call : Call) : M Reply := do
  useHandle
  ask fun s i =>
    match i with
    | .reply r => if env.reply s site call r then some r else none
    | .turn _ => none

def wait (site : Site) (call : Call) : M Reply := do
  let r ← mysql env site call
  update fun s => { s with waitStatus_ := r.wait, waits := s.waits + 1 }
  pure r

def handshake (site : Site) (call : Call) : M Reply := do
  let r ← wait env site call
  update State.noted
  pure r

def setStatus (status_ : ConnectStatus) : M Unit := update (State.setStatus status_)

def failed (site : Site) (ret : Option Nat) : M Bool :=
  match ret with
  | some _ => pure false
  | none => do
    let errorNo ← mysql env site .mysql_errno
    pure (errorNo.number ≠ 0)

def updateEvents (f : EventDispatcher → EventDispatcher) : M Unit := do
  let s ← state
  match s.eventDispatcherPtr_ with
  | some d => update fun s => { s with eventDispatcherPtr_ := some (f d) }
  | none => halt .nullDispatcher

def enableReading : M Unit := updateEvents fun d => { d with isReading := true }

def enableWriting : M Unit := updateEvents fun d => { d with isWriting := true }

def disableWriting : M Unit := updateEvents fun d => { d with isWriting := false }

def disableAll : M Unit := updateEvents fun _ => ⟨false, false⟩

def setEventDispatcher : M Unit := do
  let s ← state
  let w := s.waitStatus_
  if w.has MYSQL_WAIT_READ || w.has MYSQL_WAIT_EXCEPT then enableReading else pure ()
  if w.has MYSQL_WAIT_WRITE then enableWriting else disableWriting
  if w.has MYSQL_WAIT_TIMEOUT then do
    useHandle
    update fun s => { s with timers := s.waits :: s.timers, timed := s.waits :: s.timed }
  else pure ()

def queueInLoop (f : Func) : M Unit := update fun s => { s with funcs_ := s.funcs_ ++ [f] }

def report : M Unit := update fun s => s.logWorking .reported

def setExecStatus (e : ExecStatus) : M Unit := update fun s => { s with execStatus_ := e }

/-- `direct` runs a completion at once. -/
def startStoreResult (direct : Func → M Unit) (queue : Bool) : M Unit := do
  setExecStatus .StoreResult
  let r ← wait env (.startStoreResult queue) .mysql_store_result_start
  if r.wait = 0 then do
    setExecStatus .None
    let isError ← failed env (.startStoreResult queue) r.ret
    let s ← state
    if isError then do
      report
      if queue then queueInLoop (.outputError s.accepted) else direct (.outputError s.accepted)
    else do
      update fun s => s.logWorking fun k => .stored k r.ret true
      if queue then queueInLoop (.getResult s.accepted r.ret)
      else direct (.getResult s.accepted r.ret)
  else pure ()

def startQuery : M Unit := do
  let s ← state
  let r ← wait env .startQuery (.mysql_real_query_start s.sql_)
  setExecStatus .RealQuery
  if r.wait = 0 then
    if r.number ≠ 0 then do
      report
      fatal cfg
      queueInLoop (.outputError s.accepted)
    -- with `true` every completion is queued
    else startStoreResult env (fun _ => stuck) true
  else pure ()

def execSqlInLoop (statement : Statement) : M Unit := do
  let s ← state
  if s.isWorking_ then halt .assertion
  else
    match preparedSql cfg.mysql_real_escape_string statement.sql statement.paraNum
        statement.vectors with
    | none => halt .assertion
    | some sql_ => do
      let k := s.accepted + 1
      update fun s =>
        { s.log (.accepted k sql_) with
          callback_ := some k, isWorking_ := true, exceptionCallback_ := some k, sql_ := sql_,
          accepted := k }
      startQuery cfg env
      update State.noted
      setEventDispatcher

def disconnect : M Unit := do
  setStatus .Bad
  disableAll
  update fun s => { s with mysqlPtr_ := false }

def perform (origin : Option Callback) (a : Action) : M Unit := do
  guard fun s => env.action s origin a
  match a with
  | .execSqlInLoop statement => execSqlInLoop cfg env statement
  | .disconnect => disconnect

def callUser (cb : Callback) : M Unit := do
  let actions ← ask fun s i =>
    match i with
    | .turn actions => if env.turn s cb then some actions else none
    | .reply _ => none
  actions.forM (perform cfg env (some cb))

def invoke (function : Option Nat) (e : Nat → Event) : M Nat :=
  match function with
  | some k => do
    update fun s => s.log (e k)
    pure k
  | none => halt .emptyFunction

def handleClosed : M Unit := do
  let s ← state
  if s.status_ = .Bad then pure ()
  else do
    setStatus .Bad
    disableAll
    update fun s => s.log .close
    callUser cfg env .closeCallback_

def outputError : M Unit := do
  disableAll
  let errorNo ← mysql env .outputError .mysql_errno
  fatal cfg
  fatal cfg
  let s ← state
  if s.isWorking_ then do
    let message ← mysql env .outputError .mysql_error
    let k ← invoke s.exceptionCallback_ fun k => .exception k message.text s.sql_
    callUser cfg env .exceptionCallback_
    update fun s => { s with exceptionCallback_ := none, callback_ := none, isWorking_ := false }
    if errorNo.gone then pure ()
    else do
      update fun s => s.log (.idle k)
      callUser cfg env .idleCb_
  else pure ()
  if errorNo.gone then handleClosed cfg env else pure ()

/-- How every step that fails outside `startQuery` and `startStoreResult` ends. -/
def failCmd : M Unit := do
  setExecStatus .None
  report
  fatal cfg
  outputError cfg env

/-- The branch of `getResult` for more results. -/
def startNextResult (direct : Func → M Unit) : M Unit := do
  setExecStatus .NextResult
  let r ← wait env .getResult .mysql_next_result_start
  if r.wait = 0 then
    if r.number ≠ 0 then failCmd cfg env else startStoreResult env direct false
  else pure ()

/-- The fuel bounds the result sets that arrive without a return to the loop. -/
def getResult : Nat → Option Nat → M Unit
  | 0, _ => stuck
  | fuel + 1, ret => do
    useHandle
    let s ← state
    if s.isWorking_ then do
      let k ← invoke s.callback_ fun k => .callback k ret
      callUser cfg env .callback_
      let more ← mysql env .getResult .mysql_more_results
      if more.number = 0 then do
        update fun s =>
          { s.log (.finished k) with
            callback_ := none, exceptionCallback_ := none, isWorking_ := false }
        callUser cfg env .idleCb_
      else
        startNextResult cfg env fun f =>
          match f with
          | .outputError _ => outputError cfg env
          | .getResult _ ret => getResult fuel ret
    else pure ()

def runFunc (fuel : Nat) : Func → M Unit
  | .outputError _ => outputError cfg env
  | .getResult _ ret => getResult cfg env fuel ret

/-- The cases `RealQuery` and `NextResult` of `handleCmd`. -/
def continueQuery (fuel : Nat) (call : Call) : M Unit := do
  let r ← wait env .handleCmd call
  if r.wait = 0 then
    if r.number ≠ 0 then failCmd cfg env
    else do
      startStoreResult env (runFunc cfg env fuel) false
      setEventDispatcher
  else setEventDispatcher

/-- The case `StoreResult` of `handleCmd`. -/
def continueStoreResult (fuel : Nat) (status : Wait) : M Unit := do
  let r ← wait env .handleCmd (.mysql_store_result_cont status)
  if r.wait = 0 then do
    let isError ← failed env .handleCmd r.ret
    if isError then failCmd cfg env
    else do
      update fun s => s.logWorking fun k => .stored k r.ret false
      getResult cfg env fuel r.ret
      setEventDispatcher
  else setEventDispatcher

def handleCmd (fuel : Nat) (status : Wait) : M Unit := do
  let s ← state
  match s.execStatus_ with
  | .RealQuery => continueQuery cfg env fuel (.mysql_real_query_cont status)
  | .StoreResult => continueStoreResult cfg env fuel status
  | .NextResult => continueQuery cfg env fuel (.mysql_next_result_cont status)
  | .None => if s.waitStatus_ = 0 then handleClosed cfg env else pure ()

/-- What each of the three places does that make the connection usable. -/
def becomeOk : M Unit := do
  setStatus .Ok
  update fun s => s.log .ok
  callUser cfg env .okCallback_
  setEventDispatcher

/-- The end of `startSetCharacterSet` and `continueSetCharacterSet` when nothing is left to
wait for. -/
def characterSetDone (err : Int) : M Unit :=
  if err ≠ 0 then do
    useHandle
    fatal cfg
    fatal cfg
    handleClosed cfg env
  else becomeOk cfg env

def startSetCharacterSet : M Unit := do
  let r ← handshake env .startSetCharacterSet .mysql_set_character_set_start
  if r.wait = 0 then characterSetDone cfg env r.number
  else do
    setStatus .SettingCharacterSet
    setEventDispatcher

def continueSetCharacterSet (status : Wait) : M Unit := do
  let r ← handshake env .continueSetCharacterSet (.mysql_set_character_set_cont status)
  if r.wait = 0 then characterSetDone cfg env r.number else setEventDispatcher

/-- What `handleEvent` and `handleTimeout` both do while connecting. -/
def continueConnect (site : Site) (status : Wait) : M Unit := do
  let r ← handshake env site (.mysql_real_connect_cont status)
  if r.wait = 0 then do
    let errorNo ← mysql env site .mysql_errno
    if r.ret.isNone ∧ errorNo.number ≠ 0 then do
      fatal cfg
      fatal cfg
      handleClosed cfg env
    else if cfg.characterSetEmpty then becomeOk cfg env
    else startSetCharacterSet cfg env
  else setEventDispatcher

def handleTimeout : M Unit := do
  let s ← state
  match s.status_ with
  | .Connecting => continueConnect cfg env .handleTimeout MYSQL_WAIT_TIMEOUT
  | .SettingCharacterSet => continueSetCharacterSet cfg env MYSQL_WAIT_TIMEOUT
  | _ => pure ()

def readyStatus (pollIn pollOut pollPri : Bool) : Wait :=
  (if pollIn then MYSQL_WAIT_READ else 0) ||| (if pollOut then MYSQL_WAIT_WRITE else 0) |||
    (if pollPri then MYSQL_WAIT_EXCEPT else 0)

def handleEvent (fuel : Nat) (pollIn pollOut pollPri : Bool) : M Unit := do
  let s ← state
  let status := readyStatus pollIn pollOut pollPri &&& s.waitStatus_
  match s.status_ with
  | .Connecting => continueConnect cfg env .handleEvent status
  | .Ok => handleCmd cfg env fuel status
  | .SettingCharacterSet => continueSetCharacterSet cfg env status
  | _ => pure ()

/-- The two early returns of `init`. -/
def failInit : M Unit := do
  fatal cfg
  update fun s => s.log .close
  callUser cfg env .closeCallback_

/-- The second half of `init`, from the call of `mysql_get_socket`. -/
def createDispatcher : M Unit := do
  let fd ← mysql env .init .mysql_get_socket
  if fd.number < 0 then failInit cfg env
  else do
    update fun s => { s with eventDispatcherPtr_ := some ⟨false, false⟩ }
    setEventDispatcher

def init : M Unit := do
  setStatus .Connecting
  let r ← handshake env .init .mysql_real_connect_start
  if r.wait = 0 then do
    let errorNo ← mysql env .init .mysql_errno
    if errorNo.number ≠ 0 then failInit cfg env else createDispatcher cfg env
  else createDispatcher cfg env

/-- One turn of the loop for the connector.  `init` is called once; an fd event is handled while
the dispatcher has interest, and the queued functions run in their order. -/
def handle (fuel : Nat) : LoopEvent → M Unit
  | .init => do
    guard fun s => s.status_ = .None
    init cfg env
  | .fdEvent pollIn pollOut pollPri => do
    guard fun s => s.eventDispatcherPtr_.any fun d => !d.isNoneEvent
    handleEvent cfg env fuel pollIn pollOut pollPri
  | .func => do
    let s ← state
    match s.funcs_ with
    | [] => stuck
    | f :: rest => do
      update fun s =>
        { s.log (.applied f.statement (if s.isWorking_ then s.callback_ else none)) with
          funcs_ := rest, inFunc := true }
      runFunc cfg env fuel f
      update fun s => { s with inFunc := false }
  | .timeout waits => do
    guard fun s => waits ∈ s.timers
    update fun s => { s with timers := s.timers.erase waits }
    handleTimeout cfg env
  | .user a => perform cfg env none a

def step (s : State) (l : LoopEvent × List Input) : Option State :=
  if s.stopped.isNone ∧ env.event s l.1 then (handle cfg env (l.2.length + 1) l.1).run s l.2 else none

def system : System State (LoopEvent × List Input) where
  init s := s = init₀
  step := step cfg env

end Functions

def connected : List (LoopEvent × List Input) :=
  [(.init, [.reply { wait := MYSQL_WAIT_READ }, .reply { number := 5 }]),
    (.fdEvent true false false, [.reply { ret := some 1 }, .reply {}, .turn []])]

def insertStatement : Statement where
  sql := ascii "INSERT INTO t VALUES (1)"
  paraNum := 0
  vectors := ⟨[], [], []⟩

end MysqlConnectPool.MySQLConnector
