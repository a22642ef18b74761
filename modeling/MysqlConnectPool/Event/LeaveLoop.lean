import MysqlConnectPool.Library.Handler
import MysqlConnectPool.Library.System

/-! How `loop` ends: the functions registered with `runOnQuit`, the flags and the slot of the
thread, when code of the user throws. -/

namespace MysqlConnectPool.LeaveLoop

open Library Handler

/-- An exception is or is not a `std::exception`; the one `catch` is for the first kind. -/
inductive Exception
  | std
  | other
  deriving DecidableEq

inductive Action
  | quit
  | queueInLoop
  | runOnQuit
  deriving DecidableEq

structure Turn where
  actions : List Action
  thrown : Option Exception

/-- What other threads do between two steps of `loop`, the number of active dispatchers that
`poll` returns, and the calls of user code by their places. -/
inductive Input
  | others (actions : List Action)
  | poll (activeDispatchers_ : Nat)
  | event (turn : Turn)
  | func (turn : Turn)
  | quitFunc (turn : Turn)

/-- `funcs_` counts the functors that are queued.  The functions registered with `runOnQuit` are
numbered by their registration; history: `registered` counts them, and `called` holds those
that have been called. -/
structure State where
  looping_ : Bool
  quit_ : Bool
  eventHandling_ : Bool
  callingFuncs_ : Bool
  funcs_ : Nat
  funcsOnQuit_ : List Nat
  slotIsSet : Bool
  registered : Nat
  called : List Nat

def init : State where
  looping_ := false
  quit_ := false
  eventHandling_ := false
  callingFuncs_ := false
  funcs_ := 0
  funcsOnQuit_ := []
  slotIsSet := true
  registered := 0
  called := []

def State.act (s : State) : Action → State
  | .quit => { s with quit_ := true }
  | .queueInLoop => { s with funcs_ := s.funcs_ + 1 }
  | .runOnQuit =>
    { s with funcsOnQuit_ := s.funcsOnQuit_ ++ [s.registered], registered := s.registered + 1 }

def State.acts (s : State) (actions : List Action) : State := actions.foldl State.act s

abbrev M := Handler State Input

def interfere : M Unit := do
  let actions ← ask fun _ i =>
    match i with
    | .others actions => some actions
    | _ => none
  update fun s => s.acts actions

def poll : M Nat :=
  ask fun _ i =>
    match i with
    | .poll activeDispatchers_ => some activeDispatchers_
    | _ => none

def callUser (place : Input → Option Turn) : M (Option Exception) := do
  let turn ← ask fun _ i => place i
  update fun s => s.acts turn.actions
  pure turn.thrown

def Input.asEvent : Input → Option Turn
  | .event turn => some turn
  | _ => none

def Input.asFunc : Input → Option Turn
  | .func turn => some turn
  | _ => none

def Input.asQuitFunc : Input → Option Turn
  | .quitFunc turn => some turn
  | _ => none

def handleEvents : Nat → M (Option Exception)
  | 0 => pure none
  | n + 1 => do
    let thrown ← callUser Input.asEvent
    match thrown with
    | some e => pure (some e)
    | none => handleEvents n

/-- The two loops over `funcs_`.  The fuel bounds the functors that are called. -/
def callFuncs : Nat → M (Option Exception)
  | 0 => stuck
  | fuel + 1 => do
    let s ← state
    if s.funcs_ = 0 then pure none
    else do
      update fun s => { s with funcs_ := s.funcs_ - 1 }
      let thrown ← callUser Input.asFunc
      match thrown with
      | some e => pure (some e)
      | none => callFuncs fuel

def doRunInLoopFuncs (fuel : Nat) : M (Option Exception) := do
  update fun s => { s with callingFuncs_ := true }
  let thrown ← callFuncs fuel
  -- `callingFlagCleaner`, whether a functor has thrown or not
  update fun s => { s with callingFuncs_ := false }
  pure thrown

def iterate : Nat → M (Option Exception)
  | 0 => stuck
  | fuel + 1 => do
    interfere
    let s ← state
    if s.quit_ then pure none
    else do
      let activeDispatchers_ ← poll
      update fun s => { s with eventHandling_ := true }
      let thrown ← handleEvents activeDispatchers_
      match thrown with
      | some e => pure (some e)
      | none => do
        update fun s => { s with eventHandling_ := false }
        let thrown ← doRunInLoopFuncs fuel
        match thrown with
        | some e => pure (some e)
        | none => iterate fuel

def callFuncsOnQuit : Nat → M (Option Exception)
  | 0 => stuck
  | fuel + 1 => do
    let s ← state
    match s.funcsOnQuit_ with
    | [] => pure none
    | k :: rest => do
      update fun s => { s with funcsOnQuit_ := rest, called := s.called ++ [k] }
      let thrown ← callUser Input.asQuitFunc
      match thrown with
      | some e => pure (some e)
      | none => callFuncsOnQuit fuel

/-- The exception with which `loop` ends is the result. -/
def loop (fuel : Nat) : M (Option Exception) := do
  guard fun s => !s.looping_
  update fun s => { s with looping_ := true }
  update fun s => { s with quit_ := false }
  let loopException ← iterate fuel
  -- `loopFlagCleaner`, whether the body has thrown or not
  update fun s => { s with looping_ := false }
  match loopException with
  | some .other => pure loopException
  | _ => do
    let thrown ← callFuncsOnQuit fuel
    match thrown with
    | some e => pure (some e)
    | none => do
      update fun s => { s with slotIsSet := false }
      pure loopException

inductive Label
  | act (a : Action)
  | setSlot
  | loop (inputs : List Input)

def step (s : State) : Label → Option State
  | .act a => some (s.act a)
  | .setSlot => some { s with slotIsSet := true }
  | .loop inputs => (loop (inputs.length + 1)).run s inputs

def system : System State Label where
  init s := s = init
  step := step

def Kept (s : State) : Prop := s.called ++ s.funcsOnQuit_ = List.range s.registered

structure Apart (s t : State) : Prop where
  looping_ : t.looping_ = s.looping_
  callingFuncs_ : t.callingFuncs_ = s.callingFuncs_
  slotIsSet : t.slotIsSet = s.slotIsSet
  kept : Kept s → Kept t

structure Acted (s t : State) : Prop extends Apart s t where
  eventHandling_ : t.eventHandling_ = s.eventHandling_

theorem Apart.trans {s t u : State} (h : Apart s t) (h' : Apart t u) : Apart s u :=
  ⟨h'.looping_.trans h.looping_, h'.callingFuncs_.trans h.callingFuncs_,
    h'.slotIsSet.trans h.slotIsSet, fun hk => h'.kept (h.kept hk)⟩

theorem Apart.handling {s t : State} (h : Apart s t) (b : Bool) :
    Apart s { t with eventHandling_ := b } :=
  ⟨h.looping_, h.callingFuncs_, h.slotIsSet, h.kept⟩

theorem Acted.refl (s : State) : Acted s s := ⟨⟨rfl, rfl, rfl, fun h => h⟩, rfl⟩

theorem Acted.trans {s t u : State} (h : Acted s t) (h' : Acted t u) : Acted s u :=
  ⟨h.toApart.trans h'.toApart, h'.eventHandling_.trans h.eventHandling_⟩

def Input.fails : Input → Bool
  | .event turn | .quitFunc turn => turn.thrown.isSome
  | .func turn => turn.thrown = some .other
  | _ => false

section Run

variable {s t : State}

end Run

end MysqlConnectPool.LeaveLoop
