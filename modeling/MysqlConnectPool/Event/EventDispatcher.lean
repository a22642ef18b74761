import Mathlib.Init

/-! A dispatcher: the events it wants of its fd, and the callbacks for those that are reported. -/

namespace MysqlConnectPool

inductive PollState
  | kNew
  | kAdded
  | kDeleted
  deriving DecidableEq

/-- Of each callback it is known whether one is set. -/
structure EventDispatcher where
  events_ : BitVec 32
  realEvents_ : BitVec 32
  state_ : PollState
  tied_ : Bool
  eventCallback_ : Bool
  closeCallback_ : Bool
  errorCallback_ : Bool
  readCallback_ : Bool
  writeCallback_ : Bool

namespace EventDispatcher

def POLLIN : BitVec 32 := 0x1
def POLLPRI : BitVec 32 := 0x2
def POLLOUT : BitVec 32 := 0x4
def POLLERR : BitVec 32 := 0x8
def POLLHUP : BitVec 32 := 0x10
def POLLNVAL : BitVec 32 := 0x20
def POLLRDHUP : BitVec 32 := 0x2000

def getKNoneEvent : BitVec 32 := 0
def getKReadEvent : BitVec 32 := POLLIN ||| POLLPRI
def getKWriteEvent : BitVec 32 := POLLOUT

def isNoneEvent (d : EventDispatcher) : Bool := d.events_ = getKNoneEvent

def isReading (d : EventDispatcher) : Bool := d.events_ &&& getKReadEvent ≠ 0

def isWriting (d : EventDispatcher) : Bool := d.events_ &&& getKWriteEvent ≠ 0

end EventDispatcher

inductive Interest
  | enableReading
  | enableWriting
  | disableReading
  | disableWriting
  | disableAll
  | updateEvents (events : BitVec 32)

open EventDispatcher in
def Interest.mask : Interest → BitVec 32 → BitVec 32
  | .enableReading, events_ => events_ ||| getKReadEvent
  | .enableWriting, events_ => events_ ||| getKWriteEvent
  | .disableReading, events_ => events_ &&& ~~~getKReadEvent
  | .disableWriting, events_ => events_ &&& ~~~getKWriteEvent
  | .disableAll, _ => getKNoneEvent
  | .updateEvents events, _ => events

end MysqlConnectPool
