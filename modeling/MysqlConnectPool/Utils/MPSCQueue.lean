import Mathlib.Logic.Function.Basic
import Mathlib.Data.List.Nodup
import MysqlConnectPool.Library.System

/-! The multi-producer single-consumer queue: a heap of buffer nodes, the two
atomic steps of `enqueue` and the steps of the one consumer in `dequeue`. -/

universe u v w

namespace MysqlConnectPool.MPSCQueue

/-- `dataPtr_` is `none` where the pointer may not be read: in the node built by
the default constructor and once `dequeue` has deleted the value. -/
structure BufferNode (Addr : Type u) (T : Type v) where
  dataPtr_ : Option T
  next_ : Option Addr

inductive Fault
  | useAfterFree
  | doubleFree
  deriving DecidableEq

inductive Consumer (Addr : Type u) (T : Type v)
  | idle : Consumer Addr T
  | loaded : (tail next : Addr) → Consumer Addr T
  | moved : (tail next : Addr) → (output : T) → Consumer Addr T
  | advanced : (tail : Addr) → (output : T) → Consumer Addr T

structure Enqueue (ι : Type w) (Addr : Type u) (T : Type v) where
  producer : ι
  newNode : Addr
  value : T

/-- `pending p` holds `prevhead` and `newNode` of the producer `p` between its
exchange and its store.  The last four fields are history that no step reads. -/
structure State (ι : Type w) (Addr : Type u) (T : Type v) where
  heap : Addr → Option (BufferNode Addr T)
  head_ : Addr
  tail_ : Addr
  pending : ι → Option (Addr × Addr)
  consumer : Consumer Addr T
  fault : Option Fault
  exchanged : List (Enqueue ι Addr T)
  dequeued : List T
  allocated : List Addr
  freed : List Addr

variable {ι : Type w} {Addr : Type u} {T : Type v} [DecidableEq ι] [DecidableEq Addr]

def init (front : Addr) : State ι Addr T where
  heap := Function.update (fun _ => none) front (some ⟨none, none⟩)
  head_ := front
  tail_ := front
  pending := fun _ => none
  consumer := .idle
  fault := none
  exchanged := []
  dequeued := []
  allocated := [front]
  freed := []

namespace State

def next (s : State ι Addr T) (a : Addr) : Option Addr := (s.heap a).bind (·.next_)

def delete (s : State ι Addr T) (a : Addr) : State ι Addr T :=
  match s.heap a with
  | none => { s with fault := some .doubleFree }
  | some _ => { s with heap := Function.update s.heap a none, freed := s.freed ++ [a] }

/-- `new BufferNode(output)` and `head_.exchange(newNode)`; the allocator may
return any address that holds no node. -/
def enqueueExchange (s : State ι Addr T) (p : ι) (newNode : Addr) (output : T) :
    State ι Addr T :=
  { s with
    heap := Function.update s.heap newNode (some ⟨some output, none⟩)
    head_ := newNode
    pending := Function.update s.pending p (some (s.head_, newNode))
    exchanged := s.exchanged ++ [⟨p, newNode, output⟩]
    allocated := s.allocated ++ [newNode] }

def enqueueLink (s : State ι Addr T) (p : ι) (prevhead newNode : Addr) : State ι Addr T :=
  match s.heap prevhead with
  | none => { s with fault := some .useAfterFree }
  | some node =>
    { s with
      heap := Function.update s.heap prevhead (some { node with next_ := some newNode })
      pending := Function.update s.pending p none }

def dequeueLoad (s : State ι Addr T) : State ι Addr T :=
  match s.heap s.tail_ with
  | none => { s with fault := some .useAfterFree }
  | some node =>
    match node.next_ with
    | none => s
    | some next => { s with consumer := .loaded s.tail_ next }

def dequeueMove (s : State ι Addr T) (tail next : Addr) : State ι Addr T :=
  match s.heap next with
  | some ⟨some output, n⟩ =>
    { s with
      heap := Function.update s.heap next (some ⟨none, n⟩)
      consumer := .moved tail next output }
  | _ => { s with fault := some .useAfterFree }

def dequeueAdvance (s : State ι Addr T) (tail next : Addr) (output : T) : State ι Addr T :=
  { s with tail_ := next, consumer := .advanced tail output }

def dequeueFree (s : State ι Addr T) (tail : Addr) (output : T) : State ι Addr T :=
  { s.delete tail with consumer := .idle, dequeued := s.dequeued ++ [output] }

def empty (s : State ι Addr T) : Bool := (s.next s.tail_).isNone

/-- The consumer is about to test `next` and finds it null. -/
def DequeueReturnsFalse (s : State ι Addr T) : Prop :=
  s.consumer = .idle ∧ s.empty = true

end State

inductive Label (ι : Type w) (Addr : Type u) (T : Type v)
  | exchange : (p : ι) → (newNode : Addr) → (output : T) → Label ι Addr T
  | link : (p : ι) → Label ι Addr T
  | dequeue : Label ι Addr T

def State.dequeueStep (s : State ι Addr T) : State ι Addr T :=
  match s.consumer with
  | .idle => s.dequeueLoad
  | .loaded tail next => s.dequeueMove tail next
  | .moved tail next output => s.dequeueAdvance tail next output
  | .advanced tail output => s.dequeueFree tail output

def step (s : State ι Addr T) : Label ι Addr T → Option (State ι Addr T)
  | .exchange p newNode output =>
    if s.pending p = none ∧ (s.heap newNode).isNone then
      some (s.enqueueExchange p newNode output)
    else none
  | .link p =>
    match s.pending p with
    | some (prevhead, newNode) => some (s.enqueueLink p prevhead newNode)
    | none => none
  | .dequeue => some s.dequeueStep

def system (ι : Type w) (Addr : Type u) (T : Type v) [DecidableEq ι] [DecidableEq Addr] :
    Library.System (State ι Addr T) (Label ι Addr T) where
  init s := ∃ front, s = init front
  step := step

end MysqlConnectPool.MPSCQueue
