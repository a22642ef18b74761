import MysqlConnectPool.Event.ActiveDispatchers
import MysqlConnectPool.Library.BatchService

/-! The turns of the dispatchers of a loop.  The poller reports those that are ready, as many as its
list of events holds, and `loop` handles all of them before it polls again. -/

universe u

namespace MysqlConnectPool.PolledDispatchers

open Library

def kInitEventListSize : Nat := 16

/-- `activeDispatchers_` holds those that are not yet handled, and `ready` is the list of the kernel. -/
structure State (Addr : Type u) where
  dispatching : ActiveDispatchers.State Addr
  eventListSize : Nat
  activeDispatchers_ : List Addr
  ready : List Addr

variable {Addr : Type u}

/-- What the kernel reports and what is ready then: successive calls go through the ready ones in
turns. -/
def epoll_wait (ready : List Addr) (maxevents : Int) : Option (List Addr × List Addr) :=
  if maxevents ≤ 0 then none
  else some (ready.take maxevents.toNat, ready.drop maxevents.toNat ++ ready.take maxevents.toNat)

inductive Label (Addr : Type u)
  /-- Without events where `epoll_wait` fails. -/
  | poll (events : Option (Addr → BitVec 32))
  | handleEvent (turn : ActiveDispatchers.Turn Addr)
  | interest (this : Addr) (call : Interest)
  | becomesReady (this : Addr)
  | stopsBeingReady (this : Addr)

namespace State

def maxevents (s : State Addr) : Int := (s.eventListSize : Int).bmod (2 ^ 32)

variable [DecidableEq Addr]

def fillActiveDispatchers (s : State Addr) (events : List (Addr × BitVec 32)) : State Addr :=
  { s with
    dispatching := s.dispatching.fillActiveDispatchers events
    activeDispatchers_ := s.activeDispatchers_ ++ events.map Prod.fst }

def poll (s : State Addr) (events : Option (List (Addr × BitVec 32))) : State Addr :=
  let s := { s with activeDispatchers_ := [] }
  match events with
  | none => s
  | some events =>
    if 0 < events.length then
      let s := s.fillActiveDispatchers events
      if events.length = s.eventListSize then { s with eventListSize := s.eventListSize * 2 } else s
    else s

end State

variable [DecidableEq Addr] (fd_ : Addr ↪ Nat)

def step (s : State Addr) : Label Addr → Option (State Addr)
  | .poll events =>
    if s.activeDispatchers_ = [] then
      match events with
      | none => some (s.poll none)
      | some events =>
        (epoll_wait s.ready s.maxevents).map fun (reported, ready) =>
          { s.poll (some (reported.map fun this => (this, events this))) with ready }
    else none
  | .handleEvent turn =>
    match s.activeDispatchers_ with
    | [] => none
    | this :: rest =>
      if turn.this = this then
        some { s with dispatching := s.dispatching.handleEvent fd_ turn, activeDispatchers_ := rest }
      else none
  | .interest this call =>
    some { s with
      dispatching := { s.dispatching with poller := s.dispatching.poller.perform fd_ this call } }
  | .becomesReady this =>
    if this ∈ s.ready then none else some { s with ready := s.ready ++ [this] }
  | .stopsBeingReady this => some { s with ready := s.ready.erase this }

def system : System (State Addr) (Label Addr) where
  init s := s.dispatching.invocations = [] ∧ s.eventListSize = kInitEventListSize ∧
    s.activeDispatchers_ = [] ∧ s.ready = []
  step := step fd_

section Step

variable {fd_ : Addr ↪ Nat} {s t : State Addr}

theorem poll_eq (events : List (Addr × BitVec 32)) (hpos : 0 < s.eventListSize) :
    s.poll (some events) =
      { s with
        dispatching := s.dispatching.fillActiveDispatchers events
        activeDispatchers_ := events.map Prod.fst
        eventListSize :=
          if events.length = s.eventListSize then s.eventListSize * 2 else s.eventListSize } := by
  cases events with
  | nil =>
    rw [if_neg (by simpa using hpos.ne)]
    rfl
  | cons event events =>
    rw [State.poll, if_pos (List.length_pos_of_ne_nil (List.cons_ne_nil event events))]
    dsimp only [State.fillActiveDispatchers]
    split <;> rfl

variable (fd_ s) in
inductive Does : Label Addr → State Addr → Prop
  | fails : Does (.poll none) s
  | polls (events : Addr → BitVec 32) (n : Nat) (idle : s.activeDispatchers_ = [])
      (room : 0 < s.maxevents) (size : (n : Int) = s.maxevents) :
      Does (.poll (some events))
        { s.poll (some ((s.ready.take n).map fun this => (this, events this))) with
          ready := s.ready.drop n ++ s.ready.take n }
  | handles (turn : ActiveDispatchers.Turn Addr) (rest : List Addr)
      (next : s.activeDispatchers_ = turn.this :: rest) :
      Does (.handleEvent turn)
        { s with dispatching := s.dispatching.handleEvent fd_ turn, activeDispatchers_ := rest }
  | changes (this : Addr) (call : Interest) :
      Does (.interest this call)
        { s with
          dispatching := { s.dispatching with poller := s.dispatching.poller.perform fd_ this call } }
  | arrives (this : Addr) (new : this ∉ s.ready) :
      Does (.becomesReady this) { s with ready := s.ready ++ [this] }
  | leaves (this : Addr) : Does (.stopsBeingReady this) { s with ready := s.ready.erase this }

theorem step_does {i : Label Addr} (h : step fd_ s i = some t) : Does fd_ s i t := by
  cases i with
  | poll events =>
    obtain ⟨hidle, h⟩ : s.activeDispatchers_ = [] ∧ _ = some t := Option.ite_none_right_eq_some.mp h
    cases events with
    | none =>
      obtain rfl : s.poll none = t := Option.some.inj h
      rw [State.poll, ← hidle]
      exact .fails
    | some events =>
      by_cases hmax : s.maxevents ≤ 0
      · simp [epoll_wait, hmax] at h
      · simp only [epoll_wait, if_neg hmax, Option.map_some, Option.some.injEq] at h
        rw [← h]
        exact .polls events _ hidle (by omega) (Int.toNat_of_nonneg (by omega))
  | handleEvent turn =>
    cases hactive : s.activeDispatchers_ with
    | nil => simp [step, hactive] at h
    | cons this rest =>
      obtain ⟨rfl, rfl⟩ : turn.this = this ∧ _ = t := by simpa [step, hactive] using h
      exact .handles turn rest hactive
  | interest this call =>
    cases h
    exact .changes this call
  | becomesReady this =>
    obtain ⟨hnew, rfl⟩ : this ∉ s.ready ∧ _ = t := by simpa [step] using h
    exact .arrives this hnew
  | stopsBeingReady this =>
    cases h
    exact .leaves this

theorem eventListSize_eq (h : (system fd_).Reachable s) :
    ∃ k, s.eventListSize = kInitEventListSize * 2 ^ k := by
  refine h.invariant (I := fun s => ∃ k, s.eventListSize = kInitEventListSize * 2 ^ k) ?_ ?_
  · intro s hs
    exact ⟨0, hs.2.1⟩
  rintro s i t ⟨k, hk⟩ hst
  cases step_does hst with
  | polls events n =>
    rw [poll_eq _ (hk ▸ Nat.mul_pos (by decide) (Nat.two_pow_pos k))]
    dsimp only
    split
    · exact ⟨k + 1, by rw [hk, Nat.pow_succ, Nat.mul_assoc]⟩
    · exact ⟨k, hk⟩
  | _ => exact ⟨k, hk⟩

theorem kInit_le_eventListSize (h : (system fd_).Reachable s) : kInitEventListSize ≤ s.eventListSize := by
  obtain ⟨k, hk⟩ := eventListSize_eq h
  rw [hk]
  exact Nat.le_mul_of_pos_right _ (Nat.two_pow_pos k)

theorem bmod_of_lt {n : Nat} (h : n < 2 ^ 31) : (n : Int).bmod (2 ^ 32) = n := by
  rw [Int.bmod_def]
  omega

theorem bmod_two_pow {k : Nat} (h : 0 < ((2 ^ k : Nat) : Int).bmod (2 ^ 32)) :
    ((2 ^ k : Nat) : Int).bmod (2 ^ 32) = (2 ^ k : Nat) := by
  rcases Nat.lt_or_ge k 32 with hlt | hge
  · have hpow : 2 ^ k ≤ 2 ^ 31 := Nat.pow_le_pow_right (by decide) (by omega)
    generalize 2 ^ k = x at *
    rw [Int.bmod_def] at h ⊢
    omega
  · have hdvd : ((2 ^ 32 : Nat) : Int) ∣ (2 ^ k : Nat) :=
      Int.natCast_dvd_natCast.mpr (Nat.pow_dvd_pow 2 hge)
    rw [Int.bmod_eq_zero_of_dvd hdvd] at h
    omega


theorem maxevents_eq (h : (system fd_).Reachable s) (hmax : 0 < s.maxevents) :
    s.maxevents = s.eventListSize := by
  obtain ⟨k, hk⟩ := eventListSize_eq h
  have hsize : s.eventListSize = 2 ^ (4 + k) := by
    rw [hk, Nat.pow_add]
    rfl
  have hbmod := @bmod_two_pow (4 + k)
  rw [← hsize] at hbmod
  exact hbmod hmax

end Step

def dispatchingActs (s : State Addr) : Label Addr → List (ActiveDispatchers.Label Addr)
  | .poll (some events) =>
    [.poll ((s.ready.take s.eventListSize).map fun this => (this, events this))]
  | .handleEvent turn => [.handleEvent turn]
  | .interest this call => [.interest this call]
  | _ => []

def refinesDispatching : Refinement (system fd_) (ActiveDispatchers.system fd_) where
  abs := State.dispatching
  acts := dispatchingActs
  init _ hs := hs.1
  step s i t hreach hst := by
    cases step_does hst with
    | polls events n idle room size =>
      obtain rfl : n = s.eventListSize := by
        have hmax := maxevents_eq hreach room
        omega
      rw [poll_eq _ (Nat.lt_of_lt_of_le (by decide) (kInit_le_eventListSize hreach))]
      rfl
    | _ => rfl

def serviceActs : Label Addr → List (BatchService.Label Addr)
  | .poll (some _) => [.take]
  | .handleEvent turn => [.serve turn.this]
  | .becomesReady this => [.arrive this]
  | .stopsBeingReady this => [.leave this]
  | _ => []

def refinesService : Refinement (system fd_) (BatchService.system Addr) where
  abs s := ⟨s.eventListSize, s.ready, s.activeDispatchers_⟩
  acts _ := serviceActs
  init _ hs := ⟨hs.2.2.2, hs.2.2.1⟩
  step s i t hreach hst := by
    cases step_does hst with
    | fails => rfl
    | changes => rfl
    | polls events n idle room size =>
      obtain rfl : n = s.eventListSize := by
        have hmax := maxevents_eq hreach room
        omega
      rw [poll_eq _ (Nat.lt_of_lt_of_le (by decide) (kInit_le_eventListSize hreach))]
      simp [serviceActs, System.run, BatchService.system, BatchService.step, BatchService.State.take,
        idle, Function.comp_def, Nat.mul_comm]
    | handles turn rest next =>
      simp [serviceActs, System.run, BatchService.system, BatchService.step, next]
    | arrives this new =>
      simp [serviceActs, System.run, BatchService.system, BatchService.step, new]
    | leaves this => rfl

/-- A poll that `epoll_wait` does not fail. -/
def Label.polls : Label Addr → Bool
  | .poll (some _) => true
  | _ => false

section Run

variable {fd_ : Addr ↪ Nat} {s t : State Addr}

theorem maxevents_pos
    (h : (system fd_).ReachableWhen (fun s _ => s.ready.length < 2 ^ 30) s) : 0 < s.maxevents := by
  have hsize : 0 < s.eventListSize ∧ s.eventListSize < 2 ^ 31 := by
    refine h.invariant (I := fun s => 0 < s.eventListSize ∧ s.eventListSize < 2 ^ 31) ?_ ?_
    · intro s hs
      rw [hs.2.1]
      decide
    intro s i t hs hfew hst
    cases step_does hst with
    | polls events n =>
      rw [poll_eq _ hs.1]
      dsimp only
      rw [List.length_map, List.length_take]
      split <;> omega
    | _ => exact hs
  have hbmod := bmod_of_lt hsize.2
  exact lt_of_lt_of_eq (Int.natCast_pos.mpr hsize.1) hbmod.symm

theorem countP_takes {is : List (Label Addr)} (hr : (system fd_).run s is = some t) :
    ((refinesService fd_).trace s is).countP BatchService.Label.takes = is.countP Label.polls := by
  refine (refinesService fd_).countP_trace (fun s i t _ => ?_) hr
  cases i with
  | poll events => cases events <;> rfl
  | _ => rfl

/-- Where the kernel reports its ready list in turns, a dispatcher that stays ready is handled
after a few polls, those that fail not counted: all but the last of them find the list of events
full of those before it, and twice as long each time. -/
theorem handled_within {is : List (Label Addr)} {this : Addr} {before behind : List Addr}
    (h : (system fd_).Reachable s) (hready : s.ready = before ++ this :: behind)
    (hr : (system fd_).run s is = some t) (hstays : Label.stopsBeingReady this ∉ is)
    (hunhandled : ∀ turn, Label.handleEvent turn ∈ is → turn.this ≠ this) :
    kInitEventListSize * (2 ^ (is.countP Label.polls - 1) - 1) ≤ before.length := by
  have hnames : ∀ l ∈ (refinesService fd_).trace s is, l.names this = false := by
    intro l hl
    obtain ⟨u, i, hi, hacts⟩ := (refinesService fd_).mem_trace hl
    cases i with
    | poll events =>
      cases events with
      | none => cases hacts
      | some events =>
        obtain rfl : l = .take := List.mem_singleton.mp hacts
        rfl
    | handleEvent turn =>
      obtain rfl : l = .serve turn.this := List.mem_singleton.mp hacts
      exact decide_eq_false (hunhandled turn hi)
    | interest => cases hacts
    | becomesReady that =>
      obtain rfl : l = .arrive that := List.mem_singleton.mp hacts
      rfl
    | stopsBeingReady that =>
      obtain rfl : l = .leave that := List.mem_singleton.mp hacts
      exact decide_eq_false fun heq => hstays (heq ▸ hi)
  have hbound := BatchService.capacity_mul_le ⟨before, behind, hready, rfl⟩
    ((refinesService fd_).run h hr) hnames
  rw [countP_takes hr] at hbound
  exact Nat.le_trans (Nat.mul_le_mul_right _ (kInit_le_eventListSize h)) hbound

end Run

def seventeenReady : State Nat where
  dispatching := ActiveDispatchers.start
  eventListSize := kInitEventListSize
  activeDispatchers_ := []
  ready := List.range 17

def fullPoll : List (Label Nat) :=
  .poll (some fun _ => EventDispatcher.POLLIN) ::
    (List.range 16).map (fun this => .handleEvent { this, guard := true, effects := fun _ => [] }) ++
    [.poll (some fun _ => EventDispatcher.POLLIN)]

theorem seventeenReady_reachable :
    (system (Function.Embedding.refl Nat)).Reachable seventeenReady := by
  have hinit : (system (Function.Embedding.refl Nat)).init { seventeenReady with ready := [] } :=
    ⟨rfl, rfl, rfl, rfl⟩
  have hrun : (system (Function.Embedding.refl Nat)).run { seventeenReady with ready := [] }
      ((List.range 17).map .becomesReady) = some seventeenReady := rfl
  exact (System.Reachable.init hinit).run hrun

theorem handled_within_fullPoll :
    ∃ t, (system (Function.Embedding.refl Nat)).run seventeenReady fullPoll = some t ∧
      t.eventListSize = kInitEventListSize * 2 ∧ 16 ∈ t.activeDispatchers_ ∧
      fullPoll.countP Label.polls = 2 ∧
      kInitEventListSize * (2 ^ (fullPoll.countP Label.polls - 1) - 1) ≤ (List.range 16).length := by
  obtain ⟨t, ht, hend⟩ := (system (Function.Embedding.refl Nat)).exists_run seventeenReady fullPoll
    (fun t => t.eventListSize = kInitEventListSize * 2 ∧ 16 ∈ t.activeDispatchers_) (by decide)
  obtain ⟨hsize, hactive⟩ := of_decide_eq_true hend
  have hready : seventeenReady.ready = List.range 16 ++ 16 :: [] := rfl
  refine ⟨t, ht, hsize, hactive, rfl,
    handled_within seventeenReady_reachable hready ht (by simp [fullPoll]) ?_⟩
  intro turn hturn
  obtain ⟨this, hthis, rfl⟩ : ∃ this < 16, { this, guard := true, effects := fun _ => [] } = turn := by
    simpa [fullPoll] using hturn
  exact Nat.ne_of_lt hthis

end MysqlConnectPool.PolledDispatchers
