import MysqlConnectPool.Event.EventLoopThreadRuns
import MysqlConnectPool.Library.RoundRobin

/-! A pool of loops, each in a thread of its own: how `start` runs them and `getNextLoop` hands
them out.  The pool alone holds its threads, so that `run` is called by `start` only. -/

universe u v w

namespace MysqlConnectPool.EventLoopThreadPool

open Library

variable {ι : Type w} {Addr : Type u} {Func : Type v} [DecidableEq ι] [DecidableEq Addr] {n : Nat}

/-- `starting p` is the index `i` in the loop of `start` in the thread `p`, with `true` while
`loopThreadVec_[i]->run()` is called.  History: `started` marks the threads in which `start` has
returned. -/
structure State (ι : Type w) (Addr : Type u) (Func : Type v) (n : Nat) where
  loopThreadVec_ : Fin n → EventLoopThread.State ι Addr Func
  starting : ι → Option (Nat × Bool)
  started : ι → Bool

inductive Label (ι : Type w) (Addr : Type u) (Func : Type v) (n : Nat)
  | thread (i : Fin n) (l : EventLoopThread.Label ι Addr Func)
  | start (p : ι)
  | callRun (p : ι)
  | runReturned (p : ι)
  | startReturns (p : ι)

def State.setStarting (s : State ι Addr Func n) (p : ι) (c : Option (Nat × Bool)) : State ι Addr Func n :=
  { s with starting := Function.update s.starting p c }

def step (threadId_ : Fin n → ι) (s : State ι Addr Func n) :
    Label ι Addr Func n → Option (State ι Addr Func n)
  | .thread i l =>
    match l with
    | .run _ => none
    | _ =>
      (EventLoopThread.step (threadId_ i) (s.loopThreadVec_ i) l).map fun thread =>
        { s with loopThreadVec_ := Function.update s.loopThreadVec_ i thread }
  | .start p => if s.starting p = none then some (s.setStarting p (some (0, false))) else none
  | .callRun p =>
    match s.starting p with
    | some (i, false) =>
      if h : i < n then
        (EventLoopThread.step (threadId_ ⟨i, h⟩) (s.loopThreadVec_ ⟨i, h⟩) (.run p)).map fun thread =>
          { s.setStarting p (some (i, true)) with
            loopThreadVec_ := Function.update s.loopThreadVec_ ⟨i, h⟩ thread }
      else none
    | _ => none
  | .runReturned p =>
    match s.starting p with
    | some (i, true) =>
      if h : i < n then
        if (s.loopThreadVec_ ⟨i, h⟩).member p = .idle then
          some (s.setStarting p (some (i + 1, false)))
        else none
      else none
    | _ => none
  | .startReturns p =>
    if s.starting p = some (n, false) then
      some { s.setStarting p none with started := Function.update s.started p true }
    else none

def system (ι : Type w) (Addr : Type u) (Func : Type v) [DecidableEq ι] [DecidableEq Addr]
    (threadId_ : Fin n → ι) : System (State ι Addr Func n) (Label ι Addr Func n) where
  init s := (∀ i, (EventLoopThread.system ι Addr Func (threadId_ i)).init (s.loopThreadVec_ i)) ∧
    s.starting = (fun _ => none) ∧ s.started = fun _ => false
  step := step threadId_

inductive Does (threadId_ : Fin n → ι) (s : State ι Addr Func n) :
    Label ι Addr Func n → State ι Addr Func n → Prop
  | thread (i : Fin n) (l : EventLoopThread.Label ι Addr Func) (thread : EventLoopThread.State ι Addr Func) :
    EventLoopThread.step (threadId_ i) (s.loopThreadVec_ i) l = some thread →
    Does threadId_ s (.thread i l)
      { s with loopThreadVec_ := Function.update s.loopThreadVec_ i thread }
  | start (p : ι) : Does threadId_ s (.start p) (s.setStarting p (some (0, false)))
  | callRun (p : ι) (i : Fin n) (thread : EventLoopThread.State ι Addr Func) :
    s.starting p = some (i.val, false) →
    EventLoopThread.step (threadId_ i) (s.loopThreadVec_ i) (.run p) = some thread →
    Does threadId_ s (.callRun p) { s.setStarting p (some (i.val, true)) with
      loopThreadVec_ := Function.update s.loopThreadVec_ i thread }
  | runReturned (p : ι) (i : Fin n) : s.starting p = some (i.val, true) →
    (s.loopThreadVec_ i).member p = .idle →
    Does threadId_ s (.runReturned p) (s.setStarting p (some (i.val + 1, false)))
  | startReturns (p : ι) : s.starting p = some (n, false) →
    Does threadId_ s (.startReturns p)
      { s.setStarting p none with started := Function.update s.started p true }

theorem step_does {threadId_ : Fin n → ι} {s t : State ι Addr Func n} {l : Label ι Addr Func n}
    (h : step threadId_ s l = some t) : Does threadId_ s l t := by
  cases l with
  | thread i l =>
    simp only [step] at h
    split at h
    · cases h
    · obtain ⟨thread, hthread, rfl⟩ := Option.map_eq_some_iff.mp h
      exact .thread i l thread hthread
  | start p =>
    obtain ⟨_, h⟩ := Option.ite_none_right_eq_some.mp h
    cases h
    exact .start p
  | callRun p =>
    simp only [step] at h
    split at h
    · split at h
      · obtain ⟨thread, hthread, rfl⟩ := Option.map_eq_some_iff.mp h
        exact .callRun p ⟨_, ‹_›⟩ thread ‹_› hthread
      · cases h
    · cases h
  | runReturned p =>
    simp only [step] at h
    split at h
    · split at h
      · obtain ⟨hidle, h⟩ := Option.ite_none_right_eq_some.mp h
        cases h
        exact .runReturned p ⟨_, ‹_›⟩ ‹_› hidle
      · cases h
    · cases h
  | startReturns p =>
    obtain ⟨hs, h⟩ := Option.ite_none_right_eq_some.mp h
    cases h
    exact .startReturns p hs

def threadActs (s : State ι Addr Func n) :
    Label ι Addr Func n → List (Fin n × EventLoopThread.Label ι Addr Func)
  | .thread i l => [(i, l)]
  | .callRun p =>
    match s.starting p with
    | some (i, _) => if h : i < n then [(⟨i, h⟩, .run p)] else []
    | none => []
  | _ => []

def refinesThreads (threadId_ : Fin n → ι) :
    Refinement (system ι Addr Func threadId_)
      (System.pi fun i => EventLoopThread.system ι Addr Func (threadId_ i)) where
  abs s := s.loopThreadVec_
  acts := threadActs
  init _ hs := hs.1
  step s l t _ hst := by
    cases step_does hst with
    | thread i l thread hthread =>
      exact Option.bind_eq_some_iff.mpr ⟨_, Option.map_eq_some_iff.mpr ⟨thread, hthread, rfl⟩, rfl⟩
    | callRun p i thread hstarting hthread =>
      rw [threadActs, hstarting]
      dsimp only
      rw [dif_pos i.isLt]
      exact Option.bind_eq_some_iff.mpr ⟨_, Option.map_eq_some_iff.mpr ⟨thread, hthread, rfl⟩, rfl⟩
    | start | runReturned | startReturns => rfl

structure InStart (s : State ι Addr Func n) : Prop where
  passed : ∀ p i b, s.starting p = some (i, b) → ∀ j : Fin n, j.val < i → (s.loopThreadVec_ j).ran p = true
  running : ∀ p (i : Fin n), s.starting p = some (i.val, true) → (s.loopThreadVec_ i).calledRun p
  started : ∀ p, s.started p = true → ∀ j, (s.loopThreadVec_ j).ran p = true

omit [DecidableEq ι] [DecidableEq Addr] in
theorem InStart.thread {s : State ι Addr Func n} {i : Fin n} {thread : EventLoopThread.State ι Addr Func}
    (h : InStart s) (hran : ∀ p, (s.loopThreadVec_ i).ran p = true → thread.ran p = true)
    (hcalled : ∀ p, (s.loopThreadVec_ i).calledRun p → thread.calledRun p) :
    InStart { s with loopThreadVec_ := Function.update s.loopThreadVec_ i thread } := by
  have hall : ∀ (j : Fin n) p, (s.loopThreadVec_ j).ran p = true →
      (Function.update s.loopThreadVec_ i thread j).ran p = true := by
    intro j p hj
    by_cases hji : j = i
    · subst hji
      rw [Function.update_self]
      exact hran p hj
    · rwa [Function.update_of_ne hji]
  refine ⟨fun p k b hk j hj => hall j p (h.passed p k b hk j hj), fun p j hj => ?_,
    fun p hp j => hall j p (h.started p hp j)⟩
  dsimp only
  by_cases hji : j = i
  · subst hji
    rw [Function.update_self]
    exact hcalled p (h.running p j hj)
  · rw [Function.update_of_ne hji]
    exact h.running p j hj

omit [DecidableEq Addr] in
theorem InStart.setStarting {s : State ι Addr Func n} {p : ι} {c : Option (Nat × Bool)} (h : InStart s)
    (hpassed : ∀ i b, c = some (i, b) → ∀ j : Fin n, j.val < i → (s.loopThreadVec_ j).ran p = true)
    (hrunning : ∀ i : Fin n, c = some (i.val, true) → (s.loopThreadVec_ i).calledRun p) :
    InStart (s.setStarting p c) := by
  refine ⟨fun q i b hq j hj => ?_, fun q i hq => ?_, h.started⟩
  · by_cases hqp : q = p
    · subst hqp
      exact hpassed i b (by simpa [State.setStarting] using hq) j hj
    · exact h.passed q i b ((Function.update_of_ne hqp _ _).symm.trans hq) j hj
  · by_cases hqp : q = p
    · subst hqp
      exact hrunning i (by simpa [State.setStarting] using hq)
    · exact h.running q i ((Function.update_of_ne hqp _ _).symm.trans hq)

theorem InStart.step {threadId_ : Fin n → ι} {s t : State ι Addr Func n} {l : Label ι Addr Func n}
    (h : InStart s) (hst : Does threadId_ s l t) : InStart t := by
  cases hst with
  | thread i l thread hthread =>
    have hdoes := EventLoopThread.step_does hthread
    exact h.thread (EventLoopThread.ran_step hdoes) (EventLoopThread.calledRun_step hdoes)
  | start p => exact h.setStarting (by rintro i b ⟨⟩ j hj; cases hj) (by simp)
  | callRun p i thread hstarting hthread =>
    have hdoes := EventLoopThread.step_does hthread
    have hnext := h.thread (EventLoopThread.ran_step hdoes) (EventLoopThread.calledRun_step hdoes)
    refine hnext.setStarting ?_ ?_
    · rintro k b ⟨⟩ j hj
      exact hnext.passed p i false hstarting j hj
    · intro j hj
      obtain rfl : i = j := Fin.ext (by simpa using hj)
      dsimp only
      rw [Function.update_self]
      cases hdoes
      left
      simp [EventLoopThread.State.setMember, EventLoopThread.Member.inRun]
  | runReturned p i hstarting hidle =>
    refine h.setStarting ?_ (by simp)
    rintro k b ⟨⟩ j hj
    rcases Nat.lt_succ_iff_lt_or_eq.mp hj with hlt | heq
    · exact h.passed p i true hstarting j hlt
    · obtain rfl : j = i := Fin.ext heq
      exact (h.running p j hstarting).resolve_left (by rw [hidle]; exact Bool.false_ne_true)
  | startReturns p hstarting =>
    have hnone := h.setStarting (p := p) (c := none) (by simp) (by simp)
    refine ⟨hnone.passed, hnone.running, fun q hq j => ?_⟩
    by_cases hqp : q = p
    · subst hqp
      exact h.passed q n false hstarting j j.isLt
    · exact h.started q ((Function.update_of_ne hqp _ _).symm.trans hq) j

/-- Once `start` has returned in a thread, every loop of the pool has been entered, has called its
first functor and is past its store to `quit_`; no promise has thrown. -/
theorem start_enters_all {threadId_ : Fin n → ι} {s : State ι Addr Func n}
    (h : (system ι Addr Func threadId_).Reachable s) {p : ι} (hstarted : s.started p = true) (i : Fin n) :
    (s.loopThreadVec_ i).promiseForLoop_.isSet = true ∧
      (s.loopThreadVec_ i).loopFuncs.hasEntered = true ∧
      (s.loopThreadVec_ i).loop.phase ≠ .starting ∧
      (s.loopThreadVec_ i).loop.funcs_.dequeued ≠ [] ∧ (s.loopThreadVec_ i).futureError = false := by
  have hstart : InStart s := by
    refine h.invariant ?_ fun s l t hs hst => hs.step (step_does hst)
    rintro s ⟨-, hstarting, hstarted⟩
    refine ⟨fun p i b hp => ?_, fun p i hp => ?_, fun p hp => ?_⟩
    · rw [hstarting] at hp
      cases hp
    · rw [hstarting] at hp
      cases hp
    · rw [hstarted] at hp
      cases hp
  have hthread := System.reachable_pi ((refinesThreads threadId_).reachable h) i
  obtain ⟨hp, hi, he⟩ := EventLoopThread.Reachable.inv hthread
  obtain ⟨hset, hentered, hphase, hne⟩ := hp.past_run hi (Or.inr (hstart.started p hstarted i))
  exact ⟨hset, hentered, hphase, hne, he.errors⟩

def runs : List (EventLoopThread.Label Nat Nat Char) :=
  EventLoopThread.enters 2 ++ [.act .userReturns, .runReturns 2]

def startTwo : List (Label Nat Nat Char 2) :=
  (EventLoopThread.constructs 0 2).map (.thread 0) ++
    (EventLoopThread.constructs 1 2).map (.thread 1) ++
    [.start 2, .callRun 2] ++ runs.map (.thread 0) ++ [.runReturned 2, .callRun 2] ++
    runs.map (.thread 1) ++ [.runReturned 2, .startReturns 2]

theorem start_enters_all_two :
    ∃ s : State Nat Nat Char 2, (system Nat Nat Char Fin.val).run
        ⟨fun _ => EventLoopThread.init 0 2, fun _ => none, fun _ => false⟩ startTwo = some s ∧
      s.started 2 = true ∧ ∀ i, (s.loopThreadVec_ i).promiseForLoop_.isSet = true := by
  obtain ⟨s, hr, hs⟩ := System.exists_run (system Nat Nat Char (Fin.val : Fin 2 → Nat))
    ⟨fun _ => EventLoopThread.init 0 2, fun _ => none, fun _ => false⟩ startTwo
    (fun s => s.started 2) (by decide)
  have hinit : (system Nat Nat Char (Fin.val : Fin 2 → Nat)).Reachable
      ⟨fun _ => EventLoopThread.init 0 2, fun _ => none, fun _ => false⟩ :=
    .init ⟨fun i => ⟨0, 2, Nat.ne_of_gt i.isLt, rfl⟩, rfl, rfl⟩
  exact ⟨s, hr, hs, fun i => (start_enters_all (hinit.run hr) hs i).1⟩

/-! The loops in turn. -/

section Turns

variable {Thread : Type u} {Loop : Type v} (getLoop : Thread → Option Loop)

/-- What `getNextLoop` reads of the pool; a null pointer is `none`. -/
structure Loops (Thread : Type u) where
  loopThreadVec_ : List Thread
  loopIndex_ : BitVec 64

namespace Loops

def getNextLoop (s : Loops Thread) : Option Loop × Loops Thread :=
  if 0 < s.loopThreadVec_.length then
    let index := s.loopIndex_
    (s.loopThreadVec_[index.toNat % s.loopThreadVec_.length]?.bind getLoop,
      { s with loopIndex_ := index + 1 })
  else (none, s)

/-- The results of calls in any threads, in the order of their `fetch_add`. -/
def getNextLoops : Nat → Loops Thread → List (Option Loop)
  | 0, _ => []
  | m + 1, s => (s.getNextLoop getLoop).1 :: getNextLoops m (s.getNextLoop getLoop).2

theorem getNextLoops_eq {s : Loops Thread} (hn : 0 < s.loopThreadVec_.length) (m : Nat) :
    getNextLoops getLoop m s =
      (RoundRobin.residues (2 ^ 64) s.loopThreadVec_.length s.loopIndex_.toNat m).map
        fun i => s.loopThreadVec_[i]?.bind getLoop := by
  induction m generalizing s with
  | zero => rfl
  | succ m ih =>
    have hnext : (s.getNextLoop getLoop).2 = { s with loopIndex_ := s.loopIndex_ + 1 } := by
      rw [getNextLoop, if_pos hn]
    have hindex : (s.loopIndex_ + 1).toNat = (s.loopIndex_.toNat + 1) % 2 ^ 64 := BitVec.toNat_add _ _
    rw [getNextLoops, hnext, ih (s := { s with loopIndex_ := s.loopIndex_ + 1 }) hn, hindex,
      RoundRobin.residues_mod, RoundRobin.residues_succ, List.map_cons,
      Nat.mod_eq_of_lt s.loopIndex_.isLt, getNextLoop, if_pos hn]

/-- The pool's threads take turns: of two of them neither is handed out more than once more often
than the other, but for one time at each wrap of the counter, and never where their number
divides that of its values. -/
theorem getNextLoop_fair {s : Loops Thread} (hn : 0 < s.loopThreadVec_.length) (m : Nat) :
    ∃ turns : List Nat,
      getNextLoops getLoop m s = turns.map (fun i => s.loopThreadVec_[i]?.bind getLoop) ∧
      turns.length = m ∧ (∀ i ∈ turns, i < s.loopThreadVec_.length) ∧
      ∀ i j, i < s.loopThreadVec_.length → j < s.loopThreadVec_.length →
        turns.count i ≤ turns.count j + 1 + (s.loopIndex_.toNat + m) / 2 ^ 64 ∧
        (s.loopThreadVec_.length ∣ 2 ^ 64 → turns.count i ≤ turns.count j + 1) := by
  refine ⟨_, getNextLoops_eq getLoop hn m, ?_, fun i hi => RoundRobin.lt_of_mem_residues hn hi,
    fun i j hi hj => ?_⟩
  · rw [RoundRobin.residues, List.length_map, List.length_range]
  · obtain ⟨hle, hdvd⟩ := RoundRobin.count_residues_le (a := s.loopIndex_.toNat) (m := m)
      (Nat.two_pow_pos 64) hi hj
    exact ⟨Nat.le_trans hle (Nat.add_le_add_left (Nat.sub_le _ _) _), hdvd⟩

theorem getNextLoop_fair_wrap :
    getNextLoops some 5 ⟨['a', 'b', 'c'], BitVec.ofNat 64 (2 ^ 64 - 2)⟩ =
        [some 'c', some 'a', some 'a', some 'b', some 'c'] ∧
      ∃ turns : List Nat, turns.length = 5 ∧ turns.count 0 ≤ turns.count 1 + 2 := by
  refine ⟨by decide, ?_⟩
  obtain ⟨turns, -, hlength, -, hcount⟩ :=
    getNextLoop_fair (s := ⟨['a', 'b', 'c'], BitVec.ofNat 64 (2 ^ 64 - 2)⟩) some (by decide) 5
  exact ⟨turns, hlength, (hcount 0 1 (by decide) (by decide)).1⟩

end Loops

end Turns

end MysqlConnectPool.EventLoopThreadPool
