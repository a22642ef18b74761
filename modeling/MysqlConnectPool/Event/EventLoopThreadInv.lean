import MysqlConnectPool.Event.EventLoopThread

/-! What holds at every step of a loop's thread, from its start to its end: the promises are
used once, `run` comes back to a loop that runs, and the destructor's `quit` reaches it. -/

universe u v w

namespace MysqlConnectPool.EventLoopThread

open Library

variable {ι : Type w} {Addr : Type u} {Func : Type v} [DecidableEq ι] [DecidableEq Addr]

inductive Does (threadId_ : ι) (s : State ι Addr Func) : Label ι Addr Func → State ι Addr Func → Prop
  | queueFirst (newNode : Addr) (loop : EventLoop.State ι Addr (Functor Func)) :
    s.loopFuncs = .starting →
    EventLoop.step threadId_ s.loop (.queueInLoop threadId_ newNode .setPromiseForLoop) = some loop →
    Does threadId_ s (.queueFirst newNode) { s with loop, loopFuncs := .queueing }
  | setLoopPointer : s.loopFuncs = .queueing →
    Does threadId_ s .setLoopPointer { s with
      promiseForLoopPointer_ := { s.promiseForLoopPointer_ with isSet := true }
      futureError := s.futureError || s.promiseForLoopPointer_.isSet
      loopFuncs := .takingFuture }
  | getRunFuture : s.loopFuncs = .takingFuture →
    Does threadId_ s .getRunFuture { s with
      promiseForRun_ := { s.promiseForRun_ with retrieved := true }
      futureError := s.futureError || s.promiseForRun_.retrieved
      loopFuncs := .waiting }
  | enterLoop (loop : EventLoop.State ι Addr (Functor Func)) :
    s.loopFuncs = .waiting → s.promiseForRun_.isSet = true →
    EventLoop.step threadId_ s.loop .loop = some loop →
    Does threadId_ s .enterLoop { s with loop, loopFuncs := .looping }
  | clearLoop : s.loopFuncs = .looping → s.loop.phase = .outside →
    Does threadId_ s .clearLoop { s with loop_ := false, loopFuncs := .returned }
  | setsPromise (loop : EventLoop.State ι Addr (Functor Func)) : s.callsPromise = true →
    EventLoop.step threadId_ s.loop .userReturns = some loop →
    Does threadId_ s (.act .userReturns) { s.setLoopPromise with loop }
  | act (l : EventLoop.Label ι Addr (Functor Func)) (loop : EventLoop.State ι Addr (Functor Func)) :
    s.mayAct threadId_ l = true → (l = .userReturns → s.callsPromise = false) →
    EventLoop.step threadId_ s.loop l = some loop → Does threadId_ s (.act l) { s with loop }
  | constructed (p : ι) : s.member p = .constructing → s.promiseForLoopPointer_.isSet = true →
    Does threadId_ s (.constructed p) { s.setMember p .idle with
      promiseForLoopPointer_ := { s.promiseForLoopPointer_ with retrieved := true }
      futureError := s.futureError || s.promiseForLoopPointer_.retrieved
      loop_ := true
      alive := true }
  | run (p : ι) : s.mayEnter threadId_ p = true →
    Does threadId_ s (.run p) { s.setMember p (.onceFlag false) with inside := s.inside + 1 }
  | callsOnce (p : ι) (d : Bool) : s.member p = .onceFlag d → s.once_ = .idle →
    Does threadId_ s (.callOnce p) { s.setMember p (.takingFuture d) with once_ := .running p }
  | calledOnce (p : ι) (d : Bool) : s.member p = .onceFlag d → s.once_ = .done →
    Does threadId_ s (.callOnce p) (s.endRun p d)
  | getLoopFuture (p : ι) (d : Bool) : s.member p = .takingFuture d →
    Does threadId_ s (.getLoopFuture p) { s.setMember p (.settingRun d) with
      promiseForLoop_ := { s.promiseForLoop_ with retrieved := true }
      futureError := s.futureError || s.promiseForLoop_.retrieved }
  | setRun (p : ι) (d : Bool) : s.member p = .settingRun d →
    Does threadId_ s (.setRun p) { s.setMember p (.awaitingLoop d) with
      promiseForRun_ := { s.promiseForRun_ with isSet := true }
      futureError := s.futureError || s.promiseForRun_.isSet }
  | runReturns (p : ι) (d : Bool) : s.member p = .awaitingLoop d → s.promiseForLoop_.isSet = true →
    Does threadId_ s (.runReturns p) { s.endRun p d with once_ := .done }
  | destroy (p : ι) : s.mayEnter threadId_ p = true → s.inside = 0 →
    Does threadId_ s (.destroy p) { s.setMember p (.onceFlag true) with alive := false }
  | lock (p : ι) : s.member p = .locking →
    Does threadId_ s (.lock p) (s.setMember p (if s.loop_ then .quitting else .joining true))
  | quit (p : ι) (loop : EventLoop.State ι Addr (Functor Func)) : s.member p = .quitting →
    EventLoop.step threadId_ s.loop (.quit p) = some loop →
    Does threadId_ s (.quit p) { s.setMember p (.joining true) with loop, quitStored := true }
  | wait (p : ι) : s.mayEnter threadId_ p = true → s.joinable = true →
    Does threadId_ s (.wait p) { s.setMember p (.joining false) with
      joinable := false, inside := s.inside + 1 }
  | joined (p : ι) : s.member p = .joining true →
    s.loopFuncs = .returned ∨ s.joinable = false →
    Does threadId_ s (.join p) { s.setMember p .idle with joinable := false }
  | waited (p : ι) : s.member p = .joining false → s.loopFuncs = .returned →
    Does threadId_ s (.join p) { s.setMember p .idle with inside := s.inside - 1 }

theorem step_does {threadId_ : ι} {s t : State ι Addr Func} {l : Label ι Addr Func}
    (h : step threadId_ s l = some t) : Does threadId_ s l t := by
  cases l with
  | queueFirst newNode =>
    obtain ⟨hs, h⟩ := Option.ite_none_right_eq_some.mp h
    obtain ⟨loop, hloop, rfl⟩ := Option.map_eq_some_iff.mp h
    exact .queueFirst newNode loop hs hloop
  | setLoopPointer =>
    obtain ⟨hs, h⟩ := Option.ite_none_right_eq_some.mp h
    cases h
    exact .setLoopPointer hs.1
  | getRunFuture =>
    obtain ⟨hs, h⟩ := Option.ite_none_right_eq_some.mp h
    cases h
    exact .getRunFuture hs
  | enterLoop =>
    obtain ⟨hs, h⟩ := Option.ite_none_right_eq_some.mp h
    obtain ⟨loop, hloop, rfl⟩ := Option.map_eq_some_iff.mp h
    exact .enterLoop loop hs.1 hs.2 hloop
  | clearLoop =>
    obtain ⟨hs, h⟩ := Option.ite_none_right_eq_some.mp h
    cases h
    exact .clearLoop hs.1 hs.2
  | act l =>
    obtain ⟨hs, h⟩ := Option.ite_none_right_eq_some.mp h
    obtain ⟨loop, hloop, rfl⟩ := Option.map_eq_some_iff.mp h
    cases l with
    | userReturns =>
      dsimp only
      split
      · exact .setsPromise loop ‹_› hloop
      · exact .act .userReturns loop hs (fun _ => Bool.eq_false_iff.mpr ‹_›) hloop
    | queueInLoop | link | testLooping | quit | testThread | wakeup | loop | pollReturns
      | wakeupRead => exact .act _ loop hs nofun hloop
  | constructed p =>
    obtain ⟨hs, h⟩ := Option.ite_none_right_eq_some.mp h
    cases h
    exact .constructed p hs.1 hs.2
  | run p =>
    obtain ⟨hs, h⟩ := Option.ite_none_right_eq_some.mp h
    cases h
    exact .run p hs
  | callOnce p =>
    simp only [step] at h
    split at h
    · cases h
      exact .callsOnce p _ ‹_› ‹_›
    · cases h
      exact .calledOnce p _ ‹_› ‹_›
    · cases h
  | getLoopFuture p =>
    simp only [step] at h
    split at h <;> cases h
    exact .getLoopFuture p _ ‹_›
  | setRun p =>
    simp only [step] at h
    split at h <;> cases h
    exact .setRun p _ ‹_›
  | runReturns p =>
    simp only [step] at h
    split at h
    · obtain ⟨hset, h⟩ := Option.ite_none_right_eq_some.mp h
      cases h
      exact .runReturns p _ ‹_› hset
    · cases h
  | destroy p =>
    obtain ⟨hs, h⟩ := Option.ite_none_right_eq_some.mp h
    cases h
    exact .destroy p hs.1 hs.2
  | lock p =>
    obtain ⟨hs, h⟩ := Option.ite_none_right_eq_some.mp h
    cases h
    exact .lock p hs
  | quit p =>
    obtain ⟨hs, h⟩ := Option.ite_none_right_eq_some.mp h
    obtain ⟨loop, hloop, rfl⟩ := Option.map_eq_some_iff.mp h
    exact .quit p loop hs hloop
  | wait p =>
    obtain ⟨hs, h⟩ := Option.ite_none_right_eq_some.mp h
    cases h
    exact .wait p hs.1 hs.2
  | join p =>
    simp only [step] at h
    split at h
    next d hm =>
      obtain ⟨⟨-, hs⟩, h⟩ := Option.ite_none_right_eq_some.mp h
      cases d with
      | true =>
        cases h
        exact .joined p hm (hs.imp_right (fun hs => hs.2))
      | false =>
        cases h
        exact .waited p hm (hs.resolve_right (fun hs => Bool.false_ne_true hs.1))
    next => cases h

def loopActs (threadId_ : ι) : Label ι Addr Func → List (EventLoop.Label ι Addr (Functor Func))
  | .queueFirst newNode => [.queueInLoop threadId_ newNode .setPromiseForLoop]
  | .enterLoop => [.loop]
  | .act l => [l]
  | .quit p => [.quit p]
  | _ => []

theorem run_loopActs {threadId_ : ι} {s t : State ι Addr Func} {l : Label ι Addr Func}
    (h : Does threadId_ s l t) :
    (EventLoop.system ι Addr (Functor Func) threadId_).run s.loop (loopActs threadId_ l) =
      some t.loop := by
  cases h with
  | queueFirst newNode loop _ hloop => exact Option.bind_eq_some_iff.mpr ⟨loop, hloop, rfl⟩
  | enterLoop loop _ _ hloop => exact Option.bind_eq_some_iff.mpr ⟨loop, hloop, rfl⟩
  | setsPromise loop _ hloop => exact Option.bind_eq_some_iff.mpr ⟨loop, hloop, rfl⟩
  | act l loop _ _ hloop => exact Option.bind_eq_some_iff.mpr ⟨loop, hloop, rfl⟩
  | quit p loop _ hloop => exact Option.bind_eq_some_iff.mpr ⟨loop, hloop, rfl⟩
  | calledOnce p d | runReturns p d => cases d <;> rfl
  | setLoopPointer | getRunFuture | clearLoop | constructed | run | callsOnce | getLoopFuture
    | setRun | destroy | lock | wait | joined | waited => rfl

def refinesLoop (threadId_ : ι) :
    Refinement (system ι Addr Func threadId_) (EventLoop.system ι Addr (Functor Func) threadId_) where
  abs s := s.loop
  acts _ := loopActs threadId_
  init := by
    rintro _ ⟨front, creator, -, rfl⟩
    exact ⟨front, rfl⟩
  step _ _ _ _ hst := run_loopActs (step_does hst)

def LoopFuncs.hasSetPointer : LoopFuncs → Bool
  | .starting | .queueing => false
  | .takingFuture | .waiting | .looping | .returned => true

def LoopFuncs.hasRunFuture : LoopFuncs → Bool
  | .starting | .queueing | .takingFuture => false
  | .waiting | .looping | .returned => true

def LoopFuncs.hasEntered : LoopFuncs → Bool
  | .starting | .queueing | .takingFuture | .waiting => false
  | .looping | .returned => true

namespace Member

def inOnce : Member → Bool
  | .takingFuture _ | .settingRun _ | .awaitingLoop _ => true
  | _ => false

def hasLoopFuture : Member → Bool
  | .settingRun _ | .awaitingLoop _ => true
  | _ => false

def hasSetRun : Member → Bool
  | .awaitingLoop _ => true
  | _ => false

/-- The destructor has come back from `run`. -/
def pastRun : Member → Bool
  | .locking | .quitting | .joining true => true
  | _ => false

end Member

/-- The flag of `call_once` tells which thread works on the promises of `run`, and how far it
is. -/
def State.OnceAgrees (s : State ι Addr Func) : Prop :=
  match s.once_ with
  | .idle => s.promiseForLoop_.retrieved = false ∧ s.promiseForRun_.isSet = false ∧
      ∀ p, (s.member p).inOnce = false
  | .running p => s.promiseForLoop_.retrieved = (s.member p).hasLoopFuture ∧
      s.promiseForRun_.isSet = (s.member p).hasSetRun ∧ ∀ q, (s.member q).inOnce = true ↔ q = p
  | .done => s.promiseForLoop_.isSet = true ∧ s.promiseForRun_.isSet = true ∧
      ∀ p, (s.member p).inOnce = false

structure Promises (s : State ι Addr Func) : Prop where
  pointerSet : s.promiseForLoopPointer_.isSet = s.loopFuncs.hasSetPointer
  runRetrieved : s.promiseForRun_.retrieved = s.loopFuncs.hasRunFuture
  constructing : ∀ p, s.member p = .constructing → s.promiseForLoopPointer_.retrieved = false ∧
    s.alive = false ∧ ∀ q, q ≠ p → s.member q = .idle
  once : s.OnceAgrees
  pastRun : ∀ p, (s.member p).pastRun = true ∨ s.ran p = true → s.once_ = .done
  entered : s.loopFuncs.hasEntered = true → s.promiseForRun_.isSet = true

omit [DecidableEq ι] [DecidableEq Addr] in
theorem State.OnceAgrees.frame {s t : State ι Addr Func} (h : s.OnceAgrees) (honce : t.once_ = s.once_)
    (hretrieved : t.promiseForLoop_.retrieved = s.promiseForLoop_.retrieved)
    (hloop : s.promiseForLoop_.isSet = true → t.promiseForLoop_.isSet = true)
    (hrun : t.promiseForRun_.isSet = s.promiseForRun_.isSet)
    (hmember : ∀ q, t.member q = s.member q ∨
      (s.member q).inOnce = false ∧ (t.member q).inOnce = false) : t.OnceAgrees := by
  have hin : ∀ q, (t.member q).inOnce = (s.member q).inOnce := by
    intro q
    rcases hmember q with hq | ⟨hq, hq'⟩
    · rw [hq]
    · rw [hq, hq']
  unfold State.OnceAgrees at h ⊢
  rw [honce]
  cases ho : s.once_ with
  | idle =>
    simp only [ho] at h ⊢
    exact ⟨hretrieved.trans h.1, hrun.trans h.2.1, fun p => (hin p).trans (h.2.2 p)⟩
  | running p =>
    simp only [ho] at h ⊢
    have hp : t.member p = s.member p := by
      refine (hmember p).resolve_right fun hno => ?_
      rw [(h.2.2 p).mpr rfl] at hno
      cases hno.1
    rw [hp, hretrieved, hrun]
    exact ⟨h.1, h.2.1, fun q => by rw [hin q]; exact h.2.2 q⟩
  | done =>
    simp only [ho] at h ⊢
    exact ⟨hloop h.1, hrun.trans h.2.1, fun p => (hin p).trans (h.2.2 p)⟩

omit [DecidableEq Addr] in
theorem State.OnceAgrees.setMember {s t : State ι Addr Func} {p : ι} {m : Member} (h : s.OnceAgrees)
    (hmember : t.member = Function.update s.member p m) (hs : (s.member p).inOnce = false)
    (hm : m.inOnce = false) (honce : t.once_ = s.once_)
    (hloop : t.promiseForLoop_ = s.promiseForLoop_)
    (hrun : t.promiseForRun_.isSet = s.promiseForRun_.isSet) : t.OnceAgrees := by
  refine h.frame honce (by rw [hloop]) (fun hset => hloop ▸ hset) hrun fun q => ?_
  rw [hmember]
  by_cases hq : q = p
  · subst hq
    exact Or.inr ⟨hs, by rw [Function.update_self]; exact hm⟩
  · exact Or.inl (Function.update_of_ne hq _ _)

omit [DecidableEq ι] [DecidableEq Addr] in
theorem State.OnceAgrees.running {s : State ι Addr Func} {p : ι} (h : s.OnceAgrees)
    (hp : (s.member p).inOnce = true) : s.once_ = .running p := by
  unfold State.OnceAgrees at h
  cases ho : s.once_ with
  | idle | done =>
    simp only [ho] at h
    rw [h.2.2 p] at hp
    cases hp
  | running q =>
    simp only [ho] at h
    rw [(h.2.2 p).mp hp]

omit [DecidableEq ι] [DecidableEq Addr] in
theorem Promises.not_constructing {s : State ι Addr Func} {p : ι} (h : Promises s)
    (hp : s.alive = true ∨ s.member p ≠ .idle ∧ s.member p ≠ .constructing) (q : ι) :
    s.member q ≠ .constructing := by
  intro hq
  obtain ⟨-, halive, hothers⟩ := h.constructing q hq
  rcases hp with hp | ⟨hidle, hconstructing⟩
  · rw [halive] at hp
    cases hp
  · by_cases hpq : p = q
    · exact hconstructing (hpq ▸ hq)
    · exact hidle (hothers p hpq)

omit [DecidableEq Addr] in
theorem Promises.setMember {s t : State ι Addr Func} {p : ι} {m : Member} (h : Promises s)
    (hp : s.alive = true ∨ s.member p ≠ .idle ∧ s.member p ≠ .constructing) (hm : m ≠ .constructing)
    (hmember : t.member = Function.update s.member p m) (hfuncs : t.loopFuncs = s.loopFuncs)
    (hpointer : t.promiseForLoopPointer_ = s.promiseForLoopPointer_)
    (hretrieved : t.promiseForRun_.retrieved = s.promiseForRun_.retrieved)
    (hrun : s.promiseForRun_.isSet = true → t.promiseForRun_.isSet = true) (honce : t.OnceAgrees)
    (hdone : s.once_ = .done → t.once_ = .done) (hpast : m.pastRun = true → t.once_ = .done)
    (hran : ∀ q, t.ran q = true → s.ran q = true ∨ t.once_ = .done) : Promises t where
  pointerSet := by rw [hpointer, hfuncs, h.pointerSet]
  runRetrieved := by rw [hretrieved, hfuncs, h.runRetrieved]
  constructing q hq := by
    rw [hmember] at hq
    by_cases hqp : q = p
    · subst hqp
      rw [Function.update_self] at hq
      exact absurd hq hm
    · rw [Function.update_of_ne hqp] at hq
      exact absurd hq (h.not_constructing hp q)
  once := honce
  pastRun q hq := by
    rcases hq with hq | hq
    · rw [hmember] at hq
      by_cases hqp : q = p
      · subst hqp
        rw [Function.update_self] at hq
        exact hpast hq
      · rw [Function.update_of_ne hqp] at hq
        exact hdone (h.pastRun q (Or.inl hq))
    · exact (hran q hq).elim (fun hq => hdone (h.pastRun q (Or.inr hq))) id
  entered hin := hrun (h.entered (hfuncs ▸ hin))

omit [DecidableEq ι] [DecidableEq Addr] in
theorem Promises.loopFuncs {s t : State ι Addr Func} (h : Promises s) (hmember : t.member = s.member)
    (halive : t.alive = s.alive) (honce : t.once_ = s.once_) (hran : t.ran = s.ran)
    (hloop : t.promiseForLoop_.retrieved = s.promiseForLoop_.retrieved)
    (hset : s.promiseForLoop_.isSet = true → t.promiseForLoop_.isSet = true)
    (hrun : t.promiseForRun_.isSet = s.promiseForRun_.isSet)
    (hpointer : t.promiseForLoopPointer_.retrieved = s.promiseForLoopPointer_.retrieved)
    (hpointerSet : t.promiseForLoopPointer_.isSet = t.loopFuncs.hasSetPointer)
    (hrunRetrieved : t.promiseForRun_.retrieved = t.loopFuncs.hasRunFuture)
    (hentered : t.loopFuncs.hasEntered = true → t.promiseForRun_.isSet = true) : Promises t where
  pointerSet := hpointerSet
  runRetrieved := hrunRetrieved
  constructing q hq := by
    rw [hpointer, halive, hmember]
    exact h.constructing q (hmember ▸ hq)
  once := h.once.frame honce hloop hset hrun (fun q => Or.inl (by rw [hmember]))
  pastRun q hq := by
    rw [honce]
    exact h.pastRun q (by rwa [hmember, hran] at hq)
  entered := hentered

theorem Promises.init (front : Addr) (creator : ι) :
    Promises (init front creator : State ι Addr Func) where
  pointerSet := rfl
  runRetrieved := rfl
  constructing p hp := by
    have hpc : p = creator := by
      by_contra hne
      simp [EventLoopThread.init, Function.update_of_ne hne] at hp
    subst hpc
    exact ⟨rfl, rfl, fun q hq => by
      simp [EventLoopThread.init, Function.update_of_ne hq]⟩
  once := by
    refine ⟨rfl, rfl, fun p => ?_⟩
    by_cases hp : p = creator
    · subst hp
      simp [EventLoopThread.init, Member.inOnce]
    · simp [EventLoopThread.init, Function.update_of_ne hp, Member.inOnce]
  pastRun p hp := by
    by_cases hpc : p = creator
    · subst hpc
      simp [EventLoopThread.init, Member.pastRun] at hp
    · simp [EventLoopThread.init, Function.update_of_ne hpc, Member.pastRun] at hp
  entered := nofun

omit [DecidableEq Addr] in
theorem mayEnter_iff {threadId_ : ι} {s : State ι Addr Func} {p : ι} :
    s.mayEnter threadId_ p = true ↔
      s.alive = true ∧ p ≠ threadId_ ∧ s.member p = .idle ∧ s.loop.caller p = .idle := by
  simp [State.mayEnter]

omit [DecidableEq Addr] in
theorem Promises.endRun {s t : State ι Addr Func} {p : ι} {d : Bool} (h : Promises s)
    (hp : s.member p ≠ .idle ∧ s.member p ≠ .constructing) (ht : t = { s.endRun p d with once_ := .done })
    (honce : t.OnceAgrees) : Promises t := by
  subst ht
  cases d with
  | true =>
    exact h.setMember (p := p) (m := .locking) (Or.inr hp) nofun rfl rfl rfl rfl id honce
      (fun _ => rfl) (fun _ => rfl) (fun q hq => Or.inl hq)
  | false =>
    exact h.setMember (p := p) (m := .idle) (Or.inr hp) nofun rfl rfl rfl rfl id honce
      (fun _ => rfl) nofun (fun q _ => Or.inr rfl)

theorem Promises.step {threadId_ : ι} {s t : State ι Addr Func} {l : Label ι Addr Func} (h : Promises s)
    (hst : Does threadId_ s l t) : Promises t := by
  have hactive : ∀ {p m}, s.member p = m → m ≠ .idle → m ≠ .constructing →
      s.alive = true ∨ s.member p ≠ .idle ∧ s.member p ≠ .constructing := by
    rintro p m rfl hidle hconstructing
    exact Or.inr ⟨hidle, hconstructing⟩
  cases hst with
  | queueFirst newNode loop hs =>
    exact h.loopFuncs rfl rfl rfl rfl rfl id rfl rfl (h.pointerSet.trans (by rw [hs]; rfl))
      (h.runRetrieved.trans (by rw [hs]; rfl)) nofun
  | setLoopPointer hs =>
    exact h.loopFuncs rfl rfl rfl rfl rfl id rfl rfl rfl (h.runRetrieved.trans (by rw [hs]; rfl)) nofun
  | getRunFuture hs =>
    exact h.loopFuncs rfl rfl rfl rfl rfl id rfl rfl (h.pointerSet.trans (by rw [hs]; rfl)) rfl nofun
  | enterLoop loop hs hset =>
    exact h.loopFuncs rfl rfl rfl rfl rfl id rfl rfl (h.pointerSet.trans (by rw [hs]; rfl))
      (h.runRetrieved.trans (by rw [hs]; rfl)) (fun _ => hset)
  | clearLoop hs =>
    exact h.loopFuncs rfl rfl rfl rfl rfl id rfl rfl (h.pointerSet.trans (by rw [hs]; rfl))
      (h.runRetrieved.trans (by rw [hs]; rfl)) (fun _ => h.entered (by rw [hs]; rfl))
  | setsPromise loop =>
    exact h.loopFuncs rfl rfl rfl rfl rfl (fun _ => rfl) rfl rfl h.pointerSet h.runRetrieved h.entered
  | act l loop =>
    exact h.loopFuncs rfl rfl rfl rfl rfl id rfl rfl h.pointerSet h.runRetrieved h.entered
  | constructed p hs hset =>
    obtain ⟨-, halive, hothers⟩ := h.constructing p hs
    have hidle : ∀ q, (Function.update s.member p .idle) q = .idle := by
      intro q
      by_cases hq : q = p
      · subst hq
        exact Function.update_self _ _ _
      · rw [Function.update_of_ne hq, hothers q hq]
    refine ⟨h.pointerSet, h.runRetrieved, fun q hq => ?_, ?_, fun q hq => ?_, h.entered⟩
    · exact absurd ((hidle q).symm.trans hq) nofun
    · exact h.once.setMember rfl (by rw [hs]; rfl) rfl rfl rfl rfl
    · refine h.pastRun q (hq.imp_left fun hq => ?_)
      exact absurd ((congrArg Member.pastRun (hidle q)).symm.trans hq) nofun
  | run p hs =>
    obtain ⟨halive, -, hidle, -⟩ := mayEnter_iff.mp hs
    exact h.setMember (p := p) (m := .onceFlag false) (Or.inl halive) nofun rfl rfl rfl rfl id
      (h.once.setMember rfl (by rw [hidle]; rfl) rfl rfl rfl rfl) id nofun (fun q hq => Or.inl hq)
  | callsOnce p d hs ho =>
    have honce := h.once
    simp only [State.OnceAgrees, ho] at honce
    refine h.setMember (p := p) (m := .takingFuture d) (hactive hs nofun nofun) nofun rfl rfl rfl rfl id
      ?_ ?_ nofun (fun q hq => Or.inl hq)
    · refine ⟨honce.1.trans ?_, honce.2.1.trans ?_, fun q => ?_⟩
      · exact congrArg Member.hasLoopFuture (Function.update_self p (.takingFuture d) s.member).symm
      · exact congrArg Member.hasSetRun (Function.update_self p (.takingFuture d) s.member).symm
      · change (Function.update s.member p (.takingFuture d) q).inOnce = true ↔ q = p
        by_cases hq : q = p
        · subst hq
          simp [Member.inOnce]
        · simp [honce.2.2 q, hq]
    · rw [ho]
      exact nofun
  | calledOnce p d hs ho =>
    have hsame : s.endRun p d = { s.endRun p d with once_ := .done } := by
      cases d <;> simp [State.endRun, State.setMember, ho]
    refine h.endRun (d := d) (by rw [hs]; exact ⟨nofun, nofun⟩) hsame ?_
    cases d <;> exact h.once.setMember rfl (by rw [hs]; rfl) rfl rfl rfl rfl
  | getLoopFuture p d hs =>
    have ho := h.once.running (p := p) (by rw [hs]; rfl)
    have honce := h.once
    simp only [State.OnceAgrees, ho, hs] at honce
    refine h.setMember (p := p) (m := .settingRun d) (hactive hs nofun nofun) nofun rfl rfl rfl rfl id
      ?_ id nofun (fun q hq => Or.inl hq)
    simp only [State.OnceAgrees, State.setMember, ho]
    refine ⟨by simp [Member.hasLoopFuture], honce.2.1.trans (by simp [Member.hasSetRun]), fun q => ?_⟩
    rw [← honce.2.2 q]
    by_cases hq : q = p
    · subst hq
      simp [hs, Member.inOnce]
    · rw [Function.update_of_ne hq]
  | setRun p d hs =>
    have ho := h.once.running (p := p) (by rw [hs]; rfl)
    have honce := h.once
    simp only [State.OnceAgrees, ho, hs] at honce
    refine h.setMember (p := p) (m := .awaitingLoop d) (hactive hs nofun nofun) nofun rfl rfl rfl rfl
      (fun _ => rfl) ?_ id nofun (fun q hq => Or.inl hq)
    simp only [State.OnceAgrees, State.setMember, ho]
    refine ⟨honce.1.trans (by simp [Member.hasLoopFuture]), by simp [Member.hasSetRun], fun q => ?_⟩
    rw [← honce.2.2 q]
    by_cases hq : q = p
    · subst hq
      simp [hs, Member.inOnce]
    · rw [Function.update_of_ne hq]
  | runReturns p d hs hset =>
    have ho := h.once.running (p := p) (by rw [hs]; rfl)
    have honce := h.once
    simp only [State.OnceAgrees, ho, hs] at honce
    refine h.endRun (d := d) (by rw [hs]; exact ⟨nofun, nofun⟩) rfl ?_
    have hout : ∀ m : Member, m.inOnce = false → ∀ q, (Function.update s.member p m q).inOnce = false := by
      intro m hm q
      by_cases hq : q = p
      · subst hq
        rwa [Function.update_self]
      · rw [Function.update_of_ne hq]
        exact Bool.eq_false_iff.mpr (mt (honce.2.2 q).mp hq)
    cases d <;> exact ⟨hset, honce.2.1, hout _ rfl⟩
  | destroy p hs =>
    obtain ⟨halive, -, hidle, -⟩ := mayEnter_iff.mp hs
    exact h.setMember (p := p) (m := .onceFlag true) (Or.inl halive) nofun rfl rfl rfl rfl id
      (h.once.setMember rfl (by rw [hidle]; rfl) rfl rfl rfl rfl) id nofun (fun q hq => Or.inl hq)
  | lock p hs =>
    have hdone := h.pastRun p (Or.inl (by rw [hs]; rfl))
    refine h.setMember (hactive hs nofun nofun) ?_ rfl rfl rfl rfl id
      (h.once.setMember rfl (by rw [hs]; rfl) ?_ rfl rfl rfl) id (fun _ => hdone) (fun q hq => Or.inl hq)
    · split <;> exact nofun
    · split <;> rfl
  | quit p loop hs =>
    have hdone := h.pastRun p (Or.inl (by rw [hs]; rfl))
    exact h.setMember (p := p) (m := .joining true) (hactive hs nofun nofun) nofun rfl rfl rfl rfl id
      (h.once.setMember rfl (by rw [hs]; rfl) rfl rfl rfl rfl) id (fun _ => hdone)
      (fun q hq => Or.inl hq)
  | wait p hs =>
    obtain ⟨halive, -, hidle, -⟩ := mayEnter_iff.mp hs
    exact h.setMember (p := p) (m := .joining false) (Or.inl halive) nofun rfl rfl rfl rfl id
      (h.once.setMember rfl (by rw [hidle]; rfl) rfl rfl rfl rfl) id nofun (fun q hq => Or.inl hq)
  | joined p hs | waited p hs =>
    exact h.setMember (p := p) (m := .idle) (hactive hs nofun nofun) nofun rfl rfl rfl rfl id
      (h.once.setMember rfl (by rw [hs]; rfl) rfl rfl rfl rfl) id nofun (fun q hq => Or.inl hq)

omit [DecidableEq ι] [DecidableEq Addr] in
theorem callsPromise_iff {s : State ι Addr Func} :
    s.callsPromise = true ↔
      s.loop.phase = .calling ∧ s.loop.funcs_.dequeued.getLast? = some .setPromiseForLoop := by
  unfold State.callsPromise
  split <;> simp_all

def State.First (threadId_ : ι) (s : State ι Addr Func) : Prop :=
  s.loopFuncs = .starting ∧ s.loop.funcs_.exchanged = [] ∨
    s.loopFuncs ≠ .starting ∧ ∃ newNode es,
      s.loop.funcs_.exchanged = ⟨threadId_, newNode, .setPromiseForLoop⟩ :: es ∧
        ∀ e ∈ es, ∃ f, e.value = .user f

structure Inside (threadId_ : ι) (s : State ι Addr Func) : Prop where
  loop : (EventLoop.system ι Addr (Functor Func) threadId_).Reachable s.loop
  before : s.loopFuncs.hasEntered = false →
    s.loop.phase = .outside ∧ s.loop.funcs_.dequeued = []
  returned : s.loopFuncs = .returned → s.loop.phase = .outside
  starting : s.loop.phase = .starting → s.loop.funcs_.dequeued = []
  first : s.First threadId_
  isSet : s.promiseForLoop_.isSet = true ↔ s.loop.funcs_.dequeued ≠ [] ∧ s.callsPromise = false

theorem Inside.inHand {threadId_ : ι} {s : State ι Addr Func} (h : Inside threadId_ s)
    {f : Functor Func} (hf : s.loop.funcs_.consumer.inHand = [f]) :
    (s.loop.funcs_.dequeued = [] → f = .setPromiseForLoop) ∧
      (s.loop.funcs_.dequeued ≠ [] → ∃ g, f = .user g) := by
  obtain ⟨done, rest, hi⟩ := MPSCQueue.exists_inv (EventLoop.Reachable.callsAgree h.loop).queue
  have hdone := hi.dequeued
  have hexchanged := hi.exchanged
  rw [hf] at hdone
  rcases h.first with ⟨-, hnone⟩ | ⟨-, newNode, es, hsome, husers⟩
  · rw [hnone] at hexchanged
    obtain ⟨rfl, -⟩ := List.append_eq_nil_iff.mp hexchanged.symm
    exact absurd hdone.symm (by simp)
  rw [hsome] at hexchanged
  cases done with
  | nil => exact absurd hdone.symm (by simp)
  | cons e done =>
    obtain ⟨rfl, hes⟩ : _ = e ∧ es = done ++ rest := by simpa using hexchanged
    constructor
    · intro hempty
      rw [hempty] at hdone
      exact (List.cons.inj hdone).1.symm
    · intro hne
      obtain ⟨g, gs, hgs⟩ := List.exists_cons_of_ne_nil hne
      rw [hgs] at hdone
      have htail : done.map (·.value) = gs ++ [f] := (List.cons.inj hdone).2
      have hmem : f ∈ done.map (·.value) := by
        rw [htail]
        exact List.mem_append_right _ (List.mem_singleton_self f)
      obtain ⟨e, he, rfl⟩ := List.mem_map.mp hmem
      exact husers e (hes ▸ List.mem_append_left _ he)

theorem Inside.init {threadId_ creator : ι} (front : Addr) :
    Inside threadId_ (init front creator : State ι Addr Func) where
  loop := .init ⟨front, rfl⟩
  before _ := ⟨rfl, rfl⟩
  returned := nofun
  starting := nofun
  first := Or.inl ⟨rfl, rfl⟩
  isSet := by simp [EventLoopThread.init, EventLoop.init, MPSCQueue.init]

theorem Inside.frame {threadId_ : ι} {s t : State ι Addr Func} (h : Inside threadId_ s)
    (hloop : t.loop = s.loop) (hset : t.promiseForLoop_.isSet = s.promiseForLoop_.isSet)
    (hbefore : t.loopFuncs.hasEntered = false → s.loopFuncs.hasEntered = false)
    (hreturned : t.loopFuncs = .returned → s.loop.phase = .outside)
    (hstarting : t.loopFuncs = .starting ↔ s.loopFuncs = .starting) : Inside threadId_ t where
  loop := hloop ▸ h.loop
  before ht := hloop ▸ h.before (hbefore ht)
  returned ht := hloop ▸ hreturned ht
  starting := by
    rw [hloop]
    exact h.starting
  first := by
    unfold State.First
    rw [hloop, Ne, hstarting]
    exact h.first
  isSet := by
    have hcalls : t.callsPromise = s.callsPromise := by rw [State.callsPromise, hloop, State.callsPromise]
    rw [hset, hloop, hcalls]
    exact h.isSet

theorem Inside.calls {threadId_ : ι} {s t : State ι Addr Func}
    {l : EventLoop.Label ι Addr (Functor Func)} (h : Inside threadId_ s)
    (hcalls : EventLoop.Calls s.loop l t.loop)
    (hloop : (EventLoop.system ι Addr (Functor Func) threadId_).Reachable t.loop)
    (hset : t.promiseForLoop_.isSet = s.promiseForLoop_.isSet)
    (hbefore : t.loopFuncs.hasEntered = s.loopFuncs.hasEntered)
    (hreturned : t.loopFuncs = .returned → s.loopFuncs = .returned) (hfirst : t.First threadId_) :
    Inside threadId_ t where
  loop := hloop
  before ht := by
    rw [hcalls.phase, hcalls.dequeued]
    exact h.before (hbefore ▸ ht)
  returned ht := hcalls.phase.trans (h.returned (hreturned ht))
  starting := by
    rw [hcalls.phase, hcalls.dequeued]
    exact h.starting
  first := hfirst
  isSet := by
    have hsame : t.callsPromise = s.callsPromise := by
      rw [State.callsPromise, hcalls.phase, hcalls.dequeued, State.callsPromise]
    rw [hset, hcalls.dequeued, hsame]
    exact h.isSet

theorem Inside.first_act {threadId_ : ι} {s : State ι Addr Func} {loop : EventLoop.State ι Addr (Functor Func)}
    {l : EventLoop.Label ι Addr (Functor Func)} (h : Inside threadId_ s) (hp : Promises s)
    (hmay : s.mayAct threadId_ l = true)
    (hexchanged : loop.funcs_.exchanged = s.loop.funcs_.exchanged ++ l.enqueue.toList) :
    State.First threadId_ { s with loop } := by
  cases hl : l.enqueue with
  | none =>
    rw [hl, Option.toList_none, List.append_nil] at hexchanged
    simp only [State.First, hexchanged]
    exact h.first
  | some e =>
    obtain ⟨p, newNode, cb, rfl, rfl⟩ : ∃ p newNode cb, l = .queueInLoop p newNode cb ∧
        e = ⟨p, newNode, cb⟩ := by
      cases l <;> simp_all [EventLoop.Label.enqueue]
    cases cb with
    | setPromiseForLoop => exact absurd hmay nofun
    | user f =>
      have hstarted : s.loopFuncs ≠ .starting := by
        intro hs
        simp only [State.mayAct, State.mayUse, hs] at hmay
        split at hmay
        · simp at hmay
        · simp [hp.pointerSet, hs, LoopFuncs.hasSetPointer] at hmay
      obtain ⟨-, newNode', es, hsome, husers⟩ := h.first.resolve_left (fun hs => hstarted hs.1)
      refine Or.inr ⟨hstarted, newNode', es ++ [⟨p, newNode, .user f⟩], ?_, ?_⟩
      · rw [hexchanged, hsome]
        rfl
      · intro e he
        rcases List.mem_append.mp he with he | he
        · exact husers e he
        · cases List.mem_singleton.mp he
          exact ⟨f, rfl⟩

theorem Inside.looping {threadId_ : ι} {s : State ι Addr Func} {loop : EventLoop.State ι Addr (Functor Func)}
    {l : EventLoop.Label ι Addr (Functor Func)} (h : Inside threadId_ s)
    (hmay : s.mayAct threadId_ l = true) (hturn : EventLoop.Turn s.loop l loop) :
    s.loopFuncs = .looping ∧ s.loop.phase ≠ .outside := by
  have hout : s.loop.phase ≠ .outside := by
    intro hout
    cases hturn with
    | enter => simp [State.mayAct, hout] at hmay
    | reset hp | stop hp | poll hp | drained hp | drain hp | exhausted hp | dequeue hp | call _ hp
      | left hp | pollReturns _ hp | wakeupRead hp | handled hp | called hp | destroyed hp =>
      cases hout.symm.trans hp
  refine ⟨?_, hout⟩
  cases hf : s.loopFuncs with
  | looping => rfl
  | returned => exact absurd (h.returned hf) hout
  | starting | queueing | takingFuture | waiting => exact absurd (h.before (by rw [hf]; rfl)).1 hout

theorem Inside.turn {threadId_ : ι} {s : State ι Addr Func} {loop : EventLoop.State ι Addr (Functor Func)}
    {l : EventLoop.Label ι Addr (Functor Func)} (h : Inside threadId_ s)
    (hmay : s.mayAct threadId_ l = true) (hkeeps : l = .userReturns → s.callsPromise = false)
    (hturn : EventLoop.Turn s.loop l loop)
    (hloop : (EventLoop.system ι Addr (Functor Func) threadId_).Reachable loop)
    (hfirst : State.First threadId_ { s with loop }) : Inside threadId_ { s with loop } := by
  obtain ⟨hlooping, hout⟩ := h.looping hmay hturn
  refine ⟨hloop, fun ht => ?_, fun ht => ?_, fun ht => ?_, hfirst, ?_⟩
  · simp [hlooping, LoopFuncs.hasEntered] at ht
  · exact absurd (hlooping.symm.trans ht) nofun
  · exact absurd (hturn.starting ht) hout
  · have hset := h.isSet
    rcases hturn.dequeued with ⟨hcalling, hdequeued⟩ | ⟨hcalling, hdequeuing, f, hf, hdequeued⟩
    · have hs : s.callsPromise = false := by
        refine Bool.eq_false_iff.mpr fun hs => ?_
        exact Bool.false_ne_true ((hkeeps (hturn.calling (callsPromise_iff.mp hs).1)).symm.trans hs)
      have ht : State.callsPromise { s with loop } = false :=
        Bool.eq_false_iff.mpr fun ht => hcalling (callsPromise_iff.mp ht).1
      rw [ht]
      dsimp only
      rw [hdequeued, hset, hs]
    · have hs : s.callsPromise = false :=
        Bool.eq_false_iff.mpr fun hs => nomatch hdequeuing.symm.trans (callsPromise_iff.mp hs).1
      obtain ⟨hempty, hsome⟩ := h.inHand hf
      change s.promiseForLoop_.isSet = true ↔ loop.funcs_.dequeued ≠ [] ∧ _
      rw [hset, hs, hdequeued]
      by_cases hd : s.loop.funcs_.dequeued = []
      · have ht : State.callsPromise { s with loop } = true := by
          refine callsPromise_iff.mpr ⟨hcalling, ?_⟩
          dsimp only
          rw [hdequeued, hempty hd, List.getLast?_concat]
        simp [hd, ht]
      · obtain ⟨g, rfl⟩ := hsome hd
        have ht : State.callsPromise { s with loop } = false := by
          refine Bool.eq_false_iff.mpr fun ht => ?_
          have hlast := (callsPromise_iff.mp ht).2
          dsimp only at hlast
          rw [hdequeued, List.getLast?_concat] at hlast
          cases hlast
        simp [hd, ht]

theorem Inside.step {threadId_ : ι} {s t : State ι Addr Func} {l : Label ι Addr Func}
    (h : Inside threadId_ s) (hp : Promises s) (hst : Does threadId_ s l t) : Inside threadId_ t := by
  have hloop : (EventLoop.system ι Addr (Functor Func) threadId_).Reachable t.loop :=
    h.loop.run (run_loopActs hst)
  have hconsumer := (EventLoop.Reachable.callsAgree h.loop).consumer
  cases hst with
  | queueFirst newNode loop hs hstep =>
    have hnone := (h.first.resolve_right (fun hne => hne.1 hs)).2
    have hexchanged := EventLoop.step_exchanged hstep hconsumer
    rcases EventLoop.step_cases hstep with ⟨hno, -⟩ | ⟨-, hcalls⟩
    · cases hno
    · refine h.calls hcalls hloop rfl (by rw [hs]; rfl) nofun (Or.inr ⟨nofun, newNode, [], ?_, nofun⟩)
      exact hexchanged.trans (by rw [hnone]; rfl)
  | setLoopPointer hs | getRunFuture hs =>
    exact h.frame rfl rfl (fun _ => by rw [hs]; rfl) nofun (by simp [hs])
  | enterLoop loop hs hset hstep =>
    obtain ⟨hout, hempty⟩ := h.before (by rw [hs]; rfl)
    have hexchanged := EventLoop.step_exchanged hstep hconsumer
    rcases EventLoop.step_cases hstep with ⟨-, -, hturn⟩ | ⟨hno, -⟩
    · have hsame := hturn.outside hout
      have hcalls : s.callsPromise = false :=
        Bool.eq_false_iff.mpr fun hs => nomatch hout.symm.trans (callsPromise_iff.mp hs).1
      subst hsame
      refine ⟨hloop, nofun, nofun, fun _ => hempty, ?_, ?_⟩
      · obtain ⟨-, hfirst⟩ := h.first.resolve_left (fun hno => by simp [hs] at hno)
        exact Or.inr ⟨nofun, hfirst⟩
      · have hset := h.isSet
        rw [hcalls] at hset
        exact hset.trans (by simp [hempty])
    · cases hno
  | clearLoop hs hout =>
    exact h.frame rfl rfl nofun (fun _ => hout) (by simp [hs])
  | setsPromise loop hcalls hstep =>
    obtain ⟨hcalling, hlast⟩ := callsPromise_iff.mp hcalls
    rcases EventLoop.step_cases hstep with ⟨-, -, hturn⟩ | ⟨hno, -⟩
    · have hne : s.loop.funcs_.dequeued ≠ [] := by
        intro hempty
        rw [hempty] at hlast
        cases hlast
      have hlooping : s.loopFuncs = .looping := (h.looping (l := .userReturns) rfl hturn).1
      have hsame : loop = { s.loop with phase := .dequeuing } := by
        cases hturn with
        | called => rfl
        | handled hp | destroyed hp => cases hcalling.symm.trans hp
      subst hsame
      refine ⟨hloop, fun ht => ?_, fun ht => ?_, nofun, h.first, ?_⟩
      · simp [State.setLoopPromise, hlooping, LoopFuncs.hasEntered] at ht
      · simp [State.setLoopPromise, hlooping] at ht
      · exact iff_of_true rfl ⟨hne, rfl⟩
    · cases hno
  | act l loop hmay hkeeps hstep =>
    have hfirst := h.first_act hp hmay (EventLoop.step_exchanged hstep hconsumer)
    rcases EventLoop.step_cases hstep with ⟨-, -, hturn⟩ | ⟨-, hcalls⟩
    · exact h.turn hmay hkeeps hturn hloop hfirst
    · exact h.calls hcalls hloop rfl rfl id hfirst
  | quit p loop hs hstep =>
    have hexchanged := EventLoop.step_exchanged hstep hconsumer
    rcases EventLoop.step_cases hstep with ⟨hno, -⟩ | ⟨-, hcalls⟩
    · cases hno
    · refine h.calls hcalls hloop rfl rfl id ?_
      simp only [State.First, State.setMember, hexchanged, EventLoop.Label.enqueue, Option.toList_none,
        List.append_nil]
      exact h.first
  | calledOnce p d | runReturns p d =>
    cases d <;> exact h.frame rfl rfl id h.returned Iff.rfl
  | constructed | run | callsOnce | getLoopFuture | setRun | destroy | lock | wait | joined | waited =>
    exact h.frame rfl rfl id h.returned Iff.rfl

structure Ends (s : State ι Addr Func) : Prop where
  constructing : ∀ p, s.member p = .constructing → s.once_ = .idle
  pointer : (∀ p, s.member p ≠ .constructing) → (s.loop_ = true ↔ s.loopFuncs ≠ .returned)
  quit : s.quitStored = true → s.once_ = .done ∧ s.loop.quit_ = true
  joining : ∀ p, s.member p = .joining true → s.quitStored = true ∨ s.loopFuncs = .returned
  errors : s.futureError = false

theorem Ends.init (front : Addr) (creator : ι) : Ends (init front creator : State ι Addr Func) where
  constructing _ _ := rfl
  pointer h := absurd (by simp [EventLoopThread.init]) (h creator)
  quit := nofun
  joining p hp := by
    by_cases hpc : p = creator
    · subst hpc
      simp [EventLoopThread.init] at hp
    · simp [EventLoopThread.init, Function.update_of_ne hpc] at hp
  errors := rfl

omit [DecidableEq ι] [DecidableEq Addr] in
theorem Ends.loopFuncs {s t : State ι Addr Func} (h : Ends s) (hmember : t.member = s.member)
    (honce : t.once_ = s.once_) (hloop : t.loop_ = s.loop_) (hstored : t.quitStored = s.quitStored)
    (hfuncs : s.loopFuncs = .returned ↔ t.loopFuncs = .returned)
    (hquit : s.quitStored = true → t.loop.quit_ = true) (herrors : t.futureError = false) :
    Ends t where
  constructing p hp := honce.trans (h.constructing p (hmember ▸ hp))
  pointer hno := by
    rw [hloop, Ne, ← hfuncs]
    exact h.pointer (hmember ▸ hno)
  quit hset := ⟨honce.trans (h.quit (hstored ▸ hset)).1, hquit (hstored ▸ hset)⟩
  joining p hp := by
    rw [hstored, ← hfuncs]
    exact h.joining p (hmember ▸ hp)
  errors := herrors

omit [DecidableEq Addr] in
theorem Ends.setMember {s t : State ι Addr Func} {p : ι} {m : Member} (h : Ends s) (hp : Promises s)
    (hactive : s.alive = true ∨ s.member p ≠ .idle ∧ s.member p ≠ .constructing)
    (hm : m ≠ .constructing) (hmember : t.member = Function.update s.member p m)
    (hloop : t.loop_ = s.loop_) (hfuncs : t.loopFuncs = s.loopFuncs)
    (hjoining : m = .joining true → t.quitStored = true ∨ s.loopFuncs = .returned)
    (hquit : t.quitStored = true → t.once_ = .done ∧ t.loop.quit_ = true)
    (hstored : s.quitStored = true → t.quitStored = true) (herrors : t.futureError = false) :
    Ends t where
  constructing q hq := by
    rw [hmember] at hq
    by_cases hqp : q = p
    · subst hqp
      exact absurd ((Function.update_self _ _ _).symm.trans hq) hm
    · rw [Function.update_of_ne hqp] at hq
      exact absurd hq (hp.not_constructing hactive q)
  pointer _ := by
    rw [hloop, hfuncs]
    exact h.pointer (hp.not_constructing hactive)
  quit := hquit
  joining q hq := by
    rw [hfuncs]
    rw [hmember] at hq
    by_cases hqp : q = p
    · subst hqp
      exact hjoining ((Function.update_self _ _ _).symm.trans hq)
    · rw [Function.update_of_ne hqp] at hq
      exact (h.joining q hq).imp_left hstored
  errors := herrors

theorem Ends.keeps_quit {threadId_ : ι} {s : State ι Addr Func} {loop : EventLoop.State ι Addr (Functor Func)}
    {l : EventLoop.Label ι Addr (Functor Func)} (h : Ends s) (hp : Promises s)
    (hi : Inside threadId_ s) (hst : EventLoop.step threadId_ s.loop l = some loop)
    (hset : s.quitStored = true) : loop.quit_ = true := by
  obtain ⟨hdone, hquit⟩ := h.quit hset
  have honce := hp.once
  simp only [State.OnceAgrees, hdone] at honce
  exact EventLoop.step_keeps_quit hst hquit
    fun hstarting => (hi.isSet.mp honce.1).1 (hi.starting hstarting)

theorem Ends.step {threadId_ : ι} {s t : State ι Addr Func} {l : Label ι Addr Func} (h : Ends s)
    (hp : Promises s) (hi : Inside threadId_ s) (hst : Does threadId_ s l t) : Ends t := by
  have hactive : ∀ {p m}, s.member p = m → m ≠ .idle → m ≠ .constructing →
      s.alive = true ∨ s.member p ≠ .idle ∧ s.member p ≠ .constructing := by
    rintro p m rfl hidle hconstructing
    exact Or.inr ⟨hidle, hconstructing⟩
  have herrors := h.errors
  cases hst with
  | queueFirst newNode loop hs hstep =>
    exact h.loopFuncs rfl rfl rfl rfl (by simp [hs]) (h.keeps_quit hp hi hstep) herrors
  | setLoopPointer hs =>
    refine h.loopFuncs rfl rfl rfl rfl (by simp [hs]) (fun hset => (h.quit hset).2) ?_
    simp [herrors, hp.pointerSet, hs, LoopFuncs.hasSetPointer]
  | getRunFuture hs =>
    refine h.loopFuncs rfl rfl rfl rfl (by simp [hs]) (fun hset => (h.quit hset).2) ?_
    simp [herrors, hp.runRetrieved, hs, LoopFuncs.hasRunFuture]
  | enterLoop loop hs hset hstep =>
    exact h.loopFuncs rfl rfl rfl rfl (by simp [hs]) (h.keeps_quit hp hi hstep) herrors
  | clearLoop hs hout =>
    refine ⟨h.constructing, fun _ => ?_, h.quit, fun p hq => Or.inr rfl, herrors⟩
    simp
  | setsPromise loop hcalls hstep =>
    refine h.loopFuncs rfl rfl rfl rfl Iff.rfl (h.keeps_quit hp hi hstep) ?_
    have hset : s.promiseForLoop_.isSet = false :=
      Bool.eq_false_iff.mpr fun hset => Bool.false_ne_true ((hi.isSet.mp hset).2.symm.trans hcalls)
    simp [State.setLoopPromise, herrors, hset]
  | act l loop hmay hkeeps hstep =>
    exact h.loopFuncs rfl rfl rfl rfl Iff.rfl (h.keeps_quit hp hi hstep) herrors
  | constructed p hs hset =>
    obtain ⟨hretrieved, -, hothers⟩ := hp.constructing p hs
    have hidle := h.constructing p hs
    have hrun := hp.once
    simp only [State.OnceAgrees, hidle] at hrun
    have hmember : ∀ q, (Function.update s.member p .idle) q = .idle := by
      intro q
      by_cases hq : q = p
      · subst hq
        exact Function.update_self _ _ _
      · rw [Function.update_of_ne hq, hothers q hq]
    refine ⟨fun _ _ => hidle, fun _ => ?_, h.quit, fun q hq => ?_, ?_⟩
    · refine iff_of_true rfl fun hreturned => ?_
      have hno := hp.entered (congrArg LoopFuncs.hasEntered hreturned)
      exact Bool.false_ne_true (hrun.2.1.symm.trans hno)
    · exact absurd ((hmember q).symm.trans hq) nofun
    · simp [herrors, hretrieved]
  | run p hs =>
    exact h.setMember hp (m := .onceFlag false) (Or.inl (mayEnter_iff.mp hs).1) nofun rfl rfl rfl nofun
      h.quit id herrors
  | destroy p hs =>
    exact h.setMember hp (m := .onceFlag true) (Or.inl (mayEnter_iff.mp hs).1) nofun rfl rfl rfl nofun
      h.quit id herrors
  | wait p hs =>
    exact h.setMember hp (m := .joining false) (Or.inl (mayEnter_iff.mp hs).1) nofun rfl rfl rfl nofun
      h.quit id herrors
  | callsOnce p d hs ho =>
    refine h.setMember hp (m := .takingFuture d) (hactive hs nofun nofun) nofun rfl rfl rfl nofun
      (fun hset => ?_) id herrors
    exact absurd (ho.symm.trans (h.quit hset).1) nofun
  | calledOnce p d hs ho =>
    cases d with
    | true =>
      exact h.setMember hp (p := p) (m := .locking) (hactive hs nofun nofun) nofun rfl rfl rfl nofun
        h.quit id herrors
    | false =>
      exact h.setMember hp (p := p) (m := .idle) (hactive hs nofun nofun) nofun rfl rfl rfl nofun
        h.quit id herrors
  | getLoopFuture p d hs =>
    have ho := hp.once.running (p := p) (by rw [hs]; rfl)
    have hretrieved := hp.once
    simp only [State.OnceAgrees, ho, hs] at hretrieved
    refine h.setMember hp (m := .settingRun d) (hactive hs nofun nofun) nofun rfl rfl rfl nofun h.quit id ?_
    simp [herrors, hretrieved.1, Member.hasLoopFuture]
  | setRun p d hs =>
    have ho := hp.once.running (p := p) (by rw [hs]; rfl)
    have hset := hp.once
    simp only [State.OnceAgrees, ho, hs] at hset
    refine h.setMember hp (m := .awaitingLoop d) (hactive hs nofun nofun) nofun rfl rfl rfl nofun h.quit id ?_
    simp [herrors, hset.2.1, Member.hasSetRun]
  | runReturns p d hs hset =>
    have hquit : s.quitStored = true → (Once.done : Once ι) = .done ∧ s.loop.quit_ = true :=
      fun hset => ⟨rfl, (h.quit hset).2⟩
    cases d with
    | true =>
      exact h.setMember hp (p := p) (m := .locking) (hactive hs nofun nofun) nofun rfl rfl rfl nofun
        hquit id herrors
    | false =>
      exact h.setMember hp (p := p) (m := .idle) (hactive hs nofun nofun) nofun rfl rfl rfl nofun
        hquit id herrors
  | lock p hs =>
    have hpointer := h.pointer (hp.not_constructing (hactive hs nofun nofun))
    refine h.setMember hp (hactive hs nofun nofun) ?_ rfl rfl rfl (fun hm => Or.inr ?_) h.quit id herrors
    · split <;> exact nofun
    · split at hm
      · cases hm
      · exact not_not.mp (mt hpointer.mpr ‹_›)
  | quit p loop hs hstep =>
    have hdone := hp.pastRun p (Or.inl (by rw [hs]; rfl))
    obtain ⟨_, hstep⟩ := Option.ite_none_right_eq_some.mp hstep
    cases hstep
    exact h.setMember hp (m := .joining true) (hactive hs nofun nofun) nofun rfl rfl rfl
      (fun _ => Or.inl rfl) (fun _ => ⟨hdone, rfl⟩) (fun _ => rfl) herrors
  | joined p hs | waited p hs =>
    exact h.setMember hp (p := p) (m := .idle) (hactive hs nofun nofun) nofun rfl rfl rfl nofun h.quit id
      herrors

theorem Reachable.inv {threadId_ : ι} {s : State ι Addr Func}
    (h : (system ι Addr Func threadId_).Reachable s) : Promises s ∧ Inside threadId_ s ∧ Ends s := by
  refine h.invariant (I := fun s => Promises s ∧ Inside threadId_ s ∧ Ends s) ?_ ?_
  · rintro _ ⟨front, creator, -, rfl⟩
    exact ⟨.init front creator, .init front, .init front creator⟩
  · rintro s l t ⟨hp, hi, he⟩ hst
    have hdoes := step_does hst
    exact ⟨hp.step hdoes, hi.step hp hdoes, he.step hp hi hdoes⟩

end MysqlConnectPool.EventLoopThread
