import MysqlConnectPool.Event.EventLoopThreadInv

/-! How a loop's thread starts and ends: what `run` and the destructor wait for comes within a
bounded number of steps of that thread, unless a `quit` arrives before the loop's first test. -/

universe u v w

namespace MysqlConnectPool.EventLoopThread

open Library

variable {ι : Type w} {Addr : Type u} {Func : Type v} [DecidableEq ι] [DecidableEq Addr]

theorem Promises.past_run {threadId_ : ι} {s : State ι Addr Func} (h : Promises s)
    (hi : Inside threadId_ s) {p : ι} (hpast : (s.member p).pastRun = true ∨ s.ran p = true) :
    s.promiseForLoop_.isSet = true ∧ s.loopFuncs.hasEntered = true ∧ s.loop.phase ≠ .starting ∧
      s.loop.funcs_.dequeued ≠ [] := by
  have honce := h.once
  simp only [State.OnceAgrees, h.pastRun p hpast] at honce
  have hne := (hi.isSet.mp honce.1).1
  refine ⟨honce.1, ?_, fun hstarting => hne (hi.starting hstarting), hne⟩
  by_contra hbefore
  exact hne (hi.before (by simpa using hbefore)).2

def Member.inRun : Member → Bool
  | .onceFlag false | .takingFuture false | .settingRun false | .awaitingLoop false => true
  | _ => false

def State.calledRun (s : State ι Addr Func) (p : ι) : Prop :=
  (s.member p).inRun = true ∨ s.ran p = true

theorem ran_step {threadId_ : ι} {s t : State ι Addr Func} {l : Label ι Addr Func}
    (h : Does threadId_ s l t) (p : ι) (hp : s.ran p = true) : t.ran p = true := by
  have hend : ∀ {q d}, (s.endRun q d).ran p = true := by
    intro q d
    cases d with
    | true => exact hp
    | false =>
      by_cases hpq : p = q
      · subst hpq
        exact Function.update_self _ _ _
      · exact (Function.update_of_ne hpq _ _).trans hp
  cases h with
  | calledOnce q d | runReturns q d => exact hend
  | queueFirst | setLoopPointer | getRunFuture | enterLoop | clearLoop | setsPromise | act | constructed
    | run | callsOnce | getLoopFuture | setRun | destroy | lock | quit | wait | joined | waited => exact hp

omit [DecidableEq Addr] in
theorem calledRun_setMember {s t : State ι Addr Func} {p : ι} {m : Member}
    (hmember : t.member = Function.update s.member p m) (hran : ∀ q, s.ran q = true → t.ran q = true)
    (hp : (s.member p).inRun = true → m.inRun = true ∨ t.ran p = true) (q : ι) (hq : s.calledRun q) :
    t.calledRun q := by
  rcases hq with hq | hq
  · unfold State.calledRun
    rw [hmember]
    by_cases hqp : q = p
    · subst hqp
      rw [Function.update_self]
      exact hp hq
    · rw [Function.update_of_ne hqp]
      exact Or.inl hq
  · exact Or.inr (hran q hq)

theorem calledRun_step {threadId_ : ι} {s t : State ι Addr Func} {l : Label ι Addr Func}
    (h : Does threadId_ s l t) : ∀ p, s.calledRun p → t.calledRun p := by
  have hran := ran_step h
  cases h with
  | queueFirst | setLoopPointer | getRunFuture | enterLoop | clearLoop | setsPromise | act =>
    exact fun p hp => hp
  | constructed p hs =>
    exact calledRun_setMember (p := p) (m := .idle) rfl hran (by rw [hs]; nofun)
  | run p => exact calledRun_setMember (p := p) (m := .onceFlag false) rfl hran (fun _ => Or.inl rfl)
  | callsOnce p d hs =>
    exact calledRun_setMember (p := p) (m := .takingFuture d) rfl hran (by rw [hs]; cases d <;> simp [Member.inRun])
  | getLoopFuture p d hs =>
    exact calledRun_setMember (p := p) (m := .settingRun d) rfl hran (by rw [hs]; cases d <;> simp [Member.inRun])
  | setRun p d hs =>
    exact calledRun_setMember (p := p) (m := .awaitingLoop d) rfl hran (by rw [hs]; cases d <;> simp [Member.inRun])
  | calledOnce p d hs | runReturns p d hs =>
    cases d with
    | true => exact calledRun_setMember (p := p) (m := .locking) rfl hran (by rw [hs]; nofun)
    | false =>
      refine calledRun_setMember (p := p) (m := .idle) rfl hran (fun _ => Or.inr ?_)
      exact Function.update_self _ _ _
  | destroy p hs =>
    exact calledRun_setMember (p := p) (m := .onceFlag true) rfl hran
      (by rw [(mayEnter_iff.mp hs).2.2.1]; nofun)
  | wait p hs =>
    exact calledRun_setMember (p := p) (m := .joining false) rfl hran
      (by rw [(mayEnter_iff.mp hs).2.2.1]; nofun)
  | lock p hs => exact calledRun_setMember rfl hran (by rw [hs]; nofun)
  | quit p loop hs =>
    exact calledRun_setMember (p := p) (m := .joining true) rfl hran (by rw [hs]; nofun)
  | joined p hs | waited p hs =>
    exact calledRun_setMember (p := p) (m := .idle) rfl hran (by rw [hs]; nofun)

/-- The promises are used once each, and the loop is entered behind `run`.  Once `run` has
returned, or the destructor has come back from it, the loop has called the functor of `loopFuncs`
first and is past its store to `quit_`, so that the destructor's `quit` reaches it.  Behind the
constructor `loop_` is null exactly when the new thread has come to its end. -/
theorem run_quit_handshake {threadId_ : ι} {s : State ι Addr Func}
    (h : (system ι Addr Func threadId_).Reachable s) :
    s.futureError = false ∧
    (s.loop.phase ≠ .outside → s.promiseForRun_.isSet = true) ∧
    (∀ p, s.ran p = true ∨ (s.member p).pastRun = true →
      s.promiseForLoop_.isSet = true ∧ s.loopFuncs.hasEntered = true ∧ s.loop.phase ≠ .starting ∧
        s.loop.funcs_.dequeued.head? = some .setPromiseForLoop) ∧
    (∀ p, s.alive = true ∨ (s.member p).pastRun = true → ∀ q, s.member q ≠ .constructing) ∧
    ((∀ q, s.member q ≠ .constructing) → (s.loop_ = true ↔ s.loopFuncs ≠ .returned)) ∧
    (∀ p, s.member p = .joining true → s.loopFuncs = .returned ∨ s.loop.quit_ = true) := by
  obtain ⟨hp, hi, he⟩ := Reachable.inv h
  refine ⟨he.errors, fun hphase => ?_, fun p hpast => ?_, fun p hpast => ?_, he.pointer,
    fun p hjoining => ?_⟩
  · refine hp.entered ?_
    by_contra hbefore
    exact hphase (hi.before (by simpa using hbefore)).1
  · obtain ⟨hset, hentered, hstarting, hne⟩ := hp.past_run hi (Or.comm.mp hpast)
    refine ⟨hset, hentered, hstarting, ?_⟩
    · obtain ⟨done, rest, hq⟩ := MPSCQueue.exists_inv (EventLoop.Reachable.callsAgree hi.loop).queue
      obtain ⟨f, fs, hdequeued⟩ := List.exists_cons_of_ne_nil hne
      have hdone := hq.dequeued
      have hexchanged := hq.exchanged
      rw [hdequeued] at hdone
      cases done with
      | nil => cases hdone
      | cons e done =>
        rcases hi.first with ⟨-, hnone⟩ | ⟨-, newNode, es, hsome, -⟩
        · exact absurd (hnone.symm.trans hexchanged) nofun
        · have hhead : ⟨threadId_, newNode, .setPromiseForLoop⟩ = e :=
            (List.cons.inj (hsome.symm.trans hexchanged)).1
          rw [hdequeued, ← (List.cons.inj hdone).1, ← hhead]
          rfl
  · rcases hpast with halive | hpast
    · exact hp.not_constructing (p := p) (Or.inl halive)
    · refine hp.not_constructing (p := p) (Or.inr ⟨?_, ?_⟩) <;> intro hm <;> simp [hm, Member.pastRun] at hpast
  · exact (he.joining p hjoining).symm.imp_right fun hset => (he.quit hset).2

def constructs (threadId_ p : Nat) : List (Label Nat Nat Char) :=
  [.queueFirst 1, .act (.link threadId_), .act (.testLooping threadId_), .act (.wakeup threadId_),
    .setLoopPointer, .constructed p]

def enters (p : Nat) : List (Label Nat Nat Char) :=
  [.callOnce p, .getLoopFuture p, .getRunFuture, .setRun p, .enterLoop, .act .loop, .act .loop,
    .act (.pollReturns true), .act .wakeupRead, .act .userReturns, .act .loop, .act .loop, .act .loop,
    .act .loop, .act .loop]

def start : List (Label Nat Nat Char) := constructs 0 1 ++ .run 1 :: enters 1

def stop : List (Label Nat Nat Char) :=
  [.act .userReturns, .runReturns 1, .destroy 1, .callOnce 1, .lock 1, .quit 1]

theorem run_quit_handshake_stop :
    ∃ s : State Nat Nat Char, (system Nat Nat Char 0).run (init 0 1) (start ++ stop) = some s ∧
      s.ran 1 = true ∧ s.futureError = false ∧ s.loopFuncs = .looping ∧ s.loop.quit_ = true := by
  have hr : (system Nat Nat Char 0).run (init 0 1) (start ++ stop) = some _ := rfl
  obtain ⟨herror, -, -, -, -, hjoining⟩ :=
    run_quit_handshake (System.Reachable.run (.init ⟨0, 1, by decide, rfl⟩) hr)
  exact ⟨_, hr, rfl, herror, rfl, (hjoining 1 rfl).resolve_left nofun⟩

/-- The steps of the new thread in `loopFuncs` and `loop`.  Of the steps inside `queueInLoop` and
`quit` only the exchange of `loopFuncs`' own call is one. -/
def Label.turns : Label ι Addr Func → Bool
  | .queueFirst _ | .setLoopPointer | .getRunFuture | .enterLoop | .clearLoop => true
  | .act l => l.turns
  | _ => false

/-- The loop ends, or is about to, without having called a functor. -/
def State.missed (s : State ι Addr Func) : Bool :=
  s.promiseForLoop_.isSet = false ∧
    (s.loopFuncs = .returned ∨ s.loopFuncs = .looping ∧
      (s.loop.phase = .condition ∧ s.loop.quit_ = true ∨ s.loop.phase = .leaving ∨
        s.loop.phase = .outside))

/-- How many steps the new thread is away from `promiseForLoop_.set_value`. -/
def State.toPromise (s : State ι Addr Func) : Nat :=
  match s.loopFuncs with
  | .starting => 15
  | .queueing => 14
  | .takingFuture => 13
  | .waiting => 12
  | .returned => 0
  | .looping =>
    match s.loop.phase with
    | .starting => 11
    | .condition => 10
    | .polling => 9
    | .handling true => 8
    | .handling false => 7
    | .draining => 6
    | .dequeuing => s.loop.toReturn + 2
    | .calling => 1
    | .destroying | .leaving | .outside => 0

theorem first_linked {threadId_ : ι} {s : State ι Addr Func} (h : Inside threadId_ s)
    (hphase : s.loop.phase = .draining) (hset : s.promiseForLoop_.isSet = false) :
    s.loop.funcs_.empty = false := by
  have hcalls : s.callsPromise = false :=
    Bool.eq_false_iff.mpr fun hs => by cases hphase.symm.trans (callsPromise_iff.mp hs).1
  have hnone : s.loop.funcs_.dequeued = [] := by
    by_contra hne
    exact Bool.false_ne_true (hset.symm.trans (h.isSet.mpr ⟨hne, hcalls⟩))
  have hagree := EventLoop.Reachable.callsAgree h.loop
  obtain ⟨done, rest, hq⟩ := MPSCQueue.exists_inv hagree.queue
  have hidle : s.loop.caller threadId_ = .idle := by
    by_contra hne
    have huser := (EventLoop.Reachable.inv h.loop).userCode hne
    rw [hphase] at huser
    cases huser
  have hconsumer := hagree.consumer.resolve_left (by simp [hphase])
  have hdone : done = [] := by
    have hdequeued := hq.dequeued
    rw [hnone, hconsumer] at hdequeued
    exact List.map_eq_nil_iff.mp hdequeued
  have hexchanged := hq.exchanged
  rw [hdone, List.nil_append] at hexchanged
  rcases h.first with ⟨hstarting, -⟩ | ⟨-, newNode, es, hsome, -⟩
  · have hout := (h.before (by rw [hstarting]; rfl)).1
    cases hphase.symm.trans hout
  · rw [hsome] at hexchanged
    subst hexchanged
    have hlinks := hq.link (s.loop.funcs_.tail_, ⟨threadId_, newNode, .setPromiseForLoop⟩)
      (by simp [MPSCQueue.links])
    rcases hlinks with hlink | ⟨-, hpending⟩
    · simp [MPSCQueue.State.empty, hlink]
    · have hcaller := hagree.pending threadId_ (by simp [hpending])
      cases hidle.symm.trans hcaller

theorem turn_toPromise {threadId_ : ι} {s : State ι Addr Func}
    {loop : EventLoop.State ι Addr (Functor Func)} {l : EventLoop.Label ι Addr (Functor Func)}
    (h : Inside threadId_ s) (hset : s.promiseForLoop_.isSet = false) (hmissed : s.missed = false)
    (hmay : s.mayAct threadId_ l = true) (hkeeps : l = .userReturns → s.callsPromise = false)
    (hturn : EventLoop.Turn s.loop l loop) :
    State.toPromise { s with loop } + 1 ≤ s.toPromise ∧ State.missed { s with loop } = false := by
  obtain ⟨hlooping, hout⟩ := h.looping hmay hturn
  have hfirst := EventLoop.Reachable.firstDrain h.loop
  have hnone : s.callsPromise = false → s.loop.funcs_.dequeued = [] := by
    intro hcalls
    by_contra hne
    exact Bool.false_ne_true (hset.symm.trans (h.isSet.mpr ⟨hne, hcalls⟩))
  have hcalls : s.loop.phase ≠ .calling → s.callsPromise = false := fun hp =>
    Bool.eq_false_iff.mpr fun hs => hp (callsPromise_iff.mp hs).1
  simp only [State.missed, hset, hlooping, true_and, reduceCtorEq, false_or, decide_eq_false_iff_not]
    at hmissed
  cases hturn with
  | enter hp => exact absurd hp hout
  | reset hp => exact ⟨by simp [State.toPromise, hlooping, hp], by simp [State.missed, hlooping]⟩
  | stop hp hquit => exact absurd (Or.inl ⟨hp, hquit⟩) hmissed
  | left hp => exact absurd (Or.inr (Or.inl hp)) hmissed
  | poll hp | wakeupRead hp | handled hp =>
    exact ⟨by simp [State.toPromise, hlooping, hp], by simp [State.missed, hlooping]⟩
  | pollReturns b hp =>
    refine ⟨?_, by simp [State.missed, hlooping]⟩
    cases b <;> simp [State.toPromise, hlooping, hp]
  | drained hp hempty =>
    exact absurd ((first_linked h hp hset).symm.trans hempty) Bool.false_ne_true
  | drain hp hempty =>
    have hconsumer := (EventLoop.Reachable.callsAgree h.loop).consumer.resolve_left (by simp [hp])
    refine ⟨?_, by simp [State.missed, hlooping]⟩
    simp [State.toPromise, EventLoop.State.toReturn, hlooping, hp, hconsumer, hempty]
  | exhausted hp hc hempty =>
    have hne := hfirst.dequeuing hp hc (hnone (hcalls (by simp [hp])))
    exact absurd (hne.symm.trans hempty) Bool.false_ne_true
  | dequeue hp hempty hf =>
    have hpays := EventLoop.toReturn_dequeue (EventLoop.Reachable.callsAgree h.loop).queue hp hempty hf
    refine ⟨?_, by simp [State.missed, hlooping]⟩
    simp only [State.toPromise, hlooping, hp]
    omega
  | call f hp hf =>
    refine ⟨?_, by simp [State.missed, hlooping]⟩
    simp only [State.toPromise, hlooping, hp]
    omega
  | called hp => exact absurd (hnone (hkeeps rfl)) (hfirst.called (Or.inl hp))
  | destroyed hp => exact absurd (hnone (hkeeps rfl)) (hfirst.called (Or.inr hp))

omit [DecidableEq ι] [DecidableEq Addr] in
theorem calls_toPromise {s t : State ι Addr Func} {l : EventLoop.Label ι Addr (Functor Func)}
    (hcalls : EventLoop.Calls s.loop l t.loop) (hfuncs : t.loopFuncs = s.loopFuncs) :
    t.toPromise ≤ s.toPromise := by
  have hreturn := hcalls.toReturn_le
  simp only [State.toPromise, hfuncs, hcalls.phase]
  cases s.loopFuncs with
  | looping =>
    cases s.loop.phase with
    | dequeuing => exact Nat.add_le_add_right hreturn 2
    | handling wakeupActive => cases wakeupActive <;> exact Nat.le_refl _
    | outside | starting | condition | polling | draining | calling | destroying | leaving =>
      exact Nat.le_refl _
  | starting | queueing | takingFuture | waiting | returned => exact Nat.le_refl _

omit [DecidableEq ι] [DecidableEq Addr] in
theorem missed_iff {s : State ι Addr Func} :
    s.missed = true ↔ s.promiseForLoop_.isSet = false ∧
      (s.loopFuncs = .returned ∨ s.loopFuncs = .looping ∧
        (s.loop.phase = .condition ∧ s.loop.quit_ = true ∨ s.loop.phase = .leaving ∨
          s.loop.phase = .outside)) := by
  simp [State.missed]

theorem isSet_step {threadId_ : ι} {s t : State ι Addr Func} {l : Label ι Addr Func}
    (h : Does threadId_ s l t) (hset : t.promiseForLoop_.isSet = false) :
    s.promiseForLoop_.isSet = false := by
  cases h with
  | setsPromise => cases hset
  | calledOnce p d | runReturns p d => cases d <;> exact hset
  | queueFirst | setLoopPointer | getRunFuture | enterLoop | clearLoop | act | constructed | run
    | callsOnce | getLoopFuture | setRun | destroy | lock | quit | wait | joined | waited => exact hset

theorem missed_step {threadId_ : ι} {s t : State ι Addr Func} {l : Label ι Addr Func}
    (h : Inside threadId_ s) (hst : Does threadId_ s l t) (hs : s.missed = true) :
    t.missed = true := by
  obtain ⟨hset, hwhere⟩ := missed_iff.mp hs
  have hcalls : ∀ {l : EventLoop.Label ι Addr (Functor Func)}, EventLoop.Calls s.loop l t.loop →
      t.promiseForLoop_ = s.promiseForLoop_ → t.loopFuncs = s.loopFuncs → t.missed = true := by
    intro l hcalls hpromise hfuncs
    rw [missed_iff, hpromise, hfuncs, hcalls.phase]
    refine ⟨hset, hwhere.imp_right fun hin => ⟨hin.1, hin.2.imp_left fun hc => ⟨hc.1, ?_⟩⟩⟩
    exact hcalls.quit.elim (fun hq => hq.trans hc.2) (fun hq => hq.1)
  cases hst with
  | queueFirst newNode loop hf | setLoopPointer hf | getRunFuture hf | enterLoop loop hf =>
    simp [hf] at hwhere
  | clearLoop hf => exact missed_iff.mpr ⟨hset, Or.inl rfl⟩
  | setsPromise loop hpromise =>
    have hcalling := (callsPromise_iff.mp hpromise).1
    rcases hwhere with hf | ⟨-, ⟨hp, -⟩ | hp | hp⟩
    · exact absurd (hcalling.symm.trans (h.returned hf)) nofun
    · exact absurd (hcalling.symm.trans hp) nofun
    · exact absurd (hcalling.symm.trans hp) nofun
    · exact absurd (hcalling.symm.trans hp) nofun
  | act l loop hmay hkeeps hstep =>
    rcases EventLoop.step_cases hstep with ⟨-, -, hturn⟩ | ⟨-, hc⟩
    · obtain ⟨hlooping, hout⟩ := h.looping hmay hturn
      have hin := (hwhere.resolve_left (by simp [hlooping])).2
      rw [or_iff_left hout] at hin
      cases hturn with
      | stop | left => exact missed_iff.mpr ⟨hset, Or.inr ⟨hlooping, by simp⟩⟩
      | poll hp hquit => simp [hp, hquit] at hin
      | enter hp => exact absurd hp hout
      | reset hp | drained hp | drain hp | exhausted hp | dequeue hp | call _ hp | pollReturns _ hp
        | wakeupRead hp | handled hp | called hp | destroyed hp => simp [hp] at hin
    · exact hcalls hc rfl rfl
  | quit p loop hm hstep =>
    rcases EventLoop.step_cases hstep with ⟨hno, -⟩ | ⟨-, hc⟩
    · cases hno
    · exact hcalls hc rfl rfl
  | calledOnce p d | runReturns p d => cases d <;> exact hs
  | constructed | run | callsOnce | getLoopFuture | setRun | destroy | lock | wait | joined | waited =>
    exact hs

/-- With the promise not set, a step of the new thread brings it nearer to it; only a `quit` before
the loop's test makes it miss. -/
theorem step_toPromise {threadId_ : ι} {s t : State ι Addr Func} {l : Label ι Addr Func}
    (hp : Promises s) (hi : Inside threadId_ s) (hst : Does threadId_ s l t)
    (hset : t.promiseForLoop_.isSet = false) (hs : s.missed = false) :
    t.toPromise + l.turns.toNat ≤ s.toPromise ∧
      (t.missed = true → ∃ p, l = .act (.quit p) ∧ s.loop.phase = .condition) := by
  have hunset := isSet_step hst hset
  have hsame : ∀ {t : State ι Addr Func}, t.missed = s.missed → t.missed ≠ true := by
    intro t ht
    rw [ht, hs]
    exact Bool.false_ne_true
  cases hst with
  | queueFirst newNode loop hf | setLoopPointer hf | getRunFuture hf =>
    refine ⟨by simp [State.toPromise, hf, Label.turns], fun ht => ?_⟩
    simp [missed_iff] at ht
  | enterLoop loop hf _ hstep =>
    have hout := (hi.before (by rw [hf]; rfl)).1
    rcases EventLoop.step_cases hstep with ⟨-, -, hturn⟩ | ⟨hno, -⟩
    · rw [hturn.outside hout]
      refine ⟨by simp [State.toPromise, hf, Label.turns], fun ht => ?_⟩
      simp [missed_iff] at ht
    · cases hno
  | clearLoop hf hout =>
    have hmissed : s.missed = true := missed_iff.mpr ⟨hunset, Or.inr ⟨hf, Or.inr (Or.inr hout)⟩⟩
    exact absurd (hs.symm.trans hmissed) Bool.false_ne_true
  | setsPromise => cases hset
  | act l loop hmay hkeeps hstep =>
    rcases EventLoop.step_cases hstep with ⟨hturns, -, hturn⟩ | ⟨hturns, hcalls⟩
    · obtain ⟨hpays, hno⟩ := turn_toPromise hi hunset hs hmay hkeeps hturn
      refine ⟨?_, fun ht => absurd (hno.symm.trans ht) Bool.false_ne_true⟩
      rw [Label.turns, hturns]
      exact hpays
    · refine ⟨?_, fun ht => ?_⟩
      · rw [Label.turns, hturns]
        exact calls_toPromise hcalls rfl
      · obtain ⟨-, hwhere⟩ := missed_iff.mp ht
        dsimp only at hwhere
        rw [hcalls.phase] at hwhere
        have hno : ¬(s.loopFuncs = .returned ∨ s.loopFuncs = .looping ∧
            (s.loop.phase = .condition ∧ s.loop.quit_ = true ∨ s.loop.phase = .leaving ∨
              s.loop.phase = .outside)) := fun hin =>
          Bool.false_ne_true (hs.symm.trans (missed_iff.mpr ⟨hunset, hin⟩))
        rcases hwhere with hf | ⟨hf, ⟨hc, hquit⟩ | hl | ho⟩
        · exact absurd (Or.inl hf) hno
        · rcases hcalls.quit with hq | ⟨-, p, rfl⟩
          · exact absurd (Or.inr ⟨hf, Or.inl ⟨hc, hq.symm.trans hquit⟩⟩) hno
          · exact ⟨p, rfl, hc⟩
        · exact absurd (Or.inr ⟨hf, Or.inr (Or.inl hl)⟩) hno
        · exact absurd (Or.inr ⟨hf, Or.inr (Or.inr ho)⟩) hno
  | quit p loop hm hstep =>
    have honce := hp.once
    simp only [State.OnceAgrees, hp.pastRun p (Or.inl (by rw [hm]; rfl))] at honce
    exact absurd (hunset.symm.trans honce.1) Bool.false_ne_true
  | calledOnce p d | runReturns p d =>
    cases d <;> exact ⟨Nat.le_refl _, fun ht => absurd ht (hsame rfl)⟩
  | constructed | run | callsOnce | getLoopFuture | setRun | destroy | lock | wait | joined | waited =>
    exact ⟨Nat.le_refl _, fun ht => absurd ht (hsame rfl)⟩

omit [DecidableEq ι] [DecidableEq Addr] in
theorem toPromise_le (s : State ι Addr Func) : s.toPromise ≤ 15 := by
  unfold State.toPromise EventLoop.State.toReturn
  repeat' split
  all_goals omega

/-- `run` waits for fifteen steps of the new thread in `loopFuncs` and `loop` at most, unless a `quit`
has made its loop end too early.  Its steps inside `queueInLoop` and `quit`, behind the exchange of
`loopFuncs` and in its handlers, come on top. -/
theorem run_waits_bounded {threadId_ : ι} {s t : State ι Addr Func} {ls : List (Label ι Addr Func)}
    (h : (system ι Addr Func threadId_).Reachable s)
    (hr : (system ι Addr Func threadId_).run s ls = some t)
    (hset : t.promiseForLoop_.isSet = false) (hmissed : t.missed = false) :
    ls.countP Label.turns ≤ 15 := by
  have hbudget := System.run_countP_le (S := system ι Addr Func threadId_)
    (I := (system ι Addr Func threadId_).Reachable)
    (J := fun s => s.promiseForLoop_.isSet = false ∧ s.missed = false) (m := State.toPromise) (p := Label.turns)
    (q := fun _ => false) (c := 0)
    (fun s l t hs hst => hs.step hst)
    (fun s l t hs hst ht => by
      have hdoes := step_does hst
      refine ⟨isSet_step hdoes ht.1, Bool.eq_false_iff.mpr fun hm => ?_⟩
      exact Bool.false_ne_true (ht.2.symm.trans (missed_step (Reachable.inv hs).2.1 hdoes hm)))
    (fun s l t hs hst hJ ht =>
      (step_toPromise (Reachable.inv hs).1 (Reachable.inv hs).2.1 (step_does hst) ht.1 hJ.2).1)
    h hr ⟨hset, hmissed⟩
  have hle := toPromise_le s
  omega

theorem run_waits_bounded_start :
    ∃ s : State Nat Nat Char, (system Nat Nat Char 0).run (init 0 1) start = some s ∧
      s.promiseForLoop_.isSet = false ∧ start.countP Label.turns ≤ 15 := by
  have hr : (system Nat Nat Char 0).run (init 0 1) start = some _ := rfl
  exact ⟨_, hr, rfl, run_waits_bounded (.init ⟨0, 1, by decide, rfl⟩) hr rfl rfl⟩

/-- The functor of `loopFuncs` is left behind exactly when a `quit` was stored before the first test
of the loop; then no call of `run` returns, and the destructor does not come back from its own. -/
theorem run_hangs_iff {threadId_ creator : ι} {front : Addr} {t : State ι Addr Func}
    {ls : List (Label ι Addr Func)} (hcreator : creator ≠ threadId_)
    (hr : (system ι Addr Func threadId_).run (init front creator) ls = some t) :
    (t.missed = true ↔ ∃ pre p post u, ls = pre ++ .act (.quit p) :: post ∧
      (system ι Addr Func threadId_).run (init front creator) pre = some u ∧
      u.loop.phase = .condition ∧ u.promiseForLoop_.isSet = false) ∧
    (t.missed = true → ∀ js v, (system ι Addr Func threadId_).run t js = some v →
      v.missed = true ∧ ∀ p, v.ran p = false ∧ (v.member p).pastRun = false) := by
  have hinit : (system ι Addr Func threadId_).Reachable (init front creator) :=
    .init ⟨front, creator, hcreator, rfl⟩
  have hstays : ∀ {s v : State ι Addr Func} {js}, (system ι Addr Func threadId_).Reachable s →
      s.missed = true → (system ι Addr Func threadId_).run s js = some v → v.missed = true := by
    intro s v js hs hm hv
    exact System.Reachable.run_rel (S := system ι Addr Func threadId_)
      (R := fun s t => s.missed = true → t.missed = true) (fun _ h => h) (fun _ _ _ h h' hm => h' (h hm))
      (fun s l t hs hst => missed_step (Reachable.inv hs).2.1 (step_does hst)) hs hv hm
  refine ⟨⟨fun hm => ?_, ?_⟩, fun hm js v hv => ?_⟩
  · obtain ⟨pre, l, post, u, v, rfl, hu, hno, hst, hyes⟩ :=
      System.exists_entry (system ι Addr Func threadId_) (J := fun s => s.missed = true) hr
        (by simp [missed_iff, EventLoopThread.init]) hm
    obtain ⟨hp, hi, -⟩ := Reachable.inv (hinit.run hu)
    have hst : step threadId_ u l = some v := hst
    have hset := (missed_iff.mp hyes).1
    obtain ⟨p, rfl, hcondition⟩ :=
      (step_toPromise hp hi (step_does hst) hset (Bool.eq_false_iff.mpr hno)).2 hyes
    exact ⟨pre, p, post, u, rfl, hu, hcondition, isSet_step (step_does hst) hset⟩
  · rintro ⟨pre, p, post, u, rfl, hu, hcondition, hset⟩
    obtain ⟨u', v, hu', hst, hv⟩ := System.run_split (system ι Addr Func threadId_) hr
    cases hu.symm.trans hu'
    have hs := hinit.run hu
    refine hstays (hs.step hst) (missed_iff.mpr ?_) hv
    obtain ⟨-, hi, -⟩ := Reachable.inv hs
    have hlooping : u.loopFuncs = .looping := by
      cases hf : u.loopFuncs with
      | looping => rfl
      | returned => cases hcondition.symm.trans (hi.returned hf)
      | starting | queueing | takingFuture | waiting =>
        cases hcondition.symm.trans (hi.before (by rw [hf]; rfl)).1
    obtain ⟨_, hst⟩ := Option.ite_none_right_eq_some.mp hst
    obtain ⟨loop, hloop, rfl⟩ := Option.map_eq_some_iff.mp hst
    obtain ⟨_, hloop⟩ := Option.ite_none_right_eq_some.mp hloop
    cases hloop
    exact ⟨hset, Or.inr ⟨hlooping, Or.inl ⟨hcondition, rfl⟩⟩⟩
  · have hmissed := hstays (hinit.run hr) hm hv
    obtain ⟨hp, -, -⟩ := Reachable.inv ((hinit.run hr).run hv)
    have hno : ∀ p, ¬((v.member p).pastRun = true ∨ v.ran p = true) := by
      intro p hpast
      have honce := hp.once
      simp only [State.OnceAgrees, hp.pastRun p hpast] at honce
      exact Bool.false_ne_true ((missed_iff.mp hmissed).1.symm.trans honce.1)
    refine ⟨hmissed, fun p => ⟨?_, ?_⟩⟩
    · exact Bool.eq_false_iff.mpr fun hran => hno p (Or.inr hran)
    · exact Bool.eq_false_iff.mpr fun hpast => hno p (Or.inl hpast)

theorem run_hangs_iff_quit :
    ∃ s : State Nat Nat Char, (system Nat Nat Char 0).run (init 0 1)
        (start.take 13 ++ [.act (.quit 2)]) = some s ∧ s.missed = true := by
  have hr : (system Nat Nat Char 0).run (init 0 1) (start.take 13 ++ [.act (.quit 2)]) = some _ := rfl
  exact ⟨_, hr, (run_hangs_iff (by decide) hr).1.mpr ⟨start.take 13, 2, [], _, rfl, rfl, rfl, rfl⟩⟩

def Label.queues : Label ι Addr Func → Bool
  | .act l => l.enqueue.isSome
  | _ => false

theorem quitStored_step {threadId_ : ι} {s t : State ι Addr Func} {l : Label ι Addr Func}
    (h : Does threadId_ s l t) (hset : s.quitStored = true) : t.quitStored = true := by
  cases h with
  | quit => rfl
  | calledOnce p d | runReturns p d => cases d <;> exact hset
  | queueFirst | setLoopPointer | getRunFuture | enterLoop | clearLoop | setsPromise | act | constructed
    | run | callsOnce | getLoopFuture | setRun | destroy | lock | wait | joined | waited => exact hset

theorem step_toReturn {threadId_ : ι} {s t : State ι Addr Func} {l : Label ι Addr Func}
    (hs : (system ι Addr Func threadId_).Reachable s) (hst : step threadId_ s l = some t)
    (hset : s.quitStored = true) (ht : t.loopFuncs ≠ .returned) :
    t.loop.stepsToReturn + l.turns.toNat ≤ s.loop.stepsToReturn + 8 * l.queues.toNat := by
  obtain ⟨hp, hi, he⟩ := Reachable.inv hs
  have hi' := (Reachable.inv (hs.step hst)).2.1
  obtain ⟨hdone, hquit⟩ := he.quit hset
  have honce := hp.once
  simp only [State.OnceAgrees, hdone] at honce
  obtain ⟨hne, hcalls⟩ := hi.isSet.mp honce.1
  have hentered : s.loopFuncs.hasEntered ≠ false := fun hno => hne (hi.before hno).2
  have hconsumer := (EventLoop.Reachable.callsAgree hi.loop).consumer
  cases step_does hst with
  | queueFirst newNode loop hf | setLoopPointer hf | getRunFuture hf | enterLoop loop hf =>
    exact absurd (by rw [hf]; rfl) hentered
  | clearLoop => exact absurd rfl ht
  | setsPromise loop hpromise => exact absurd (hcalls.symm.trans hpromise) Bool.false_ne_true
  | act l loop hmay hkeeps hstep =>
    rcases EventLoop.step_cases hstep with ⟨hturns, -, hturn⟩ | ⟨hturns, hcalls⟩
    · obtain ⟨-, hout⟩ := hi.looping hmay hturn
      have hpays := hturn.pays hi.loop hi'.loop hquit ⟨hout, fun hstarting => hne (hi.starting hstarting)⟩
      rw [Label.turns, hturns]
      exact Nat.le_trans hpays (Nat.le_add_right _ _)
    · have hpays := hcalls.pays hi.loop hi'.loop (EventLoop.step_exchanged hstep hconsumer)
      have hlength : l.enqueue.toList.length = l.enqueue.isSome.toNat := by
        cases l.enqueue <;> rfl
      rw [Label.turns, hturns, Label.queues, ← hlength]
      exact hpays
  | quit p loop hm hstep =>
    rcases EventLoop.step_cases hstep with ⟨hno, -⟩ | ⟨-, hcalls⟩
    · cases hno
    · exact hcalls.pays hi.loop hi'.loop (EventLoop.step_exchanged hstep hconsumer)
  | calledOnce p d | runReturns p d => cases d <;> exact Nat.le_add_right _ _
  | constructed | run | callsOnce | getLoopFuture | setRun | destroy | lock | wait | joined | waited =>
    exact Nat.le_add_right _ _

/-- Behind its `quit` the destructor waits for seven steps of the new thread in `loop`, and eight for
each functor that waits or is queued meanwhile; the steps that its handlers and functors make
inside `queueInLoop` and `quit` come on top.  That thread does not sleep but for a write to its
eventfd that another thread is about to make. -/
theorem destructor_waits_bounded {threadId_ : ι} {s t : State ι Addr Func}
    {ls : List (Label ι Addr Func)} (h : (system ι Addr Func threadId_).Reachable s)
    (hset : s.quitStored = true) (hr : (system ι Addr Func threadId_).run s ls = some t)
    (ht : t.loopFuncs ≠ .returned) :
    ls.countP Label.turns ≤ 7 + 8 * (s.loop.funcs_.waiting.length + ls.countP Label.queues) ∧
      (t.loop.phase = .polling → 0 < t.loop.wakeupFd_ ∨ ∃ p, t.loop.owesWakeup threadId_ p) := by
  have hinv : ∀ s l t, ((system ι Addr Func threadId_).Reachable s ∧ s.quitStored = true) →
      (system ι Addr Func threadId_).step s l = some t →
      (system ι Addr Func threadId_).Reachable t ∧ t.quitStored = true := fun s l t hs hst =>
    ⟨hs.1.step hst, quitStored_step (step_does hst) hs.2⟩
  have hbudget := System.run_countP_le (S := system ι Addr Func threadId_)
    (J := fun s => s.loopFuncs ≠ .returned) (m := fun s => s.loop.stepsToReturn) (p := Label.turns)
    (q := Label.queues) (c := 8) hinv
    (fun s l t hs hst ht hreturned => ?_)
    (fun s l t hs hst _ ht => step_toReturn hs.1 hst hs.2 ht) ⟨h, hset⟩ hr ht
  · have hreturn := s.loop.toReturn_le
    refine ⟨?_, fun hpolling => ?_⟩
    · simp only [EventLoop.State.stepsToReturn] at hbudget
      omega
    · have hstored : t.quitStored = true :=
        System.Reachable.run_rel (S := system ι Addr Func threadId_)
          (R := fun s t => s.quitStored = true → t.quitStored = true) (fun _ h => h)
          (fun _ _ _ h h' hq => h' (h hq)) (fun s l t _ hst => quitStored_step (step_does hst)) h hr hset
      obtain ⟨-, hi, he⟩ := Reachable.inv (h.run hr)
      refine ((EventLoop.Reachable.inv hi.loop).quit hpolling).resolve_left fun hno => ?_
      exact Bool.false_ne_true (hno.symm.trans (he.quit hstored).2)
  · cases step_does hst with
    | queueFirst newNode loop hf | setLoopPointer hf | getRunFuture hf | enterLoop loop hf
      | clearLoop hf => exact absurd (hf.symm.trans hreturned) nofun
    | calledOnce p d | runReturns p d => cases d <;> exact ht hreturned
    | setsPromise | act | constructed | run | callsOnce | getLoopFuture | setRun | destroy | lock | quit
      | wait | joined | waited => exact ht hreturned

def finish : List (Label Nat Nat Char) :=
  [.act .loop, .act .userReturns, .act .loop, .act .loop, .act .loop]

theorem destructor_waits_bounded_finish :
    ∃ s t : State Nat Nat Char, (system Nat Nat Char 0).run (init 0 1) (start ++ stop) = some s ∧
      (system Nat Nat Char 0).run s finish = some t ∧ t.loop.phase = .outside ∧
      finish.countP Label.turns ≤ 7 := by
  have hr : (system Nat Nat Char 0).run (init 0 1) (start ++ stop) = some _ := rfl
  refine ⟨_, _, hr, rfl, rfl, ?_⟩
  exact (destructor_waits_bounded (System.Reachable.run (.init ⟨0, 1, by decide, rfl⟩) hr) rfl
    (by rfl) (by decide)).1

end MysqlConnectPool.EventLoopThread
