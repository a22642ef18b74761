import MysqlConnectPool.Event.FunctorOrder

/-! The steps of the loop thread one by one, and what it has still to do before it comes out of
`loop`. -/

universe u v w

namespace MysqlConnectPool.EventLoop

open Library

variable {ι : Type w} {Addr : Type u} {Func : Type v} [DecidableEq Addr]

/-- The steps of the loop thread in `loop`, but for those in which its handlers and functors call
`queueInLoop` and `quit`. -/
def Label.turns : Label ι Addr Func → Bool
  | .loop | .pollReturns _ | .wakeupRead | .userReturns => true
  | .queueInLoop _ _ _ | .link _ | .testLooping _ | .quit _ | .testThread _ | .wakeup _ => false

inductive Turn (s : State ι Addr Func) : Label ι Addr Func → State ι Addr Func → Prop
  | enter : s.phase = .outside → Turn s .loop { s with looping_ := true, phase := .starting }
  | reset : s.phase = .starting → Turn s .loop { s with quit_ := false, phase := .condition }
  | stop : s.phase = .condition → s.quit_ = true → Turn s .loop { s with phase := .leaving }
  | poll : s.phase = .condition → s.quit_ = false → Turn s .loop { s with phase := .polling }
  | drained : s.phase = .draining → s.funcs_.empty = true → Turn s .loop { s with phase := .condition }
  | drain : s.phase = .draining → s.funcs_.empty = false → Turn s .loop { s with phase := .dequeuing }
  | exhausted : s.phase = .dequeuing → s.funcs_.consumer = .idle → s.funcs_.empty = true →
    Turn s .loop { s with phase := .destroying }
  | dequeue : s.phase = .dequeuing → (s.funcs_.consumer = .idle → s.funcs_.empty = false) →
    s.funcs_.consumer.inHand = [] →
    Turn s .loop { s with funcs_ := s.funcs_.dequeueStep, phase := .dequeuing }
  | call (f : Func) : s.phase = .dequeuing → s.funcs_.consumer.inHand = [f] →
    Turn s .loop { s with funcs_ := s.funcs_.dequeueStep, phase := .calling }
  | left : s.phase = .leaving → Turn s .loop { s with looping_ := false, phase := .outside }
  | pollReturns (wakeupActive : Bool) : s.phase = .polling →
    Turn s (.pollReturns wakeupActive) { s with phase := .handling wakeupActive }
  | wakeupRead : s.phase = .handling true →
    Turn s .wakeupRead { s with wakeupFd_ := 0, phase := .handling false }
  | handled : s.phase = .handling false → Turn s .userReturns { s with phase := .draining }
  | called : s.phase = .calling → Turn s .userReturns { s with phase := .dequeuing }
  | destroyed : s.phase = .destroying → Turn s .userReturns { s with phase := .draining }

theorem loopStep_turn {s t : State ι Addr Func} (h : s.loopStep = some t) : Turn s .loop t := by
  cases hp : s.phase with
  | outside =>
    obtain rfl : _ = t := by simpa [State.loopStep, hp] using h
    exact .enter hp
  | starting =>
    obtain rfl : _ = t := by simpa [State.loopStep, hp] using h
    exact .reset hp
  | condition =>
    simp only [State.loopStep, hp] at h
    cases h
    split
    · exact .stop hp ‹_›
    · exact .poll hp (Bool.eq_false_iff.mpr ‹_›)
  | draining =>
    simp only [State.loopStep, hp] at h
    cases h
    split
    · exact .drained hp ‹_›
    · exact .drain hp (Bool.eq_false_iff.mpr ‹_›)
  | dequeuing =>
    simp only [State.loopStep, hp] at h
    cases hc : s.funcs_.consumer with
    | idle =>
      simp only [hc] at h
      split at h
      · cases h
        exact .exhausted hp hc ‹_›
      · cases h
        exact .dequeue hp (fun _ => Bool.eq_false_iff.mpr ‹_›) (by rw [hc]; rfl)
    | advanced tail output =>
      simp only [hc] at h
      cases h
      exact .call output hp (by rw [hc]; rfl)
    | loaded | moved =>
      simp only [hc] at h
      cases h
      exact .dequeue hp (by simp [hc]) (by rw [hc]; rfl)
  | leaving =>
    obtain rfl : _ = t := by simpa [State.loopStep, hp] using h
    exact .left hp
  | polling | handling | calling | destroying => simp [State.loopStep, hp] at h

variable [DecidableEq ι]

structure Calls (s : State ι Addr Func) (l : Label ι Addr Func) (t : State ι Addr Func) : Prop where
  phase : t.phase = s.phase
  looping : t.looping_ = s.looping_
  quit : t.quit_ = s.quit_ ∨ t.quit_ = true ∧ ∃ p, l = .quit p
  consumer : t.funcs_.consumer = s.funcs_.consumer
  dequeued : t.funcs_.dequeued = s.funcs_.dequeued
  empty : s.funcs_.empty = false → t.funcs_.empty = false

theorem empty_exchange {q r : MPSCQueue.State ι Addr Func} {p : ι} {newNode : Addr} {cb : Func}
    (h : MPSCQueue.step q (.exchange p newNode cb) = some r) (hne : q.empty = false) :
    r.empty = false := by
  obtain ⟨⟨-, hfresh⟩, h⟩ := Option.ite_none_right_eq_some.mp h
  cases h
  have htail : q.tail_ ≠ newNode := by
    rintro rfl
    simp [MPSCQueue.State.empty, MPSCQueue.State.next, Option.isNone_iff_eq_none.mp hfresh] at hne
  simpa [MPSCQueue.State.empty, MPSCQueue.State.next, MPSCQueue.State.enqueueExchange,
    Function.update_of_ne htail] using hne

theorem consumer_link {q r : MPSCQueue.State ι Addr Func} {p : ι}
    (h : MPSCQueue.step q (.link p) = some r) : r.consumer = q.consumer := by
  cases hp : q.pending p with
  | none => simp [MPSCQueue.step, hp] at h
  | some ab =>
    obtain rfl : q.enqueueLink p ab.1 ab.2 = r := by simpa [MPSCQueue.step, hp] using h
    unfold MPSCQueue.State.enqueueLink
    split <;> rfl

theorem empty_link {q r : MPSCQueue.State ι Addr Func} {p : ι}
    (h : MPSCQueue.step q (.link p) = some r) (hne : q.empty = false) : r.empty = false := by
  cases hp : q.pending p with
  | none => simp [MPSCQueue.step, hp] at h
  | some ab =>
    obtain rfl : q.enqueueLink p ab.1 ab.2 = r := by simpa [MPSCQueue.step, hp] using h
    unfold MPSCQueue.State.enqueueLink
    split
    · exact hne
    · by_cases htail : q.tail_ = ab.1
      · simp [MPSCQueue.State.empty, MPSCQueue.State.next, htail]
      · simpa [MPSCQueue.State.empty, MPSCQueue.State.next, Function.update_of_ne htail] using hne

theorem step_cases {threadId_ : ι} {s t : State ι Addr Func} {l : Label ι Addr Func}
    (h : step threadId_ s l = some t) :
    l.turns = true ∧ (s.phase = .polling ∨ s.caller threadId_ = .idle) ∧ Turn s l t ∨
      l.turns = false ∧ Calls s l t := by
  cases l with
  | queueInLoop p newNode cb =>
    obtain ⟨_, h⟩ := Option.ite_none_right_eq_some.mp h
    obtain ⟨q, hq, rfl⟩ := Option.map_eq_some_iff.mp h
    have hsame := (Option.ite_none_right_eq_some.mp hq).2
    exact Or.inr ⟨rfl, rfl, rfl, Or.inl rfl, by cases hsame; rfl, by cases hsame; rfl,
      empty_exchange hq⟩
  | link p =>
    obtain ⟨_, h⟩ := Option.ite_none_right_eq_some.mp h
    obtain ⟨q, hq, rfl⟩ := Option.map_eq_some_iff.mp h
    exact Or.inr ⟨rfl, rfl, rfl, Or.inl rfl, consumer_link hq, (MPSCQueue.exchanged_link hq).2,
      empty_link hq⟩
  | quit p =>
    obtain ⟨_, h⟩ := Option.ite_none_right_eq_some.mp h
    cases h
    exact Or.inr ⟨rfl, rfl, rfl, Or.inr ⟨rfl, p, rfl⟩, rfl, rfl, fun he => he⟩
  | testLooping p | testThread p | wakeup p =>
    obtain ⟨_, h⟩ := Option.ite_none_right_eq_some.mp h
    cases h
    exact Or.inr ⟨rfl, rfl, rfl, Or.inl rfl, rfl, rfl, fun he => he⟩
  | loop =>
    obtain ⟨hidle, h⟩ := Option.ite_none_right_eq_some.mp h
    exact Or.inl ⟨rfl, Or.inr hidle, loopStep_turn h⟩
  | pollReturns wakeupActive =>
    obtain ⟨⟨hp, -⟩, h⟩ := Option.ite_none_right_eq_some.mp h
    cases h
    exact Or.inl ⟨rfl, Or.inl hp, .pollReturns wakeupActive hp⟩
  | wakeupRead =>
    obtain ⟨⟨hp, hidle⟩, h⟩ := Option.ite_none_right_eq_some.mp h
    cases h
    exact Or.inl ⟨rfl, Or.inr hidle, .wakeupRead hp⟩
  | userReturns =>
    obtain ⟨hidle, h⟩ := Option.ite_none_right_eq_some.mp h
    refine Or.inl ⟨rfl, Or.inr hidle, ?_⟩
    split at h <;> cases h
    · exact .handled ‹_›
    · exact .called ‹_›
    · exact .destroyed ‹_›

def Label.enqueue : Label ι Addr Func → Option (MPSCQueue.Enqueue ι Addr Func)
  | .queueInLoop p newNode cb => some ⟨p, newNode, cb⟩
  | _ => none

theorem step_exchanged {threadId_ : ι} {s t : State ι Addr Func} {l : Label ι Addr Func}
    (h : step threadId_ s l = some t) (hidle : s.phase = .dequeuing ∨ s.funcs_.consumer = .idle) :
    t.funcs_.exchanged = s.funcs_.exchanged ++ l.enqueue.toList := by
  rcases step_funcs h hidle with ⟨p, newNode, cb, rfl, hq, -⟩ | ⟨p, rfl, hq, -⟩ |
    ⟨rfl, -, -, hq⟩ | ⟨hqueue, -, -, hq, -⟩
  · have hsame := (Option.ite_none_right_eq_some.mp hq).2
    rw [← Option.some.inj hsame]
    rfl
  · rw [(MPSCQueue.exchanged_link hq).1]
    exact (List.append_nil _).symm
  · rw [hq]
    refine Eq.trans ?_ (List.append_nil _).symm
    split
    · exact (MPSCQueue.dequeueStep_history _).1
    · rfl
  · rw [hq]
    cases l with
    | queueInLoop p newNode cb => exact absurd rfl (hqueue p newNode cb)
    | link | loop | testLooping | quit | testThread | wakeup | pollReturns | wakeupRead
      | userReturns => exact (List.append_nil _).symm

omit [DecidableEq ι] in
theorem Turn.dequeued {s t : State ι Addr Func} {l : Label ι Addr Func} (h : Turn s l t) :
    t.phase ≠ .calling ∧ t.funcs_.dequeued = s.funcs_.dequeued ∨
      t.phase = .calling ∧ s.phase = .dequeuing ∧
        ∃ f, s.funcs_.consumer.inHand = [f] ∧ t.funcs_.dequeued = s.funcs_.dequeued ++ [f] := by
  have hstep := (MPSCQueue.dequeueStep_history s.funcs_).2.2.2
  cases h with
  | call f hp hf => exact Or.inr ⟨rfl, hp, f, hf, hf ▸ hstep⟩
  | dequeue hp hempty hf => exact Or.inl ⟨nofun, hstep.trans (by rw [hf, List.append_nil])⟩
  | enter | reset | stop | poll | drained | drain | exhausted | left | pollReturns | wakeupRead
    | handled | called | destroyed => exact Or.inl ⟨nofun, rfl⟩

omit [DecidableEq ι] in
theorem Turn.starting {s t : State ι Addr Func} {l : Label ι Addr Func} (h : Turn s l t)
    (ht : t.phase = .starting) : s.phase = .outside := by
  cases h with
  | enter hp => exact hp
  | _ => cases ht

omit [DecidableEq ι] in
theorem Turn.outside {s t : State ι Addr Func} {l : Label ι Addr Func} (h : Turn s l t)
    (hs : s.phase = .outside) : t = { s with looping_ := true, phase := .starting } := by
  cases h with
  | enter => rfl
  | reset hp | stop hp | poll hp | drained hp | drain hp | exhausted hp | dequeue hp | call _ hp
    | left hp | pollReturns _ hp | wakeupRead hp | handled hp | called hp | destroyed hp =>
    cases hs.symm.trans hp

omit [DecidableEq ι] in
theorem Turn.calling {s t : State ι Addr Func} {l : Label ι Addr Func} (h : Turn s l t)
    (hs : s.phase = .calling) : l = .userReturns := by
  cases h with
  | handled | called | destroyed => rfl
  | enter hp | reset hp | stop hp | poll hp | drained hp | drain hp | exhausted hp | dequeue hp
    | call _ hp | left hp | pollReturns _ hp | wakeupRead hp => cases hs.symm.trans hp

theorem step_keeps_quit {threadId_ : ι} {s t : State ι Addr Func} {l : Label ι Addr Func}
    (h : step threadId_ s l = some t) (hquit : s.quit_ = true) (hp : s.phase ≠ .starting) :
    t.quit_ = true := by
  rcases step_cases h with ⟨-, -, hturn⟩ | ⟨-, hcalls⟩
  · cases hturn with
    | reset hstarting => exact absurd hstarting hp
    | enter | stop | poll | drained | drain | exhausted | dequeue | call | left | pollReturns
      | wakeupRead | handled | called | destroyed => exact hquit
  · rcases hcalls.quit with hsame | ⟨hset, -⟩
    · exact hsame.trans hquit
    · exact hset

theorem length_waiting {threadId_ : ι} {s : State ι Addr Func}
    (h : (system ι Addr Func threadId_).Reachable s) :
    s.funcs_.dequeued.length + s.funcs_.waiting.length = s.funcs_.exchanged.length := by
  obtain ⟨done, rest, hi⟩ := MPSCQueue.exists_inv (Reachable.callsAgree h).queue
  have hdone : done.length = (s.funcs_.dequeued ++ s.funcs_.consumer.inHand).length := by
    rw [← hi.dequeued, List.length_map]
  rw [hi.waiting_eq, hi.exchanged]
  simp only [List.length_append, List.length_map] at hdone ⊢
  omega

/-- How many steps the loop thread is away from its return once `quit_` is set, but for the
functors that wait. -/
def State.toReturn (s : State ι Addr Func) : Nat :=
  match s.phase with
  | .outside | .starting => 0
  | .leaving => 1
  | .condition => 2
  | .draining => 4
  | .destroying | .handling false => 5
  | .handling true => 6
  | .calling | .polling => 7
  | .dequeuing =>
    match s.funcs_.consumer with
    | .idle => if s.funcs_.empty then 6 else 3
    | .loaded _ _ => 2
    | .moved _ _ _ => 1
    | .advanced _ _ => 0

omit [DecidableEq Addr] [DecidableEq ι] in
theorem State.toReturn_le (s : State ι Addr Func) : s.toReturn ≤ 7 := by
  unfold State.toReturn
  repeat' split
  all_goals omega

def State.stepsToReturn (s : State ι Addr Func) : Nat := 8 * s.funcs_.waiting.length + s.toReturn

theorem dequeueStep_consumer {q : MPSCQueue.State ι Addr Func}
    (h : (MPSCQueue.system ι Addr Func).Reachable q) (hempty : q.consumer = .idle → q.empty = false)
    (hin : q.consumer.inHand = []) :
    (q.consumer = .idle ∧ ∃ tail next, q.dequeueStep.consumer = .loaded tail next) ∨
      ((∃ tail next, q.consumer = .loaded tail next) ∧
        ∃ tail next output, q.dequeueStep.consumer = .moved tail next output) ∨
      ((∃ tail next output, q.consumer = .moved tail next output) ∧
        ∃ tail output, q.dequeueStep.consumer = .advanced tail output) := by
  obtain ⟨done, rest, hi⟩ := MPSCQueue.exists_inv h
  cases hc : q.consumer with
  | idle =>
    obtain ⟨next, hn⟩ := Option.isSome_iff_exists.mp (Option.isNone_eq_false_iff.mp (hempty hc))
    simp [MPSCQueue.State.dequeueStep, hc, hi.consumer_load hn]
  | loaded tail next =>
    obtain ⟨output, hmove⟩ := hi.consumer_move hc
    simp [MPSCQueue.State.dequeueStep, hc, hmove]
  | moved tail next output =>
    simp [MPSCQueue.State.dequeueStep, hc, MPSCQueue.State.dequeueAdvance]
  | advanced tail output => simp [hc, MPSCQueue.Consumer.inHand] at hin

theorem toReturn_dequeue {s : State ι Addr Func} (h : (MPSCQueue.system ι Addr Func).Reachable s.funcs_)
    (hp : s.phase = .dequeuing) (hempty : s.funcs_.consumer = .idle → s.funcs_.empty = false)
    (hin : s.funcs_.consumer.inHand = []) :
    State.toReturn { s with funcs_ := s.funcs_.dequeueStep, phase := .dequeuing } + 1 ≤ s.toReturn := by
  rcases dequeueStep_consumer h hempty hin with ⟨hc, _, _, hnext⟩ | ⟨⟨_, _, hc⟩, _, _, _, hnext⟩ |
    ⟨⟨_, _, _, hc⟩, _, _, hnext⟩
  · simp [State.toReturn, hp, hc, hempty hc, hnext]
  · simp [State.toReturn, hp, hc, hnext]
  · simp [State.toReturn, hp, hc, hnext]

theorem Turn.pays {threadId_ : ι} {s t : State ι Addr Func} {l : Label ι Addr Func} (h : Turn s l t)
    (hs : (system ι Addr Func threadId_).Reachable s) (ht : (system ι Addr Func threadId_).Reachable t)
    (hquit : s.quit_ = true) (hin : s.phase ≠ .outside ∧ s.phase ≠ .starting) :
    t.stepsToReturn + 1 ≤ s.stepsToReturn := by
  have hlen := length_waiting hs
  have hlen' := length_waiting ht
  have hsame : t.funcs_.exchanged = s.funcs_.exchanged := by
    have hstep := (MPSCQueue.dequeueStep_history s.funcs_).1
    cases h <;> first | rfl | exact hstep
  rw [hsame] at hlen'
  unfold State.stepsToReturn
  cases h with
  | enter hp => exact absurd hp hin.1
  | reset hp => exact absurd hp hin.2
  | poll hp hfalse => simp [hquit] at hfalse
  | stop hp | drained hp | left hp | wakeupRead hp | handled hp | destroyed hp =>
    simp [State.toReturn, hp]
  | pollReturns b hp => cases b <;> simp [State.toReturn, hp]
  | drain hp hempty =>
    have hc := (Reachable.callsAgree hs).consumer.resolve_left (by simp [hp])
    simp [State.toReturn, hp, hc, hempty]
  | exhausted hp hc hempty => simp [State.toReturn, hp, hc, hempty]
  | called hp =>
    have hc := (Reachable.callsAgree hs).consumer.resolve_left (by simp [hp])
    simp only [State.toReturn, hp, hc]
    split <;> omega
  | dequeue hp hempty hf =>
    have hpays := toReturn_dequeue (Reachable.callsAgree hs).queue hp hempty hf
    have hdequeued := (MPSCQueue.dequeueStep_history s.funcs_).2.2.2
    rw [hf, List.append_nil] at hdequeued
    simp only [hdequeued] at hlen' ⊢
    omega
  | call f hp hf =>
    have hdequeued := (MPSCQueue.dequeueStep_history s.funcs_).2.2.2
    simp only [hdequeued, hf, List.length_append, List.length_singleton] at hlen'
    have hcalling : State.toReturn { s with funcs_ := s.funcs_.dequeueStep, phase := .calling } = 7 := rfl
    rw [hcalling]
    dsimp only
    omega

omit [DecidableEq ι] [DecidableEq Addr] in
theorem Calls.toReturn_le {s t : State ι Addr Func} {l : Label ι Addr Func} (h : Calls s l t) :
    t.toReturn ≤ s.toReturn := by
  simp only [State.toReturn, h.phase, h.consumer]
  cases s.phase with
  | dequeuing =>
    cases s.funcs_.consumer with
    | idle =>
      cases he : s.funcs_.empty with
      | false => simp [h.empty he]
      | true =>
        dsimp only
        split <;> simp
    | loaded | moved | advanced => exact Nat.le_refl _
  | handling wakeupActive => cases wakeupActive <;> exact Nat.le_refl _
  | outside | starting | condition | polling | draining | calling | destroying | leaving =>
    exact Nat.le_refl _

theorem Calls.pays {threadId_ : ι} {s t : State ι Addr Func} {l : Label ι Addr Func} (h : Calls s l t)
    (hs : (system ι Addr Func threadId_).Reachable s) (ht : (system ι Addr Func threadId_).Reachable t)
    (hsame : t.funcs_.exchanged = s.funcs_.exchanged ++ l.enqueue.toList) :
    t.stepsToReturn ≤ s.stepsToReturn + 8 * l.enqueue.toList.length := by
  have hlen := length_waiting hs
  have hlen' := length_waiting ht
  rw [hsame, List.length_append, h.dequeued] at hlen'
  have hreturn := h.toReturn_le
  unfold State.stepsToReturn
  omega

structure FirstDrain (s : State ι Addr Func) : Prop where
  called : s.phase = .calling ∨ s.phase = .destroying → s.funcs_.dequeued ≠ []
  dequeuing : s.phase = .dequeuing → s.funcs_.consumer = .idle → s.funcs_.dequeued = [] →
    s.funcs_.empty = false

theorem FirstDrain.step {threadId_ : ι} {s t : State ι Addr Func} {l : Label ι Addr Func}
    (h : FirstDrain s) (hs : (system ι Addr Func threadId_).Reachable s)
    (hst : step threadId_ s l = some t) : FirstDrain t := by
  rcases step_cases hst with ⟨-, -, hturn⟩ | ⟨-, hcalls⟩
  · cases hturn with
    | drain hp hempty => exact ⟨nofun, fun _ _ _ => hempty⟩
    | exhausted hp hc hempty =>
      refine ⟨fun _ hnone => ?_, nofun⟩
      exact Bool.false_ne_true ((h.dequeuing hp hc hnone).symm.trans hempty)
    | dequeue hp hempty hf =>
      -- a consumer that has loaded a value comes to rest by handing it over
      refine ⟨nofun, fun _ hc _ => absurd hc ?_⟩
      rcases dequeueStep_consumer (Reachable.callsAgree hs).queue hempty hf with
        ⟨_, _, _, hnext⟩ | ⟨_, _, _, _, hnext⟩ | ⟨_, _, _, hnext⟩
      · simp [hnext]
      · simp [hnext]
      · simp [hnext]
    | call f hp hf =>
      refine ⟨fun _ => ?_, nofun⟩
      dsimp only
      rw [(MPSCQueue.dequeueStep_history s.funcs_).2.2.2, hf]
      simp
    | called hp => exact ⟨nofun, fun _ _ hnone => absurd hnone (h.called (Or.inl hp))⟩
    | enter | reset | stop | poll | drained | left | pollReturns | wakeupRead | handled | destroyed =>
      exact ⟨nofun, nofun⟩
  · constructor
    · rw [hcalls.phase, hcalls.dequeued]
      exact h.called
    · rw [hcalls.phase, hcalls.consumer, hcalls.dequeued]
      exact fun hp hc hnone => hcalls.empty (h.dequeuing hp hc hnone)

theorem Reachable.firstDrain {threadId_ : ι} {s : State ι Addr Func}
    (h : (system ι Addr Func threadId_).Reachable s) : FirstDrain s := by
  have hboth : (system ι Addr Func threadId_).Reachable s ∧ FirstDrain s := by
    refine h.invariant (I := fun s => (system ι Addr Func threadId_).Reachable s ∧ FirstDrain s) ?_ ?_
    · rintro _ ⟨front, rfl⟩
      exact ⟨.init ⟨front, rfl⟩, nofun, nofun⟩
    · rintro s l t ⟨hs, hfirst⟩ hst
      exact ⟨hs.step hst, hfirst.step hs hst⟩
  exact hboth.2

end MysqlConnectPool.EventLoop
