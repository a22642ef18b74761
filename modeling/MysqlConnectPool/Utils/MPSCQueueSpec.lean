import MysqlConnectPool.Library.Executor
import MysqlConnectPool.Utils.MPSCQueueInv

/-! What the queue is for: it refines a plain first-in first-out queue, and its destructor
leaves nothing behind. -/

universe u v w

namespace MysqlConnectPool.MPSCQueue

open Library

variable {ι : Type w} {Addr : Type u} {T : Type v} [DecidableEq Addr]

theorem dequeueStep_history (s : State ι Addr T) :
    s.dequeueStep.exchanged = s.exchanged ∧ s.dequeueStep.pending = s.pending ∧
      s.dequeueStep.allocated = s.allocated ∧
      s.dequeueStep.dequeued = s.dequeued ++ s.consumer.inHand := by
  unfold State.dequeueStep
  cases s.consumer with
  | idle =>
    unfold State.dequeueLoad
    dsimp only
    split
    · exact ⟨rfl, rfl, rfl, (List.append_nil _).symm⟩
    · split <;> exact ⟨rfl, rfl, rfl, (List.append_nil _).symm⟩
  | loaded tail next =>
    unfold State.dequeueMove
    dsimp only
    split <;> exact ⟨rfl, rfl, rfl, (List.append_nil _).symm⟩
  | moved tail next output => exact ⟨rfl, rfl, rfl, (List.append_nil _).symm⟩
  | advanced tail output =>
    unfold State.dequeueFree State.delete
    dsimp only
    split <;> exact ⟨rfl, rfl, rfl, rfl⟩

def State.waiting (s : State ι Addr T) : List T :=
  (s.exchanged.map (·.value)).drop s.dequeued.length

theorem Inv.waiting_eq {s : State ι Addr T} (h : Inv s done rest) :
    s.waiting = s.consumer.inHand ++ rest.map (·.value) := by
  rw [State.waiting, h.exchanged, List.map_append, h.dequeued, List.append_assoc,
    List.drop_left]

theorem Inv.rest_eq_nil {s : State ι Addr T} (h : Inv s done rest)
    (hpending : ∀ p, s.pending p = none) (hempty : s.empty = true) : rest = [] := by
  cases rest with
  | nil => rfl
  | cons e es =>
    rcases h.link (s.tail_, e) (by simp [links]) with hlink | ⟨-, hpend⟩
    · simp [State.empty, hlink] at hempty
    · rw [hpending] at hpend
      cases hpend

def State.dequeue (s : State ι Addr T) : State ι Addr T :=
  s.dequeueStep.dequeueStep.dequeueStep.dequeueStep

def State.drain : Nat → State ι Addr T → Option (State ι Addr T)
  | 0, _ => none
  | fuel + 1, s => if s.empty then some s else drain fuel s.dequeue

def State.destroy (fuel : Nat) (s : State ι Addr T) : Option (State ι Addr T) :=
  (s.drain fuel).map fun s => s.delete s.head_

theorem Inv.consumer_load {s : State ι Addr T} (h : Inv s done rest) {next : Addr}
    (hn : s.next s.tail_ = some next) : s.dequeueLoad.consumer = .loaded s.tail_ next := by
  obtain ⟨node, hnode⟩ := Option.isSome_iff_exists.mp
    (h.chain_live (a := s.tail_) (by simp [chain]))
  have hnext : node.next_ = some next := by simpa [State.next, hnode] using hn
  simp [State.dequeueLoad, hnode, hnext]

theorem Inv.consumer_move {s : State ι Addr T} (h : Inv s done rest) {tail next : Addr}
    (hc : s.consumer = .loaded tail next) :
    ∃ output, (s.dequeueMove tail next).consumer = .moved tail next output := by
  obtain ⟨-, hn⟩ : tail = s.tail_ ∧ s.next s.tail_ = some next := by
    simpa [hc, Consumer.Agrees] using h.agrees
  obtain ⟨e, es, rfl, rfl⟩ := h.next_some hn
  have hval : (s.heap e.newNode).bind (·.dataPtr_) = some e.value :=
    h.values e (by simp [hc, Consumer.unread])
  obtain ⟨⟨dataPtr_, next_⟩, hnode, rfl⟩ := Option.bind_eq_some_iff.mp hval
  exact ⟨e.value, by simp [State.dequeueMove, hnode]⟩

theorem Inv.dequeue {s : State ι Addr T} {e : Enqueue ι Addr T} (h : Inv s done (e :: es))
    (hidle : s.consumer = .idle) (hempty : s.empty = false) :
    Inv s.dequeue (done ++ [e]) es ∧ s.dequeue.consumer = .idle := by
  obtain ⟨next, hn⟩ := Option.isSome_iff_exists.mp (Option.isNone_eq_false_iff.mp hempty)
  have h₁ := h.load hidle
  have hc₁ := h.consumer_load hn
  have h₂ := h₁.move hc₁
  obtain ⟨output, hc₂⟩ := h₁.consumer_move hc₁
  have h₃ := h₂.advance hc₂
  have h₄ := h₃.free rfl
  have heq : s.dequeue =
      (((s.dequeueLoad.dequeueMove s.tail_ next).dequeueAdvance s.tail_ next output).dequeueFree
        s.tail_ output) := by
    have e₁ : s.dequeueStep = s.dequeueLoad := by rw [State.dequeueStep, hidle]
    have e₂ : s.dequeueLoad.dequeueStep = s.dequeueLoad.dequeueMove s.tail_ next := by
      rw [State.dequeueStep, hc₁]
    have e₃ : (s.dequeueLoad.dequeueMove s.tail_ next).dequeueStep =
        (s.dequeueLoad.dequeueMove s.tail_ next).dequeueAdvance s.tail_ next output := by
      rw [State.dequeueStep, hc₂]
    rw [State.dequeue, e₁, e₂, e₃]
    rfl
  rw [heq]
  exact ⟨h₄, rfl⟩

theorem dequeue_history (s : State ι Addr T) :
    s.dequeue.exchanged = s.exchanged ∧ s.dequeue.pending = s.pending ∧
      s.dequeue.allocated = s.allocated := by
  obtain ⟨he₁, hp₁, ha₁, -⟩ := dequeueStep_history s
  obtain ⟨he₂, hp₂, ha₂, -⟩ := dequeueStep_history s.dequeueStep
  obtain ⟨he₃, hp₃, ha₃, -⟩ := dequeueStep_history s.dequeueStep.dequeueStep
  obtain ⟨he₄, hp₄, ha₄, -⟩ := dequeueStep_history s.dequeueStep.dequeueStep.dequeueStep
  exact ⟨he₄.trans (he₃.trans (he₂.trans he₁)), hp₄.trans (hp₃.trans (hp₂.trans hp₁)),
    ha₄.trans (ha₃.trans (ha₂.trans ha₁))⟩

theorem Inv.drain {s : State ι Addr T} (h : Inv s done rest) (hidle : s.consumer = .idle)
    (hpending : ∀ p, s.pending p = none) :
    ∃ t done', s.drain (rest.length + 1) = some t ∧ Inv t done' [] ∧ t.consumer = .idle ∧
      t.exchanged = s.exchanged ∧ t.allocated = s.allocated := by
  induction rest generalizing s done with
  | nil =>
    have hempty : s.empty = true := by
      have := h.headNext
      rw [h.head] at this
      exact Option.isNone_iff_eq_none.mpr this
    exact ⟨s, done, if_pos hempty, h, hidle, rfl, rfl⟩
  | cons e es ih =>
    have hempty : s.empty = false := by
      by_contra hne
      exact absurd (h.rest_eq_nil hpending (by simpa using hne)) (List.cons_ne_nil e es)
    obtain ⟨hexchanged, hsame, hallocated⟩ := dequeue_history s
    obtain ⟨hdequeue, hidle'⟩ := h.dequeue hidle hempty
    obtain ⟨t, done', ht, hinv, hc, he, ha⟩ := ih hdequeue hidle' (fun p => hsame ▸ hpending p)
    refine ⟨t, done', ?_, hinv, hc, he.trans hexchanged, ha.trans hallocated⟩
    rw [State.drain, hempty, if_neg Bool.false_ne_true]
    exact ht

variable [DecidableEq ι]

theorem exchanged_link {s t : State ι Addr T} {p : ι} (h : step s (.link p) = some t) :
    t.exchanged = s.exchanged ∧ t.dequeued = s.dequeued := by
  cases hp : s.pending p with
  | none => simp [step, hp] at h
  | some ab =>
    obtain rfl : s.enqueueLink p ab.1 ab.2 = t := by simpa [step, hp] using h
    unfold State.enqueueLink
    split <;> exact ⟨rfl, rfl⟩

theorem pending_link {s t : State ι Addr T} {p : ι} (h : (system ι Addr T).Reachable s)
    (hst : step s (.link p) = some t) : t.pending = Function.update s.pending p none := by
  obtain ⟨done, rest, hi⟩ := exists_inv h
  cases hp : s.pending p with
  | none => simp [step, hp] at hst
  | some ab =>
    obtain rfl : s.enqueueLink p ab.1 ab.2 = t := by simpa [step, hp] using hst
    obtain ⟨e, he, -, -⟩ := hi.pending_link hp
    obtain ⟨node, hnode⟩ := Option.isSome_iff_exists.mp (hi.chain_live (fst_mem_chain he))
    simp [State.enqueueLink, hnode]

/-- The exchange submits the value, and the step that frees the old tail hands one over. -/
def refinesExecutor : Refinement (system ι Addr T) (Executor.system T) where
  abs s := ⟨s.waiting, s.dequeued⟩
  acts s
    | .exchange _ _ output => [.submit output]
    | .link _ => []
    | .dequeue => s.consumer.inHand.map fun _ => .call
  init := by
    rintro _ ⟨front, rfl⟩
    rfl
  step := by
    intro s i t h hst
    obtain ⟨done, rest, hi⟩ := exists_inv h
    cases i with
    | exchange p newNode output =>
      obtain ⟨-, hst⟩ := Option.ite_none_right_eq_some.mp hst
      cases hst
      have hlen : s.dequeued.length ≤ (s.exchanged.map (·.value)).length := by
        rw [hi.exchanged, List.map_append, hi.dequeued]
        simp
      have hwaiting : (s.enqueueExchange p newNode output).waiting = s.waiting ++ [output] := by
        simp only [State.waiting, State.enqueueExchange, List.map_append, List.map_cons,
          List.map_nil]
        exact List.drop_append_of_le_length hlen
      change some (Executor.State.mk (s.waiting ++ [output]) s.dequeued) =
        some (Executor.State.mk _ s.dequeued)
      rw [hwaiting]
    | link p =>
      obtain ⟨hexchanged, hdequeued⟩ := exchanged_link hst
      have hwaiting : t.waiting = s.waiting := by
        rw [State.waiting, hexchanged, hdequeued, State.waiting]
      exact congrArg some (by rw [hwaiting, hdequeued])
    | dequeue =>
      cases hst
      obtain ⟨hexchanged, -, -, hdequeued⟩ := dequeueStep_history s
      have hwaiting : s.dequeueStep.waiting = s.waiting.drop s.consumer.inHand.length := by
        rw [State.waiting, hexchanged, hdequeued, State.waiting, List.drop_drop,
          List.length_append]
      rw [hi.waiting_eq] at hwaiting
      have hin : s.consumer.inHand = [] ∨ ∃ output, s.consumer.inHand = [output] := by
        cases s.consumer with
        | advanced tail output => exact Or.inr ⟨output, rfl⟩
        | _ => exact Or.inl rfl
      rcases hin with hin | ⟨output, hin⟩
      · rw [hin] at hdequeued hwaiting ⊢
        refine congrArg some ?_
        rw [hwaiting, hdequeued, hi.waiting_eq, hin, List.append_nil]
        rfl
      · rw [hin] at hdequeued hwaiting ⊢
        refine Option.bind_eq_some_iff.mpr ⟨_, ?_, rfl⟩
        simp only [Executor.system, Executor.step, hi.waiting_eq, hin, hwaiting, hdequeued]
        rfl

/-- Once no `enqueue` and no `dequeue` is under way, the destructor hands over every value that
is left, and frees every node as often as it was allocated. -/
theorem destructor_frees_all {s : State ι Addr T} (h : (system ι Addr T).Reachable s)
    (hidle : s.consumer = .idle) (hpending : ∀ p, s.pending p = none) :
    ∃ t, s.destroy (s.waiting.length + 1) = some t ∧ t.fault = none ∧
      t.dequeued = s.exchanged.map (·.value) ∧ (∀ a, t.heap a = none) ∧
      t.allocated = s.allocated ∧ ∀ a, t.freed.count a = s.allocated.count a := by
  obtain ⟨done, rest, hi⟩ := exists_inv h
  have hlength : s.waiting.length = rest.length := by
    rw [hi.waiting_eq, hidle]
    simp [Consumer.inHand]
  obtain ⟨t, done', ht, hinv, hc, hexchanged, hallocated⟩ := hi.drain hidle hpending
  have hhead : t.head_ = t.tail_ := hinv.head
  have hlive : ∀ a, (t.heap a).isSome ↔ a = t.head_ := by
    intro a
    rw [hinv.live a, hc, hhead]
    simp [Consumer.detached, chain]
  obtain ⟨node, hnode⟩ := Option.isSome_iff_exists.mp ((hlive t.head_).mpr rfl)
  have hdelete : t.delete t.head_ = { t with
      heap := Function.update t.heap t.head_ none, freed := t.freed ++ [t.head_] } := by
    simp [State.delete, hnode]
  refine ⟨t.delete t.head_, ?_, ?_, ?_, ?_, ?_, ?_⟩
  · rw [State.destroy, hlength, ht, Option.map_some]
  · rw [hdelete]
    exact hinv.fault
  · have hdequeued : done'.map (·.value) = t.dequeued := by
      simpa [hc, Consumer.inHand] using hinv.dequeued
    rw [hdelete, ← hexchanged, hinv.exchanged, List.append_nil, hdequeued]
  · intro a
    rw [hdelete]
    by_cases ha : a = t.head_
    · rw [ha]
      exact Function.update_self _ _ _
    · refine (Function.update_of_ne ha _ _).trans (Option.not_isSome_iff_eq_none.mp ?_)
      exact fun hsome => ha ((hlive a).mp hsome)
  · rw [hdelete]
    exact hallocated
  · intro a
    rw [hdelete, ← hallocated, hinv.counts a, List.count_append, List.count_singleton]
    by_cases ha : a = t.head_
    · simp [ha, hnode]
    · simp [Ne.symm ha, mt (hlive a).mp ha]

theorem destructor_frees_all_two :
    ∃ s t : State Bool Nat Char,
      (system Bool Nat Char).run (init 0)
        [.exchange true 1 'a', .exchange false 2 'b', .link false, .link true] = some s ∧
      s.destroy 3 = some t ∧ t.dequeued = ['a', 'b'] ∧ t.fault = none := by
  have hr : (system Bool Nat Char).run (init 0)
      [.exchange true 1 'a', .exchange false 2 'b', .link false, .link true] = some _ := rfl
  obtain ⟨t, ht, hfault, hdequeued, -⟩ :=
    destructor_frees_all (System.Reachable.run (.init ⟨0, rfl⟩) hr) rfl
      (fun p => by cases p <;> rfl)
  exact ⟨_, t, hr, ht, hdequeued, hfault⟩

end MysqlConnectPool.MPSCQueue
