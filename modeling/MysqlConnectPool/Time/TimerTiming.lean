import MysqlConnectPool.Time.TimerQueueInv

/-! When timers run: what each `handleRead` runs, in which order, and how far apart. -/

universe u

namespace MysqlConnectPool.TimerQueue

variable {H : Library.MinQueue.{0, 0, u} Timer.when_}

/-- A call of `handleRead`: the time it sampled, the heap at its start, the timers whose callbacks it
ran, in order, and those that were cancelled when their turn came. -/
structure Read where
  now : Int
  heap : Multiset Timer
  runs : List Timer
  cancelled : List Timer

/-- The queue and, as history, the calls of `handleRead`, the last one first. -/
structure Observed (H : Library.MinQueue.{0, 0, u} Timer.when_) where
  queue : State H
  reads : List Read

def Read.turn (r : Read) (s : State H) (t : Timer) : Read :=
  if t.id_ ∈ s.timerIdSet_ then { r with runs := r.runs ++ [t] }
  else if t.id_ ∈ s.cancelled then { r with cancelled := r.cancelled ++ [t] }
  else r

def Observed.record (o : Observed H) : Label → List Read
  | .handleRead => ⟨o.queue.clock, o.queue.heap, [], []⟩ :: o.reads
  | .next =>
    match o.queue.todo, o.reads with
    | t :: _, r :: rest => r.turn o.queue t :: rest
    | _, reads => reads
  | _ => o.reads

def observed (H : Library.MinQueue.{0, 0, u} Timer.when_) :
    Library.System (Observed H) Label where
  init o := ∃ clock, o = ⟨init clock, []⟩
  step o i := (step o.queue i).map fun t => ⟨t, o.record i⟩

def Observed.finished (o : Observed H) : List Read :=
  if o.queue.batch.isSome then o.reads.tail else o.reads

structure Read.InOrder (r : Read) : Prop where
  heap : ∀ t ∈ r.runs, t ∈ r.heap
  due : ∀ t ∈ r.runs, t.when_ ≤ r.now
  ordered : r.runs.Pairwise (fun t u => t.when_ ≤ u.when_)
  distinct : (r.runs.map (·.id_)).Nodup

def Read.Complete (r : Read) : Prop :=
  ∀ t ∈ r.heap, t.when_ ≤ r.now → t ∈ r.runs ∨ t ∈ r.cancelled

/-- Two runs of a timer, in an earlier and a later call, are its interval apart. -/
def Read.Apart (later earlier : Read) : Prop :=
  ∀ t ∈ later.runs, ∀ t' ∈ earlier.runs, t.id_ = t'.id_ →
    t.interval_ = t'.interval_ ∧ earlier.now + t.interval_ * 1000 ≤ later.now

structure Current (now : Int) (passed todo : List Timer) (r : Read) : Prop where
  sampled : r.now = now
  heap : ∀ t ∈ passed ++ todo, t ∈ r.heap
  due : ∀ t ∈ passed ++ todo, t.when_ ≤ now
  ordered : (passed ++ todo).Pairwise (fun t u => t.when_ ≤ u.when_)
  distinct : ((passed ++ todo).map (·.id_)).Nodup
  all : ∀ t ∈ r.heap, t.when_ ≤ now → t ∈ passed ++ todo
  runs : r.runs.Sublist passed
  treated : ∀ t ∈ passed, t ∈ r.runs ∨ t ∈ r.cancelled

section Current

variable {now : Int} {passed todo : List Timer} {r : Read}

theorem Current.inOrder (h : Current now passed todo r) : r.InOrder := by
  have hsub : r.runs.Sublist (passed ++ todo) := h.runs.trans (List.sublist_append_left _ _)
  exact {
    heap := fun t ht => h.heap t (hsub.subset ht)
    due := fun t ht => h.sampled ▸ h.due t (hsub.subset ht)
    ordered := h.ordered.sublist hsub
    distinct := h.distinct.sublist (hsub.map _) }

theorem Current.complete (h : Current now passed [] r) : r.Complete := by
  intro t ht hdue
  have hpassed := h.all t ht (h.sampled ▸ hdue)
  rw [List.append_nil] at hpassed
  exact h.treated t hpassed

@[simp] theorem Read.turn_now (s : State H) (t : Timer) : (r.turn s t).now = r.now := by
  unfold Read.turn
  split
  · rfl
  · split <;> rfl

theorem Read.turn_runs (s : State H) (t : Timer) :
    (r.turn s t).runs = if t.id_ ∈ s.timerIdSet_ then r.runs ++ [t] else r.runs := by
  unfold Read.turn
  split
  · rfl
  · split <;> rfl

theorem Read.mem_turn_runs {s : State H} {t u : Timer} (hu : u ∈ (r.turn s t).runs) :
    u ∈ r.runs ∨ u = t := by
  rw [Read.turn_runs] at hu
  split at hu
  · exact (List.mem_append.mp hu).imp_right List.mem_singleton.mp
  · exact .inl hu

theorem Current.pass {t : Timer} (h : Current now passed (t :: todo) r) {r' : Read}
    (hnow : r'.now = r.now) (hheap : r'.heap = r.heap) (hruns : r'.runs.Sublist (passed ++ [t]))
    (htreated : ∀ u ∈ passed ++ [t], u ∈ r'.runs ∨ u ∈ r'.cancelled) :
    Current now (passed ++ [t]) todo r' := by
  have hlist : passed ++ [t] ++ todo = passed ++ t :: todo := by simp
  exact {
    sampled := hnow.trans h.sampled
    heap := hlist ▸ hheap ▸ h.heap
    due := hlist ▸ h.due
    ordered := hlist ▸ h.ordered
    distinct := hlist ▸ h.distinct
    all := hlist ▸ hheap ▸ h.all
    runs := hruns
    treated := htreated }

theorem Current.turn {t : Timer} (h : Current now passed (t :: todo) r) (s : State H)
    (ht : t.id_ ∈ s.timerIdSet_ ∨ t.id_ ∈ s.cancelled) :
    Current now (passed ++ [t]) todo (r.turn s t) := by
  unfold Read.turn
  split
  · refine h.pass rfl rfl (h.runs.append (List.Sublist.refl _)) fun u hu => ?_
    obtain hu | hu := List.mem_append.mp hu
    · exact (h.treated u hu).imp_left (List.mem_append_left _)
    · exact .inl (List.mem_append_right _ hu)
  · next hset =>
    rw [if_pos (ht.resolve_left hset)]
    refine h.pass rfl rfl (h.runs.trans (List.sublist_append_left _ _)) fun u hu => ?_
    obtain hu | hu := List.mem_append.mp hu
    · exact (h.treated u hu).imp_right (List.mem_append_left _)
    · exact .inr (List.mem_append_right _ hu)

end Current

section Steps

variable {s t : State H}

namespace State

def batchNow (s : State H) : Option Int := s.batch.map (·.now)

theorem mem_foldl_resetOne {now : Int} {done : List Timer} {s : State H} {u : Timer}
    (hu : u ∈ (done.foldl (resetOne now) s).heap) :
    u ∈ s.heap ∨ ∃ t ∈ done, u.id_ = t.id_ ∧ u.interval_ = t.interval_ ∧
      u.when_ = now + t.interval_ * 1000 := by
  induction done generalizing s with
  | nil => exact .inl hu
  | cons t done ih =>
    obtain hu | ⟨t', ht', hrest⟩ := ih hu
    · obtain ⟨-, hrepeat, heq⟩ | ⟨-, heq⟩ := resetOne_cases now s t
      · rw [heq] at hu
        change u ∈ H.elems (H.push (t.restart now s.clock) s.timers_) at hu
        rw [H.elems_push, Multiset.mem_cons] at hu
        obtain rfl | hu := hu
        · exact .inr ⟨t, List.mem_cons_self, rfl, rfl, if_pos hrepeat⟩
        · exact .inl hu
      · rw [heq] at hu
        exact .inl hu
    · exact .inr ⟨t', List.mem_cons_of_mem t ht', hrest⟩

end State

structure QuietStep (s t : State H) : Prop where
  batchNow : t.batchNow = s.batchNow
  passed : t.passed = s.passed
  todo : t.todo = s.todo
  clock : s.clock ≤ t.clock
  started : t.started = s.started
  waiting : ∀ u ∈ t.waiting, u ∈ s.waiting ∨ u.id_ ∉ s.added.map (·.id_)

def Label.isQuiet : Label → Bool
  | .handleRead | .next | .finish _ => false
  | _ => true

theorem quietStep {i : Label} (hst : step s i = some t) (hi : i.isQuiet) : QuietStep s t := by
  cases step_transition hst with
  | addTimerInLoop timer lag _ hfresh =>
    obtain ⟨c, fd, hclock, heq⟩ := s.addTimerInLoop_eq timer lag
    rw [heq]
    refine ⟨rfl, rfl, rfl, hclock, rfl, fun u hu => ?_⟩
    have hu : u ∈ { s with timers_ := H.push timer s.timers_ }.waiting := hu
    rw [s.waiting_push, Multiset.mem_cons] at hu
    obtain rfl | hu := hu
    · exact .inr hfresh
    · exact .inl hu
  | invalidateTimer id _ => exact ⟨rfl, rfl, rfl, le_rfl, rfl, fun u hu => .inl hu⟩
  | handleRead => cases hi
  | next => cases hi
  | callbackReturns now passed todo hb =>
    refine ⟨?_, ?_, ?_, le_rfl, rfl, fun u hu => .inl ?_⟩
    · simp [State.batchNow, hb]
    · simp [State.passed, hb]
    · simp [State.todo, hb]
    · simpa [State.waiting, State.todo, State.heap, hb] using hu
  | finish => cases hi
  | reset lag _ =>
    obtain ⟨c, fd, hclock, heq⟩ := s.reset_eq lag
    rw [heq]
    exact ⟨rfl, rfl, rfl, hclock, rfl, fun u hu => .inl hu⟩
  | tick d =>
    exact ⟨rfl, rfl, rfl, Int.le_add_of_nonneg_right (Int.natCast_nonneg d), rfl,
      fun u hu => .inl hu⟩

theorem step_handleRead (hst : step s .handleRead = some t) :
    s.batch = none ∧ t.batch = some ⟨s.clock, [], (s.getExpired s.clock).1, false⟩ ∧
      t.waiting = s.waiting ∧ t.clock = s.clock ∧ t.started = s.started := by
  cases step_transition hst with
  | handleRead hb => exact ⟨hb, rfl, State.waiting_handleRead hb, rfl, rfl⟩

theorem step_next (hst : step s .next = some t) :
    ∃ now passed timer todo, s.batch = some ⟨now, passed, timer :: todo, false⟩ ∧
      t.batchNow = some now ∧ t.passed = passed ++ [timer] ∧ t.todo = todo ∧ t.heap = s.heap ∧
      t.clock = s.clock ∧ t.started =
        if timer.id_ ∈ s.timerIdSet_ then s.started ++ [timer.id_] else s.started := by
  cases step_transition hst with
  | next now passed timer todo hb =>
    refine ⟨now, passed, timer, todo, hb, ?_⟩
    unfold State.next
    split <;> exact ⟨rfl, rfl, rfl, rfl, rfl, rfl⟩

theorem step_finish {lag : Nat} (hst : step s (.finish lag) = some t) :
    ∃ now passed, s.batch = some ⟨now, passed, [], false⟩ ∧ t.batch = none ∧ s.clock ≤ t.clock ∧
      t.started = s.started ∧ t.heap = (s.finished now passed).heap := by
  cases step_transition hst with
  | finish now passed lag hb =>
    obtain ⟨c, fd, hclock, heq⟩ := s.finish_eq ⟨now, passed, [], false⟩ lag
    obtain ⟨q, set, hframe⟩ := s.finished_frame now passed
    have hstarted : (s.finished now passed).started = s.started := by rw [hframe]
    rw [heq]
    exact ⟨now, passed, hb, rfl, hclock, hstarted, rfl⟩

theorem State.Inv.cancelled_of_notMem (h : s.Inv) {u : Timer} (hu : u ∈ s.waiting)
    (hset : u.id_ ∉ s.timerIdSet_) : u.id_ ∈ s.cancelled := by
  by_contra hc
  obtain ⟨t₀, ht₀, hid, hrepeat⟩ := h.origin u (Multiset.mem_add.mpr (.inl hu))
  rw [← hid] at hset hc
  obtain hkept | ⟨hone, hcount⟩ := h.kept t₀ ht₀ hc
  · exact hset hkept
  · have hfresh := h.fresh u hu (hrepeat ▸ hone)
    rw [← hid, hcount] at hfresh
    cases hfresh

theorem State.Inv.restart_outside (h : s.Inv) {b : Batch} (hb : s.batch = some b)
    (htodo : b.todo = []) {pre post : List Timer} {timer : Timer}
    (hpassed : b.passed = pre ++ timer :: post) :
    timer.id_ ∉ ids
      (pre.foldl (State.resetOne b.now) { s with callingExpiredTimers_ := false }).heap := by
  have hwaiting : s.waiting = s.heap := by simp [State.waiting, State.todo, hb, htodo]
  have hdone : s.passed = pre ++ timer :: post := by simp [State.passed, hb, hpassed]
  unfold State.Inv at h
  rw [hwaiting, hdone] at h
  have hfold :=
    @State.foldl_resetOne_inv H b.now pre _ { s with callingExpiredTimers_ := false } h
  have hd := hfold.distinct
  rw [coe_cons_add, Multiset.cons_add, ids_cons, Multiset.nodup_cons, ids_add,
    Multiset.mem_add, not_or] at hd
  exact hd.1.1

end Steps

namespace Observed

structure Inv (o : Observed H) : Prop where
  queue : o.queue.Inv
  inOrder : ∀ r ∈ o.reads, r.InOrder
  complete : ∀ r ∈ o.finished, r.Complete
  current : ∀ now, o.queue.batchNow = some now → ∃ r rest, o.reads = r :: rest ∧
    Current now o.queue.passed o.queue.todo r ∧ ∀ r' ∈ rest, r'.now ≤ now
  clock : ∀ r ∈ o.reads, r.now ≤ o.queue.clock
  apart : o.reads.Pairwise Read.Apart
  later : ∀ r ∈ o.reads, ∀ t ∈ r.runs, ∀ u ∈ o.queue.waiting, u.id_ = t.id_ →
    u.interval_ = t.interval_ ∧ r.now + u.interval_ * 1000 ≤ u.when_
  passed : ∀ r ∈ o.reads, ∀ t ∈ r.runs, ∀ u ∈ o.queue.passed, u.id_ = t.id_ →
    u.interval_ = t.interval_
  started : o.queue.started = (o.reads.reverse.flatMap (·.runs)).map (·.id_)

variable {o : Observed H} {s : State H}

theorem Inv.run_added (h : o.Inv) {r : Read} (hr : r ∈ o.reads) {t : Timer} (ht : t ∈ r.runs) :
    t.id_ ∈ o.queue.added.map (·.id_) := by
  refine h.queue.startedAdded _ ?_
  rw [h.started]
  exact List.mem_map_of_mem (List.mem_flatMap.mpr ⟨r, List.mem_reverse.mpr hr, ht⟩)

theorem Inv.quiet (h : o.Inv) {i : Label} (hst : step o.queue i = some s) (hi : i.isQuiet) :
    Inv ⟨s, o.reads⟩ := by
  have hq := quietStep hst hi
  exact {
    queue := h.queue.step hst
    inOrder := h.inOrder
    complete := by
      have hbatch : s.batch.isSome = o.queue.batch.isSome := by
        have := congrArg Option.isSome hq.batchNow
        simpa [State.batchNow] using this
      have hc := h.complete
      unfold finished at hc ⊢
      rw [hbatch]
      exact hc
    current := by
      rw [hq.batchNow, hq.passed, hq.todo]
      exact h.current
    clock := fun r hr => (h.clock r hr).trans hq.clock
    apart := h.apart
    later := by
      intro r hr t ht u hu hid
      obtain hu | hfresh := hq.waiting u hu
      · exact h.later r hr t ht u hu hid
      · exact absurd (hid ▸ h.run_added hr ht) hfresh
    passed := by
      rw [hq.passed]
      exact h.passed
    started := hq.started.trans h.started }

theorem Inv.handleRead (h : o.Inv) (hst : step o.queue .handleRead = some s) :
    Inv ⟨s, o.record .handleRead⟩ := by
  have hqueue := h.queue.step hst
  obtain ⟨hb, hbatch, hwaiting, hclock, hstarted⟩ := step_handleRead hst
  have hpassed : s.passed = [] := by simp [State.passed, hbatch]
  have htodo : s.todo = (o.queue.getExpired o.queue.clock).1 := by simp [State.todo, hbatch]
  have hheap := o.queue.elems_getExpired o.queue.clock
  have hdistinct : ((o.queue.getExpired o.queue.clock).1.map (·.id_)).Nodup := by
    have hd := hqueue.distinct
    rw [State.waiting, ids_add, ids_add, Multiset.nodup_add, Multiset.nodup_add, htodo] at hd
    exact Multiset.coe_nodup.mp hd.1.2.1
  have hcurrent : Current o.queue.clock [] (o.queue.getExpired o.queue.clock).1
      ⟨o.queue.clock, o.queue.heap, [], []⟩ := {
    sampled := rfl
    heap := fun t ht => by
      rw [hheap]
      exact Multiset.mem_add.mpr (.inl (Multiset.mem_coe.mpr ht))
    due := fun t ht => State.when_le_of_mem_getExpired ht
    ordered := H.pairwise_takeWhileLe _ _ _
    distinct := hdistinct
    all := fun t ht hdue => by
      dsimp only at ht
      rw [hheap, Multiset.mem_add] at ht
      obtain ht | ht := ht
      · exact Multiset.mem_coe.mp ht
      · exact absurd (State.lt_when_of_mem_rest ht) (not_lt.mpr hdue)
    runs := List.nil_sublist _
    treated := fun _ ht => absurd ht List.not_mem_nil }
  exact {
    queue := hqueue
    inOrder := List.forall_mem_cons.mpr ⟨hcurrent.inOrder, h.inOrder⟩
    complete := by
      have hc := h.complete
      unfold finished at hc ⊢
      rw [hb] at hc
      rw [hbatch]
      exact hc
    current := by
      intro now hnow
      rw [State.batchNow, hbatch] at hnow
      obtain rfl := Option.some.inj hnow
      rw [hpassed, htodo]
      exact ⟨_, _, rfl, hcurrent, h.clock⟩
    clock := by
      rw [hclock]
      exact List.forall_mem_cons.mpr ⟨le_rfl, h.clock⟩
    apart := List.pairwise_cons.mpr
      ⟨fun _ _ _ ht => absurd ht List.not_mem_nil, h.apart⟩
    later := by
      rw [hwaiting]
      exact List.forall_mem_cons.mpr ⟨fun _ ht => absurd ht List.not_mem_nil, h.later⟩
    passed := by
      rw [hpassed]
      exact fun _ _ _ _ _ hu => absurd hu List.not_mem_nil
    started := by
      rw [hstarted, h.started]
      simp [record] }

theorem Inv.finish (h : o.Inv) {lag : Nat} (hst : step o.queue (.finish lag) = some s) :
    Inv ⟨s, o.reads⟩ := by
  obtain ⟨now, passed, hb, hbatch, hclock, hstarted, hheap⟩ := step_finish hst
  have hnow : o.queue.batchNow = some now := by simp [State.batchNow, hb]
  have hpassed : o.queue.passed = passed := by simp [State.passed, hb]
  have htodo : o.queue.todo = [] := by simp [State.todo, hb]
  obtain ⟨r, rest, hreads, hcurrent, hrest⟩ := h.current now hnow
  rw [htodo] at hcurrent
  have hbefore : ∀ r' ∈ o.reads, r'.now ≤ now := by
    rw [hreads]
    exact List.forall_mem_cons.mpr ⟨hcurrent.sampled.le, hrest⟩
  have hwaiting : s.waiting = s.heap := by simp [State.waiting, State.todo, hbatch]
  exact {
    queue := h.queue.step hst
    inOrder := h.inOrder
    complete := by
      have hc := h.complete
      unfold finished at hc ⊢
      rw [hb, hreads] at hc
      rw [hbatch, hreads]
      exact List.forall_mem_cons.mpr ⟨hcurrent.complete, hc⟩
    current := by
      intro now hnow
      rw [State.batchNow, hbatch] at hnow
      cases hnow
    clock := fun r hr => (h.clock r hr).trans hclock
    apart := h.apart
    later := by
      intro r hr t ht u hu hid
      rw [hwaiting, hheap] at hu
      obtain hu | ⟨t', ht', hid', hinterval, hwhen⟩ := State.mem_foldl_resetOne hu
      · exact h.later r hr t ht u (Multiset.mem_add.mpr (.inl hu)) hid
      · have hsame := h.passed r hr t ht t' (hpassed ▸ ht') (hid' ▸ hid)
        have hle := hbefore r hr
        exact ⟨hinterval.trans hsame, by omega⟩
    passed := by
      have hnil : s.passed = [] := by simp [State.passed, hbatch]
      rw [hnil]
      exact fun _ _ _ _ _ hu => absurd hu List.not_mem_nil
    started := hstarted.trans h.started }

theorem Inv.next (h : o.Inv) (hst : step o.queue .next = some s) : Inv ⟨s, o.record .next⟩ := by
  obtain ⟨now, passed, timer, todo, hb, hnow', hpassed', htodo', hheap, hclock, hstarted⟩ :=
    step_next hst
  have hnow : o.queue.batchNow = some now := by simp [State.batchNow, hb]
  have hpassed : o.queue.passed = passed := by simp [State.passed, hb]
  have htodo : o.queue.todo = timer :: todo := by simp [State.todo, hb]
  obtain ⟨r, rest, hreads, hcurrent, hrest⟩ := h.current now hnow
  rw [hpassed, htodo] at hcurrent
  have hrecord : o.record .next = r.turn o.queue timer :: rest := by
    simp [record, htodo, hreads]
  have hwaiting : o.queue.waiting = timer ::ₘ s.waiting := by
    rw [State.waiting, State.waiting, htodo, htodo', hheap, coe_cons_add, Multiset.cons_add]
  have htimer : timer ∈ o.queue.waiting := hwaiting ▸ Multiset.mem_cons_self _ _
  have hother : ∀ u ∈ s.waiting + ↑passed, u.id_ ≠ timer.id_ := fun u hu =>
    TimerQueue.Inv.ne_of_cons (by rw [hwaiting, hpassed, Multiset.cons_add]) h.queue hu
  have hset : timer.id_ ∈ o.queue.timerIdSet_ ∨ timer.id_ ∈ o.queue.cancelled :=
    or_iff_not_imp_left.mpr (h.queue.cancelled_of_notMem htimer)
  have hturn := hcurrent.turn o.queue hset
  have hr : r ∈ o.reads := hreads ▸ List.mem_cons_self
  have hrestReads : ∀ r' ∈ rest, r' ∈ o.reads := fun r' hr' => hreads ▸ List.mem_cons_of_mem r hr'
  have hlater : ∀ r' ∈ o.reads, ∀ t ∈ r'.runs, ∀ u ∈ s.waiting, u.id_ = t.id_ →
      u.interval_ = t.interval_ ∧ r'.now + u.interval_ * 1000 ≤ u.when_ := fun r' hr' t ht u hu =>
    h.later r' hr' t ht u (hwaiting ▸ Multiset.mem_cons_of_mem hu)
  have hinterval : ∀ r' ∈ o.reads, ∀ t ∈ r'.runs, ∀ u ∈ passed ++ [timer], u.id_ = t.id_ →
      u.interval_ = t.interval_ := by
    intro r' hr' t ht u hu hid
    obtain hu | hu := List.mem_append.mp hu
    · exact h.passed r' hr' t ht u (hpassed ▸ hu) hid
    · obtain rfl := List.mem_singleton.mp hu
      exact (h.later r' hr' t ht u htimer hid).1
  exact {
    queue := h.queue.step hst
    inOrder := by
      rw [hrecord]
      exact List.forall_mem_cons.mpr ⟨hturn.inOrder, fun r' hr' => h.inOrder r' (hrestReads r' hr')⟩
    complete := by
      have hbatch : s.batch.isSome := by
        have := congrArg Option.isSome hnow'
        simpa [State.batchNow] using this
      have hc := h.complete
      unfold finished at hc ⊢
      rw [hb, hreads] at hc
      rw [hbatch, hrecord]
      exact hc
    current := by
      intro now' hnow''
      rw [hnow'] at hnow''
      obtain rfl := Option.some.inj hnow''
      rw [hpassed', htodo']
      exact ⟨_, rest, hrecord, hturn, hrest⟩
    clock := by
      rw [hrecord, hclock]
      refine List.forall_mem_cons.mpr ⟨?_, fun r' hr' => h.clock r' (hrestReads r' hr')⟩
      rw [Read.turn_now]
      exact h.clock r hr
    apart := by
      have happart := h.apart
      rw [hreads] at happart
      obtain ⟨hhead, htail⟩ := List.pairwise_cons.mp happart
      rw [hrecord]
      refine List.pairwise_cons.mpr ⟨fun earlier hearlier t ht t' ht' hid => ?_, htail⟩
      rw [Read.turn_now]
      obtain ht | rfl := Read.mem_turn_runs ht
      · exact hhead earlier hearlier t ht t' ht' hid
      · -- its deadline was set behind the earlier run, and has come
        obtain ⟨hsame, hle⟩ := h.later earlier (hrestReads earlier hearlier) t' ht' t htimer hid
        have hdue := hcurrent.due t (by simp)
        have hsampled := hcurrent.sampled
        exact ⟨hsame, by omega⟩
    later := by
      rw [hrecord]
      refine List.forall_mem_cons.mpr ⟨fun t ht u hu hid => ?_, fun r' hr' =>
        hlater r' (hrestReads r' hr')⟩
      rw [Read.turn_now]
      obtain ht | rfl := Read.mem_turn_runs ht
      · exact hlater r hr t ht u hu hid
      · exact absurd hid (hother u (Multiset.mem_add.mpr (.inl hu)))
    passed := by
      rw [hrecord, hpassed']
      refine List.forall_mem_cons.mpr ⟨fun t ht u hu hid => ?_, fun r' hr' =>
        hinterval r' (hrestReads r' hr')⟩
      obtain ht | rfl := Read.mem_turn_runs ht
      · exact hinterval r hr t ht u hu hid
      · obtain hu | hu := List.mem_append.mp hu
        · exact absurd hid (hother u (Multiset.mem_add.mpr (.inr (Multiset.mem_coe.mpr hu))))
        · rw [List.mem_singleton.mp hu]
    started := by
      have hs := h.started
      rw [hreads] at hs
      rw [hrecord, hstarted, hs]
      simp only [List.reverse_cons, List.flatMap_append, List.flatMap_singleton, Read.turn_runs]
      split <;> simp }

theorem Inv.step (h : o.Inv) {i : Label} {o' : Observed H}
    (hst : (observed H).step o i = some o') : o'.Inv := by
  obtain ⟨s, hs, rfl⟩ := Option.map_eq_some_iff.mp hst
  cases i with
  | handleRead => exact h.handleRead hs
  | next => exact h.next hs
  | finish lag => exact h.finish hs
  | addTimerInLoop | invalidateTimer | callbackReturns | reset | tick => exact h.quiet hs rfl

theorem inv_init (clock : Int) : Inv ⟨init (H := H) clock, []⟩ where
  queue := Reachable.inv (.init ⟨clock, rfl⟩)
  inOrder := nofun
  complete := nofun
  current := nofun
  clock := nofun
  apart := List.Pairwise.nil
  later := nofun
  passed := nofun
  started := rfl

/-- The history holds up no run. -/
theorem exists_run {s t : State H} {labels : List Label} (hr : (system H).run s labels = some t)
    (reads : List Read) :
    ∃ reads', (observed H).run ⟨s, reads⟩ labels = some ⟨t, reads'⟩ := by
  induction labels generalizing s reads with
  | nil =>
    cases hr
    exact ⟨reads, rfl⟩
  | cons i labels ih =>
    obtain ⟨u, hu, hr⟩ := Option.bind_eq_some_iff.mp hr
    obtain ⟨reads', hreads'⟩ := ih hr ((⟨s, reads⟩ : Observed H).record i)
    refine ⟨reads', ?_⟩
    rw [Library.System.run]
    change ((step s i).map _).bind _ = _
    rw [show step s i = some u from hu]
    exact hreads'

/-- Callbacks run only in calls of `handleRead`; each call runs timers that are due, the earlier ones
first and none twice, and, once it has returned, all that were not cancelled; a timer runs again only
its interval later; and no timer is restarted in the heap. -/
theorem timer_timing {o : Observed H} (h : (observed H).Reachable o) :
    o.queue.started = (o.reads.reverse.flatMap (·.runs)).map (·.id_) ∧
      (∀ r ∈ o.reads, r.InOrder) ∧ (∀ r ∈ o.finished, r.Complete) ∧
      o.reads.Pairwise Read.Apart ∧
      ∀ b, o.queue.batch = some b → b.todo = [] → ∀ pre timer post,
        b.passed = pre ++ timer :: post → timer.id_ ∉ ids
          (pre.foldl (State.resetOne b.now)
            { o.queue with callingExpiredTimers_ := false }).heap := by
  have hi : o.Inv := h.invariant (fun o ⟨clock, ho⟩ => ho ▸ inv_init clock)
    fun _ _ _ ho hst => ho.step hst
  exact ⟨hi.started, hi.inOrder, hi.complete, hi.apart, fun b hb htodo pre timer post hpassed =>
    hi.queue.restart_outside hb htodo hpassed⟩

theorem timer_timing_twice :
    ∃ o : Observed (Library.MinQueue.sorted Timer.when_),
      (observed _).run ⟨init 0, []⟩
        [.addTimerInLoop (.create 1 200 0) 0, .addTimerInLoop (.create 2 100 1) 0, .tick 200000,
          .handleRead, .next, .callbackReturns, .next, .callbackReturns, .finish 0, .tick 200000,
          .handleRead, .next, .callbackReturns, .finish 0] = some o ∧
      o.reads.map (·.runs.map (·.id_)) = [[2], [2, 1]] ∧ (∀ r ∈ o.finished, r.Complete) ∧
      o.reads.Pairwise Read.Apart := by
  obtain ⟨o, ho, hp⟩ := (observed (.sorted Timer.when_)).exists_run ⟨init 0, []⟩
    [.addTimerInLoop (.create 1 200 0) 0, .addTimerInLoop (.create 2 100 1) 0, .tick 200000,
      .handleRead, .next, .callbackReturns, .next, .callbackReturns, .finish 0, .tick 200000,
      .handleRead, .next, .callbackReturns, .finish 0]
    (fun o => o.reads.map (·.runs.map (·.id_)) = [[2], [2, 1]]) (by decide +kernel)
  obtain ⟨-, -, hcomplete, hapart, -⟩ :=
    timer_timing (Library.System.Reachable.run (.init ⟨0, rfl⟩) ho)
  exact ⟨o, ho, of_decide_eq_true hp, hcomplete, hapart⟩

end Observed

end MysqlConnectPool.TimerQueue
