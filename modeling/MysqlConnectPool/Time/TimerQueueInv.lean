import MysqlConnectPool.Time.TimerQueue

/-! Where a timer can be: in the heap, in the batch of `handleRead`, or gone. -/

universe u

namespace MysqlConnectPool.TimerQueue

variable {H : Library.MinQueue.{0, 0, u} Timer.when_}

namespace State

def passed (s : State H) : List Timer := (s.batch.map (·.passed)).getD []

def todo (s : State H) : List Timer := (s.batch.map (·.todo)).getD []

/-- The timers that are due or will be: the heap and the part of the batch still to come. -/
def waiting (s : State H) : Multiset Timer := s.heap + s.todo

end State

def ids (ts : Multiset Timer) : Multiset Nat := ts.map (·.id_)

@[simp] theorem ids_add (a b : Multiset Timer) : ids (a + b) = ids a + ids b := Multiset.map_add ..

@[simp] theorem ids_cons (t : Timer) (a : Multiset Timer) : ids (t ::ₘ a) = t.id_ ::ₘ ids a :=
  Multiset.map_cons ..

@[simp] theorem ids_zero : ids 0 = 0 := rfl

theorem coe_cons_add (t : Timer) (w : Multiset Timer) (d : List Timer) :
    w + ↑(t :: d) = t ::ₘ w + ↑d := by
  rw [← Multiset.cons_coe, Multiset.add_cons, Multiset.cons_add]

theorem coe_append_singleton (t : Timer) (w : Multiset Timer) (d : List Timer) :
    w + ↑(d ++ [t]) = t ::ₘ w + ↑d := by
  rw [Multiset.coe_eq_coe.mpr (List.perm_append_singleton t d), coe_cons_add]

/-- The state of the queue seen by its timers.  `done` are the timers of the batch that
the loop has passed and `reset` has not yet treated. -/
structure Inv (waiting : Multiset Timer) (done : List Timer) (set : Finset Nat)
    (started : List Nat) (added : List Timer) (cancelled : Finset Nat) : Prop where
  distinct : (ids (waiting + done)).Nodup
  known : ∀ id ∈ set, id ∈ ids (waiting + done)
  origin : ∀ t ∈ waiting + done, ∃ t₀ ∈ added, t₀.id_ = t.id_ ∧ t₀.repeat_ = t.repeat_
  addedOnce : (added.map (·.id_)).Nodup
  kept : ∀ t ∈ added, t.id_ ∉ cancelled →
    t.id_ ∈ set ∨ t.repeat_ = false ∧ started.count t.id_ = 1
  dead : ∀ id ∈ cancelled, id ∉ set ∧ id ∈ added.map (·.id_)
  fresh : ∀ t ∈ waiting, t.repeat_ = false → started.count t.id_ = 0
  ran : ∀ t ∈ done, t.repeat_ = false → t.id_ ∈ set → started.count t.id_ = 1
  once : ∀ t ∈ added, t.repeat_ = false → started.count t.id_ ≤ 1
  startedAdded : ∀ id ∈ started, id ∈ added.map (·.id_)

variable {waiting : Multiset Timer} {done : List Timer} {set : Finset Nat} {started : List Nat}
  {added : List Timer} {cancelled : Finset Nat}

theorem Inv.empty : Inv 0 [] ∅ [] [] ∅ := by constructor <;> simp

theorem Inv.mem_added (h : Inv waiting done set started added cancelled) {t : Timer}
    (ht : t ∈ waiting + done) : t.id_ ∈ added.map (·.id_) := by
  obtain ⟨t₀, ht₀, hid, -⟩ := h.origin t ht
  exact List.mem_map.mpr ⟨t₀, ht₀, hid⟩

theorem Inv.set_added (h : Inv waiting done set started added cancelled) {id : Nat}
    (hid : id ∈ set) : id ∈ added.map (·.id_) := by
  obtain ⟨t, ht, rfl⟩ := Multiset.mem_map.mp (h.known id hid)
  exact h.mem_added ht

theorem Inv.add (h : Inv waiting done set started added cancelled) {t : Timer}
    (ht : t.id_ ∉ added.map (·.id_)) :
    Inv (t ::ₘ waiting) done (insert t.id_ set) started (added ++ [t]) cancelled where
  distinct := by
    rw [Multiset.cons_add, ids_cons, Multiset.nodup_cons]
    refine ⟨?_, h.distinct⟩
    intro hmem
    obtain ⟨t', ht', hid⟩ := Multiset.mem_map.mp hmem
    exact ht (hid ▸ h.mem_added ht')
  known := by
    intro id hid
    rw [Multiset.cons_add, ids_cons, Multiset.mem_cons]
    rcases Finset.mem_insert.mp hid with rfl | hid
    · exact Or.inl rfl
    · exact Or.inr (h.known id hid)
  origin := by
    intro t' ht'
    rw [Multiset.cons_add, Multiset.mem_cons] at ht'
    rcases ht' with rfl | ht'
    · exact ⟨t', by simp, rfl, rfl⟩
    · obtain ⟨t₀, ht₀, hrest⟩ := h.origin t' ht'
      exact ⟨t₀, List.mem_append_left _ ht₀, hrest⟩
  addedOnce := by
    rw [List.map_append, List.map_singleton, ← List.concat_eq_append]
    exact h.addedOnce.concat ht
  kept := by
    intro t' ht' hc
    rcases List.mem_append.mp ht' with ht' | ht'
    · exact (h.kept t' ht' hc).imp_left (Finset.mem_insert_of_mem)
    · obtain rfl := List.mem_singleton.mp ht'
      exact Or.inl (Finset.mem_insert_self _ _)
  dead := by
    intro id hid
    obtain ⟨hset, hadd⟩ := h.dead id hid
    refine ⟨?_, by simp only [List.map_append, List.mem_append]; exact Or.inl hadd⟩
    rw [Finset.mem_insert]
    rintro (rfl | hmem)
    · exact ht hadd
    · exact hset hmem
  fresh := by
    intro t' ht' hr
    rcases Multiset.mem_cons.mp ht' with rfl | ht'
    · exact List.count_eq_zero.mpr (fun hmem => ht (h.startedAdded _ hmem))
    · exact h.fresh t' ht' hr
  ran := by
    intro t' ht' hr hid
    refine h.ran t' ht' hr ?_
    rcases Finset.mem_insert.mp hid with hid | hid
    · exact absurd (hid ▸ h.mem_added (Multiset.mem_add.mpr (Or.inr ht'))) ht
    · exact hid
  once := by
    intro t' ht' hr
    rcases List.mem_append.mp ht' with ht' | ht'
    · exact h.once t' ht' hr
    · obtain rfl := List.mem_singleton.mp ht'
      rw [List.count_eq_zero.mpr (fun hmem => ht (h.startedAdded _ hmem))]
      omega
  startedAdded := by
    intro id hid
    simp only [List.map_append, List.mem_append]
    exact Or.inl (h.startedAdded id hid)

theorem Inv.erase (h : Inv waiting done set started added cancelled) (id : Nat) :
    Inv waiting done (set.erase id) started added
      (if id ∈ added.map (·.id_) then insert id cancelled else cancelled) where
  distinct := h.distinct
  known i hi := h.known i (Finset.mem_of_mem_erase hi)
  origin := h.origin
  addedOnce := h.addedOnce
  kept := by
    intro t ht hc
    rcases eq_or_ne t.id_ id with rfl | hne
    · rw [if_pos (List.mem_map_of_mem ht)] at hc
      exact absurd (Finset.mem_insert_self _ _) hc
    · have hc' : t.id_ ∉ cancelled := by
        split at hc
        · exact fun hmem => hc (Finset.mem_insert_of_mem hmem)
        · exact hc
      exact (h.kept t ht hc').imp_left (fun hmem => Finset.mem_erase.mpr ⟨hne, hmem⟩)
  dead := by
    intro i hi
    split at hi
    next hadd =>
      rcases Finset.mem_insert.mp hi with rfl | hi
      · exact ⟨Finset.notMem_erase _ _, hadd⟩
      · exact ⟨fun hmem => (h.dead i hi).1 (Finset.mem_of_mem_erase hmem), (h.dead i hi).2⟩
    next => exact ⟨fun hmem => (h.dead i hi).1 (Finset.mem_of_mem_erase hmem), (h.dead i hi).2⟩
  fresh := h.fresh
  ran t ht hr hid := h.ran t ht hr (Finset.mem_of_mem_erase hid)
  once := h.once
  startedAdded := h.startedAdded

theorem Inv.ne_of_cons {t : Timer} {ts : Multiset Timer} (hw : waiting + done = t ::ₘ ts)
    (h : Inv waiting done set started added cancelled) {t' : Timer} (ht' : t' ∈ ts) :
    t'.id_ ≠ t.id_ := by
  have hd := h.distinct
  rw [hw, ids_cons, Multiset.nodup_cons] at hd
  exact fun heq => hd.1 (heq ▸ Multiset.mem_map_of_mem _ ht')

theorem Inv.origin_eq (h : Inv waiting done set started added cancelled) {t t₀ : Timer}
    (ht : t ∈ waiting + done) (ht₀ : t₀ ∈ added) (hid : t₀.id_ = t.id_) :
    t₀.repeat_ = t.repeat_ := by
  obtain ⟨t₁, ht₁, hid₁, hrep⟩ := h.origin t ht
  rw [← hrep, List.inj_on_of_nodup_map h.addedOnce ht₀ ht₁ (hid.trans hid₁.symm)]

theorem Inv.skip {t : Timer} (h : Inv (t ::ₘ waiting) done set started added cancelled)
    (ht : t.id_ ∉ set) : Inv waiting (done ++ [t]) set started added cancelled := by
  have hw := coe_append_singleton t waiting done
  exact {
    distinct := hw ▸ h.distinct
    known := hw ▸ h.known
    origin := hw ▸ h.origin
    addedOnce := h.addedOnce
    kept := h.kept
    dead := h.dead
    fresh := fun t' ht' => h.fresh t' (Multiset.mem_cons_of_mem ht')
    ran := by
      intro t' ht' hr hid
      rcases List.mem_append.mp ht' with ht' | ht'
      · exact h.ran t' ht' hr hid
      · obtain rfl := List.mem_singleton.mp ht'
        exact absurd hid ht
    once := h.once
    startedAdded := h.startedAdded }

theorem count_append_singleton_of_ne {l : List Nat} {a b : Nat} (h : b ≠ a) :
    (l ++ [a]).count b = l.count b := by
  simp [List.count_append, h.symm]

theorem Inv.run {t : Timer} (h : Inv (t ::ₘ waiting) done set started added cancelled)
    (ht : t.id_ ∈ set) :
    Inv waiting (done ++ [t]) set (started ++ [t.id_]) added cancelled := by
  have hw := coe_append_singleton t waiting done
  have hmem : t ∈ t ::ₘ waiting + ↑done := by simp
  have hne : ∀ t' ∈ waiting + ↑done, t'.id_ ≠ t.id_ :=
    fun t' ht' => h.ne_of_cons (Multiset.cons_add t waiting _) ht'
  have hself : t.repeat_ = false → (started ++ [t.id_]).count t.id_ = 1 := by
    intro hr
    simp [List.count_append, h.fresh t (Multiset.mem_cons_self t _) hr]
  exact {
    distinct := hw ▸ h.distinct
    known := hw ▸ h.known
    origin := hw ▸ h.origin
    addedOnce := h.addedOnce
    kept := by
      intro t' ht' hc
      rcases eq_or_ne t'.id_ t.id_ with heq | hneq
      · exact Or.inl (heq ▸ ht)
      · rw [count_append_singleton_of_ne hneq]
        exact h.kept t' ht' hc
    dead := h.dead
    fresh := by
      intro t' ht' hr
      rw [count_append_singleton_of_ne (hne t' (Multiset.mem_add.mpr (Or.inl ht')))]
      exact h.fresh t' (Multiset.mem_cons_of_mem ht') hr
    ran := by
      intro t' ht' hr hid
      rcases List.mem_append.mp ht' with ht' | ht'
      · rw [count_append_singleton_of_ne (hne t' (Multiset.mem_add.mpr (Or.inr ht')))]
        exact h.ran t' ht' hr hid
      · obtain rfl := List.mem_singleton.mp ht'
        exact hself hr
    once := by
      intro t' ht' hr
      rcases eq_or_ne t'.id_ t.id_ with heq | hneq
      · rw [heq, hself (h.origin_eq hmem ht' heq ▸ hr)]
      · rw [count_append_singleton_of_ne hneq]
        exact h.once t' ht' hr
    startedAdded := by
      intro id hid
      rcases List.mem_append.mp hid with hid | hid
      · exact h.startedAdded id hid
      · rw [List.mem_singleton.mp hid]
        exact h.set_added ht }

theorem Inv.reinsert {t t' : Timer} (h : Inv waiting (t :: done) set started added cancelled)
    (hid : t'.id_ = t.id_) (hrep : t'.repeat_ = t.repeat_) (hr : t.repeat_ = true) :
    Inv (t' ::ₘ waiting) done set started added cancelled := by
  have hids : ids (t' ::ₘ waiting + ↑done) = ids (waiting + ↑(t :: done)) := by
    rw [coe_cons_add, Multiset.cons_add, Multiset.cons_add, ids_cons, ids_cons, hid]
  exact {
    distinct := hids ▸ h.distinct
    known := hids ▸ h.known
    origin := by
      intro d hd
      rw [Multiset.cons_add, Multiset.mem_cons] at hd
      rcases hd with rfl | hd
      · rw [hid, hrep]
        exact h.origin t (by simp)
      · refine h.origin d ?_
        rw [coe_cons_add, Multiset.cons_add]
        exact Multiset.mem_cons_of_mem hd
    addedOnce := h.addedOnce
    kept := h.kept
    dead := h.dead
    fresh := by
      intro d hd hdr
      rcases Multiset.mem_cons.mp hd with rfl | hd
      · simp [hrep, hr] at hdr
      · exact h.fresh d hd hdr
    ran := fun d hd => h.ran d (List.mem_cons_of_mem _ hd)
    once := h.once
    startedAdded := h.startedAdded }

theorem Inv.forget {t : Timer} (h : Inv waiting (t :: done) set started added cancelled)
    (ht : t.id_ ∉ set ∨ t.repeat_ = false) :
    Inv waiting done (set.erase t.id_) started added cancelled := by
  have hle : waiting + ↑done ≤ waiting + ↑(t :: done) := by
    rw [coe_cons_add, Multiset.cons_add]
    exact Multiset.le_cons_self _ _
  exact {
    distinct := Multiset.nodup_of_le (Multiset.map_le_map hle) h.distinct
    known := by
      intro id hid
      obtain ⟨hne, hid⟩ := Finset.mem_erase.mp hid
      have := h.known id hid
      rw [coe_cons_add, Multiset.cons_add, ids_cons, Multiset.mem_cons] at this
      exact this.resolve_left hne
    origin := fun d hd => h.origin d (Multiset.mem_of_le hle hd)
    addedOnce := h.addedOnce
    kept := by
      intro d hd hc
      rcases h.kept d hd hc with hset | hdone
      · rcases eq_or_ne d.id_ t.id_ with heq | hne
        · rw [heq] at hset
          have hr := ht.resolve_left (fun hn => hn hset)
          right
          rw [heq, h.origin_eq (by simp) hd heq]
          exact ⟨hr, h.ran t (List.mem_cons_self ..) hr hset⟩
        · exact Or.inl (Finset.mem_erase.mpr ⟨hne, hset⟩)
      · exact Or.inr hdone
    dead := fun id hid =>
      ⟨fun hmem => (h.dead id hid).1 (Finset.mem_of_mem_erase hmem), (h.dead id hid).2⟩
    fresh := h.fresh
    ran := fun d hd hr hid =>
      h.ran d (List.mem_cons_of_mem _ hd) hr (Finset.mem_of_mem_erase hid)
    once := h.once
    startedAdded := h.startedAdded }

namespace State

def Inv (s : State H) : Prop :=
  TimerQueue.Inv s.waiting s.passed s.timerIdSet_ s.started s.added s.cancelled

theorem rearm_eq (s : State H) (lag : Nat) :
    ∃ c fd, s.clock ≤ c ∧ s.rearm lag = { s with clock := c, timerfd_ := fd } := by
  unfold rearm
  split
  · exact ⟨s.clock, s.timerfd_, le_rfl, rfl⟩
  · exact ⟨_, _, Int.le_add_of_nonneg_right (Int.natCast_nonneg lag), rfl⟩

theorem reset_eq (s : State H) (lag : Nat) :
    ∃ c fd, s.clock ≤ c ∧ s.reset lag = { s with clock := c, timerfd_ := fd } :=
  { s with timerfd_ := none }.rearm_eq lag

theorem addTimerInLoop_eq (s : State H) (t : Timer) (lag : Nat) :
    ∃ c fd, s.clock ≤ c ∧ s.addTimerInLoop t lag =
      { s with
        timers_ := H.push t s.timers_, timerIdSet_ := Insert.insert t.id_ s.timerIdSet_,
        added := s.added ++ [t], clock := c, timerfd_ := fd } := by
  unfold addTimerInLoop
  dsimp only
  split
  · exact ⟨_, _, Int.le_add_of_nonneg_right (Int.natCast_nonneg lag), rfl⟩
  · exact ⟨_, _, le_rfl, rfl⟩

theorem addTimerInLoop_added (s : State H) (t : Timer) (lag : Nat) :
    (s.addTimerInLoop t lag).added = s.added ++ [t] := by
  obtain ⟨c, fd, -, heq⟩ := s.addTimerInLoop_eq t lag
  rw [heq]

theorem addTimerInLoop_open (s : State H) (t : Timer) (lag : Nat) :
    (s.addTimerInLoop t lag).open_ = s.open_ := by
  obtain ⟨c, fd, -, heq⟩ := s.addTimerInLoop_eq t lag
  rw [heq]
  rfl

theorem waiting_push (s : State H) (t : Timer) :
    { s with timers_ := H.push t s.timers_ }.waiting = t ::ₘ s.waiting := by
  change H.elems (H.push t s.timers_) + ↑s.todo = t ::ₘ (H.elems s.timers_ + ↑s.todo)
  rw [H.elems_push, Multiset.cons_add]

theorem when_le_of_mem_getExpired {s : State H} {now : Int} {t : Timer}
    (ht : t ∈ (s.getExpired now).1) : t.when_ ≤ now :=
  H.le_of_mem_takeWhileLe ht

theorem lt_when_of_mem_rest {s : State H} {now : Int} {t : Timer}
    (ht : t ∈ H.elems (s.getExpired now).2) : now < t.when_ :=
  H.lt_of_mem_rest le_rfl ht

theorem elems_getExpired (s : State H) (now : Int) :
    s.heap = (s.getExpired now).1 + H.elems (s.getExpired now).2 :=
  H.elems_takeWhileLe now _ s.timers_

theorem waiting_handleRead {s : State H} (hb : s.batch = none) :
    s.handleRead.waiting = s.waiting := by
  have hw : s.waiting = s.heap := by simp [waiting, todo, hb]
  rw [hw, s.elems_getExpired s.clock, Multiset.add_comm]
  rfl

theorem resetOne_cases (now : Int) (s : State H) (t : Timer) :
    (t.id_ ∈ s.timerIdSet_ ∧ t.repeat_ = true ∧
      resetOne now s t = { s with timers_ := H.push (t.restart now s.clock) s.timers_ }) ∨
    ((t.id_ ∉ s.timerIdSet_ ∨ t.repeat_ = false) ∧
      resetOne now s t = { s with timerIdSet_ := s.timerIdSet_.erase t.id_ }) := by
  unfold resetOne
  by_cases hid : t.id_ ∈ s.timerIdSet_
  · cases hr : t.repeat_ with
    | true => exact Or.inl ⟨hid, rfl, by simp [hid, insert]⟩
    | false => exact Or.inr ⟨Or.inr rfl, by simp [hid]⟩
  · exact Or.inr ⟨Or.inl hid, by simp [hid]⟩

theorem resetOne_inv {s : State H} {now : Int} {t : Timer} {done : List Timer}
    (h : TimerQueue.Inv s.heap (t :: done) s.timerIdSet_ s.started s.added s.cancelled) :
    TimerQueue.Inv (resetOne now s t).heap done (resetOne now s t).timerIdSet_
      (resetOne now s t).started (resetOne now s t).added (resetOne now s t).cancelled := by
  rcases resetOne_cases now s t with ⟨-, hr, heq⟩ | ⟨ht, heq⟩
  · rw [heq]
    change TimerQueue.Inv (H.elems (H.push (t.restart now s.clock) s.timers_)) _ _ _ _ _
    rw [H.elems_push]
    exact h.reinsert (t.restart_id now s.clock) (t.restart_repeat now s.clock) hr
  · rw [heq]
    exact h.forget ht

theorem foldl_resetOne_inv {now : Int} {done rest : List Timer} {s : State H}
    (h : TimerQueue.Inv s.heap (done ++ rest) s.timerIdSet_ s.started s.added s.cancelled) :
    TimerQueue.Inv (done.foldl (resetOne now) s).heap rest
      (done.foldl (resetOne now) s).timerIdSet_ (done.foldl (resetOne now) s).started
      (done.foldl (resetOne now) s).added (done.foldl (resetOne now) s).cancelled := by
  induction done generalizing s with
  | nil => exact h
  | cons t done ih => exact ih (resetOne_inv h)

theorem foldl_resetOne_frame (now : Int) (done : List Timer) (s : State H) :
    ∃ q set, done.foldl (resetOne now) s = { s with timers_ := q, timerIdSet_ := set } := by
  induction done generalizing s with
  | nil => exact ⟨s.timers_, s.timerIdSet_, rfl⟩
  | cons t done ih =>
    rw [List.foldl_cons]
    rcases resetOne_cases now s t with ⟨-, -, heq⟩ | ⟨-, heq⟩
    · rw [heq]
      exact ih _
    · rw [heq]
      exact ih _

def finished (s : State H) (now : Int) (passed : List Timer) : State H :=
  passed.foldl (resetOne now) { s with callingExpiredTimers_ := false }

theorem finished_frame (s : State H) (now : Int) (passed : List Timer) :
    ∃ q set, s.finished now passed =
      { s with timers_ := q, timerIdSet_ := set, callingExpiredTimers_ := false } :=
  foldl_resetOne_frame now passed { s with callingExpiredTimers_ := false }

theorem finish_eq (s : State H) (b : Batch) (lag : Nat) :
    ∃ c fd, s.clock ≤ c ∧ s.finish b lag =
      { s.finished b.now b.passed with batch := none, clock := c, timerfd_ := fd } := by
  obtain ⟨c, fd, hc, heq⟩ := (s.finished b.now b.passed).rearm_eq lag
  refine ⟨c, fd, ?_, congrArg (fun t : State H => { t with batch := none }) heq⟩
  obtain ⟨q, set, hframe⟩ := s.finished_frame b.now b.passed
  rw [hframe] at hc
  exact hc

theorem Inv.step {s t : State H} (h : s.Inv) {i : Label} (hst : step s i = some t) : t.Inv := by
  cases step_transition hst with
  | addTimerInLoop timer lag _ hfresh =>
    obtain ⟨c, fd, -, heq⟩ := s.addTimerInLoop_eq timer lag
    have := TimerQueue.Inv.add h hfresh
    rw [← waiting_push] at this
    rw [heq]
    exact this
  | invalidateTimer id _ => exact TimerQueue.Inv.erase h id
  | handleRead hb =>
    have hp : s.handleRead.passed = s.passed := by
      rw [show s.passed = [] by simp [passed, hb]]
      rfl
    unfold Inv at h ⊢
    rw [waiting_handleRead hb, hp]
    exact h
  | next now passed' t' todo' hb =>
    have hw : s.waiting = t' ::ₘ (s.heap + ↑todo') := by
      simp [waiting, todo, hb, ← Multiset.cons_coe]
    have hp : s.passed = passed' := by simp [passed, hb]
    unfold Inv at h
    rw [hw, hp] at h
    unfold State.next
    split
    next ht => exact h.run ht
    next ht => exact h.skip ht
  | callbackReturns now passed' todo' hb =>
    unfold Inv at h ⊢
    simpa [waiting, todo, passed, heap, hb] using h
  | finish now passed' lag hb =>
    have hw : s.waiting = s.heap := by simp [waiting, todo, hb]
    have hp : s.passed = passed' := by simp [passed, hb]
    unfold Inv at h
    rw [hw, hp, ← List.append_nil passed'] at h
    have hfold :=
      @foldl_resetOne_inv H now passed' [] { s with callingExpiredTimers_ := false } h
    obtain ⟨c, fd, -, heq⟩ := s.finish_eq ⟨now, passed', [], false⟩ lag
    rw [heq]
    unfold Inv
    simpa [waiting, todo, passed, heap, finished] using hfold
  | reset lag _ =>
    obtain ⟨c, fd, -, heq⟩ := s.reset_eq lag
    rw [heq]
    exact h
  | tick d => exact h

theorem foldl_resetOne_heap {now : Int} {id : Nat} {done : List Timer} {s : State H}
    (hset : id ∉ s.timerIdSet_) (hheap : id ∉ ids s.heap) :
    id ∉ ids (done.foldl (resetOne now) s).heap := by
  induction done generalizing s with
  | nil => exact hheap
  | cons t done ih =>
    rw [List.foldl_cons]
    rcases resetOne_cases now s t with ⟨ht, -, heq⟩ | ⟨-, heq⟩
    · rw [heq]
      refine ih ?_ ?_
      · exact hset
      · change id ∉ ids (H.elems (H.push (t.restart now s.clock) s.timers_))
        rw [H.elems_push, ids_cons, Multiset.mem_cons, Timer.restart_id]
        rintro (rfl | hmem)
        · exact hset ht
        · exact hheap hmem
    · rw [heq]
      refine ih ?_ ?_
      · exact fun hmem => hset (Finset.mem_of_mem_erase hmem)
      · exact hheap

def StaysCancelled (id : Nat) (s t : State H) : Prop :=
  id ∈ s.cancelled → id ∈ t.cancelled ∧ t.started.count id = s.started.count id ∧
    (id ∉ ids s.heap → id ∉ ids t.heap)

theorem StaysCancelled.trans {id : Nat} {s t u : State H} (h : StaysCancelled id s t)
    (h' : StaysCancelled id t u) : StaysCancelled id s u := by
  intro hid
  obtain ⟨ht, hcount, hheap⟩ := h hid
  obtain ⟨hu, hcount', hheap'⟩ := h' ht
  exact ⟨hu, hcount'.trans hcount, fun hn => hheap' (hheap hn)⟩

theorem Inv.staysCancelled {s t : State H} (h : s.Inv) {i : Label} (hst : TimerQueue.step s i = some t)
    (id : Nat) : StaysCancelled id s t := by
  intro hid
  obtain ⟨hset, hadded⟩ := h.dead id hid
  cases step_transition hst with
  | addTimerInLoop timer lag _ hfresh =>
    obtain ⟨c, fd, -, heq⟩ := s.addTimerInLoop_eq timer lag
    rw [heq]
    refine ⟨hid, rfl, fun hheap => ?_⟩
    change id ∉ ids (H.elems (H.push timer s.timers_))
    rw [H.elems_push, ids_cons, Multiset.mem_cons]
    rintro (rfl | hmem)
    · exact hfresh hadded
    · exact hheap hmem
  | invalidateTimer i _ =>
    refine ⟨?_, rfl, fun hheap => hheap⟩
    unfold State.invalidateTimer
    dsimp only
    split
    · exact Finset.mem_insert_of_mem hid
    · exact hid
  | handleRead _ =>
    refine ⟨hid, rfl, fun hheap hmem => hheap ?_⟩
    rw [s.elems_getExpired s.clock, ids_add, Multiset.mem_add]
    exact Or.inr hmem
  | next =>
    unfold State.next
    split
    next ht =>
      exact ⟨hid, count_append_singleton_of_ne (fun heq => hset (heq ▸ ht)), fun hheap => hheap⟩
    next => exact ⟨hid, rfl, fun hheap => hheap⟩
  | callbackReturns => exact ⟨hid, rfl, fun hheap => hheap⟩
  | finish now passed' lag _ =>
    have hheap : id ∉ ids s.heap → id ∉ ids (s.finished now passed').heap :=
      @foldl_resetOne_heap H now id passed' { s with callingExpiredTimers_ := false } hset
    obtain ⟨c, fd, -, heq⟩ := s.finish_eq ⟨now, passed', [], false⟩ lag
    obtain ⟨q, set, hframe⟩ := s.finished_frame now passed'
    rw [hframe] at hheap
    rw [heq]
    dsimp only
    rw [hframe]
    exact ⟨hid, rfl, hheap⟩
  | reset lag _ =>
    obtain ⟨c, fd, -, heq⟩ := s.reset_eq lag
    rw [heq]
    exact ⟨hid, rfl, fun hheap => hheap⟩
  | tick d => exact ⟨hid, rfl, fun hheap => hheap⟩

theorem foldl_resetOne_set (now : Int) (done : List Timer) (s : State H) :
    (done.foldl (resetOne now) s).timerIdSet_ ⊆ s.timerIdSet_ := by
  induction done generalizing s with
  | nil => exact Finset.Subset.refl _
  | cons t done ih =>
    rw [List.foldl_cons]
    refine (ih _).trans ?_
    rcases resetOne_cases now s t with ⟨-, -, heq⟩ | ⟨-, heq⟩
    · rw [heq]
    · rw [heq]
      exact Finset.erase_subset _ _

end State

/-- Only `addTimerInLoop` puts an id into the set, and only ids of the set start. -/
theorem step_quiet {s t : State H} {i : Label} (hst : step s i = some t)
    (hi : ∀ timer lag, i ≠ .addTimerInLoop timer lag) :
    t.timerIdSet_ ⊆ s.timerIdSet_ ∧
      ∀ id ∉ s.timerIdSet_, t.started.count id = s.started.count id := by
  cases step_transition hst with
  | addTimerInLoop timer lag => exact absurd rfl (hi timer lag)
  | invalidateTimer id _ => exact ⟨Finset.erase_subset _ _, fun _ _ => rfl⟩
  | handleRead _ => exact ⟨Finset.Subset.refl _, fun _ _ => rfl⟩
  | next =>
    unfold State.next
    split
    next ht =>
      exact ⟨Finset.Subset.refl _, fun id hid =>
        count_append_singleton_of_ne (fun heq => hid (heq ▸ ht))⟩
    next => exact ⟨Finset.Subset.refl _, fun _ _ => rfl⟩
  | callbackReturns => exact ⟨Finset.Subset.refl _, fun _ _ => rfl⟩
  | finish now passed' lag _ =>
    have hset : (s.finished now passed').timerIdSet_ ⊆ s.timerIdSet_ :=
      State.foldl_resetOne_set now passed' { s with callingExpiredTimers_ := false }
    obtain ⟨c, fd, -, heq⟩ := s.finish_eq ⟨now, passed', [], false⟩ lag
    obtain ⟨q, set, hframe⟩ := s.finished_frame now passed'
    rw [hframe] at hset
    rw [heq]
    dsimp only
    rw [hframe]
    exact ⟨hset, fun _ _ => rfl⟩
  | reset lag _ =>
    obtain ⟨c, fd, -, heq⟩ := s.reset_eq lag
    rw [heq]
    exact ⟨Finset.Subset.refl _, fun _ _ => rfl⟩
  | tick d => exact ⟨Finset.Subset.refl _, fun _ _ => rfl⟩

theorem step_added {s t : State H} {i : Label} (hst : step s i = some t)
    (hi : ∀ timer lag, i ≠ .addTimerInLoop timer lag) : t.added = s.added := by
  cases step_transition hst with
  | addTimerInLoop timer lag => exact absurd rfl (hi timer lag)
  | invalidateTimer id _ => rfl
  | handleRead _ => rfl
  | next =>
    unfold State.next
    split <;> rfl
  | callbackReturns => rfl
  | finish now passed' lag _ =>
    obtain ⟨c, fd, -, heq⟩ := s.finish_eq ⟨now, passed', [], false⟩ lag
    obtain ⟨q, set, hframe⟩ := s.finished_frame now passed'
    rw [heq]
    dsimp only
    rw [hframe]
  | reset lag _ =>
    obtain ⟨c, fd, -, heq⟩ := s.reset_eq lag
    rw [heq]
  | tick d => rfl

theorem Reachable.inv {s : State H} (h : (system H).Reachable s) : s.Inv := by
  refine h.invariant ?_ (fun s i t hs hst => hs.step hst)
  rintro _ ⟨clock, rfl⟩
  unfold State.Inv
  simpa [init, State.waiting, State.heap, State.todo, State.passed] using Inv.empty

/-- The life of every timer: scheduled until it is cancelled or, one-shot, has run its
one time; and once cancelled, silent for good. -/
theorem timer_life {s : State H} (h : (system H).Reachable s) :
    (s.batch = none → (ids s.heap).Nodup ∧ (∀ id ∈ s.timerIdSet_, id ∈ ids s.heap) ∧
      ∀ t ∈ s.added, t.id_ ∉ s.cancelled →
        t.id_ ∈ ids s.heap ∨ t.repeat_ = false ∧ s.started.count t.id_ = 1) ∧
    (∀ t ∈ s.added, t.repeat_ = false → s.started.count t.id_ ≤ 1) ∧
    ∀ id ∈ s.cancelled, ∀ is s', (system H).run s is = some s' →
      s'.started.count id = s.started.count id ∧ (id ∉ ids s.heap → id ∉ ids s'.heap) := by
  have hi := Reachable.inv h
  refine ⟨?_, hi.once, ?_⟩
  · intro hb
    have hw : s.waiting + ↑s.passed = s.heap := by
      simp [State.waiting, State.todo, State.passed, hb]
    have hknown : ∀ id ∈ s.timerIdSet_, id ∈ ids s.heap := hw ▸ hi.known
    exact ⟨hw ▸ hi.distinct, hknown, fun t ht hc => (hi.kept t ht hc).imp_left (hknown t.id_)⟩
  · intro id hid is s' hr
    have hrel : State.StaysCancelled id s s' := h.run_rel
      (fun s hid => ⟨hid, rfl, fun hn => hn⟩) (fun _ _ _ h₁ h₂ => h₁.trans h₂)
      (fun _ _ _ hreach hst => State.Inv.staysCancelled (Reachable.inv hreach) hst id) hr
    exact (hrel hid).2

theorem timer_life_cancel_in_batch :
    ∃ s s' : State (Library.MinQueue.sorted Timer.when_),
      (system _).run (init 0)
        [.addTimerInLoop (.create 1 100 0) 0, .addTimerInLoop (.create 2 200 1) 0, .tick 300,
          .handleRead, .next, .invalidateTimer 2] = some s ∧
      (system _).run s [.callbackReturns, .next, .finish 0] = some s' ∧
      2 ∈ s.cancelled ∧ s'.started = [1] ∧
      s'.started.count 2 = s.started.count 2 ∧ (2 ∉ ids s.heap → 2 ∉ ids s'.heap) := by
  obtain ⟨s, hs, hp⟩ := (system (.sorted Timer.when_)).exists_run (init 0)
    [.addTimerInLoop (.create 1 100 0) 0, .addTimerInLoop (.create 2 200 1) 0, .tick 300,
      .handleRead, .next, .invalidateTimer 2]
    (fun s => decide (2 ∈ s.cancelled) && ((system (.sorted Timer.when_)).run s
      [.callbackReturns, .next, .finish 0]).any (fun s' => s'.started == [1])) (by decide +kernel)
  simp only [Bool.and_eq_true, decide_eq_true_eq] at hp
  obtain ⟨s', hs', hp'⟩ := Library.System.exists_run _ _ _ _ hp.2
  exact ⟨s, s', hs, hs', hp.1, by simpa using hp',
    (timer_life (Library.System.Reachable.run (.init ⟨0, rfl⟩) hs)).2.2 2 hp.1 _ s' hs'⟩

end MysqlConnectPool.TimerQueue
