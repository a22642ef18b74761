import MysqlConnectPool.Utils.MPSCQueue

/-! The chain of nodes from `tail_` to `head_`, whose links may be missing where a
producer stands between its two steps, and what every interleaving keeps of it. -/

universe u v w

namespace MysqlConnectPool.MPSCQueue

variable {ι : Type w} {Addr : Type u} {T : Type v}

def links : Addr → List (Enqueue ι Addr T) → List (Addr × Enqueue ι Addr T)
  | _, [] => []
  | a, e :: es => (a, e) :: links e.newNode es

def chain (a : Addr) (es : List (Enqueue ι Addr T)) : List Addr := a :: es.map (·.newNode)

def last : Addr → List (Enqueue ι Addr T) → Addr
  | a, [] => a
  | _, e :: es => last e.newNode es

@[simp] theorem last_append (a : Addr) (es : List (Enqueue ι Addr T)) (e : Enqueue ι Addr T) :
    last a (es ++ [e]) = e.newNode := by
  induction es generalizing a with
  | nil => rfl
  | cons e' es ih => exact ih e'.newNode

@[simp] theorem links_append (a : Addr) (es : List (Enqueue ι Addr T)) (e : Enqueue ι Addr T) :
    links a (es ++ [e]) = links a es ++ [(last a es, e)] := by
  induction es generalizing a with
  | nil => rfl
  | cons e' es ih => simp [links, last, ih]

@[simp] theorem chain_append (a : Addr) (es : List (Enqueue ι Addr T)) (e : Enqueue ι Addr T) :
    chain a (es ++ [e]) = chain a es ++ [e.newNode] := by simp [chain]

theorem last_mem_chain (a : Addr) (es : List (Enqueue ι Addr T)) : last a es ∈ chain a es := by
  induction es generalizing a with
  | nil => simp [last, chain]
  | cons e es ih =>
    have h := ih e.newNode
    simp only [last, chain, List.map_cons, List.mem_cons] at h ⊢
    exact Or.inr h

theorem fst_mem_chain {a : Addr} {es : List (Enqueue ι Addr T)} {l : Addr × Enqueue ι Addr T}
    (h : l ∈ links a es) : l.1 ∈ chain a es := by
  induction es generalizing a with
  | nil => simp [links] at h
  | cons e es ih =>
    simp only [links, List.mem_cons] at h
    rcases h with rfl | h
    · simp [chain]
    · have := ih h
      simp only [chain, List.map_cons, List.mem_cons] at this ⊢
      exact Or.inr this

theorem fst_ne_last {a : Addr} {es : List (Enqueue ι Addr T)} {l : Addr × Enqueue ι Addr T}
    (hn : (chain a es).Nodup) (h : l ∈ links a es) : l.1 ≠ last a es := by
  induction es generalizing a with
  | nil => simp [links] at h
  | cons e es ih =>
    have hn' : (chain e.newNode es).Nodup := by simpa [chain] using (List.nodup_cons.mp hn).2
    simp only [links, List.mem_cons] at h
    rcases h with rfl | h
    · intro heq
      apply (List.nodup_cons.mp hn).1
      rw [show a = last e.newNode es from heq]
      exact last_mem_chain _ _
    · exact ih hn' h

theorem links_fst_injective {a b : Addr} {es : List (Enqueue ι Addr T)} {e e' : Enqueue ι Addr T}
    (hn : (chain a es).Nodup) (h : (b, e) ∈ links a es) (h' : (b, e') ∈ links a es) : e = e' := by
  induction es generalizing a with
  | nil => simp [links] at h
  | cons d es ih =>
    have hn' : (chain d.newNode es).Nodup := by simpa [chain] using (List.nodup_cons.mp hn).2
    have hfresh : ∀ c, (a, c) ∉ links d.newNode es := by
      intro c hc
      exact (List.nodup_cons.mp hn).1 (by simpa [chain] using fst_mem_chain hc)
    simp only [links, List.mem_cons, Prod.mk.injEq] at h h'
    rcases h with ⟨rfl, rfl⟩ | h
    · rcases h' with ⟨-, rfl⟩ | h'
      · rfl
      · exact (hfresh _ h').elim
    · rcases h' with ⟨rfl, rfl⟩ | h'
      · exact (hfresh _ h).elim
      · exact ih hn' h h'

namespace Consumer

def detached : Consumer Addr T → List Addr
  | .advanced tail _ => [tail]
  | _ => []

def inHand : Consumer Addr T → List T
  | .advanced _ output => [output]
  | _ => []

def unread : Consumer Addr T → List (Enqueue ι Addr T) → List (Enqueue ι Addr T)
  | .moved _ _ _, es => es.tail
  | _, es => es

theorem mem_of_mem_unread {c : Consumer Addr T} {es : List (Enqueue ι Addr T)}
    {e : Enqueue ι Addr T} (h : e ∈ c.unread es) : e ∈ es := by
  cases c with
  | moved => exact List.mem_of_mem_tail h
  | _ => exact h

theorem mem_unread_append {c : Consumer Addr T} {es : List (Enqueue ι Addr T)}
    {d e : Enqueue ι Addr T} (h : e ∈ c.unread (es ++ [d])) : e ∈ c.unread es ∨ e = d := by
  cases c with
  | moved =>
    cases es with
    | nil => simp [unread] at h
    | cons => simpa [unread] using h
  | _ => simpa [unread] using h

end Consumer

def Consumer.Agrees (tail_ : Addr) (next_ : Option Addr) (rest : List (Enqueue ι Addr T)) :
    Consumer Addr T → Prop
  | .loaded tail next => tail = tail_ ∧ next_ = some next
  | .moved tail next output =>
      tail = tail_ ∧ next_ = some next ∧ rest.head?.map (·.value) = some output
  | _ => True

theorem Consumer.Agrees.append {tail_ : Addr} {next_ : Option Addr}
    {rest : List (Enqueue ι Addr T)} {c : Consumer Addr T} (h : c.Agrees tail_ next_ rest)
    (e : Enqueue ι Addr T) : c.Agrees tail_ next_ (rest ++ [e]) := by
  cases c with
  | moved tail next output =>
    refine ⟨h.1, h.2.1, ?_⟩
    cases rest with
    | nil => exact absurd h.2.2 (by simp)
    | cons => exact h.2.2
  | idle => trivial
  | loaded => exact h
  | advanced => trivial

theorem Consumer.Agrees.next {tail_ : Addr} {next_ next_' : Option Addr}
    {rest : List (Enqueue ι Addr T)} {c : Consumer Addr T} (h : c.Agrees tail_ next_ rest)
    (hn : next_ ≠ none → next_' = next_) : c.Agrees tail_ next_' rest := by
  cases c with
  | loaded tail next => exact ⟨h.1, (hn (by simp [h.2])).trans h.2⟩
  | moved tail next output => exact ⟨h.1, (hn (by simp [h.2.1])).trans h.2.1, h.2.2⟩
  | idle => trivial
  | advanced => trivial

theorem next_of_heap {s t : State ι Addr T} {a : Addr} (h : t.heap a = s.heap a) :
    t.next a = s.next a := by simp [State.next, h]

variable [DecidableEq Addr]

/-- `done` are the enqueues whose value has left the chain, `rest` those behind
`tail_`.  A link of the chain may be missing only while its producer is pending. -/
structure Inv (s : State ι Addr T) (done rest : List (Enqueue ι Addr T)) : Prop where
  fault : s.fault = none
  exchanged : s.exchanged = done ++ rest
  dequeued : done.map (·.value) = s.dequeued ++ s.consumer.inHand
  head : s.head_ = last s.tail_ rest
  headNext : s.next s.head_ = none
  nodup : (s.consumer.detached ++ chain s.tail_ rest).Nodup
  live : ∀ a, (s.heap a).isSome ↔ a ∈ s.consumer.detached ++ chain s.tail_ rest
  link : ∀ l ∈ links s.tail_ rest, s.next l.1 = some l.2.newNode ∨
    s.next l.1 = none ∧ s.pending l.2.producer = some (l.1, l.2.newNode)
  pending : ∀ p a b, s.pending p = some (a, b) →
    s.next a = none ∧ ∃ e, (a, e) ∈ links s.tail_ rest ∧ e.newNode = b ∧ e.producer = p
  values : ∀ e ∈ s.consumer.unread rest, (s.heap e.newNode).bind (·.dataPtr_) = some e.value
  agrees : s.consumer.Agrees s.tail_ (s.next s.tail_) rest
  counts : ∀ a, s.allocated.count a = s.freed.count a + if (s.heap a).isSome then 1 else 0

theorem Inv.chain_nodup {s : State ι Addr T} (h : Inv s done rest) :
    (chain s.tail_ rest).Nodup := h.nodup.of_append_right

theorem Inv.chain_live {s : State ι Addr T} (h : Inv s done rest) {a : Addr}
    (ha : a ∈ chain s.tail_ rest) : (s.heap a).isSome :=
  (h.live a).mpr (List.mem_append_right _ ha)

theorem Inv.init (front : Addr) : Inv (init front : State ι Addr T) [] [] where
  fault := rfl
  exchanged := rfl
  dequeued := rfl
  head := rfl
  headNext := by simp [State.next, MPSCQueue.init]
  nodup := by simp [MPSCQueue.init, Consumer.detached, chain]
  live a := by
    by_cases ha : a = front
    · simp [MPSCQueue.init, Consumer.detached, chain, ha]
    · simp [MPSCQueue.init, Consumer.detached, chain, ha, Function.update_of_ne]
  link := by simp [links]
  pending := by simp [MPSCQueue.init]
  values := by simp [MPSCQueue.init, Consumer.unread]
  agrees := trivial
  counts a := by
    by_cases ha : a = front
    · subst ha
      simp [MPSCQueue.init]
    · simp [MPSCQueue.init, ha, Ne.symm ha]

theorem Inv.pending_link {s : State ι Addr T} (h : Inv s done rest) {p : ι} {a b : Addr}
    (hp : s.pending p = some (a, b)) :
    ∃ e, (a, e) ∈ links s.tail_ rest ∧ e.newNode = b ∧ e.producer = p ∧
      ∀ l ∈ links s.tail_ rest, l.1 = a → l.2 = e := by
  obtain ⟨-, e, he, hb, hprod⟩ := h.pending p a b hp
  refine ⟨e, he, hb, hprod, ?_⟩
  rintro ⟨a', e'⟩ hl rfl
  exact links_fst_injective h.chain_nodup hl he

theorem Inv.load {s : State ι Addr T} (h : Inv s done rest) (hc : s.consumer = .idle) :
    Inv s.dequeueLoad done rest := by
  obtain ⟨node, hnode⟩ := Option.isSome_iff_exists.mp
    (h.chain_live (a := s.tail_) (by simp [chain]))
  unfold State.dequeueLoad
  simp only [hnode]
  cases hn : node.next_ with
  | none => exact h
  | some next =>
    exact {
      fault := h.fault
      exchanged := h.exchanged
      dequeued := by simpa [hc, Consumer.inHand] using h.dequeued
      head := h.head
      headNext := h.headNext
      nodup := by simpa [hc, Consumer.detached] using h.nodup
      live := by simpa [hc, Consumer.detached] using h.live
      link := h.link
      pending := h.pending
      values := by simpa [hc, Consumer.unread] using h.values
      agrees := ⟨rfl, by simp [State.next, hnode, hn]⟩
      counts := h.counts }

theorem Inv.next_some {s : State ι Addr T} (h : Inv s done rest) {next : Addr}
    (hn : s.next s.tail_ = some next) : ∃ e es, rest = e :: es ∧ e.newNode = next := by
  cases rest with
  | nil =>
    have := h.headNext
    rw [h.head] at this
    simp [last, hn] at this
  | cons e es =>
    refine ⟨e, es, rfl, ?_⟩
    rcases h.link (s.tail_, e) (by simp [links]) with hlink | ⟨hnone, -⟩
    · simpa [hn] using hlink.symm
    · simp [hn] at hnone

theorem Inv.move {s : State ι Addr T} (h : Inv s done rest) {tail next : Addr}
    (hc : s.consumer = .loaded tail next) : Inv (s.dequeueMove tail next) done rest := by
  obtain ⟨rfl, hn⟩ : tail = s.tail_ ∧ s.next s.tail_ = some next := by
    simpa [hc, Consumer.Agrees] using h.agrees
  obtain ⟨e, es, rfl, rfl⟩ := h.next_some hn
  have hval : (s.heap e.newNode).bind (·.dataPtr_) = some e.value :=
    h.values e (by simp [hc, Consumer.unread])
  obtain ⟨node, hnode, hdata⟩ := Option.bind_eq_some_iff.mp hval
  obtain ⟨dataPtr_, next_⟩ := node
  obtain rfl : dataPtr_ = some e.value := hdata
  have hnext : ∀ a, (Function.update s.heap e.newNode (some ⟨none, next_⟩) a).bind (·.next_) =
      s.next a := by
    intro a
    by_cases ha : a = e.newNode
    · simp [ha, State.next, hnode]
    · simp [ha, State.next]
  have hfresh : ∀ d ∈ es, d.newNode ≠ e.newNode := by
    have := h.chain_nodup
    simp only [chain, List.map_cons, List.nodup_cons, List.mem_map] at this
    exact fun d hd hde => this.2.1 ⟨d, hd, hde⟩
  simp only [State.dequeueMove, hnode]
  exact {
    fault := h.fault
    exchanged := h.exchanged
    dequeued := by simpa [hc, Consumer.inHand] using h.dequeued
    head := h.head
    headNext := (hnext _).trans h.headNext
    nodup := by simpa [hc, Consumer.detached] using h.nodup
    live := by
      intro a
      have := h.live a
      simp only [hc, Consumer.detached] at this
      simp only [Consumer.detached, ← this]
      by_cases ha : a = e.newNode
      · simp [ha, hnode]
      · simp [ha]
    link := by
      intro l hl
      simp only [State.next, hnext]
      exact h.link l hl
    pending := by
      intro p a b hp
      simp only [State.next, hnext]
      exact h.pending p a b hp
    values := by
      intro d (hd : d ∈ es)
      rw [← h.values d (by simp [hc, Consumer.unread, hd])]
      simp [hfresh d hd]
    agrees := ⟨rfl, (hnext _).trans hn, rfl⟩
    counts := by
      intro a
      rw [h.counts a]
      by_cases ha : a = e.newNode
      · simp [ha, hnode]
      · simp [ha] }

theorem Inv.advance {s : State ι Addr T} {e : Enqueue ι Addr T} (h : Inv s done (e :: es))
    {tail next : Addr} {output : T} (hc : s.consumer = .moved tail next output) :
    Inv (s.dequeueAdvance tail next output) (done ++ [e]) es := by
  obtain ⟨rfl, hn, hout⟩ : tail = s.tail_ ∧ s.next s.tail_ = some next ∧ e.value = output := by
    simpa [hc, Consumer.Agrees] using h.agrees
  obtain ⟨d, ds, hd, rfl⟩ := h.next_some hn
  obtain ⟨rfl, rfl⟩ := List.cons.inj hd
  exact {
    fault := h.fault
    exchanged := by simp [State.dequeueAdvance, h.exchanged]
    dequeued := by
      have := h.dequeued
      simp_all [State.dequeueAdvance, Consumer.inHand]
    head := h.head
    headNext := h.headNext
    nodup := by simpa [hc, State.dequeueAdvance, Consumer.detached, chain] using h.nodup
    live := by simpa [hc, State.dequeueAdvance, Consumer.detached, chain] using h.live
    link := fun l hl => h.link l (List.mem_cons_of_mem _ hl)
    pending := by
      intro p a b hp
      obtain ⟨hnone, d, hd, hb, hprod⟩ := h.pending p a b hp
      refine ⟨hnone, d, ?_, hb, hprod⟩
      rcases List.mem_cons.mp hd with hd | hd
      · obtain ⟨rfl, -⟩ := Prod.mk.inj hd
        exact absurd hnone (by simp [hn])
      · exact hd
    values := by
      intro d (hd : d ∈ es)
      exact h.values d (by simpa [hc, Consumer.unread] using hd)
    agrees := trivial
    counts := h.counts }

theorem Inv.free {s : State ι Addr T} (h : Inv s done rest) {tail : Addr} {output : T}
    (hc : s.consumer = .advanced tail output) : Inv (s.dequeueFree tail output) done rest := by
  have hlive : (s.heap tail).isSome := (h.live tail).mpr (by simp [hc, Consumer.detached])
  obtain ⟨node, hnode⟩ := Option.isSome_iff_exists.mp hlive
  have hout : ∀ a ∈ chain s.tail_ rest, a ≠ tail := by
    have := h.nodup
    simp only [hc, Consumer.detached, List.singleton_append, List.nodup_cons] at this
    rintro a ha rfl
    exact this.1 ha
  have hheap : ∀ a ∈ chain s.tail_ rest, Function.update s.heap tail none a = s.heap a :=
    fun a ha => Function.update_of_ne (hout a ha) _ _
  simp only [State.dequeueFree, State.delete, hnode]
  exact {
    fault := h.fault
    exchanged := h.exchanged
    dequeued := by simpa [hc, Consumer.inHand] using h.dequeued
    head := h.head
    headNext := by
      rw [← h.headNext]
      exact next_of_heap (hheap _ (h.head ▸ last_mem_chain _ _))
    nodup := h.chain_nodup
    live := by
      intro a
      have := h.live a
      by_cases ha : a = tail
      · simpa [ha, Consumer.detached] using fun hmem => hout _ hmem rfl
      · simpa [ha, hc, Consumer.detached] using this
    link := by
      intro l hl
      rw [show State.next _ l.1 = s.next l.1 from next_of_heap (hheap _ (fst_mem_chain hl))]
      exact h.link l hl
    pending := by
      intro p a b hp
      obtain ⟨hnone, e, he, hrest⟩ := h.pending p a b hp
      refine ⟨?_, e, he, hrest⟩
      rw [← hnone]
      exact next_of_heap (hheap _ (fst_mem_chain he))
    values := by
      intro e he
      rw [← h.values e (by simpa [hc, Consumer.unread] using he)]
      simp only [hheap _ (List.mem_cons_of_mem _ (List.mem_map_of_mem he))]
    agrees := trivial
    counts := by
      intro a
      rw [h.counts a]
      by_cases ha : a = tail
      · simp [ha, hnode]
      · simp [ha, Ne.symm ha] }

theorem Inv.dequeueStep {s : State ι Addr T} (h : Inv s done rest) :
    ∃ done' rest', Inv s.dequeueStep done' rest' := by
  unfold State.dequeueStep
  cases hc : s.consumer with
  | idle => exact ⟨done, rest, h.load hc⟩
  | loaded tail next => exact ⟨done, rest, h.move hc⟩
  | moved tail next output =>
    have hn : s.next s.tail_ = some next := by
      have := h.agrees
      rw [hc] at this
      exact this.2.1
    obtain ⟨e, es, rfl, -⟩ := h.next_some hn
    exact ⟨done ++ [e], es, h.advance hc⟩
  | advanced tail output => exact ⟨done, rest, h.free hc⟩

variable [DecidableEq ι]

theorem Inv.exchange {s : State ι Addr T} (h : Inv s done rest) {p : ι} {newNode : Addr}
    (output : T) (hp : s.pending p = none) (hfree : (s.heap newNode).isNone) :
    Inv (s.enqueueExchange p newNode output) done (rest ++ [⟨p, newNode, output⟩]) := by
  have hnew : newNode ∉ s.consumer.detached ++ chain s.tail_ rest := by
    intro hmem
    have := (h.live newNode).mpr hmem
    simp_all
  have hheap : ∀ a ∈ s.consumer.detached ++ chain s.tail_ rest,
      (s.enqueueExchange p newNode output).heap a = s.heap a := by
    intro a ha
    exact Function.update_of_ne (by rintro rfl; exact hnew ha) _ _
  have hnext : ∀ a ∈ chain s.tail_ rest,
      (s.enqueueExchange p newNode output).next a = s.next a :=
    fun a ha => next_of_heap (hheap a (List.mem_append_right _ ha))
  have hhead : s.head_ ∈ chain s.tail_ rest := h.head ▸ last_mem_chain _ _
  exact {
    fault := h.fault
    exchanged := by simp [State.enqueueExchange, h.exchanged]
    dequeued := h.dequeued
    head := by simp [State.enqueueExchange]
    headNext := by simp [State.enqueueExchange, State.next]
    nodup := by
      simp only [chain_append, ← List.append_assoc]
      exact List.nodup_append.mpr ⟨h.nodup, by simp,
        fun a ha b hb hab => hnew (by simp_all [State.enqueueExchange])⟩
    live := by
      intro a
      by_cases ha : a = newNode
      · simp [State.enqueueExchange, ha]
      · have := h.live a
        simp_all [State.enqueueExchange]
    link := by
      intro l hl
      rw [links_append, List.mem_append, List.mem_singleton] at hl
      rcases hl with hl | rfl
      · rw [hnext _ (fst_mem_chain hl)]
        rcases h.link l hl with hlink | ⟨hnone, hpend⟩
        · exact Or.inl hlink
        · refine Or.inr ⟨hnone, ?_⟩
          rw [← hpend]
          exact Function.update_of_ne (fun he => by simp_all) _ _
      · refine Or.inr ⟨?_, ?_⟩
        · change State.next _ (last s.tail_ rest) = none
          rw [← h.head, hnext _ hhead, h.headNext]
        · simp [State.enqueueExchange, h.head]
    pending := by
      intro q a b hq
      by_cases hqp : q = p
      · subst hqp
        obtain ⟨rfl, rfl⟩ : s.head_ = a ∧ newNode = b := by
          simpa [State.enqueueExchange] using hq
        refine ⟨by rw [hnext _ hhead, h.headNext], ⟨q, newNode, output⟩, ?_, rfl, rfl⟩
        simp [State.enqueueExchange, h.head]
      · have hq' : s.pending q = some (a, b) := by
          simpa [State.enqueueExchange, hqp] using hq
        obtain ⟨hnone, e, he, hb, hprod⟩ := h.pending q a b hq'
        refine ⟨by rw [hnext _ (fst_mem_chain he), hnone], e, ?_, hb, hprod⟩
        simp only [links_append, List.mem_append]
        exact Or.inl he
    values := by
      intro e he
      rcases Consumer.mem_unread_append he with he | rfl
      · have hmem : e.newNode ∈ chain s.tail_ rest :=
          List.mem_cons_of_mem _ (List.mem_map_of_mem (Consumer.mem_of_mem_unread he))
        rw [hheap _ (List.mem_append_right _ hmem)]
        exact h.values e he
      · simp [State.enqueueExchange]
    agrees := (h.agrees.append _).next (fun _ => hnext s.tail_ (by simp [chain]))
    counts := by
      intro a
      have := h.counts a
      by_cases ha : a = newNode
      · subst ha
        simp_all [State.enqueueExchange]
      · simp_all [State.enqueueExchange, Ne.symm ha] }

theorem Inv.link_step {s : State ι Addr T} (h : Inv s done rest) {p : ι}
    {prevhead newNode : Addr} (hp : s.pending p = some (prevhead, newNode)) :
    Inv (s.enqueueLink p prevhead newNode) done rest := by
  obtain ⟨e, he, hb, hprod, huniq⟩ := h.pending_link hp
  obtain ⟨node, hnode⟩ := Option.isSome_iff_exists.mp (h.chain_live (fst_mem_chain he))
  have hlast : prevhead ≠ s.head_ := h.head ▸ fst_ne_last h.chain_nodup he
  have hs : s.enqueueLink p prevhead newNode =
      { s with
        heap := Function.update s.heap prevhead (some { node with next_ := some newNode })
        pending := Function.update s.pending p none } := by
    simp [State.enqueueLink, hnode]
  rw [hs]
  exact {
    fault := h.fault
    exchanged := h.exchanged
    dequeued := h.dequeued
    head := h.head
    headNext := by rw [← h.headNext]; exact next_of_heap (Function.update_of_ne hlast.symm _ _)
    nodup := h.nodup
    live := by
      intro a
      rw [← h.live a]
      by_cases ha : a = prevhead
      · simp [ha, hnode]
      · simp [ha]
    link := by
      intro l hl
      by_cases ha : l.1 = prevhead
      · left
        simp [State.next, ha, huniq l hl ha, hb]
      · simp only [State.next, Function.update_of_ne ha]
        rcases h.link l hl with hlink | ⟨hnone, hpend⟩
        · exact Or.inl hlink
        · refine Or.inr ⟨hnone, ?_⟩
          rw [← hpend]
          refine Function.update_of_ne ?_ _ _
          rintro rfl
          simp_all
    pending := by
      intro q a b hq
      by_cases hqp : q = p
      · simp [hqp] at hq
      · have hq' : s.pending q = some (a, b) := by simpa [hqp] using hq
        obtain ⟨hnone, d, hd, hdb, hdprod⟩ := h.pending q a b hq'
        have ha : a ≠ prevhead := by
          rintro rfl
          have hde : d = e := huniq (a, d) hd rfl
          exact hqp (by rw [← hdprod, hde, hprod])
        refine ⟨?_, d, hd, hdb, hdprod⟩
        rw [← hnone]
        exact next_of_heap (Function.update_of_ne ha _ _)
    values := by
      intro d hd
      rw [← h.values d hd]
      by_cases ha : d.newNode = prevhead
      · simp [ha, hnode]
      · simp [ha]
    agrees := by
      refine h.agrees.next (fun hne => next_of_heap (Function.update_of_ne ?_ _ _))
      rintro heq
      exact hne (heq ▸ (h.pending p prevhead newNode hp).1)
    counts := by
      intro a
      rw [h.counts a]
      by_cases ha : a = prevhead
      · simp [ha, hnode]
      · simp [ha] }

theorem Inv.step {s t : State ι Addr T} (h : Inv s done rest) {i : Label ι Addr T}
    (hst : step s i = some t) : ∃ done' rest', Inv t done' rest' := by
  cases i with
  | exchange p newNode output =>
    simp only [MPSCQueue.step, Option.ite_none_right_eq_some, Option.some.injEq] at hst
    obtain ⟨⟨hp, hfree⟩, rfl⟩ := hst
    exact ⟨_, _, h.exchange output hp hfree⟩
  | link p =>
    cases hp : s.pending p with
    | none => simp [MPSCQueue.step, hp] at hst
    | some ab =>
      obtain rfl : s.enqueueLink p ab.1 ab.2 = t := by simpa [MPSCQueue.step, hp] using hst
      exact ⟨_, _, h.link_step hp⟩
  | dequeue =>
    obtain rfl : s.dequeueStep = t := by simpa [MPSCQueue.step] using hst
    exact h.dequeueStep

theorem exists_inv {s : State ι Addr T} (h : (system ι Addr T).Reachable s) :
    ∃ done rest, Inv s done rest := by
  refine h.invariant (I := fun s => ∃ done rest, Inv s done rest) ?_ ?_
  · rintro _ ⟨front, rfl⟩
    exact ⟨[], [], Inv.init front⟩
  · rintro s i t ⟨done, rest, hs⟩ hst
    exact hs.step hst

/-- `dequeued` is the exchange order cut off at some point, and a null `next` means
that all has been dequeued or that the next enqueue is still to be linked. -/
theorem dequeue_order {s : State ι Addr T} (h : (system ι Addr T).Reachable s) :
    s.dequeued <+: s.exchanged.map (·.value) ∧
    (s.DequeueReturnsFalse → s.dequeued = s.exchanged.map (·.value) ∨
      ∃ e, s.exchanged[s.dequeued.length]? = some e ∧
        ∃ prevhead, s.pending e.producer = some (prevhead, e.newNode)) ∧
    (∀ p prevhead newNode, s.pending p = some (prevhead, newNode) →
      (s.heap prevhead).isSome ∧ s.consumer.detached ≠ [prevhead]) ∧
    (∀ a, s.freed.count a + (if (s.heap a).isSome then 1 else 0) = s.allocated.count a) ∧
    s.fault = none := by
  obtain ⟨done, rest, hi⟩ := exists_inv h
  refine ⟨?_, ?_, ?_, fun a => (hi.counts a).symm, hi.fault⟩
  · rw [hi.exchanged, List.map_append, hi.dequeued, List.append_assoc]
    exact List.prefix_append _ _
  · rintro ⟨hidle, hempty⟩
    have hdone : done.map (·.value) = s.dequeued := by
      simpa [hidle, Consumer.inHand] using hi.dequeued
    have hlen : done.length = s.dequeued.length := by simp [← hdone]
    cases rest with
    | nil =>
      left
      simp [hi.exchanged, hdone]
    | cons e es =>
      right
      refine ⟨e, by simp [hi.exchanged, ← hlen], s.tail_, ?_⟩
      rcases hi.link (s.tail_, e) (by simp [links]) with hlink | ⟨-, hpend⟩
      · simp [State.empty, hlink] at hempty
      · exact hpend
  · intro p prevhead newNode hp
    obtain ⟨-, e, he, -⟩ := hi.pending p prevhead newNode hp
    have hmem := fst_mem_chain he
    refine ⟨hi.chain_live hmem, ?_⟩
    intro hdet
    have := hi.nodup
    simp only [hdet, List.singleton_append, List.nodup_cons] at this
    exact this.1 hmem

theorem dequeue_order_two_producers :
    ∃ s : State Bool Nat Char,
      (system Bool Nat Char).run (init 0)
        [.exchange true 1 'a', .exchange false 2 'b', .link false, .dequeue, .link true,
          .dequeue, .dequeue, .dequeue, .dequeue] = some s ∧
      s.dequeued = ['a'] ∧ s.dequeued <+: s.exchanged.map (·.value) ∧ s.fault = none := by
  obtain ⟨s, hs, hd⟩ := (system Bool Nat Char).exists_run (init 0)
    [.exchange true 1 'a', .exchange false 2 'b', .link false, .dequeue, .link true,
      .dequeue, .dequeue, .dequeue, .dequeue] (fun s => s.dequeued == ['a']) rfl
  have h := dequeue_order (Library.System.Reachable.run (.init ⟨0, rfl⟩) hs)
  exact ⟨s, hs, by simpa using hd, h.1, h.2.2.2.2⟩

end MysqlConnectPool.MPSCQueue
