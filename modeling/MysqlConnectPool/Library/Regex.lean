import Mathlib.Data.List.Basic
import Mathlib.Logic.Function.Basic

/-! Backtracking regular expressions: the matches of a pattern at a position, in the order in which a
greedy matcher tries them, and the search for the leftmost position with a match. -/

universe u v

namespace MysqlConnectPool.Library.Regex

inductive Pattern (α : Type u)
  | char : (α → Bool) → Pattern α
  | seq : Pattern α → Pattern α → Pattern α
  | alt : Pattern α → Pattern α → Pattern α
  | star : Pattern α → Pattern α
  | group : Nat → Pattern α → Pattern α

variable {α : Type u} {β : Type v}

def Pattern.plus (p : Pattern α) : Pattern α := .seq p (.star p)

structure Match (α : Type u) where
  rest : List α
  groups : Nat → List α

def Match.start (text : List α) : Match α := ⟨text, fun _ => []⟩

def Match.capture (i : Nat) (before after : Match α) : Match α :=
  ⟨after.rest,
    Function.update after.groups i (before.rest.take (before.rest.length - after.rest.length))⟩

/-- As many repetitions as possible first.  A repetition that consumes nothing does not count. -/
def repeated (f : Match α → List (Match α)) : Nat → Match α → List (Match α)
  | 0, m => [m]
  | n + 1, m => ((f m).filter (·.rest.length < m.rest.length)).flatMap (repeated f n) ++ [m]

/-- What a pattern matches from a position on, the preferred match first. -/
def Pattern.matchesAt : Pattern α → Match α → List (Match α)
  | .char accepts, m =>
    match m.rest with
    | [] => []
    | c :: rest => if accepts c then [{ m with rest := rest }] else []
  | .seq p q, m => (p.matchesAt m).flatMap q.matchesAt
  | .alt p q, m => p.matchesAt m ++ q.matchesAt m
  | .star p, m => repeated p.matchesAt m.rest.length m
  | .group i p, m => (p.matchesAt m).map (m.capture i)

def Pattern.search (p : Pattern α) : List α → Option (Match α)
  | [] => (p.matchesAt (.start [])).head?
  | c :: text => ((p.matchesAt (.start (c :: text))).head?).or (p.search text)

theorem repeated_eq (f : Match α → List (Match α)) {n : Nat} {m : Match α}
    (hn : m.rest.length ≤ n) : repeated f n m = repeated f m.rest.length m := by
  induction n using Nat.strongRecOn generalizing m with
  | _ n ih =>
    cases hlength : m.rest.length with
    | zero =>
      cases n with
      | zero => rfl
      | succ n => simp [repeated, hlength]
    | succ k =>
      obtain ⟨n, rfl⟩ : ∃ l, n = l + 1 := ⟨n - 1, by omega⟩
      simp only [repeated]
      congr 1
      refine List.flatMap_congr fun m' hm' => ?_
      have hshort : m'.rest.length ≤ k := by
        have := (List.mem_filter.mp hm').2
        simp only [decide_eq_true_eq] at this
        omega
      rcases Nat.eq_or_lt_of_le (show k ≤ n by omega) with rfl | hlt
      · rfl
      · rw [ih n (by omega) (show m'.rest.length ≤ n by omega),
          ih k (by omega) hshort]

def Pattern.consumes : Pattern α → Bool
  | .char _ => true
  | .seq p q => p.consumes || q.consumes
  | .alt p q => p.consumes && q.consumes
  | .star _ => false
  | .group _ p => p.consumes

theorem repeated_length_le (f : Match α → List (Match α)) {n : Nat} {m m' : Match α}
    (h : m' ∈ repeated f n m) : m'.rest.length ≤ m.rest.length := by
  induction n generalizing m with
  | zero => simp [List.mem_singleton.mp h]
  | succ n ih =>
    rcases List.mem_append.mp h with h | h
    · obtain ⟨l, hl, h⟩ := List.mem_flatMap.mp h
      have hshort : l.rest.length < m.rest.length := by simpa using (List.mem_filter.mp hl).2
      have := ih h
      omega
    · simp [List.mem_singleton.mp h]

theorem Pattern.length_le_of_mem (p : Pattern α) {m m' : Match α} (h : m' ∈ p.matchesAt m) :
    m'.rest.length ≤ m.rest.length := by
  induction p generalizing m m' with
  | char accepts =>
    rw [matchesAt] at h
    split at h
    · simp at h
    · next c rest heq =>
      split at h
      · simp [List.mem_singleton.mp h, heq]
      · simp at h
  | seq p q ihp ihq =>
    obtain ⟨l, hl, h⟩ := List.mem_flatMap.mp h
    exact Nat.le_trans (ihq h) (ihp hl)
  | alt p q ihp ihq =>
    rcases List.mem_append.mp h with h | h
    · exact ihp h
    · exact ihq h
  | star p => exact repeated_length_le _ h
  | group i p ih =>
    obtain ⟨l, hl, rfl⟩ := List.mem_map.mp h
    exact @ih m l hl

theorem Pattern.length_lt_of_mem (p : Pattern α) (hp : p.consumes) {m m' : Match α}
    (h : m' ∈ p.matchesAt m) : m'.rest.length < m.rest.length := by
  induction p generalizing m m' with
  | char accepts =>
    rw [matchesAt] at h
    split at h
    · simp at h
    · next c rest heq =>
      split at h
      · simp [List.mem_singleton.mp h, heq]
      · simp at h
  | seq p q ihp ihq =>
    obtain ⟨l, hl, h⟩ := List.mem_flatMap.mp h
    rcases Bool.or_eq_true_iff.mp hp with hp | hq
    · exact Nat.lt_of_le_of_lt (q.length_le_of_mem h) (ihp hp hl)
    · exact Nat.lt_of_lt_of_le (ihq hq h) (p.length_le_of_mem hl)
  | alt p q ihp ihq =>
    rcases List.mem_append.mp h with h | h
    · exact ihp (Bool.and_eq_true_iff.mp hp).1 h
    · exact ihq (Bool.and_eq_true_iff.mp hp).2 h
  | star p => exact absurd hp nofun
  | group i p ih =>
    obtain ⟨l, hl, rfl⟩ := List.mem_map.mp h
    exact @ih hp m l hl

theorem Pattern.search_length_lt (p : Pattern α) (hp : p.consumes) {text : List α} {m : Match α}
    (h : p.search text = some m) : m.rest.length < text.length := by
  induction text with
  | nil => exact p.length_lt_of_mem hp (List.mem_of_head? h)
  | cons c text ih =>
    rw [search, Option.or_eq_some_iff] at h
    rcases h with h | ⟨-, h⟩
    · exact p.length_lt_of_mem hp (List.mem_of_head? h)
    · exact Nat.lt_trans (ih h) (Nat.lt_succ_self _)

def Pattern.first (p : Pattern α) (k : Match α → Option β) (m : Match α) : Option β :=
  (p.matchesAt m).findSome? k

namespace Pattern

theorem head?_matchesAt (p : Pattern α) (m : Match α) :
    (p.matchesAt m).head? = p.first some m := by
  rw [first]
  cases p.matchesAt m <;> rfl

theorem first_char_nil (accepts : α → Bool) (k : Match α → Option β) {m : Match α}
    (hm : m.rest = []) : (char accepts).first k m = none := by
  simp [first, matchesAt, hm]

theorem first_char_cons (accepts : α → Bool) (k : Match α → Option β) {m : Match α} {c : α}
    {rest : List α} (hm : m.rest = c :: rest) :
    (char accepts).first k m = if accepts c then k { m with rest := rest } else none := by
  simp only [first, matchesAt, hm]
  split <;> simp

theorem findSome?_flatMap (ms : List (Match α)) (q : Pattern α) (k : Match α → Option β) :
    (ms.flatMap q.matchesAt).findSome? k = ms.findSome? (q.first k) := by
  induction ms with
  | nil => rfl
  | cons m ms ih =>
    rw [List.flatMap_cons, List.findSome?_append, ih, List.findSome?_cons]
    change (q.first k m).or _ = _
    cases q.first k m <;> rfl

theorem first_seq (p q : Pattern α) (k : Match α → Option β) (m : Match α) :
    (seq p q).first k m = p.first (q.first k) m :=
  findSome?_flatMap _ q k

theorem first_alt (p q : Pattern α) (k : Match α → Option β) (m : Match α) :
    (alt p q).first k m = (p.first k m).or (q.first k m) := by
  rw [first, matchesAt, List.findSome?_append]
  rfl

theorem matchesAt_star (p : Pattern α) (hp : p.consumes) (m : Match α) :
    (star p).matchesAt m = (p.matchesAt m).flatMap (star p).matchesAt ++ [m] := by
  have hlt : ∀ m' ∈ p.matchesAt m, m'.rest.length < m.rest.length :=
    fun _ => p.length_lt_of_mem hp
  simp only [matchesAt]
  cases hlength : m.rest.length with
  | zero =>
    have hnil : p.matchesAt m = [] :=
      List.eq_nil_iff_forall_not_mem.mpr fun m' hm' => by have := hlt m' hm'; omega
    simp [repeated, hnil]
  | succ n =>
    rw [repeated, List.filter_eq_self.mpr fun m' hm' => decide_eq_true (hlt m' hm')]
    congr 1
    refine List.flatMap_congr fun m' hm' => repeated_eq _ ?_
    have := hlt m' hm'
    omega

/-- A greedy repetition goes on before it stops. -/
theorem first_star (p : Pattern α) (hp : p.consumes) (k : Match α → Option β) (m : Match α) :
    (star p).first k m = (p.first ((star p).first k) m).or (k m) := by
  rw [first, matchesAt_star p hp, List.findSome?_append, findSome?_flatMap]
  cases hk : k m <;> simp [first, hk]

theorem first_plus (p : Pattern α) (k : Match α → Option β) (m : Match α) :
    p.plus.first k m = p.first ((star p).first k) m :=
  first_seq p (star p) k m

theorem first_star_run (accepts : α → Bool) (k : Match α → Option β) {m : Match α}
    {run rest : List α} (hm : m.rest = run ++ rest) (hrun : ∀ c ∈ run, accepts c)
    (hrest : ∀ c ∈ rest.head?, accepts c = false) {b : β}
    (hk : k { m with rest := rest } = some b) :
    (star (char accepts)).first k m = some b := by
  induction run generalizing m with
  | nil =>
    have hnone : (char accepts).first ((star (char accepts)).first k) m = none := by
      cases rest with
      | nil => exact first_char_nil _ _ hm
      | cons c rest => rw [first_char_cons _ _ hm, hrest c rfl]; rfl
    obtain ⟨_, groups⟩ := m
    subst hm
    rw [first_star _ rfl, hnone, Option.none_or]
    exact hk
  | cons c run ih =>
    have hnext := ih (m := { m with rest := run ++ rest }) rfl
      (fun c hc => hrun c (List.mem_cons_of_mem _ hc)) hk
    rw [first_star _ rfl, first_char_cons _ _ hm, if_pos (hrun c List.mem_cons_self)]
    exact (congrArg (Option.or · (k m)) hnext).trans rfl

theorem first_plus_run (accepts : α → Bool) (k : Match α → Option β) {m : Match α}
    {run rest : List α} (hm : m.rest = run ++ rest) (hne : run ≠ [])
    (hrun : ∀ c ∈ run, accepts c) (hrest : ∀ c ∈ rest.head?, accepts c = false) {b : β}
    (hk : k { m with rest := rest } = some b) :
    (char accepts).plus.first k m = some b := by
  obtain ⟨c, run, rfl⟩ := List.exists_cons_of_ne_nil hne
  rw [first_plus, first_char_cons _ _ hm, if_pos (hrun c List.mem_cons_self)]
  exact first_star_run accepts k rfl (fun c hc => hrun c (List.mem_cons_of_mem _ hc)) hrest hk

theorem first_group (i : Nat) (p : Pattern α) (k : Match α → Option β) (m : Match α) :
    (group i p).first k m = p.first (fun m' => k (m.capture i m')) m := by
  rw [first, matchesAt, List.findSome?_map]
  rfl

theorem search_of_first (p : Pattern α) {text : List α} {m : Match α}
    (h : p.first some (.start text) = some m) : p.search text = some m := by
  rw [← head?_matchesAt] at h
  cases text with
  | nil => exact h
  | cons c text => rw [search, h, Option.some_or]

theorem search_cons_of_none (p : Pattern α) {c : α} {text : List α}
    (h : p.first some (.start (c :: text)) = none) : p.search (c :: text) = p.search text := by
  rw [search, head?_matchesAt, h, Option.none_or]

end Pattern

end MysqlConnectPool.Library.Regex
