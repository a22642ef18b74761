import Mathlib.Data.List.Basic
import Mathlib.Logic.Function.Basic

/-! Labelled systems with an executable step.  A label carries every choice the
environment makes in that step, so a run is the list of its labels. -/

universe u v w x

namespace MysqlConnectPool.Library

structure System (σ : Type u) (ι : Type v) where
  init : σ → Prop
  step : σ → ι → Option σ

namespace System

variable {σ : Type u} {ι : Type v} (S : System σ ι)

def run : σ → List ι → Option σ
  | s, [] => some s
  | s, i :: is => (S.step s i).bind (fun t => run t is)

/-- The states reached by runs all of whose steps meet `ok`. -/
inductive ReachableWhen (ok : σ → ι → Prop) : σ → Prop
  | init : S.init s → ReachableWhen ok s
  | step : ReachableWhen ok s → ok s i → S.step s i = some t → ReachableWhen ok t

def Reachable : σ → Prop := S.ReachableWhen (fun _ _ => True)

variable {S}

theorem Reachable.init {s : σ} (h : S.init s) : S.Reachable s := ReachableWhen.init h

theorem Reachable.step {s t : σ} {i : ι} (h : S.Reachable s) (hst : S.step s i = some t) :
    S.Reachable t := ReachableWhen.step h trivial hst

theorem Reachable.run {s t : σ} {is : List ι} (h : S.Reachable s) (hr : S.run s is = some t) :
    S.Reachable t := by
  induction is generalizing s with
  | nil =>
    cases hr
    exact h
  | cons i is ih =>
    obtain ⟨m, hm, hr⟩ := Option.bind_eq_some_iff.mp hr
    exact ih (h.step hm) hr

/-- The invariant rule: what holds at the start and survives every allowed step
holds in every state reached. -/
theorem ReachableWhen.invariant {ok : σ → ι → Prop} {I : σ → Prop} (hinit : ∀ s, S.init s → I s)
    (hstep : ∀ s i t, I s → ok s i → S.step s i = some t → I t) {s : σ}
    (h : S.ReachableWhen ok s) : I s := by
  induction h with
  | init h => exact hinit _ h
  | step _ hok hst ih => exact hstep _ _ _ ih hok hst

theorem Reachable.invariant {I : σ → Prop} (hinit : ∀ s, S.init s → I s)
    (hstep : ∀ s i t, I s → S.step s i = some t → I t) {s : σ} (h : S.Reachable s) : I s :=
  ReachableWhen.invariant hinit (fun s i t hs _ => hstep s i t hs) h

def runWhen (S : System σ ι) (ok : σ → ι → Bool) : σ → List ι → Option σ
  | s, [] => some s
  | s, i :: is => if ok s i then (S.step s i).bind (fun t => runWhen S ok t is) else none

theorem ReachableWhen.run {ok : σ → ι → Bool} {s t : σ} {is : List ι}
    (h : S.ReachableWhen (fun s i => ok s i) s) (hr : S.runWhen ok s is = some t) :
    S.ReachableWhen (fun s i => ok s i) t := by
  induction is generalizing s with
  | nil =>
    cases hr
    exact h
  | cons i is ih =>
    obtain ⟨hok, hr⟩ := Option.ite_none_right_eq_some.mp hr
    obtain ⟨m, hm, hr⟩ := Option.bind_eq_some_iff.mp hr
    exact ih (h.step hok hm) hr

theorem exists_runWhen (S : System σ ι) (ok : σ → ι → Bool) (s : σ) (is : List ι) (p : σ → Bool)
    (h : (S.runWhen ok s is).any p = true) : ∃ t, S.runWhen ok s is = some t ∧ p t = true := by
  cases hr : S.runWhen ok s is with
  | none => simp [hr] at h
  | some t => exact ⟨t, rfl, by simpa [hr] using h⟩

/-- Where a step keeps `I` exactly when it meets `ok`, the runs that stay in `I` are those all of
whose steps meet `ok`. -/
theorem runWhen_iff {ok : σ → ι → Bool} {I J : σ → Prop}
    (hiff : ∀ s i t, J s → I s → S.step s i = some t → (I t ↔ ok s i = true))
    (hkeep : ∀ s i t, J s → I s → I t → S.step s i = some t → J t) {s t : σ} {is : List ι}
    (hJ : J s) (hI : I s) (hr : S.run s is = some t) :
    (∀ pre u, pre <+: is → S.run s pre = some u → I u) ↔ S.runWhen ok s is = some t := by
  induction is generalizing s with
  | nil =>
    cases hr
    refine ⟨fun _ => rfl, fun _ pre u hpre hu => ?_⟩
    cases List.prefix_nil.mp hpre
    cases hu
    exact hI
  | cons i is ih =>
    obtain ⟨m, hm, hrest⟩ := Option.bind_eq_some_iff.mp hr
    constructor
    · intro hall
      have hIm : I m := hall [i] m ⟨is, rfl⟩ (by simp [run, hm])
      rw [runWhen, if_pos ((hiff s i m hJ hI hm).mp hIm), hm, Option.bind_some]
      refine (ih (hkeep s i m hJ hI hIm hm) hIm hrest).mp fun pre u hpre hu => ?_
      exact hall (i :: pre) u (List.prefix_cons_inj i |>.mpr hpre) (by simpa [run, hm] using hu)
    · intro hwhen pre u hpre hu
      obtain ⟨hok, hrestWhen⟩ := Option.ite_none_right_eq_some.mp hwhen
      rw [hm, Option.bind_some] at hrestWhen
      have hIm : I m := (hiff s i m hJ hI hm).mpr hok
      cases pre with
      | nil =>
        cases hu
        exact hI
      | cons j pre =>
        obtain ⟨rfl, htail⟩ := List.cons_prefix_cons.mp hpre
        rw [run, hm, Option.bind_some] at hu
        exact (ih (hkeep s j m hJ hI hIm hm) hIm hrest).mpr hrestWhen pre u htail hu

theorem exists_run (S : System σ ι) (s : σ) (is : List ι) (p : σ → Bool)
    (h : (S.run s is).any p = true) : ∃ t, S.run s is = some t ∧ p t = true := by
  cases hr : S.run s is with
  | none => simp [hr] at h
  | some t => exact ⟨t, rfl, by simpa [hr] using h⟩

/-- The rule for two states of a run: a preorder that every step from a reachable state
moves along relates the ends of every run. -/
theorem Reachable.run_rel {R : σ → σ → Prop} (hrefl : ∀ s, R s s)
    (htrans : ∀ s t u, R s t → R t u → R s u)
    (hstep : ∀ s i t, S.Reachable s → S.step s i = some t → R s t) {s t : σ} {is : List ι}
    (h : S.Reachable s) (hr : S.run s is = some t) : R s t := by
  induction is generalizing s with
  | nil =>
    cases hr
    exact hrefl _
  | cons i is ih =>
    obtain ⟨m, hm, hr⟩ := Option.bind_eq_some_iff.mp hr
    exact htrans s m t (hstep s i m h hm) (ih (h.step hm) hr)

theorem run_singleton {S : System σ ι} {s : σ} {i : ι} : S.run s [i] = S.step s i :=
  Option.bind_fun_some _

theorem run_append (S : System σ ι) {s t u : σ} {is js : List ι} (h₁ : S.run s is = some t)
    (h₂ : S.run t js = some u) : S.run s (is ++ js) = some u := by
  induction is generalizing s with
  | nil =>
    cases h₁
    exact h₂
  | cons i is ih =>
    obtain ⟨m, hm, h₁⟩ := Option.bind_eq_some_iff.mp h₁
    exact Option.bind_eq_some_iff.mpr ⟨m, hm, ih h₁⟩

theorem run_split (S : System σ ι) {s t : σ} {pre post : List ι} {i : ι}
    (h : S.run s (pre ++ i :: post) = some t) :
    ∃ u v, S.run s pre = some u ∧ S.step u i = some v ∧ S.run v post = some t := by
  induction pre generalizing s with
  | nil =>
    obtain ⟨v, hv, h⟩ := Option.bind_eq_some_iff.mp h
    exact ⟨s, v, rfl, hv, h⟩
  | cons j pre ih =>
    obtain ⟨m, hm, h⟩ := Option.bind_eq_some_iff.mp h
    obtain ⟨u, v, hu, hstep, hv⟩ := ih h
    exact ⟨u, v, Option.bind_eq_some_iff.mpr ⟨m, hm, hu⟩, hstep, hv⟩

theorem exists_entry (S : System σ ι) {J : σ → Prop} {s t : σ} {is : List ι}
    (hr : S.run s is = some t) (hs : ¬J s) (ht : J t) :
    ∃ pre i post u v, is = pre ++ i :: post ∧ S.run s pre = some u ∧ ¬J u ∧ S.step u i = some v ∧
      J v := by
  induction is generalizing s with
  | nil =>
    cases hr
    exact absurd ht hs
  | cons i is ih =>
    obtain ⟨m, hm, hr⟩ := Option.bind_eq_some_iff.mp hr
    by_cases hJ : J m
    · exact ⟨[], i, is, s, m, rfl, rfl, hs, hm, hJ⟩
    · obtain ⟨pre, j, post, u, v, rfl, hu, hJu, hstep, hJv⟩ := ih hr hJ
      exact ⟨i :: pre, j, post, u, v, rfl, Option.bind_eq_some_iff.mpr ⟨m, hm, hu⟩, hJu, hstep, hJv⟩

/-- The rule of the budget: where every step that counts takes one off `m`, and a step of the other
kind adds `c` to it at most, a run has no more steps that count than `m` at its start and the
steps of the other kind allow.  The steps pay as long as the run has not left `J`. -/
theorem run_countP_le {I J : σ → Prop} {m : σ → Nat} {p q : ι → Bool} {c : Nat}
    (hinv : ∀ s i t, I s → S.step s i = some t → I t)
    (hback : ∀ s i t, I s → S.step s i = some t → J t → J s)
    (hpay : ∀ s i t, I s → S.step s i = some t → J s → J t →
      m t + (p i).toNat ≤ m s + c * (q i).toNat)
    {s t : σ} {is : List ι} (h : I s) (hr : S.run s is = some t) (ht : J t) :
    J s ∧ m t + is.countP p ≤ m s + c * is.countP q := by
  induction is generalizing s with
  | nil =>
    cases hr
    exact ⟨ht, Nat.le_refl _⟩
  | cons i is ih =>
    obtain ⟨u, hu, hr⟩ := Option.bind_eq_some_iff.mp hr
    obtain ⟨hJu, hsum⟩ := ih (hinv s i u h hu) hr
    have hJ := hback s i u h hu hJu
    have hstep := hpay s i u h hu hJ hJu
    have hp : (i :: is).countP p = is.countP p + (p i).toNat := by
      cases hi : p i <;> simp [hi]
    have hq : (i :: is).countP q = is.countP q + (q i).toNat := by
      cases hi : q i <;> simp [hi]
    refine ⟨hJ, ?_⟩
    rw [hp, hq, Nat.mul_add]
    omega

section Product

variable {κ : Type w} [DecidableEq κ]

def pi (S : κ → System σ ι) : System (κ → σ) (κ × ι) where
  init s := ∀ k, (S k).init (s k)
  step s i := ((S i.1).step (s i.1) i.2).map (Function.update s i.1)

theorem reachable_pi {S : κ → System σ ι} {s : κ → σ} (h : (pi S).Reachable s) (k : κ) :
    (S k).Reachable (s k) := by
  refine h.invariant (I := fun s => (S k).Reachable (s k)) ?_ ?_
  · intro s (hs : ∀ k, (S k).init (s k))
    exact .init (hs k)
  intro s i t hs hst
  obtain ⟨u, hu, rfl⟩ := Option.map_eq_some_iff.mp hst
  by_cases hk : k = i.1
  · subst hk
    rw [Function.update_self]
    exact hs.step hu
  · rw [Function.update_of_ne hk]
    exact hs

end Product

end System

/-- A concrete system each of whose steps is a run of an abstract one, seen through `abs`. -/
structure Refinement {σ : Type u} {ι : Type v} {τ : Type w} {κ : Type x} (C : System σ ι)
    (A : System τ κ) where
  abs : σ → τ
  acts : σ → ι → List κ
  init : ∀ s, C.init s → A.init (abs s)
  step : ∀ s i t, C.Reachable s → C.step s i = some t → A.run (abs s) (acts s i) = some (abs t)

namespace Refinement

variable {σ : Type u} {ι : Type v} {τ : Type w} {κ : Type x} {C : System σ ι} {A : System τ κ}

def trace (R : Refinement C A) : σ → List ι → List κ
  | _, [] => []
  | s, i :: is => (C.step s i).elim [] fun t => R.acts s i ++ trace R t is

theorem run (R : Refinement C A) {s t : σ} {is : List ι} (h : C.Reachable s)
    (hr : C.run s is = some t) : A.run (R.abs s) (R.trace s is) = some (R.abs t) := by
  induction is generalizing s with
  | nil =>
    cases hr
    rfl
  | cons i is ih =>
    obtain ⟨m, hm, hr⟩ := Option.bind_eq_some_iff.mp hr
    rw [trace, hm, Option.elim_some]
    exact A.run_append (R.step s i m h hm) (ih (h.step hm) hr)

theorem reachable (R : Refinement C A) {s : σ} (h : C.Reachable s) : A.Reachable (R.abs s) := by
  have hboth : C.Reachable s ∧ A.Reachable (R.abs s) := by
    refine h.invariant (I := fun s => C.Reachable s ∧ A.Reachable (R.abs s)) ?_ ?_
    · intro s hs
      exact ⟨.init hs, .init (R.init s hs)⟩
    · intro s i t hs hst
      exact ⟨hs.1.step hst, hs.2.run (R.step s i t hs.1 hst)⟩
  exact hboth.2

def trans {υ : Type*} {μ : Type*} {B : System υ μ} (R : Refinement C A) (Q : Refinement A B) :
    Refinement C B where
  abs s := Q.abs (R.abs s)
  acts s i := Q.trace (R.abs s) (R.acts s i)
  init s hs := Q.init _ (R.init s hs)
  step s i t h hst := Q.run (R.reachable h) (R.step s i t h hst)

theorem mem_trace (R : Refinement C A) {k : κ} {s : σ} {is : List ι} (h : k ∈ R.trace s is) :
    ∃ u, ∃ i ∈ is, k ∈ R.acts u i := by
  induction is generalizing s with
  | nil => cases h
  | cons i is ih =>
    rw [trace] at h
    cases hm : C.step s i with
    | none =>
      rw [hm] at h
      cases h
    | some m =>
      rw [hm, Option.elim_some] at h
      rcases List.mem_append.mp h with hfirst | hrest
      · exact ⟨s, i, List.mem_cons_self, hfirst⟩
      · obtain ⟨u, j, hj, hacts⟩ := ih hrest
        exact ⟨u, j, List.mem_cons_of_mem i hj, hacts⟩

theorem filterMap_trace (R : Refinement C A) {α : Type*} {f : κ → Option α} {g : ι → Option α}
    (hacts : ∀ s i t, C.step s i = some t → (R.acts s i).filterMap f = (g i).toList)
    {s t : σ} {is : List ι} (hr : C.run s is = some t) :
    (R.trace s is).filterMap f = is.filterMap g := by
  induction is generalizing s with
  | nil => rfl
  | cons i is ih =>
    obtain ⟨m, hm, hr⟩ := Option.bind_eq_some_iff.mp hr
    rw [trace, hm, Option.elim_some, List.filterMap_append, hacts s i m hm, ih hr]
    cases hg : g i with
    | none => rw [List.filterMap_cons_none hg, Option.toList_none, List.nil_append]
    | some a => rw [List.filterMap_cons_some hg, Option.toList_some, List.singleton_append]

theorem countP_trace (R : Refinement C A) {p : κ → Bool} {q : ι → Bool}
    (hacts : ∀ s i t, C.step s i = some t → (R.acts s i).countP p = (q i).toNat) {s t : σ}
    {is : List ι} (hr : C.run s is = some t) : (R.trace s is).countP p = is.countP q := by
  induction is generalizing s with
  | nil => rfl
  | cons i is ih =>
    obtain ⟨m, hm, hr⟩ := Option.bind_eq_some_iff.mp hr
    rw [trace, hm, Option.elim_some, List.countP_append, hacts s i m hm, ih hr]
    cases hq : q i <;> simp [hq, Nat.add_comm]

end Refinement

end MysqlConnectPool.Library
