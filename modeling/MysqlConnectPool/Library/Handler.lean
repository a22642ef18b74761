import Mathlib.Data.List.Basic

/-! Handlers that run to their end on a state and ask their environment on the way, and
their weakest preconditions.  The answers of the environment are given as a list, so that
a handler is a function that can be run. -/

universe u v

namespace MysqlConnectPool.Library

/-- `stuck` is no run at all: an answer is missing or is not one that the environment gives. -/
inductive Outcome (σ : Type u) (ι : Type v) (α : Type u)
  | done (a : α) (s : σ) (rest : List ι)
  | stopped (s : σ)
  | stuck

def Handler (σ : Type u) (ι : Type v) (α : Type u) := σ → List ι → Outcome σ ι α

namespace Handler

variable {σ : Type u} {ι : Type v} {α β : Type u}

def bind (m : Handler σ ι α) (f : α → Handler σ ι β) : Handler σ ι β := fun s is =>
  match m s is with
  | .done a t rest => f a t rest
  | .stopped t => .stopped t
  | .stuck => .stuck

instance : Monad (Handler σ ι) where
  pure a := fun s is => .done a s is
  bind := bind

def state : Handler σ ι σ := fun s is => .done s s is

def update (f : σ → σ) : Handler σ ι PUnit := fun s is => .done ⟨⟩ (f s) is

def stop (f : σ → σ) : Handler σ ι α := fun s _ => .stopped (f s)

def stuck : Handler σ ι α := fun _ _ => .stuck

def guard (p : σ → Bool) : Handler σ ι PUnit := fun s is => if p s then .done ⟨⟩ s is else .stuck

/-- Takes the next answer, if it is one that `accept` allows here. -/
def ask (accept : σ → ι → Option α) : Handler σ ι α := fun s is =>
  match is with
  | [] => .stuck
  | i :: rest =>
    match accept s i with
    | some a => .done a s rest
    | none => .stuck

/-- The state in which the handler ends when it takes exactly these answers. -/
def run (m : Handler σ ι α) (s : σ) (is : List ι) : Option σ :=
  match m s is with
  | .done _ t [] => some t
  | .stopped t => some t
  | _ => none

theorem run_state_then {f : σ → Handler σ ι β} {s : σ} {is : List ι} :
    (state >>= f).run s is = (f s).run s is := rfl

theorem run_guard_then {p : σ → Bool} {f : PUnit → Handler σ ι β} {s : σ} {is : List ι} :
    (guard p >>= f).run s is = if p s then (f ⟨⟩).run s is else none := by
  have hbind : (guard p >>= f) s is = if p s then f ⟨⟩ s is else .stuck := by
    change bind (guard p) f s is = _
    simp only [bind, guard]
    cases p s <;> rfl
  unfold run
  rw [hbind]
  cases p s <;> rfl

/-- Whatever the answers, the handler started in `s` ends as `Q` says or stops as `E` says. -/
def wp (m : Handler σ ι α) (Q : α → σ → Prop) (E : σ → Prop) (s : σ) : Prop :=
  ∀ is, match m s is with
    | .done a t _ => Q a t
    | .stopped t => E t
    | .stuck => True

variable {m : Handler σ ι α} {f : α → Handler σ ι β} {Q Q' : α → σ → Prop} {E E' : σ → Prop} {s t : σ}

theorem wp_run {is : List ι} (h : m.wp Q E s) (hr : m.run s is = some t) : (∃ a, Q a t) ∨ E t := by
  have his := h is
  unfold run at hr
  split at hr
  · rename_i a u hm
    rw [hm] at his
    cases hr
    exact Or.inl ⟨a, his⟩
  · rename_i u hm
    rw [hm] at his
    cases hr
    exact Or.inr his
  · cases hr

theorem wp_mono (h : m.wp Q E s) (hQ : ∀ a t, Q a t → Q' a t) (hE : ∀ t, E t → E' t) :
    m.wp Q' E' s := by
  intro is
  have his := h is
  cases hm : m s is with
  | done a t rest =>
    rw [hm] at his
    exact hQ a t his
  | stopped t =>
    rw [hm] at his
    exact hE t his
  | stuck => trivial

theorem wp_and {R : α → σ → Prop} (h : m.wp Q E s) (h' : m.wp R E s) :
    m.wp (fun a t => Q a t ∧ R a t) E s := by
  intro is
  have his := h is
  have his' := h' is
  cases hm : m s is with
  | done a t rest =>
    rw [hm] at his his'
    exact ⟨his, his'⟩
  | stopped t =>
    rw [hm] at his
    exact his
  | stuck => trivial

@[simp] theorem wp_pure (a : α) : wp (pure a : Handler σ ι α) Q E s ↔ Q a s :=
  ⟨fun h => h [], fun h _ => h⟩

theorem wp_bind {Q : β → σ → Prop} (h : m.wp (fun a t => (f a).wp Q E t) E s) :
    (m >>= f).wp Q E s := by
  intro is
  have his := h is
  change match bind m f s is with | .done a t _ => Q a t | .stopped t => E t | .stuck => True
  unfold bind
  cases hm : m s is with
  | done a t rest =>
    rw [hm] at his
    exact his rest
  | stopped t =>
    rw [hm] at his
    exact his
  | stuck => trivial

/-- The rule for a handler whose postcondition fits what follows. -/
theorem wp_then {Q : β → σ → Prop} {R : α → σ → Prop} (h : m.wp R E s)
    (hf : ∀ a t, R a t → (f a).wp Q E t) : (m >>= f).wp Q E s :=
  wp_bind (wp_mono h hf fun _ ht => ht)

@[simp] theorem pure_then (a : α) : (pure a >>= f : Handler σ ι β) = f a := rfl

@[simp] theorem bind_then {γ : Type u} (m : Handler σ ι α) (f : α → Handler σ ι β)
    (g : β → Handler σ ι γ) : (m >>= f) >>= g = m >>= fun a => f a >>= g := by
  funext s is
  change bind (bind m f) g s is = bind m (fun a => bind (f a) g) s is
  unfold bind
  cases m s is with
  | done a t rest => rfl
  | stopped t => rfl
  | stuck => rfl

theorem then_pure (m : Handler σ ι α) : m >>= pure = m := by
  funext s is
  change bind m pure s is = m s is
  unfold bind
  cases m s is with
  | done a t rest => rfl
  | stopped t => rfl
  | stuck => rfl

@[simp] theorem ite_then {c : Prop} [Decidable c] (m m' : Handler σ ι α) :
    ((if c then m else m') >>= f) = if c then m >>= f else m' >>= f := by
  split <;> rfl

@[simp] theorem stop_then (g : σ → σ) : ((stop g : Handler σ ι α) >>= f) = stop g := rfl

@[simp] theorem wp_state_bind {f : σ → Handler σ ι β} {Q : β → σ → Prop} :
    ((state : Handler σ ι σ) >>= f).wp Q E s ↔ (f s).wp Q E s := Iff.rfl

@[simp] theorem wp_update_bind {g : σ → σ} {f : PUnit → Handler σ ι β} {Q : β → σ → Prop} :
    (update g >>= f).wp Q E s ↔ (f ⟨⟩).wp Q E (g s) := Iff.rfl

@[simp] theorem wp_update {g : σ → σ} {Q : PUnit → σ → Prop} :
    (update g : Handler σ ι PUnit).wp Q E s ↔ Q ⟨⟩ (g s) := ⟨fun h => h [], fun h _ => h⟩

@[simp] theorem wp_stop {g : σ → σ} : (stop g : Handler σ ι α).wp Q E s ↔ E (g s) :=
  ⟨fun h => h [], fun h _ => h⟩

@[simp] theorem wp_stuck : (stuck : Handler σ ι α).wp Q E s := fun _ => trivial

@[simp] theorem wp_guard_bind {p : σ → Bool} {f : PUnit → Handler σ ι β} {Q : β → σ → Prop} :
    (guard p >>= f).wp Q E s ↔ (p s = true → (f ⟨⟩).wp Q E s) := by
  constructor
  · intro h hp is
    have his := h is
    change match bind (guard p) f s is with
      | .done a t _ => Q a t | .stopped t => E t | .stuck => True at his
    simpa only [bind, guard, hp, if_true] using his
  · intro h
    apply wp_bind
    intro is
    by_cases hp : p s = true
    · simp only [guard, hp, if_true]
      exact h hp
    · simp only [guard, hp]
      trivial

@[simp] theorem wp_ask_bind {accept : σ → ι → Option α} {Q : β → σ → Prop} :
    (ask accept >>= f).wp Q E s ↔ ∀ i a, accept s i = some a → (f a).wp Q E s := by
  constructor
  · intro h i a ha is
    have his := h (i :: is)
    change match bind (ask accept) f s (i :: is) with
      | .done a t _ => Q a t | .stopped t => E t | .stuck => True at his
    simpa only [bind, ask, ha] using his
  · intro h
    apply wp_bind
    intro is
    cases is with
    | nil => trivial
    | cons i rest =>
      cases hi : accept s i with
      | none => simp only [ask, hi]
      | some a =>
        simp only [ask, hi]
        exact h i a hi

/-- The rule for doing the same thing for each member of a list. -/
theorem wp_forM {γ : Type u} {g : γ → Handler σ ι PUnit} {I : σ → Prop}
    (hg : ∀ c s, I s → (g c).wp (fun _ => I) E s) (cs : List γ) (h : I s) :
    (cs.forM g).wp (fun _ => I) E s := by
  induction cs generalizing s with
  | nil => exact wp_pure _ |>.mpr h
  | cons c cs ih => exact wp_bind (wp_mono (hg c s h) (fun _ _ ht => ih ht) (fun _ ht => ht))

/-! The same with the answers that a handler takes, for handlers that do not stop. -/

section Taking

variable {γ : Type u} {R R' : α → List ι → σ → Prop}

end Taking

end Handler

end MysqlConnectPool.Library
