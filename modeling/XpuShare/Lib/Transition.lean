import Mathlib.Tactic

/-! # Labelled transition systems and loops

A system is a step relation on states, labelled by events. Runs are reflexive transitive
closures of its steps, and a guard restricts the events a run may take. -/

section Rel

variable {α β γ δ : Type*} {R : α → β → Prop} {S : γ → δ → Prop} {o : Option α} {o' : Option β}

/-- Related computations go on to related ones. -/
theorem Option.Rel.bind {f : α → Option γ} {g : β → Option δ} (h : Option.Rel R o o')
    (hf : ∀ {a b}, R a b → Option.Rel S (f a) (g b)) : Option.Rel S (o.bind f) (o'.bind g) := by
  cases h with
  | some h => exact hf h
  | none => exact .none

theorem Option.Rel.map {f : α → γ} {g : β → δ} (h : Option.Rel R o o')
    (hf : ∀ {a b}, R a b → S (f a) (g b)) : Option.Rel S (o.map f) (o'.map g) := by
  cases h with
  | some h => exact .some (hf h)
  | none => exact .none

end Rel

namespace Transition

variable {σ ε : Type*}

/-- `t` is reached from `s` by some run. -/
def Reaches (step : σ → ε → σ → Prop) : σ → σ → Prop :=
  Relation.ReflTransGen fun s t => ∃ e, step s e t

/-- The steps whose event is admitted in the state before it. -/
def guarded (step : σ → ε → σ → Prop) (ok : σ → ε → Prop) (s : σ) (e : ε) (t : σ) : Prop :=
  ok s e ∧ step s e t

variable {step : σ → ε → σ → Prop} {s t u : σ}

theorem Reaches.refl (s : σ) : Reaches step s s := Relation.ReflTransGen.refl

theorem Reaches.tail {e : ε} (h : Reaches step s t) (hstep : step t e u) : Reaches step s u :=
  Relation.ReflTransGen.tail h ⟨e, hstep⟩

/-- What every step preserves holds in every state reached. -/
theorem Reaches.invariant {I : σ → Prop} (hstep : ∀ s e t, step s e t → I s → I t)
    (h : Reaches step s t) (hs : I s) : I t := by
  induction h with
  | refl => exact hs
  | tail _ hlast ih =>
      obtain ⟨e, he⟩ := hlast
      exact hstep _ e _ he ih

/-- A run of a system is a run of any system with more steps. -/
theorem Reaches.mono {step' : σ → ε → σ → Prop} (hle : ∀ s e t, step s e t → step' s e t)
    (h : Reaches step s t) : Reaches step' s t := by
  induction h with
  | refl => exact Reaches.refl s
  | tail _ hlast ih =>
      obtain ⟨e, he⟩ := hlast
      exact ih.tail (hle _ _ _ he)

/-- Two systems that take the same events. -/
def lockstep (step step' : σ → ε → σ → Prop) (p : σ × σ) (e : ε) (q : σ × σ) : Prop :=
  step p.1 e q.1 ∧ step' p.2 e q.2

/-- Taking the events of a list one after the other. -/
def execute (next : σ → ε → Option σ) (events : List ε) (s : σ) : Option σ :=
  events.foldlM next s

/-- An execution whose every move is a step is a run. -/
theorem Reaches.of_execute {next : σ → ε → Option σ}
    (hnext : ∀ s e t, next s e = some t → step s e t) {events : List ε} {s t : σ}
    (h : execute next events s = some t) : Reaches step s t := by
  induction events generalizing s with
  | nil =>
      rw [← Option.some.inj h]
      exact Reaches.refl s
  | cons e events ih =>
      simp only [execute, List.foldlM_cons, Option.bind_eq_bind, Option.bind_eq_some_iff] at h
      obtain ⟨u, hu, hut⟩ := h
      exact Relation.ReflTransGen.head ⟨e, hnext s e u hu⟩ (ih hut)

/-- A move that is made only if its event is admitted. -/
def attempt (next : σ → ε → Option σ) (ok : σ → ε → Prop) [∀ s e, Decidable (ok s e)] (s : σ)
    (e : ε) : Option σ :=
  if ok s e then next s e else none

/-- An execution of admitted events is a run of the guarded system. -/
theorem Reaches.of_attempts {next : σ → ε → Option σ} {ok : σ → ε → Prop}
    [∀ s e, Decidable (ok s e)] (hnext : ∀ s e t, next s e = some t → step s e t)
    {events : List ε} {s t : σ} (h : execute (attempt next ok) events s = some t) :
    Reaches (guarded step ok) s t := by
  refine Reaches.of_execute ?_ h
  intro s e t ht
  unfold attempt at ht
  split at ht
  · rename_i hok
    exact ⟨hok, hnext s e t ht⟩
  · cases ht

section Amounts

variable {μ : Type*} [AddMonoid μ]

/-- Steps that each yield an amount, one after the other, and the sum of the amounts. -/
inductive Accumulates (step : σ → μ → σ → Prop) : σ → μ → σ → Prop where
  | refl (s : σ) : Accumulates step s 0 s
  | tail {s t u : σ} {m n : μ} (h : Accumulates step s m t) (hstep : step t n u) :
      Accumulates step s (m + n) u

variable {step : σ → μ → σ → Prop} {s t u : σ} {m n : μ}

theorem Accumulates.single (h : step s m t) : Accumulates step s m t := by
  have htail : Accumulates step s (0 + m) t := .tail (.refl s) h
  rwa [zero_add] at htail

theorem Accumulates.trans (h : Accumulates step s m t) (h' : Accumulates step t n u) :
    Accumulates step s (m + n) u := by
  induction h' with
  | refl =>
      rw [add_zero]
      exact h
  | tail _ hstep ih =>
      rw [← add_assoc]
      exact ih.tail hstep

/-- What every step preserves, given the sum of the amounts before it, holds in the end. -/
theorem Accumulates.invariant {I : σ → μ → Prop}
    (hstep : ∀ s m t n, step s n t → I s m → I t (m + n)) (h : Accumulates step s n t)
    (hs : I s m) : I t (m + n) := by
  induction h with
  | refl =>
      rw [add_zero]
      exact hs
  | tail _ hlast ih =>
      rw [← add_assoc]
      exact hstep _ _ _ _ hlast ih

/-- Sequences of steps are sequences of more liberal steps. -/
theorem Accumulates.mono {step' : σ → μ → σ → Prop}
    (hle : ∀ s m t, step s m t → step' s m t) (h : Accumulates step s m t) :
    Accumulates step' s m t := by
  induction h with
  | refl => exact .refl _
  | tail _ hlast ih => exact ih.tail (hle _ _ _ hlast)

end Amounts

end Transition

namespace Loop

variable {σ α β : Type*}

/-- A quantity that no pass of a loop changes is the same after the loop. -/
theorem foldl_proj {f : σ → α → σ} {π : σ → β} (h : ∀ s a, π (f s a) = π s) (l : List α)
    (s : σ) : π (l.foldl f s) = π s := by
  induction l generalizing s with
  | nil => rfl
  | cons a l ih => rw [List.foldl_cons, ih, h]

/-- A loop none of whose passes does anything. -/
theorem foldl_fixed {f : σ → α → σ} {s : σ} {l : List α} (h : ∀ a ∈ l, f s a = s) :
    l.foldl f s = s := by
  induction l with
  | nil => rfl
  | cons a l ih =>
      rw [List.foldl_cons, h a List.mem_cons_self]
      exact ih fun b hb => h b (List.mem_cons_of_mem a hb)

section Visits

variable {f : σ → α → σ} {π : σ → α → β} (hother : ∀ s a b, b ≠ a → π (f s a) b = π s b)

include hother

/-- A loop whose passes each change one element's value leaves the other values alone. -/
theorem foldl_unvisited {l : List α} {a : α} (ha : a ∉ l) (s : σ) :
    π (l.foldl f s) a = π s a := by
  induction l generalizing s with
  | nil => rfl
  | cons b l ih =>
      rw [List.mem_cons, not_or] at ha
      rw [List.foldl_cons, ih ha.2, hother s b a ha.1]

/-- Such a loop, if it visits an element once, does to its value what one pass does. -/
theorem foldl_visit {R : α → β → β → Prop} (hself : ∀ s a, R a (π s a) (π (f s a) a))
    {l : List α} (hl : l.Nodup) {a : α} (ha : a ∈ l) (s : σ) :
    R a (π s a) (π (l.foldl f s) a) := by
  induction l generalizing s with
  | nil => cases ha
  | cons b l ih =>
      rw [List.nodup_cons] at hl
      rw [List.foldl_cons]
      rcases List.mem_cons.mp ha with rfl | ha
      · rw [foldl_unvisited hother hl.1]
        exact hself s a
      · have hne : a ≠ b := fun he => hl.1 (he ▸ ha)
        rw [← hother s b a hne]
        exact ih hl.2 ha (f s b)

end Visits

end Loop
