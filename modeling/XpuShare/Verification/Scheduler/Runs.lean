import XpuShare.Lib.Transition
import XpuShare.Model.Handlers

/-! # Exhibiting runs

A list of events that the handlers accept one after the other is a run, so that a reachable
state can be exhibited by evaluating the model. -/

namespace XpuShare

variable (cfg : Config) (env : Env) (ok : Sched → Event → Prop)

/-- Handling one event, if it is possible and admitted. -/
def tryStep [∀ s, DecidablePred (ok s)] (fuel : ℕ) (s : Sched) (e : Event) : Option Sched :=
  if ok s e ∧ e.enabled s = true then handle cfg env fuel e s else none

theorem tryStep_guarded [∀ s, DecidablePred (ok s)] {fuel : ℕ} {s t : Sched} {e : Event}
    (h : tryStep cfg env ok fuel s e = some t) :
    Transition.guarded (Step cfg env) ok s e t := by
  unfold tryStep at h
  split at h
  · rename_i hok
    exact ⟨hok.1, hok.2, fuel, h⟩
  · cases h

/-- A list of events leads to a state with a property that can be evaluated. -/
theorem exists_reaches [∀ s, DecidablePred (ok s)] (fuel : ℕ) (events : List Event)
    (P : Sched → Prop) [DecidablePred P]
    (h : (Transition.execute (tryStep cfg env ok fuel) events Sched.init).any (P ·) = true) :
    ∃ s, Transition.Reaches (Transition.guarded (Step cfg env) ok) Sched.init s ∧ P s := by
  rw [Option.any_eq_true] at h
  obtain ⟨s, hs, hP⟩ := h
  refine ⟨s, ?_, of_decide_eq_true hP⟩
  exact Transition.Reaches.of_execute (fun _ _ _ => tryStep_guarded cfg env ok) hs

/-- A clock that stands still and sockets that never fail. -/
def steady : Env where
  clock _ := 1
  sendOk _ _ := true

theorem steady_allSent : steady.AllSent := fun _ _ => rfl

/-- The registration of a client on the GPU without a name, under a given identifier. -/
def enter (c : ClientId) (id : ℕ) : Event := .message c (.register {} { generatedId := id })

/-- The same with an annotation that limits the compute time. -/
def enterQuota (c : ClientId) (id : ℕ) (limit : ℤ) : Event :=
  .message c (.register {} { generatedId := id, coreAnnotated := some limit })

end XpuShare
