import XpuShare.Model.Threads
import XpuShare.Verification.Agreement.Correctness

/-! # No sleeper is forgotten

The broadcasts of `client_fn` reach every thread that sleeps on `own_lock_cv`, and none goes to
sleep again before it has seen to it that the lock is asked for. So a thread sleeps only while
the one request of its application is under way, queued, or answered by a LOCK_OK that is. -/

namespace XpuShare

variable {cfg : Config} {env : Env} {y y' : System} {z z' : ThreadedSystem} {c : ClientId}
  {i fuel : ℕ}

/-! ## The variables of the library -/

/-- The application has asked for the lock and does not have it. -/
structure Asking (r : LibState) : Prop where
  got : r.gotInitialSchedStatus = true
  lacks : r.ownLock = false
  needs : r.needLock = true

/-- A thread that finds the lock missing leaves it asked for. -/
theorem asking_of_continueWithLock {r : LibState} (hgot : r.gotInitialSchedStatus = true)
    (hown : r.ownLock = false) : Asking (continueWithLock r).1 := by
  unfold continueWithLock
  split
  · rename_i hhas
    rw [hown] at hhas
    cases hhas
  · split
    · rename_i hneed
      exact ⟨hgot, hown, hneed⟩
    · exact ⟨hgot, hown, rfl⟩

theorem Asking.releaseEarlyFn {r : LibState} (h : Asking r) (timedOut idle : Bool) :
    Asking (releaseEarlyFn timedOut idle r).1 := by
  have hkept : Asking { r with didWork := false } := ⟨h.got, h.lacks, h.needs⟩
  unfold XpuShare.releaseEarlyFn
  split
  · split
    · exact hkept
    · rename_i htest
      simp [h.lacks] at htest
  · simp only
    split
    · exact hkept
    · exact h

/-- A message that gives the lock, or makes it needless, is one that wakes everybody. -/
theorem Asking.clientFn {r : LibState} {m : ToClient} {r' : LibState × List ToScheduler}
    (h : Asking r) (hon : r.schedulerOn = true) (hquiet : m.broadcasts r = false)
    (hm : clientFn m r = some r') : Asking r'.1 := by
  rw [XpuShare.clientFn, h.got, if_pos rfl] at hm
  rw [← Option.some.inj hm]
  cases m with
  | lockOk =>
      rw [ToClient.broadcasts, h.got] at hquiet
      cases hquiet
  | dropLock =>
      simp only [handleMessage, h.lacks]
      exact h
  | schedOn =>
      simp only [handleMessage, onSchedOn, hon, if_true]
      exact h
  | schedOff =>
      rw [ToClient.broadcasts, h.got, hon] at hquiet
      cases hquiet
  | status on id coreLimit =>
      cases on with
      | true =>
          simp only [handleMessage, onSchedOn, hon, if_true]
          exact h
      | false =>
          rw [ToClient.broadcasts, h.got, hon] at hquiet
          cases hquiet
  | updateCoreLimit limit =>
      simp only [handleMessage]
      split
      · exact ⟨h.got, h.lacks, h.needs⟩
      · exact h
  | waitForMem | memAvailable | updateLimit limit => exact h

/-! ## Steps -/

/-- Whoever sleeps has asked. -/
def Expectant (z : ThreadedSystem) : Prop :=
  ∀ c i, z.waiter c i = .asleep → Asking (z.system.lib c)

theorem Waiter.broadcast_ne_asleep (w : Waiter) : w.broadcast ≠ .asleep := by
  cases w <;> simp [Waiter.broadcast]

theorem System.act_lib {f : LibState → LibState × List ToScheduler} (h : y.act c f = some y') :
    (y.lib c).gotInitialSchedStatus = true ∧
      y'.lib = Function.update y.lib c (f (y.lib c)).1 := by
  unfold System.act at h
  split at h
  · rename_i hgot
    rw [← Option.some.inj h]
    exact ⟨hgot, rfl⟩
  · cases h

theorem System.schedule_lib {e : Event} (h : y.schedule cfg env fuel e = some y') :
    y'.lib = y.lib := by
  obtain ⟨t, -, rfl⟩ := schedule_step h
  rfl

/-- Threads that sleep on after a piece of the library's code have still asked. -/
theorem Expectant.update {r : LibState} {waiter : ClientId → ℕ → Waiter} (hz : Expectant z)
    (hlib : y.lib = Function.update z.system.lib c r)
    (hother : ∀ d, d ≠ c → waiter d = z.waiter d)
    (hown : ∀ i, waiter c i = .asleep → Asking r) :
    Expectant { system := y, waiter := waiter } := by
  intro d i hasleep
  by_cases hd : d = c
  · subst hd
    simp only [hlib, Function.update_self]
    exact hown i hasleep
  · simp only [hlib, Function.update_of_ne hd]
    exact hz d i (by rw [← hother d hd]; exact hasleep)

theorem Expectant.pass (hz : Expectant z) (h : z.pass cfg env fuel c i = some z') :
    Expectant z' := by
  obtain ⟨y, hy, rfl⟩ := Option.map_eq_some_iff.mp h
  obtain ⟨hgot, hlib⟩ := System.act_lib hy
  refine hz.update hlib (fun d hd => Function.update_of_ne hd _ _) fun j hasleep => ?_
  rw [Function.update_self] at hasleep
  cases hown : (z.system.lib c).ownLock with
  | false => exact asking_of_continueWithLock hgot hown
  | true =>
      -- The thread has returned, and no other one was asleep.
      rw [hown, if_pos rfl, Function.update_apply] at hasleep
      split at hasleep
      · cases hasleep
      · have hlacks := (hz c j hasleep).lacks
        rw [hown] at hlacks
        cases hlacks

theorem Expectant.receive (hz : Expectant z) (hy : Consistent z.system)
    (h : z.handle cfg env fuel (.system (.receive c)) = some z') : Expectant z' := by
  obtain ⟨y, hreceive, rfl⟩ := Option.map_eq_some_iff.mp h
  simp only [System.handle] at hreceive
  split at hreceive
  · cases hreceive
  · rename_i m rest hbox
    obtain ⟨r, hr, rfl⟩ := Option.map_eq_some_iff.mp hreceive
    have hnotified : z.notified c = if m.broadcasts (z.system.lib c) then
        Function.update z.waiter c fun i => (z.waiter c i).broadcast else z.waiter := by
      rw [ThreadedSystem.notified, hbox]
    rw [hnotified]
    cases hquiet : m.broadcasts (z.system.lib c) with
    | true =>
        rw [if_pos rfl]
        refine hz.update rfl (fun d hd => Function.update_of_ne hd _ _) fun j hasleep => ?_
        rw [Function.update_self] at hasleep
        exact absurd hasleep (z.waiter c j).broadcast_ne_asleep
    | false =>
        rw [if_neg Bool.false_ne_true]
        refine hz.update rfl (fun _ _ => rfl) fun j hasleep => ?_
        have hasking := hz c j hasleep
        have hon : (z.system.lib c).schedulerOn = true := by
          rcases hy.clients c with hout | ⟨x, hin⟩
          · have hgot := hasking.got
            rw [hout.lib] at hgot
            cases hgot
          · exact hin.agrees.on hasking.got
        exact hasking.clientFn hon hquiet hr

theorem Expectant.system {e : SystemEvent} (hz : Expectant z) (hy : Consistent z.system)
    (h : z.handle cfg env fuel (.system e) = some z') : Expectant z' := by
  have hsame : ∀ {y}, y.lib = z.system.lib → Expectant { z with system := y } := by
    intro y hlib c i hasleep
    simp only [hlib]
    exact hz c i hasleep
  cases e with
  | enter c => cases h
  | receive c => exact hz.receive hy h
  | connect m =>
      simp only [ThreadedSystem.handle, System.handle] at h
      obtain ⟨y, hsystem, rfl⟩ := Option.map_eq_some_iff.mp h
      obtain ⟨t, ht, rfl⟩ := Option.map_eq_some_iff.mp hsystem
      have hlib := System.schedule_lib ht
      exact hsame hlib
  | releaseEarly c timedOut idle =>
      obtain ⟨y, hsystem, rfl⟩ := Option.map_eq_some_iff.mp h
      obtain ⟨hgot, hlib⟩ := System.act_lib hsystem
      exact hz.update hlib (fun _ _ => rfl) fun i hasleep =>
        (hz c i hasleep).releaseEarlyFn timedOut idle
  | report c allocated sent =>
      obtain ⟨y, hsystem, rfl⟩ := Option.map_eq_some_iff.mp h
      obtain ⟨hgot, hlib⟩ :=
        System.act_lib (f := fun r => (r, reportMemoryUsageToScheduler allocated sent)) hsystem
      exact hz.update hlib (fun _ _ => rfl) fun i hasleep => hz c i hasleep
  | deliver c e =>
      obtain ⟨y, hsystem, rfl⟩ := Option.map_eq_some_iff.mp h
      simp only [System.handle] at hsystem
      split at hsystem
      · cases hsystem
      · have hlib := System.schedule_lib hsystem
        exact hsame hlib
  | timerBegin x | timerEnd x timedOut | annotated id memory core =>
      obtain ⟨y, hsystem, rfl⟩ := Option.map_eq_some_iff.mp h
      exact hsame (System.schedule_lib hsystem)

/-- A step of a thread is one of the system, or changes nothing of it. -/
theorem ThreadStep.system {e : ThreadEvent} (h : ThreadStep cfg env z e z') :
    z'.system = z.system ∨ ∃ e, SystemStep cfg env z.system e z'.system := by
  obtain ⟨fuel, h⟩ := h
  have hpass : ∀ {c i}, z.pass cfg env fuel c i = some z' →
      ∃ e, SystemStep cfg env z.system e z'.system := by
    intro c i hpass
    obtain ⟨y, hy, rfl⟩ := Option.map_eq_some_iff.mp hpass
    exact ⟨.enter c, fuel, hy⟩
  cases e with
  | call c i =>
      simp only [ThreadedSystem.handle] at h
      split at h
      · exact .inr (hpass h)
      · cases h
  | resume c i =>
      simp only [ThreadedSystem.handle] at h
      split at h
      · exact .inr (hpass h)
      · cases h
  | spuriousWakeup c i =>
      simp only [ThreadedSystem.handle] at h
      split at h
      · rw [← Option.some.inj h]
        exact .inl rfl
      · cases h
  | system e =>
      cases e with
      | enter c => cases h
      | _ =>
          simp only [ThreadedSystem.handle] at h
          obtain ⟨y, hy, rfl⟩ := Option.map_eq_some_iff.mp h
          exact .inr ⟨_, fuel, hy⟩

theorem Expectant.step {e : ThreadEvent} (hz : Expectant z) (hy : Consistent z.system)
    (h : ThreadStep cfg env z e z') : Expectant z' := by
  obtain ⟨fuel, h⟩ := h
  cases e with
  | call c i =>
      simp only [ThreadedSystem.handle] at h
      split at h
      · exact hz.pass h
      · cases h
  | resume c i =>
      simp only [ThreadedSystem.handle] at h
      split at h
      · exact hz.pass h
      · cases h
  | spuriousWakeup c i =>
      simp only [ThreadedSystem.handle] at h
      split at h
      · rw [← Option.some.inj h]
        intro d j hasleep
        simp only at hasleep
        by_cases hd : d = c
        · subst hd
          rw [Function.update_self, Function.update_apply] at hasleep
          split at hasleep
          · cases hasleep
          · exact hz d j hasleep
        · rw [Function.update_of_ne hd] at hasleep
          exact hz d j hasleep
      · cases h
  | system e => exact hz.system hy h

/-! ## Runs -/

end XpuShare
