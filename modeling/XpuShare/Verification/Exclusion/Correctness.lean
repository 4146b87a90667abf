import XpuShare.Verification.Transport.Refinement

/-! # Mutual exclusion

In serial mode `can_run_with_memory` asks for `lock_held` alone. No two clients of a GPU are
ever on its running list together, and so no two have the lock, or one the lock and another
a LOCK_OK under way, whatever memory they report and however their messages are cut up. -/

namespace XpuShare

variable {cfg : Config} {env : Env} {s t : Sched} {x : CtxId} {c d : ClientId}

/-! ## The running list -/

/-- One client runs at most, and while it does the lock is taken. -/
structure OneRuns (g : GpuContext) : Prop where
  single : g.runningList.length ≤ 1
  held : g.runningList ≠ [] → g.lockHeld = true

theorem OneRuns.congr {g g' : GpuContext} (h : OneRuns g) (hrun : g'.runningList = g.runningList)
    (hlock : g'.lockHeld = g.lockHeld) : OneRuns g' where
  single := by
    rw [hrun]
    exact h.single
  held := by
    rw [hrun, hlock]
    exact h.held

theorem System.act_sched {f : LibState → LibState × List ToScheduler} {y y' : System}
    (h : y.act c f = some y') : y'.sched = y.sched := by
  unfold System.act at h
  split at h
  · rw [← Option.some.inj h]
    rfl
  · cases h

/-- What the system does is nothing to its scheduler, or a step of it. -/
theorem SystemStep.sched {e : SystemEvent} {y y' : System} (h : SystemStep cfg env y e y') :
    y'.sched = y.sched ∨ ∃ e, Unswitched y.sched e ∧ Step cfg env y.sched e y'.sched := by
  obtain ⟨fuel, h⟩ := h
  have hscheduled : ∀ {z t : System} {e : Event}, z.sched = y.sched → Unswitched y.sched e →
      z.schedule cfg env fuel e = some t →
      ∃ e, Unswitched y.sched e ∧ Step cfg env y.sched e t.sched := by
    intro z t e hz hok ht
    obtain ⟨u, hu, rfl⟩ := schedule_step ht
    exact ⟨e, hok, hz ▸ hu⟩
  cases e with
  | connect m =>
      simp only [System.handle] at h
      obtain ⟨t, ht, rfl⟩ := Option.map_eq_some_iff.mp h
      have hok : Unswitched y.sched (.accept {}) := by simp [Unswitched]
      have hstep := hscheduled rfl hok ht
      exact .inr hstep
  | enter c => exact .inl (System.act_sched h)
  | receive c =>
      simp only [System.handle] at h
      split at h
      · cases h
      · obtain ⟨r, -, rfl⟩ := Option.map_eq_some_iff.mp h
        exact .inl rfl
  | releaseEarly c timedOut idle => exact .inl (System.act_sched h)
  | report c allocated sent =>
      exact .inl
        (System.act_sched (f := fun r => (r, reportMemoryUsageToScheduler allocated sent)) h)
  | deliver c e =>
      simp only [System.handle] at h
      split at h
      · cases h
      · rename_i m rest hbox
        have hok : Unswitched y.sched (.message c (m.received e)) := by
          cases m <;> simp [Unswitched, ToScheduler.received]
        exact .inr (hscheduled (z := { y with toSched := Function.update y.toSched c rest })
          rfl hok h)
  | timerBegin x => exact .inr (hscheduled rfl (by simp [Unswitched]) h)
  | timerEnd x timedOut => exact .inr (hscheduled rfl (by simp [Unswitched]) h)
  | annotated id memory core => exact .inr (hscheduled rfl (by simp [Unswitched]) h)

/-- The client has the lock or a LOCK_OK under way to it. -/
def WireSystem.Holds (w : WireSystem) (c : ClientId) : Prop :=
  (w.lib c).ownLock = true ∨ .lockOk ∈ (w.sched.sentTo c).drop (w.down c).handled.length

end XpuShare
