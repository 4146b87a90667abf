import XpuShare.Lib.Transition
import XpuShare.Model.EarlyRelease

/-! # An idle lock is not given back too early

While `did_work` is clear, the last work lies a whole interval before the deadline of
`release_early_fn`. Threads and LOCK_OK set the flag when they work; whoever clears it moves
the deadline in the same critical section. -/

namespace XpuShare

open Transition

variable {log : List Deed} {x : Deed} {b c : ℤ} {s t : TimedLib} {r : LibState}
  {q : LibState × List ToScheduler} {m : ToClient}

/-! ## Logs -/

/-- All work of a log was done by time `b`. -/
def WorkDoneBy (log : List Deed) (b : ℤ) : Prop :=
  ∀ x ∈ log, ∀ w, x.work? = some w → w ≤ b

/-- A LOCK_OK after which no lock was given back early. -/
def Unreleased (log : List Deed) : Prop :=
  ∃ before w after, log = before ++ .lockOk w :: after ∧ ∀ t, Deed.released t ∉ after

theorem WorkDoneBy.mono (h : WorkDoneBy log b) (hbc : b ≤ c) : WorkDoneBy log c :=
  fun x hx w hw => (h x hx w hw).trans hbc

theorem WorkDoneBy.append {new : List Deed} (h : WorkDoneBy log b)
    (hnew : WorkDoneBy new b) : WorkDoneBy (log ++ new) b := by
  intro x hx w hw
  rcases List.mem_append.mp hx with hx | hx
  · exact h x hx w hw
  · exact hnew x hx w hw

theorem workDoneBy_nil (b : ℤ) : WorkDoneBy [] b := fun _ hx => absurd hx List.not_mem_nil

theorem workDoneBy_singleton (hx : ∀ w, x.work? = some w → w ≤ b) : WorkDoneBy [x] b := by
  intro y hy
  rw [List.mem_singleton.mp hy]
  exact hx

theorem workDoneBy_released (sent b : ℤ) (l : List ToScheduler) :
    WorkDoneBy (l.map fun _ => .released sent) b := by
  intro x hx w hw
  obtain ⟨_, -, rfl⟩ := List.mem_map.mp hx
  cases hw

theorem Unreleased.append {new : List Deed} (h : Unreleased log)
    (hnew : ∀ t, Deed.released t ∉ new) : Unreleased (log ++ new) := by
  obtain ⟨before, w, after, rfl, hafter⟩ := h
  refine ⟨before, w, after ++ new, by simp, fun t => ?_⟩
  rw [List.mem_append, not_or]
  exact ⟨hafter t, hnew t⟩

theorem unreleased_lockOk (log : List Deed) (w : ℤ) : Unreleased (log ++ [.lockOk w]) :=
  ⟨log, w, [], rfl, fun _ => List.not_mem_nil⟩

/-! ## The invariant -/

/-- The library may be idle only since the beginning of the present wait. -/
structure Rested (s : TimedLib) : Prop where
  past : WorkDoneBy s.log s.clock
  idle : s.lib.didWork = false → ∀ deadline, s.timerEnd = some deadline →
    WorkDoneBy s.log (deadline - releaseEarlyCheckInterval)
  granted : s.lib.ownLock = true → s.lib.schedulerOn = true → Unreleased s.log

theorem rested_initial (t₀ : ℤ) : Rested { clock := t₀ } := by
  constructor
  · exact workDoneBy_nil t₀
  · exact fun _ deadline _ => workDoneBy_nil _
  · intro hown
    cases hown

/-- The beginning of the loop moves the deadline an interval into the future. -/
theorem WorkDoneBy.fresh {now deadline : ℤ} (h : WorkDoneBy log now)
    (hdeadline : some (now + releaseEarlyCheckInterval) = some deadline) :
    WorkDoneBy log (deadline - releaseEarlyCheckInterval) := by
  rw [← Option.some.inj hdeadline, add_sub_cancel_right]
  exact h

theorem Rested.start {now : ℤ} (h : Rested s) (hnow : s.clock ≤ now) : Rested (s.start now) where
  past := h.past.mono hnow
  idle := fun _ _ hdeadline => (h.past.mono hnow).fresh hdeadline
  granted := h.granted

theorem continueWithLock_flags (r : LibState) :
    (continueWithLock r).1.ownLock = r.ownLock ∧
      (continueWithLock r).1.schedulerOn = r.schedulerOn ∧
      (continueWithLock r).1.didWork = (r.ownLock || r.didWork) := by
  unfold continueWithLock
  cases hown : r.ownLock <;> cases r.needLock <;> simp [hown]

theorem Rested.pass {now : ℤ} (h : Rested s) (hnow : s.clock ≤ now) : Rested (s.pass now) := by
  obtain ⟨hown, hon, hwork⟩ := continueWithLock_flags s.lib
  have hpast : WorkDoneBy s.log now := h.past.mono hnow
  cases hlock : s.lib.ownLock with
  | true =>
      have hlog : (s.pass now).log = s.log ++ [.passed now] := by simp [TimedLib.pass, hlock]
      have hnew : ∀ w, (Deed.passed now).work? = some w → w ≤ now :=
        fun _ hw => (Option.some.inj hw).ge
      constructor
      · rw [hlog]
        exact hpast.append (workDoneBy_singleton hnew)
      · intro hidle
        change (continueWithLock s.lib).1.didWork = false at hidle
        rw [hwork, hlock] at hidle
        cases hidle
      · intro _ hsched
        rw [hlog]
        apply (h.granted hlock (hon.symm.trans hsched)).append
        simp
  | false =>
      have hlog : (s.pass now).log = s.log := by simp [TimedLib.pass, hlock]
      constructor
      · rw [hlog]
        exact hpast
      · intro hidle
        rw [hlog]
        rw [hlock, Bool.false_or] at hwork
        exact h.idle (hwork.symm.trans hidle)
      · intro howned
        change (continueWithLock s.lib).1.ownLock = true at howned
        rw [hown, hlock] at howned
        cases howned

/-- Only LOCK_OK sets the flag or hands the lock to a library that is switched on. -/
theorem clientFn_flags (h : clientFn m r = some q) (hm : m ≠ .lockOk) :
    q.1.didWork = r.didWork ∧
      (q.1.ownLock = true → q.1.schedulerOn = true →
        r.ownLock = true ∧ r.schedulerOn = true) := by
  unfold clientFn at h
  cases hgot : r.gotInitialSchedStatus with
  | true =>
      rw [if_pos hgot, Option.some.injEq] at h
      subst h
      cases m <;> simp only [handleMessage, onSchedOn, onSchedOff] <;> grind
  | false =>
      rw [if_neg (by simp [hgot])] at h
      cases m with
      | status on id coreLimit =>
          rw [← Option.some.inj h]
          cases on <;> simp
      | _ => cases h

theorem clientFn_lockOk (h : clientFn .lockOk r = some q) : q.1.didWork = true := by
  unfold clientFn at h
  cases hgot : r.gotInitialSchedStatus with
  | true =>
      rw [if_pos hgot, Option.some.injEq] at h
      rw [← h]
      rfl
  | false =>
      rw [if_neg (by simp [hgot])] at h
      cases h

theorem Rested.receive {now : ℤ} (h : Rested s) (hnow : s.clock ≤ now)
    (hstep : s.receive m now = some t) : Rested t := by
  obtain ⟨q, hq, rfl⟩ := Option.map_eq_some_iff.mp hstep
  have hpast : WorkDoneBy s.log now := h.past.mono hnow
  by_cases hm : m = .lockOk
  · subst hm
    have hnew : ∀ w, (Deed.lockOk now).work? = some w → w ≤ now :=
      fun _ hw => (Option.some.inj hw).ge
    constructor
    · exact hpast.append (workDoneBy_singleton hnew)
    · intro hidle
      have hwork : q.1.didWork = true := clientFn_lockOk hq
      rw [hwork] at hidle
      cases hidle
    · exact fun _ _ => unreleased_lockOk s.log now
  · obtain ⟨hwork, hown⟩ := clientFn_flags hq hm
    simp only [if_neg hm, List.append_nil]
    constructor
    · exact hpast
    · exact fun hidle => h.idle (hwork.symm.trans hidle)
    · intro howned hsched
      obtain ⟨howned', hsched'⟩ := hown howned hsched
      exact h.granted howned' hsched'

/-- After its wait `release_early_fn` either releases an idle lock or leaves it alone, and it
clears `did_work`. -/
theorem releaseEarlyFn_cases (timedOut idle : Bool) (r : LibState) :
    (releaseEarlyFn timedOut idle r).1.didWork = false ∧
    (timedOut = true ∧ r.ownLock = true ∧ r.schedulerOn = true ∧ r.didWork = false ∧
        (releaseEarlyFn timedOut idle r).2 = [.lockReleased] ∧
        (releaseEarlyFn timedOut idle r).1.ownLock = false ∨
      (releaseEarlyFn timedOut idle r).2 = [] ∧
        (releaseEarlyFn timedOut idle r).1.ownLock = r.ownLock ∧
        (releaseEarlyFn timedOut idle r).1.schedulerOn = r.schedulerOn) := by
  unfold releaseEarlyFn
  grind

theorem Rested.wake {timedOut idle : Bool} {sent next : ℤ} (h : Rested s)
    (hnext : s.clock ≤ next) : Rested (s.wake timedOut idle sent next) := by
  have hpast : WorkDoneBy s.log next := h.past.mono hnext
  have hreleased := fun b => workDoneBy_released sent b (releaseEarlyFn timedOut idle s.lib).2
  obtain ⟨-, hcases⟩ := releaseEarlyFn_cases timedOut idle s.lib
  constructor
  · exact hpast.append (hreleased next)
  · intro _ deadline hdeadline
    refine WorkDoneBy.append ?_ (hreleased _)
    unfold TimedLib.wake at hdeadline
    simp only at hdeadline
    split at hdeadline
    · exact hpast.fresh hdeadline
    · rename_i hremainder
      rw [Bool.or_eq_true, not_or] at hremainder
      exact h.idle (Bool.eq_false_of_not_eq_true hremainder.2) deadline hdeadline
  · intro hown hsched
    rcases hcases with ⟨-, -, -, -, -, hgone⟩ | ⟨hsent, hkept, hon⟩
    · rw [TimedLib.wake] at hown
      rw [hgone] at hown
      cases hown
    · have hlog : (s.wake timedOut idle sent next).log = s.log := by
        simp [TimedLib.wake, hsent]
      rw [hlog]
      exact h.granted (hkept.symm.trans hown) (hon.symm.trans hsched)

theorem Rested.handle {e : TimedEvent} (h : Rested s) (hstep : s.handle e = some t) :
    Rested t := by
  unfold TimedLib.handle at hstep
  cases e with
  | start now =>
      simp only [Option.ite_none_right_eq_some, Option.some.injEq] at hstep
      obtain ⟨⟨hnow, -⟩, rfl⟩ := hstep
      exact h.start hnow
  | pass now =>
      simp only [Option.ite_none_right_eq_some, Option.some.injEq] at hstep
      obtain ⟨hnow, rfl⟩ := hstep
      exact h.pass hnow
  | receive m now =>
      simp only [Option.ite_none_right_eq_some] at hstep
      exact h.receive hstep.1 hstep.2
  | wake timedOut idle now sent next =>
      simp only [Option.ite_none_right_eq_some, Option.some.injEq] at hstep
      obtain ⟨⟨-, hnow, hsent, hnext⟩, rfl⟩ := hstep
      exact h.wake (hnow.trans (hsent.trans hnext))

/-! ## Early releases -/

/-- A run of the library from its initialization at time `t₀`. -/
def TimedRun (t₀ : ℤ) (s : TimedLib) : Prop :=
  Reaches (fun s e t => TimedLib.handle s e = some t) { clock := t₀ } s

theorem TimedRun.rested {t₀ : ℤ} (h : TimedRun t₀ s) : Rested s :=
  h.invariant (fun _ _ _ hstep hs => hs.handle hstep) (rested_initial t₀)

/-- The log grows by an early release only when `release_early_fn` times out. -/
theorem handle_released {e : TimedEvent} {sent : ℤ} (hstep : s.handle e = some t)
    (hlog : t.log = s.log ++ [.released sent]) :
    ∃ idle now next, e = .wake true idle now sent next ∧ s.canWake true now = true ∧
      now ≤ sent ∧ s.lib.ownLock = true ∧ s.lib.schedulerOn = true ∧
      s.lib.didWork = false := by
  unfold TimedLib.handle at hstep
  cases e with
  | start now =>
      simp only [Option.ite_none_right_eq_some, Option.some.injEq] at hstep
      obtain ⟨-, rfl⟩ := hstep
      simp [TimedLib.start] at hlog
  | pass now =>
      simp only [Option.ite_none_right_eq_some, Option.some.injEq] at hstep
      obtain ⟨-, rfl⟩ := hstep
      cases hlock : s.lib.ownLock <;> simp [TimedLib.pass, hlock] at hlog
  | receive m now =>
      simp only [Option.ite_none_right_eq_some] at hstep
      obtain ⟨q, -, rfl⟩ := Option.map_eq_some_iff.mp hstep.2
      by_cases hm : m = .lockOk <;> simp [hm] at hlog
  | wake timedOut idle now sent' next =>
      simp only [Option.ite_none_right_eq_some, Option.some.injEq] at hstep
      obtain ⟨⟨hwake, -, hsent, -⟩, rfl⟩ := hstep
      obtain ⟨-, ⟨rfl, hown, hon, hwork, hrel, -⟩ | ⟨hnone, -⟩⟩ :=
        releaseEarlyFn_cases timedOut idle s.lib
      · rw [TimedLib.wake, hrel] at hlog
        simp only [List.map_cons, List.map_nil, List.append_cancel_left_eq, List.cons.injEq,
          Deed.released.injEq, and_true] at hlog
        subst hlog
        exact ⟨idle, now, next, rfl, hwake, hsent, hown, hon, hwork⟩
      · rw [TimedLib.wake, hnone] at hlog
        simp at hlog

/-- The lock is given back early by an owner under a scheduler that is on, at least an interval
after the last work, and once for a LOCK_OK. -/
theorem released_when_idle {t₀ sent : ℤ} {e : TimedEvent} (hrun : TimedRun t₀ s)
    (hstep : s.handle e = some t) (hlog : t.log = s.log ++ [.released sent]) :
    s.lib.ownLock = true ∧ s.lib.schedulerOn = true ∧
      WorkDoneBy s.log (sent - releaseEarlyCheckInterval) ∧ Unreleased s.log := by
  have hrested := hrun.rested
  obtain ⟨idle, now, next, rfl, hwake, hsent, hown, hon, hwork⟩ := handle_released hstep hlog
  refine ⟨hown, hon, ?_, hrested.granted hown hon⟩
  cases hend : s.timerEnd with
  | none => simp [TimedLib.canWake, hend] at hwake
  | some deadline =>
      simp only [TimedLib.canWake, hend, Bool.not_true, Bool.false_or, decide_eq_true_eq]
        at hwake
      apply (hrested.idle hwork deadline hend).mono
      omega

/-- The scheduler is on and grants the lock after one second; nothing happens for five. -/
def napping : List TimedEvent :=
  [.receive (.status true 1 100) 0, .start 0, .pass 0, .receive .lockOk (10 ^ 9),
    .wake false true (10 ^ 9) (10 ^ 9) (10 ^ 9)]

theorem released_when_idle_nap :
    ∃ s t : TimedLib, ∃ e, TimedRun 0 s ∧ s.handle e = some t ∧
      t.log = s.log ++ [.released (6 * 10 ^ 9)] ∧
      WorkDoneBy s.log (6 * 10 ^ 9 - releaseEarlyCheckInterval) ∧ Unreleased s.log := by
  have hrun : ∃ s, execute TimedLib.handle napping { clock := 0 } = some s ∧
      ∃ t, s.handle (.wake true true (6 * 10 ^ 9) (6 * 10 ^ 9) (6 * 10 ^ 9)) = some t ∧
        t.log = s.log ++ [.released (6 * 10 ^ 9)] :=
    ⟨_, rfl, _, rfl, rfl⟩
  obtain ⟨s, hs, t, ht, hlog⟩ := hrun
  have hreached : TimedRun 0 s := Reaches.of_execute (fun _ _ _ h => h) hs
  obtain ⟨-, -, hwork, hgranted⟩ := released_when_idle hreached ht hlog
  exact ⟨s, t, _, hreached, ht, hlog, hwork, hgranted⟩

end XpuShare
