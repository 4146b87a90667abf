import XpuShare.Verification.Scheduler.Fuel
import XpuShare.Verification.Scheduler.Marks
import XpuShare.Verification.Scheduler.Solvency
import XpuShare.Verification.Scheduler.Runs

/-! # Scheduling at a standstill

When no pending client fits beside the running ones, a call of `try_schedule` only moves
requests to the wait queue. The running clients, the memory figures and the times at which
clients were told to drop the lock stay as they are. -/

namespace XpuShare

variable {cfg : Config} {env : Env} {x : CtxId} {s t u : Sched} {c : ClientId} {b : ℤ}

/-- The environment while the clock shows `b`. -/
def Env.frozen (env : Env) (b : ℤ) : Env := { env with clock := fun _ => b }

theorem currentTimeMs_frozen (s : Sched) : currentTimeMs (env.frozen b) s = b := rfl

/-- Nothing of what rotation depends on has changed from `s` to `t`, except that throttled
clients may have been freed and requests set aside. -/
structure Standstill (x : CtxId) (s t : Sched) : Prop where
  running : (t.ctx x).runningList = (s.ctx x).runningList
  pending : (t.ctx x).pending.Perm (s.ctx x).pending
  lockHeld : (t.ctx x).lockHeld = (s.ctx x).lockHeld
  usage : (t.ctx x).runningMemoryUsage = (s.ctx x).runningMemoryUsage
  overloaded : (t.ctx x).memoryOverloaded = (s.ctx x).memoryOverloaded
  total : (t.ctx x).totalMemory = (s.ctx x).totalMemory
  static : ∀ c, (t.client c).static = (s.client c).static
  lastDrop : ∀ c, (t.client c).lastDropSentMs = (s.client c).lastDropSentMs
  throttled : ∀ c, (t.client c).isThrottled = true → (s.client c).isThrottled = true
  sent : ∃ new, t.out = s.out ++ new ∧ ∀ m ∈ new, m.msg ≠ .dropLock

theorem Standstill.refl (x : CtxId) (s : Sched) : Standstill x s s :=
  ⟨rfl, List.Perm.refl _, rfl, rfl, rfl, rfl, fun _ => rfl, fun _ => rfl, fun _ h => h, [],
    by simp, by simp⟩

theorem Standstill.trans (h : Standstill x s t) (h' : Standstill x t u) : Standstill x s u where
  running := h'.running.trans h.running
  pending := h'.pending.trans h.pending
  lockHeld := h'.lockHeld.trans h.lockHeld
  usage := h'.usage.trans h.usage
  overloaded := h'.overloaded.trans h.overloaded
  total := h'.total.trans h.total
  static c := (h'.static c).trans (h.static c)
  lastDrop c := (h'.lastDrop c).trans (h.lastDrop c)
  throttled c hc := h.throttled c (h'.throttled c hc)
  sent := by
    obtain ⟨new, hnew, hmsg⟩ := h.sent
    obtain ⟨new', hnew', hmsg'⟩ := h'.sent
    refine ⟨new ++ new', by rw [hnew', hnew, List.append_assoc], fun m hm => ?_⟩
    rcases List.mem_append.mp hm with hm | hm
    · exact hmsg m hm
    · exact hmsg' m hm

/-! ## Window checks -/

/-- The start of the window after a check at time `b`. -/
def startAfter (cfg : Config) (g : GpuContext) (b : ℤ) : ℤ :=
  if windowExpired cfg g b then b else windowStartAt g b

theorem accrueClient_lastDrop (count now : ℤ) (exclude : Option ClientId) (s : Sched)
    (d c : ClientId) : ((accrueClient count now exclude s d).client c).lastDropSentMs =
      (s.client c).lastDropSentMs := by
  unfold accrueClient
  simp only
  split
  · rfl
  · rw [Sched.modifyClient_client]
    split
    · rename_i hc
      rw [hc]
    · rfl

theorem accrue_lastDrop (x : CtxId) (now : ℤ) (exclude : Option ClientId) (s : Sched)
    (c : ClientId) : ((accrueRunningUsage x now exclude s).client c).lastDropSentMs =
      (s.client c).lastDropSentMs :=
  Loop.foldl_proj (π := fun u : Sched => (u.client c).lastDropSentMs)
    (fun u d => accrueClient_lastDrop _ now exclude u d c) _ s

theorem resetClient_lastDrop (cfg : Config) (x : CtxId) (s : Sched) (d c : ClientId) :
    ((resetClient cfg x s d).client c).lastDropSentMs = (s.client c).lastDropSentMs := by
  unfold resetClient
  split
  · simp only
    rw [Sched.modifyClient_client]
    split
    · rename_i hc
      rw [hc]
    · rfl
  · rfl

theorem freshWindow_lastDrop (cfg : Config) (env : Env) (x : CtxId) (s : Sched) (c : ClientId) :
    ((freshWindow cfg env x s).client c).lastDropSentMs = (s.client c).lastDropSentMs := by
  unfold freshWindow checkAndResetWindow
  simp only
  split
  · have hreset := Loop.foldl_proj (π := fun u : Sched => (u.client c).lastDropSentMs)
      fun u d => resetClient_lastDrop cfg x u d c
    exact (hreset _ _).trans (accrue_lastDrop x _ none _ c)
  · rfl

theorem freshWindow_standstill (cfg : Config) (env : Env) (x : CtxId) (s : Sched) :
    Standstill x s (freshWindow cfg env x s) := by
  have hthrottled : ∀ c, ((freshWindow cfg env x s).client c).isThrottled = true →
      (s.client c).isThrottled = true := by
    intro c
    have hblock : Block cfg env nobody x s (freshWindow cfg env x s) := .window s
    exact (hblock.eased c).isThrottled
  refine ⟨by simp, ?_, by simp, by simp, by simp, by simp, ?_,
    freshWindow_lastDrop cfg env x s, hthrottled, [], by simp, by simp⟩
  · simp [GpuContext.pending]
  · exact fun c => static_of_unbilled (freshWindow_unbilled cfg env x s c)

theorem freshWindow_start (cfg : Config) (env : Env) (x : CtxId) (s : Sched) (b : ℤ) :
    ((freshWindow cfg (env.frozen b) x s).ctx x).windowStartMs = startAfter cfg (s.ctx x) b := by
  by_cases hexp : windowExpired cfg (s.ctx x) b = true
  · have hfresh : freshWindow cfg (env.frozen b) x s = resetWindow cfg x b s.tick := by
      rw [freshWindow, checkAndResetWindow, currentTimeMs_frozen, if_pos hexp]
    have hshape := (accrueRunningUsage_shape x b none
      (s.tick.modifyCtx x fun g => { g with windowStartMs := b })).trans
      (SameShape.foldl (resetClient_shape cfg x) s.clients _)
    have hctx := congrArg (fun ctx => (ctx x).windowStartMs) hshape.ctx
    rw [hfresh, startAfter, if_pos hexp]
    simpa [resetWindow] using hctx
  · have hfresh : freshWindow cfg (env.frozen b) x s = s.tick.modifyCtx x fun g =>
        { g with windowStartMs := windowStartAt g b } := by
      rw [freshWindow, checkAndResetWindow, currentTimeMs_frozen, if_neg hexp]
    rw [hfresh, startAfter, if_neg hexp]
    simp

/-- A second check at the same time does not move the window. -/
theorem startAfter_idem {g g' : GpuContext} (h : g'.windowStartMs = startAfter cfg g b) :
    startAfter cfg g' b = startAfter cfg g b := by
  have hwindow := cfg.window_bounds
  have hself : startAfter cfg g' b = g'.windowStartMs ∨ g'.windowStartMs = 0 := by
    by_cases hzero : g'.windowStartMs = 0
    · exact Or.inr hzero
    · left
      have hat : windowStartAt g' b = g'.windowStartMs := by rw [windowStartAt, if_neg hzero]
      by_cases hexp : windowExpired cfg g' b = true
      · exfalso
        rw [windowExpired, decide_eq_true_eq, hat, h] at hexp
        unfold startAfter at hexp
        split at hexp
        · omega
        · rename_i hnot
          rw [windowExpired, decide_eq_true_eq] at hnot
          exact hnot hexp
      · rw [startAfter, if_neg hexp, hat]
  rcases hself with hself | hzero
  · rw [hself, h]
  · have hat : windowStartAt g' b = b := by rw [windowStartAt, if_pos hzero]
    have hb : startAfter cfg g' b = b := by
      unfold startAfter
      split
      · rfl
      · exact hat
    rw [hb, ← h, hzero]
    have hstart := h.symm.trans hzero
    unfold startAfter at hstart
    split at hstart
    · exact hstart
    · unfold windowStartAt at hstart
      split at hstart
      · exact hstart
      · rename_i hne
        exact absurd hstart hne

/-! ## Passes of the loop -/

/-- No pending client fits beside the running ones. -/
def Refused (cfg : Config) (x : CtxId) (s : Sched) : Prop :=
  ∀ c ∈ (s.ctx x).pending, canRunWithMemory cfg s x c = false

instance (cfg : Config) (x : CtxId) (s : Sched) : Decidable (Refused cfg x s) :=
  inferInstanceAs (Decidable (∀ c ∈ (s.ctx x).pending, _))

theorem Standstill.refused (h : Standstill x s t) (hs : Refused cfg x s) : Refused cfg x t := by
  intro c hc
  rw [canRunWithMemory_congr h.lockHeld h.usage h.overloaded h.total
    (memory_of_static (h.static c))]
  exact hs c (h.pending.subset hc)

theorem canRunTest_refused (env : Env) (hs : Refused cfg x s) (hc : c ∈ (s.ctx x).pending) :
    canRunTest cfg (freshWindow cfg env x s) x c = false := by
  have hpending : c ∈ ((freshWindow cfg env x s).ctx x).pending := by
    simpa [GpuContext.pending] using hc
  rw [canRunTest, (freshWindow_standstill cfg env x s).refused hs c hpending, Bool.and_false]

theorem moveToWaitQueue_standstill (env : Env) (hc : c ∈ (s.ctx x).requests)
    (hwait : c ∉ (s.ctx x).waitQueue) :
    Standstill x s (moveToWaitQueue env x c s) ∧
      ((moveToWaitQueue env x c s).ctx x).windowStartMs = (s.ctx x).windowStartMs := by
  have hperm : ((s.ctx x).requests.erase c ++ ((s.ctx x).waitQueue ++ [c])).Perm
      (s.ctx x).pending := by
    rw [← List.append_assoc]
    refine (List.perm_append_singleton c _).trans ?_
    exact (List.perm_cons_erase hc).symm.append_right _
  simp only [moveToWaitQueue, hwait, if_false]
  split
  · refine ⟨⟨by simp, ?_, by simp, by simp, by simp, by simp, fun _ => rfl, fun _ => rfl,
      fun _ h => h, [], by simp, by simp⟩, by simp⟩
    simpa [GpuContext.pending] using hperm
  · refine ⟨⟨by simp, ?_, by simp, by simp, by simp, by simp, fun _ => rfl, fun _ => rfl,
      fun _ h => h, _, rfl, by simp⟩, by simp⟩
    simpa [GpuContext.pending] using hperm

theorem checkWaitQueueFrom_standstill {front back : List ClientId} (env : Env)
    (hs : Refused cfg x s) (hstart : startAfter cfg (s.ctx x) b = (s.ctx x).windowStartMs)
    (h : (s.ctx x).waitQueue = front ++ back) :
    Standstill x s (checkWaitQueueFrom cfg (env.frozen b) x front back s) ∧
      ((checkWaitQueueFrom cfg (env.frozen b) x front back s).ctx x).windowStartMs
        = (s.ctx x).windowStartMs ∧
      ((checkWaitQueueFrom cfg (env.frozen b) x front back s).ctx x).table
        = (s.ctx x).table := by
  induction back generalizing front s with
  | nil => exact ⟨Standstill.refl x s, rfl, rfl⟩
  | cons c back ih =>
      have hc : c ∈ (s.ctx x).pending := by simp [GpuContext.pending, h]
      have hfresh := freshWindow_standstill cfg (env.frozen b) x s
      have hstart' := freshWindow_start cfg env x s b
      have hno : (canRun cfg (env.frozen b) x c s).1 = false :=
        canRunTest_refused (env.frozen b) hs hc
      have hwait : ((freshWindow cfg (env.frozen b) x s).ctx x).waitQueue
          = (front ++ [c]) ++ back := by
        rw [freshWindow_waitQueue, h, List.append_assoc, List.singleton_append]
      obtain ⟨hrest, hsame, htable⟩ := ih (hfresh.refused hs)
        (by rw [startAfter_idem hstart', hstart']) hwait
      rw [checkWaitQueueFrom, hno]
      refine ⟨hfresh.trans hrest, hsame.trans (hstart'.trans hstart), htable.trans ?_⟩
      exact (freshWindow_effect cfg (env.frozen b) x s).table_eq

/-- A call of `try_schedule` that admits nobody. -/
theorem trySchedule_standstill {n : ℕ} (hs : Refused cfg x s)
    (hstart : startAfter cfg (s.ctx x) b = (s.ctx x).windowStartMs)
    (h : trySchedule cfg (env.frozen b) n x s = some t) :
    Standstill x s t ∧ (t.ctx x).windowStartMs = (s.ctx x).windowStartMs := by
  induction n generalizing s with
  | zero => cases h
  | succ n ih =>
      cases hreq : (s.ctx x).requests with
      | nil =>
          have hrefill : refill cfg (env.frozen b) x s = checkWaitQueue cfg (env.frozen b) x s := by
            rw [refill, if_pos hreq]
          obtain ⟨hstill, hsame, htable⟩ := checkWaitQueueFrom_standstill env hs hstart
            (List.nil_append _).symm
          have hnil : ((checkWaitQueue cfg (env.frozen b) x s).ctx x).requests = [] :=
            (congrArg LockTable.requests htable).trans hreq
          rw [trySchedule_of_nil hrefill hnil] at h
          rw [← Option.some.inj h]
          exact ⟨hstill, hsame⟩
      | cons c rest =>
          have hrefill : refill cfg (env.frozen b) x s = s := by
            rw [refill, if_neg (by rw [hreq]; exact List.cons_ne_nil c rest)]
          have hc : c ∈ (s.ctx x).pending := by simp [GpuContext.pending, hreq]
          have hno := canRunTest_refused (env.frozen b) hs hc
          have hfresh := freshWindow_standstill cfg (env.frozen b) x s
          have hfreshStart := freshWindow_start cfg env x s b
          have hidem := startAfter_idem hfreshStart
          rw [trySchedule_of_defer hrefill hreq rfl hno] at h
          by_cases hwait : c ∈ ((freshWindow cfg (env.frozen b) x s).ctx x).waitQueue
          · rw [moveToWaitQueue_of_mem _ hwait] at h
            obtain ⟨hrest, hsame⟩ := ih (hfresh.refused hs) (hidem.trans hfreshStart.symm) h
            exact ⟨hfresh.trans hrest, hsame.trans (hfreshStart.trans hstart)⟩
          · have hcr : c ∈ ((freshWindow cfg (env.frozen b) x s).ctx x).requests := by
              simp [hreq]
            obtain ⟨hmove, hmoveStart⟩ := moveToWaitQueue_standstill (env.frozen b) hcr hwait
            have hstill := hfresh.trans hmove
            have hnow := hmoveStart.trans hfreshStart
            obtain ⟨hrest, hsame⟩ := ih (hstill.refused hs)
              ((startAfter_idem hnow).trans hnow.symm) h
            exact ⟨hstill.trans hrest, hsame.trans (hnow.trans hstart)⟩

/-- Such a call returns when nobody is pending twice. -/
theorem trySchedule_refused_returns (env : Env) (hs : Refused cfg x s)
    (hnodup : (s.ctx x).pending.Nodup)
    (hstart : startAfter cfg (s.ctx x) b = (s.ctx x).windowStartMs) :
    ∃ n t, trySchedule cfg (env.frozen b) n x s = some t := by
  induction hreq : (s.ctx x).requests generalizing s with
  | nil =>
      have hrefill : refill cfg (env.frozen b) x s = checkWaitQueue cfg (env.frozen b) x s := by
        rw [refill, if_pos hreq]
      obtain ⟨-, -, htable⟩ := checkWaitQueueFrom_standstill env hs hstart
        (List.nil_append _).symm
      have hnil : ((checkWaitQueue cfg (env.frozen b) x s).ctx x).requests = [] :=
        (congrArg LockTable.requests htable).trans hreq
      exact ⟨1, _, trySchedule_of_nil hrefill hnil⟩
  | cons c rest ih =>
      have hrefill : refill cfg (env.frozen b) x s = s := by
        rw [refill, if_neg (by rw [hreq]; exact List.cons_ne_nil c rest)]
      have hc : c ∈ (s.ctx x).pending := by simp [GpuContext.pending, hreq]
      have hno := canRunTest_refused (env.frozen b) hs hc
      have hfresh := freshWindow_standstill cfg (env.frozen b) x s
      have hwait : c ∉ ((freshWindow cfg (env.frozen b) x s).ctx x).waitQueue := by
        rw [freshWindow_waitQueue]
        rw [GpuContext.pending, hreq, List.cons_append, List.nodup_cons] at hnodup
        exact fun hc => hnodup.1 (List.mem_append_right _ hc)
      have hcr : c ∈ ((freshWindow cfg (env.frozen b) x s).ctx x).requests := by simp [hreq]
      obtain ⟨hmove, hmoveStart⟩ := moveToWaitQueue_standstill (env.frozen b) hcr hwait
      have hstill := hfresh.trans hmove
      have hnow := hmoveStart.trans (freshWindow_start cfg env x s b)
      have htable := (moveToWaitQueue_effect (env.frozen b) hwait).table_eq
      have hrest : ((moveToWaitQueue (env.frozen b) x c
          (freshWindow cfg (env.frozen b) x s)).ctx x).requests = rest := by
        rw [show ((moveToWaitQueue (env.frozen b) x c
          (freshWindow cfg (env.frozen b) x s)).ctx x).requests = _ from
          congrArg LockTable.requests htable]
        simp [LockTable.defer, GpuContext.table, hreq]
      obtain ⟨n, t, ht⟩ := ih (hstill.refused hs) (hstill.pending.nodup_iff.mpr hnodup)
        ((startAfter_idem hnow).trans hnow.symm) hrest
      exact ⟨n + 1, t, by rw [trySchedule_of_defer hrefill hreq rfl hno, ht]⟩

end XpuShare
