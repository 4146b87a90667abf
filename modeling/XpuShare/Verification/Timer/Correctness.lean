import XpuShare.Verification.Timer.Standstill

/-! # Rotation after a time quantum

The timer thread compares its actual sleep with the full quantum before it rotates. Its
sleep never passes the end of the compute window, so that a quantum longer than the window
never ends: rotation works exactly when the quantum fits into one window. -/

namespace XpuShare

variable {cfg : Config} {env : Env} {x : CtxId} {s t u : Sched} {c : ClientId} {b e : ℤ}

/-- The clients that run are unlimited and have not been told to drop the lock, and others
wait that do not fit beside them. -/
structure Blocked (cfg : Config) (x : CtxId) (s : Sched) : Prop where
  running : (s.ctx x).runningList ≠ []
  unlimited : ∀ c ∈ (s.ctx x).runningList, (s.client c).coreLimit = 100
  undropped : ∀ c ∈ (s.ctx x).runningList, (s.client c).lastDropSentMs = 0
  pending : (s.ctx x).pending ≠ []
  refused : Refused cfg x s

instance (cfg : Config) (x : CtxId) (s : Sched) : Decidable (Blocked cfg x s) :=
  decidable_of_iff ((s.ctx x).runningList ≠ [] ∧
      (∀ c ∈ (s.ctx x).runningList, (s.client c).coreLimit = 100) ∧
      (∀ c ∈ (s.ctx x).runningList, (s.client c).lastDropSentMs = 0) ∧
      (s.ctx x).pending ≠ [] ∧ Refused cfg x s)
    ⟨fun h => ⟨h.1, h.2.1, h.2.2.1, h.2.2.2.1, h.2.2.2.2⟩,
      fun h => ⟨h.running, h.unlimited, h.undropped, h.pending, h.refused⟩⟩

/-- One iteration of the timer thread that starts at time `b` and whose wait times out at
its deadline `e`. -/
def Iteration (cfg : Config) (env : Env) (x : CtxId) (s : Sched) (b : ℤ) (t : Sched)
    (e : ℤ) : Prop :=
  ∃ fuel u, timerBegin cfg (env.frozen b) fuel x s = some u ∧
    e = b + max 0 (u.ctx x).timer.minSleepMs ∧ t = timerEnd cfg (env.frozen e) x true u

/-- Consecutive iterations, with the states before and after each of them. -/
inductive Iterations (cfg : Config) (env : Env) (x : CtxId) :
    Sched → ℤ → Sched → ℤ → List (Sched × Sched) → Prop where
  | nil (s : Sched) (b : ℤ) : Iterations cfg env x s b s b []
  | cons (s t u : Sched) (b e f : ℤ) (l : List (Sched × Sched))
      (hfirst : Iteration cfg env x s b t e) (hrest : Iterations cfg env x t e u f l) :
      Iterations cfg env x s b u f ((s, t) :: l)

/-- Every running client is sent DROP_LOCK on the way from `s` to `t`. -/
def Rotates (x : CtxId) (s t : Sched) : Prop :=
  ∀ c ∈ (s.ctx x).runningList,
    ∃ m ∈ t.out.drop s.out.length, m.dest = c ∧ m.msg = .dropLock

/-- Iterations that last one switch time and one compute window contain a rotation. -/
def RotatesInTime (cfg : Config) (env : Env) (x : CtxId) (s : Sched) : Prop :=
  ∀ b t e l, Iterations cfg env x s b t e l → l ≠ [] →
    calculateSwitchTime cfg (s.ctx x) * 1000 + cfg.computeWindowMs ≤ e - b →
      ∃ p ∈ l, Rotates x p.1 p.2

theorem Standstill.blocked (h : Standstill x s t) (hs : Blocked cfg x s) : Blocked cfg x t where
  running := h.running ▸ hs.running
  unlimited c hc := by
    rw [coreLimit_of_static (h.static c)]
    exact hs.unlimited c (h.running ▸ hc)
  undropped c hc := by
    rw [h.lastDrop c]
    exact hs.undropped c (h.running ▸ hc)
  pending hnil := by
    have hperm := h.pending
    rw [hnil] at hperm
    exact hs.pending (List.nil_perm.mp hperm)
  refused := h.refused hs.refused

theorem Standstill.switchTime (h : Standstill x s t) :
    calculateSwitchTime cfg (t.ctx x) = calculateSwitchTime cfg (s.ctx x) := by
  simp only [calculateSwitchTime, swapTime, h.usage]

theorem Standstill.defaultTqMs (h : Standstill x s t) :
    defaultTqMs cfg (t.ctx x) = defaultTqMs cfg (s.ctx x) := by
  rw [XpuShare.defaultTqMs, XpuShare.defaultTqMs, h.switchTime]

theorem Standstill.not_rotates (h : Standstill x s t) (hs : Blocked cfg x s) :
    ¬ Rotates x s t := by
  intro hrot
  obtain ⟨c, hc⟩ := List.exists_mem_of_ne_nil _ hs.running
  obtain ⟨m, hm, -, hdrop⟩ := hrot c hc
  obtain ⟨new, hout, hnew⟩ := h.sent
  rw [hout, List.drop_left] at hm
  exact hnew m hm hdrop

/-! ## The sleep -/

/-- The time left in the window that is current after a check at `b`. -/
def remainingAt (cfg : Config) (g : GpuContext) (b : ℤ) : ℤ :=
  windowRemainingMs cfg { g with windowStartMs := startAfter cfg g b } b

theorem remainingAt_eq (cfg : Config) (g : GpuContext) (b : ℤ) :
    remainingAt cfg g b =
      if 0 < startAfter cfg g b then max 0 (cfg.computeWindowMs - (b - startAfter cfg g b))
      else cfg.computeWindowMs := rfl

/-- The sleep of an iteration that begins at `b`, when only unlimited clients run. -/
def sleepAt (cfg : Config) (g : GpuContext) (b : ℤ) : ℤ :=
  let capped := min (min (defaultTqMs cfg g) (remainingAt cfg g b)) cfg.computeWindowMs
  if 0 < capped ∧ capped < 10 ∧ 10 < remainingAt cfg g b then 10 else capped

/-- A sleep that is shorter than the quantum ends with the window. -/
theorem sleepAt_of_lt {g : GpuContext} (h : sleepAt cfg g b < defaultTqMs cfg g) :
    sleepAt cfg g b = min (remainingAt cfg g b) cfg.computeWindowMs := by
  have hwindow := cfg.window_bounds
  unfold sleepAt at h ⊢
  simp only at h ⊢
  split_ifs at h ⊢ <;> omega

/-- A quantum that fits into a window is slept in full at its beginning. -/
theorem le_sleepAt {g : GpuContext} (hquantum : defaultTqMs cfg g ≤ cfg.computeWindowMs)
    (hfull : cfg.computeWindowMs ≤ remainingAt cfg g b) :
    defaultTqMs cfg g ≤ sleepAt cfg g b := by
  unfold sleepAt
  simp only
  split_ifs <;> omega

/-- The window that is current after a check has not ended, and only one that began at a
known time is shorter than a full window. -/
theorem remainingAt_bounds (cfg : Config) (g : GpuContext) (b : ℤ) :
    0 < remainingAt cfg g b ∧
      (remainingAt cfg g b < cfg.computeWindowMs → 0 < startAfter cfg g b ∧
        remainingAt cfg g b = cfg.computeWindowMs - (b - startAfter cfg g b)) := by
  have hwindow := cfg.window_bounds
  have hopen : b - startAfter cfg g b < cfg.computeWindowMs := by
    unfold startAfter
    split
    · omega
    · rename_i hexp
      rw [windowExpired, decide_eq_true_eq] at hexp
      omega
  rw [remainingAt_eq]
  split <;> omega

/-- A window that has just been reset is a full one. -/
theorem remainingAt_expired {g : GpuContext} (h : windowExpired cfg g b = true) :
    cfg.computeWindowMs ≤ remainingAt cfg g b := by
  have hwindow := cfg.window_bounds
  rw [remainingAt_eq, startAfter, if_pos h]
  split <;> omega

theorem minSleepMs_unlimited (cfg : Config) (b : ℤ)
    (h : ∀ c ∈ (s.ctx x).runningList, (s.client c).coreLimit = 100) :
    minSleepMs cfg s x b =
      let remaining := windowRemainingMs cfg (s.ctx x) b
      let capped := min (min (defaultTqMs cfg (s.ctx x)) remaining) cfg.computeWindowMs
      if 0 < capped ∧ capped < 10 ∧ 10 < remaining then 10 else capped := by
  have hany : ((s.ctx x).runningList.any fun c => (s.client c).coreLimit < 100) = false := by
    rw [List.any_eq_false]
    intro c hc
    simp [h c hc]
  have hloop (sleep : ℤ) :
      (s.ctx x).runningList.foldl (sleepForClient cfg s x b) sleep = sleep :=
    Loop.foldl_fixed fun c hc => by simp [sleepForClient_eq, h c hc]
  simp only [minSleepMs_eq, hloop, hany, Bool.false_eq_true, if_false]

/-! ## The two halves of an iteration -/

/-- Up to its wait an iteration only checks the window and lets `try_schedule` refuse. -/
theorem timerBegin_standstill {fuel : ℕ} (hs : Refused cfg x s)
    (h : timerBegin cfg (env.frozen b) fuel x s = some u) :
    ∃ v, Standstill x s v ∧ (v.ctx x).windowStartMs = startAfter cfg (s.ctx x) b ∧
      u = timerSleep cfg (env.frozen b) x v := by
  have hfresh := freshWindow_standstill cfg (env.frozen b) x s
  have hstart := freshWindow_start cfg env x s b
  obtain ⟨v, hv, hu⟩ := Option.map_eq_some_iff.mp h
  split at hv
  · obtain ⟨hstill, hsame⟩ := trySchedule_standstill (hfresh.refused hs)
      ((startAfter_idem hstart).trans hstart.symm) hv
    exact ⟨v, hfresh.trans hstill, hsame.trans hstart, hu.symm⟩
  · rw [← Option.some.inj hv] at hu
    exact ⟨_, hfresh, hstart, hu.symm⟩

theorem timerBegin_refused_returns (env : Env) (b : ℤ) (hs : Refused cfg x s)
    (hnodup : (s.ctx x).pending.Nodup) :
    ∃ fuel u, timerBegin cfg (env.frozen b) fuel x s = some u := by
  have hfresh := freshWindow_standstill cfg (env.frozen b) x s
  have hstart := freshWindow_start cfg env x s b
  obtain ⟨n, v, hv⟩ := trySchedule_refused_returns env (hfresh.refused hs)
    (hfresh.pending.nodup_iff.mpr hnodup) ((startAfter_idem hstart).trans hstart.symm)
  by_cases hreset : (checkAndResetWindow cfg (env.frozen b) x s).1 = true
  · exact ⟨n, _, by rw [timerBegin, if_pos hreset]; exact congrArg _ hv⟩
  · exact ⟨0, _, by rw [timerBegin, if_neg hreset]; rfl⟩

theorem timerSleep_standstill (cfg : Config) (env : Env) (x : CtxId) (s : Sched) :
    Standstill x s (timerSleep cfg env x s) := by
  constructor <;> simp [timerSleep, Sched.tick, GpuContext.pending]

theorem enforceLimits_unlimited (env : Env)
    (h : ∀ c ∈ (s.ctx x).runningList, (s.client c).coreLimit = 100) :
    enforceLimits cfg env x s = s.tick := by
  refine Loop.foldl_fixed fun c hc => ?_
  have hlimit : ¬ (s.tick.client c).coreLimit < 100 := by
    rw [show (s.tick.client c).coreLimit = 100 from h c hc]
    decide
  unfold throttleClient
  exact if_neg fun hthrottle => hlimit hthrottle.1

/-- The loop of the global preemption reaches every client that has not been told to drop
the lock already. -/
theorem foldl_rotateClient (count now : ℤ) (l : List ClientId) (s : Sched) :
    ∃ new, (l.foldl (rotateClient env count now) s).out = s.out ++ new ∧
      ∀ c ∈ l, (s.client c).isThrottled = false → (s.client c).lastDropSentMs = 0 →
        ∃ m ∈ new, m.dest = c ∧ m.msg = .dropLock := by
  induction l generalizing s with
  | nil => exact ⟨[], by simp, by simp⟩
  | cons d l ih =>
      obtain ⟨new, hout, hnew⟩ := ih (rotateClient env count now s d)
      by_cases hd : (s.client d).isThrottled = false ∧ (s.client d).lastDropSentMs = 0
      · have hsend : (rotateClient env count now s d).out
            = s.out ++ [⟨d, .dropLock, sendSucceeds env d s⟩] := by
          simp [rotateClient, hd, sendMessage, sendSucceeds]
        refine ⟨⟨d, .dropLock, sendSucceeds env d s⟩ :: new, ?_, fun c hc hthr hdrop => ?_⟩
        · rw [List.foldl_cons, hout, hsend, List.append_assoc, List.singleton_append]
        · by_cases hcd : c = d
          · exact ⟨_, List.mem_cons_self, hcd.symm, rfl⟩
          · have hsame : (rotateClient env count now s d).client c = s.client c := by
              simp [rotateClient, hd, sendMessage, hcd]
            obtain ⟨m, hm, hdest⟩ := hnew c (List.mem_of_ne_of_mem hcd hc) (hsame ▸ hthr)
              (hsame ▸ hdrop)
            exact ⟨m, List.mem_cons_of_mem _ hm, hdest⟩
      · have hskip : rotateClient env count now s d = s := by
          unfold rotateClient
          exact if_neg (by simpa using hd)
        rw [hskip] at hnew hout
        refine ⟨new, by rw [List.foldl_cons, hskip, hout], fun c hc hthr hdrop => ?_⟩
        have hcd : c ≠ d := fun hcd => hd (hcd ▸ ⟨hthr, hdrop⟩)
        exact hnew c (List.mem_of_ne_of_mem hcd hc) hthr hdrop

theorem quantumElapsed_true {g : GpuContext} : quantumElapsed g true = true ↔
    g.timer.defaultTqMs ≤ g.timer.minSleepMs ∧ g.pending ≠ [] := by
  have hpending : g.pending ≠ [] ↔ g.requests ≠ [] ∨ g.waitQueue ≠ [] := by
    rw [← not_and_or, ← List.append_eq_nil_iff]
    exact Iff.rfl
  rw [quantumElapsed, Bool.true_and, Bool.and_eq_true, decide_eq_true_eq, decide_eq_true_eq,
    hpending]

/-- An iteration whose wait was cut short of the quantum sends no DROP_LOCK. -/
theorem timerEnd_standstill (cfg : Config) (env : Env)
    (h : ∀ c ∈ (s.ctx x).runningList, (s.client c).coreLimit = 100)
    (hshort : (s.ctx x).timer.minSleepMs < (s.ctx x).timer.defaultTqMs) :
    Standstill x s (timerEnd cfg env x true s) ∧
      ((timerEnd cfg env x true s).ctx x).windowStartMs = (s.ctx x).windowStartMs := by
  have hno : ¬ quantumElapsed ((enforceLimits cfg env x s).ctx x) true = true := by
    rw [enforceLimits_unlimited env h, quantumElapsed_true]
    exact fun hfull => absurd hshort (not_lt.mpr hfull.1)
  have hend : timerEnd cfg env x true s = s.tick.modifyCtx x fun g =>
      { g with mustResetTimer := false, timer := { g.timer with waiting := false } } := by
    rw [timerEnd, if_neg hno, enforceLimits_unlimited env h]
  rw [hend]
  refine ⟨?_, by simp [Sched.tick]⟩
  constructor <;> simp [Sched.tick, GpuContext.pending]

/-- An iteration whose wait lasted a full quantum tells all running clients that have not
been told yet to drop the lock. -/
theorem timerEnd_rotates (cfg : Config) (env : Env)
    (h : ∀ c ∈ (s.ctx x).runningList, (s.client c).coreLimit = 100)
    (hpending : (s.ctx x).pending ≠ [])
    (hfull : (s.ctx x).timer.defaultTqMs ≤ (s.ctx x).timer.minSleepMs) :
    ∃ new, (timerEnd cfg env x true s).out = s.out ++ new ∧
      ∀ c ∈ (s.ctx x).runningList, (s.client c).isThrottled = false →
        (s.client c).lastDropSentMs = 0 → ∃ m ∈ new, m.dest = c ∧ m.msg = .dropLock := by
  have hyes : quantumElapsed ((enforceLimits cfg env x s).ctx x) true = true := by
    rw [enforceLimits_unlimited env h, quantumElapsed_true]
    exact ⟨hfull, hpending⟩
  have hout : (timerEnd cfg env x true s).out = (rotateRunning env x s.tick).out := by
    rw [timerEnd, if_pos hyes, enforceLimits_unlimited env h]
    rfl
  rw [hout]
  exact foldl_rotateClient _ _ _ _

/-! ## Iterations -/

/-- What an iteration does from a blocked state. -/
theorem Iteration.spec (h : Iteration cfg env x s b t e) (hs : Blocked cfg x s) :
    e = b + max 0 (sleepAt cfg (s.ctx x) b) ∧
    ∃ u, Standstill x s u ∧ (u.ctx x).windowStartMs = startAfter cfg (s.ctx x) b ∧
      (u.ctx x).timer.minSleepMs = sleepAt cfg (s.ctx x) b ∧
      (u.ctx x).timer.defaultTqMs = defaultTqMs cfg (s.ctx x) ∧
      t = timerEnd cfg (env.frozen e) x true u := by
  obtain ⟨fuel, u, hu, he, ht⟩ := h
  obtain ⟨v, hv, hstart, rfl⟩ := timerBegin_standstill hs.refused hu
  have hsleep : ((timerSleep cfg (env.frozen b) x v).ctx x).timer.minSleepMs
      = sleepAt cfg (s.ctx x) b := by
    have hmin := minSleepMs_unlimited cfg b (hv.blocked hs).unlimited
    have hremaining : windowRemainingMs cfg (v.ctx x) b = remainingAt cfg (s.ctx x) b := by
      simp only [windowRemainingMs_eq, remainingAt, hstart]
    rw [hv.defaultTqMs, hremaining] at hmin
    simpa [timerSleep, Sched.tick, currentTimeMs_frozen, sleepAt] using hmin
  have htq : ((timerSleep cfg (env.frozen b) x v).ctx x).timer.defaultTqMs
      = defaultTqMs cfg (v.ctx x) := by
    simp [timerSleep, Sched.tick]
  have hstill := hv.trans (timerSleep_standstill cfg (env.frozen b) x v)
  refine ⟨hsleep ▸ he, _, hstill, ?_, hsleep, htq.trans hv.defaultTqMs, ht⟩
  simpa [timerSleep, Sched.tick] using hstart

/-- An iteration that ends before the quantum does. It ends with the window. -/
theorem Iteration.short (h : Iteration cfg env x s b t e) (hs : Blocked cfg x s)
    (hshort : sleepAt cfg (s.ctx x) b < defaultTqMs cfg (s.ctx x)) :
    e = b + sleepAt cfg (s.ctx x) b ∧ 0 < sleepAt cfg (s.ctx x) b ∧ Standstill x s t ∧
      (t.ctx x).windowStartMs = startAfter cfg (s.ctx x) b := by
  obtain ⟨he, u, hu, hstart, hsleep, htq, rfl⟩ := h.spec hs
  have hwindow := cfg.window_bounds
  have hpos := (remainingAt_bounds cfg (s.ctx x) b).1
  have hsleepPos : 0 < sleepAt cfg (s.ctx x) b := by
    rw [sleepAt_of_lt hshort]
    exact lt_min hpos (by omega)
  obtain ⟨hstill, hsame⟩ := timerEnd_standstill cfg (env.frozen e)
    (hu.blocked hs).unlimited (by rw [hsleep, htq]; exact hshort)
  exact ⟨by omega, hsleepPos, hu.trans hstill, hsame.trans hstart⟩

/-- The iteration of a quantum that ends before the window does. -/
theorem Iteration.rotates (h : Iteration cfg env x s b t e) (hs : Blocked cfg x s)
    (hfree : ∀ c ∈ (s.ctx x).runningList, (s.client c).isThrottled = false)
    (hlong : defaultTqMs cfg (s.ctx x) ≤ sleepAt cfg (s.ctx x) b) : Rotates x s t := by
  obtain ⟨-, u, hu, -, hsleep, htq, rfl⟩ := h.spec hs
  have hu' := hu.blocked hs
  obtain ⟨new, hout, hnew⟩ := timerEnd_rotates cfg (env.frozen e) hu'.unlimited
    hu'.pending (by rw [hsleep, htq]; exact hlong)
  obtain ⟨sent, hsent, -⟩ := hu.sent
  intro c hc
  have hcu : c ∈ (u.ctx x).runningList := hu.running ▸ hc
  have hthr : (u.client c).isThrottled = false := by
    rw [Bool.eq_false_iff]
    exact fun hthr => Bool.false_ne_true ((hfree c hc).symm.trans (hu.throttled c hthr))
  obtain ⟨m, hm, hdest⟩ := hnew c hcu hthr (hu'.undropped c hcu)
  refine ⟨m, ?_, hdest⟩
  rw [hout, hsent, List.append_assoc, List.drop_left]
  exact List.mem_append_right sent hm

/-! ## Rotation in time -/

/-- At most one window end comes before the rotation. -/
theorem rotatesInTime_of_quantum_le (hs : Blocked cfg x s)
    (hfree : ∀ c ∈ (s.ctx x).runningList, (s.client c).isThrottled = false)
    (hquantum : defaultTqMs cfg (s.ctx x) ≤ cfg.computeWindowMs)
    (hswitch : 0 ≤ calculateSwitchTime cfg (s.ctx x) ∨ defaultTqMs cfg (s.ctx x) ≤ 0) :
    RotatesInTime cfg env x s := by
  intro b t e l hl hne helapsed
  cases hl with
  | nil => exact absurd rfl hne
  | cons s t₁ t b e₁ e l hfirst hrest =>
      by_cases hlong : defaultTqMs cfg (s.ctx x) ≤ sleepAt cfg (s.ctx x) b
      · exact ⟨_, List.mem_cons_self, hfirst.rotates hs hfree hlong⟩
      · -- The first iteration ends with the window, so that the second one resets it.
        obtain ⟨he₁, hpos, hstill, hstart⟩ := hfirst.short hs (not_le.mp hlong)
        obtain ⟨-, hbounds⟩ := remainingAt_bounds cfg (s.ctx x) b
        have hremaining : sleepAt cfg (s.ctx x) b = remainingAt cfg (s.ctx x) b ∧
            remainingAt cfg (s.ctx x) b < cfg.computeWindowMs := by
          have hsleep := sleepAt_of_lt (not_le.mp hlong)
          omega
        obtain ⟨hstartPos, hend⟩ := hbounds hremaining.2
        cases hrest with
        | nil => omega
        | cons _ t₂ _ _ e₂ _ l hsecond hrest =>
            have hexpired : windowExpired cfg (t₁.ctx x) e₁ = true := by
              rw [windowExpired, decide_eq_true_eq, windowStartAt, hstart, if_neg (by omega)]
              omega
            have hfull := remainingAt_expired hexpired
            have hquantum₁ : defaultTqMs cfg (t₁.ctx x) ≤ cfg.computeWindowMs := by
              rw [hstill.defaultTqMs]
              exact hquantum
            have hlong₁ := le_sleepAt hquantum₁ hfull
            have hfree₁ : ∀ c ∈ (t₁.ctx x).runningList, (t₁.client c).isThrottled = false := by
              intro c hc
              rw [Bool.eq_false_iff]
              exact fun hthr => Bool.false_ne_true
                ((hfree c (hstill.running ▸ hc)).symm.trans (hstill.throttled c hthr))
            refine ⟨_, List.mem_cons_of_mem _ List.mem_cons_self, ?_⟩
            exact hsecond.rotates (hstill.blocked hs) hfree₁ hlong₁

/-- An iteration that ends before the quantum does is possible at any time. -/
theorem exists_short_iteration (env : Env) (hs : Blocked cfg x s)
    (hnodup : (s.ctx x).pending.Nodup)
    (hshort : sleepAt cfg (s.ctx x) b < defaultTqMs cfg (s.ctx x)) :
    ∃ t, Iteration cfg env x s b t (b + sleepAt cfg (s.ctx x) b) ∧
      0 < sleepAt cfg (s.ctx x) b ∧ Standstill x s t := by
  obtain ⟨fuel, u, hu⟩ := timerBegin_refused_returns env b hs.refused hnodup
  have hfirst : Iteration cfg env x s b _ _ := ⟨fuel, u, hu, rfl, rfl⟩
  obtain ⟨he, hpos, hstill, -⟩ := hfirst.short hs hshort
  exact ⟨_, he ▸ hfirst, hpos, hstill⟩

/-- A quantum longer than the window never ends: there are iterations of any total length
without a rotation. -/
theorem exists_iterations_without_rotation (env : Env) (hs : Blocked cfg x s)
    (hnodup : (s.ctx x).pending.Nodup)
    (hlong : cfg.computeWindowMs < defaultTqMs cfg (s.ctx x)) (b : ℤ) (n : ℕ) :
    ∃ t e l, Iterations cfg env x s b t e l ∧ n ≤ l.length ∧ b + n ≤ e ∧
      ∀ p ∈ l, ¬ Rotates x p.1 p.2 := by
  induction n generalizing s b with
  | zero => exact ⟨s, b, [], .nil s b, le_rfl, by simp, by simp⟩
  | succ n ih =>
      have hshort : sleepAt cfg (s.ctx x) b < defaultTqMs cfg (s.ctx x) := by
        have hwindow := cfg.window_bounds
        unfold sleepAt
        simp only
        split <;> omega
      obtain ⟨t₁, hfirst, hpos, hstill⟩ := exists_short_iteration env hs hnodup hshort
      obtain ⟨t, e, l, hl, hlen, hbe, hnone⟩ := ih (hstill.blocked hs)
        (hstill.pending.nodup_iff.mpr hnodup) (by rw [hstill.defaultTqMs]; exact hlong) _
      refine ⟨t, e, _, .cons _ _ _ _ _ _ _ hfirst hl, ?_, ?_, ?_⟩
      · simpa using hlen
      · push_cast
        omega
      · intro p hp
        rcases List.mem_cons.mp hp with rfl | hp
        · exact hstill.not_rotates hs
        · exact hnone p hp

theorem not_rotatesInTime_of_window_lt (hs : Blocked cfg x s)
    (hnodup : (s.ctx x).pending.Nodup)
    (hlong : cfg.computeWindowMs < defaultTqMs cfg (s.ctx x)) : ¬ RotatesInTime cfg env x s := by
  intro h
  obtain ⟨t, e, l, hl, hlen, hbe, hnone⟩ := exists_iterations_without_rotation env
    hs hnodup hlong 0 ((calculateSwitchTime cfg (s.ctx x) * 1000 + cfg.computeWindowMs).toNat + 1)
  have hne : l ≠ [] := by
    rintro rfl
    simp at hlen
  obtain ⟨p, hp, hrot⟩ := h 0 t e l hl hne (by omega)
  exact hnone p hp hrot

/-- A negative switch time whose quantum wraps to a positive one asks for a rotation within an
iteration of any length, and the end of the window cuts one short of the quantum. -/
theorem not_rotatesInTime_of_wrapped (hs : Blocked cfg x s) (hnodup : (s.ctx x).pending.Nodup)
    (hstart : 0 < (s.ctx x).windowStartMs) (hswitch : calculateSwitchTime cfg (s.ctx x) < 0)
    (hpos : 0 < defaultTqMs cfg (s.ctx x)) : ¬ RotatesInTime cfg env x s := by
  intro h
  have hwindow := cfg.window_bounds
  have hwrap : defaultTqMs cfg (s.ctx x) = calculateSwitchTime cfg (s.ctx x) * 1000 -
      2 ^ 32 * Int.bdiv (calculateSwitchTime cfg (s.ctx x) * 1000) (2 ^ 32) :=
    Int.bmod_eq_self_sub_mul_bdiv _ _
  obtain ⟨-, hint⟩ := toInt32_bounds (calculateSwitchTime cfg (s.ctx x) * 1000)
  rw [← defaultTqMs] at hint
  have hcarry : Int.bdiv (calculateSwitchTime cfg (s.ctx x) * 1000) (2 ^ 32) ≤ -1 := by omega
  -- One millisecond before the end of the window.
  have hnow : startAfter cfg (s.ctx x) ((s.ctx x).windowStartMs + cfg.computeWindowMs - 1) =
      (s.ctx x).windowStartMs := by
    have hat : windowStartAt (s.ctx x) ((s.ctx x).windowStartMs + cfg.computeWindowMs - 1) =
        (s.ctx x).windowStartMs := if_neg hstart.ne'
    rw [startAfter, if_neg, hat]
    rw [windowExpired, decide_eq_true_eq, hat]
    omega
  have hleft : remainingAt cfg (s.ctx x) ((s.ctx x).windowStartMs + cfg.computeWindowMs - 1) =
      1 := by
    rw [remainingAt_eq, hnow, if_pos hstart]
    omega
  have hsleep : sleepAt cfg (s.ctx x) ((s.ctx x).windowStartMs + cfg.computeWindowMs - 1) = 1 := by
    unfold sleepAt
    simp only [hleft]
    split <;> omega
  have hshort : sleepAt cfg (s.ctx x) ((s.ctx x).windowStartMs + cfg.computeWindowMs - 1) <
      defaultTqMs cfg (s.ctx x) := by omega
  obtain ⟨t, hfirst, -, hstill⟩ := exists_short_iteration env hs hnodup hshort
  obtain ⟨p, hp, hrot⟩ := h _ _ _ _ (.cons _ _ _ _ _ _ _ hfirst (.nil _ _))
    (List.cons_ne_nil _ _) (by omega)
  rw [List.mem_singleton.mp hp] at hrot
  exact hstill.not_rotates hs hrot

/-- Blocked runners are rotated within one switch time and one window if the quantum, an `int`,
is not longer than the window, a negative switch time has not wrapped to a positive quantum,
and none of them is throttled. Without the first of these they never are, and without the
second not always. -/
theorem quantum_rotation (hs : Blocked cfg x s) :
    (defaultTqMs cfg (s.ctx x) ≤ cfg.computeWindowMs →
      (0 ≤ calculateSwitchTime cfg (s.ctx x) ∨ defaultTqMs cfg (s.ctx x) ≤ 0) →
      (∀ c ∈ (s.ctx x).runningList, (s.client c).isThrottled = false) →
        RotatesInTime cfg env x s) ∧
    ((s.ctx x).pending.Nodup → RotatesInTime cfg env x s →
      defaultTqMs cfg (s.ctx x) ≤ cfg.computeWindowMs ∧
        (0 < (s.ctx x).windowStartMs →
          0 ≤ calculateSwitchTime cfg (s.ctx x) ∨ defaultTqMs cfg (s.ctx x) ≤ 0)) := by
  constructor
  · intro hquantum hswitch hfree
    exact rotatesInTime_of_quantum_le hs hfree hquantum hswitch
  · intro hnodup h
    constructor
    · by_contra hlong
      exact not_rotatesInTime_of_window_lt hs hnodup (not_le.mp hlong) h
    · intro hstart
      by_contra hwrapped
      rw [not_or, not_le, not_le] at hwrapped
      exact not_rotatesInTime_of_wrapped hs hnodup hstart hwrapped.1 hwrapped.2 h

/-- Two clients on one GPU that need 10 GB each: the second waits for the first. -/
def twoLargeClients : List Event :=
  [.accept {}, enter 0 1, .message 0 (.memUpdate (10 * 2 ^ 30)), .message 0 .reqLock,
    .accept {}, enter 1 2, .message 1 (.memUpdate (10 * 2 ^ 30)), .message 1 .reqLock]

/-- The environment of a scheduler with a fixed quantum of one second. -/
def oneSecondQuantum (name : String) : Option String :=
  if name = "NVSHARE_SWITCH_TIME_MODE" then some "fixed"
  else if name = "NVSHARE_SWITCH_TIME_FIXED" then some "1" else none

theorem quantum_rotation_one_second :
    ∃ s, Transition.Reaches (Transition.guarded (Step (initConfig oneSecondQuantum) steady)
        fun _ _ => True) Sched.init s ∧
      Blocked (initConfig oneSecondQuantum) 0 s ∧
      RotatesInTime (initConfig oneSecondQuantum) steady 0 s := by
  obtain ⟨s, hs, hblocked, hquantum, hswitch, hfree⟩ := exists_reaches
    (initConfig oneSecondQuantum) steady (fun _ _ => True) 10 twoLargeClients
    (fun s => Blocked (initConfig oneSecondQuantum) 0 s ∧
      defaultTqMs (initConfig oneSecondQuantum) (s.ctx 0)
        ≤ (initConfig oneSecondQuantum).computeWindowMs ∧
      0 ≤ calculateSwitchTime (initConfig oneSecondQuantum) (s.ctx 0) ∧
      ∀ c ∈ (s.ctx 0).runningList, (s.client c).isThrottled = false) (by decide +kernel)
  exact ⟨s, hs, hblocked, (quantum_rotation hblocked).1 hquantum (Or.inl hswitch) hfree⟩

/-- With the default settings the quantum of 50 seconds is never reached in windows of two
seconds: the second client waits for ever. -/
theorem default_quantum_never_ends :
    ¬ ∀ (getenv : String → Option String) (env : Env) (x : CtxId) (s : Sched),
      Transition.Reaches (Transition.guarded (Step (initConfig getenv) env) fun _ _ => True)
          Sched.init s →
        Blocked (initConfig getenv) x s → RotatesInTime (initConfig getenv) env x s := by
  intro h
  obtain ⟨s, hs, hblocked, hlong, hnodup⟩ := exists_reaches (initConfig fun _ => none)
    steady (fun _ _ => True) 10 twoLargeClients
    (fun s => Blocked (initConfig fun _ => none) 0 s ∧
      (initConfig fun _ => none).computeWindowMs
        < defaultTqMs (initConfig fun _ => none) (s.ctx 0) ∧ (s.ctx 0).pending.Nodup)
    (by decide +kernel)
  exact not_rotatesInTime_of_window_lt hblocked hnodup hlong (h _ steady 0 s hs hblocked)

end XpuShare
