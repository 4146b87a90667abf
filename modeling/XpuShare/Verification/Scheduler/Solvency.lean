import XpuShare.Verification.Scheduler.Moves

/-! # Billing and admission

Billing never takes a client's usage below zero, and a client that passes `can_run` passes
it again after the next window check as long as it does not run. -/

namespace XpuShare

variable {cfg : Config} {env : Env} {x : CtxId} {s t : Sched} {c : ClientId}

/-! ## Usage stays nonnegative -/

theorem countRunningClients_pos (s : Sched) (x : CtxId) : 0 < countRunningClients s x := by
  unfold countRunningClients
  simp only
  split
  · omega
  · norm_num

theorem accrueClient_le {count : ℤ} (hcount : 0 < count) (now : ℤ)
    (exclude : Option ClientId) (s : Sched) (d : ClientId) :
    (s.client c).runTimeInWindowMs ≤
      ((accrueClient count now exclude s d).client c).runTimeInWindowMs := by
  unfold accrueClient
  simp only
  split
  · exact le_rfl
  · rename_i hskip
    simp only [Bool.or_eq_true, decide_eq_true_eq, not_or, not_le] at hskip
    rw [Sched.modifyClient_client]
    split
    · rename_i hc
      subst hc
      have hshare : 0 ≤ (now - (s.client c).currentRunStartMs).tdiv count :=
        Int.tdiv_nonneg hskip.2.le hcount.le
      simp only
      omega
    · exact le_rfl

theorem accrueRunningUsage_le (x : CtxId) (now : ℤ) (exclude : Option ClientId) (s : Sched)
    (c : ClientId) : (s.client c).runTimeInWindowMs ≤
      ((accrueRunningUsage x now exclude s).client c).runTimeInWindowMs := by
  unfold accrueRunningUsage
  refine List.foldlRecOn (motive := fun t : Sched => (s.client c).runTimeInWindowMs ≤
    (t.client c).runTimeInWindowMs) _ _ le_rfl ?_
  intro t ht d _
  exact ht.trans (accrueClient_le (countRunningClients_pos s x) now exclude t d)

theorem resetClient_nonneg (x : CtxId) (s : Sched) (d : ClientId)
    (h : 0 ≤ (s.client c).runTimeInWindowMs) :
    0 ≤ ((resetClient cfg x s d).client c).runTimeInWindowMs := by
  have hcarry := cfg.carryover_bounds
  unfold resetClient
  split
  · simp only
    rw [Sched.modifyClient_client]
    split
    · simp only
      split
      · rename_i hexcess
        exact Int.tdiv_nonneg (mul_nonneg hexcess.2.le hcarry.1) (by norm_num)
      · exact le_rfl
    · exact h
  · exact h

theorem freshWindow_nonneg (x : CtxId) (s : Sched) (h : 0 ≤ (s.client c).runTimeInWindowMs) :
    0 ≤ ((freshWindow cfg env x s).client c).runTimeInWindowMs := by
  unfold freshWindow checkAndResetWindow
  simp only
  split
  · unfold resetWindow
    refine List.foldlRecOn
      (motive := fun t : Sched => 0 ≤ (t.client c).runTimeInWindowMs) _ _ ?_ ?_
    · refine le_trans ?_ (accrueRunningUsage_le x _ none _ c)
      exact h
    · intro t ht d _
      exact resetClient_nonneg x t d ht
  · exact h

theorem settleRunners_le (env : Env) (x : CtxId) (s : Sched) (c : ClientId) :
    (s.client c).runTimeInWindowMs ≤
      ((settleRunners env x s).client c).runTimeInWindowMs := by
  unfold settleRunners
  split
  · exact le_rfl
  · exact accrueRunningUsage_le x _ none s.tick c

theorem grant_le (env : Env) (x : CtxId) (d : ClientId) (s : Sched) (c : ClientId) :
    (s.client c).runTimeInWindowMs ≤ ((grant env x d s).client c).runTimeInWindowMs := by
  refine (settleRunners_le env x s c).trans ?_
  unfold grant
  simp only [Sched.modifyCtx_client, Sched.modifyClient_client]
  split
  · rename_i hc
    subst hc
    exact le_rfl
  · exact le_rfl

theorem finalBill_nonneg (cfg : Config) (s : Sched) (x : CtxId) (c : ClientId) (now : ℤ) :
    0 ≤ finalBill cfg s x c now := by
  have htail := cfg.tail_bounds
  unfold finalBill
  simp only
  split
  · rename_i hduration
    split
    · have hshare : (0 : ℤ) ≤ if 0 < (s.client c).dropConcurrency
          then (s.client c).dropConcurrency else 1 := by
        split <;> omega
      have hraw := Int.tdiv_nonneg hduration.le hshare
      exact Int.tdiv_nonneg (mul_nonneg hraw htail.1) (by norm_num)
    · exact Int.tdiv_nonneg hduration.le (countRunningClients_pos s x).le
  · exact le_rfl

theorem releaseRunning_le (x : CtxId) (d : ClientId) (s : Sched) (c : ClientId) :
    (s.client c).runTimeInWindowMs ≤
      ((releaseRunning cfg env x d s).client c).runTimeInWindowMs := by
  generalize hv : giveBackMemory x (s.client d).memoryAllocated s = v
  have hvc : v.client = s.client := by rw [← hv]; rfl
  generalize hu : accrueRunningUsage x (currentTimeMs env v) (some d) v.tick = u
  have huc : (s.client c).runTimeInWindowMs ≤ (u.client c).runTimeInWindowMs := by
    rw [← hvc, ← hu]
    exact accrueRunningUsage_le x _ (some d) v.tick c
  have hbill := finalBill_nonneg cfg u x d (currentTimeMs env v)
  refine huc.trans ?_
  simp only [releaseRunning, hv, hu, Sched.modifyCtx_client, Sched.modifyClient_client]
  split
  · rename_i hc
    subst hc
    simp only
    omega
  · exact le_rfl

theorem leaveRunning_le (x : CtxId) (d : ClientId) (s : Sched) (c : ClientId) :
    (s.client c).runTimeInWindowMs ≤
      ((leaveRunning cfg env x d s).client c).runTimeInWindowMs := by
  have hclear : ∀ u : Sched, (clearLock x u).client = u.client := by
    intro u
    unfold clearLock
    split <;> rfl
  unfold leaveRunning
  rw [hclear]
  split
  · exact releaseRunning_le x d s c
  · exact le_rfl

theorem Block.nonneg {D : Exits} (h : Block cfg env D x s t)
    (hs : 0 ≤ (s.client c).runTimeInWindowMs) : 0 ≤ (t.client c).runTimeInWindowMs := by
  cases h with
  | window => exact freshWindow_nonneg x s hs
  | defer d rest hreq hno hwait => rwa [moveToWaitQueue_client]
  | promote front d back hwait hok => exact hs
  | grant d rest hreq hok hsend => exact hs.trans (grant_le env x d _ c)
  | refuse d rest hreq hok hsend hD => exact hs
  | leave d hD => exact hs.trans (leaveRunning_le x d s c)
  | withdraw d hD => exact hs
  | unlink d hD hctx => exact hs

theorem Action.solvent {D : ClientId → Prop} {ok : Sched → Event → Prop}
    (h : Action cfg env D ok s t) (hs : ∀ c, Solvent s c) : ∀ c, Solvent t c := by
  cases h with
  | block x h =>
      intro c hctx
      have hstatic := h.frame.static c
      rw [context_of_static hstatic] at hctx
      obtain ⟨hlimit, hrun⟩ := hs c hctx
      exact ⟨by rw [coreLimit_of_static hstatic]; exact hlimit, h.nonneg hrun⟩
  | tune h => exact h.solvent hs
  | accept garbage hok =>
      intro c hctx
      by_cases hc : c = s.nalloc
      · subst hc
        simp [XpuShare.accept] at hctx
      · have hother : (XpuShare.accept garbage s).client c = s.client c := by
          simp [XpuShare.accept, hc]
        rw [hother] at hctx ⊢
        exact hs c hctx
  | enrol d m e hok hmem hunreg hid =>
      intro c hctx
      obtain ⟨y, hclient, -⟩ := enrol_spec cfg d m e s
      rw [hclient, Function.update_apply] at hctx ⊢
      split
      · exact ⟨annotatedCoreLimit_pos _, le_rfl⟩
      · rename_i hc
        rw [if_neg hc] at hctx
        exact hs c hctx
  | insert d y hok hmem hon hctx hreq => exact hs
  | memory d y v hok hmem hctx =>
      intro c hctx
      rw [creditMemory_client] at hctx ⊢
      rw [storeMemory_field Client.context fun _ _ _ => rfl] at hctx
      rw [storeMemory_field Client.coreLimit fun _ _ _ => rfl,
        storeMemory_field Client.runTimeInWindowMs fun _ _ _ => rfl]
      exact hs c hctx
  | unlink d hctx => exact hs
  | power on c hok => exact hs
  | clear s₀ d hok => exact hs

/-- Every registered client is solvent in every state that the scheduler reaches. -/
theorem solvent_of_reaches {ok : Sched → Event → Prop}
    (h : Transition.Reaches (Transition.guarded (Step cfg env) ok) Sched.init s)
    (c : ClientId) : Solvent s c := by
  have hinit : ∀ c, Solvent Sched.init c := fun c hctx => absurd rfl hctx
  exact invariant_of_any_actions (I := fun s => ∀ c, Solvent s c)
    (fun _ _ ha _ hs => ha.solvent hs) hinit h c

/-! ## A passed test is passed again -/

theorem calculateTotalQuota_congr (hclients : t.clients = s.clients)
    (hstatic : ∀ c, (t.client c).static = (s.client c).static) (x : CtxId) :
    calculateTotalQuota t x = calculateTotalQuota s x := by
  have hctx : ∀ c, (t.client c).context = (s.client c).context :=
    fun c => context_of_static (hstatic c)
  have hlimit : ∀ c, (t.client c).coreLimit = (s.client c).coreLimit :=
    fun c => coreLimit_of_static (hstatic c)
  simp only [calculateTotalQuota, hclients, hctx, hlimit]

theorem getEffectiveQuotaMs_congr (hclients : t.clients = s.clients)
    (hstatic : ∀ c, (t.client c).static = (s.client c).static) (x : CtxId) (c : ClientId) :
    getEffectiveQuotaMs cfg t x c = getEffectiveQuotaMs cfg s x c := by
  simp only [getEffectiveQuotaMs, calculateTotalQuota_congr hclients hstatic,
    coreLimit_of_static (hstatic c)]

/-- The part of `quotaAllows` that a window check could disturb. -/
def UnderQuota (cfg : Config) (x : CtxId) (c : ClientId) (quota : ℤ) (s : Sched) : Prop :=
  (s.client c).isThrottled = false ∧ 0 ≤ (s.client c).runTimeInWindowMs ∧
    (s.client c).runTimeInWindowMs < quota ∧ getEffectiveQuotaMs cfg s x c = quota

/-- A reset starts a client that is under its quota afresh. -/
theorem resetClient_of_underQuota {quota : ℤ} (h : UnderQuota cfg x c quota s)
    (d : ClientId) : (resetClient cfg x s d).client c = s.client c ∨
      (resetClient cfg x s d).client c =
        { s.client c with quotaDebtMs := 0, runTimeInWindowMs := 0, isThrottled := false } := by
  obtain ⟨-, -, hunder, hquota⟩ := h
  by_cases hd : d = c
  · subst hd
    have hexcess : ¬((s.client d).coreLimit < 100 ∧
        0 < (s.client d).runTimeInWindowMs - getEffectiveQuotaMs cfg s x d) := by
      rw [hquota]
      omega
    unfold resetClient
    split
    · right
      simp only [Sched.modifyClient_client_self, hexcess, if_false]
    · exact Or.inl rfl
  · left
    unfold resetClient
    split
    · exact Sched.modifyClient_client_ne _ _ _ _ (Ne.symm hd)
    · rfl

theorem UnderQuota.reset {quota : ℤ} (h : UnderQuota cfg x c quota s) (d : ClientId) :
    UnderQuota cfg x c quota (resetClient cfg x s d) := by
  have hshape := resetClient_shape cfg x s d
  have hquota : getEffectiveQuotaMs cfg (resetClient cfg x s d) x c = quota := by
    rw [getEffectiveQuotaMs_congr hshape.clients
      fun e => static_of_unbilled (hshape.unbilled e)]
    exact h.2.2.2
  rcases resetClient_of_underQuota h d with heq | heq
  · exact ⟨by rw [heq]; exact h.1, by rw [heq]; exact h.2.1, by rw [heq]; exact h.2.2.1, hquota⟩
  · refine ⟨by rw [heq], by rw [heq], ?_, hquota⟩
    rw [heq]
    exact h.2.1.trans_lt h.2.2.1

theorem UnderQuota.fresh {quota : ℤ} (h : UnderQuota cfg x c quota s)
    (hrun : c ∉ (s.ctx x).runningList) :
    UnderQuota cfg x c quota (freshWindow cfg env x s) := by
  unfold freshWindow checkAndResetWindow
  simp only
  split
  · unfold resetWindow
    refine List.foldlRecOn (motive := UnderQuota cfg x c quota) _ _ ?_ ?_
    · generalize hu : (s.tick.modifyCtx x fun g =>
        { g with windowStartMs := currentTimeMs env s }) = u
      have hclient : u.client = s.client := by rw [← hu]; rfl
      have hsame : (accrueRunningUsage x (currentTimeMs env s) none u).client c
          = s.client c := by
        rw [accrue_client_of_notMem _ none u (by rw [← hu]; simpa using hrun), hclient]
      have hquota : getEffectiveQuotaMs cfg
          (accrueRunningUsage x (currentTimeMs env s) none u) x c = quota := by
        rw [← h.2.2.2]
        refine getEffectiveQuotaMs_congr ?_ (fun e => ?_) x c
        · rw [accrue_clients, ← hu]
          rfl
        · rw [static_of_unbilled (accrue_unbilled x _ none u e), hclient]
      exact ⟨by rw [hsame]; exact h.1, by rw [hsame]; exact h.2.1,
        by rw [hsame]; exact h.2.2.1, hquota⟩
    · intro t ht d _
      exact ht.reset d
  · exact h

/-- The memory test reads the lock flag, the memory figures and the client's own memory. -/
theorem canRunWithMemory_congr (hlock : (t.ctx x).lockHeld = (s.ctx x).lockHeld)
    (husage : (t.ctx x).runningMemoryUsage = (s.ctx x).runningMemoryUsage)
    (hover : (t.ctx x).memoryOverloaded = (s.ctx x).memoryOverloaded)
    (htotal : (t.ctx x).totalMemory = (s.ctx x).totalMemory)
    (hmem : (t.client c).memoryAllocated = (s.client c).memoryAllocated) :
    canRunWithMemory cfg t x c = canRunWithMemory cfg s x c := by
  have hlimit : safeLimit cfg (t.ctx x) = safeLimit cfg (s.ctx x) := by
    simp only [safeLimit, htotal]
  simp only [canRunWithMemory]
  rw [hlock, husage, hover, hlimit, hmem]

theorem canRunWithMemory_fresh (x : CtxId) (s : Sched) (c : ClientId) :
    canRunWithMemory cfg (freshWindow cfg env x s) x c = canRunWithMemory cfg s x c := by
  refine canRunWithMemory_congr ?_ ?_ ?_ ?_ ?_
  · exact freshWindow_lockHeld cfg env x s
  · exact freshWindow_runningMemoryUsage cfg env x s
  · exact freshWindow_memoryOverloaded cfg env x s
  · exact freshWindow_totalMemory cfg env x s
  · exact memory_of_static ((freshWindow_effect cfg env x s).static c)

/-- A client that may run and does not may still run after the next window check. -/
theorem canRunTest_fresh (hrun : c ∉ (s.ctx x).runningList)
    (hpaid : 0 ≤ (s.client c).runTimeInWindowMs) (h : canRunTest cfg s x c = true) :
    canRunTest cfg (freshWindow cfg env x s) x c = true := by
  rw [canRunTest, Bool.and_eq_true] at h ⊢
  rw [canRunWithMemory_fresh]
  refine ⟨?_, h.2⟩
  have hlimit : ((freshWindow cfg env x s).client c).coreLimit = (s.client c).coreLimit :=
    coreLimit_of_static ((freshWindow_effect cfg env x s).static c)
  have hquota := h.1
  simp only [quotaAllows, hlimit, Bool.or_eq_true, Bool.and_eq_true, Bool.not_eq_true',
    decide_eq_true_eq] at hquota ⊢
  rcases hquota with hfree | ⟨hthrottled, hunder⟩
  · exact Or.inl hfree
  · have hfresh : UnderQuota cfg x c _ (freshWindow cfg env x s) :=
      UnderQuota.fresh ⟨hthrottled, hpaid, hunder, rfl⟩ hrun
    exact Or.inr ⟨hfresh.1, by rw [hfresh.2.2.2]; exact hfresh.2.2.1⟩

end XpuShare
