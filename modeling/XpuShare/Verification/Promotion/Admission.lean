import XpuShare.Verification.Removal.Sidelined
import XpuShare.Verification.Timer.Standstill

/-! # Admission at one clock reading

While the clock shows one value, `try_schedule` returns only when nobody who waits may run.
What `can_run` answers for a client that does not run depends on its own usage, on the
compute limits of the connected clients, on the start of the window and on the memory
figures, and on nothing else. -/

namespace XpuShare

variable {cfg : Config} {env : Env} {b : ℤ} {x : CtxId} {s t u v : Sched} {c d : ClientId}

/-- Nobody pending on the context may run when the clock shows `b`. -/
def NoneAdmissible (cfg : Config) (env : Env) (b : ℤ) (x : CtxId) (s : Sched) : Prop :=
  ∀ d ∈ (s.ctx x).pending, (canRun cfg (env.frozen b) x d s).1 = false

/-- The window has been checked since the clock shows `b`. -/
def Current (cfg : Config) (b : ℤ) (x : CtxId) (s : Sched) : Prop :=
  startAfter cfg (s.ctx x) b = (s.ctx x).windowStartMs

theorem current_fresh (cfg : Config) (env : Env) (b : ℤ) (x : CtxId) (s : Sched) :
    Current cfg b x (freshWindow cfg (env.frozen b) x s) := by
  have hstart := freshWindow_start cfg env x s b
  rw [Current, startAfter_idem hstart, hstart]

/-- A second check at the same reading only reads the clock. -/
theorem freshWindow_of_current (env : Env) (h : Current cfg b x s) :
    freshWindow cfg (env.frozen b) x s = s.tick := by
  have hwindow := cfg.window_bounds
  have hopen : windowExpired cfg (s.ctx x) b = false := by
    by_contra hexp
    rw [Bool.not_eq_false] at hexp
    rw [Current, startAfter, if_pos hexp] at h
    rw [windowExpired, decide_eq_true_eq, windowStartAt, ← h] at hexp
    split at hexp <;> omega
  have hat : windowStartAt (s.ctx x) b = (s.ctx x).windowStartMs := by
    rw [Current, startAfter, hopen] at h
    simpa using h
  simp only [freshWindow, checkAndResetWindow, currentTimeMs_frozen, hopen, Bool.false_eq_true,
    if_false]
  simp only [Sched.modifyCtx, Sched.tick_ctx, hat, Function.update_eq_self]
  rfl

theorem Current.congr (h : Current cfg b x s)
    (hstart : (t.ctx x).windowStartMs = (s.ctx x).windowStartMs) : Current cfg b x t := by
  have hat : windowStartAt (t.ctx x) b = windowStartAt (s.ctx x) b := by
    rw [windowStartAt, windowStartAt, hstart]
  rw [Current, startAfter, windowExpired, hat, hstart]
  exact h

/-! ## The scan of the wait queue -/

/-- In a checked window the scan promotes somebody or refuses everybody. -/
theorem checkWaitQueueFrom_current {front back : List ClientId} (env : Env)
    (hcur : Current cfg b x s)
    (hnil : ((checkWaitQueueFrom cfg (env.frozen b) x front back s).ctx x).requests = []) :
    (∃ n, checkWaitQueueFrom cfg (env.frozen b) x front back s = { s with ticks := n }) ∧
      ∀ d ∈ back, canRunTest cfg s x d = false := by
  induction back generalizing front s with
  | nil => exact ⟨⟨s.ticks, rfl⟩, by simp⟩
  | cons c back ih =>
      have hfresh : (canRun cfg (env.frozen b) x c s) = (canRunTest cfg s x c, s.tick) := by
        rw [canRun, freshWindow_of_current env hcur]
        rfl
      rw [checkWaitQueueFrom, hfresh] at hnil ⊢
      cases hok : canRunTest cfg s x c with
      | true =>
          rw [hok] at hnil
          simp [promote] at hnil
      | false =>
          rw [hok] at hnil
          simp only [Bool.false_eq_true, if_false] at hnil ⊢
          obtain ⟨⟨n, hn⟩, hrest⟩ := ih (s := s.tick) hcur hnil
          refine ⟨⟨n, hn⟩, fun d hd => ?_⟩
          rcases List.mem_cons.mp hd with rfl | hd
          · exact hok
          · exact hrest d hd

/-- A scan that promotes nobody leaves a checked window in which nobody may run. -/
theorem checkWaitQueue_refused (env : Env)
    (hnil : ((checkWaitQueue cfg (env.frozen b) x s).ctx x).requests = [])
    (hwait : (s.ctx x).waitQueue ≠ []) :
    Current cfg b x (checkWaitQueue cfg (env.frozen b) x s) ∧
      ∀ d ∈ ((checkWaitQueue cfg (env.frozen b) x s).ctx x).waitQueue,
        canRunTest cfg (checkWaitQueue cfg (env.frozen b) x s) x d = false := by
  obtain ⟨c, back, hqueue⟩ := List.exists_cons_of_ne_nil hwait
  have hcur := current_fresh cfg env b x s
  have hqueue' : ((freshWindow cfg (env.frozen b) x s).ctx x).waitQueue = c :: back := by
    rw [freshWindow_waitQueue, hqueue]
  by_cases hok : (canRun cfg (env.frozen b) x c s).1 = true
  · rw [checkWaitQueue, hqueue, checkWaitQueueFrom, if_pos hok] at hnil
    simp [promote] at hnil
  · have hscan : checkWaitQueue cfg (env.frozen b) x s = checkWaitQueueFrom cfg (env.frozen b) x
        [c] back (freshWindow cfg (env.frozen b) x s) := by
      rw [checkWaitQueue, hqueue, checkWaitQueueFrom, if_neg hok]
      rfl
    rw [hscan] at hnil ⊢
    obtain ⟨⟨n, hn⟩, hrest⟩ := checkWaitQueueFrom_current env hcur hnil
    rw [hn]
    refine ⟨hcur, fun d hd => ?_⟩
    have hd' : d ∈ c :: back := hqueue' ▸ hd
    rcases List.mem_cons.mp hd' with rfl | hd'
    · exact Bool.eq_false_of_not_eq_true hok
    · exact hrest d hd'

/-! ## The end of a scheduling call -/

/-- What holds when `try_schedule` returns at reading `b`: no request is left, and whoever
waits has been refused in the checked window. -/
structure Exhausted (cfg : Config) (b : ℤ) (x : CtxId) (s : Sched) : Prop where
  requests : (s.ctx x).requests = []
  current : (s.ctx x).waitQueue ≠ [] → Current cfg b x s
  refused : ∀ d ∈ (s.ctx x).waitQueue, canRunTest cfg s x d = false

theorem Exhausted.noneAdmissible (env : Env) (h : Exhausted cfg b x s) :
    NoneAdmissible cfg env b x s := by
  intro d hd
  rw [GpuContext.pending, h.requests, List.nil_append] at hd
  rw [canRun, freshWindow_of_current env (h.current (List.ne_nil_of_mem hd))]
  exact h.refused d hd

theorem trySchedule_exhausted {n : ℕ} (hmode : cfg.schedulingMode ≠ .serial)
    (hsent : env.AllSent) (h : trySchedule cfg (env.frozen b) n x s = some t) :
    Exhausted cfg b x t := by
  induction n generalizing s with
  | zero => cases h
  | succ n ih =>
      generalize hrefill : refill cfg (env.frozen b) x s = r at h
      cases hreq : (r.ctx x).requests with
      | nil =>
          rw [trySchedule_of_nil hrefill hreq] at h
          obtain rfl := Option.some.inj h
          by_cases hnil : (s.ctx x).requests = []
          · rw [refill, if_pos hnil] at hrefill
            subst hrefill
            by_cases hwait : (s.ctx x).waitQueue = []
            · have hsame : checkWaitQueue cfg (env.frozen b) x s = s := by
                rw [checkWaitQueue, hwait, checkWaitQueueFrom]
              rw [hsame]
              exact ⟨hnil, fun hne => absurd hwait hne, by simp [hwait]⟩
            · obtain ⟨hcur, hno⟩ := checkWaitQueue_refused env hreq hwait
              exact ⟨hreq, fun _ => hcur, hno⟩
          · rw [refill, if_neg hnil] at hrefill
            subst hrefill
            exact absurd hreq hnil
      | cons c rest =>
          generalize hfresh : freshWindow cfg (env.frozen b) x r = f at h
          cases hok : canRunTest cfg f x c with
          | true =>
              have hsend : sendSucceeds (env.frozen b) c f = true := hsent _ c
              rw [trySchedule_of_grant hrefill hreq hfresh hok hsend, if_neg hmode] at h
              exact ih h
          | false =>
              rw [trySchedule_of_defer hrefill hreq hfresh hok] at h
              exact ih h

/-! ## What the quota test depends on -/

/-- `s` and `t` agree on what the quota test of `d` reads. -/
structure Alike (x : CtxId) (d : ClientId) (s t : Sched) : Prop where
  clients : t.clients = s.clients
  context : ∀ e, (t.client e).context = (s.client e).context
  coreLimit : ∀ e, (t.client e).coreLimit = (s.client e).coreLimit
  usage : (t.client d).runTimeInWindowMs = (s.client d).runTimeInWindowMs
  throttled : (t.client d).isThrottled = (s.client d).isThrottled
  start : (t.ctx x).windowStartMs = (s.ctx x).windowStartMs

theorem Alike.refl (x : CtxId) (d : ClientId) (s : Sched) : Alike x d s s :=
  ⟨rfl, fun _ => rfl, fun _ => rfl, rfl, rfl, rfl⟩

theorem Alike.trans (h : Alike x d s t) (h' : Alike x d t u) : Alike x d s u where
  clients := h'.clients.trans h.clients
  context e := (h'.context e).trans (h.context e)
  coreLimit e := (h'.coreLimit e).trans (h.coreLimit e)
  usage := h'.usage.trans h.usage
  throttled := h'.throttled.trans h.throttled
  start := h'.start.trans h.start

/-- Scheduling code that leaves the record of `d` and the window alone. -/
theorem Frame.alike (h : Frame x s t) (hclients : t.clients = s.clients)
    (hd : t.client d = s.client d)
    (hstart : (t.ctx x).windowStartMs = (s.ctx x).windowStartMs) : Alike x d s t where
  clients := hclients
  context e := context_of_static (h.static e)
  coreLimit e := coreLimit_of_static (h.static e)
  usage := by rw [hd]
  throttled := by rw [hd]
  start := hstart

theorem Alike.quota (h : Alike x d s t) (e : ClientId) :
    getEffectiveQuotaMs cfg t x e = getEffectiveQuotaMs cfg s x e := by
  have htotal : calculateTotalQuota t x = calculateTotalQuota s x := by
    simp only [calculateTotalQuota, h.clients, h.context, h.coreLimit]
  simp only [getEffectiveQuotaMs, htotal, h.coreLimit]

theorem Alike.quotaAllows (h : Alike x d s t) : quotaAllows cfg t x d = quotaAllows cfg s x d := by
  simp only [XpuShare.quotaAllows, h.coreLimit, h.usage, h.throttled, h.quota]

/-- The same client leaves both. -/
theorem Alike.unlink (h : Alike x d s t) (c : ClientId) :
    Alike x d { s with clients := s.clients.filter (· ≠ c) }
      { t with clients := t.clients.filter (· ≠ c) } :=
  ⟨by rw [h.clients], h.context, h.coreLimit, h.usage, h.throttled, h.start⟩

theorem Alike.reset (h : Alike x d s t) (e : ClientId) :
    Alike x d (resetClient cfg x s e) (resetClient cfg x t e) := by
  have hs := resetClient_shape cfg x s e
  have ht := resetClient_shape cfg x t e
  have hstatic : ∀ e', ((resetClient cfg x s e).client e').static = (s.client e').static ∧
      ((resetClient cfg x t e).client e').static = (t.client e').static :=
    fun e' => ⟨static_of_unbilled (hs.unbilled e'), static_of_unbilled (ht.unbilled e')⟩
  refine ⟨by rw [hs.clients, ht.clients, h.clients], fun e' => ?_, fun e' => ?_, ?_, ?_,
    by rw [hs.ctx, ht.ctx, h.start]⟩
  · rw [context_of_static (hstatic e').1, context_of_static (hstatic e').2, h.context]
  · rw [coreLimit_of_static (hstatic e').1, coreLimit_of_static (hstatic e').2, h.coreLimit]
  · simp only [resetClient, h.context, h.quota]
    split
    · rw [Sched.modifyClient_client, Sched.modifyClient_client]
      split
      · rename_i he
        subst he
        simp only [h.usage, h.coreLimit]
      · exact h.usage
    · exact h.usage
  · simp only [resetClient, h.context]
    split
    · rw [Sched.modifyClient_client, Sched.modifyClient_client]
      split
      · rfl
      · exact h.throttled
    · exact h.throttled

theorem Alike.resetAll (h : Alike x d s t) (l : List ClientId) :
    Alike x d (l.foldl (resetClient cfg x) s) (l.foldl (resetClient cfg x) t) := by
  induction l generalizing s t with
  | nil => exact h
  | cons e l ih => exact ih (h.reset e)

theorem Alike.resetWindow (h : Alike x d s t) (hs : d ∉ (s.ctx x).runningList)
    (ht : d ∉ (t.ctx x).runningList) :
    Alike x d (resetWindow cfg x b s.tick) (resetWindow cfg x b t.tick) := by
  have hkeep : ∀ v : Sched, d ∉ (v.ctx x).runningList →
      (accrueRunningUsage x b none
        (v.tick.modifyCtx x fun g => { g with windowStartMs := b })).client d = v.client d := by
    intro v hv
    exact accrue_client_of_notMem b none _ (by simpa using hv)
  have hstatic : ∀ (v : Sched) (e : ClientId), ((accrueRunningUsage x b none
      (v.tick.modifyCtx x fun g => { g with windowStartMs := b })).client e).static
        = (v.client e).static :=
    fun v e => static_of_unbilled (accrue_unbilled x b none _ e)
  have haccrue : Alike x d
      (accrueRunningUsage x b none (s.tick.modifyCtx x fun g => { g with windowStartMs := b }))
      (accrueRunningUsage x b none
        (t.tick.modifyCtx x fun g => { g with windowStartMs := b })) := by
    refine ⟨by simp [h.clients], fun e => ?_, fun e => ?_, ?_, ?_, by simp⟩
    · rw [context_of_static (hstatic t e), context_of_static (hstatic s e), h.context]
    · rw [coreLimit_of_static (hstatic t e), coreLimit_of_static (hstatic s e), h.coreLimit]
    · rw [hkeep t ht, hkeep s hs, h.usage]
    · rw [hkeep t ht, hkeep s hs, h.throttled]
  have hreset : Alike x d (s.clients.foldl (resetClient cfg x) _) _ :=
    haccrue.resetAll s.clients
  have hclients : t.clients = s.clients := h.clients
  simp only [XpuShare.resetWindow, Sched.modifyCtx_clients, Sched.tick_clients]
  rw [hclients]
  exact hreset

/-- A window check takes states that agree to states that agree. -/
theorem Alike.fresh (env : Env) (h : Alike x d s t) (hs : d ∉ (s.ctx x).runningList)
    (ht : d ∉ (t.ctx x).runningList) :
    Alike x d (freshWindow cfg (env.frozen b) x s) (freshWindow cfg (env.frozen b) x t) := by
  have hat : windowStartAt (t.ctx x) b = windowStartAt (s.ctx x) b := by
    rw [windowStartAt, windowStartAt, h.start]
  have hexp : windowExpired cfg (t.ctx x) b = windowExpired cfg (s.ctx x) b := by
    rw [windowExpired, windowExpired, hat]
  rw [freshWindow, freshWindow, checkAndResetWindow, checkAndResetWindow, currentTimeMs_frozen,
    currentTimeMs_frozen, hexp]
  by_cases hover : windowExpired cfg (s.ctx x) b = true
  · rw [if_pos hover, if_pos hover]
    exact h.resetWindow hs ht
  · rw [if_neg hover, if_neg hover]
    refine ⟨h.clients, h.context, h.coreLimit, h.usage, h.throttled, ?_⟩
    simpa using hat

/-- `can_run` cannot tell `s` and `t` apart for a client that runs in neither. -/
structure SameAnswer (cfg : Config) (x : CtxId) (d : ClientId) (s t : Sched) : Prop where
  alike : Alike x d s t
  idle : d ∉ (s.ctx x).runningList
  idle' : d ∉ (t.ctx x).runningList
  memory : canRunWithMemory cfg t x d = canRunWithMemory cfg s x d

theorem SameAnswer.canRun_eq (env : Env) (h : SameAnswer cfg x d s t) :
    (canRun cfg (env.frozen b) x d t).1 = (canRun cfg (env.frozen b) x d s).1 := by
  simp only [canRun, canRunTest, canRunWithMemory_fresh, h.memory,
    (h.alike.fresh env h.idle h.idle').quotaAllows]

theorem SameAnswer.trans (h : SameAnswer cfg x d s t) (h' : SameAnswer cfg x d t u) :
    SameAnswer cfg x d s u :=
  ⟨h.alike.trans h'.alike, h.idle, h'.idle', h'.memory.trans h.memory⟩

theorem SameAnswer.unlink (h : SameAnswer cfg x d s t) (c : ClientId) :
    SameAnswer cfg x d { s with clients := s.clients.filter (· ≠ c) }
      { t with clients := t.clients.filter (· ≠ c) } :=
  ⟨h.alike.unlink c, h.idle, h.idle', h.memory⟩

/-- Withdrawing the requests of another client does not matter. -/
theorem SameAnswer.dropPending (c : ClientId) (hd : d ∉ (s.ctx x).runningList) :
    SameAnswer cfg x d s (dropPending x c s) := by
  refine ⟨?_, hd, ?_, ?_⟩
  · exact ⟨rfl, fun _ => rfl, fun _ => rfl, rfl, rfl, by simp [XpuShare.dropPending]⟩
  · simpa [XpuShare.dropPending] using hd
  · apply canRunWithMemory_congr <;> simp [XpuShare.dropPending]

/-! ## Clients that are passed over -/

/-- A block keeps the fresh window of a client that it does not let run. -/
theorem Block.alike_fresh (h : Block cfg (env.frozen b) nobody x s t)
    (ht : d ∉ (t.ctx x).runningList) : d ∉ (s.ctx x).runningList ∧
      Alike x d (freshWindow cfg (env.frozen b) x s) (freshWindow cfg (env.frozen b) x t) := by
  obtain ⟨new, hserved⟩ := h.served
  have hs : d ∉ (s.ctx x).runningList := fun hd => ht (hserved.running hd)
  refine ⟨hs, ?_⟩
  have hframe := h.frame
  cases h with
  | window =>
      rw [freshWindow_of_current env (current_fresh cfg env b x s)]
      exact ⟨rfl, fun _ => rfl, fun _ => rfl, rfl, rfl, rfl⟩
  | defer c rest hreq hno hwait =>
      refine Alike.fresh env (hframe.alike ?_ ?_ ?_) hs ht
      · exact (moveToWaitQueue_effect _ hwait).clients_eq
      · rw [moveToWaitQueue_client]
      · have hc : c ∈ (s.ctx x).requests := by simp [hreq]
        exact (moveToWaitQueue_standstill _ hc hwait).2
  | promote front c back hwait hok =>
      refine Alike.fresh env (hframe.alike rfl rfl ?_) hs ht
      simp [XpuShare.promote]
  | grant c rest hreq hok hsend =>
      have hc : c ∈ (s.ctx x).entries := mem_entries_of_requests (by simp [hreq])
      have heff := grantSent_effect (env.frozen b) hc
      have hrun : ((XpuShare.grant (env.frozen b) x c
          (sendMessage (env.frozen b) c .lockOk s)).ctx x).runningList
            = (s.ctx x).runningList ++ [c] := congrArg LockTable.running heff.table_eq
      have hne : d ≠ c := by
        rintro rfl
        exact ht (by rw [hrun]; simp)
      have hsame : (XpuShare.grant (env.frozen b) x c
          (sendMessage (env.frozen b) c .lockOk s)).client d = s.client d ∧ _ :=
        grant_others (s := sendMessage (env.frozen b) c .lockOk s) hne hs
      exact Alike.fresh env (hframe.alike heff.clients_eq hsame.1 hsame.2) hs ht
  | refuse c rest hreq hok hsend hD => exact False.elim hD
  | leave c hD => exact False.elim hD
  | withdraw c hD => exact False.elim hD
  | unlink c hD hctx hgone => exact False.elim hD

theorem Path.alike_fresh (h : Path cfg (env.frozen b) nobody x s t)
    (ht : d ∉ (t.ctx x).runningList) : d ∉ (s.ctx x).runningList ∧
      Alike x d (freshWindow cfg (env.frozen b) x s) (freshWindow cfg (env.frozen b) x t) := by
  induction h with
  | refl => exact ⟨ht, Alike.refl x d _⟩
  | tail _ hlast ih =>
      obtain ⟨hmid, halike⟩ := hlast.alike_fresh ht
      obtain ⟨hs, hrest⟩ := ih hmid
      exact ⟨hs, hrest.trans halike⟩

end XpuShare
