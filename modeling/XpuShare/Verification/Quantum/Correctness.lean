import XpuShare.Verification.Scheduler.Runs

/-! # The time quantum is not used

SET_TQ stores the quantum and marks every context. Nothing reads either of them: the timer
threads go by the configuration and by the memory in use. -/

namespace XpuShare

variable {cfg : Config} {env : Env} {s t : Sched} {c : ClientId} {x : CtxId} {fuel : ℕ}

/-! ## States that differ in the quantum -/

/-- The state with another quantum and other marks. -/
def retime (v : ℤ) (b : CtxId → Bool) (s : Sched) : Sched :=
  { s with tq := v, ctx := fun x => { s.ctx x with mustResetTimer := b x } }

/-- The two states agree but for the quantum and the marks. -/
def Retimed (s t : Sched) : Prop := ∃ v b, t = retime v b s

theorem Retimed.refl (s : Sched) : Retimed s s := ⟨s.tq, fun x => (s.ctx x).mustResetTimer, rfl⟩

section Fields

variable (h : Retimed s t)

include h

theorem Retimed.clients : t.clients = s.clients := by
  obtain ⟨v, b, rfl⟩ := h
  rfl

theorem Retimed.client : t.client = s.client := by
  obtain ⟨v, b, rfl⟩ := h
  rfl

theorem Retimed.schedulerOn : t.schedulerOn = s.schedulerOn := by
  obtain ⟨v, b, rfl⟩ := h
  rfl

theorem Retimed.out : t.out = s.out := by
  obtain ⟨v, b, rfl⟩ := h
  rfl

theorem Retimed.ctx (x : CtxId) :
    t.ctx x = { s.ctx x with mustResetTimer := (t.ctx x).mustResetTimer } := by
  obtain ⟨v, b, rfl⟩ := h
  rfl

theorem Retimed.requests (x : CtxId) : (t.ctx x).requests = (s.ctx x).requests := by
  rw [h.ctx]

theorem Retimed.currentTimeMs (env : Env) : currentTimeMs env t = currentTimeMs env s := by
  obtain ⟨v, b, rfl⟩ := h
  rfl

theorem Retimed.sendSucceeds (env : Env) (c : ClientId) :
    sendSucceeds env c t = sendSucceeds env c s := by
  obtain ⟨v, b, rfl⟩ := h
  rfl

theorem Retimed.countRunningClients (x : CtxId) :
    countRunningClients t x = countRunningClients s x := by
  obtain ⟨v, b, rfl⟩ := h
  rfl

theorem Retimed.canRunTest (x : CtxId) (c : ClientId) :
    canRunTest cfg t x c = canRunTest cfg s x c := by
  obtain ⟨v, b, rfl⟩ := h
  rfl

end Fields

theorem Retimed.modifyClient (h : Retimed s t) (c : ClientId) (f : Client → Client) :
    Retimed (s.modifyClient c f) (t.modifyClient c f) := by
  obtain ⟨v, b, rfl⟩ := h
  exact ⟨v, b, rfl⟩

theorem Retimed.tick (h : Retimed s t) : Retimed s.tick t.tick := by
  obtain ⟨v, b, rfl⟩ := h
  exact ⟨v, b, rfl⟩

theorem Retimed.sendMessage (h : Retimed s t) (env : Env) (c : ClientId) (m : ToClient) :
    Retimed (sendMessage env c m s) (sendMessage env c m t) := by
  obtain ⟨v, b, rfl⟩ := h
  exact ⟨v, b, rfl⟩

/-- A change of a context that does not depend on its mark. -/
theorem Retimed.modifyCtx (h : Retimed s t) (x : CtxId) {f : GpuContext → GpuContext}
    (hf : ∀ g m, ∃ k, f { g with mustResetTimer := m } = { f g with mustResetTimer := k }) :
    Retimed (s.modifyCtx x f) (t.modifyCtx x f) := by
  obtain ⟨v, b, rfl⟩ := h
  obtain ⟨k, hk⟩ := hf (s.ctx x) (b x)
  refine ⟨v, Function.update b x k, ?_⟩
  have hctx : Function.update (retime v b s).ctx x (f ((retime v b s).ctx x)) =
      fun y => { (s.modifyCtx x f).ctx y with mustResetTimer := Function.update b x k y } := by
    funext y
    by_cases hy : y = x
    · subst hy
      simp only [Function.update_self, Sched.modifyCtx_ctx_self]
      exact hk
    · rw [Function.update_of_ne hy, Sched.modifyCtx_ctx_ne _ _ _ _ hy, Function.update_of_ne hy]
      rfl
  rw [Sched.modifyCtx, hctx]
  rfl

/-- A loop over clients. -/
theorem Retimed.foldl {f : Sched → ClientId → Sched}
    (hf : ∀ {s t}, Retimed s t → ∀ c, Retimed (f s c) (f t c)) (l : List ClientId)
    (h : Retimed s t) : Retimed (l.foldl f s) (l.foldl f t) := by
  induction l generalizing s t with
  | nil => exact h
  | cons c l ih => exact ih (hf h c)

/-! ## Blocks of scheduling code -/

theorem Retimed.accrueRunningUsage (h : Retimed s t) (x : CtxId) (now : ℤ)
    (exclude : Option ClientId) :
    Retimed (accrueRunningUsage x now exclude s) (accrueRunningUsage x now exclude t) := by
  rw [XpuShare.accrueRunningUsage, XpuShare.accrueRunningUsage, h.countRunningClients, h.ctx]
  refine Retimed.foldl ?_ _ h
  intro u w hu c
  obtain ⟨v, b, rfl⟩ := hu
  refine ⟨v, b, ?_⟩
  rw [accrueClient, accrueClient, apply_ite (retime v b)]
  rfl

theorem Retimed.resetClient (h : Retimed s t) (x : CtxId) (c : ClientId) :
    Retimed (resetClient cfg x s c) (resetClient cfg x t c) := by
  obtain ⟨v, b, rfl⟩ := h
  refine ⟨v, b, ?_⟩
  rw [XpuShare.resetClient, XpuShare.resetClient, apply_ite (retime v b)]
  rfl

theorem Retimed.resetWindow (h : Retimed s t) (x : CtxId) (now : ℤ) :
    Retimed (resetWindow cfg x now s) (resetWindow cfg x now t) := by
  have hstart : Retimed (s.modifyCtx x fun g => { g with windowStartMs := now })
      (t.modifyCtx x fun g => { g with windowStartMs := now }) :=
    h.modifyCtx x fun _ m => ⟨m, rfl⟩
  unfold XpuShare.resetWindow
  simp only [Sched.modifyCtx_clients, h.clients]
  exact Retimed.foldl (fun hu c => hu.resetClient x c) _ (hstart.accrueRunningUsage x now none)

/-- `check_and_reset_window` resets in both states or in none. -/
theorem Retimed.checkAndResetWindow (h : Retimed s t) (cfg : Config) (env : Env) (x : CtxId) :
    (checkAndResetWindow cfg env x t).1 = (checkAndResetWindow cfg env x s).1 ∧
      Retimed (checkAndResetWindow cfg env x s).2 (checkAndResetWindow cfg env x t).2 := by
  have hexpired : windowExpired cfg (t.ctx x) (XpuShare.currentTimeMs env s) =
      windowExpired cfg (s.ctx x) (XpuShare.currentTimeMs env s) := by
    rw [h.ctx]
    rfl
  unfold XpuShare.checkAndResetWindow
  simp only [h.currentTimeMs]
  rw [hexpired]
  split
  · exact ⟨rfl, h.tick.resetWindow x _⟩
  · have hstarted := h.tick.modifyCtx x (f := fun g => { g with
        windowStartMs := windowStartAt g (XpuShare.currentTimeMs env s) }) fun _ m => ⟨m, rfl⟩
    exact ⟨rfl, hstarted⟩

theorem Retimed.freshWindow (h : Retimed s t) (x : CtxId) :
    Retimed (freshWindow cfg env x s) (freshWindow cfg env x t) :=
  (h.checkAndResetWindow cfg env x).2

theorem Retimed.moveToWaitQueue (h : Retimed s t) (x : CtxId) (c : ClientId) :
    Retimed (moveToWaitQueue env x c s) (moveToWaitQueue env x c t) := by
  have hmoved : Retimed
      (s.modifyCtx x fun g =>
        { g with requests := g.requests.erase c, waitQueue := g.waitQueue ++ [c] })
      (t.modifyCtx x fun g =>
        { g with requests := g.requests.erase c, waitQueue := g.waitQueue ++ [c] }) :=
    h.modifyCtx x fun _ m => ⟨m, rfl⟩
  unfold XpuShare.moveToWaitQueue
  rw [h.ctx, h.client]
  split
  · exact h
  · split
    · exact hmoved
    · exact hmoved.sendMessage env c .waitForMem

theorem Retimed.promote (h : Retimed s t) (x : CtxId) (front : List ClientId) (c : ClientId)
    (back : List ClientId) :
    Retimed (promote env x front c back s) (promote env x front c back t) :=
  (h.modifyCtx x fun _ m => ⟨m, rfl⟩).sendMessage env c .memAvailable

theorem Retimed.checkWaitQueueFrom (h : Retimed s t) (x : CtxId) (front back : List ClientId) :
    Retimed (checkWaitQueueFrom cfg env x front back s)
      (checkWaitQueueFrom cfg env x front back t) := by
  induction back generalizing s t front with
  | nil => exact h
  | cons c back ih =>
      have hfresh : Retimed (canRun cfg env x c s).2 (canRun cfg env x c t).2 := h.freshWindow x
      have hanswer : (canRun cfg env x c t).1 = (canRun cfg env x c s).1 := hfresh.canRunTest x c
      rw [XpuShare.checkWaitQueueFrom, XpuShare.checkWaitQueueFrom, hanswer]
      split
      · exact hfresh.promote x front c back
      · exact ih hfresh _

theorem Retimed.checkWaitQueue (h : Retimed s t) (x : CtxId) :
    Retimed (checkWaitQueue cfg env x s) (checkWaitQueue cfg env x t) := by
  rw [XpuShare.checkWaitQueue, XpuShare.checkWaitQueue, h.ctx]
  exact h.checkWaitQueueFrom x _ _

theorem Retimed.refill (h : Retimed s t) (x : CtxId) :
    Retimed (refill cfg env x s) (refill cfg env x t) := by
  rw [XpuShare.refill, XpuShare.refill, h.ctx]
  split
  · exact h.checkWaitQueue x
  · exact h

theorem Retimed.giveBackMemory (h : Retimed s t) (x : CtxId) (memory : ℕ) :
    Retimed (giveBackMemory x memory s) (giveBackMemory x memory t) :=
  h.modifyCtx x fun _ m => ⟨m, rfl⟩

theorem Retimed.finalBill (h : Retimed s t) (x : CtxId) (c : ClientId) (now : ℤ) :
    finalBill cfg t x c now = finalBill cfg s x c now := by
  obtain ⟨v, b, rfl⟩ := h
  rfl

theorem Retimed.releaseRunning (h : Retimed s t) (x : CtxId) (c : ClientId) :
    Retimed (releaseRunning cfg env x c s) (releaseRunning cfg env x c t) := by
  have hgave := h.giveBackMemory x (s.client c).memoryAllocated
  have haccrued := hgave.tick.accrueRunningUsage x
    (XpuShare.currentTimeMs env (XpuShare.giveBackMemory x (s.client c).memoryAllocated s)) (some c)
  unfold XpuShare.releaseRunning
  simp only [h.client, hgave.currentTimeMs, haccrued.finalBill]
  exact (haccrued.modifyClient c _).modifyCtx x fun _ m => ⟨m, rfl⟩

theorem Retimed.clearLock (h : Retimed s t) (x : CtxId) :
    Retimed (clearLock x s) (clearLock x t) := by
  rw [XpuShare.clearLock, XpuShare.clearLock, h.ctx]
  split
  · exact h.modifyCtx x fun _ m => ⟨m, rfl⟩
  · exact h

theorem Retimed.dropPending (h : Retimed s t) (x : CtxId) (c : ClientId) :
    Retimed (dropPending x c s) (dropPending x c t) :=
  h.modifyCtx x fun _ m => ⟨m, rfl⟩

theorem Retimed.leaveRunning (h : Retimed s t) (x : CtxId) (c : ClientId) :
    Retimed (leaveRunning cfg env x c s) (leaveRunning cfg env x c t) := by
  rw [XpuShare.leaveRunning, XpuShare.leaveRunning, h.ctx]
  split
  · exact (h.releaseRunning x c).clearLock x
  · exact h.clearLock x

theorem Retimed.grant (h : Retimed s t) (x : CtxId) (c : ClientId) :
    Retimed (grant env x c s) (grant env x c t) := by
  have hsettled : Retimed (settleRunners env x s) (settleRunners env x t) := by
    rw [settleRunners, settleRunners, h.ctx, h.currentTimeMs]
    split
    · exact h
    · exact h.tick.accrueRunningUsage x _ none
  unfold XpuShare.grant
  generalize settleRunners env x s = u at hsettled ⊢
  generalize settleRunners env x t = w at hsettled ⊢
  have hentered : Retimed
      (u.modifyCtx x fun g =>
        { g with
          requests := g.requests.erase c, runningList := g.runningList ++ [c]
          lockHeld := true, mustResetTimer := true })
      (w.modifyCtx x fun g =>
        { g with
          requests := g.requests.erase c, runningList := g.runningList ++ [c]
          lockHeld := true, mustResetTimer := true }) :=
    hsettled.modifyCtx x fun _ _ => ⟨true, rfl⟩
  simp only
  generalize Sched.modifyCtx u x _ = u' at hentered ⊢
  generalize Sched.modifyCtx w x _ = w' at hentered ⊢
  have hstarted := hentered.tick.modifyClient c fun r =>
    { r with
      isRunning := true, pendingDrop := false, dropConcurrency := 1
      currentRunStartMs := XpuShare.currentTimeMs env u' }
  rw [hentered.currentTimeMs, hstarted.client]
  exact hstarted.modifyCtx x fun _ m => ⟨m, rfl⟩

/-! ## Scheduling -/

theorem Retimed.unlinkClient (h : Retimed s t) (c : ClientId) :
    Option.Rel Retimed (unlinkClient c s) (unlinkClient c t) := by
  obtain ⟨v, b, rfl⟩ := h
  rw [XpuShare.unlinkClient, XpuShare.unlinkClient]
  change Option.Rel Retimed _ (if c ∈ s.clients then _ else none)
  split
  · exact .some ⟨v, b, rfl⟩
  · exact .none

theorem Retimed.removeReq {schedule : CtxId → Sched → Option Sched}
    (hschedule : ∀ x {s t}, Retimed s t → Option.Rel Retimed (schedule x s) (schedule x t))
    (h : Retimed s t) (c : ClientId) :
    Option.Rel Retimed (removeReq cfg env schedule c s) (removeReq cfg env schedule c t) := by
  rw [XpuShare.removeReq, XpuShare.removeReq, h.client]
  cases (s.client c).context with
  | none => exact .some h
  | some x =>
      have hleft : Retimed (XpuShare.leaveRunning cfg env x c s)
          (XpuShare.leaveRunning cfg env x c t) := h.leaveRunning x c
      simp only
      rw [hleft.ctx]
      split
      · exact (hschedule x (hleft.checkWaitQueue x)).map fun h => h.dropPending x c
      · exact .some (hleft.dropPending x c)

theorem Retimed.deleteClient {schedule : CtxId → Sched → Option Sched}
    (hschedule : ∀ x {s t}, Retimed s t → Option.Rel Retimed (schedule x s) (schedule x t))
    (h : Retimed s t) (c : ClientId) :
    Option.Rel Retimed (deleteClient cfg env schedule c s) (deleteClient cfg env schedule c t) :=
  (h.removeReq hschedule c).bind fun h => h.unlinkClient c

theorem Retimed.trySchedule (fuel : ℕ) (x : CtxId) (h : Retimed s t) :
    Option.Rel Retimed (trySchedule cfg env fuel x s) (trySchedule cfg env fuel x t) := by
  induction fuel generalizing x s t with
  | zero => exact .none
  | succ fuel ih =>
      have hrefilled : Retimed (XpuShare.refill cfg env x s) (XpuShare.refill cfg env x t) :=
        h.refill x
      have hfresh : Retimed (XpuShare.freshWindow cfg env x (XpuShare.refill cfg env x s))
          (XpuShare.freshWindow cfg env x (XpuShare.refill cfg env x t)) := hrefilled.freshWindow x
      unfold XpuShare.trySchedule
      simp only
      rw [hrefilled.requests]
      split
      · exact .some hrefilled
      · rename_i c rest hreq
        rw [hfresh.canRunTest, hfresh.sendSucceeds]
        have hsent := hfresh.sendMessage env c .lockOk
        split
        · split
          · split
            · exact .some (hsent.grant x c)
            · exact ih x (hsent.grant x c)
          · exact (hsent.deleteClient (fun x _ _ h => ih x h) c).bind fun h => ih x h
        · exact ih x (hfresh.moveToWaitQueue x c)

/-! ## Handlers -/

theorem Retimed.scheduleIfFree (h : Retimed s t) (x : CtxId) :
    Option.Rel Retimed (scheduleIfFree cfg env fuel x s) (scheduleIfFree cfg env fuel x t) := by
  rw [XpuShare.scheduleIfFree, XpuShare.scheduleIfFree, h.ctx]
  split
  · exact .some h
  · exact h.trySchedule fuel x

/-- `delete_client` with the scheduling it leads to. -/
theorem Retimed.delete (h : Retimed s t) (c : ClientId) :
    Option.Rel Retimed (XpuShare.deleteClient cfg env (XpuShare.trySchedule cfg env fuel) c s)
      (XpuShare.deleteClient cfg env (XpuShare.trySchedule cfg env fuel) c t) :=
  h.deleteClient (fun x _ _ h => h.trySchedule fuel x) c

theorem Retimed.hasRegistered (h : Retimed s t) (c : ClientId) :
    hasRegistered t c = hasRegistered s c := by
  rw [XpuShare.hasRegistered, XpuShare.hasRegistered, h.client]

theorem Retimed.getOrCreateGpuContext (h : Retimed s t) (cfg : Config) (uuid : String) :
    (getOrCreateGpuContext cfg uuid t).1 = (getOrCreateGpuContext cfg uuid s).1 ∧
      Retimed (getOrCreateGpuContext cfg uuid s).2 (getOrCreateGpuContext cfg uuid t).2 := by
  obtain ⟨v, b, rfl⟩ := h
  simp only [XpuShare.getOrCreateGpuContext, retime]
  cases (List.range s.nctx).find? fun x => strncmpEq (s.ctx x).uuid uuid gpuUuidLen with
  | some x => exact ⟨rfl, v, b, rfl⟩
  | none =>
      refine ⟨rfl, v, Function.update b s.nctx false, ?_⟩
      simp only [retime, Sched.mk.injEq, true_and, and_true]
      funext y
      by_cases hy : y = s.nctx
      · subst hy
        simp only [Function.update_self]
      · simp only [Function.update_of_ne hy]

theorem Retimed.enrol (h : Retimed s t) (c : ClientId) (m : RegisterMsg) (e : RegisterEnv) :
    Retimed (enrol cfg c m e s) (enrol cfg c m e t) := by
  have hfound := h.getOrCreateGpuContext cfg m.gpuUuid
  rw [XpuShare.enrol, XpuShare.enrol, hfound.1]
  exact hfound.2.modifyClient c _

theorem Retimed.applyInitialLimit (h : Retimed s t) (c : ClientId) (limit : Option ℕ) :
    Retimed (applyInitialLimit env c limit s) (applyInitialLimit env c limit t) := by
  cases limit with
  | none => exact h
  | some n =>
      unfold XpuShare.applyInitialLimit
      simp only
      split
      · exact (h.modifyClient c _).sendMessage env c _
      · exact h

theorem Retimed.registerClient (h : Retimed s t) (cfg : Config) (env : Env) (c : ClientId)
    (m : RegisterMsg) (e : RegisterEnv) :
    (registerClient cfg env c m e t).1 = (registerClient cfg env c m e s).1 ∧
      Retimed (registerClient cfg env c m e s).2 (registerClient cfg env c m e t).2 := by
  have hfilled : Retimed (XpuShare.enrol cfg c m e s) (XpuShare.enrol cfg c m e t) :=
    h.enrol c m e
  unfold XpuShare.registerClient
  simp only [h.hasRegistered, hfilled.sendSucceeds, hfilled.schedulerOn, hfilled.client]
  have hsent := hfilled.sendMessage env c (.status (XpuShare.enrol cfg c m e s).schedulerOn
    e.generatedId ((XpuShare.enrol cfg c m e s).client c).coreLimit)
  split
  · exact ⟨rfl, h⟩
  · split
    · exact ⟨rfl, hsent.applyInitialLimit c e.memoryAnnotated⟩
    · exact ⟨rfl, hsent⟩

theorem Retimed.bcastClient (h : Retimed s t) (c : ClientId) :
    Option.Rel Retimed (bcastClient cfg env fuel s c) (bcastClient cfg env fuel t c) := by
  unfold XpuShare.bcastClient
  simp only [h.clients, h.hasRegistered, h.schedulerOn, h.sendSucceeds]
  split
  · exact .none
  · split
    · exact .some h
    · split
      · exact .some (h.sendMessage env c _)
      · exact (h.sendMessage env c _).delete c

theorem Retimed.bcastFrom (h : Retimed s t) (linked visits : List ClientId) :
    Option.Rel Retimed (bcastFrom cfg env fuel linked visits s)
      (bcastFrom cfg env fuel linked visits t) := by
  induction visits generalizing linked s t with
  | nil => exact .some h
  | cons c visits ih =>
      simp only [XpuShare.bcastFrom, h.clients]
      split
      · exact ih h linked
      · exact (h.bcastClient c).bind fun h => ih h _

theorem Retimed.bcastStatus (h : Retimed s t) :
    Option.Rel Retimed (bcastStatus cfg env fuel s) (bcastStatus cfg env fuel t) := by
  rw [XpuShare.bcastStatus, XpuShare.bcastStatus, h.clients]
  exact h.bcastFrom _ _

theorem Retimed.setSchedulerOn (h : Retimed s t) (on : Bool) :
    Retimed { s with schedulerOn := on } { t with schedulerOn := on } := by
  obtain ⟨v, b, rfl⟩ := h
  exact ⟨v, b, rfl⟩

theorem Retimed.clearRequests (h : Retimed s t) :
    Retimed (clearRequests s) (clearRequests t) := by
  obtain ⟨v, b, rfl⟩ := h
  refine ⟨v, b, ?_⟩
  have hctx : (fun y => if y < s.nctx then
        { (retime v b s).ctx y with requests := [], lockHeld := false } else (retime v b s).ctx y) =
      fun y => { (XpuShare.clearRequests s).ctx y with mustResetTimer := b y } := by
    funext y
    by_cases hy : y < s.nctx
    · simp only [XpuShare.clearRequests, retime, if_pos hy]
    · simp only [XpuShare.clearRequests, retime, if_neg hy]
  exact congrArg (fun f => { retime v b s with ctx := f }) hctx

theorem Retimed.forcePreemption (h : Retimed s t) (x : CtxId) :
    Retimed (forcePreemption env x s) (forcePreemption env x t) := by
  rw [XpuShare.forcePreemption, XpuShare.forcePreemption, h.ctx]
  refine Retimed.foldl (fun hu c => ?_) _ h
  have hsent := hu.sendMessage env c .dropLock
  unfold preemptClient
  simp only [hu.sendSucceeds, hsent.currentTimeMs]
  split
  · exact hsent.tick.modifyClient c _
  · exact hsent

theorem Retimed.memUpdate (h : Retimed s t) (c : ClientId) (v : ℕ) :
    Retimed (memUpdate cfg env c v s) (memUpdate cfg env c v t) := by
  unfold XpuShare.memUpdate
  simp only [h.client, h.hasRegistered]
  split
  · exact h
  · rename_i x hctx
    have hstored : Retimed (storeMemory c v s) (storeMemory c v t) := h.modifyClient c _
    have hcounted : Retimed (accountMemory cfg x (s.client c).memoryAllocated v (storeMemory c v s))
        (accountMemory cfg x (s.client c).memoryAllocated v (storeMemory c v t)) :=
      hstored.modifyCtx x fun _ m => ⟨m, rfl⟩
    rw [h.ctx, hcounted.ctx]
    split
    · exact h
    · split
      · split
        · exact hcounted.forcePreemption x
        · exact hcounted
      · exact hstored

theorem Retimed.insertReq (h : Retimed s t) (c : ClientId) :
    Retimed (insertReq c s) (insertReq c t) := by
  unfold XpuShare.insertReq
  rw [h.client]
  split
  · exact h
  · rename_i x _
    rw [h.requests]
    split
    · exact h
    · exact h.modifyCtx x fun _ m => ⟨m, rfl⟩

theorem Retimed.reqLock (h : Retimed s t) (c : ClientId) :
    Option.Rel Retimed (reqLock cfg env fuel c s) (reqLock cfg env fuel c t) := by
  have hqueued : Retimed (XpuShare.insertReq c s) (XpuShare.insertReq c t) := h.insertReq c
  unfold XpuShare.reqLock
  rw [h.client]
  cases (s.client c).context with
  | none => exact h.delete c
  | some x =>
      simp only
      rw [hqueued.ctx]
      split
      · exact .some hqueued
      · exact hqueued.trySchedule fuel x

theorem Retimed.lockReleased (h : Retimed s t) (c : ClientId) :
    Option.Rel Retimed (lockReleased cfg env fuel c s) (lockReleased cfg env fuel c t) := by
  unfold XpuShare.lockReleased
  rw [h.client]
  cases (s.client c).context with
  | none => exact h.delete c
  | some x =>
      exact (h.removeReq (fun x _ _ h => h.trySchedule fuel x) c).bind fun h => h.scheduleIfFree x

/-- SET_TQ changes nothing but the quantum and the marks. -/
theorem retimed_setTq (v : ℤ) (s : Sched) : Retimed s (setTq v s) := by
  refine ⟨v, fun x => if x < s.nctx then true else (s.ctx x).mustResetTimer, ?_⟩
  have hctx : (fun x => if x < s.nctx then { s.ctx x with mustResetTimer := true } else s.ctx x) =
      fun x => { s.ctx x with
        mustResetTimer := if x < s.nctx then true else (s.ctx x).mustResetTimer } := by
    funext x
    by_cases hx : x < s.nctx
    · simp only [if_pos hx]
    · simp only [if_neg hx]
  exact congrArg (fun f => { s with tq := v, ctx := f }) hctx

theorem Retimed.trans {u : Sched} (h : Retimed s t) (h' : Retimed t u) : Retimed s u := by
  obtain ⟨v, b, rfl⟩ := h
  obtain ⟨v', b', rfl⟩ := h'
  exact ⟨v', b', rfl⟩

theorem Retimed.symm (h : Retimed s t) : Retimed t s := by
  obtain ⟨v, b, rfl⟩ := h
  exact ⟨s.tq, fun x => (s.ctx x).mustResetTimer, rfl⟩

theorem Retimed.processMsg (h : Retimed s t) (c : ClientId) (m : FromClient) :
    Option.Rel Retimed (processMsg cfg env fuel c m s) (processMsg cfg env fuel c m t) := by
  unfold XpuShare.processMsg
  cases m with
  | register m e =>
      obtain ⟨hanswer, hstate⟩ := h.registerClient cfg env c m e
      simp only
      rw [hanswer]
      split
      · exact .some hstate
      · exact hstate.delete c
  | schedOn =>
      simp only [h.schedulerOn]
      split
      · exact .some h
      · exact (h.setSchedulerOn true).bcastStatus
  | schedOff =>
      simp only [h.schedulerOn]
      split
      · exact (h.setSchedulerOn false).bcastStatus.map fun h => h.clearRequests
      · exact .some h
  | setTq v =>
      cases v with
      | some v => exact .some (((retimed_setTq v s).symm.trans h).trans (retimed_setTq v t))
      | none => exact .some h
  | reqLock =>
      simp only [h.hasRegistered, h.schedulerOn]
      split
      · exact h.delete c
      · split
        · exact h.reqLock c
        · exact .some h
  | lockReleased =>
      simp only [h.hasRegistered, h.schedulerOn]
      split
      · exact h.delete c
      · split
        · exact h.lockReleased c
        · exact .some h
  | memUpdate v => exact .some (h.memUpdate c v)
  | unknown => exact .some h

theorem Retimed.accept (h : Retimed s t) (garbage : Client) :
    Retimed (accept garbage s) (accept garbage t) := by
  obtain ⟨v, b, rfl⟩ := h
  exact ⟨v, b, rfl⟩

theorem Retimed.disconnect (h : Retimed s t) (c : ClientId) :
    Option.Rel Retimed (disconnect cfg env fuel c s) (disconnect cfg env fuel c t) := by
  unfold XpuShare.disconnect
  rw [h.client]
  refine (h.delete c).bind ?_
  intro u w hdeleted
  cases (s.client c).context with
  | none => exact .some hdeleted
  | some x =>
      simp only [hdeleted.schedulerOn]
      split
      · exact hdeleted.scheduleIfFree x
      · exact .some hdeleted

/-! ## Timer threads and the annotation watcher -/

theorem Retimed.minSleepMs (h : Retimed s t) (x : CtxId) (now : ℤ) :
    minSleepMs cfg t x now = minSleepMs cfg s x now := by
  obtain ⟨v, b, rfl⟩ := h
  rfl

theorem Retimed.timerBegin (h : Retimed s t) (x : CtxId) :
    Option.Rel Retimed (timerBegin cfg env fuel x s) (timerBegin cfg env fuel x t) := by
  obtain ⟨hanswer, hchecked⟩ := h.checkAndResetWindow cfg env x
  have hsleep : ∀ {u w}, Retimed u w →
      Retimed (timerSleep cfg env x u) (timerSleep cfg env x w) := by
    intro u w h
    unfold timerSleep
    rw [h.currentTimeMs, h.minSleepMs]
    exact h.tick.modifyCtx x fun _ m => ⟨m, rfl⟩
  unfold XpuShare.timerBegin
  simp only
  rw [hanswer]
  refine Option.Rel.map ?_ hsleep
  split
  · exact hchecked.trySchedule fuel x
  · exact .some hchecked

theorem Retimed.enforceLimits (h : Retimed s t) (x : CtxId) :
    Retimed (enforceLimits cfg env x s) (enforceLimits cfg env x t) := by
  rw [XpuShare.enforceLimits, XpuShare.enforceLimits, h.ctx, h.countRunningClients,
    h.currentTimeMs]
  refine Retimed.foldl (fun {u w} hu c => ?_) _ h.tick
  have htest : currentUsage w = currentUsage u := by
    obtain ⟨v, b, rfl⟩ := hu
    rfl
  have hquota : getEffectiveQuotaMs cfg w x c = getEffectiveQuotaMs cfg u x c := by
    obtain ⟨v, b, rfl⟩ := hu
    rfl
  unfold throttleClient
  simp only [hu.client, htest, hquota]
  split
  · exact (hu.modifyClient c _).sendMessage env c .dropLock
  · exact hu

theorem Retimed.rotateRunning (h : Retimed s t) (x : CtxId) :
    Retimed (rotateRunning env x s) (rotateRunning env x t) := by
  rw [XpuShare.rotateRunning, XpuShare.rotateRunning, h.ctx, h.countRunningClients,
    h.currentTimeMs]
  refine Retimed.foldl (fun {u w} hu c => ?_) _ h.tick
  unfold rotateClient
  simp only [hu.client]
  split
  · exact (hu.modifyClient c _).sendMessage env c .dropLock
  · exact hu

theorem Retimed.timerEnd (h : Retimed s t) (x : CtxId) (timedOut : Bool) :
    Retimed (timerEnd cfg env x timedOut s) (timerEnd cfg env x timedOut t) := by
  have henforced : Retimed (XpuShare.enforceLimits cfg env x s)
      (XpuShare.enforceLimits cfg env x t) := h.enforceLimits x
  have htest : quantumElapsed ((XpuShare.enforceLimits cfg env x t).ctx x) timedOut =
      quantumElapsed ((XpuShare.enforceLimits cfg env x s).ctx x) timedOut := by
    rw [henforced.ctx]
    rfl
  unfold XpuShare.timerEnd
  simp only
  rw [htest]
  refine Retimed.modifyCtx ?_ x fun _ _ => ⟨false, rfl⟩
  split
  · exact henforced.rotateRunning x
  · exact henforced

theorem Retimed.annotationUpdate (h : Retimed s t) (id : ℕ) (memory : Option ℕ)
    (core : Option ℤ) :
    Retimed (annotationUpdate env id memory core s) (annotationUpdate env id memory core t) := by
  unfold XpuShare.annotationUpdate
  rw [h.clients, h.client]
  split
  · rename_i c _
    have hmemory : Retimed (updateMemoryLimit env c memory s)
        (updateMemoryLimit env c memory t) := by
      unfold updateMemoryLimit
      rw [h.client]
      split
      · split
        · exact (h.modifyClient c _).sendMessage env c _
        · exact h
      · exact h
    unfold updateCoreLimit
    simp only [hmemory.client]
    split
    · exact (hmemory.modifyClient c _).sendMessage env c _
    · exact hmemory
  · exact h

/-! ## Runs -/

theorem Retimed.enabled (h : Retimed s t) (e : Event) : e.enabled t = e.enabled s := by
  obtain ⟨v, b, rfl⟩ := h
  cases e with
  | message c m => cases m <;> rfl
  | _ => rfl

theorem Retimed.handle (h : Retimed s t) (e : Event) :
    Option.Rel Retimed (handle cfg env fuel e s) (handle cfg env fuel e t) := by
  cases e with
  | accept garbage => exact .some (h.accept garbage)
  | message c m => exact h.processMsg c m
  | disconnect c => exact h.disconnect c
  | timerBegin x => exact h.timerBegin x
  | timerEnd x timedOut => exact .some (h.timerEnd x timedOut)
  | annotated id memory core => exact .some (h.annotationUpdate id memory core)

/-- One step from each of two states that agree but for the quantum and the marks. -/
theorem Retimed.tryStep (h : Retimed s t) (e : Event) :
    Option.Rel Retimed (tryStep cfg env (fun _ _ => True) fuel s e)
      (tryStep cfg env (fun _ _ => True) fuel t e) := by
  unfold XpuShare.tryStep
  rw [h.enabled]
  split
  · exact h.handle e
  · exact .none

end XpuShare
