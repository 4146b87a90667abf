import XpuShare.Lib.LockTable
import XpuShare.Verification.Scheduler.Equations

/-! # Effects on one context

Every scheduling function works on the lock table of one context. `Effect` says what such
a function makes of the table, the lock flag, the memory total, the run flags and the
messages, and that the rest of the state is left alone; one lemma for each function. -/

namespace XpuShare

variable (cfg : Config) (env : Env)

/-- The lock table of a context. -/
def GpuContext.table (g : GpuContext) : LockTable ClientId :=
  ⟨g.requests, g.waitQueue, g.runningList⟩

/-- The fields of a context that scheduling leaves alone. -/
def GpuContext.fixed (g : GpuContext) : GpuContext :=
  { g with
    requests := [], waitQueue := [], runningList := [], lockHeld := false
    mustResetTimer := false, runningMemoryUsage := 0, windowStartMs := 0 }

/-- What scheduling on context `x` never touches. -/
structure Frame (x : CtxId) (s t : Sched) : Prop where
  nctx : t.nctx = s.nctx
  schedulerOn : t.schedulerOn = s.schedulerOn
  tq : t.tq = s.tq
  nalloc : t.nalloc = s.nalloc
  ctx_ne : ∀ y, y ≠ x → t.ctx y = s.ctx y
  fixed : (t.ctx x).fixed = (s.ctx x).fixed
  static : ∀ c, (t.client c).static = (s.client c).static
  others : ∀ c, c ∉ (s.ctx x).entries → (s.client c).context ≠ some x →
    t.client c = s.client c

/-- A scheduling effect: the table, lock flag, memory total, run flags and client list of
the state after it, and the messages it sends. -/
structure Effect (x : CtxId) (s t : Sched) (table : LockTable ClientId) (lock : Bool)
    (memory : ℕ) (run : ClientId → Bool) (clients : List ClientId) (sent : List Sent) :
    Prop extends Frame x s t where
  table_eq : (t.ctx x).table = table
  lock_eq : (t.ctx x).lockHeld = lock
  memory_eq : (t.ctx x).runningMemoryUsage = memory
  run_eq : ∀ c, (t.client c).isRunning = run c
  clients_eq : t.clients = clients
  out_eq : t.out = s.out ++ sent

/-- The run flags of a state. -/
def runFlags (s : Sched) (c : ClientId) : Bool := (s.client c).isRunning

/-! ## Windows -/

theorem resetClient_others {x : CtxId} {c d : ClientId} (s : Sched)
    (h : (s.client c).context ≠ some x) : (resetClient cfg x s d).client c = s.client c := by
  unfold resetClient
  split
  · rename_i hd
    have hne : c ≠ d := fun he => h (he ▸ hd)
    exact Sched.modifyClient_client_ne _ _ _ _ hne
  · rfl

theorem resetWindow_others {x : CtxId} {c : ClientId} (now : ℤ) (s : Sched)
    (hrun : c ∉ (s.ctx x).runningList) (h : (s.client c).context ≠ some x) :
    (resetWindow cfg x now s).client c = s.client c := by
  unfold resetWindow
  refine List.foldlRecOn (motive := fun t : Sched => t.client c = s.client c) _ _ ?_ ?_
  · exact accrue_client_of_notMem now none _ (by simpa using hrun)
  · intro t ht d _
    rw [resetClient_others cfg t (ht ▸ h), ht]

theorem freshWindow_others {x : CtxId} {c : ClientId} (s : Sched)
    (hrun : c ∉ (s.ctx x).runningList) (h : (s.client c).context ≠ some x) :
    (freshWindow cfg env x s).client c = s.client c := by
  unfold freshWindow checkAndResetWindow
  simp only
  split
  · exact resetWindow_others cfg _ _ hrun h
  · rfl

theorem freshWindow_effect (x : CtxId) (s : Sched) :
    Effect x s (freshWindow cfg env x s) (s.ctx x).table (s.ctx x).lockHeld
      (s.ctx x).runningMemoryUsage (runFlags s) s.clients [] where
  nctx := by simp
  schedulerOn := by simp
  tq := by simp
  nalloc := by simp
  ctx_ne y hy := by simp [hy]
  fixed := freshWindow_field cfg env x s GpuContext.fixed fun _ _ => rfl
  static c := static_of_unbilled (freshWindow_unbilled cfg env x s c)
  others c hc h := by
    refine freshWindow_others cfg env s (fun hr => hc ?_) h
    simp [GpuContext.entries, hr]
  table_eq := freshWindow_field cfg env x s GpuContext.table fun _ _ => rfl
  lock_eq := by simp
  memory_eq := by simp
  run_eq c := isRunning_of_unbilled (freshWindow_unbilled cfg env x s c)
  clients_eq := by simp
  out_eq := by simp

/-! ## Queue moves -/

/-- A function that changes one context, reads the clock and sends messages. -/
theorem Effect.ofCtx {x : CtxId} {s t : Sched} (f : GpuContext → GpuContext)
    {sent : List Sent} (hf : (f (s.ctx x)).fixed = (s.ctx x).fixed)
    (hctx : t.ctx = Function.update s.ctx x (f (s.ctx x)))
    (hrest : { t with ctx := s.ctx, out := s.out, ticks := s.ticks, exited := s.exited } = s)
    (hout : t.out = s.out ++ sent) :
    Effect x s t (f (s.ctx x)).table (f (s.ctx x)).lockHeld
      (f (s.ctx x)).runningMemoryUsage (runFlags s) s.clients sent where
  nctx := (congrArg Sched.nctx hrest :)
  schedulerOn := (congrArg Sched.schedulerOn hrest :)
  tq := (congrArg Sched.tq hrest :)
  nalloc := (congrArg Sched.nalloc hrest :)
  ctx_ne y hy := by rw [hctx, Function.update_of_ne hy]
  fixed := by simpa [hctx] using hf
  static c := (congrArg (fun u : Sched => (u.client c).static) hrest :)
  others c _ _ := (congrArg (fun u : Sched => u.client c) hrest :)
  table_eq := by simp [hctx]
  lock_eq := by simp [hctx]
  memory_eq := by simp [hctx]
  run_eq c := (congrArg (fun u : Sched => (u.client c).isRunning) hrest :)
  clients_eq := (congrArg Sched.clients hrest :)
  out_eq := hout

/-- A function that only reads the clock and sends messages. -/
theorem Effect.ofSends {x : CtxId} {s t : Sched} {sent : List Sent}
    (hrest : { t with out := s.out, ticks := s.ticks, exited := s.exited } = s)
    (hout : t.out = s.out ++ sent) :
    Effect x s t (s.ctx x).table (s.ctx x).lockHeld (s.ctx x).runningMemoryUsage (runFlags s)
      s.clients sent := by
  have hctx : t.ctx = s.ctx := (congrArg Sched.ctx hrest :)
  refine Effect.ofCtx id rfl ?_ ?_ hout
  · simp [hctx]
  · rw [← hctx]
    exact hrest

theorem sendMessage_effect (x : CtxId) (c : ClientId) (m : ToClient) (s : Sched) :
    Effect x s (sendMessage env c m s) (s.ctx x).table (s.ctx x).lockHeld
      (s.ctx x).runningMemoryUsage (runFlags s) s.clients
      [⟨c, m, sendSucceeds env c s⟩] :=
  Effect.ofSends rfl rfl

/-- The messages `move_to_wait_queue` sends: none to a throttled client. -/
def deferNotice (c : ClientId) (s : Sched) : List Sent :=
  if (s.client c).coreLimit < 100 ∧ (s.client c).isThrottled then []
  else [⟨c, .waitForMem, sendSucceeds env c s⟩]

theorem moveToWaitQueue_of_mem {x : CtxId} {c : ClientId} {s : Sched}
    (h : c ∈ (s.ctx x).waitQueue) : moveToWaitQueue env x c s = s := by
  simp [moveToWaitQueue, h]

theorem moveToWaitQueue_client (x : CtxId) (c : ClientId) (s : Sched) :
    (moveToWaitQueue env x c s).client = s.client := by
  unfold moveToWaitQueue
  simp only
  split
  · rfl
  · split <;> rfl

theorem moveToWaitQueue_effect {x : CtxId} {c : ClientId} {s : Sched}
    (h : c ∉ (s.ctx x).waitQueue) :
    Effect x s (moveToWaitQueue env x c s) ((s.ctx x).table.defer c) (s.ctx x).lockHeld
      (s.ctx x).runningMemoryUsage (runFlags s) s.clients (deferNotice env c s) := by
  unfold moveToWaitQueue deferNotice
  simp only [h, if_false]
  by_cases ht : (s.client c).coreLimit < 100 ∧ (s.client c).isThrottled
  · rw [if_pos ht, if_pos ht]
    exact Effect.ofCtx (fun g =>
      { g with requests := g.requests.erase c, waitQueue := g.waitQueue ++ [c] })
      rfl rfl rfl (by simp)
  · rw [if_neg ht, if_neg ht]
    exact Effect.ofCtx (fun g =>
      { g with requests := g.requests.erase c, waitQueue := g.waitQueue ++ [c] })
      rfl rfl rfl rfl

theorem promote_effect (x : CtxId) (front : List ClientId) (c : ClientId)
    (back : List ClientId) (s : Sched) :
    Effect x s (promote env x front c back s) ((s.ctx x).table.promote front c back)
      (s.ctx x).lockHeld (s.ctx x).runningMemoryUsage (runFlags s) s.clients
      [⟨c, .memAvailable, sendSucceeds env c s⟩] :=
  Effect.ofCtx (fun g => { g with requests := c :: g.requests, waitQueue := front ++ back })
    rfl rfl rfl rfl

theorem dropPending_effect (x : CtxId) (c : ClientId) (s : Sched) :
    Effect x s (dropPending x c s) ((s.ctx x).table.withdraw c) (s.ctx x).lockHeld
      (s.ctx x).runningMemoryUsage (runFlags s) s.clients [] :=
  Effect.ofCtx (fun g =>
    { g with
      requests := g.requests.filter (· ≠ c)
      waitQueue := g.waitQueue.filter (· ≠ c) }) rfl rfl rfl (by simp [dropPending])

/-- The lock flag after `clearLock`. -/
def clearedLock (g : GpuContext) : Bool := !g.runningList.isEmpty && g.lockHeld

theorem clearLock_effect (x : CtxId) (s : Sched) :
    Effect x s (clearLock x s) (s.ctx x).table (clearedLock (s.ctx x))
      (s.ctx x).runningMemoryUsage (runFlags s) s.clients [] := by
  unfold clearLock clearedLock
  by_cases h : (s.ctx x).runningList = []
  · have hlock : (!(s.ctx x).runningList.isEmpty && (s.ctx x).lockHeld) = false := by simp [h]
    rw [if_pos h, hlock]
    exact Effect.ofCtx (fun g => { g with lockHeld := false }) rfl rfl rfl (by simp)
  · have hlock : (!(s.ctx x).runningList.isEmpty && (s.ctx x).lockHeld)
        = (s.ctx x).lockHeld := by simp [h]
    rw [if_neg h, hlock]
    exact Effect.ofSends rfl (by simp)

/-! ## Grants and releases -/

theorem Effect.trans {x : CtxId} {s t u : Sched} {table table' : LockTable ClientId}
    {lock lock' : Bool} {memory memory' : ℕ} {run run' : ClientId → Bool}
    {clients clients' : List ClientId} {sent sent' : List Sent}
    (h : Effect x s t table lock memory run clients sent)
    (h' : Effect x t u table' lock' memory' run' clients' sent')
    (hsub : ∀ c ∈ (t.ctx x).entries, c ∈ (s.ctx x).entries) :
    Effect x s u table' lock' memory' run' clients' (sent ++ sent') where
  nctx := h'.nctx.trans h.nctx
  schedulerOn := h'.schedulerOn.trans h.schedulerOn
  tq := h'.tq.trans h.tq
  nalloc := h'.nalloc.trans h.nalloc
  ctx_ne y hy := (h'.ctx_ne y hy).trans (h.ctx_ne y hy)
  fixed := h'.fixed.trans h.fixed
  static c := (h'.static c).trans (h.static c)
  others c hc hctx := by
    have hctx' : (t.client c).context ≠ some x := by
      rwa [context_of_static (h.static c)]
    rw [h'.others c (fun ht => hc (hsub c ht)) hctx', h.others c hc hctx]
  table_eq := h'.table_eq
  lock_eq := h'.lock_eq
  memory_eq := h'.memory_eq
  run_eq := h'.run_eq
  clients_eq := h'.clients_eq
  out_eq := by rw [h'.out_eq, h.out_eq, List.append_assoc]

/-- A function that changes one context and the record of one of its clients. -/
theorem Effect.ofClient {x : CtxId} {c : ClientId} {s t : Sched}
    (f : GpuContext → GpuContext) (r : Client) {sent : List Sent}
    (hc : c ∈ (s.ctx x).entries) (hf : (f (s.ctx x)).fixed = (s.ctx x).fixed)
    (hr : r.static = (s.client c).static)
    (hctx : t.ctx = Function.update s.ctx x (f (s.ctx x)))
    (hclient : t.client = Function.update s.client c r)
    (hrest : { t with
      ctx := s.ctx, client := s.client, out := s.out, ticks := s.ticks
      exited := s.exited } = s)
    (hout : t.out = s.out ++ sent) :
    Effect x s t (f (s.ctx x)).table (f (s.ctx x)).lockHeld
      (f (s.ctx x)).runningMemoryUsage (Function.update (runFlags s) c r.isRunning)
      s.clients sent where
  nctx := (congrArg Sched.nctx hrest :)
  schedulerOn := (congrArg Sched.schedulerOn hrest :)
  tq := (congrArg Sched.tq hrest :)
  nalloc := (congrArg Sched.nalloc hrest :)
  ctx_ne y hy := by rw [hctx, Function.update_of_ne hy]
  fixed := by simpa [hctx] using hf
  static d := by
    rw [hclient]
    by_cases hd : d = c
    · subst hd
      simpa using hr
    · simp [hd]
  others d hd _ := by
    have hne : d ≠ c := fun he => hd (he ▸ hc)
    rw [hclient, Function.update_of_ne hne]
  table_eq := by simp [hctx]
  lock_eq := by simp [hctx]
  memory_eq := by simp [hctx]
  run_eq d := by
    rw [hclient]
    by_cases hd : d = c
    · subst hd
      simp
    · simp [hd, runFlags]
  clients_eq := (congrArg Sched.clients hrest :)
  out_eq := hout

/-- Settling usage at a clock reading. -/
theorem accrue_effect (x : CtxId) (now : ℤ) (exclude : Option ClientId) (s : Sched) :
    Effect x s (accrueRunningUsage x now exclude s.tick) (s.ctx x).table (s.ctx x).lockHeld
      (s.ctx x).runningMemoryUsage (runFlags s) s.clients [] where
  nctx := by simp
  schedulerOn := by simp
  tq := by simp
  nalloc := by simp
  ctx_ne y _ := by simp
  fixed := by simp
  static c := static_of_unbilled (accrue_unbilled x now exclude s.tick c)
  others c hc _ := by
    refine accrue_client_of_notMem now exclude s.tick fun hr => hc ?_
    exact List.mem_append_right _ hr
  table_eq := by simp
  lock_eq := by simp
  memory_eq := by simp
  run_eq c := isRunning_of_unbilled (accrue_unbilled x now exclude s.tick c)
  clients_eq := by simp
  out_eq := by simp

theorem settleRunners_effect (x : CtxId) (s : Sched) :
    Effect x s (settleRunners env x s) (s.ctx x).table (s.ctx x).lockHeld
      (s.ctx x).runningMemoryUsage (runFlags s) s.clients [] := by
  unfold settleRunners
  split
  · exact Effect.ofSends rfl (by simp)
  · exact accrue_effect x _ none s

/-- Membership in the queues only depends on the table. -/
theorem entries_of_table {g g' : GpuContext} (h : g'.table = g.table) :
    g'.entries = g.entries :=
  congrArg LockTable.entries h

theorem grant_effect {x : CtxId} {c : ClientId} {s : Sched} (hc : c ∈ (s.ctx x).entries) :
    Effect x s (grant env x c s) ((s.ctx x).table.enter c) true
      (((s.ctx x).runningMemoryUsage + (s.client c).memoryAllocated) % sizeMod)
      (Function.update (runFlags s) c true) s.clients [] := by
  have hsettle := settleRunners_effect env x s
  generalize hu : settleRunners env x s = u at hsettle
  have hent := entries_of_table hsettle.table_eq
  have hstep := Effect.ofClient (x := x) (c := c) (s := u) (t := grant env x c s)
    (fun g => { g with
      requests := g.requests.erase c
      runningList := g.runningList ++ [c]
      lockHeld := true, mustResetTimer := true
      runningMemoryUsage := (g.runningMemoryUsage + (u.client c).memoryAllocated) % sizeMod })
    { u.client c with
      isRunning := true, pendingDrop := false, dropConcurrency := 1
      currentRunStartMs := currentTimeMs env u }
    (hent ▸ hc) rfl rfl
    (by simp [grant, hu, Sched.modifyCtx, Sched.modifyClient])
    (by simp [grant, hu, Sched.modifyCtx, Sched.modifyClient, currentTimeMs])
    (by simp [grant, hu, Sched.modifyCtx, Sched.modifyClient, Sched.tick])
    (show (grant env x c s).out = u.out ++ [] by simp [grant, hu])
  have htable : (u.ctx x).table.enter c = (s.ctx x).table.enter c := by rw [hsettle.table_eq]
  have hmem : (u.client c).memoryAllocated = (s.client c).memoryAllocated :=
    memory_of_static (hsettle.static c)
  have hflags : runFlags u = runFlags s := funext hsettle.run_eq
  have htotal := hsettle.trans hstep fun d hd => hent ▸ hd
  rw [← htable, ← hmem, ← hsettle.memory_eq, ← hflags, ← hsettle.clients_eq]
  exact htotal

/-- The running total after `memory` bytes are given back. -/
def memoryAfter (g : GpuContext) (memory : ℕ) : ℕ :=
  if memory ≤ g.runningMemoryUsage then g.runningMemoryUsage - memory else 0

theorem giveBackMemory_effect (x : CtxId) (memory : ℕ) (s : Sched) :
    Effect x s (giveBackMemory x memory s) (s.ctx x).table (s.ctx x).lockHeld
      (memoryAfter (s.ctx x) memory) (runFlags s) s.clients [] :=
  Effect.ofCtx (fun g => { g with runningMemoryUsage := memoryAfter g memory })
    rfl rfl rfl (by simp [giveBackMemory])

theorem releaseRunning_effect {x : CtxId} {c : ClientId} {s : Sched}
    (hc : c ∈ (s.ctx x).entries) :
    Effect x s (releaseRunning cfg env x c s) ((s.ctx x).table.release c) (s.ctx x).lockHeld
      (memoryAfter (s.ctx x) (s.client c).memoryAllocated)
      (Function.update (runFlags s) c false) s.clients [] := by
  have hgive := giveBackMemory_effect x (s.client c).memoryAllocated s
  generalize hv : giveBackMemory x (s.client c).memoryAllocated s = v at hgive
  have haccrue := accrue_effect x (currentTimeMs env v) (some c) v
  generalize hu : accrueRunningUsage x (currentTimeMs env v) (some c) v.tick = u at haccrue
  have hgiven := entries_of_table hgive.table_eq
  have hbilled := entries_of_table haccrue.table_eq
  have hfirst := hgive.trans haccrue fun d hd => hgiven ▸ hd
  have hent := hbilled.trans hgiven
  have hstep := Effect.ofClient (x := x) (c := c) (s := u) (t := releaseRunning cfg env x c s)
    (fun g => { g with runningList := g.runningList.erase c })
    { u.client c with
      runTimeInWindowMs := (u.client c).runTimeInWindowMs +
        finalBill cfg u x c (currentTimeMs env v)
      lastDropSentMs := if 0 < (u.client c).lastDropSentMs then 0
        else (u.client c).lastDropSentMs
      pendingDrop := false, dropConcurrency := 1, isRunning := false }
    (hent ▸ hc) rfl rfl
    (by simp [releaseRunning, hv, hu, Sched.modifyCtx, Sched.modifyClient])
    (by simp [releaseRunning, hv, hu, Sched.modifyCtx, Sched.modifyClient])
    (by simp [releaseRunning, hv, hu, Sched.modifyCtx, Sched.modifyClient])
    (show (releaseRunning cfg env x c s).out = u.out ++ [] by simp [releaseRunning, hv, hu])
  have htotal := hfirst.trans hstep fun d hd => hent ▸ hd
  have htable := haccrue.table_eq.trans hgive.table_eq
  have hlock := haccrue.lock_eq.trans hgive.lock_eq
  have hmemory := haccrue.memory_eq.trans hgive.memory_eq
  have hflags : runFlags u = runFlags s := by
    funext d
    exact (haccrue.run_eq d).trans (hgive.run_eq d)
  have hclients := haccrue.clients_eq.trans hgive.clients_eq
  rw [← htable, ← hlock, ← hflags, ← hclients, ← hmemory]
  exact htotal

end XpuShare
