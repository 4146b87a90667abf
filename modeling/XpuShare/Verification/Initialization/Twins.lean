import XpuShare.Verification.Scheduler.Fuel

/-! # Twin states

Two runs on different memory. Neither the accept path nor `register_client` writes the memory
usage, the run flag and the memory limit of a client. Two states are twins if they agree on
everything that has been written, and on the memory usage of the clients that wait or run.
Scheduling reads nothing else, so it keeps states twins. -/

namespace XpuShare

variable {cfg : Config} {env : Env} {s s' t u u' : Sched} {c d : ClientId} {x : CtxId}

/-! ## Records -/

/-- The part of a record that is known to have been written: the identifier, and the rest once
the client has registered, except the three fields that registration leaves alone. -/
def Client.written (r : Client) : Client :=
  match r.context with
  | none => { id := r.id }
  | some _ => { r with memoryAllocated := 0, isRunning := false, memoryLimit := 0 }

theorem Client.written_id (r : Client) : r.written.id = r.id := by
  unfold written
  split <;> rfl

theorem Client.written_context (r : Client) : r.written.context = r.context := by
  unfold written
  split
  · rename_i hnone
    exact hnone.symm
  · rfl

theorem Client.written_of_registered {r : Client} (h : r.context ≠ none) :
    r.written = { r with memoryAllocated := 0, isRunning := false, memoryLimit := 0 } := by
  obtain ⟨x, hx⟩ := Option.ne_none_iff_exists'.mp h
  simp only [written, hx]

/-- The three fields do not show in the written part of a record. -/
theorem Client.written_overwrite {r : Client} (h : r.context ≠ none) (memory : ℕ)
    (running : Bool) (limit : ℕ) :
    Client.written
      { r with memoryAllocated := memory, isRunning := running, memoryLimit := limit } =
      r.written := by
  obtain ⟨x, hx⟩ := Option.ne_none_iff_exists'.mp h
  simp only [written, hx]

/-- Registered records with the same written part differ in the three fields only. -/
theorem Client.eq_of_written {r r' : Client} (h : r'.written = r.written)
    (hctx : r.context ≠ none) :
    ∃ memory running limit, r' =
      { r with memoryAllocated := memory, isRunning := running, memoryLimit := limit } := by
  have hctx' : r'.context ≠ none := by
    rwa [← written_context r', h, written_context]
  rw [written_of_registered hctx, written_of_registered hctx'] at h
  have heq := congrArg (fun q : Client =>
    { q with
      memoryAllocated := r'.memoryAllocated, isRunning := r'.isRunning
      memoryLimit := r'.memoryLimit }) h
  exact ⟨_, _, _, heq⟩

/-! ## States -/

/-- `s'` is the state of a second run when `s` is that of the first. -/
structure Twins (s s' : Sched) : Prop where
  rest : { s' with client := s.client } = s
  client : ∀ c, (s'.client c).written = (s.client c).written
  shown : ∀ x, ∀ c ∈ (s.ctx x).entries, (s.client c).context ≠ none ∧
    (s'.client c).memoryAllocated = (s.client c).memoryAllocated

namespace Twins

section Fields

variable (h : Twins s s')

include h

theorem clients : s'.clients = s.clients := (congrArg Sched.clients h.rest :)
theorem nctx : s'.nctx = s.nctx := (congrArg Sched.nctx h.rest :)
theorem ctx : s'.ctx = s.ctx := (congrArg Sched.ctx h.rest :)
theorem schedulerOn : s'.schedulerOn = s.schedulerOn := (congrArg Sched.schedulerOn h.rest :)
theorem nalloc : s'.nalloc = s.nalloc := (congrArg Sched.nalloc h.rest :)
theorem ticks : s'.ticks = s.ticks := (congrArg Sched.ticks h.rest :)
theorem out : s'.out = s.out := (congrArg Sched.out h.rest :)

theorem id (c : ClientId) : (s'.client c).id = (s.client c).id := by
  rw [← Client.written_id, h.client, Client.written_id]

theorem context (c : ClientId) : (s'.client c).context = (s.client c).context := by
  rw [← Client.written_context, h.client, Client.written_context]

theorem hasRegistered (c : ClientId) : hasRegistered s' c = hasRegistered s c := by
  rw [XpuShare.hasRegistered, XpuShare.hasRegistered, h.id]

/-- The record of a registered client. -/
theorem record (hc : (s.client c).context ≠ none) : ∃ memory running limit, s'.client c =
    { s.client c with memoryAllocated := memory, isRunning := running, memoryLimit := limit } :=
  Client.eq_of_written (h.client c) hc

theorem coreLimit (hc : (s.client c).context ≠ none) :
    (s'.client c).coreLimit = (s.client c).coreLimit := by
  obtain ⟨_, _, _, heq⟩ := h.record hc
  rw [heq]

theorem currentTimeMs (env : Env) : currentTimeMs env s' = currentTimeMs env s := by
  rw [XpuShare.currentTimeMs, XpuShare.currentTimeMs, h.ticks]

theorem sendSucceeds (env : Env) (c : ClientId) :
    sendSucceeds env c s' = sendSucceeds env c s := by
  rw [XpuShare.sendSucceeds, XpuShare.sendSucceeds, h.out]

end Fields

theorem refl_init : Twins Sched.init Sched.init where
  rest := rfl
  client _ := rfl
  shown x c hc := by simp [Sched.init, GpuContext.entries] at hc

/-! ## Elementary changes -/

theorem tick (h : Twins s s') : Twins s.tick s'.tick where
  rest := congrArg Sched.tick h.rest
  client := h.client
  shown := h.shown

theorem sendMessage (h : Twins s s') (env : Env) (c : ClientId) (m : ToClient) :
    Twins (sendMessage env c m s) (sendMessage env c m s') where
  rest := congrArg (XpuShare.sendMessage env c m) h.rest
  client := h.client
  shown := h.shown

/-- The same change of a context in both runs, with entries of registered clients whose memory
usage has been written. -/
theorem modifyCtx_shown (h : Twins s s') (x : CtxId) {f : GpuContext → GpuContext}
    (hf : ∀ c ∈ (f (s.ctx x)).entries, (s.client c).context ≠ none ∧
      (s'.client c).memoryAllocated = (s.client c).memoryAllocated) :
    Twins (s.modifyCtx x f) (s'.modifyCtx x f) where
  rest := congrArg (fun u : Sched => u.modifyCtx x f) h.rest
  client := h.client
  shown y c hc := by
    rw [Sched.modifyCtx_ctx] at hc
    split at hc
    · exact hf c hc
    · exact h.shown y c hc

/-- The same with no entry of anyone new. -/
theorem modifyCtx (h : Twins s s') (x : CtxId) {f : GpuContext → GpuContext}
    (hf : ∀ c ∈ (f (s.ctx x)).entries, c ∈ (s.ctx x).entries) :
    Twins (s.modifyCtx x f) (s'.modifyCtx x f) :=
  h.modifyCtx_shown x fun c hc => h.shown x c (hf c hc)

/-- A change of a context that moves no entry. -/
theorem modifyCtx_same (h : Twins s s') (x : CtxId) {f : GpuContext → GpuContext}
    (hf : ∀ g, (f g).entries = g.entries) : Twins (s.modifyCtx x f) (s'.modifyCtx x f) :=
  h.modifyCtx x fun c hc => by rwa [hf] at hc

theorem modifyClient (h : Twins s s') {f f' : Client → Client}
    (hwritten : (f' (s'.client c)).written = (f (s.client c)).written)
    (hctx : (s.client c).context ≠ none → (f (s.client c)).context ≠ none)
    (hmemory : (s'.client c).memoryAllocated = (s.client c).memoryAllocated →
      (f' (s'.client c)).memoryAllocated = (f (s.client c)).memoryAllocated) :
    Twins (s.modifyClient c f) (s'.modifyClient c f') where
  rest := congrArg (fun u : Sched => { u with client := (s.modifyClient c f).client }) h.rest
  client d := by
    rw [Sched.modifyClient_client, Sched.modifyClient_client]
    split
    · exact hwritten
    · exact h.client d
  shown y d hd := by
    obtain ⟨hreg, hsame⟩ := h.shown y d hd
    rw [Sched.modifyClient_client, Sched.modifyClient_client]
    split
    · rename_i hdc
      rw [hdc] at hreg hsame
      exact ⟨hctx hreg, hmemory hsame⟩
    · exact ⟨hreg, hsame⟩

/-- The same change of a registered client's record in both runs. -/
theorem modifyRegistered (h : Twins s s') (hc : (s.client c).context ≠ none)
    {f : Client → Client} (hctx : ∀ r, (f r).context = r.context)
    (hf : ∀ (r : Client) memory running limit, ∃ memory' running' limit',
      f { r with memoryAllocated := memory, isRunning := running, memoryLimit := limit } =
        { f r with memoryAllocated := memory', isRunning := running', memoryLimit := limit' } ∧
      (memory = r.memoryAllocated → memory' = (f r).memoryAllocated)) :
    Twins (s.modifyClient c f) (s'.modifyClient c f) := by
  obtain ⟨memory, running, limit, heq⟩ := h.record hc
  obtain ⟨memory', running', limit', hnew, hmemory⟩ := hf (s.client c) memory running limit
  have hreg : (f (s.client c)).context ≠ none := by rwa [hctx]
  refine h.modifyClient ?_ (fun _ => hreg) fun hsame => ?_
  · rw [heq, hnew, Client.written_overwrite hreg]
  · rw [heq] at hsame ⊢
    rw [hnew]
    exact hmemory hsame

/-- A loop over clients that leaves the contexts alone. -/
theorem foldl {f : Sched → ClientId → Sched} {l : List ClientId}
    (hctx : ∀ u c, (f u c).ctx = u.ctx)
    (hf : ∀ u u' c, Twins u u' → u.ctx = s.ctx → c ∈ l → Twins (f u c) (f u' c))
    (h : Twins s s') : Twins (l.foldl f s) (l.foldl f s') := by
  induction l generalizing s s' with
  | nil => exact h
  | cons c l ih =>
      rw [List.foldl_cons, List.foldl_cons]
      refine ih (fun u u' d hu hsame hd => ?_) (hf s s' c h rfl List.mem_cons_self)
      exact hf u u' d hu (hsame.trans (hctx s c)) (List.mem_cons_of_mem c hd)

/-! ## Billing and windows -/

theorem countRunningClients (h : Twins s s') (x : CtxId) :
    countRunningClients s' x = countRunningClients s x :=
  countRunningClients_congr (by rw [h.ctx])
    fun c hc => h.coreLimit (h.shown x c (mem_entries_of_running hc)).1

theorem accrueClient (h : Twins s s') (hc : (s.client c).context ≠ none) (count now : ℤ)
    (exclude : Option ClientId) :
    Twins (accrueClient count now exclude s c) (accrueClient count now exclude s' c) := by
  obtain ⟨_, _, _, heq⟩ := h.record hc
  unfold XpuShare.accrueClient
  simp only [heq]
  split
  · exact h
  · exact h.modifyRegistered hc (fun _ => rfl)
      fun r memory running limit => ⟨memory, running, limit, rfl, fun h => h⟩

theorem accrueRunningUsage (h : Twins s s') (x : CtxId) (now : ℤ) (exclude : Option ClientId) :
    Twins (accrueRunningUsage x now exclude s) (accrueRunningUsage x now exclude s') := by
  unfold XpuShare.accrueRunningUsage
  rw [h.ctx, h.countRunningClients]
  refine h.foldl (fun u c => (accrueClient_shape _ now exclude u c).ctx) ?_
  intro u u' c hu hsame hc
  refine hu.accrueClient (hu.shown x c ?_).1 _ now exclude
  rw [hsame]
  exact mem_entries_of_running hc

theorem calculateTotalQuota (h : Twins s s') (x : CtxId) :
    calculateTotalQuota s' x = calculateTotalQuota s x := by
  have hfilter : (s'.clients.filter fun c =>
      (s'.client c).context = some x && (s'.client c).coreLimit < 100) =
      s.clients.filter fun c =>
        (s.client c).context = some x && (s.client c).coreLimit < 100 := by
    rw [h.clients]
    apply List.filter_congr
    intro c _
    by_cases hc : (s.client c).context = some x
    · rw [h.context, h.coreLimit (by simp [hc])]
    · simp [h.context, hc]
  have hmap : ((s.clients.filter fun c =>
      (s.client c).context = some x && (s.client c).coreLimit < 100).map
        fun c => (s'.client c).coreLimit) =
      (s.clients.filter fun c =>
        (s.client c).context = some x && (s.client c).coreLimit < 100).map
          fun c => (s.client c).coreLimit := by
    apply List.map_congr_left
    intro c hc
    have hctx : (s.client c).context = some x := by
      simp only [List.mem_filter, Bool.and_eq_true, decide_eq_true_eq] at hc
      exact hc.2.1
    exact h.coreLimit (by simp [hctx])
  simp only [XpuShare.calculateTotalQuota, hfilter, hmap]

theorem getEffectiveQuotaMs (h : Twins s s') (cfg : Config) (x : CtxId)
    (hc : (s.client c).context ≠ none) :
    getEffectiveQuotaMs cfg s' x c = getEffectiveQuotaMs cfg s x c := by
  rw [XpuShare.getEffectiveQuotaMs, XpuShare.getEffectiveQuotaMs, h.calculateTotalQuota,
    h.coreLimit hc]

theorem resetClient (h : Twins s s') (cfg : Config) (x : CtxId) (c : ClientId) :
    Twins (resetClient cfg x s c) (resetClient cfg x s' c) := by
  unfold XpuShare.resetClient
  rw [h.context]
  split
  · rename_i hctx
    have hc : (s.client c).context ≠ none := by simp [hctx]
    simp only [h.getEffectiveQuotaMs cfg x hc]
    exact h.modifyRegistered hc (fun _ => rfl)
      fun r memory running limit => ⟨memory, running, limit, rfl, fun h => h⟩
  · exact h

theorem resetWindow (h : Twins s s') (cfg : Config) (x : CtxId) (now : ℤ) :
    Twins (resetWindow cfg x now s) (resetWindow cfg x now s') := by
  have hbegun : Twins (s.modifyCtx x fun g => { g with windowStartMs := now })
      (s'.modifyCtx x fun g => { g with windowStartMs := now }) :=
    h.modifyCtx_same x fun _ => rfl
  unfold XpuShare.resetWindow
  simp only [Sched.modifyCtx_clients, h.clients]
  exact (hbegun.accrueRunningUsage x now none).foldl
    (fun u c => (resetClient_shape cfg x u c).ctx) fun u u' c hu _ _ => hu.resetClient cfg x c

theorem checkAndResetWindow (h : Twins s s') (cfg : Config) (env : Env) (x : CtxId) :
    (checkAndResetWindow cfg env x s').1 = (checkAndResetWindow cfg env x s).1 ∧
      Twins (checkAndResetWindow cfg env x s).2 (checkAndResetWindow cfg env x s').2 := by
  unfold XpuShare.checkAndResetWindow
  simp only [h.ctx, h.currentTimeMs]
  split
  · exact ⟨rfl, h.tick.resetWindow cfg x _⟩
  · refine ⟨rfl, ?_⟩
    dsimp only
    exact h.tick.modifyCtx_same x fun _ => rfl

theorem freshWindow (h : Twins s s') (cfg : Config) (env : Env) (x : CtxId) :
    Twins (freshWindow cfg env x s) (freshWindow cfg env x s') :=
  (h.checkAndResetWindow cfg env x).2

/-! ## Queues -/

theorem canRunTest (h : Twins s s') (cfg : Config) (hc : c ∈ (s.ctx x).entries) :
    canRunTest cfg s' x c = canRunTest cfg s x c := by
  obtain ⟨hreg, hmemory⟩ := h.shown x c hc
  have hfits : canRunWithMemory cfg s' x c = canRunWithMemory cfg s x c := by
    simp only [canRunWithMemory, h.ctx, hmemory]
  have hquota : quotaAllows cfg s' x c = quotaAllows cfg s x c := by
    obtain ⟨_, _, _, heq⟩ := h.record hreg
    simp only [quotaAllows, h.getEffectiveQuotaMs cfg x hreg, heq]
  rw [XpuShare.canRunTest, XpuShare.canRunTest, hfits, hquota]

theorem promote (h : Twins s s') (env : Env) {front back : List ClientId}
    (hwait : (s.ctx x).waitQueue = front ++ c :: back) :
    Twins (promote env x front c back s) (promote env x front c back s') := by
  refine (h.modifyCtx x fun d hd => ?_).sendMessage env c .memAvailable
  simp only [GpuContext.entries, List.mem_append, List.mem_cons, hwait] at hd ⊢
  tauto

theorem checkWaitQueueFrom (h : Twins s s') (cfg : Config) (env : Env)
    {front back : List ClientId} (hwait : (s.ctx x).waitQueue = front ++ back) :
    Twins (checkWaitQueueFrom cfg env x front back s)
      (checkWaitQueueFrom cfg env x front back s') := by
  induction back generalizing front s s' with
  | nil => exact h
  | cons c back ih =>
      have hfresh := h.freshWindow cfg env x
      have hwait' : ((XpuShare.freshWindow cfg env x s).ctx x).waitQueue = front ++ c :: back := by
        rw [freshWindow_waitQueue, hwait]
      have htest : (canRun cfg env x c s').1 = (canRun cfg env x c s).1 :=
        hfresh.canRunTest cfg (mem_entries_of_waitQueue (by rw [hwait']; simp))
      rw [XpuShare.checkWaitQueueFrom, XpuShare.checkWaitQueueFrom, htest]
      split
      · exact hfresh.promote env hwait'
      · exact ih hfresh (by simpa using hwait')

theorem checkWaitQueue (h : Twins s s') (cfg : Config) (env : Env) (x : CtxId) :
    Twins (checkWaitQueue cfg env x s) (checkWaitQueue cfg env x s') := by
  rw [XpuShare.checkWaitQueue, XpuShare.checkWaitQueue, h.ctx]
  exact h.checkWaitQueueFrom cfg env (by simp)

theorem refill (h : Twins s s') (cfg : Config) (env : Env) (x : CtxId) :
    Twins (refill cfg env x s) (refill cfg env x s') := by
  rw [XpuShare.refill, XpuShare.refill, h.ctx]
  split
  · exact h.checkWaitQueue cfg env x
  · exact h

theorem moveToWaitQueue (h : Twins s s') (env : Env) (hc : c ∈ (s.ctx x).requests) :
    Twins (moveToWaitQueue env x c s) (moveToWaitQueue env x c s') := by
  obtain ⟨_, _, _, heq⟩ := h.record (h.shown x c (mem_entries_of_requests hc)).1
  have hmoved : Twins
      (s.modifyCtx x fun g =>
        { g with requests := g.requests.erase c, waitQueue := g.waitQueue ++ [c] })
      (s'.modifyCtx x fun g =>
        { g with requests := g.requests.erase c, waitQueue := g.waitQueue ++ [c] }) := by
    refine h.modifyCtx x fun d hd => ?_
    simp only [GpuContext.entries, List.mem_append, List.mem_singleton] at hd ⊢
    rcases hd with (hd | hd | rfl) | hd
    · exact Or.inl (Or.inl (List.mem_of_mem_erase hd))
    · exact Or.inl (Or.inr hd)
    · exact Or.inl (Or.inl hc)
    · exact Or.inr hd
  unfold XpuShare.moveToWaitQueue
  simp only [h.ctx, heq]
  split
  · exact h
  · split
    · exact hmoved
    · exact hmoved.sendMessage env c .waitForMem

/-! ## Removal -/

theorem finalBill (h : Twins s s') (cfg : Config) (x : CtxId)
    (hc : (s.client c).context ≠ none) (now : ℤ) :
    finalBill cfg s' x c now = finalBill cfg s x c now := by
  obtain ⟨_, _, _, heq⟩ := h.record hc
  simp only [XpuShare.finalBill, heq, h.countRunningClients]

theorem releaseRunning (h : Twins s s') (cfg : Config) (env : Env)
    (hc : c ∈ (s.ctx x).runningList) :
    Twins (releaseRunning cfg env x c s) (releaseRunning cfg env x c s') := by
  have hmemory := (h.shown x c (mem_entries_of_running hc)).2
  have hgiven : Twins (giveBackMemory x (s.client c).memoryAllocated s)
      (giveBackMemory x (s'.client c).memoryAllocated s') := by
    rw [hmemory]
    exact h.modifyCtx_same x fun _ => rfl
  have hsettled := hgiven.tick.accrueRunningUsage x
    (XpuShare.currentTimeMs env (giveBackMemory x (s.client c).memoryAllocated s)) (some c)
  have hreg : ((XpuShare.accrueRunningUsage x
      (XpuShare.currentTimeMs env (giveBackMemory x (s.client c).memoryAllocated s)) (some c)
      (giveBackMemory x (s.client c).memoryAllocated s).tick).client c).context ≠ none := by
    refine (hsettled.shown x c (mem_entries_of_running ?_)).1
    simpa [giveBackMemory] using hc
  unfold XpuShare.releaseRunning
  simp only [hgiven.currentTimeMs env, hsettled.finalBill cfg x hreg]
  refine (hsettled.modifyRegistered hreg ?_ ?_).modifyCtx x fun d hd => ?_
  · exact fun _ => rfl
  · exact fun r memory running limit => ⟨memory, false, limit, rfl, fun h => h⟩
  · simp only [GpuContext.entries, List.mem_append] at hd ⊢
    rcases hd with hd | hd
    · exact Or.inl hd
    · exact Or.inr (List.mem_of_mem_erase hd)

theorem clearLock (h : Twins s s') (x : CtxId) : Twins (clearLock x s) (clearLock x s') := by
  unfold XpuShare.clearLock
  rw [h.ctx]
  split
  · exact h.modifyCtx_same x fun _ => rfl
  · exact h

theorem leaveRunning (h : Twins s s') (cfg : Config) (env : Env) (x : CtxId) (c : ClientId) :
    Twins (leaveRunning cfg env x c s) (leaveRunning cfg env x c s') := by
  unfold XpuShare.leaveRunning
  rw [h.ctx]
  split
  · rename_i hc
    exact (h.releaseRunning cfg env hc).clearLock x
  · exact h.clearLock x

theorem dropPending (h : Twins s s') (x : CtxId) (c : ClientId) :
    Twins (dropPending x c s) (dropPending x c s') := by
  refine h.modifyCtx x fun d hd => ?_
  simp only [GpuContext.entries, List.mem_append, List.mem_filter] at hd ⊢
  tauto

/-- Whenever `f` returns in the first run it returns in the second, and the states it returns
are twins. -/
def Follows (f : Sched → Option Sched) : Prop :=
  ∀ s s' t, Twins s s' → f s = some t → ∃ t', f s' = some t' ∧ Twins t t'

theorem removeReq {schedule : CtxId → Sched → Option Sched} (hsched : ∀ x, Follows (schedule x))
    (cfg : Config) (env : Env) (c : ClientId) : Follows (removeReq cfg env schedule c) := by
  intro s s' t h ht
  unfold XpuShare.removeReq at ht ⊢
  rw [h.context]
  split at ht
  · exact ⟨s', rfl, (Option.some.inj ht) ▸ h⟩
  · rename_i x hctx
    have hleft := h.leaveRunning cfg env x c
    simp only [hleft.ctx] at ht ⊢
    split at ht
    · rename_i hempty
      rw [Option.map_eq_some_iff] at ht
      obtain ⟨u, hu, rfl⟩ := ht
      obtain ⟨u', hu', hrest⟩ := hsched x _ _ u (hleft.checkWaitQueue cfg env x) hu
      exact ⟨_, by rw [if_pos hempty, hu']; rfl, hrest.dropPending x c⟩
    · rename_i hbusy
      rw [← Option.some.inj ht]
      exact ⟨_, by rw [if_neg hbusy], hleft.dropPending x c⟩

theorem unlinkClient (c : ClientId) : Follows (unlinkClient c) := by
  intro s s' t h ht
  unfold XpuShare.unlinkClient at ht ⊢
  rw [h.clients]
  split at ht
  · rename_i hc
    rw [← Option.some.inj ht]
    refine ⟨_, if_pos hc, ?_, h.client, h.shown⟩
    exact congrArg (fun u : Sched => { u with clients := s.clients.filter (· ≠ c) }) h.rest
  · cases ht

theorem deleteClient {schedule : CtxId → Sched → Option Sched}
    (hsched : ∀ x, Follows (schedule x)) (cfg : Config) (env : Env) (c : ClientId) :
    Follows (deleteClient cfg env schedule c) := by
  intro s s' t h ht
  rw [XpuShare.deleteClient, Option.bind_eq_some_iff] at ht
  obtain ⟨u, hu, hut⟩ := ht
  obtain ⟨u', hu', htwins⟩ := removeReq hsched cfg env c s s' u h hu
  obtain ⟨t', ht', hend⟩ := unlinkClient c u u' t htwins hut
  exact ⟨t', by rw [XpuShare.deleteClient, hu', Option.bind_some, ht'], hend⟩

/-! ## Scheduling -/

theorem settleRunners (h : Twins s s') (env : Env) (x : CtxId) :
    Twins (settleRunners env x s) (settleRunners env x s') := by
  unfold XpuShare.settleRunners
  rw [h.ctx, h.currentTimeMs]
  split
  · exact h
  · exact h.tick.accrueRunningUsage x _ none

theorem grant (h : Twins s s') (env : Env) (hc : c ∈ (s.ctx x).requests) :
    Twins (grant env x c s) (grant env x c s') := by
  have hsettled := h.settleRunners env x
  have hreq : c ∈ ((XpuShare.settleRunners env x s).ctx x).requests := by
    unfold XpuShare.settleRunners
    split
    · exact hc
    · simpa using hc
  unfold XpuShare.grant
  generalize XpuShare.settleRunners env x s = u at hsettled hreq ⊢
  generalize XpuShare.settleRunners env x s' = u' at hsettled ⊢
  have hmoved : Twins
      (u.modifyCtx x fun g =>
        { g with
          requests := g.requests.erase c
          runningList := g.runningList ++ [c]
          lockHeld := true, mustResetTimer := true })
      (u'.modifyCtx x fun g =>
        { g with
          requests := g.requests.erase c
          runningList := g.runningList ++ [c]
          lockHeld := true, mustResetTimer := true }) := by
    refine hsettled.modifyCtx x fun d hd => ?_
    simp only [GpuContext.entries, List.mem_append, List.mem_singleton] at hd ⊢
    rcases hd with (hd | hd) | hd | rfl
    · exact Or.inl (Or.inl (List.mem_of_mem_erase hd))
    · exact Or.inl (Or.inr hd)
    · exact Or.inr hd
    · exact Or.inl (Or.inl hreq)
  have hc' : c ∈ ((u.modifyCtx x fun g =>
      { g with
        requests := g.requests.erase c
        runningList := g.runningList ++ [c]
        lockHeld := true, mustResetTimer := true }).ctx x).entries := by
    simp [GpuContext.entries]
  have hgranted := hmoved.tick.modifyRegistered (hmoved.shown x c hc').1
    (f := fun r => { r with
      isRunning := true, pendingDrop := false, dropConcurrency := 1
      currentRunStartMs := XpuShare.currentTimeMs env (u.modifyCtx x fun g =>
        { g with
          requests := g.requests.erase c
          runningList := g.runningList ++ [c]
          lockHeld := true, mustResetTimer := true }) })
    (fun _ => rfl) fun r memory running limit => ⟨memory, true, limit, rfl, fun h => h⟩
  simp only [hmoved.currentTimeMs env, (hgranted.shown x c hc').2]
  exact hgranted.modifyCtx_same x fun _ => rfl

/-- `try_schedule` takes the same decisions in both runs. -/
theorem trySchedule (cfg : Config) (env : Env) (fuel : ℕ) (x : CtxId) :
    Follows (trySchedule cfg env fuel x) := by
  induction fuel generalizing x with
  | zero =>
      intro s s' t h ht
      cases ht
  | succ fuel ih =>
      intro s s' t h ht
      have hrefill := h.refill cfg env x
      generalize hr : XpuShare.refill cfg env x s = r at hrefill
      generalize hr' : XpuShare.refill cfg env x s' = r' at hrefill
      cases hreq : (r.ctx x).requests with
      | nil =>
          rw [trySchedule_of_nil hr hreq] at ht
          have hreq' : (r'.ctx x).requests = [] := by rw [hrefill.ctx, hreq]
          exact ⟨r', trySchedule_of_nil hr' hreq', (Option.some.inj ht) ▸ hrefill⟩
      | cons c rest =>
          have hreq' : (r'.ctx x).requests = c :: rest := by rw [hrefill.ctx, hreq]
          have hfresh := hrefill.freshWindow cfg env x
          have hhead : c ∈ ((XpuShare.freshWindow cfg env x r).ctx x).requests := by
            simp [hreq]
          generalize hf : XpuShare.freshWindow cfg env x r = f at hfresh hhead
          generalize hf' : XpuShare.freshWindow cfg env x r' = f' at hfresh
          have htest := hfresh.canRunTest cfg (mem_entries_of_requests hhead)
          cases hok : XpuShare.canRunTest cfg f x c with
          | false =>
              rw [trySchedule_of_defer hr hreq hf hok] at ht
              rw [trySchedule_of_defer hr' hreq' hf' (htest.trans hok)]
              exact ih x _ _ t (hfresh.moveToWaitQueue env hhead) ht
          | true =>
              have hsent := hfresh.sendMessage env c .lockOk
              have hsend' := hfresh.sendSucceeds env c
              cases hsend : XpuShare.sendSucceeds env c f with
              | true =>
                  have hgranted := hsent.grant env hhead
                  rw [trySchedule_of_grant hr hreq hf hok hsend] at ht
                  rw [trySchedule_of_grant hr' hreq' hf' (htest.trans hok) (hsend'.trans hsend)]
                  split at ht
                  · rename_i hserial
                    rw [if_pos hserial]
                    exact ⟨_, rfl, (Option.some.inj ht) ▸ hgranted⟩
                  · rename_i hserial
                    rw [if_neg hserial]
                    exact ih x _ _ t hgranted ht
              | false =>
                  rw [trySchedule_of_refuse hr hreq hf hok hsend, Option.bind_eq_some_iff] at ht
                  obtain ⟨u, hu, hut⟩ := ht
                  obtain ⟨u', hu', hgone⟩ := deleteClient ih cfg env c _ _ u hsent hu
                  obtain ⟨t', ht', hend⟩ := ih x u u' t hgone hut
                  refine ⟨t', ?_, hend⟩
                  rw [trySchedule_of_refuse hr' hreq' hf' (htest.trans hok)
                    (hsend'.trans hsend), hu', Option.bind_some, ht']

end Twins

end XpuShare
