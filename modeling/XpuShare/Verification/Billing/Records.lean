import XpuShare.Verification.Billing.Charges
import XpuShare.Verification.Queues.Correctness
import XpuShare.Verification.Scheduler.Solvency

/-! # Bills in the record of one client

The loops that bill visit each running client once, so that what a charge does to the
record of one client can be read off one pass of its loop. -/

namespace XpuShare

variable {cfg : Config} {env : Env} {x : CtxId} {s t : Sched} {c d : ClientId}

/-- A record after `accrue_running_usage` at `now` has come to it. -/
def Client.accrued (count now : ℤ) (r : Client) : Client :=
  if r.coreLimit < 100 ∧ r.pendingDrop = false ∧ 0 < r.currentRunStartMs ∧
      r.currentRunStartMs < now then
    { r with
      runTimeInWindowMs := r.runTimeInWindowMs + (now - r.currentRunStartMs).tdiv count
      currentRunStartMs := now }
  else r

theorem accrueClient_client (count now : ℤ) (exclude : Option ClientId) (s : Sched)
    (c : ClientId) : (accrueClient count now exclude s c).client c =
      if exclude = some c then s.client c else (s.client c).accrued count now := by
  unfold accrueClient Client.accrued
  by_cases hc : exclude = some c
  · simp [hc]
  · by_cases hbill : (s.client c).coreLimit < 100 ∧ (s.client c).pendingDrop = false ∧
        0 < (s.client c).currentRunStartMs ∧ (s.client c).currentRunStartMs < now
    · obtain ⟨hlimit, hdrop, hstart, hnow⟩ := hbill
      have hlimit' : ¬ 100 ≤ (s.client c).coreLimit := by omega
      have hstart' : ¬ (s.client c).currentRunStartMs ≤ 0 := by omega
      have hnow' : ¬ now - (s.client c).currentRunStartMs ≤ 0 := by omega
      simp [hc, hlimit, hlimit', hdrop, hstart, hstart', hnow, hnow']
    · rw [if_neg hc, if_neg hbill]
      simp only
      split
      · rfl
      · rename_i hskip
        simp only [Bool.or_eq_true, decide_eq_true_eq, not_or] at hskip
        exact absurd ⟨by omega, by simpa using hskip.1.1.2, by omega, by omega⟩ hbill

theorem accrueClient_client_ne (count now : ℤ) (exclude : Option ClientId) (s : Sched)
    (c d : ClientId) (h : d ≠ c) :
    (accrueClient count now exclude s c).client d = s.client d := by
  unfold accrueClient
  simp only
  split
  · rfl
  · exact Sched.modifyClient_client_ne _ _ _ _ h

/-- The record of a client after usage has been settled. -/
theorem accrueRunningUsage_client (hnodup : (s.ctx x).runningList.Nodup) (now : ℤ)
    (exclude : Option ClientId) (c : ClientId) :
    (accrueRunningUsage x now exclude s).client c =
      if c ∈ (s.ctx x).runningList ∧ exclude ≠ some c then
        (s.client c).accrued (countRunningClients s x) now
      else s.client c := by
  by_cases hc : c ∈ (s.ctx x).runningList
  · have hvisit := Loop.foldl_visit (π := Sched.client)
      (R := fun c r r' => r' = if exclude = some c then r
        else r.accrued (countRunningClients s x) now)
      (accrueClient_client_ne (countRunningClients s x) now exclude)
      (fun u d => accrueClient_client _ now exclude u d) hnodup hc s
    rw [accrueRunningUsage, hvisit]
    by_cases he : exclude = some c
    · simp [he]
    · simp [he, hc]
  · rw [accrue_client_of_notMem now exclude s hc, if_neg fun h => hc h.1]

/-! ## Windows -/

/-- A record after a window reset that carries `carry` over. -/
def Client.renewed (carry : ℤ) (r : Client) : Client :=
  { r with quotaDebtMs := carry, runTimeInWindowMs := carry, isThrottled := false }

theorem resetClient_client_ne (cfg : Config) (x : CtxId) (s : Sched) (c d : ClientId)
    (h : d ≠ c) : (resetClient cfg x s c).client d = s.client d := by
  unfold resetClient
  split
  · exact Sched.modifyClient_client_ne _ _ _ _ h
  · rfl

theorem resetClient_client (cfg : Config) (x : CtxId) (s : Sched) (c : ClientId) :
    ∃ carry, (resetClient cfg x s c).client c =
      if (s.client c).context = some x then (s.client c).renewed carry else s.client c := by
  unfold resetClient
  by_cases hc : (s.client c).context = some x
  · simp only [if_pos hc, Sched.modifyClient_client_self]
    exact ⟨_, rfl⟩
  · refine ⟨0, ?_⟩
    rw [if_neg hc, if_neg hc]

/-- The record of a client after the reset loop. -/
theorem resetClients_client (cfg : Config) (x : CtxId) {l : List ClientId} (hl : l.Nodup)
    (s : Sched) (c : ClientId) : ∃ carry, (l.foldl (resetClient cfg x) s).client c =
      if c ∈ l ∧ (s.client c).context = some x then (s.client c).renewed carry
      else s.client c := by
  by_cases hc : c ∈ l
  · simp only [hc, true_and]
    exact Loop.foldl_visit (π := Sched.client)
      (R := fun _ r r' => ∃ carry, r' = if r.context = some x then r.renewed carry else r)
      (resetClient_client_ne cfg x) (resetClient_client cfg x) hl hc s
  · refine ⟨0, ?_⟩
    rw [Loop.foldl_unvisited (π := Sched.client) (resetClient_client_ne cfg x) hc,
      if_neg fun h => hc h.1]

/-- The record of a client after the clients running on `x` have been settled at `now`. -/
def settledRecord (x : CtxId) (now : ℤ) (s : Sched) (c : ClientId) : Client :=
  if c ∈ (s.ctx x).runningList then (s.client c).accrued (countRunningClients s x) now
  else s.client c

/-- Settling in a state with the same running list and the same records. -/
theorem accrue_client_of_same {u : Sched} (hnodup : (s.ctx x).runningList.Nodup)
    (hrun : (u.ctx x).runningList = (s.ctx x).runningList) (hclient : u.client = s.client)
    (now : ℤ) (exclude : Option ClientId) (c : ClientId) :
    (accrueRunningUsage x now exclude u).client c =
      if exclude = some c then s.client c else settledRecord x now s c := by
  have hcount : countRunningClients u x = countRunningClients s x :=
    countRunningClients_congr hrun fun d _ => by rw [hclient]
  rw [accrueRunningUsage_client (by rwa [hrun]), hrun, hclient, hcount, settledRecord]
  by_cases he : exclude = some c
  · simp [he]
  · simp [he]

theorem accrue_begun (hnodup : (s.ctx x).runningList.Nodup) (now start : ℤ) (c : ClientId) :
    (accrueRunningUsage x now none
      (s.tick.modifyCtx x fun g => { g with windowStartMs := start })).client c =
      settledRecord x now s c := by
  rw [accrue_client_of_same hnodup (s := s)]
  · simp
  · simp
  · rfl

theorem accrued_context (count now : ℤ) (r : Client) :
    (r.accrued count now).context = r.context := by
  unfold Client.accrued
  split <;> rfl

theorem settledRecord_context (x : CtxId) (now : ℤ) (s : Sched) (c : ClientId) :
    (settledRecord x now s c).context = (s.client c).context := by
  unfold settledRecord
  split
  · exact accrued_context _ _ _
  · rfl

/-- What settling does to a record: it moves the start of the run forward and bills at most
the time in between. -/
theorem settledRecord_spec (x : CtxId) (now : ℤ) (s : Sched) (c : ClientId) :
    ∃ start bill, settledRecord x now s c =
        { s.client c with
          runTimeInWindowMs := (s.client c).runTimeInWindowMs + bill
          currentRunStartMs := start } ∧
      0 ≤ bill ∧ bill ≤ start - (s.client c).currentRunStartMs ∧
      (start = (s.client c).currentRunStartMs ∨ start = now) := by
  have hsame : ∃ start bill, s.client c =
        { s.client c with
          runTimeInWindowMs := (s.client c).runTimeInWindowMs + bill
          currentRunStartMs := start } ∧
      0 ≤ bill ∧ bill ≤ start - (s.client c).currentRunStartMs ∧
      (start = (s.client c).currentRunStartMs ∨ start = now) :=
    ⟨(s.client c).currentRunStartMs, 0, by simp, le_rfl, by simp, Or.inl rfl⟩
  unfold settledRecord
  split
  · unfold Client.accrued
    split
    · rename_i hbill
      have hduration : 0 ≤ now - (s.client c).currentRunStartMs := by omega
      exact ⟨now, _, rfl, Int.tdiv_nonneg hduration (countRunningClients_pos s x).le,
        Int.tdiv_le_self _ hduration, Or.inr rfl⟩
    · exact hsame
  · exact hsame

theorem freshWindow_client_open
    (h : windowExpired cfg (s.ctx x) (currentTimeMs env s) = false) :
    (freshWindow cfg env x s).client = s.client := by
  simp [freshWindow, checkAndResetWindow, h]

/-- The record of a client after the window of a context has expired. -/
theorem freshWindow_client_expired (hrun : (s.ctx x).runningList.Nodup)
    (hclients : s.clients.Nodup)
    (h : windowExpired cfg (s.ctx x) (currentTimeMs env s) = true) (c : ClientId) :
    ∃ carry, (freshWindow cfg env x s).client c =
      if c ∈ s.clients ∧ (s.client c).context = some x then
        (settledRecord x (currentTimeMs env s) s c).renewed carry
      else settledRecord x (currentTimeMs env s) s c := by
  have hfresh : freshWindow cfg env x s = resetWindow cfg x (currentTimeMs env s) s.tick := by
    simp [freshWindow, checkAndResetWindow, h]
  obtain ⟨carry, hcarry⟩ := resetClients_client cfg x hclients
    (accrueRunningUsage x (currentTimeMs env s) none
      (s.tick.modifyCtx x fun g => { g with windowStartMs := currentTimeMs env s })) c
  refine ⟨carry, ?_⟩
  rw [accrue_begun hrun, settledRecord_context] at hcarry
  rw [hfresh]
  exact hcarry

theorem freshWindow_start_open
    (h : windowExpired cfg (s.ctx x) (currentTimeMs env s) = false) :
    ((freshWindow cfg env x s).ctx x).windowStartMs =
      windowStartAt (s.ctx x) (currentTimeMs env s) := by
  simp [freshWindow, checkAndResetWindow, h]

theorem freshWindow_start_expired
    (h : windowExpired cfg (s.ctx x) (currentTimeMs env s) = true) :
    ((freshWindow cfg env x s).ctx x).windowStartMs = currentTimeMs env s := by
  have hfresh : freshWindow cfg env x s = resetWindow cfg x (currentTimeMs env s) s.tick := by
    simp [freshWindow, checkAndResetWindow, h]
  have hshape := SameShape.foldl (resetClient_shape cfg x) s.clients
    (accrueRunningUsage x (currentTimeMs env s) none
      (s.tick.modifyCtx x fun g => { g with windowStartMs := currentTimeMs env s }))
  have hctx := congrFun hshape.ctx x
  rw [accrue_ctx, Sched.modifyCtx_ctx_self] at hctx
  rw [hfresh]
  exact congrArg GpuContext.windowStartMs hctx

theorem freshWindowMeter_open
    (h : windowExpired cfg (s.ctx x) (currentTimeMs env s) = false) :
    freshWindowMeter cfg env x s = 0 := by
  simp [freshWindowMeter, h]

theorem freshWindowMeter_expired (hrun : (s.ctx x).runningList.Nodup)
    (h : windowExpired cfg (s.ctx x) (currentTimeMs env s) = true) (c : ClientId) :
    freshWindowMeter cfg env x s c =
      ((settledRecord x (currentTimeMs env s) s c).runTimeInWindowMs -
        (s.client c).runTimeInWindowMs, 0) := by
  simp only [freshWindowMeter, h, if_true, added]
  rw [accrue_begun hrun]
  rfl

/-! ## Grants and releases -/

theorem settleRunners_client (hrun : (s.ctx x).runningList.Nodup) (c d : ClientId) :
    (settleRunners env x (sendMessage env c .lockOk s)).client d =
      settledRecord x (currentTimeMs env s) s d := by
  unfold settleRunners
  by_cases hnil : (s.ctx x).runningList = []
  · simp [hnil, settledRecord]
  · have hsettled := accrue_client_of_same (u := (sendMessage env c .lockOk s).tick) hrun rfl rfl
      (currentTimeMs env s) none d
    rw [if_neg (by simp)] at hsettled
    rw [if_neg (show ¬ ((sendMessage env c .lockOk s).ctx x).runningList = [] from hnil)]
    exact hsettled

/-- The record of a client after the lock has been granted to `c`. -/
theorem grant_client (hrun : (s.ctx x).runningList.Nodup) (c d : ClientId) :
    (grant env x c (sendMessage env c .lockOk s)).client d =
      if d = c then
        { settledRecord x (currentTimeMs env s) s c with
          isRunning := true, pendingDrop := false, dropConcurrency := 1
          currentRunStartMs :=
            currentTimeMs env (settleRunners env x (sendMessage env c .lockOk s)) }
      else settledRecord x (currentTimeMs env s) s d := by
  unfold grant
  simp only [Sched.modifyCtx_client, Sched.modifyClient_client, Sched.tick_client]
  rw [settleRunners_client hrun, settleRunners_client hrun]
  rfl

theorem grantMeter_apply (hrun : (s.ctx x).runningList.Nodup) (c d : ClientId) :
    grantMeter env x c (sendMessage env c .lockOk s) d =
      ((settledRecord x (currentTimeMs env s) s d).runTimeInWindowMs -
        (s.client d).runTimeInWindowMs,
       if d = c then -currentTimeMs env (settleRunners env x (sendMessage env c .lockOk s))
       else 0) := by
  simp only [grantMeter, Pi.add_apply, added, entering, Pi.single_apply,
    settleRunners_client hrun]
  split <;> simp

theorem finalBill_congr (hclient : t.client c = s.client c)
    (hcount : countRunningClients t x = countRunningClients s x) (now : ℤ) :
    finalBill cfg t x c now = finalBill cfg s x c now := by
  simp only [finalBill, hclient, hcount]

/-- The records after `remove_req` has settled the clients that run beside `c`. -/
theorem settleBeside_client (hrun : (s.ctx x).runningList.Nodup) (memory : ℕ) (now : ℤ)
    (c d : ClientId) :
    (accrueRunningUsage x now (some c) (giveBackMemory x memory s).tick).client d =
      if d = c then s.client c else settledRecord x now s d := by
  rw [accrue_client_of_same hrun (s := s)]
  · by_cases hd : d = c
    · simp [hd]
    · simp [hd, Ne.symm hd]
  · simp [giveBackMemory]
  · rfl

/-- The record of a client after `c` has been billed and unlinked. -/
theorem releaseRunning_client (cfg : Config) (hrun : (s.ctx x).runningList.Nodup)
    (c d : ClientId) :
    (releaseRunning cfg env x c s).client d =
      if d = c then
        { s.client c with
          runTimeInWindowMs := (s.client c).runTimeInWindowMs +
            finalBill cfg s x c (currentTimeMs env s)
          lastDropSentMs := if 0 < (s.client c).lastDropSentMs then 0
            else (s.client c).lastDropSentMs
          pendingDrop := false, dropConcurrency := 1, isRunning := false }
      else settledRecord x (currentTimeMs env s) s d := by
  have hnow : currentTimeMs env (giveBackMemory x (s.client c).memoryAllocated s)
      = currentTimeMs env s := rfl
  have hclient := settleBeside_client hrun (s.client c).memoryAllocated (currentTimeMs env s) c
  have hself := hclient c
  rw [if_pos rfl] at hself
  have hcount : countRunningClients (accrueRunningUsage x (currentTimeMs env s) (some c)
      (giveBackMemory x (s.client c).memoryAllocated s).tick) x = countRunningClients s x := by
    refine countRunningClients_congr (by simp [giveBackMemory]) fun d _ => ?_
    exact coreLimit_of_static (static_of_unbilled (accrue_unbilled _ _ _ _ d))
  unfold releaseRunning
  simp only [Sched.modifyCtx_client, Sched.modifyClient_client, hnow]
  rw [finalBill_congr hself hcount, hself, hclient d]
  by_cases hd : d = c
  · simp [hd]
  · simp [hd]

/-- The record of a client after `c` has left the running list. -/
theorem leaveRunning_client (cfg : Config) (env : Env) (hc : c ∈ (s.ctx x).runningList) :
    (leaveRunning cfg env x c s).client = (releaseRunning cfg env x c s).client := by
  unfold leaveRunning clearLock
  rw [if_pos hc]
  split <;> rfl

theorem leaveRunningMeter_apply (cfg : Config) (env : Env) (hrun : (s.ctx x).runningList.Nodup)
    (hc : c ∈ (s.ctx x).runningList) (d : ClientId) :
    leaveRunningMeter cfg env x c s d =
      if d = c then (finalBill cfg s x c (currentTimeMs env s), currentTimeMs env s)
      else ((settledRecord x (currentTimeMs env s) s d).runTimeInWindowMs -
        (s.client d).runTimeInWindowMs, 0) := by
  simp only [leaveRunningMeter, hc, if_true, Pi.add_apply, added, leaving, Pi.single_apply,
    releaseRunning_client cfg hrun]
  by_cases hd : d = c
  · simp [hd]
  · simp [hd]

/-! ## The timer -/

/-- The throttling step leaves a record alone, or bills it and starts the tail. -/
def Throttled (count now : ℤ) (r r' : Client) : Prop :=
  r' = r ∨ r.coreLimit < 100 ∧ r.pendingDrop = false ∧
    r' = { r with
      isThrottled := true, pendingDrop := true
      dropConcurrency := count
      runTimeInWindowMs := r.runTimeInWindowMs + (now - r.currentRunStartMs).tdiv count
      currentRunStartMs := now, lastDropSentMs := now }

theorem throttleClient_client (cfg : Config) (env : Env) (x : CtxId) {count : ℤ}
    (hcount : 0 < count) (now : ℤ) (s : Sched) (c : ClientId) :
    Throttled count now (s.client c) ((throttleClient cfg env x count now s c).client c) := by
  unfold throttleClient
  simp only
  split
  · rename_i hover
    refine Or.inr ⟨hover.1, by simpa using hover.2.2.1, ?_⟩
    simp [currentUsage]
  · exact Or.inl rfl

theorem throttleClient_client_ne (cfg : Config) (env : Env) (x : CtxId) (count now : ℤ)
    (s : Sched) (c d : ClientId) (h : d ≠ c) :
    (throttleClient cfg env x count now s c).client d = s.client d := by
  unfold throttleClient
  simp only
  split
  · rw [sendMessage_client, Sched.modifyClient_client_ne _ _ _ _ h]
  · rfl

/-- Rotation leaves a record alone, or notes that its client is to drop the lock. -/
def Rotated (count now : ℤ) (r r' : Client) : Prop :=
  r' = r ∨ r.lastDropSentMs = 0 ∧
    r' = { r with pendingDrop := true, dropConcurrency := count, lastDropSentMs := now }

theorem rotateClient_client (env : Env) {count : ℤ} (hcount : 0 < count) (now : ℤ) (s : Sched)
    (c : ClientId) :
    Rotated count now (s.client c) ((rotateClient env count now s c).client c) := by
  unfold rotateClient
  simp only
  split
  · rename_i hrotate
    refine Or.inr ⟨hrotate.2, ?_⟩
    simp
  · exact Or.inl rfl

theorem rotateClient_client_ne (env : Env) (count now : ℤ) (s : Sched) (c d : ClientId)
    (h : d ≠ c) : (rotateClient env count now s c).client d = s.client d := by
  unfold rotateClient
  simp only
  split
  · rw [sendMessage_client, Sched.modifyClient_client_ne _ _ _ _ h]
  · rfl

theorem enforceLimits_client (cfg : Config) (env : Env) (hrun : (s.ctx x).runningList.Nodup)
    (c : ClientId) :
    (c ∈ (s.ctx x).runningList → Throttled (countRunningClients s x) (currentTimeMs env s)
      (s.client c) ((enforceLimits cfg env x s).client c)) ∧
    (c ∉ (s.ctx x).runningList → (enforceLimits cfg env x s).client c = s.client c) := by
  refine ⟨fun hc => ?_, fun hc => ?_⟩
  · exact Loop.foldl_visit (π := Sched.client) (R := fun _ => Throttled _ _)
      (throttleClient_client_ne cfg env x _ _)
      (throttleClient_client cfg env x (countRunningClients_pos s x) _) hrun hc s.tick
  · exact Loop.foldl_unvisited (π := Sched.client) (throttleClient_client_ne cfg env x _ _) hc
      s.tick

theorem rotateRunning_client (env : Env) (hrun : (s.ctx x).runningList.Nodup) (c : ClientId) :
    (c ∈ (s.ctx x).runningList → Rotated (countRunningClients s x) (currentTimeMs env s)
      (s.client c) ((rotateRunning env x s).client c)) ∧
    (c ∉ (s.ctx x).runningList → (rotateRunning env x s).client c = s.client c) := by
  refine ⟨fun hc => ?_, fun hc => ?_⟩
  · exact Loop.foldl_visit (π := Sched.client) (R := fun _ => Rotated _ _)
      (rotateClient_client_ne env _ _) (rotateClient_client env (countRunningClients_pos s x) _)
      hrun hc s.tick
  · exact Loop.foldl_unvisited (π := Sched.client) (rotateClient_client_ne env _ _) hc s.tick

/-! ## Annotations -/

/-- An update of one client's annotations changes limits of that client only. -/
theorem annotationUpdate_client (env : Env) (id : ℕ) (memory : Option ℕ) (core : Option ℤ)
    (s : Sched) (c : ClientId) :
    ∃ memoryLimit coreLimit,
      (annotationUpdate env id memory core s).client c =
        { s.client c with memoryLimit := memoryLimit, coreLimit := coreLimit } ∧
      (coreLimit = (s.client c).coreLimit ∨
        (s.clients.find? fun c => (s.client c).id = id) = some c ∧
          coreLimit = annotatedCoreLimit core) := by
  unfold annotationUpdate
  split
  · rename_i d hfind
    have hmemory : ∃ memoryLimit, (updateMemoryLimit env d memory s).client =
        Function.update s.client d { s.client d with memoryLimit := memoryLimit } := by
      unfold updateMemoryLimit
      split
      · split
        · exact ⟨_, rfl⟩
        · exact ⟨(s.client d).memoryLimit, by simp⟩
      · exact ⟨(s.client d).memoryLimit, by simp⟩
    obtain ⟨memoryLimit, hmemory⟩ := hmemory
    unfold updateCoreLimit
    simp only
    by_cases hc : c = d
    · subst hc
      split
      · refine ⟨memoryLimit, annotatedCoreLimit core, ?_, Or.inr ⟨hfind, rfl⟩⟩
        simp [hmemory]
      · refine ⟨memoryLimit, _, ?_, Or.inl rfl⟩
        simp [hmemory]
    · have hrest : (updateMemoryLimit env d memory s).client c = s.client c := by
        simp [hmemory, hc]
      split
      · rw [sendMessage_client, Sched.modifyClient_client_ne _ _ _ _ hc, hrest]
        exact ⟨_, _, rfl, Or.inl rfl⟩
      · rw [hrest]
        exact ⟨_, _, rfl, Or.inl rfl⟩
  · exact ⟨_, _, rfl, Or.inl rfl⟩

/-- An update of annotations touches nothing but records and messages. -/
theorem annotationUpdate_rest (env : Env) (id : ℕ) (memory : Option ℕ) (core : Option ℤ)
    (s : Sched) :
    (annotationUpdate env id memory core s).ctx = s.ctx ∧
      (annotationUpdate env id memory core s).clients = s.clients ∧
      (annotationUpdate env id memory core s).nalloc = s.nalloc ∧
      (annotationUpdate env id memory core s).ticks = s.ticks := by
  have hmemory : ∀ c, (updateMemoryLimit env c memory s).ctx = s.ctx ∧
      (updateMemoryLimit env c memory s).clients = s.clients ∧
      (updateMemoryLimit env c memory s).nalloc = s.nalloc ∧
      (updateMemoryLimit env c memory s).ticks = s.ticks := by
    intro c
    unfold updateMemoryLimit
    split
    · split <;> exact ⟨rfl, rfl, rfl, rfl⟩
    · exact ⟨rfl, rfl, rfl, rfl⟩
  unfold annotationUpdate
  split
  · unfold updateCoreLimit
    simp only
    split
    · exact hmemory _
    · exact hmemory _
  · exact ⟨rfl, rfl, rfl, rfl⟩

/-! ## Registration -/

theorem enrol_ticks (cfg : Config) (c : ClientId) (m : RegisterMsg) (e : RegisterEnv)
    (s : Sched) : (enrol cfg c m e s).ticks = s.ticks := by
  unfold enrol getOrCreateGpuContext
  split <;> rfl

/-- A context that registration creates has no running clients, before or after. -/
theorem enrol_running (hwf : WellFormed s) (c : ClientId) (m : RegisterMsg) (e : RegisterEnv)
    (y : CtxId) : ((enrol cfg c m e s).ctx y).runningList = (s.ctx y).runningList := by
  obtain ⟨x, -, -, -, -, -, -, -, hctx⟩ := enrol_spec cfg c m e s
  rcases hctx with ⟨-, hctx⟩ | ⟨hx, hctx⟩
  · rw [hctx]
  · rw [hctx, Function.update_apply]
    split
    · rename_i hy
      symm
      apply List.eq_nil_iff_forall_not_mem.mpr
      intro d hd
      have hlt := hwf.context_lt d y (hwf.belongs y d (mem_entries_of_running hd))
      rw [hy, hx] at hlt
      exact Nat.lt_irrefl _ hlt
    · rfl

/-! ## Running lists and clock readings -/

section Lists

variable (cfg env) (x y : CtxId) (c : ClientId) (s : Sched)

theorem freshWindow_running :
    ((freshWindow cfg env x s).ctx y).runningList = (s.ctx y).runningList := by
  by_cases hy : y = x
  · rw [hy, freshWindow_runningList]
  · rw [freshWindow_ctx_ne cfg env x s hy]

theorem grant_running :
    ((grant env x c (sendMessage env c .lockOk s)).ctx y).runningList =
      if y = x then (s.ctx x).runningList ++ [c] else (s.ctx y).runningList := by
  have hsettle : (settleRunners env x (sendMessage env c .lockOk s)).ctx = s.ctx := by
    unfold settleRunners
    split <;> simp
  by_cases hy : y = x
  · simp [grant, hsettle, hy]
  · simp [grant, hsettle, hy]

theorem grant_windowStart :
    ((grant env x c (sendMessage env c .lockOk s)).ctx y).windowStartMs =
      (s.ctx y).windowStartMs := by
  have hsettle : (settleRunners env x (sendMessage env c .lockOk s)).ctx = s.ctx := by
    unfold settleRunners
    split <;> simp
  by_cases hy : y = x
  · simp [grant, hsettle, hy]
  · simp [grant, hsettle, hy]

theorem leaveRunning_windowStart :
    ((leaveRunning cfg env x c s).ctx y).windowStartMs = (s.ctx y).windowStartMs := by
  by_cases hy : y = x
  · subst hy
    unfold leaveRunning clearLock
    split <;> split <;> simp [releaseRunning, giveBackMemory]
  · have hblock : Block cfg env anyone x s (leaveRunning cfg env x c s) := .leave s c trivial
    rw [hblock.frame.ctx_ne y hy]

theorem leaveRunning_running :
    ((leaveRunning cfg env x c s).ctx y).runningList =
      if y = x then (s.ctx x).runningList.erase c else (s.ctx y).runningList := by
  have hblock : Block cfg env anyone x s (leaveRunning cfg env x c s) := .leave s c trivial
  by_cases hy : y = x
  · rw [hy, if_pos rfl]
    exact leaveRunning_erases cfg env x c s
  · rw [if_neg hy, hblock.frame.ctx_ne y hy]

theorem enforceLimits_running :
    ((enforceLimits cfg env x s).ctx y).runningList = (s.ctx y).runningList :=
  (enforceLimits_tuned cfg env x s).runningList y

theorem rotateRunning_running :
    ((rotateRunning env x s).ctx y).runningList = (s.ctx y).runningList :=
  (rotateRunning_tuned env x s).runningList y

theorem enforceLimits_windowStart :
    ((enforceLimits cfg env x s).ctx y).windowStartMs = (s.ctx y).windowStartMs :=
  (congrArg GpuContext.windowStartMs ((enforceLimits_tuned cfg env x s).ctx y) :)

theorem rotateRunning_windowStart :
    ((rotateRunning env x s).ctx y).windowStartMs = (s.ctx y).windowStartMs :=
  (congrArg GpuContext.windowStartMs ((rotateRunning_tuned env x s).ctx y) :)

theorem freshWindow_ticks : (freshWindow cfg env x s).ticks = s.ticks + 1 := by
  obtain ⟨start, h⟩ := freshWindow_spec cfg env x s
  rw [h.ticks]
  rfl

theorem settleRunners_ticks : s.ticks ≤ (settleRunners env x s).ticks := by
  unfold settleRunners
  split
  · exact le_rfl
  · rw [(accrueRunningUsage_shape x _ none _).ticks]
    exact Nat.le_succ _

theorem grant_ticks : (grant env x c s).ticks = (settleRunners env x s).ticks + 1 := rfl

theorem releaseRunning_ticks : (releaseRunning cfg env x c s).ticks = s.ticks + 1 :=
  (accrueRunningUsage_shape x _ (some c) _).ticks

theorem leaveRunning_ticks (hc : c ∈ (s.ctx x).runningList) :
    (leaveRunning cfg env x c s).ticks = s.ticks + 1 := by
  rw [← releaseRunning_ticks cfg env x c s]
  unfold leaveRunning clearLock
  rw [if_pos hc]
  split <;> rfl

theorem enforceLimits_ticks : (enforceLimits cfg env x s).ticks = s.ticks + 1 := by
  refine List.foldlRecOn (motive := fun t : Sched => t.ticks = s.ticks + 1) _ _ rfl ?_
  intro t ht d _
  unfold throttleClient
  simp only
  split <;> exact ht

theorem rotateRunning_ticks : (rotateRunning env x s).ticks = s.ticks + 1 := by
  refine List.foldlRecOn (motive := fun t : Sched => t.ticks = s.ticks + 1) _ _ rfl ?_
  intro t ht d _
  unfold rotateClient
  simp only
  split <;> exact ht

end Lists

/-- The value that the clock showed last. -/
def lastReading (env : Env) (s : Sched) : ℤ := env.clock (s.ticks - 1)

section Readings

variable (hclock : Monotone env.clock)

include hclock

theorem lastReading_mono (h : s.ticks ≤ t.ticks) : lastReading env s ≤ lastReading env t :=
  hclock (by omega)

theorem lastReading_le_clock {n : ℕ} (h : s.ticks ≤ n + 1) : lastReading env s ≤ env.clock n :=
  hclock (by omega)

theorem clock_le_lastReading {n : ℕ} (h : n < t.ticks) : env.clock n ≤ lastReading env t :=
  hclock (by omega)

end Readings

end XpuShare
