import XpuShare.Model.State

/-! # Scheduling functions

The functions of `scheduler.c` that admit, queue, bill and remove clients, in the order
of the source. `delete_client`, `remove_req` and `try_schedule` call one another. Here
`removeReq` and `deleteClient` take the scheduling call as an argument, and `trySchedule`
closes the recursion on a fuel that pays for each pass through its loop. A result `none`
is a call that does not return: the fuel ran out or the process exited. -/

namespace XpuShare

variable (cfg : Config) (env : Env)

/-! ## Clock and sockets -/

/-- The value the next `current_time_ms()` returns. -/
def currentTimeMs (s : Sched) : ℤ := env.clock s.ticks

/-- The state after one clock reading. -/
def Sched.tick (s : Sched) : Sched := { s with ticks := s.ticks + 1 }

/-- Whether the next `send_message` to `c` succeeds. -/
def sendSucceeds (c : ClientId) (s : Sched) : Bool := env.sendOk s.out.length c

/-- The state after a `send_message`. The socket of a client that has been deleted is closed,
and a send to it ends the process. -/
def sendMessage (c : ClientId) (m : ToClient) (s : Sched) : Sched :=
  { s with
    out := s.out ++ [⟨c, m, sendSucceeds env c s⟩]
    exited := s.exited || decide (c ∉ s.clients) }

/-- A send to a connected client. -/
theorem sendMessage_of_mem {c : ClientId} {s : Sched} (h : c ∈ s.clients) (m : ToClient) :
    sendMessage env c m s = { s with out := s.out ++ [⟨c, m, sendSucceeds env c s⟩] } := by
  simp [sendMessage, h]

def hasRegistered (s : Sched) (c : ClientId) : Bool := (s.client c).id != unregisteredId

/-! ## Compute quotas -/

def calculateTotalQuota (s : Sched) (x : CtxId) : ℤ :=
  let limited := s.clients.filter fun c =>
    (s.client c).context = some x && (s.client c).coreLimit < 100
  let total := (limited.map fun c => (s.client c).coreLimit).sum
  if 0 < total then total else 100

def countRunningClients (s : Sched) (x : CtxId) : ℤ :=
  let count := (s.ctx x).runningList.countP fun c => (s.client c).coreLimit < 100
  if 0 < count then count else 1

/-- The body of the loop of `accrue_running_usage`. -/
def accrueClient (count now : ℤ) (exclude : Option ClientId) (s : Sched) (c : ClientId) :
    Sched :=
  let r := s.client c
  let duration := now - r.currentRunStartMs
  if exclude = some c || 100 ≤ r.coreLimit || r.pendingDrop || r.currentRunStartMs ≤ 0
      || duration ≤ 0 then s
  else s.modifyClient c fun r =>
    { r with
      runTimeInWindowMs := r.runTimeInWindowMs + duration.tdiv count
      currentRunStartMs := now }

def accrueRunningUsage (x : CtxId) (now : ℤ) (exclude : Option ClientId) (s : Sched) : Sched :=
  (s.ctx x).runningList.foldl (accrueClient (countRunningClients s x) now exclude) s

def getEffectiveQuotaMs (s : Sched) (x : CtxId) (c : ClientId) : ℤ :=
  let total := calculateTotalQuota s x
  let base := (cfg.computeWindowMs * (s.client c).coreLimit).tdiv 100
  if total ≤ 100 then base else (base * 100).tdiv total

/-- The body of the reset loop of `check_and_reset_window`. -/
def resetClient (x : CtxId) (s : Sched) (c : ClientId) : Sched :=
  if (s.client c).context = some x then
    let limit := getEffectiveQuotaMs cfg s x c
    s.modifyClient c fun r =>
      let excess := r.runTimeInWindowMs - limit
      let carry := if r.coreLimit < 100 ∧ 0 < excess then
        (excess * cfg.quotaCarryoverPercent).tdiv 100 else 0
      { r with quotaDebtMs := carry, runTimeInWindowMs := carry, isThrottled := false }
  else s

/-- Start of the current window; a context that has none yet starts one now. -/
def windowStartAt (g : GpuContext) (now : ℤ) : ℤ :=
  if g.windowStartMs = 0 then now else g.windowStartMs

/-- Whether the current window has run its full length at time `now`. -/
def windowExpired (g : GpuContext) (now : ℤ) : Bool :=
  cfg.computeWindowMs ≤ now - windowStartAt g now

/-- The effect of `check_and_reset_window` on an expired window. -/
def resetWindow (x : CtxId) (now : ℤ) (s : Sched) : Sched :=
  let s := s.modifyCtx x fun g => { g with windowStartMs := now }
  s.clients.foldl (resetClient cfg x) (accrueRunningUsage x now none s)

/-- `check_and_reset_window`: whether the window was reset, and the state after it. -/
def checkAndResetWindow (x : CtxId) (s : Sched) : Bool × Sched :=
  let now := currentTimeMs env s
  if windowExpired cfg (s.ctx x) now then (true, resetWindow cfg x now s.tick)
  else (false, s.tick.modifyCtx x fun g => { g with windowStartMs := windowStartAt g now })

/-! ## Admission -/

/-- The expression `total_memory * (100 - memory_reserve_percent) / 100`: the difference is
an `int`, which the product converts to `size_t`. -/
def safeLimitOf (totalMemory : ℕ) (memoryReservePercent : ℤ) : ℕ :=
  totalMemory * toSizeT (toInt32 (100 - memoryReservePercent)) % sizeMod / 100

def safeLimit (g : GpuContext) : ℕ := safeLimitOf g.totalMemory cfg.memoryReservePercent

def canRunWithMemory (s : Sched) (x : CtxId) (c : ClientId) : Bool :=
  let g := s.ctx x
  let needed := (g.runningMemoryUsage + (s.client c).memoryAllocated) % sizeMod
  if g.memoryOverloaded then !g.lockHeld
  else match cfg.schedulingMode with
    | .serial => !g.lockHeld
    | .concurrent => g.runningMemoryUsage = 0 || needed ≤ safeLimit cfg g
    | .auto => g.runningMemoryUsage = 0 || needed ≤ safeLimit cfg g || !g.lockHeld

/-- The compute-quota test of `can_run`. -/
def quotaAllows (s : Sched) (x : CtxId) (c : ClientId) : Bool :=
  let r := s.client c
  100 ≤ r.coreLimit
    || (!r.isThrottled && r.runTimeInWindowMs < getEffectiveQuotaMs cfg s x c)

/-- The answer of `can_run` once the window is fresh. -/
def canRunTest (s : Sched) (x : CtxId) (c : ClientId) : Bool :=
  quotaAllows cfg s x c && canRunWithMemory cfg s x c

/-- The window check with which `can_run` begins. -/
def freshWindow (x : CtxId) (s : Sched) : Sched := (checkAndResetWindow cfg env x s).2

/-- `can_run`: the answer and the state after it. -/
def canRun (x : CtxId) (c : ClientId) (s : Sched) : Bool × Sched :=
  let s := freshWindow cfg env x s
  (canRunTest cfg s x c, s)

/-! ## Queues -/

def insertReq (c : ClientId) (s : Sched) : Sched :=
  match (s.client c).context with
  | none => s
  | some x =>
      if c ∈ (s.ctx x).requests then s
      else s.modifyCtx x fun g => { g with requests := g.requests ++ [c] }

/-- `move_to_wait_queue` for the request of `c` at the head of the queue. -/
def moveToWaitQueue (x : CtxId) (c : ClientId) (s : Sched) : Sched :=
  if c ∈ (s.ctx x).waitQueue then s
  else
    let moved := s.modifyCtx x fun g =>
      { g with requests := g.requests.erase c, waitQueue := g.waitQueue ++ [c] }
    if (s.client c).coreLimit < 100 ∧ (s.client c).isThrottled then moved
    else sendMessage env c .waitForMem moved

/-- The promotion of the request of `c`, which stands between `front` and `back` in the
wait queue. -/
def promote (x : CtxId) (front : List ClientId) (c : ClientId) (back : List ClientId)
    (s : Sched) : Sched :=
  sendMessage env c .memAvailable (s.modifyCtx x fun g =>
    { g with requests := c :: g.requests, waitQueue := front ++ back })

/-- The loop of `check_wait_queue`; `front` has been refused already. -/
def checkWaitQueueFrom (x : CtxId) : List ClientId → List ClientId → Sched → Sched
  | _, [], s => s
  | front, c :: back, s =>
      if (canRun cfg env x c s).1 then promote env x front c back (canRun cfg env x c s).2
      else checkWaitQueueFrom x (front ++ [c]) back (canRun cfg env x c s).2

def checkWaitQueue (x : CtxId) (s : Sched) : Sched :=
  checkWaitQueueFrom cfg env x [] (s.ctx x).waitQueue s

/-! ## Removal -/

/-- The amount `remove_req` bills for the run that ends at `now`. -/
def finalBill (s : Sched) (x : CtxId) (c : ClientId) (now : ℤ) : ℤ :=
  let r := s.client c
  let duration := now - r.currentRunStartMs
  if 0 < duration then
    if r.pendingDrop then
      let share := if 0 < r.dropConcurrency then r.dropConcurrency else 1
      (duration.tdiv share * cfg.dropTailBillingPercent).tdiv 100
    else duration.tdiv (countRunningClients s x)
  else 0

/-- Taking `memory` bytes off the running total, which never goes below zero. -/
def giveBackMemory (x : CtxId) (memory : ℕ) (s : Sched) : Sched :=
  s.modifyCtx x fun g =>
    { g with runningMemoryUsage :=
        if memory ≤ g.runningMemoryUsage then g.runningMemoryUsage - memory else 0 }

/-- `remove_req` on the entry of `c` in `running_list`: give back its memory, bill it,
clear its run flags and unlink the entry. -/
def releaseRunning (x : CtxId) (c : ClientId) (s : Sched) : Sched :=
  let s := giveBackMemory x (s.client c).memoryAllocated s
  let now := currentTimeMs env s
  let s := accrueRunningUsage x now (some c) s.tick
  let billed := finalBill cfg s x c now
  let s := s.modifyClient c fun r =>
    { r with
      runTimeInWindowMs := r.runTimeInWindowMs + billed
      lastDropSentMs := if 0 < r.lastDropSentMs then 0 else r.lastDropSentMs
      pendingDrop := false, dropConcurrency := 1, isRunning := false }
  s.modifyCtx x fun g => { g with runningList := g.runningList.erase c }

/-- `if (ctx->running_list == NULL) ctx->lock_held = 0`. -/
def clearLock (x : CtxId) (s : Sched) : Sched :=
  if (s.ctx x).runningList = [] then s.modifyCtx x fun g => { g with lockHeld := false }
  else s

/-- The last two loops of `remove_req`. -/
def dropPending (x : CtxId) (c : ClientId) (s : Sched) : Sched :=
  s.modifyCtx x fun g =>
    { g with
      requests := g.requests.filter (· ≠ c)
      waitQueue := g.waitQueue.filter (· ≠ c) }

/-- The part of `remove_req` before anyone else is scheduled. -/
def leaveRunning (x : CtxId) (c : ClientId) (s : Sched) : Sched :=
  clearLock x (if c ∈ (s.ctx x).runningList then releaseRunning cfg env x c s else s)

/-- `remove_req`, given the `try_schedule` it calls. -/
def removeReq (schedule : CtxId → Sched → Option Sched) (c : ClientId) (s : Sched) :
    Option Sched :=
  match (s.client c).context with
  | none => some s
  | some x =>
      let left := leaveRunning cfg env x c s
      if (left.ctx x).runningList = [] then
        (schedule x (checkWaitQueue cfg env x left)).map (dropPending x c)
      else some (dropPending x c left)

/-- Taking `c` out of `clients` and closing its socket, which ends the process when the
socket has been closed before. -/
def unlinkClient (c : ClientId) (s : Sched) : Option Sched :=
  if c ∈ s.clients then some { s with clients := s.clients.filter (· ≠ c) } else none

/-- `delete_client`, given the `try_schedule` it reaches. -/
def deleteClient (schedule : CtxId → Sched → Option Sched) (c : ClientId) (s : Sched) :
    Option Sched :=
  (removeReq cfg env schedule c s).bind (unlinkClient c)

/-! ## Scheduling -/

/-- Settling the current runners before a client joins them. -/
def settleRunners (x : CtxId) (s : Sched) : Sched :=
  if (s.ctx x).runningList = [] then s
  else accrueRunningUsage x (currentTimeMs env s) none s.tick

/-- What `try_schedule` does with a client that has been sent LOCK_OK. -/
def grant (x : CtxId) (c : ClientId) (s : Sched) : Sched :=
  let s := settleRunners env x s
  let s := s.modifyCtx x fun g =>
    { g with
      requests := g.requests.erase c
      runningList := g.runningList ++ [c]
      lockHeld := true, mustResetTimer := true }
  let start := currentTimeMs env s
  let s := s.tick.modifyClient c fun r =>
    { r with isRunning := true, pendingDrop := false, dropConcurrency := 1
             currentRunStartMs := start }
  s.modifyCtx x fun g =>
    { g with runningMemoryUsage :=
        (g.runningMemoryUsage + (s.client c).memoryAllocated) % sizeMod }

/-- `check_wait_queue` at the top of the loop of `try_schedule`, when nothing is pending. -/
def refill (x : CtxId) (s : Sched) : Sched :=
  if (s.ctx x).requests = [] then checkWaitQueue cfg env x s else s

/-- `try_schedule`; each pass through its loop consumes one unit of fuel. -/
def trySchedule : ℕ → CtxId → Sched → Option Sched
  | 0, _, _ => none
  | fuel + 1, x, s =>
      let s := refill cfg env x s
      match (s.ctx x).requests with
      | [] => some s
      | c :: _ =>
          let fresh := freshWindow cfg env x s
          if canRunTest cfg fresh x c then
            let sent := sendMessage env c .lockOk fresh
            if sendSucceeds env c fresh then
              let granted := grant env x c sent
              if cfg.schedulingMode = .serial then some granted
              else trySchedule fuel x granted
            else (deleteClient cfg env (trySchedule fuel) c sent).bind (trySchedule fuel x)
          else trySchedule fuel x (moveToWaitQueue env x c fresh)

end XpuShare
