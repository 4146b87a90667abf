import XpuShare.Model.K8sApi
import XpuShare.Model.Scheduler

/-! # Event handlers

Registration, message processing, the event loop, the timer thread and the annotation
watcher. Each holds `global_mutex` while it runs, except that a timer thread gives it up
during its wait; its loop body is therefore two handlers, `timerBegin` up to the wait and
`timerEnd` after it. -/

namespace XpuShare

variable (cfg : Config) (env : Env)

/-! ## Registration -/

/-- `strlcpy` into a buffer of `size` bytes. -/
def strlcpy (text : String) (size : ℕ) : String := String.ofList (text.toList.take (size - 1))

/-- `strncmp(a, b, n) == 0`. -/
def strncmpEq (a b : String) (n : ℕ) : Bool := a.toList.take n = b.toList.take n

/-- `NVSHARE_GPU_UUID_LEN`, `POD_NAME_LEN_MAX` and `POD_NAMESPACE_LEN_MAX`. -/
def gpuUuidLen : ℕ := 96
def podNameLenMax : ℕ := 254
def podNamespaceLenMax : ℕ := 254

def getOrCreateGpuContext (uuid : String) (s : Sched) : CtxId × Sched :=
  match (List.range s.nctx).find? fun x => strncmpEq (s.ctx x).uuid uuid gpuUuidLen with
  | some x => (x, s)
  | none =>
      (s.nctx, { s with
        nctx := s.nctx + 1
        ctx := Function.update s.ctx s.nctx
          { uuid := strlcpy uuid gpuUuidLen
            totalMemory := cfg.defaultGpuMemory
            availableMemory := cfg.defaultGpuMemory } })

/-- The fields of a REGISTER message that the scheduler reads. -/
structure RegisterMsg where
  podName : String := ""
  podNamespace : String := ""
  gpuUuid : String := ""
  hostPid : ℤ := 0
  deriving DecidableEq

/-- What the system returns while a client registers: the identifier drawn, the peer's
pid when SO_PEERCRED gives a positive one, and the two pod annotations, the first as
`atoi` and the second as `parse_memory_size` reads it. -/
structure RegisterEnv where
  generatedId : ℕ
  peerPid : Option ℤ := none
  coreAnnotated : Option ℤ := none
  memoryAnnotated : Option ℕ := none

/-- The identifiers that the `again` loop of `register_client` accepts. -/
def acceptableId (s : Sched) (id : ℕ) : Prop :=
  id ≠ unregisteredId ∧ ∀ c ∈ s.clients, (s.client c).id ≠ id

instance (s : Sched) (id : ℕ) : Decidable (acceptableId s id) :=
  inferInstanceAs (Decidable (_ ∧ _))

/-- The compute limit an annotation stands for: 100 unless it lies in 1..100. -/
def annotatedCoreLimit : Option ℤ → ℤ
  | some v => if 1 ≤ v ∧ v ≤ 100 then v else 100
  | none => 100

/-- The record of a client once `register_client` has filled it in. -/
def registeredRecord (m : RegisterMsg) (e : RegisterEnv) (x : CtxId) (r : Client) : Client :=
  { r with
    id := e.generatedId
    podName := strlcpy m.podName podNameLenMax
    podNamespace := strlcpy m.podNamespace podNamespaceLenMax
    context := some x
    hostPid := e.peerPid.getD m.hostPid
    peakAllocated := 0
    coreLimit := annotatedCoreLimit e.coreAnnotated
    runTimeInWindowMs := 0, currentRunStartMs := 0, isThrottled := false
    pendingDrop := false, dropConcurrency := 1, lastDropSentMs := 0, quotaDebtMs := 0 }

/-- Storing and sending the memory limit found in the pod's annotation. -/
def applyInitialLimit (c : ClientId) (limit : Option ℕ) (s : Sched) : Sched :=
  match limit with
  | some n =>
      if 0 < n then
        sendMessage env c (.updateLimit n)
          (s.modifyClient c fun r => { r with memoryLimit := n })
      else s
  | none => s

/-- Filling in the record of a client that is not registered yet. -/
def enrol (c : ClientId) (m : RegisterMsg) (e : RegisterEnv) (s : Sched) : Sched :=
  (getOrCreateGpuContext cfg m.gpuUuid s).2.modifyClient c
    (registeredRecord m e (getOrCreateGpuContext cfg m.gpuUuid s).1)

/-- `register_client`: whether it succeeded, and the state after it. -/
def registerClient (c : ClientId) (m : RegisterMsg) (e : RegisterEnv) (s : Sched) :
    Bool × Sched :=
  if hasRegistered s c then (false, s)
  else
    let s := enrol cfg c m e s
    let sent := sendMessage env c
      (.status s.schedulerOn e.generatedId (s.client c).coreLimit) s
    if sendSucceeds env c s then (true, applyInitialLimit env c e.memoryAnnotated sent)
    else (false, sent)

/-! ## Messages -/

/-- `bcast_status` on one element. A visit to a client that has been deleted reads freed
memory and writes to a closed socket, which ends the process. -/
def bcastClient (fuel : ℕ) (s : Sched) (c : ClientId) : Option Sched :=
  if c ∉ s.clients then none
  else if !hasRegistered s c then some s
  else
    let sent := sendMessage env c (if s.schedulerOn then .schedOn else .schedOff) s
    if sendSucceeds env c s then some sent
    else deleteClient cfg env (trySchedule cfg env fuel) c sent

/-- The `LL_FOREACH_SAFE` of `bcast_status`. `linked` is the client list at the time the
pointer to the next element was saved, when the visit before began: who had been unlinked by
then is passed over, and who is unlinked later is visited all the same. -/
def bcastFrom (fuel : ℕ) : List ClientId → List ClientId → Sched → Option Sched
  | _, [], s => some s
  | linked, c :: rest, s =>
      if c ∉ linked then bcastFrom fuel linked rest s
      else (bcastClient cfg env fuel s c).bind (bcastFrom fuel s.clients rest)

def bcastStatus (fuel : ℕ) (s : Sched) : Option Sched :=
  bcastFrom cfg env fuel s.clients s.clients s

/-- What SCHED_OFF does to the contexts after the broadcast. -/
def clearRequests (s : Sched) : Sched :=
  { s with ctx := fun x =>
      if x < s.nctx then { s.ctx x with requests := [], lockHeld := false } else s.ctx x }

/-- SET_TQ with a text that parses to `v`. -/
def setTq (v : ℤ) (s : Sched) : Sched :=
  { s with
    tq := v
    ctx := fun x => if x < s.nctx then { s.ctx x with mustResetTimer := true } else s.ctx x }

/-- `force_preemption` on one running client. -/
def preemptClient (s : Sched) (c : ClientId) : Sched :=
  let sent := sendMessage env c .dropLock s
  if sendSucceeds env c s then
    sent.tick.modifyClient c fun r => { r with lastDropSentMs := currentTimeMs env sent }
  else sent

def forcePreemption (x : CtxId) (s : Sched) : Sched :=
  (s.ctx x).runningList.foldl (preemptClient env) s

/-- MEM_UPDATE: storing the value a client reports. -/
def storeMemory (c : ClientId) (v : ℕ) (s : Sched) : Sched :=
  s.modifyClient c fun r =>
    { r with memoryAllocated := v, peakAllocated := max r.peakAllocated v }

/-- MEM_UPDATE of a running client: the running total, its peak, and whether the context
is overloaded from now on. -/
def accountMemory (x : CtxId) (old new : ℕ) (s : Sched) : Sched :=
  s.modifyCtx x fun g =>
    let rest := if old ≤ g.runningMemoryUsage then g.runningMemoryUsage - old
      else g.runningMemoryUsage
    let usage := (rest + new) % sizeMod
    { g with
      runningMemoryUsage := usage
      peakMemoryUsage := max g.peakMemoryUsage usage
      memoryOverloaded := g.memoryOverloaded || safeLimit cfg g < usage }

def memUpdate (c : ClientId) (v : ℕ) (s : Sched) : Sched :=
  match (s.client c).context with
  | none => s
  | some x =>
      if !hasRegistered s c then s
      else
        let stored := storeMemory c v s
        if (s.client c).isRunning then
          let counted := accountMemory cfg x (s.client c).memoryAllocated v stored
          if !(s.ctx x).memoryOverloaded && (counted.ctx x).memoryOverloaded then
            forcePreemption env x counted
          else counted
        else stored

/-- Messages from a client, or from `nvsharectl`, to the scheduler. SET_TQ carries the
number its text stands for, if any. -/
inductive FromClient where
  | register (m : RegisterMsg) (e : RegisterEnv)
  | schedOn
  | schedOff
  | setTq (v : Option ℤ)
  | reqLock
  | lockReleased
  | memUpdate (memoryUsage : ℕ)
  | unknown

/-- REQ_LOCK from a registered client while the scheduler is on. -/
def reqLock (fuel : ℕ) (c : ClientId) (s : Sched) : Option Sched :=
  match (s.client c).context with
  | none => deleteClient cfg env (trySchedule cfg env fuel) c s
  | some x =>
      let queued := insertReq c s
      if cfg.schedulingMode = .serial ∧ (queued.ctx x).lockHeld then some queued
      else trySchedule cfg env fuel x queued

/-- `if (!ctx->lock_held) try_schedule(ctx)`. -/
def scheduleIfFree (fuel : ℕ) (x : CtxId) (s : Sched) : Option Sched :=
  if (s.ctx x).lockHeld then some s else trySchedule cfg env fuel x s

/-- LOCK_RELEASED from a registered client while the scheduler is on. -/
def lockReleased (fuel : ℕ) (c : ClientId) (s : Sched) : Option Sched :=
  match (s.client c).context with
  | none => deleteClient cfg env (trySchedule cfg env fuel) c s
  | some x =>
      (removeReq cfg env (trySchedule cfg env fuel) c s).bind
        (scheduleIfFree cfg env fuel x)

def processMsg (fuel : ℕ) (c : ClientId) (m : FromClient) (s : Sched) : Option Sched :=
  match m with
  | .register m e =>
      if (registerClient cfg env c m e s).1 then some (registerClient cfg env c m e s).2
      else deleteClient cfg env (trySchedule cfg env fuel) c (registerClient cfg env c m e s).2
  | .schedOn =>
      if s.schedulerOn then some s
      else bcastStatus cfg env fuel { s with schedulerOn := true }
  | .schedOff =>
      if s.schedulerOn then
        (bcastStatus cfg env fuel { s with schedulerOn := false }).map clearRequests
      else some s
  | .setTq (some v) => some (setTq v s)
  | .setTq none => some s
  | .reqLock =>
      if !hasRegistered s c then deleteClient cfg env (trySchedule cfg env fuel) c s
      else if s.schedulerOn then reqLock cfg env fuel c s
      else some s
  | .lockReleased =>
      if !hasRegistered s c then deleteClient cfg env (trySchedule cfg env fuel) c s
      else if s.schedulerOn then lockReleased cfg env fuel c s
      else some s
  | .memUpdate v => some (memUpdate cfg env c v s)
  | .unknown => some s

/-! ## The event loop -/

/-- The accept path of `main` with a block that has not been used before; `garbage` is what
`malloc` found in it. -/
def accept (garbage : Client) (s : Sched) : Sched :=
  { s with
    clients := s.clients ++ [s.nalloc]
    client := Function.update s.client s.nalloc
      { garbage with id := unregisteredId, context := none }
    nalloc := s.nalloc + 1 }

/-- `main` on a hang-up, an error, or a failed receive. -/
def disconnect (fuel : ℕ) (c : ClientId) (s : Sched) : Option Sched :=
  (deleteClient cfg env (trySchedule cfg env fuel) c s).bind fun deleted =>
    match (s.client c).context with
    | none => some deleted
    | some x =>
        if deleted.schedulerOn then scheduleIfFree cfg env fuel x deleted else some deleted

/-! ## The timer thread -/

/-- The `swap_time` of a context before its conversion to `int`. -/
def swapTime (g : GpuContext) : ℕ :=
  let memGb := g.runningMemoryUsage / (1024 * 1024 * 1024)
  if 0 < memGb then memGb else 1

def calculateSwitchTime (g : GpuContext) : ℤ :=
  match cfg.mode with
  | .fixed => cfg.fixedSwitchTime
  | .auto => clamp 10 300 (toInt32 (toInt32 (swapTime g) * cfg.timeMultiplier))

/-- `default_tq_ms`, an `int`. -/
def defaultTqMs (g : GpuContext) : ℤ := toInt32 (calculateSwitchTime cfg g * 1000)

/-! ### The sleep computation

Each sum, difference and product of `long`s goes through `long`, the conversion of its exact
value: the identity where a `long` is taken to be unbounded. -/

namespace Sleep

variable (long : ℤ → ℤ)

/-- Time left in the current window, never negative. -/
def windowRemainingMs (g : GpuContext) (now : ℤ) : ℤ :=
  if 0 < g.windowStartMs then
    max 0 (long (cfg.computeWindowMs - long (now - g.windowStartMs)))
  else cfg.computeWindowMs

/-- The quota that a running client has left. -/
def remaining (s : Sched) (x : CtxId) (now : ℤ) (c : ClientId) : ℤ :=
  let pendingWallTime := long (now - (s.client c).currentRunStartMs)
  let pendingBilled := pendingWallTime.tdiv (countRunningClients s x)
  let currentUsage := long ((s.client c).runTimeInWindowMs + pendingBilled)
  long (getEffectiveQuotaMs cfg s x c - currentUsage)

/-- The same as wall time, for a client that shares the GPU with others. -/
def remainingWall (s : Sched) (x : CtxId) (now : ℤ) (c : ClientId) : ℤ :=
  long (remaining cfg long s x now c * countRunningClients s x)

/-- The bound one running client puts on the sleep. -/
def sleepForClient (s : Sched) (x : CtxId) (now sleep : ℤ) (c : ClientId) : ℤ :=
  if (s.client c).coreLimit < 100 then
    if remaining cfg long s x now c ≤ 0 then 0
    else min sleep (remainingWall cfg long s x now c)
  else sleep

/-- The loop of the sleep computation over the running clients. -/
def sleepByQuota (s : Sched) (x : CtxId) (now : ℤ) : ℤ :=
  (s.ctx x).runningList.foldl (sleepForClient cfg long s x now)
    (min (defaultTqMs cfg (s.ctx x)) (windowRemainingMs cfg long (s.ctx x) now))

/-- `min_sleep_ms` as `timer_thr_fn` computes it at time `now`. -/
def minSleepMs (s : Sched) (x : CtxId) (now : ℤ) : ℤ :=
  let byQuota := sleepByQuota cfg long s x now
  let sampled := if (s.ctx x).runningList.any fun c => (s.client c).coreLimit < 100 then
    min byQuota cfg.quotaSampleIntervalMs else byQuota
  let capped := min sampled cfg.computeWindowMs
  if 0 < capped ∧ capped < 10 ∧ 10 < windowRemainingMs cfg long (s.ctx x) now then 10
  else capped

end Sleep

def windowRemainingMs (g : GpuContext) (now : ℤ) : ℤ := Sleep.windowRemainingMs cfg id g now

def sleepForClient (s : Sched) (x : CtxId) (now sleep : ℤ) (c : ClientId) : ℤ :=
  Sleep.sleepForClient cfg id s x now sleep c

def minSleepMs (s : Sched) (x : CtxId) (now : ℤ) : ℤ := Sleep.minSleepMs cfg id s x now

/-- Usage of a client billed so far plus its share of the run not billed yet. -/
def currentUsage (s : Sched) (count now : ℤ) (c : ClientId) : ℤ :=
  (s.client c).runTimeInWindowMs + (now - (s.client c).currentRunStartMs).tdiv count

theorem windowRemainingMs_eq (g : GpuContext) (now : ℤ) :
    windowRemainingMs cfg g now =
      if 0 < g.windowStartMs then max 0 (cfg.computeWindowMs - (now - g.windowStartMs))
      else cfg.computeWindowMs := rfl

theorem sleepForClient_eq (s : Sched) (x : CtxId) (now sleep : ℤ) (c : ClientId) :
    sleepForClient cfg s x now sleep c =
      if (s.client c).coreLimit < 100 then
        if getEffectiveQuotaMs cfg s x c -
            currentUsage s (countRunningClients s x) now c ≤ 0 then 0
        else min sleep ((getEffectiveQuotaMs cfg s x c -
          currentUsage s (countRunningClients s x) now c) * countRunningClients s x)
      else sleep := rfl

theorem minSleepMs_eq (s : Sched) (x : CtxId) (now : ℤ) :
    minSleepMs cfg s x now =
      let remaining := windowRemainingMs cfg (s.ctx x) now
      let byQuota := (s.ctx x).runningList.foldl (sleepForClient cfg s x now)
        (min (defaultTqMs cfg (s.ctx x)) remaining)
      let sampled := if (s.ctx x).runningList.any fun c => (s.client c).coreLimit < 100 then
        min byQuota cfg.quotaSampleIntervalMs else byQuota
      let capped := min sampled cfg.computeWindowMs
      if 0 < capped ∧ capped < 10 ∧ 10 < remaining then 10 else capped := rfl

/-- From the sleep computation to the wait. -/
def timerSleep (x : CtxId) (s : Sched) : Sched :=
  s.tick.modifyCtx x fun g =>
    { g with timer :=
        { waiting := true
          minSleepMs := minSleepMs cfg s x (currentTimeMs env s)
          defaultTqMs := defaultTqMs cfg g } }

/-- The loop body of `timer_thr_fn` up to its wait. -/
def timerBegin (fuel : ℕ) (x : CtxId) (s : Sched) : Option Sched :=
  let checked := checkAndResetWindow cfg env x s
  (if checked.1 then trySchedule cfg env fuel x checked.2 else some checked.2).map
    (timerSleep cfg env x)

/-- Targeted throttling of one running client. -/
def throttleClient (x : CtxId) (count now : ℤ) (s : Sched) (c : ClientId) : Sched :=
  let r := s.client c
  if r.coreLimit < 100 ∧ !r.isThrottled ∧ !r.pendingDrop
      ∧ getEffectiveQuotaMs cfg s x c ≤ currentUsage s count now c then
    sendMessage env c .dropLock (s.modifyClient c fun r =>
      { r with
        isThrottled := true, pendingDrop := true
        dropConcurrency := if 0 < count then count else 1
        runTimeInWindowMs := currentUsage s count now c
        currentRunStartMs := now, lastDropSentMs := now })
  else s

/-- Global preemption of one running client. -/
def rotateClient (count now : ℤ) (s : Sched) (c : ClientId) : Sched :=
  let r := s.client c
  if !r.isThrottled ∧ r.lastDropSentMs = 0 then
    sendMessage env c .dropLock (s.modifyClient c fun r =>
      { r with
        pendingDrop := true
        dropConcurrency := if 0 < count then count else 1
        lastDropSentMs := now })
  else s

/-- Step 5 of `timer_thr_fn`. -/
def enforceLimits (x : CtxId) (s : Sched) : Sched :=
  (s.ctx x).runningList.foldl
    (throttleClient cfg env x (countRunningClients s x) (currentTimeMs env s)) s.tick

/-- Step 6 of `timer_thr_fn`: the quantum has elapsed and somebody waits. -/
def rotateRunning (x : CtxId) (s : Sched) : Sched :=
  (s.ctx x).runningList.foldl
    (rotateClient env (countRunningClients s x) (currentTimeMs env s)) s.tick

/-- The test of step 6. -/
def quantumElapsed (g : GpuContext) (timedOut : Bool) : Bool :=
  timedOut && decide (g.timer.defaultTqMs ≤ g.timer.minSleepMs)
    && decide (g.requests ≠ [] ∨ g.waitQueue ≠ [])

/-- The loop body of `timer_thr_fn` after its wait, which timed out or was signalled. -/
def timerEnd (x : CtxId) (timedOut : Bool) (s : Sched) : Sched :=
  let enforced := enforceLimits cfg env x s
  let rotated := if quantumElapsed (enforced.ctx x) timedOut then rotateRunning env x enforced
    else enforced
  rotated.modifyCtx x fun g =>
    { g with mustResetTimer := false, timer := { g.timer with waiting := false } }

/-! ## The annotation watcher -/

/-- The memory-limit half of one client's update. -/
def updateMemoryLimit (c : ClientId) (limit : Option ℕ) (s : Sched) : Sched :=
  match limit with
  | some n =>
      if 0 < n ∧ n ≠ (s.client c).memoryLimit then
        sendMessage env c (.updateLimit n)
          (s.modifyClient c fun r => { r with memoryLimit := n })
      else s
  | none => s

/-- The compute-limit half of one client's update. -/
def updateCoreLimit (c : ClientId) (value : Option ℤ) (s : Sched) : Sched :=
  let limit := annotatedCoreLimit value
  if limit ≠ (s.client c).coreLimit then
    sendMessage env c (.updateCoreLimit limit)
      (s.modifyClient c fun r => { r with coreLimit := limit })
  else s

/-- `annotation_watcher_fn` once it holds the lock again, with the two annotations of the
client it had seen under the identifier `id`. -/
def annotationUpdate (id : ℕ) (memory : Option ℕ) (core : Option ℤ) (s : Sched) : Sched :=
  match s.clients.find? fun c => (s.client c).id = id with
  | some c => updateCoreLimit env c core (updateMemoryLimit env c memory s)
  | none => s

/-- What `curl_easy_perform` comes to: an error, or a response with the body that the write
callback has gathered, whatever the status of the response is. -/
inductive PodReply where
  | failed
  | answered (body : List Char)
  deriving DecidableEq

/-- `MEMORY_LIMIT_ANNOTATION` and `CORE_LIMIT_ANNOTATION`. -/
def memoryLimitAnnotation : String := "nvshare.com/gpu-memory-limit"
def coreLimitAnnotation : String := "nvshare.com/gpu-core-limit"

/-- `k8s_get_pod_annotation`, given what its request comes to. Without a body there is nothing
to find in it. -/
def k8sGetPodAnnotation (annotationKey : String) : PodReply → Option String
  | .failed => none
  | .answered body => (extractJsonString body annotationKey.toList).map String.ofList

/-- The watcher's loop body for the client it has seen under `id`: two requests, one for each
annotation, and the update. -/
def watchClient (parseMemorySize : String → ℕ) (id : ℕ) (memory core : PodReply) (s : Sched) :
    Sched :=
  let memLimitStr := k8sGetPodAnnotation memoryLimitAnnotation memory
  let coreLimitStr := k8sGetPodAnnotation coreLimitAnnotation core
  annotationUpdate env id (memLimitStr.map parseMemorySize) (coreLimitStr.map atoi) s

/-! ## Steps -/

inductive Event where
  | accept (garbage : Client)
  | message (c : ClientId) (m : FromClient)
  | disconnect (c : ClientId)
  | timerBegin (x : CtxId)
  | timerEnd (x : CtxId) (timedOut : Bool)
  | annotated (id : ℕ) (memory : Option ℕ) (core : Option ℤ)

/-- The client whose record `epoll_wait` returned a pointer to. -/
def Event.client : Event → Option ClientId
  | .message c _ => some c
  | .disconnect c => some c
  | _ => none

/-- The annotation watcher has seen `id` on a record with pod information. -/
def watched (s : Sched) (id : ℕ) : Bool :=
  (List.range s.nalloc).any fun c =>
    (s.client c).id = id && (s.client c).podName ≠ "" && (s.client c).podNamespace ≠ ""

/-- Whether an event finds what it is about in a state: its connection is open, its timer
thread is at the right place, a generated identifier is one that the loop accepts, and the
annotations are those of a pod that the watcher knows. -/
def Event.possible (s : Sched) : Event → Bool
  | .accept _ => true
  | .message c (.register _ e) => c ∈ s.clients && acceptableId s e.generatedId
  | .message c _ => c ∈ s.clients
  | .disconnect c => c ∈ s.clients
  | .timerBegin x => x < s.nctx && !(s.ctx x).timer.waiting
  | .timerEnd x _ => x < s.nctx && (s.ctx x).timer.waiting
  | .annotated id _ _ => watched s id

/-- Whether an event can occur in a state: the process is still there, and the event is
possible. -/
def Event.enabled (s : Sched) (e : Event) : Bool := !s.exited && e.possible s

section Enabled

variable {s : Sched} {c : ClientId} {x : CtxId}

theorem Event.enabled_iff {e : Event} :
    e.enabled s = true ↔ s.exited = false ∧ e.possible s = true := by
  simp [Event.enabled]

theorem Event.possible_of_enabled {e : Event} (h : e.enabled s = true) :
    e.possible s = true := (Event.enabled_iff.mp h).2

theorem Event.connected_of_enabled {e : Event} (h : e.enabled s = true)
    (hc : e.client = some c) : c ∈ s.clients := by
  have hp := Event.possible_of_enabled h
  cases e with
  | message d m =>
      cases hc
      cases m <;> simp [Event.possible] at hp <;> tauto
  | disconnect d =>
      cases hc
      simpa [Event.possible] using hp
  | _ => cases hc

theorem Event.acceptable_of_enabled {m : RegisterMsg} {e : RegisterEnv}
    (h : (Event.message c (.register m e)).enabled s = true) :
    acceptableId s e.generatedId := by
  have hp := Event.possible_of_enabled h
  simp only [Event.possible, Bool.and_eq_true, decide_eq_true_eq] at hp
  exact hp.2

end Enabled

/-- The state after an event, `none` if its handler does not return. -/
def handle (fuel : ℕ) (e : Event) (s : Sched) : Option Sched :=
  match e with
  | .accept garbage => some (accept garbage s)
  | .message c m => processMsg cfg env fuel c m s
  | .disconnect c => disconnect cfg env fuel c s
  | .timerBegin x => timerBegin cfg env fuel x s
  | .timerEnd x timedOut => some (timerEnd cfg env x timedOut s)
  | .annotated id memory core => some (annotationUpdate env id memory core s)

/-- One step of the scheduler: the event is possible and its handler returns. -/
def Step (s : Sched) (e : Event) (s' : Sched) : Prop :=
  e.enabled s = true ∧ ∃ fuel, handle cfg env fuel e s = some s'

/-! ## Batches of events -/

/-- The events that `main` gets from `epoll_wait`; the others are steps of other threads. -/
def Event.polled : Event → Bool
  | .accept _ => true
  | .message _ _ => true
  | .disconnect _ => true
  | _ => false

/-- What one `epoll_wait` may return: at most one event for each open connection, and any
number of new connections. -/
structure Polled (s : Sched) (batch : List Event) : Prop where
  polled : ∀ e ∈ batch, e.polled = true
  nodup : (batch.filterMap Event.client).Nodup
  linked : ∀ c ∈ batch.filterMap Event.client, c ∈ s.clients

/-- The loop of `main` over a batch. An event of a client that has been deleted makes it read
freed memory and a closed socket, which ends the process. -/
def serve (fuel : ℕ) : List Event → Sched → Option Sched
  | [], s => some s
  | e :: batch, s =>
      if e.client.all (· ∈ s.clients) && !s.exited then
        (handle cfg env fuel e s).bind (serve fuel batch)
      else none

end XpuShare
