import XpuShare.Model.Handlers

/-! # The client library

The threads that `libnvshare` runs in an application, as far as the lock is concerned. All
of them hold the library's `global_mutex` while they touch its variables, so that each
function below is one uninterrupted piece of one thread. CUDA and NVML calls, statistics and
the memory limit kept by the allocation hooks are left out. -/

namespace XpuShare

/-- Messages on the wire from a client to the scheduler. -/
inductive ToScheduler where
  | register (m : RegisterMsg)
  | reqLock
  | lockReleased
  | memUpdate (memoryUsage : ℕ)
  deriving DecidableEq

/-- `nvshare_gpu_uuid`, which `client_fn` reads from its environment. -/
def nvshareGpuUuid (getenv : String → Option String) : String :=
  match getenv "NVIDIA_VISIBLE_DEVICES" with
  | some text => strlcpy text gpuUuidLen
  | none =>
      match getenv "CUDA_VISIBLE_DEVICES" with
      | some text => strlcpy text gpuUuidLen
      | none => ""

/-- The `gpu_uuid` in the REGISTER message of `client_fn`. -/
def registeredUuid (getenv : String → Option String) : String :=
  strlcpy (nvshareGpuUuid getenv) gpuUuidLen

/-- Global variables of `client.c`; `gotInitialSchedStatus` is the semaphore of that name. -/
structure LibState where
  gotInitialSchedStatus : Bool := false
  schedulerOn : Bool := false
  ownLock : Bool := false
  needLock : Bool := false
  didWork : Bool := false
  nvshareClientId : ℕ := 0
  clientCoreLimit : ℤ := 100
  deriving DecidableEq

/-- One pass through the loop of `continue_with_lock` by an application thread, up to its
wait on `own_lock_cv` or its return. -/
def continueWithLock (r : LibState) : LibState × List ToScheduler :=
  if r.ownLock then ({ r with didWork := true }, [])
  else if r.needLock then (r, [])
  else ({ r with needLock := true }, [.reqLock])

/-- SCHED_ON in the message loop of `client_fn`. -/
def onSchedOn (r : LibState) : LibState :=
  if r.schedulerOn then r
  else { r with schedulerOn := true, needLock := false, ownLock := false }

/-- SCHED_OFF in the message loop of `client_fn`. -/
def onSchedOff (r : LibState) : LibState :=
  if r.schedulerOn then { r with schedulerOn := false, ownLock := true, needLock := false }
  else r

/-- The initial status that `client_fn` waits for after it has sent REGISTER. Any other
message ends the process. -/
def initialStatus (m : ToClient) (r : LibState) : Option LibState :=
  match m with
  | .status on id coreLimit =>
      some { r with
        gotInitialSchedStatus := true, schedulerOn := on, ownLock := !on, needLock := false
        nvshareClientId := id, clientCoreLimit := coreLimit }
  | _ => none

/-- The message loop of `client_fn` on one message. -/
def handleMessage (m : ToClient) (r : LibState) : LibState × List ToScheduler :=
  match m with
  | .lockOk => ({ r with needLock := false, ownLock := true, didWork := true }, [])
  | .dropLock => if r.ownLock then ({ r with ownLock := false }, [.lockReleased]) else (r, [])
  | .schedOn => (onSchedOn r, [])
  | .schedOff => (onSchedOff r, [])
  | .status on _ _ => (if on then onSchedOn r else onSchedOff r, [])
  | .waitForMem | .memAvailable | .updateLimit _ => (r, [])
  | .updateCoreLimit limit =>
      (if 1 ≤ limit ∧ limit ≤ 100 then { r with clientCoreLimit := limit } else r, [])

/-- `client_fn` on one message; `none` if the process exits. -/
def clientFn (m : ToClient) (r : LibState) : Option (LibState × List ToScheduler) :=
  if r.gotInitialSchedStatus then some (handleMessage m r)
  else (initialStatus m r).map fun r => (r, [])

/-- One pass through the loop of `release_early_fn` after its wait; `idle` is the answer of
NVML, or of the fallback that times `cuCtxSynchronize`. -/
def releaseEarlyFn (timedOut idle : Bool) (r : LibState) : LibState × List ToScheduler :=
  if timedOut then
    if !r.schedulerOn || !r.ownLock || r.didWork || !idle then ({ r with didWork := false }, [])
    else ({ r with ownLock := false, didWork := false }, [.lockReleased])
  else (if r.didWork then { r with didWork := false } else r, [])

/-- `report_memory_usage_to_scheduler`, whose send may fail. -/
def reportMemoryUsageToScheduler (allocated : ℕ) (sent : Bool) : List ToScheduler :=
  if sent then [.memUpdate allocated] else []

end XpuShare
