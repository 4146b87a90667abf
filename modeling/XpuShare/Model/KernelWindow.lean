import XpuShare.Model.Client

/-! # The window of pending kernels

`cuLaunchKernel` synchronises the CUDA context once a window of kernels has been launched,
and adjusts the window by how long the synchronisation took. `client_fn` and the idle check
of `release_early_fn` shrink the window, and messages change the cap on it. Windows are
32-bit `int`s: a product that does not fit wraps around. -/

namespace XpuShare

/-- `KERN_SYNC_WINDOW_MAX`. -/
def kernSyncWindowMax : ℤ := 2048

/-- `(time_t)kern_sync_duration_mild`. -/
def kernSyncDurationMild : ℤ := 1

/-- What `initialize_libnvshare` reads from the environment, with the initialisers of the
source as defaults. -/
structure WindowSettings where
  kernSyncDurationBig : ℤ := 10
  kernWindowMinFloor : ℤ := 4
  kernWarmupPeriodSec : ℤ := 30

/-- The settings of a process with an environment. -/
def windowSettings (getenv : String → Option String) : WindowSettings where
  kernSyncDurationBig := ((getenv "NVSHARE_KERN_SYNC_DURATION_BIG").map atoi).getD 10
  kernWindowMinFloor := ((getenv "NVSHARE_KERN_WINDOW_MIN_FLOOR").map atoi).getD 4
  kernWarmupPeriodSec := ((getenv "NVSHARE_KERN_WARMUP_PERIOD_SEC").map atoi).getD 30

/-- Global variables of `hook.c` and `client.c` that concern the window. -/
structure KernelWindow where
  lib : LibState := {}
  lockAcquireTime : ℤ := 0
  kernSinceSync : ℤ := 0
  pendingKernelWindow : ℤ := 64
  consecutiveTimeoutCount : ℕ := 0
  deriving DecidableEq

/-- A call of `cuCtxSynchronize` in `cuLaunchKernel`: the whole seconds it took, and what
`time` returns after it. Only proofs look at `started`, the time at which it began. -/
structure Synchronisation where
  seconds : ℕ
  now : ℤ
  started : ℤ := now

/-- `get_kernel_window_max` for a core limit. -/
def getKernelWindowMax (clientCoreLimit : ℤ) : ℤ :=
  let dynamicMax := if 100 ≤ clientCoreLimit then kernSyncWindowMax
    else clamp 16 32 (clientCoreLimit.tdiv 2)
  if kernSyncWindowMax < dynamicMax then kernSyncWindowMax else dynamicMax

namespace KernelWindow

/-- The cap on the window in force. -/
def max (k : KernelWindow) : ℤ := getKernelWindowMax k.lib.clientCoreLimit

/-- `min(pending_kernel_window * 2, get_kernel_window_max())`. -/
def doubled (k : KernelWindow) : ℤ := min (toInt32 (k.pendingKernelWindow * 2)) k.max

end KernelWindow

variable (settings : WindowSettings)

/-- `in_warmup`. -/
def inWarmup (r : Synchronisation) (k : KernelWindow) : Bool :=
  0 < k.lockAcquireTime && r.now - k.lockAcquireTime < settings.kernWarmupPeriodSec

/-- A critical timeout. -/
def criticalTimeout (r : Synchronisation) (k : KernelWindow) : KernelWindow :=
  if inWarmup settings r k then { k with pendingKernelWindow := k.doubled }
  else
    { k with
      consecutiveTimeoutCount := k.consecutiveTimeoutCount + 1
      pendingKernelWindow := if 3 < k.consecutiveTimeoutCount + 1 then 1
        else max settings.kernWindowMinFloor (k.pendingKernelWindow.tdiv 2) }

/-- A mild timeout. The product of an `int` with 0.8 is cut down to the integer part of four
fifths of it. -/
def mildTimeout (r : Synchronisation) (k : KernelWindow) : KernelWindow :=
  { k with
    consecutiveTimeoutCount := 0
    pendingKernelWindow := if inWarmup settings r k then k.doubled
      else max settings.kernWindowMinFloor ((k.pendingKernelWindow * 4).tdiv 5) }

/-- The adjustment of the window after a synchronisation. -/
def adjustWindow (r : Synchronisation) (k : KernelWindow) : KernelWindow :=
  if settings.kernSyncDurationBig ≤ r.seconds then criticalTimeout settings r k
  else if kernSyncDurationMild ≤ r.seconds then mildTimeout settings r k
  else { k with consecutiveTimeoutCount := 0, pendingKernelWindow := k.doubled }

/-- The next launch synchronises. -/
def KernelWindow.full (k : KernelWindow) : Bool :=
  k.pendingKernelWindow ≤ k.kernSinceSync + 1

/-- `cuLaunchKernel` from its real call on; `r` is what happens if it synchronises. -/
def cuLaunchKernel (r : Synchronisation) (k : KernelWindow) : KernelWindow :=
  if k.full then { adjustWindow settings r k with kernSinceSync := 0 }
  else { k with kernSinceSync := k.kernSinceSync + 1 }

/-- `cuda_sync_context`. -/
def cudaSyncContext (k : KernelWindow) : KernelWindow := { k with pendingKernelWindow := 1 }

/-- One message in the loop of `client_fn`, handled at time `now`. -/
def windowMessage (m : ToClient) (now : ℤ) (k : KernelWindow) : KernelWindow :=
  let dropped := if m = .dropLock ∧ k.lib.ownLock then cudaSyncContext k else k
  { dropped with
    lib := (handleMessage m k.lib).1
    lockAcquireTime := if m = .lockOk ∧ k.lockAcquireTime = 0 then now else k.lockAcquireTime }

/-- What changes the window: the calls of the application, the messages of the scheduler and
the idle check without NVML. -/
inductive WindowEvent where
  | launch (r : Synchronisation)
  | message (m : ToClient) (now : ℤ)
  | idleCheck

def WindowEvent.apply (k : KernelWindow) : WindowEvent → KernelWindow
  | .launch r => cuLaunchKernel settings r k
  | .message m now => windowMessage m now k
  | .idleCheck => cudaSyncContext k

/-- The state after some events, for a client that has got its initial status. -/
def windowAfter (lib : LibState) (events : List WindowEvent) : KernelWindow :=
  events.foldl (WindowEvent.apply settings) { lib := lib }

end XpuShare
