import XpuShare.Model.System

/-! # The hooks of the client library

`hook.c` stands between an application and the CUDA driver. A kernel launch or a memory copy
first waits for the GPU lock and is then passed on; the two steps are taken by the thread of
the application, and everything else may happen between them. Allocations are passed on at
once, kept in a list and reported to the scheduler. -/

namespace XpuShare

/-! ## Work submission -/

/-- The driver calls that wait for the lock. -/
inductive HookedCall where
  | cuLaunchKernel
  | cuMemcpy
  | cuMemcpyAsync
  | cuMemcpyDtoH
  | cuMemcpyDtoHAsync
  | cuMemcpyHtoD
  | cuMemcpyHtoDAsync
  | cuMemcpyDtoD
  | cuMemcpyDtoDAsync
  deriving DecidableEq

/-- Where a thread of the application stands: in its own code, on `own_lock_cv`, or between
the return of `continue_with_lock` and the real call. -/
inductive AppThread where
  | idle
  | waiting (call : HookedCall)
  | cleared (call : HookedCall)
  deriving DecidableEq

/-- What the library and the threads have done, as seen from outside. -/
inductive Activity where
  | received (m : ToClient)
  | sent (m : ToScheduler)
  | executed (thread : ℕ) (call : HookedCall)
  deriving DecidableEq

/-- An application with any number of threads. -/
structure Application where
  lib : LibState := {}
  thread : ℕ → AppThread := fun _ => .idle
  log : List Activity := []

inductive AppEvent where
  | call (i : ℕ) (call : HookedCall)
  | wake (i : ℕ)
  | execute (i : ℕ)
  | receive (m : ToClient)
  | releaseEarly (timedOut idle : Bool)

namespace Application

/-- A pass of thread `i` through the loop of `continue_with_lock`, for a given call. -/
def continueWithLock (i : ℕ) (call : HookedCall) (a : Application) : Application :=
  let (lib, sent) := XpuShare.continueWithLock a.lib
  { lib := lib
    thread := Function.update a.thread i (if a.lib.ownLock then .cleared call else .waiting call)
    log := a.log ++ sent.map .sent }

/-- The real call of thread `i`. -/
def realCall (i : ℕ) (call : HookedCall) (a : Application) : Application :=
  { a with
    thread := Function.update a.thread i .idle
    log := a.log ++ [.executed i call] }

/-- The state after an event, `none` if it cannot occur or the process exits. -/
def handle (e : AppEvent) (a : Application) : Option Application :=
  match e with
  | .call i call =>
      if a.lib.gotInitialSchedStatus ∧ a.thread i = .idle then some (a.continueWithLock i call)
      else none
  | .wake i =>
      match a.thread i with
      | .waiting call => some (a.continueWithLock i call)
      | _ => none
  | .execute i =>
      match a.thread i with
      | .cleared call => some (a.realCall i call)
      | _ => none
  | .receive m =>
      (clientFn m a.lib).map fun r =>
        { a with lib := r.1, log := a.log ++ .received m :: r.2.map .sent }
  | .releaseEarly timedOut idle =>
      if a.lib.gotInitialSchedStatus then
        let r := releaseEarlyFn timedOut idle a.lib
        some { a with lib := r.1, log := a.log ++ r.2.map .sent }
      else none

/-- One step of an application. -/
def Step (a : Application) (e : AppEvent) (a' : Application) : Prop := a.handle e = some a'

end Application

/-! ## Allocations -/

/-- `CUresult`, as far as the hooks tell results apart. -/
inductive CuResult where
  | success
  | notInitialized
  | outOfMemory
  | otherError
  deriving DecidableEq

/-- `struct cuda_mem_allocation`. -/
structure CudaMemAllocation where
  ptr : ℕ
  size : ℕ
  deriving DecidableEq

/-- Global variables of `hook.c` that concern allocations; `bootstrapped` stands for the
pointers to the real functions being set, and `gotMaxMemSize` is local to `cuMemAlloc`. -/
structure HookState where
  bootstrapped : Bool := true
  gotMaxMemSize : Bool := false
  nvshareSizeMemAllocatable : ℕ := 0
  sumAllocated : ℕ := 0
  memoryLimit : ℕ := 0
  enableSingleOversub : Bool := false
  cudaAllocationList : List CudaMemAllocation := []
  deriving DecidableEq

/-- What the driver returns to the calls that `cuMemAlloc` makes: the result and the total of
`cuMemGetInfo`, the result and the pointer of `cuMemAllocManaged`. -/
structure DriverReply where
  memInfo : CuResult := .success
  total : ℕ := 0
  managed : CuResult := .success
  dptr : ℕ := 0

/-- `MEMINFO_RESERVE_MIB`, in bytes. -/
def meminfoReserve : ℕ := 1536 * 2 ^ 20

/-- `update_memory_limit`. -/
def updateLimit (limit : ℕ) (h : HookState) : HookState := { h with memoryLimit := limit }

/-- `cuMemGetInfo`: its result and the free amount it reports. -/
def cuMemGetInfo (d : DriverReply) (h : HookState) : CuResult × ℕ :=
  if !h.bootstrapped then (.notInitialized, 0)
  else if 0 < h.memoryLimit then
    (d.memInfo, if h.sumAllocated < h.memoryLimit then h.memoryLimit - h.sumAllocated else 0)
  else (d.memInfo, toSizeT (d.total - meminfoReserve))

/-- The first call of `cuMemAlloc` asks how much memory there is. -/
def measureMemory (d : DriverReply) (h : HookState) : HookState :=
  if h.gotMaxMemSize then h
  else { h with nvshareSizeMemAllocatable := (cuMemGetInfo d h).2, gotMaxMemSize := true }

/-- `insert_cuda_allocation`, with the message it sends. -/
def insertCudaAllocation (dptr bytesize : ℕ) (h : HookState) : HookState × List ToScheduler :=
  let sum := (h.sumAllocated + bytesize) % sizeMod
  ({ h with
      sumAllocated := sum
      cudaAllocationList := h.cudaAllocationList ++ [⟨dptr, bytesize⟩] },
    reportMemoryUsageToScheduler sum true)

/-- The loop body of `remove_cuda_allocation` on one element. -/
def removeAllocation (rmPtr : ℕ) (r : HookState × List ToScheduler) (a : CudaMemAllocation) :
    HookState × List ToScheduler :=
  if a.ptr = rmPtr then
    let sum := toSizeT (r.1.sumAllocated - a.size)
    ({ r.1 with sumAllocated := sum, cudaAllocationList := r.1.cudaAllocationList.erase a },
      r.2 ++ reportMemoryUsageToScheduler sum true)
  else r

/-- `remove_cuda_allocation`, with the messages it sends. -/
def removeCudaAllocation (rmPtr : ℕ) (h : HookState) : HookState × List ToScheduler :=
  h.cudaAllocationList.foldl (removeAllocation rmPtr) (h, [])

/-- Whether `cuMemAlloc` passes a request on to the driver. -/
def admitsAllocation (bytesize : ℕ) (h : HookState) : Bool :=
  let wanted := (h.sumAllocated + bytesize) % sizeMod
  !(decide (0 < h.memoryLimit) && decide (h.memoryLimit < wanted))
    && (decide (wanted ≤ h.nvshareSizeMemAllocatable) || h.enableSingleOversub)

/-- `cuMemAlloc`: its result, the state after it and the messages it sends. -/
def cuMemAlloc (d : DriverReply) (bytesize : ℕ) (h : HookState) :
    CuResult × HookState × List ToScheduler :=
  if !h.bootstrapped then (.notInitialized, h, [])
  else
    let measured := measureMemory d h
    if !admitsAllocation bytesize measured then (.outOfMemory, measured, [])
    else if d.managed = .success then (.success, insertCudaAllocation d.dptr bytesize measured)
    else (d.managed, measured, [])

/-- `cuMemFree`, given the result of the real one. -/
def cuMemFree (result : CuResult) (dptr : ℕ) (h : HookState) :
    CuResult × HookState × List ToScheduler :=
  if !h.bootstrapped then (.notInitialized, h, [])
  else if result = .success then (.success, removeCudaAllocation dptr h)
  else (result, h, [])

/-- Whether a call of `cuMemAlloc` is passed on to the driver. -/
def passesOn (d : DriverReply) (bytesize : ℕ) (h : HookState) : Bool :=
  h.bootstrapped && admitsAllocation bytesize (measureMemory d h)

/-- What changes the totals and limits of the hooks: the application's calls, and UPDATE_LIMIT
messages from the scheduler. -/
inductive MemoryEvent where
  | cuMemAlloc (d : DriverReply) (bytesize : ℕ)
  | cuMemFree (result : CuResult) (dptr : ℕ)
  | updateLimit (limit : ℕ)

def MemoryEvent.apply (h : HookState) : MemoryEvent → HookState
  | .cuMemAlloc d bytesize => (XpuShare.cuMemAlloc d bytesize h).2.1
  | .cuMemFree result dptr => (XpuShare.cuMemFree result dptr h).2.1
  | .updateLimit limit => XpuShare.updateLimit limit h

/-- The state of a client that started with a limit and has seen some events. -/
def hookAfter (limit : ℕ) (events : List MemoryEvent) : HookState :=
  events.foldl MemoryEvent.apply { memoryLimit := limit }

/-! ## Allocations and their reports -/

/-- The amounts in MEM_UPDATE messages. -/
def memoryUsages (sent : List ToScheduler) : List ℕ :=
  sent.filterMap fun
    | .memUpdate v => some v
    | _ => none

/-- The total size of some allocations. -/
def totalSize (l : List CudaMemAllocation) : ℕ := (l.map CudaMemAllocation.size).sum

/-- Whether a call of `cuMemAlloc` ends in an allocation by the driver. -/
def allocates (d : DriverReply) (bytesize : ℕ) (h : HookState) : Bool :=
  h.bootstrapped && admitsAllocation bytesize (measureMemory d h) && d.managed = .success

/-- A client with one application thread, and the scheduler. The driver has made the
allocations in `live` for `cuMemAlloc`, and those at the pointers in `foreign` for other
functions, and has freed neither. `channel` holds the amounts on their way to the scheduler;
only proofs look at `delivered`, the amounts that have arrived. -/
structure Reporting where
  hook : HookState
  live : List CudaMemAllocation := []
  foreign : List ℕ := []
  channel : List ℕ := []
  delivered : List ℕ := []
  sched : Sched

/-- The driver has an allocation at this pointer. -/
def Reporting.isLive (y : Reporting) (dptr : ℕ) : Prop :=
  dptr ∈ y.live.map CudaMemAllocation.ptr ∨ dptr ∈ y.foreign

inductive ReportEvent where
  | cuMemAlloc (d : DriverReply) (bytesize : ℕ)
  | cuMemFree (result : CuResult) (dptr : ℕ)
  | allocateElsewhere (dptr : ℕ)
  | updateLimit (limit : ℕ)
  | deliver
  | schedule (e : Event)

/-- One step of client `c` and the scheduler. The driver returns pointers that are not live
and frees live ones only, and totals stay within `size_t`. The scheduler handles what arrives
from `c`, and any other event. -/
inductive ReportStep (cfg : Config) (env : Env) (c : ClientId) :
    Reporting → ReportEvent → Reporting → Prop where
  | cuMemAlloc (y d bytesize)
      (hdriver : allocates d bytesize y.hook = true →
        ¬ y.isLive d.dptr ∧ totalSize y.live + bytesize < sizeMod) :
      ReportStep cfg env c y (.cuMemAlloc d bytesize)
        { y with
          hook := (XpuShare.cuMemAlloc d bytesize y.hook).2.1
          live := if allocates d bytesize y.hook then y.live ++ [⟨d.dptr, bytesize⟩] else y.live
          channel := y.channel ++ memoryUsages (XpuShare.cuMemAlloc d bytesize y.hook).2.2 }
  | cuMemFree (y result dptr) (hdriver : result = .success → y.isLive dptr) :
      ReportStep cfg env c y (.cuMemFree result dptr)
        { y with
          hook := (XpuShare.cuMemFree result dptr y.hook).2.1
          live := if y.hook.bootstrapped && result = .success then
            y.live.filter (·.ptr ≠ dptr) else y.live
          foreign := if y.hook.bootstrapped && result = .success then
            y.foreign.filter (· ≠ dptr) else y.foreign
          channel := y.channel ++ memoryUsages (XpuShare.cuMemFree result dptr y.hook).2.2 }
  | allocateElsewhere (y dptr) (hdriver : ¬ y.isLive dptr) :
      ReportStep cfg env c y (.allocateElsewhere dptr) { y with foreign := y.foreign ++ [dptr] }
  | updateLimit (y limit) :
      ReportStep cfg env c y (.updateLimit limit)
        { y with hook := XpuShare.updateLimit limit y.hook }
  | deliver (y v rest s) (hchannel : y.channel = v :: rest)
      (hstep : Step cfg env y.sched (.message c (.memUpdate v)) s) :
      ReportStep cfg env c y .deliver
        { y with channel := rest, delivered := y.delivered ++ [v], sched := s }
  | schedule (y e s) (hother : ∀ v, e ≠ .message c (.memUpdate v))
      (hstep : Step cfg env y.sched e s) :
      ReportStep cfg env c y (.schedule e) { y with sched := s }

/-! ## A whole client -/

/-- What a message does to the limit of the hooks. -/
def ToClient.hooked (m : ToClient) (h : HookState) : HookState :=
  match m with
  | .updateLimit limit => XpuShare.updateLimit limit h
  | _ => h

/-- The states of a client that has started with the hooks in the state `h₀` and has read some
messages: its threads may have done anything in between. -/
inductive ClientRun (h₀ : HookState) : List ToClient → LibState → HookState → Prop where
  | start : ClientRun h₀ [] {} h₀
  | receive {read r h r'} (m) (hrun : ClientRun h₀ read r h) (hm : clientFn m r = some r') :
      ClientRun h₀ (read ++ [m]) r'.1 (m.hooked h)
  | enter {read r h} (hrun : ClientRun h₀ read r h) : ClientRun h₀ read (continueWithLock r).1 h
  | releaseEarly {read r h} (timedOut idle) (hrun : ClientRun h₀ read r h) :
      ClientRun h₀ read (releaseEarlyFn timedOut idle r).1 h
  | alloc {read r h} (d bytesize) (hrun : ClientRun h₀ read r h) :
      ClientRun h₀ read r (cuMemAlloc d bytesize h).2.1
  | free {read r h} (result dptr) (hrun : ClientRun h₀ read r h) :
      ClientRun h₀ read r (cuMemFree result dptr h).2.1

end XpuShare
