import Mathlib.Data.List.TakeWhile
import XpuShare.Lib.Printf
import XpuShare.Model.Handlers

/-! # Metrics snapshot

`metrics_fill_scheduler_snapshot` copies what the exporter prints out of the scheduler's
records. A character of the scheduler's strings stands for the byte of its number. -/

namespace XpuShare

open Printf

/-- A string in an array of `size` bytes, without the NUL that ends it. -/
structure CString (size : ℕ) where
  bytes : Text
  fits : bytes.length < size
  no_nul : 0 ∉ bytes

/-- `strlcpy` into an array of a snapshot. -/
def CString.copy {size : ℕ} (hsize : 0 < size) (text : String) : CString size where
  bytes := ((bytesOf text).takeWhile (· ≠ 0)).take (size - 1)
  fits := by
    rw [List.length_take]
    omega
  no_nul h := by
    have hmem := List.mem_of_mem_take h
    simpa using List.mem_takeWhile_imp hmem

/-- `MAX_SNAPSHOT_CLIENTS`, `MAX_SNAPSHOT_CONTEXTS` and `NVSHARE_MSG_TYPE_COUNT`. -/
def maxSnapshotClients : ℕ := 256
def maxSnapshotContexts : ℕ := 16
abbrev msgTypeCount : ℕ := 16

/-- `struct client_snapshot`. -/
structure ClientSnapshot where
  id : UInt64
  podName : CString podNameLenMax
  podNamespace : CString podNamespaceLenMax
  gpuUuid : CString gpuUuidLen
  gpuIndex : ℤ
  hostPid : ℤ
  memoryAllocated : ℕ
  peakAllocated : ℕ
  memoryLimit : ℕ
  coreLimit : ℤ
  isRunning : Bool
  isThrottled : Bool
  pendingDrop : Bool
  runTimeInWindowMs : ℤ
  quotaDebtMs : ℤ
  effectiveQuotaMs : ℤ
  windowLimitMs : ℤ

/-- `struct context_snapshot`. -/
structure ContextSnapshot where
  uuid : CString gpuUuidLen
  gpuIndex : ℤ
  runningCount : ℕ
  requestCount : ℕ
  waitCount : ℕ
  runningMemory : ℕ
  peakMemory : ℕ
  totalMemory : ℕ
  memoryReservePercent : ℤ
  memoryOverloaded : Bool

/-- The global event counters of the exporter. -/
structure EventCounters where
  msgCounts : Fin msgTypeCount → UInt64 := fun _ => 0
  dropLockCount : UInt64 := 0
  clientDisconnectCount : UInt64 := 0
  waitForMemCount : UInt64 := 0
  memAvailableCount : UInt64 := 0

/-- `struct scheduler_snapshot`; the two counts are the lengths of the lists. -/
structure SchedulerSnapshot extends EventCounters where
  clients : List ClientSnapshot
  contexts : List ContextSnapshot
  clients_le : clients.length ≤ maxSnapshotClients
  contexts_le : contexts.length ≤ maxSnapshotContexts

variable (cfg : Config)

/-- The body of the first loop of `metrics_fill_scheduler_snapshot`. -/
def snapshotClient (s : Sched) (c : ClientId) : ClientSnapshot :=
  let r := s.client c
  { id := UInt64.ofNat r.id
    podName := .copy (by decide) r.podName
    podNamespace := .copy (by decide) r.podNamespace
    gpuUuid := .copy (by decide) (r.context.elim "" fun x => (s.ctx x).uuid)
    gpuIndex := -1
    hostPid := r.hostPid
    memoryAllocated := r.memoryAllocated
    peakAllocated := r.peakAllocated
    memoryLimit := r.memoryLimit
    coreLimit := r.coreLimit
    isRunning := r.isRunning
    isThrottled := r.isThrottled
    pendingDrop := r.pendingDrop
    runTimeInWindowMs := r.runTimeInWindowMs
    quotaDebtMs := r.quotaDebtMs
    effectiveQuotaMs := match r.context with
      | some x => if r.coreLimit < 100 then getEffectiveQuotaMs cfg s x c
          else cfg.computeWindowMs
      | none => cfg.computeWindowMs
    windowLimitMs := cfg.computeWindowMs }

/-- The body of the second loop of `metrics_fill_scheduler_snapshot`. -/
def snapshotContext (s : Sched) (x : CtxId) : ContextSnapshot :=
  let g := s.ctx x
  { uuid := .copy (by decide) g.uuid
    gpuIndex := x
    runningCount := g.runningList.length
    requestCount := g.requests.length
    waitCount := g.waitQueue.length
    runningMemory := g.runningMemoryUsage
    peakMemory := g.peakMemoryUsage
    totalMemory := g.totalMemory
    memoryReservePercent := cfg.memoryReservePercent
    memoryOverloaded := g.memoryOverloaded }

/-- `metrics_fill_scheduler_snapshot`: the registered clients and the contexts, as far as
the arrays hold them, and the event counters. -/
def metricsFillSchedulerSnapshot (counters : EventCounters) (s : Sched) :
    SchedulerSnapshot where
  toEventCounters := counters
  clients := ((s.clients.filter (hasRegistered s)).take maxSnapshotClients).map
    (snapshotClient cfg s)
  contexts := ((List.range s.nctx).take maxSnapshotContexts).map (snapshotContext cfg s)
  clients_le := by
    rw [List.length_map, List.length_take]
    exact min_le_left _ _
  contexts_le := by
    rw [List.length_map, List.length_take]
    exact min_le_left _ _

/-- The `safe_limit` of `format_scheduler_metrics`. -/
def ContextSnapshot.safeLimit (ctx : ContextSnapshot) : ℕ :=
  safeLimitOf ctx.totalMemory ctx.memoryReservePercent

end XpuShare
