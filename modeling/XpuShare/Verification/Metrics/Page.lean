import XpuShare.Lib.Series
import XpuShare.Model.Metrics

/-! The text of the metrics page: what the format functions append, series by series, as far as
the buffer has room for it. -/

namespace XpuShare

open Printf Exposition

/-! ## The buffer after a number of calls -/

/-- A buffer to which a text has been appended. -/
def MetricsBuf.written (cap : ℕ) (allocated : Bool) (t : Text) : MetricsBuf where
  cap := cap
  data := if allocated then some (t.take (cap - 1)) else none
  fits u hu := by
    split at hu <;> cases hu
    exact List.length_take_le _ _

theorem bufInit_eq (cap : ℕ) (allocated : Bool) :
    bufInit cap allocated = .written cap allocated [] := by
  cases allocated <;> simp [bufInit, MetricsBuf.written]

theorem bufAppend_written (cap : ℕ) (allocated : Bool) (t u : Text) :
    bufAppend (.written cap allocated t) u = .written cap allocated (t ++ u) := by
  have htake : (if cap - 1 ≤ (t.take (cap - 1)).length then t.take (cap - 1)
      else t.take (cap - 1) ++ u.take (cap - 1 - (t.take (cap - 1)).length)) =
      (t ++ u).take (cap - 1) := by
    rw [List.take_append, List.length_take]
    rcases le_total (cap - 1) t.length with hfull | hroom
    · rw [min_eq_left hfull, if_pos le_rfl, Nat.sub_eq_zero_of_le hfull, List.take_zero,
        List.append_nil]
    · rw [min_eq_right hroom]
      split
      · rename_i hfull
        rw [Nat.sub_eq_zero_of_le hfull, List.take_zero, List.append_nil]
      · rfl
  cases allocated with
  | false => rfl
  | true => simp only [bufAppend, MetricsBuf.written, if_pos, Option.map_some, htake]

theorem foldl_bufAppend (cap : ℕ) (allocated : Bool) {α : Type} (line : α → Text) (xs : List α)
    (t : Text) :
    xs.foldl (fun b a => bufAppend b (line a)) (.written cap allocated t) =
      .written cap allocated (t ++ (xs.map line).flatten) := by
  induction xs generalizing t with
  | nil => rw [List.foldl_nil, List.map_nil, List.flatten_nil, List.append_nil]
  | cons a xs ih =>
      rw [List.foldl_cons, bufAppend_written, ih, List.map_cons, List.flatten_cons,
        List.append_assoc]

theorem formatFamily_written (cap : ℕ) (allocated : Bool) {α : Type} (f : Family α)
    (xs : List α) (t : Text) :
    formatFamily f xs (.written cap allocated t) =
      .written cap allocated (t ++ (Series.mk f xs).text) := by
  rw [formatFamily, bufAppend_written, foldl_bufAppend, Series.text_eq, List.append_assoc]

theorem formatSingle_written (cap : ℕ) (allocated : Bool) {α : Type} (f : Family α) (a : α)
    (t : Text) :
    formatSingle f a (.written cap allocated t) =
      .written cap allocated (t ++ (Series.mk f [a]).text) := by
  rw [formatSingle, bufAppend_written, Series.text_eq, List.map_singleton, List.flatten_singleton]

/-! ## The series of the page -/

/-- One sample for each metric and GPU. -/
def deviceSeries (gpus : List NvmlGpu) : List Series :=
  [⟨gpuInfo, gpus⟩, ⟨gpuMemoryTotal, gpus⟩, ⟨gpuMemoryUsed, gpus⟩, ⟨gpuMemoryFree, gpus⟩,
    ⟨gpuUtilization, gpus⟩, ⟨gpuMemoryUtilization, gpus⟩, ⟨gpuProcessCount, gpus⟩]

/-- The series of `format_gpu_metrics`. -/
def gpuSeries (nvml : NvmlSnapshot) : List Series :=
  ⟨nvmlUp, [nvml.available]⟩ ::
    if nvml.available then deviceSeries (nvml.gpus.filter fun g => g.valid) else []

/-- One sample for each metric and client; NVML is asked about clients with a process. -/
def clientSeries (nvml : NvmlSnapshot) (clients : List ClientSnapshot) : List Series :=
  [⟨clientInfo, clients⟩, ⟨clientManagedAllocated, clients⟩,
    ⟨clientManagedAllocatedPeak, clients⟩,
    ⟨clientNvmlUsed nvml, clients.filter fun c => 0 < c.hostPid⟩, ⟨clientMemoryQuota, clients⟩,
    ⟨clientMemoryQuotaExceeded, clients⟩, ⟨clientCoreQuotaConfig, clients⟩,
    ⟨clientCoreQuotaEffective, clients⟩, ⟨clientCoreWindowUsage, clients⟩,
    ⟨clientCoreWindowLimit, clients⟩, ⟨clientCoreUsageRatio, clients⟩,
    ⟨clientThrottled, clients⟩, ⟨clientPendingDrop, clients⟩, ⟨clientQuotaDebt, clients⟩]

/-- One sample for each metric and context. -/
def contextSeries (contexts : List ContextSnapshot) : List Series :=
  [⟨schedulerRunningClients, contexts⟩, ⟨schedulerRequestQueueClients, contexts⟩,
    ⟨schedulerWaitQueueClients, contexts⟩, ⟨schedulerRunningMemory, contexts⟩,
    ⟨schedulerPeakRunningMemory, contexts⟩, ⟨schedulerMemorySafeLimit, contexts⟩,
    ⟨schedulerMemoryOverloaded, contexts⟩]

/-- One sample for each event counter, but for the last. -/
def eventSeries (snap : SchedulerSnapshot) : List Series :=
  [⟨schedulerMessages snap, msgNames⟩, ⟨schedulerDropLock, [snap.dropLockCount]⟩,
    ⟨schedulerClientDisconnect, [snap.clientDisconnectCount]⟩,
    ⟨schedulerWaitForMem, [snap.waitForMemCount]⟩,
    ⟨schedulerMemAvailable, [snap.memAvailableCount]⟩]

/-- The series of the scheduler's part of the page. -/
def schedulerSeries (nvml : NvmlSnapshot) (snap : SchedulerSnapshot) : List Series :=
  clientSeries nvml snap.clients ++ contextSeries snap.contexts ++ eventSeries snap

theorem gpuPage_eq (allocated : Bool) (nvml : NvmlSnapshot) :
    gpuPage allocated nvml = .written metricsBufferSize allocated
      (pageText (seriesLines (gpuSeries nvml))) := by
  rw [gpuPage, bufInit_eq, formatGpuMetrics, gpuSeries, pageText_seriesLines]
  cases nvml.available with
  | false => simp [formatSingle_written]
  | true => simp [formatSingle_written, formatFamily_written, deviceSeries]

theorem metricsPage_eq (allocated : Bool) (nvml nvml' : NvmlSnapshot)
    (snap : SchedulerSnapshot) :
    metricsPage allocated nvml nvml' snap = .written metricsBufferSize allocated
      (pageText (seriesLines (gpuSeries nvml)) ++
        pageText (seriesLines (schedulerSeries nvml' snap))) := by
  rw [metricsPage, gpuPage_eq, pageText_seriesLines (schedulerSeries nvml' snap)]
  simp [formatClientMetrics, formatComputeMetrics, formatSchedulerMetrics, formatEventMetrics,
    schedulerSeries, clientSeries, contextSeries, eventSeries, formatFamily_written,
    formatSingle_written]

end XpuShare
