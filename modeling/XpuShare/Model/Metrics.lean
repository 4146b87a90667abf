import XpuShare.Lib.Pages
import XpuShare.Model.Snapshot

/-! # Metrics exporter

The page that `handle_metrics` writes: the format functions append HELP, TYPE and sample lines
to a buffer of fixed size, which drops what does not fit. -/

namespace XpuShare

open Printf Exposition

/-! ## Buffer -/

/-- `struct metrics_buf`. `data` is what has been written; there is none if `malloc` has
failed. -/
structure MetricsBuf where
  cap : ℕ
  data : Option Text
  fits : ∀ t ∈ data, t.length ≤ cap - 1

/-- `NVSHARE_METRICS_BUFFER_SIZE`. -/
def metricsBufferSize : ℕ := 256 * 1024

/-- `buf_init`, given whether `malloc` succeeds. -/
def bufInit (cap : ℕ) (allocated : Bool) : MetricsBuf where
  cap := cap
  data := if allocated then some [] else none
  fits t ht := by
    split at ht <;> cases ht
    exact Nat.zero_le _

/-- `buf_append` with a formatted text: `vsnprintf` writes as much of it as there is room
for. -/
def bufAppend (b : MetricsBuf) (text : Text) : MetricsBuf where
  cap := b.cap
  data := b.data.map fun t =>
    if b.cap - 1 ≤ t.length then t else t ++ text.take (b.cap - 1 - t.length)
  fits t ht := by
    obtain ⟨u, hu, rfl⟩ := Option.map_eq_some_iff.mp ht
    have hfits := b.fits u hu
    split
    · exact hfits
    · rw [List.length_append, List.length_take]
      omega

/-- A header and one line for each member of a list. -/
def formatFamily {α : Type} (f : Family α) (xs : List α) (b : MetricsBuf) : MetricsBuf :=
  xs.foldl (fun b a => bufAppend b (f.line a)) (bufAppend b f.header)

/-- A header and the only line after it in one piece. -/
def formatSingle {α : Type} (f : Family α) (a : α) (b : MetricsBuf) : MetricsBuf :=
  bufAppend b (f.header ++ f.line a)

/-! ## NVML -/

/-- `struct nvml_process_info`. -/
structure NvmlProcess where
  pid : ℤ
  usedMemory : ℕ

/-- `NVML_MAX_PROCESSES_PER_GPU` and `NVML_MAX_GPUS`. -/
def nvmlMaxProcesses : ℕ := 64
def nvmlMaxGpus : ℕ := 16

/-- `struct nvml_gpu_snapshot`; the process count is the length of the list. -/
structure NvmlGpu where
  uuid : CString gpuUuidLen
  gpuIndex : ℤ
  gpuName : CString gpuUuidLen
  memoryTotal : ℕ
  memoryUsed : ℕ
  memoryFree : ℕ
  gpuUtil : ℚ
  memUtil : ℚ
  processes : List NvmlProcess
  valid : Bool
  processes_le : processes.length ≤ nvmlMaxProcesses

/-- `struct nvml_snapshot`; the GPU count is the length of the list. -/
structure NvmlSnapshot where
  available : Bool
  gpus : List NvmlGpu
  gpus_le : gpus.length ≤ nvmlMaxGpus

/-- `strncmp(a, b, strlen(b)) == 0`. -/
def hasPrefix (a b : Text) : Bool := b.isPrefixOf a

/-- The `nvml_used` of a client: the last GPU of its name that knows its process. -/
def nvmlUsed (nvml : NvmlSnapshot) (c : ClientSnapshot) : ℕ :=
  nvml.gpus.foldl (fun used g =>
    if !g.valid then used
    else if !hasPrefix g.uuid.bytes c.gpuUuid.bytes &&
        !hasPrefix c.gpuUuid.bytes g.uuid.bytes then used
    else match g.processes.find? fun p => p.pid = c.hostPid with
      | some p => p.usedMemory
      | none => used) 0

/-! ## Labels -/

def label (name : String) (value : Text) : Text × Text := (bytesOf name, value)

def gpuLabels (g : NvmlGpu) : List (Text × Text) :=
  [label "gpu_uuid" g.uuid.bytes, label "gpu_index" (decimal g.gpuIndex)]

def clientLabels (c : ClientSnapshot) : List (Text × Text) :=
  [label "namespace" c.podNamespace.bytes, label "pod" c.podName.bytes,
    label "client_id" (hex16 c.id), label "gpu_uuid" c.gpuUuid.bytes]

def contextLabels (ctx : ContextSnapshot) : List (Text × Text) :=
  [label "gpu_uuid" ctx.uuid.bytes, label "gpu_index" (decimal ctx.gpuIndex)]

/-- The label names of a metric are the same for all its samples. -/
theorem labels_ok_of_names {α : Type} {labels : α → List (Text × Text)} (names : List String)
    (hnames : ∀ a, (labels a).map Prod.fst = names.map bytesOf)
    (hok : names.all (fun name => isName isLetter (bytesOf name)) = true) :
    ∀ a, ∀ label ∈ labels a, isName isLetter label.1 = true := by
  intro a l hl
  have hmem : l.1 ∈ names.map bytesOf := hnames a ▸ List.mem_map_of_mem hl
  obtain ⟨name, hname, heq⟩ := List.mem_map.mp hmem
  rw [← heq]
  exact List.all_eq_true.mp hok name hname

/-- A metric of each valid GPU. -/
def gpuMetric (name help : String) (value : NvmlGpu → Quantity)
    (hname : isName isMetricByte (bytesOf name) = true := by decide)
    (hhelp : newline ∉ bytesOf help := by decide) : Family NvmlGpu where
  name := name
  help := help
  kind := "gauge"
  labels := gpuLabels
  value := value
  name_ok := hname
  help_ok := hhelp
  labels_ok := labels_ok_of_names ["gpu_uuid", "gpu_index"] (fun _ => rfl) (by decide)

/-- A metric of each client. -/
def clientMetric (name help : String) (value : ClientSnapshot → Quantity)
    (hname : isName isMetricByte (bytesOf name) = true := by decide)
    (hhelp : newline ∉ bytesOf help := by decide) : Family ClientSnapshot where
  name := name
  help := help
  kind := "gauge"
  labels := clientLabels
  value := value
  name_ok := hname
  help_ok := hhelp
  labels_ok := labels_ok_of_names ["namespace", "pod", "client_id", "gpu_uuid"] (fun _ => rfl)
    (by decide)

/-- A metric of each context. -/
def contextMetric (name help : String) (value : ContextSnapshot → Quantity)
    (hname : isName isMetricByte (bytesOf name) = true := by decide)
    (hhelp : newline ∉ bytesOf help := by decide) : Family ContextSnapshot where
  name := name
  help := help
  kind := "gauge"
  labels := contextLabels
  value := value
  name_ok := hname
  help_ok := hhelp
  labels_ok := labels_ok_of_names ["gpu_uuid", "gpu_index"] (fun _ => rfl) (by decide)

/-- A counter without labels. -/
def eventCounter (name help : String)
    (hname : isName isMetricByte (bytesOf name) = true := by decide)
    (hhelp : newline ∉ bytesOf help := by decide) : Family UInt64 where
  name := name
  help := help
  kind := "counter"
  labels _ := []
  value count := .integer count.toNat
  name_ok := hname
  help_ok := hhelp
  labels_ok _ _ h := absurd h List.not_mem_nil

def flag (b : Bool) : Quantity := .integer (if b then 1 else 0)

/-! ## GPUs -/

def nvmlUp : Family Bool where
  name := "nvshare_nvml_up"
  help := "Whether NVML is available (1=yes, 0=no)"
  kind := "gauge"
  labels _ := []
  value := flag
  labels_ok _ _ h := absurd h List.not_mem_nil

def gpuInfo : Family NvmlGpu where
  name := "nvshare_gpu_info"
  help := "GPU device information"
  kind := "gauge"
  labels g := gpuLabels g ++ [label "gpu_name" g.gpuName.bytes]
  value _ := .integer 1
  labels_ok := labels_ok_of_names ["gpu_uuid", "gpu_index", "gpu_name"] (fun _ => rfl) (by decide)

def gpuMemoryTotal : Family NvmlGpu :=
  gpuMetric "nvshare_gpu_memory_total_bytes" "Total GPU memory in bytes"
    fun g => .integer g.memoryTotal

def gpuMemoryUsed : Family NvmlGpu :=
  gpuMetric "nvshare_gpu_memory_used_bytes" "Used GPU memory in bytes"
    fun g => .integer g.memoryUsed

def gpuMemoryFree : Family NvmlGpu :=
  gpuMetric "nvshare_gpu_memory_free_bytes" "Free GPU memory in bytes"
    fun g => .integer g.memoryFree

def gpuUtilization : Family NvmlGpu :=
  gpuMetric "nvshare_gpu_utilization_ratio" "GPU utilization (0~1)" fun g => .ratio g.gpuUtil

def gpuMemoryUtilization : Family NvmlGpu :=
  gpuMetric "nvshare_gpu_memory_utilization_ratio" "Memory controller utilization (0~1)"
    fun g => .ratio g.memUtil

def gpuProcessCount : Family NvmlGpu :=
  gpuMetric "nvshare_gpu_process_count" "Number of compute processes on GPU"
    fun g => .integer g.processes.length

/-- `format_gpu_metrics`. -/
def formatGpuMetrics (nvml : NvmlSnapshot) (b : MetricsBuf) : MetricsBuf :=
  if !nvml.available then formatSingle nvmlUp false b
  else
    let gpus := nvml.gpus.filter fun g => g.valid
    let b := formatSingle nvmlUp true b
    let b := formatFamily gpuInfo gpus b
    let b := formatFamily gpuMemoryTotal gpus b
    let b := formatFamily gpuMemoryUsed gpus b
    let b := formatFamily gpuMemoryFree gpus b
    let b := formatFamily gpuUtilization gpus b
    let b := formatFamily gpuMemoryUtilization gpus b
    formatFamily gpuProcessCount gpus b

/-! ## Memory of clients -/

def clientInfo : Family ClientSnapshot where
  name := "nvshare_client_info"
  help := "Client metadata (value=1)"
  kind := "gauge"
  labels c := clientLabels c ++
    [label "gpu_index" (decimal c.gpuIndex), label "host_pid" (decimal c.hostPid)]
  value _ := .integer 1
  labels_ok := labels_ok_of_names
    ["namespace", "pod", "client_id", "gpu_uuid", "gpu_index", "host_pid"] (fun _ => rfl)
    (by decide)

def clientManagedAllocated : Family ClientSnapshot :=
  clientMetric "nvshare_client_managed_allocated_bytes" "Current managed allocation"
    fun c => .integer c.memoryAllocated

def clientManagedAllocatedPeak : Family ClientSnapshot :=
  clientMetric "nvshare_client_managed_allocated_peak_bytes" "Lifetime peak managed allocation"
    fun c => .integer c.peakAllocated

def clientNvmlUsed (nvml : NvmlSnapshot) : Family ClientSnapshot where
  name := "nvshare_client_nvml_used_bytes"
  help := "NVML per-process GPU memory"
  kind := "gauge"
  labels c := clientLabels c ++ [label "host_pid" (decimal c.hostPid)]
  value c := .integer (nvmlUsed nvml c)
  labels_ok := labels_ok_of_names ["namespace", "pod", "client_id", "gpu_uuid", "host_pid"]
    (fun _ => rfl) (by decide)

def clientMemoryQuota : Family ClientSnapshot :=
  clientMetric "nvshare_client_memory_quota_bytes" "Configured memory quota (0=unlimited)"
    fun c => .integer c.memoryLimit

def clientMemoryQuotaExceeded : Family ClientSnapshot :=
  clientMetric "nvshare_client_memory_quota_exceeded" "Whether allocation exceeds quota (0/1)"
    fun c => flag (0 < c.memoryLimit && c.memoryLimit < c.memoryAllocated)

/-- `format_client_metrics`. -/
def formatClientMetrics (nvml : NvmlSnapshot) (snap : SchedulerSnapshot) (b : MetricsBuf) :
    MetricsBuf :=
  let b := formatFamily clientInfo snap.clients b
  let b := formatFamily clientManagedAllocated snap.clients b
  let b := formatFamily clientManagedAllocatedPeak snap.clients b
  let b := formatFamily (clientNvmlUsed nvml) (snap.clients.filter fun c => 0 < c.hostPid) b
  let b := formatFamily clientMemoryQuota snap.clients b
  formatFamily clientMemoryQuotaExceeded snap.clients b

/-! ## Compute time of clients -/

def clientCoreQuotaConfig : Family ClientSnapshot :=
  clientMetric "nvshare_client_core_quota_config_percent" "Configured compute quota (1-100)"
    fun c => .integer c.coreLimit

/-- The `effective_pct` of `format_compute_metrics`. -/
def effectivePct (c : ClientSnapshot) : ℤ :=
  if 0 < c.windowLimitMs then toInt32 ((c.effectiveQuotaMs * 100).tdiv c.windowLimitMs) else 100

def clientCoreQuotaEffective : Family ClientSnapshot :=
  clientMetric "nvshare_client_core_quota_effective_percent"
    "Effective compute quota after scaling" fun c => .integer (effectivePct c)

def clientCoreWindowUsage : Family ClientSnapshot :=
  clientMetric "nvshare_client_core_window_usage_ms" "Runtime in current window (ms)"
    fun c => .integer c.runTimeInWindowMs

def clientCoreWindowLimit : Family ClientSnapshot :=
  clientMetric "nvshare_client_core_window_limit_ms" "Window limit (ms)"
    fun c => .integer c.effectiveQuotaMs

/-- The `ratio` of `format_compute_metrics`, a quotient of two numbers of type `float`. -/
def usageRatio (c : ClientSnapshot) : ℚ :=
  if 0 < c.effectiveQuotaMs then
    single (single c.runTimeInWindowMs / single c.effectiveQuotaMs)
  else 0

def clientCoreUsageRatio : Family ClientSnapshot :=
  clientMetric "nvshare_client_core_usage_ratio" "usage_ms / limit_ms"
    fun c => .ratio (usageRatio c)

def clientThrottled : Family ClientSnapshot :=
  clientMetric "nvshare_client_throttled" "Whether client is throttled (0/1)"
    fun c => flag c.isThrottled

def clientPendingDrop : Family ClientSnapshot :=
  clientMetric "nvshare_client_pending_drop" "Whether DROP sent awaiting release (0/1)"
    fun c => flag c.pendingDrop

def clientQuotaDebt : Family ClientSnapshot :=
  clientMetric "nvshare_client_quota_debt_ms" "Carryover debt (ms)"
    fun c => .integer c.quotaDebtMs

/-- `format_compute_metrics`. -/
def formatComputeMetrics (snap : SchedulerSnapshot) (b : MetricsBuf) : MetricsBuf :=
  let b := formatFamily clientCoreQuotaConfig snap.clients b
  let b := formatFamily clientCoreQuotaEffective snap.clients b
  let b := formatFamily clientCoreWindowUsage snap.clients b
  let b := formatFamily clientCoreWindowLimit snap.clients b
  let b := formatFamily clientCoreUsageRatio snap.clients b
  let b := formatFamily clientThrottled snap.clients b
  let b := formatFamily clientPendingDrop snap.clients b
  formatFamily clientQuotaDebt snap.clients b

/-! ## Contexts -/

def schedulerRunningClients : Family ContextSnapshot :=
  contextMetric "nvshare_scheduler_running_clients" "Running list length"
    fun ctx => .integer ctx.runningCount

def schedulerRequestQueueClients : Family ContextSnapshot :=
  contextMetric "nvshare_scheduler_request_queue_clients" "Request queue length"
    fun ctx => .integer ctx.requestCount

def schedulerWaitQueueClients : Family ContextSnapshot :=
  contextMetric "nvshare_scheduler_wait_queue_clients" "Wait queue length"
    fun ctx => .integer ctx.waitCount

def schedulerRunningMemory : Family ContextSnapshot :=
  contextMetric "nvshare_scheduler_running_memory_bytes" "Total running managed memory"
    fun ctx => .integer ctx.runningMemory

def schedulerPeakRunningMemory : Family ContextSnapshot :=
  contextMetric "nvshare_scheduler_peak_running_memory_bytes" "Peak running memory"
    fun ctx => .integer ctx.peakMemory

def schedulerMemorySafeLimit : Family ContextSnapshot :=
  contextMetric "nvshare_scheduler_memory_safe_limit_bytes"
    "Safe memory limit (total*(1-reserve))" fun ctx => .integer ctx.safeLimit

def schedulerMemoryOverloaded : Family ContextSnapshot :=
  contextMetric "nvshare_scheduler_memory_overloaded" "Memory overload state (0/1)"
    fun ctx => flag ctx.memoryOverloaded

/-- `format_scheduler_metrics`. -/
def formatSchedulerMetrics (snap : SchedulerSnapshot) (b : MetricsBuf) : MetricsBuf :=
  let b := formatFamily schedulerRunningClients snap.contexts b
  let b := formatFamily schedulerRequestQueueClients snap.contexts b
  let b := formatFamily schedulerWaitQueueClients snap.contexts b
  let b := formatFamily schedulerRunningMemory snap.contexts b
  let b := formatFamily schedulerPeakRunningMemory snap.contexts b
  let b := formatFamily schedulerMemorySafeLimit snap.contexts b
  formatFamily schedulerMemoryOverloaded snap.contexts b

/-! ## Events -/

/-- The message types and their names. -/
def msgNames : List (Fin msgTypeCount × String) :=
  [(1, "REGISTER"), (2, "SCHED_ON"), (3, "SCHED_OFF"), (4, "REQ_LOCK"), (5, "LOCK_OK"),
    (6, "DROP_LOCK"), (7, "LOCK_RELEASED"), (8, "SET_TQ"), (9, "MEM_UPDATE"),
    (10, "WAIT_FOR_MEM"), (11, "MEM_AVAILABLE"), (12, "PREPARE_SWAP_OUT"),
    (13, "UPDATE_LIMIT"), (14, "UPDATE_CORE_LIMIT")]

def schedulerMessages (snap : SchedulerSnapshot) : Family (Fin msgTypeCount × String) where
  name := "nvshare_scheduler_messages_total"
  help := "Message counts by type"
  kind := "counter"
  labels m := [label "type" (bytesOf m.2)]
  value m := .integer (snap.msgCounts m.1).toNat
  labels_ok := labels_ok_of_names ["type"] (fun _ => rfl) (by decide)

def schedulerDropLock : Family UInt64 :=
  eventCounter "nvshare_scheduler_drop_lock_total" "DROP_LOCK events sent"

def schedulerClientDisconnect : Family UInt64 :=
  eventCounter "nvshare_scheduler_client_disconnect_total" "Client disconnects"

def schedulerWaitForMem : Family UInt64 :=
  eventCounter "nvshare_scheduler_wait_for_mem_total" "WAIT_FOR_MEM events sent"

def schedulerMemAvailable : Family UInt64 :=
  eventCounter "nvshare_scheduler_mem_available_total" "MEM_AVAILABLE events sent"

/-- `format_event_metrics`. -/
def formatEventMetrics (snap : SchedulerSnapshot) (b : MetricsBuf) : MetricsBuf :=
  let b := formatFamily (schedulerMessages snap) msgNames b
  let b := formatSingle schedulerDropLock snap.dropLockCount b
  let b := formatSingle schedulerClientDisconnect snap.clientDisconnectCount b
  let b := formatSingle schedulerWaitForMem snap.waitForMemCount b
  formatSingle schedulerMemAvailable snap.memAvailableCount b

/-! ## The page -/

/-- The buffer of `handle_metrics` after `format_gpu_metrics`, which reads the NVML snapshot
on its own. -/
def gpuPage (allocated : Bool) (nvml : NvmlSnapshot) : MetricsBuf :=
  formatGpuMetrics nvml (bufInit metricsBufferSize allocated)

/-- The buffer that `handle_metrics` sends. -/
def metricsPage (allocated : Bool) (nvml nvml' : NvmlSnapshot) (snap : SchedulerSnapshot) :
    MetricsBuf :=
  formatEventMetrics snap (formatSchedulerMetrics snap (formatComputeMetrics snap
    (formatClientMetrics nvml' snap (gpuPage allocated nvml))))

end XpuShare
