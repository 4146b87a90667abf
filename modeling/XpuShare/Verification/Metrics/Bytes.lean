import XpuShare.Verification.Metrics.Page

/-! The length of the metrics page, in terms of the names and the numbers of the snapshots. -/

namespace XpuShare

open Printf Exposition

/-! ## Clients -/

/-- The bytes of what a client is called, which all its samples repeat. -/
def ClientSnapshot.nameBytes (c : ClientSnapshot) : ℕ :=
  c.podNamespace.bytes.length + c.podName.bytes.length + c.gpuUuid.bytes.length

/-- The bytes of the samples of a client. -/
def clientBytes (nvml : NvmlSnapshot) (c : ClientSnapshot) : ℕ :=
  1293 + 13 * c.nameBytes + decimalWidth c.gpuIndex + decimalWidth c.hostPid +
    decimalWidth c.memoryAllocated + decimalWidth c.peakAllocated + decimalWidth c.memoryLimit +
    decimalWidth c.coreLimit + decimalWidth (effectivePct c) + decimalWidth c.runTimeInWindowMs +
    decimalWidth c.effectiveQuotaMs + (Quantity.ratio (usageRatio c)).width +
    decimalWidth c.quotaDebtMs +
    if 0 < c.hostPid then
      106 + c.nameBytes + decimalWidth c.hostPid + decimalWidth (nvmlUsed nvml c)
    else 0

theorem flag_width (b : Bool) : (flag b).width = 1 := by
  cases b <;> simp [flag, Quantity.width, decimalWidth, digitCount]

theorem label_width (name : String) (value : Text) :
    labelWidth (label name value) = (bytesOf name).length + value.length + 4 := rfl

theorem clientLabels_width (c : ClientSnapshot) :
    ((clientLabels c).map labelWidth).sum = 61 + c.nameBytes := by
  have hkeys : (bytesOf "namespace").length = 9 ∧ (bytesOf "pod").length = 3 ∧
      (bytesOf "client_id").length = 9 ∧ (bytesOf "gpu_uuid").length = 8 := by decide
  simp only [clientLabels, label_width, List.map_cons, List.map_nil, List.sum_cons, List.sum_nil,
    hkeys, hex16_length, ClientSnapshot.nameBytes]
  omega

/-- The line of a metric that says of a client only what it is called. -/
theorem clientRow_width {f : Family ClientSnapshot} {c : ClientSnapshot} {n : ℕ} {v : Quantity}
    (hlabels : f.labels = clientLabels) (hname : (bytesOf f.name).length = n)
    (hvalue : f.value c = v) : (f.row c).width = n + 64 + c.nameBytes + v.width := by
  have hne : f.labels c ≠ [] := by
    rw [hlabels]
    exact List.cons_ne_nil _ _
  rw [f.row_width hne, hlabels, clientLabels_width, hname, hvalue]
  omega

theorem clientInfo_width (c : ClientSnapshot) :
    (clientInfo.row c).width =
      109 + c.nameBytes + decimalWidth c.gpuIndex + decimalWidth c.hostPid := by
  have hname : (bytesOf clientInfo.name).length = 19 := length_bytesOf_ofList _
  have hkeys : (bytesOf "gpu_index").length = 9 ∧ (bytesOf "host_pid").length = 8 := by decide
  have hvalue : (clientInfo.value c).width = 1 := flag_width true
  have hlabels : clientInfo.labels c = clientLabels c ++
    [label "gpu_index" (decimal c.gpuIndex), label "host_pid" (decimal c.hostPid)] := rfl
  rw [clientInfo.row_width (by simp [hlabels]), hlabels, List.map_append, List.sum_append,
    clientLabels_width, hname, hvalue]
  simp only [label_width, List.map_cons, List.map_nil, List.sum_cons, List.sum_nil, hkeys,
    decimal_length]
  omega

theorem clientNvmlUsed_width (nvml : NvmlSnapshot) (c : ClientSnapshot) :
    ((clientNvmlUsed nvml).row c).width =
      106 + c.nameBytes + decimalWidth c.hostPid + decimalWidth (nvmlUsed nvml c) := by
  have hname : (bytesOf (clientNvmlUsed nvml).name).length = 30 := length_bytesOf_ofList _
  have hkey : (bytesOf "host_pid").length = 8 := by decide
  have hlabels : (clientNvmlUsed nvml).labels c =
    clientLabels c ++ [label "host_pid" (decimal c.hostPid)] := rfl
  rw [(clientNvmlUsed nvml).row_width (by simp [hlabels]), hlabels, List.map_append,
    List.sum_append, clientLabels_width, hname]
  simp only [label_width, List.map_cons, List.map_nil, List.sum_cons, List.sum_nil, hkey,
    decimal_length, clientNvmlUsed, Quantity.width]
  omega

/-- A client adds its own bytes to the page. -/
theorem clientSeries_cons (nvml : NvmlSnapshot) (c : ClientSnapshot)
    (clients : List ClientSnapshot) :
    seriesWidth (clientSeries nvml (c :: clients)) =
      clientBytes nvml c + seriesWidth (clientSeries nvml clients) := by
  have hmemory : (clientManagedAllocated.row c).width =
        38 + 64 + c.nameBytes + (Quantity.integer c.memoryAllocated).width ∧
      (clientManagedAllocatedPeak.row c).width =
        43 + 64 + c.nameBytes + (Quantity.integer c.peakAllocated).width ∧
      (clientMemoryQuota.row c).width =
        33 + 64 + c.nameBytes + (Quantity.integer c.memoryLimit).width := by
    refine ⟨?_, ?_, ?_⟩ <;> exact clientRow_width rfl (length_bytesOf_ofList _) rfl
  have hquota : (clientCoreQuotaConfig.row c).width =
        40 + 64 + c.nameBytes + (Quantity.integer c.coreLimit).width ∧
      (clientCoreQuotaEffective.row c).width =
        43 + 64 + c.nameBytes + (Quantity.integer (effectivePct c)).width ∧
      (clientCoreWindowUsage.row c).width =
        35 + 64 + c.nameBytes + (Quantity.integer c.runTimeInWindowMs).width ∧
      (clientCoreWindowLimit.row c).width =
        35 + 64 + c.nameBytes + (Quantity.integer c.effectiveQuotaMs).width ∧
      (clientCoreUsageRatio.row c).width =
        31 + 64 + c.nameBytes + (Quantity.ratio (usageRatio c)).width ∧
      (clientQuotaDebt.row c).width =
        28 + 64 + c.nameBytes + (Quantity.integer c.quotaDebtMs).width := by
    refine ⟨?_, ?_, ?_, ?_, ?_, ?_⟩ <;> exact clientRow_width rfl (length_bytesOf_ofList _) rfl
  have hflags : (clientMemoryQuotaExceeded.row c).width = 36 + 64 + c.nameBytes +
        (flag (0 < c.memoryLimit && c.memoryLimit < c.memoryAllocated)).width ∧
      (clientThrottled.row c).width = 24 + 64 + c.nameBytes + (flag c.isThrottled).width ∧
      (clientPendingDrop.row c).width = 27 + 64 + c.nameBytes + (flag c.pendingDrop).width := by
    refine ⟨?_, ?_, ?_⟩ <;> exact clientRow_width rfl (length_bytesOf_ofList _) rfl
  have hnvml : (Series.mk (clientNvmlUsed nvml)
        ((c :: clients).filter fun c => 0 < c.hostPid)).width =
      (if 0 < c.hostPid then ((clientNvmlUsed nvml).row c).width else 0) +
        (Series.mk (clientNvmlUsed nvml) (clients.filter fun c => 0 < c.hostPid)).width := by
    by_cases hpid : 0 < c.hostPid
    · rw [List.filter_cons_of_pos (by simpa using hpid), Series.width_cons, if_pos hpid]
    · rw [List.filter_cons_of_neg (by simpa using hpid), if_neg hpid, Nat.zero_add]
  simp only [clientSeries, seriesWidth_cons, seriesWidth_nil, hnvml, Series.width_cons,
    clientInfo_width, clientNvmlUsed_width, hmemory, hquota, hflags, flag_width,
    Quantity.width_integer, clientBytes]
  omega

theorem clientSeries_nil (nvml : NvmlSnapshot) :
    seriesWidth (clientSeries nvml []) = 1658 := by
  have hmemory : clientInfo.headerWidth = 86 ∧ clientManagedAllocated.headerWidth = 125 ∧
      clientManagedAllocatedPeak.headerWidth = 141 ∧
      (clientNvmlUsed nvml).headerWidth = 110 ∧ clientMemoryQuota.headerWidth = 126 ∧
      clientMemoryQuotaExceeded.headerWidth = 133 := by
    refine ⟨?_, ?_, ?_, ?_, ?_, ?_⟩ <;>
      exact Eq.trans (Family.headerWidth_ofList rfl rfl rfl) rfl
  have hcompute : clientCoreQuotaConfig.headerWidth = 135 ∧
      clientCoreQuotaEffective.headerWidth = 146 ∧ clientCoreWindowUsage.headerWidth = 123 ∧
      clientCoreWindowLimit.headerWidth = 110 ∧ clientCoreUsageRatio.headerWidth = 104 ∧
      clientThrottled.headerWidth = 104 ∧ clientPendingDrop.headerWidth = 117 ∧
      clientQuotaDebt.headerWidth = 98 := by
    refine ⟨?_, ?_, ?_, ?_, ?_, ?_, ?_, ?_⟩ <;>
      exact Eq.trans (Family.headerWidth_ofList rfl rfl rfl) rfl
  simp only [clientSeries, List.filter_nil, seriesWidth_cons, seriesWidth_nil, Series.width_nil,
    hmemory, hcompute]

theorem clientSeries_width (nvml : NvmlSnapshot) (clients : List ClientSnapshot) :
    seriesWidth (clientSeries nvml clients) = 1658 + (clients.map (clientBytes nvml)).sum := by
  induction clients with
  | nil => rw [clientSeries_nil, List.map_nil, List.sum_nil, Nat.add_zero]
  | cons c clients ih =>
      rw [clientSeries_cons, ih, List.map_cons, List.sum_cons]
      exact Nat.add_left_comm _ _ _

/-! ## Contexts -/

/-- The bytes of the samples of a context. -/
def contextBytes (ctx : ContextSnapshot) : ℕ :=
  462 + 7 * (ctx.uuid.bytes.length + decimalWidth ctx.gpuIndex) + decimalWidth ctx.runningCount +
    decimalWidth ctx.requestCount + decimalWidth ctx.waitCount + decimalWidth ctx.runningMemory +
    decimalWidth ctx.peakMemory + decimalWidth ctx.safeLimit

theorem deviceLabels_width (uuid : Text) (index : ℤ) :
    ([label "gpu_uuid" uuid, label "gpu_index" (decimal index)].map labelWidth).sum =
      25 + (uuid.length + decimalWidth index) := by
  have hkeys : (bytesOf "gpu_uuid").length = 8 ∧ (bytesOf "gpu_index").length = 9 := by decide
  simp only [label_width, List.map_cons, List.map_nil, List.sum_cons, List.sum_nil, hkeys,
    decimal_length]
  omega

theorem contextRow_width {f : Family ContextSnapshot} {ctx : ContextSnapshot} {n : ℕ}
    {v : Quantity} (hlabels : f.labels = contextLabels) (hname : (bytesOf f.name).length = n)
    (hvalue : f.value ctx = v) :
    (f.row ctx).width =
      n + 28 + (ctx.uuid.bytes.length + decimalWidth ctx.gpuIndex) + v.width := by
  have hne : f.labels ctx ≠ [] := by
    rw [hlabels]
    exact List.cons_ne_nil _ _
  rw [f.row_width hne, hlabels, contextLabels, deviceLabels_width, hname, hvalue]
  omega

/-- A context adds its own bytes to the page. -/
theorem contextSeries_cons (ctx : ContextSnapshot) (contexts : List ContextSnapshot) :
    seriesWidth (contextSeries (ctx :: contexts)) =
      contextBytes ctx + seriesWidth (contextSeries contexts) := by
  have hqueues : (schedulerRunningClients.row ctx).width = 33 + 28 +
        (ctx.uuid.bytes.length + decimalWidth ctx.gpuIndex) +
        (Quantity.integer ctx.runningCount).width ∧
      (schedulerRequestQueueClients.row ctx).width = 39 + 28 +
        (ctx.uuid.bytes.length + decimalWidth ctx.gpuIndex) +
        (Quantity.integer ctx.requestCount).width ∧
      (schedulerWaitQueueClients.row ctx).width = 36 + 28 +
        (ctx.uuid.bytes.length + decimalWidth ctx.gpuIndex) +
        (Quantity.integer ctx.waitCount).width := by
    refine ⟨?_, ?_, ?_⟩ <;> exact contextRow_width rfl (length_bytesOf_ofList _) rfl
  have hmemory : (schedulerRunningMemory.row ctx).width = 38 + 28 +
        (ctx.uuid.bytes.length + decimalWidth ctx.gpuIndex) +
        (Quantity.integer ctx.runningMemory).width ∧
      (schedulerPeakRunningMemory.row ctx).width = 43 + 28 +
        (ctx.uuid.bytes.length + decimalWidth ctx.gpuIndex) +
        (Quantity.integer ctx.peakMemory).width ∧
      (schedulerMemorySafeLimit.row ctx).width = 41 + 28 +
        (ctx.uuid.bytes.length + decimalWidth ctx.gpuIndex) +
        (Quantity.integer ctx.safeLimit).width ∧
      (schedulerMemoryOverloaded.row ctx).width = 35 + 28 +
        (ctx.uuid.bytes.length + decimalWidth ctx.gpuIndex) +
        (flag ctx.memoryOverloaded).width := by
    refine ⟨?_, ?_, ?_, ?_⟩ <;> exact contextRow_width rfl (length_bytesOf_ofList _) rfl
  simp only [contextSeries, seriesWidth_cons, seriesWidth_nil, Series.width_cons, hqueues,
    hmemory, flag_width, Quantity.width_integer, contextBytes]
  omega

theorem contextSeries_nil : seriesWidth (contextSeries []) = 858 := by
  have hheaders : schedulerRunningClients.headerWidth = 108 ∧
      schedulerRequestQueueClients.headerWidth = 121 ∧
      schedulerWaitQueueClients.headerWidth = 112 ∧ schedulerRunningMemory.headerWidth = 127 ∧
      schedulerPeakRunningMemory.headerWidth = 128 ∧
      schedulerMemorySafeLimit.headerWidth = 142 ∧
      schedulerMemoryOverloaded.headerWidth = 120 := by
    refine ⟨?_, ?_, ?_, ?_, ?_, ?_, ?_⟩ <;>
      exact Eq.trans (Family.headerWidth_ofList rfl rfl rfl) rfl
  simp only [contextSeries, seriesWidth_cons, seriesWidth_nil, Series.width_nil, hheaders]

theorem contextSeries_width (contexts : List ContextSnapshot) :
    seriesWidth (contextSeries contexts) = 858 + (contexts.map contextBytes).sum := by
  induction contexts with
  | nil => rw [contextSeries_nil, List.map_nil, List.sum_nil, Nat.add_zero]
  | cons ctx contexts ih =>
      rw [contextSeries_cons, ih, List.map_cons, List.sum_cons]
      exact Nat.add_left_comm _ _ _

/-! ## Events -/

/-- The digits of the event counters. -/
def eventDigits (snap : SchedulerSnapshot) : ℕ :=
  (msgNames.map fun m => digitCount (snap.msgCounts m.1).toNat).sum +
    digitCount snap.dropLockCount.toNat + digitCount snap.clientDisconnectCount.toNat +
    digitCount snap.waitForMemCount.toNat + digitCount snap.memAvailableCount.toNat

theorem decimalWidth_natCast (n : ℕ) : decimalWidth n = digitCount n := by
  rw [decimalWidth, if_neg (Int.not_lt.mpr (Int.natCast_nonneg n)), Nat.zero_add,
    Int.natAbs_natCast]

theorem messageRow_width (snap : SchedulerSnapshot) (m : Fin msgTypeCount × String) :
    ((schedulerMessages snap).row m).width =
      43 + (bytesOf m.2).length + digitCount (snap.msgCounts m.1).toNat := by
  have hname : (bytesOf (schedulerMessages snap).name).length = 32 := length_bytesOf_ofList _
  have hkey : (bytesOf "type").length = 4 := by decide
  have hlabels : (schedulerMessages snap).labels m = [label "type" (bytesOf m.2)] := rfl
  have hvalue : (schedulerMessages snap).value m = .integer (snap.msgCounts m.1).toNat := rfl
  rw [(schedulerMessages snap).row_width (by simp [hlabels]), hname, hlabels, hvalue,
    List.map_singleton, List.sum_singleton, label_width, hkey, Quantity.width_integer,
    decimalWidth_natCast]
  omega

theorem messages_width (snap : SchedulerSnapshot) :
    (Series.mk (schedulerMessages snap) msgNames).width =
      861 + (msgNames.map fun m => digitCount (snap.msgCounts m.1).toNat).sum := by
  have hheader : (schedulerMessages snap).headerWidth = 111 :=
    Eq.trans (Family.headerWidth_ofList rfl rfl rfl) rfl
  have hnames : (msgNames.map fun m => 43 + (bytesOf m.2).length).sum = 750 := by decide
  have hsplit : (msgNames.map fun m => ((schedulerMessages snap).row m).width).sum =
      750 + (msgNames.map fun m => digitCount (snap.msgCounts m.1).toNat).sum := by
    rw [← hnames, ← List.sum_map_add]
    exact congrArg List.sum (List.map_congr_left fun m _ => messageRow_width snap m)
  rw [Series.width, hheader, hsplit]
  omega

/-- A counter without labels, with its header. -/
theorem counter_width (f : Family UInt64) (count : UInt64) (hlabels : f.labels count = [])
    (hvalue : f.value count = .integer count.toNat) :
    (Series.mk f [count]).width =
      f.headerWidth + (bytesOf f.name).length + 2 + digitCount count.toNat := by
  rw [Series.width_cons, Series.width_nil, f.row_width_of_nil hlabels, hvalue,
    Quantity.width_integer, decimalWidth_natCast]
  omega

theorem eventSeries_width (snap : SchedulerSnapshot) :
    seriesWidth (eventSeries snap) = 1498 + eventDigits snap := by
  have hheaders : schedulerDropLock.headerWidth = 112 ∧
      schedulerClientDisconnect.headerWidth = 125 ∧ schedulerWaitForMem.headerWidth = 121 ∧
      schedulerMemAvailable.headerWidth = 124 := by
    refine ⟨?_, ?_, ?_, ?_⟩ <;> exact Eq.trans (Family.headerWidth_ofList rfl rfl rfl) rfl
  have hnames : (bytesOf schedulerDropLock.name).length = 33 ∧
      (bytesOf schedulerClientDisconnect.name).length = 41 ∧
      (bytesOf schedulerWaitForMem.name).length = 36 ∧
      (bytesOf schedulerMemAvailable.name).length = 37 := by
    refine ⟨?_, ?_, ?_, ?_⟩ <;> exact length_bytesOf_ofList _
  simp only [eventSeries, seriesWidth_cons, seriesWidth_nil, messages_width,
    counter_width schedulerDropLock _ rfl rfl, counter_width schedulerClientDisconnect _ rfl rfl,
    counter_width schedulerWaitForMem _ rfl rfl, counter_width schedulerMemAvailable _ rfl rfl,
    hheaders, hnames, eventDigits]
  omega

/-! ## GPUs -/

/-- The bytes of the samples of a GPU. -/
def gpuBytes (g : NvmlGpu) : ℕ :=
  403 + 7 * (g.uuid.bytes.length + decimalWidth g.gpuIndex) + g.gpuName.bytes.length +
    digitCount g.memoryTotal + digitCount g.memoryUsed + digitCount g.memoryFree +
    (Quantity.ratio g.gpuUtil).width + (Quantity.ratio g.memUtil).width +
    digitCount g.processes.length

theorem gpuRow_width {f : Family NvmlGpu} {g : NvmlGpu} {n : ℕ} {v : Quantity}
    (hlabels : f.labels = gpuLabels) (hname : (bytesOf f.name).length = n)
    (hvalue : f.value g = v) :
    (f.row g).width = n + 28 + (g.uuid.bytes.length + decimalWidth g.gpuIndex) + v.width := by
  have hne : f.labels g ≠ [] := by
    rw [hlabels]
    exact List.cons_ne_nil _ _
  rw [f.row_width hne, hlabels, gpuLabels, deviceLabels_width, hname, hvalue]
  omega

theorem gpuInfo_width (g : NvmlGpu) :
    (gpuInfo.row g).width =
      57 + (g.uuid.bytes.length + decimalWidth g.gpuIndex) + g.gpuName.bytes.length := by
  have hname : (bytesOf gpuInfo.name).length = 16 := length_bytesOf_ofList _
  have hkey : (bytesOf "gpu_name").length = 8 := by decide
  have hvalue : (gpuInfo.value g).width = 1 := flag_width true
  have hlabels : gpuInfo.labels g = gpuLabels g ++ [label "gpu_name" g.gpuName.bytes] := rfl
  rw [gpuInfo.row_width (by simp [hlabels]), hlabels, List.map_append, List.sum_append, gpuLabels,
    deviceLabels_width, hname, hvalue, List.map_singleton, List.sum_singleton, label_width, hkey]
  omega

/-- A GPU adds its own bytes to the page. -/
theorem deviceSeries_cons (g : NvmlGpu) (gpus : List NvmlGpu) :
    seriesWidth (deviceSeries (g :: gpus)) = gpuBytes g + seriesWidth (deviceSeries gpus) := by
  have hmemory : (gpuMemoryTotal.row g).width = 30 + 28 +
        (g.uuid.bytes.length + decimalWidth g.gpuIndex) + (Quantity.integer g.memoryTotal).width ∧
      (gpuMemoryUsed.row g).width = 29 + 28 +
        (g.uuid.bytes.length + decimalWidth g.gpuIndex) + (Quantity.integer g.memoryUsed).width ∧
      (gpuMemoryFree.row g).width = 29 + 28 +
        (g.uuid.bytes.length + decimalWidth g.gpuIndex) +
          (Quantity.integer g.memoryFree).width := by
    refine ⟨?_, ?_, ?_⟩ <;> exact gpuRow_width rfl (length_bytesOf_ofList _) rfl
  have hload : (gpuUtilization.row g).width = 29 + 28 +
        (g.uuid.bytes.length + decimalWidth g.gpuIndex) + (Quantity.ratio g.gpuUtil).width ∧
      (gpuMemoryUtilization.row g).width = 36 + 28 +
        (g.uuid.bytes.length + decimalWidth g.gpuIndex) + (Quantity.ratio g.memUtil).width ∧
      (gpuProcessCount.row g).width = 25 + 28 +
        (g.uuid.bytes.length + decimalWidth g.gpuIndex) +
        (Quantity.integer g.processes.length).width := by
    refine ⟨?_, ?_, ?_⟩ <;> exact gpuRow_width rfl (length_bytesOf_ofList _) rfl
  simp only [deviceSeries, seriesWidth_cons, seriesWidth_nil, Series.width_cons, gpuInfo_width,
    hmemory, hload, Quantity.width_integer, decimalWidth_natCast, gpuBytes]
  omega

theorem deviceSeries_nil : seriesWidth (deviceSeries []) = 734 := by
  have hheaders : gpuInfo.headerWidth = 77 ∧ gpuMemoryTotal.headerWidth = 108 ∧
      gpuMemoryUsed.headerWidth = 105 ∧ gpuMemoryFree.headerWidth = 105 ∧
      gpuUtilization.headerWidth = 102 ∧ gpuMemoryUtilization.headerWidth = 130 ∧
      gpuProcessCount.headerWidth = 107 := by
    refine ⟨?_, ?_, ?_, ?_, ?_, ?_, ?_⟩ <;>
      exact Eq.trans (Family.headerWidth_ofList rfl rfl rfl) rfl
  simp only [deviceSeries, seriesWidth_cons, seriesWidth_nil, Series.width_nil, hheaders]

theorem deviceSeries_width (gpus : List NvmlGpu) :
    seriesWidth (deviceSeries gpus) = 734 + (gpus.map gpuBytes).sum := by
  induction gpus with
  | nil => rw [deviceSeries_nil, List.map_nil, List.sum_nil, Nat.add_zero]
  | cons g gpus ih =>
      rw [deviceSeries_cons, ih, List.map_cons, List.sum_cons]
      exact Nat.add_left_comm _ _ _

/-- The bytes of the part about GPUs. -/
def gpuPageBytes (nvml : NvmlSnapshot) : ℕ :=
  110 + if nvml.available then
    734 + ((nvml.gpus.filter fun g => g.valid).map gpuBytes).sum else 0

theorem gpuSeries_width (nvml : NvmlSnapshot) :
    seriesWidth (gpuSeries nvml) = gpuPageBytes nvml := by
  have hup : ∀ b, (Series.mk nvmlUp [b]).width = 110 := by
    intro b
    have hheader : nvmlUp.headerWidth = 92 :=
      Eq.trans (Family.headerWidth_ofList rfl rfl rfl) rfl
    have hname : (bytesOf nvmlUp.name).length = 15 := length_bytesOf_ofList _
    have hvalue : (nvmlUp.value b).width = 1 := flag_width b
    rw [Series.width_cons, Series.width_nil, nvmlUp.row_width_of_nil rfl, hname, hvalue, hheader]
  rw [gpuSeries, gpuPageBytes]
  split
  · rw [seriesWidth_cons, hup, deviceSeries_width]
  · rw [seriesWidth_cons, hup, seriesWidth_nil]

/-! ## The page -/

/-- The bytes of the scheduler's part of the page. -/
def schedulerBytes (nvml : NvmlSnapshot) (snap : SchedulerSnapshot) : ℕ :=
  4014 + (snap.clients.map (clientBytes nvml)).sum + (snap.contexts.map contextBytes).sum +
    eventDigits snap

theorem schedulerSeries_width (nvml : NvmlSnapshot) (snap : SchedulerSnapshot) :
    seriesWidth (schedulerSeries nvml snap) = schedulerBytes nvml snap := by
  rw [schedulerSeries, seriesWidth_append, seriesWidth_append, clientSeries_width,
    contextSeries_width, eventSeries_width, schedulerBytes]
  omega

end XpuShare
