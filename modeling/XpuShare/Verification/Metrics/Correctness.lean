import XpuShare.Verification.Metrics.Bytes
import XpuShare.Verification.Scheduler.Runs

/-! The metrics page as an encoding of the scheduler's snapshot: it is faithful exactly when no
name needs escaping and the page fits into the buffer. -/

namespace XpuShare

open Printf Exposition

/-- What `handle_metrics` sends about the scheduler consists of complete lines, and its samples
are, in this order, one for each metric and client or context and one for each event counter,
with the labels and the integers of the snapshot. -/
def FaithfulPage (allocated : Bool) (nvml nvml' : NvmlSnapshot) (snap : SchedulerSnapshot) :
    Prop :=
  ∃ before body samples, (gpuPage allocated nvml).data = some before ∧
    (metricsPage allocated nvml nvml' snap).data = some (before ++ body) ∧
    readPage body = some samples ∧
    List.Forall₂ Sample.Agrees samples (seriesRows (schedulerSeries nvml' snap))

/-! ## Names that read as they stand -/

/-- What a client is called needs no escaping. -/
structure ClientSnapshot.Plain (c : ClientSnapshot) : Prop where
  podNamespace : Exposition.Plain c.podNamespace.bytes
  podName : Exposition.Plain c.podName.bytes
  gpuUuid : Exposition.Plain c.gpuUuid.bytes

theorem clientLabels_plain_iff (c : ClientSnapshot) :
    (∀ label ∈ clientLabels c, Plain label.2) ↔ c.Plain := by
  simp only [clientLabels, label, List.forall_mem_cons]
  constructor
  · rintro ⟨hnamespace, hname, -, huuid, -⟩
    exact ⟨hnamespace, hname, huuid⟩
  · intro h
    exact ⟨h.podNamespace, h.podName, hex16_plain c.id, h.gpuUuid, by simp⟩

theorem clientSeries_plain_iff (nvml : NvmlSnapshot) (clients : List ClientSnapshot) :
    (∀ s ∈ clientSeries nvml clients, s.Plain) ↔ ∀ c ∈ clients, c.Plain := by
  constructor
  · intro h c hc
    have hinfo := h ⟨clientInfo, clients⟩ List.mem_cons_self c hc
    rw [← clientLabels_plain_iff]
    intro label hlabel
    exact hinfo label (List.mem_append_left _ hlabel)
  · intro h
    have hplain : ∀ f : Family ClientSnapshot, f.labels = clientLabels →
        (Series.mk f clients).Plain := by
      intro f hlabels c hc
      have hlabel := (clientLabels_plain_iff c).mpr (h c hc)
      rwa [← hlabels] at hlabel
    have hinfo : (Series.mk clientInfo clients).Plain := by
      intro c hc label hlabel
      rcases List.mem_append.mp hlabel with hlabel | hlabel
      · exact (clientLabels_plain_iff c).mpr (h c hc) label hlabel
      · rcases List.mem_pair.mp hlabel with rfl | rfl
        · exact decimal_plain c.gpuIndex
        · exact decimal_plain c.hostPid
    have hnvml : (Series.mk (clientNvmlUsed nvml)
        (clients.filter fun c => 0 < c.hostPid)).Plain := by
      intro c hc label hlabel
      rcases List.mem_append.mp hlabel with hlabel | hlabel
      · exact (clientLabels_plain_iff c).mpr (h c (List.mem_filter.mp hc).1) label hlabel
      · rw [List.mem_singleton.mp hlabel]
        exact decimal_plain c.hostPid
    simp only [clientSeries, List.forall_mem_cons]
    exact ⟨hinfo, hplain _ rfl, hplain _ rfl, hnvml, hplain _ rfl, hplain _ rfl, hplain _ rfl,
      hplain _ rfl, hplain _ rfl, hplain _ rfl, hplain _ rfl, hplain _ rfl, hplain _ rfl,
      hplain _ rfl, by simp⟩

theorem contextLabels_plain_iff (ctx : ContextSnapshot) :
    (∀ label ∈ contextLabels ctx, Plain label.2) ↔ Plain ctx.uuid.bytes := by
  simp only [contextLabels, label, List.forall_mem_cons]
  constructor
  · rintro ⟨huuid, -⟩
    exact huuid
  · intro huuid
    exact ⟨huuid, decimal_plain ctx.gpuIndex, by simp⟩

theorem contextSeries_plain_iff (contexts : List ContextSnapshot) :
    (∀ s ∈ contextSeries contexts, s.Plain) ↔ ∀ ctx ∈ contexts, Plain ctx.uuid.bytes := by
  constructor
  · intro h ctx hctx
    have hrunning := h ⟨schedulerRunningClients, contexts⟩ List.mem_cons_self ctx hctx
    exact (contextLabels_plain_iff ctx).mp hrunning
  · intro h
    have hplain : ∀ f : Family ContextSnapshot, f.labels = contextLabels →
        (Series.mk f contexts).Plain := by
      intro f hlabels ctx hctx
      have hlabel := (contextLabels_plain_iff ctx).mpr (h ctx hctx)
      rwa [← hlabels] at hlabel
    simp only [contextSeries, List.forall_mem_cons]
    exact ⟨hplain _ rfl, hplain _ rfl, hplain _ rfl, hplain _ rfl, hplain _ rfl, hplain _ rfl,
      hplain _ rfl, by simp⟩

theorem eventSeries_plain (snap : SchedulerSnapshot) : ∀ s ∈ eventSeries snap, s.Plain := by
  have hmessages : (Series.mk (schedulerMessages snap) msgNames).Plain := by
    have hnames : (msgNames.all fun m => (bytesOf m.2).all isPlainByte) = true := by decide
    intro m hm label hlabel
    rw [List.mem_singleton.mp hlabel]
    exact plain_of_bytes (List.all_eq_true.mp (List.all_eq_true.mp hnames m hm))
  have hcounter : ∀ (f : Family UInt64) (count : UInt64), f.labels count = [] →
      (Series.mk f [count]).Plain := by
    intro f count hlabels a ha label hlabel
    rw [List.mem_singleton.mp ha, hlabels] at hlabel
    cases hlabel
  simp only [eventSeries, List.forall_mem_cons]
  exact ⟨hmessages, hcounter _ _ rfl, hcounter _ _ rfl, hcounter _ _ rfl, hcounter _ _ rfl,
    by simp⟩

/-- Whether the page needs escaping is decided by what clients and contexts are called. -/
theorem schedulerSeries_plain_iff (nvml : NvmlSnapshot) (snap : SchedulerSnapshot) :
    (∀ s ∈ schedulerSeries nvml snap, s.Plain) ↔
      (∀ c ∈ snap.clients, c.Plain) ∧ ∀ ctx ∈ snap.contexts, Plain ctx.uuid.bytes := by
  rw [schedulerSeries, List.forall_mem_append, List.forall_mem_append, clientSeries_plain_iff,
    contextSeries_plain_iff]
  exact ⟨fun h => h.1, fun h => ⟨h, eventSeries_plain snap⟩⟩

/-! ## The page as far as there is room -/

theorem endsInRow_schedulerSeries (nvml : NvmlSnapshot) (snap : SchedulerSnapshot) :
    EndsInRow (seriesLines (schedulerSeries nvml snap)) := by
  have hsplit : schedulerSeries nvml snap = (clientSeries nvml snap.clients ++
      contextSeries snap.contexts ++ (eventSeries snap).take 4) ++
        [⟨schedulerMemAvailable, [snap.memAvailableCount]⟩] := by
    rw [schedulerSeries, List.append_assoc _ ((eventSeries snap).take 4)]
    rfl
  rw [hsplit]
  exact endsInRow_seriesLines _ (List.cons_ne_nil _ _)

/-- What is sent about the scheduler is the beginning of its part of the page. -/
theorem body_eq (nvml nvml' : NvmlSnapshot) (snap : SchedulerSnapshot) :
    ∃ before, (gpuPage true nvml).data = some before ∧
      (metricsPage true nvml nvml' snap).data = some (before ++
        (pageText (seriesLines (schedulerSeries nvml' snap))).take
          (metricsBufferSize - 1 - gpuPageBytes nvml)) := by
  refine ⟨(pageText (seriesLines (gpuSeries nvml))).take (metricsBufferSize - 1), ?_, ?_⟩
  · rw [gpuPage_eq]
    rfl
  · rw [metricsPage_eq, MetricsBuf.written]
    simp only [if_pos]
    rw [List.take_append, pageText_length, gpuSeries_width]

theorem schedulerBytes_pos (nvml : NvmlSnapshot) (snap : SchedulerSnapshot) :
    0 < schedulerBytes nvml snap := by
  unfold schedulerBytes
  omega

/-- With memory for the buffer, the page is faithful if and only if its part about the
scheduler fits behind the part about GPUs and reads as it stands. -/
theorem faithfulPage_true_iff (nvml nvml' : NvmlSnapshot) (snap : SchedulerSnapshot) :
    FaithfulPage true nvml nvml' snap ↔
      schedulerBytes nvml' snap ≤ metricsBufferSize - 1 - gpuPageBytes nvml ∧
        ∀ s ∈ schedulerSeries nvml' snap, s.Plain := by
  obtain ⟨before, hgpu, hpage⟩ := body_eq nvml nvml' snap
  rw [← schedulerSeries_width,
    ← series_reads_iff (endsInRow_schedulerSeries nvml' snap)]
  constructor
  · rintro ⟨first, body, samples, hfirst, hbody, hread, hagree⟩
    rw [hgpu, Option.some.injEq] at hfirst
    rw [hpage, hfirst, Option.some.injEq, List.append_cancel_left_eq] at hbody
    rw [hbody]
    exact ⟨samples, hread, hagree⟩
  · rintro ⟨samples, hread, hagree⟩
    exact ⟨before, _, samples, hgpu, hpage, hread, hagree⟩

/-- The page is a faithful encoding of the snapshot if and only if there is memory for the
buffer, the page fits into it, and no name needs escaping. -/
theorem faithfulPage_iff (allocated : Bool) (nvml nvml' : NvmlSnapshot)
    (snap : SchedulerSnapshot) :
    FaithfulPage allocated nvml nvml' snap ↔
      allocated = true ∧
        gpuPageBytes nvml + schedulerBytes nvml' snap ≤ metricsBufferSize - 1 ∧
        (∀ c ∈ snap.clients, c.Plain) ∧ ∀ ctx ∈ snap.contexts, Plain ctx.uuid.bytes := by
  cases allocated with
  | false =>
      constructor
      · rintro ⟨before, body, samples, hgpu, -⟩
        rw [gpuPage_eq] at hgpu
        cases hgpu
      · rintro ⟨hmemory, -⟩
        cases hmemory
  | true =>
      have hroom : schedulerBytes nvml' snap ≤ metricsBufferSize - 1 - gpuPageBytes nvml ↔
          gpuPageBytes nvml + schedulerBytes nvml' snap ≤ metricsBufferSize - 1 := by
        have hpos := schedulerBytes_pos nvml' snap
        omega
      rw [faithfulPage_true_iff, schedulerSeries_plain_iff, hroom]
      exact ⟨fun h => ⟨rfl, h⟩, fun h => h.2⟩

/-- A snapshot of as many clients as the array holds never fits. -/
theorem full_snapshot_truncated (nvml nvml' : NvmlSnapshot) {snap : SchedulerSnapshot}
    (hfull : snap.clients.length = maxSnapshotClients) :
    ¬ FaithfulPage true nvml nvml' snap := by
  intro h
  have hfits := ((faithfulPage_true_iff nvml nvml' snap).mp h).1
  have hclients : ∀ n ∈ snap.clients.map (clientBytes nvml'), 1293 ≤ n := by
    intro n hn
    obtain ⟨c, -, rfl⟩ := List.mem_map.mp hn
    unfold clientBytes
    omega
  have hsum := List.card_nsmul_le_sum _ 1293 hclients
  rw [List.length_map, hfull, smul_eq_mul] at hsum
  have hcap : metricsBufferSize - 1 < maxSnapshotClients * 1293 := by decide
  unfold schedulerBytes at hfits
  omega

/-- A pod whose name contains a quote makes the page unreadable. -/
theorem quoted_name_unfaithful :
    ∃ s, Transition.Reaches (Step (initConfig (environment [])) steady) Sched.init s ∧
      ∀ nvml, ¬ FaithfulPage true nvml nvml
        (metricsFillSchedulerSnapshot (initConfig (environment [])) {} s) := by
  obtain ⟨s, hs, hclients, hname⟩ := exists_reaches (initConfig (environment [])) steady
    (fun _ _ => True) 1
    [.accept {}, .message 0 (.register { podName := "a\"b" } { generatedId := 1 })]
    (fun s => s.clients.filter (hasRegistered s) = [0] ∧ (s.client 0).podName = "a\"b") rfl
  refine ⟨s, hs.mono fun _ _ _ h => h.2, fun nvml hfaithful => ?_⟩
  have hplain := ((faithfulPage_true_iff nvml nvml _).mp hfaithful).2
  rw [schedulerSeries_plain_iff] at hplain
  have hmem : snapshotClient (initConfig (environment [])) s 0 ∈
      ((s.clients.filter (hasRegistered s)).take maxSnapshotClients).map
        (snapshotClient (initConfig (environment [])) s) := by
    rw [hclients]
    exact List.mem_cons_self
  have hquote : quote ∉ (CString.copy (by decide) (s.client 0).podName :
      CString podNameLenMax).bytes := (hplain.1 _ hmem).podName.no_quote
  rw [hname] at hquote
  exact hquote (by decide)

end XpuShare
