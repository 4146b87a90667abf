import XpuShare.Verification.Scheduler.Runs
import XpuShare.Verification.Scheduler.Tuning

/-! # Effective quotas

The quotas of the limited clients of a context are shares of the window, rounded down twice.
Together they fit in the window, and they keep the order of the compute limits. A share that
is rounded down to nothing keeps its client from ever running. -/

namespace XpuShare

variable {cfg : Config} {s : Sched} {x : CtxId} {c d : ClientId}

/-- The quota-limited clients of a context, in the order of the client list. -/
def limitedClients (s : Sched) (x : CtxId) : List ClientId :=
  s.clients.filter fun c => (s.client c).context = some x && (s.client c).coreLimit < 100

/-- The sum of their compute limits. -/
def limitSum (s : Sched) (x : CtxId) : ℤ :=
  ((limitedClients s x).map fun c => (s.client c).coreLimit).sum

/-- Every connected client has a compute limit in 1..100. -/
def LimitsAdmitted (s : Sched) : Prop :=
  ∀ c ∈ s.clients, 1 ≤ (s.client c).coreLimit ∧ (s.client c).coreLimit ≤ 100

instance (s : Sched) : Decidable (LimitsAdmitted s) :=
  inferInstanceAs (Decidable (∀ c ∈ s.clients, _))

theorem mem_limitedClients : c ∈ limitedClients s x ↔
    c ∈ s.clients ∧ (s.client c).context = some x ∧ (s.client c).coreLimit < 100 := by
  simp [limitedClients]

theorem calculateTotalQuota_eq (s : Sched) (x : CtxId) :
    calculateTotalQuota s x = if 0 < limitSum s x then limitSum s x else 100 := rfl

theorem limitSum_le_total (s : Sched) (x : CtxId) : limitSum s x ≤ calculateTotalQuota s x := by
  rw [calculateTotalQuota_eq]
  split
  · exact le_rfl
  · omega

/-- With a limited client among them, the limits sum to something positive. -/
theorem limitSum_pos (h : LimitsAdmitted s) (hc : c ∈ limitedClients s x) : 0 < limitSum s x := by
  have hpos : ∀ v ∈ (limitedClients s x).map fun c => (s.client c).coreLimit, 0 ≤ v := by
    intro v hv
    obtain ⟨d, hd, rfl⟩ := List.mem_map.mp hv
    have hlimit := (h d (mem_limitedClients.mp hd).1).1
    omega
  have hlimit := (h c (mem_limitedClients.mp hc).1).1
  have hle := List.single_le_sum hpos _ (List.mem_map_of_mem hc)
  unfold limitSum
  omega

/-- The quota of a client with a limit that is not negative, with divisions that round down. -/
theorem getEffectiveQuotaMs_eq (cfg : Config) (x : CtxId) (hc : 0 ≤ (s.client c).coreLimit) :
    getEffectiveQuotaMs cfg s x c =
      if calculateTotalQuota s x ≤ 100 then cfg.computeWindowMs * (s.client c).coreLimit / 100
      else cfg.computeWindowMs * (s.client c).coreLimit / 100 * 100 / calculateTotalQuota s x := by
  have hwindow := cfg.window_bounds
  have hproduct : 0 ≤ cfg.computeWindowMs * (s.client c).coreLimit :=
    mul_nonneg (by omega) hc
  have hbase : 0 ≤ cfg.computeWindowMs * (s.client c).coreLimit / 100 * 100 :=
    mul_nonneg (Int.ediv_nonneg hproduct (by norm_num)) (by norm_num)
  simp only [getEffectiveQuotaMs, Int.tdiv_eq_ediv_of_nonneg hproduct,
    Int.tdiv_eq_ediv_of_nonneg hbase]

/-- A quota is at most its share of the window: both roundings go down. -/
theorem quota_mul_le (cfg : Config) (x : CtxId) (hc : 0 ≤ (s.client c).coreLimit) :
    getEffectiveQuotaMs cfg s x c * max 100 (calculateTotalQuota s x) ≤
      cfg.computeWindowMs * (s.client c).coreLimit := by
  have hbase := Int.ediv_mul_le (cfg.computeWindowMs * (s.client c).coreLimit)
    (by norm_num : (100 : ℤ) ≠ 0)
  rw [getEffectiveQuotaMs_eq cfg x hc]
  split
  · rename_i htotal
    rwa [max_eq_left htotal]
  · rename_i htotal
    rw [max_eq_right (by omega)]
    exact (Int.ediv_mul_le _ (calculateTotalQuota_pos s x).ne').trans hbase

/-- The quotas of the limited clients of a context sum to at most the window. -/
theorem sum_quotas_le (cfg : Config) (h : LimitsAdmitted s) (x : CtxId) :
    ((limitedClients s x).map (getEffectiveQuotaMs cfg s x)).sum ≤ cfg.computeWindowMs := by
  have hwindow := cfg.window_bounds
  have hlimit : ∀ c ∈ limitedClients s x, 0 ≤ (s.client c).coreLimit := by
    intro c hc
    have := (h c (mem_limitedClients.mp hc).1).1
    omega
  have hscale : 0 < max 100 (calculateTotalQuota s x) := lt_max_of_lt_left (by norm_num)
  apply le_of_mul_le_mul_right _ hscale
  calc ((limitedClients s x).map (getEffectiveQuotaMs cfg s x)).sum *
        max 100 (calculateTotalQuota s x)
      = ((limitedClients s x).map fun c =>
          getEffectiveQuotaMs cfg s x c * max 100 (calculateTotalQuota s x)).sum := by
        rw [List.sum_map_mul_right]
    _ ≤ ((limitedClients s x).map fun c =>
          cfg.computeWindowMs * (s.client c).coreLimit).sum :=
        List.sum_le_sum fun c hc => quota_mul_le cfg x (hlimit c hc)
    _ = cfg.computeWindowMs * limitSum s x := by rw [List.sum_map_mul_left, limitSum]
    _ ≤ cfg.computeWindowMs * max 100 (calculateTotalQuota s x) :=
        mul_le_mul_of_nonneg_left ((limitSum_le_total s x).trans (le_max_right _ _)) (by omega)

/-- A larger limit never means a smaller quota. -/
theorem quota_mono (cfg : Config) (x : CtxId) (hc : 0 ≤ (s.client c).coreLimit)
    (hle : (s.client c).coreLimit ≤ (s.client d).coreLimit) :
    getEffectiveQuotaMs cfg s x c ≤ getEffectiveQuotaMs cfg s x d := by
  have hwindow := cfg.window_bounds
  have hbase : cfg.computeWindowMs * (s.client c).coreLimit / 100 ≤
      cfg.computeWindowMs * (s.client d).coreLimit / 100 :=
    Int.ediv_le_ediv (by norm_num) (mul_le_mul_of_nonneg_left hle (by omega))
  rw [getEffectiveQuotaMs_eq cfg x hc, getEffectiveQuotaMs_eq cfg x (hc.trans hle)]
  split
  · exact hbase
  · exact Int.ediv_le_ediv (calculateTotalQuota_pos s x)
      (mul_le_mul_of_nonneg_right hbase (by norm_num))

/-- The quotas of the limited clients of a context fit in the window and are ordered as their
limits are. -/
theorem effective_quotas_fit (cfg : Config) (h : LimitsAdmitted s) (x : CtxId) :
    ((limitedClients s x).map (getEffectiveQuotaMs cfg s x)).sum ≤ cfg.computeWindowMs ∧
      ∀ c ∈ limitedClients s x, ∀ d ∈ limitedClients s x,
        (s.client c).coreLimit ≤ (s.client d).coreLimit →
          getEffectiveQuotaMs cfg s x c ≤ getEffectiveQuotaMs cfg s x d := by
  refine ⟨sum_quotas_le cfg h x, fun c hc d _ hle => ?_⟩
  have hlimit := (h c (mem_limitedClients.mp hc).1).1
  exact quota_mono cfg x (by omega) hle

/-- Three clients that ask for more than the GPU has, one of them unlimited. -/
theorem effective_quotas_fit_three_clients :
    ∃ s, limitedClients s 0 = [0, 1] ∧ getEffectiveQuotaMs {} s 0 0 = 1142 ∧
      getEffectiveQuotaMs {} s 0 1 = 857 ∧
      ((limitedClients s 0).map (getEffectiveQuotaMs {} s 0)).sum ≤ 2000 := by
  obtain ⟨s, -, hlimits, hclients, hfirst, hsecond⟩ := exists_reaches {} steady
    (fun _ _ => True) 9
    [.accept {}, .accept {}, .accept {}, enterQuota 0 1 80, enterQuota 1 2 60, enter 2 3]
    (fun s => LimitsAdmitted s ∧ limitedClients s 0 = [0, 1] ∧
      getEffectiveQuotaMs {} s 0 0 = 1142 ∧ getEffectiveQuotaMs {} s 0 1 = 857)
    (by decide +kernel)
  exact ⟨s, hclients, hfirst, hsecond, (effective_quotas_fit {} hlimits 0).1⟩

/-! ## Quotas that are rounded down to nothing -/

theorem quota_pos_iff (cfg : Config) (h : LimitsAdmitted s) (hc : c ∈ limitedClients s x) :
    0 < getEffectiveQuotaMs cfg s x c ↔
      limitSum s x ≤ 100 * (cfg.computeWindowMs * (s.client c).coreLimit / 100) := by
  have hwindow := cfg.window_bounds
  have hlimit := (h c (mem_limitedClients.mp hc).1).1
  have htotal : calculateTotalQuota s x = limitSum s x := by
    rw [calculateTotalQuota_eq, if_pos (limitSum_pos h hc)]
  -- A limit of at least one percent stands for at least five milliseconds of the window.
  have hbase : 5 ≤ cfg.computeWindowMs * (s.client c).coreLimit / 100 := by
    have hproduct : 500 * 1 ≤ cfg.computeWindowMs * (s.client c).coreLimit :=
      mul_le_mul hwindow.1 hlimit (by norm_num) (by omega)
    omega
  rw [getEffectiveQuotaMs_eq cfg x (by omega), htotal]
  split
  · rename_i hsmall
    constructor <;> intro <;> omega
  · rename_i hlarge
    rw [Int.lt_iff_add_one_le, zero_add, Int.le_ediv_iff_mul_le (by omega), one_mul,
      mul_comm _ (100 : ℤ)]

/-- In a window that has just been reset a limited client passes the quota test of `can_run`
exactly if the limits on its GPU do not sum to more than its share of the window can bear. -/
theorem quota_admits_iff (cfg : Config) (h : LimitsAdmitted s) (hc : c ∈ limitedClients s x)
    (hused : (s.client c).runTimeInWindowMs = 0) (hthrottled : (s.client c).isThrottled = false) :
    quotaAllows cfg s x c = true ↔
      limitSum s x ≤ 100 * (cfg.computeWindowMs * (s.client c).coreLimit / 100) := by
  have hlimit : ¬ 100 ≤ (s.client c).coreLimit := by
    have := (mem_limitedClients.mp hc).2.2
    omega
  rw [← quota_pos_iff cfg h hc]
  simp [quotaAllows, hlimit, hused, hthrottled]

/-- Seven clients on a GPU with the shortest window. -/
def sevenTenants : List Event :=
  (List.range 7).map (fun _ => .accept {}) ++
    enterQuota 0 1 1 :: (List.range 6).map fun c => enterQuota (c + 1) (c + 2) 99

theorem quota_admits_iff_neighbour :
    ∃ s, limitSum s 0 = 595 ∧
      (quotaAllows { computeWindowMs := 500 } s 0 1 = true ↔
        (595 : ℤ) ≤ 100 * (500 * 99 / 100)) := by
  obtain ⟨s, -, hlimits, hc, hused, hthrottled, hsum, hlimit⟩ :=
    exists_reaches { computeWindowMs := 500 } steady (fun _ _ => True) 9 sevenTenants
    (fun s => LimitsAdmitted s ∧ 1 ∈ limitedClients s 0 ∧
      (s.client 1).runTimeInWindowMs = 0 ∧ (s.client 1).isThrottled = false ∧
      limitSum s 0 = 595 ∧ (s.client 1).coreLimit = 99) (by decide +kernel)
  have hiff := quota_admits_iff { computeWindowMs := 500 } hlimits hc hused hthrottled
  rw [hsum, hlimit] at hiff
  exact ⟨s, hsum, hiff⟩

/-- Beside six clients with 99 percent each, a client with one percent gets nothing. -/
theorem quota_scaled_to_nothing :
    ¬ ∀ (cfg : Config) (s : Sched) (x : CtxId) (c : ClientId), LimitsAdmitted s →
      c ∈ limitedClients s x → (s.client c).runTimeInWindowMs = 0 →
      (s.client c).isThrottled = false → quotaAllows cfg s x c = true := by
  intro h
  obtain ⟨s, -, hlimits, hc, hused, hthrottled, hrefused⟩ :=
    exists_reaches { computeWindowMs := 500 } steady (fun _ _ => True) 9 sevenTenants
    (fun s => LimitsAdmitted s ∧ 0 ∈ limitedClients s 0 ∧
      (s.client 0).runTimeInWindowMs = 0 ∧ (s.client 0).isThrottled = false ∧
      quotaAllows { computeWindowMs := 500 } s 0 0 = false) (by decide +kernel)
  have hadmitted := h { computeWindowMs := 500 } s 0 0 hlimits hc hused hthrottled
  rw [hrefused] at hadmitted
  cases hadmitted

end XpuShare
