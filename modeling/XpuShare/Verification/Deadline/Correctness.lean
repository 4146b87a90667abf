import XpuShare.Model.Deadline
import XpuShare.Verification.Scheduler.Runs

/-! # Deadlines of the timer

The settings of the switch time reach the timer unclamped. The time it waits for is a valid
one that lies in the compute window exactly when no `int` overflows, a fixed switch time is
not negative, and no remaining quota overflows when it is scaled to wall time. -/

namespace XpuShare.Deadline

variable {cfg : Config} {s : Sched} {x : CtxId} {now : ℤ} {start : RealTime}

/-! ## The quantum -/

/-- The `int` computations of the quantum yield what they would without a bound. -/
structure ExactQuantum (cfg : Config) (g : GpuContext) : Prop where
  swap : cfg.mode = .auto → toInt32 (swapTime g) = swapTime g
  product : cfg.mode = .auto → toInt32 (toInt32 (swapTime g) * cfg.timeMultiplier) =
    toInt32 (swapTime g) * cfg.timeMultiplier
  quantum : defaultTqMs cfg g = 1000 * calculateSwitchTime cfg g

/-- The switch time in milliseconds fits into `int`, and so do the factors of an automatic
one and their product. -/
def IntsFit (cfg : Config) (g : GpuContext) : Prop :=
  match cfg.mode with
  | .fixed => -2147483 ≤ cfg.fixedSwitchTime ∧ cfg.fixedSwitchTime ≤ 2147483
  | .auto => (swapTime g : ℤ) < 2 ^ 31 ∧ -2 ^ 31 ≤ swapTime g * cfg.timeMultiplier ∧
      swapTime g * cfg.timeMultiplier < 2 ^ 31

theorem toInt32_quantum_iff (z : ℤ) :
    toInt32 (z * 1000) = 1000 * z ↔ -2147483 ≤ z ∧ z ≤ 2147483 := by
  rw [mul_comm 1000, toInt32_eq_iff]
  omega

/-- An automatic switch time is clamped after the overflow, if there is one. -/
theorem calculateSwitchTime_auto (hmode : cfg.mode = .auto) (g : GpuContext) :
    10 ≤ calculateSwitchTime cfg g ∧ calculateSwitchTime cfg g ≤ 300 := by
  simp only [calculateSwitchTime, hmode]
  exact clamp_bounds (by norm_num) _

theorem exactQuantum_iff (cfg : Config) (g : GpuContext) :
    ExactQuantum cfg g ↔ IntsFit cfg g := by
  unfold IntsFit
  cases hmode : cfg.mode with
  | fixed =>
      have hquantum : defaultTqMs cfg g = 1000 * calculateSwitchTime cfg g ↔
          -2147483 ≤ cfg.fixedSwitchTime ∧ cfg.fixedSwitchTime ≤ 2147483 := by
        simp only [defaultTqMs, calculateSwitchTime, hmode]
        exact toInt32_quantum_iff _
      refine ⟨fun h => hquantum.mp h.quantum, fun h => ⟨?_, ?_, hquantum.mpr h⟩⟩ <;> simp [hmode]
  | auto =>
      have hquantum : defaultTqMs cfg g = 1000 * calculateSwitchTime cfg g := by
        have hbounds := calculateSwitchTime_auto hmode g
        exact (toInt32_quantum_iff _).mpr (by omega)
      constructor
      · intro h
        have hswap := h.swap hmode
        have hproduct := h.product hmode
        rw [hswap, toInt32_eq_iff] at hproduct
        exact ⟨((toInt32_eq_iff _).mp hswap).2, hproduct⟩
      · rintro ⟨hswap, hproduct⟩
        have hcast : toInt32 (swapTime g) = swapTime g := toInt32_eq (by omega) hswap
        refine ⟨fun _ => hcast, fun _ => ?_, hquantum⟩
        rw [hcast]
        exact (toInt32_eq_iff _).mpr hproduct

/-- A quantum without overflow is negative only for a negative fixed switch time. -/
theorem defaultTqMs_nonneg_iff (h : IntsFit cfg (s.ctx x)) :
    0 ≤ defaultTqMs cfg (s.ctx x) ↔ (cfg.mode = .fixed → 0 ≤ cfg.fixedSwitchTime) := by
  rw [((exactQuantum_iff cfg _).mpr h).quantum]
  cases hmode : cfg.mode with
  | fixed => simp [calculateSwitchTime, hmode]
  | auto =>
      have hbounds := calculateSwitchTime_auto hmode (s.ctx x)
      simp only [reduceCtorEq, false_implies, iff_true]
      omega

/-! ## The loop over the running clients -/

/-- A running client whose quota is used up makes the timer not sleep. -/
def Spent (cfg : Config) (s : Sched) (x : CtxId) (now : ℤ) (c : ClientId) : Prop :=
  (s.client c).coreLimit < 100 ∧ Sleep.remaining cfg toInt64 s x now c ≤ 0

/-- A running client whose quota is so large that it overflows when it is scaled. -/
def Overflows (cfg : Config) (s : Sched) (x : CtxId) (now : ℤ) (c : ClientId) : Prop :=
  (s.client c).coreLimit < 100 ∧ 0 < Sleep.remaining cfg toInt64 s x now c ∧
    Sleep.remainingWall cfg toInt64 s x now c < 0

/-- Each overflow in the list is made up for by a client after it. -/
def Recovers (cfg : Config) (s : Sched) (x : CtxId) (now : ℤ) : List ClientId → Prop
  | [] => True
  | c :: l => (Overflows cfg s x now c → ∃ d ∈ l, Spent cfg s x now d) ∧
      Recovers cfg s x now l

theorem sleepLoop_nonneg_iff (l : List ClientId) (sleep : ℤ) :
    0 ≤ l.foldl (Sleep.sleepForClient cfg toInt64 s x now) sleep ↔
      (0 ≤ sleep ∨ ∃ c ∈ l, Spent cfg s x now c) ∧ Recovers cfg s x now l := by
  induction l generalizing sleep with
  | nil => simp [Recovers]
  | cons c l ih =>
      rw [List.foldl_cons, ih, Recovers, List.exists_mem_cons_iff]
      unfold Sleep.sleepForClient
      by_cases hlimit : (s.client c).coreLimit < 100
      · by_cases hspent : Sleep.remaining cfg toInt64 s x now c ≤ 0
        · have hnot : ¬ Overflows cfg s x now c := fun h => absurd h.2.1 (by omega)
          have hself : Spent cfg s x now c := ⟨hlimit, hspent⟩
          simp [hlimit, hspent, hnot, hself]
        · have hself : ¬ Spent cfg s x now c := fun h => hspent h.2
          by_cases hover : Sleep.remainingWall cfg toInt64 s x now c < 0
          · have hoverflows : Overflows cfg s x now c := ⟨hlimit, by omega, hover⟩
            have hneg : ¬ 0 ≤ min sleep (Sleep.remainingWall cfg toInt64 s x now c) := by omega
            simp only [hlimit, hspent, if_true, if_false, hneg, hself, hoverflows, false_or,
              true_implies]
            tauto
          · have hnot : ¬ Overflows cfg s x now c := fun h => hover h.2.2
            have hmin : 0 ≤ min sleep (Sleep.remainingWall cfg toInt64 s x now c) ↔
                0 ≤ sleep := by omega
            simp only [hlimit, hspent, if_true, if_false, hmin, hself, hnot, false_or,
              false_implies, true_and]
      · have hself : ¬ Spent cfg s x now c := fun h => hlimit h.1
        have hnot : ¬ Overflows cfg s x now c := fun h => hlimit h.1
        simp [hlimit, hself, hnot]

theorem windowRemainingMs_nonneg (cfg : Config) (g : GpuContext) (now : ℤ) :
    0 ≤ Sleep.windowRemainingMs cfg toInt64 g now := by
  have hwindow := cfg.window_bounds
  unfold Sleep.windowRemainingMs
  split
  · exact le_max_left _ _
  · omega

/-- The cuts after the loop keep the sign and end within the window. -/
theorem minSleepMs_bounds (cfg : Config) (s : Sched) (x : CtxId) (now : ℤ) :
    minSleepMs cfg s x now ≤ cfg.computeWindowMs ∧
      (0 ≤ minSleepMs cfg s x now ↔ 0 ≤ Sleep.sleepByQuota cfg toInt64 s x now) := by
  have hwindow := cfg.window_bounds
  have hsample := cfg.sample_bounds
  unfold minSleepMs Sleep.minSleepMs
  simp only
  split_ifs <;> omega

/-! ## The deadline -/

/-- A sleep within the window leads to a valid time, later by exactly the sleep. -/
theorem timespecAfter_exact (start : RealTime) {sleep : ℤ} (hlo : 0 ≤ sleep)
    (hhi : sleep ≤ 20000) :
    0 ≤ (timespecAfter start.toTimespec sleep).nsec ∧
      (timespecAfter start.toTimespec sleep).nsec < 1000000000 ∧
      (timespecAfter start.toTimespec sleep).sec * 1000000000 +
          (timespecAfter start.toTimespec sleep).nsec =
        start.sec * 1000000000 + start.nsec + sleep * 1000000 := by
  have hnsec := start.nsec_bounds
  have hsec := start.sec_bounds
  have hdiv : sleep.tdiv 1000 = sleep / 1000 := Int.tdiv_eq_ediv_of_nonneg hlo
  have hmod : sleep.tmod 1000 = sleep % 1000 := Int.tmod_eq_emod_of_nonneg hlo
  have hsum : toInt64 (start.sec + sleep / 1000) = start.sec + sleep / 1000 :=
    toInt64_eq (by omega) (by omega)
  have hpart : toInt64 (start.nsec + sleep % 1000 * 1000000) =
      start.nsec + sleep % 1000 * 1000000 := toInt64_eq (by omega) (by omega)
  have hcarry : toInt64 (start.sec + sleep / 1000 + 1) = start.sec + sleep / 1000 + 1 :=
    toInt64_eq (by omega) (by omega)
  unfold timespecAfter
  simp only [hdiv, hmod, hsum, hpart, hcarry]
  split <;> refine ⟨?_, ?_, ?_⟩ <;> simp only <;> omega

/-- What the timer needs of its computation: the quantum is exact, the sleep lies within the
window, and the time it waits for is a valid one that is not past. -/
structure Sound (cfg : Config) (s : Sched) (x : CtxId) (now : ℤ) (start : RealTime) : Prop where
  exact : ExactQuantum cfg (s.ctx x)
  nonneg : 0 ≤ minSleepMs cfg s x now
  le_window : minSleepMs cfg s x now ≤ cfg.computeWindowMs
  nsec_nonneg : 0 ≤ (timespecAfter start.toTimespec (minSleepMs cfg s x now)).nsec
  nsec_lt : (timespecAfter start.toTimespec (minSleepMs cfg s x now)).nsec < 1000000000
  not_past : start.sec * 1000000000 + start.nsec ≤
    (timespecAfter start.toTimespec (minSleepMs cfg s x now)).sec * 1000000000 +
      (timespecAfter start.toTimespec (minSleepMs cfg s x now)).nsec

/-- The timer computes a sound deadline if and only if no `int` overflows, a fixed switch time
is not negative unless the quota of somebody who runs is used up, and each overflow of a
scaled quota is made up for. -/
theorem deadline_sound_iff (cfg : Config) (s : Sched) (x : CtxId) (now : ℤ)
    (start : RealTime) :
    Sound cfg s x now start ↔
      IntsFit cfg (s.ctx x) ∧
      ((cfg.mode = .fixed → 0 ≤ cfg.fixedSwitchTime) ∨
        ∃ c ∈ (s.ctx x).runningList, Spent cfg s x now c) ∧
      Recovers cfg s x now (s.ctx x).runningList := by
  obtain ⟨hle, hsign⟩ := minSleepMs_bounds cfg s x now
  have hremaining := windowRemainingMs_nonneg cfg (s.ctx x) now
  have hstart : 0 ≤ min (defaultTqMs cfg (s.ctx x))
      (Sleep.windowRemainingMs cfg toInt64 (s.ctx x) now) ↔ 0 ≤ defaultTqMs cfg (s.ctx x) := by
    omega
  rw [Sleep.sleepByQuota, sleepLoop_nonneg_iff, hstart] at hsign
  constructor
  · intro h
    have hfit := (exactQuantum_iff cfg _).mp h.exact
    rw [defaultTqMs_nonneg_iff hfit] at hsign
    exact ⟨hfit, hsign.mp h.nonneg⟩
  · rintro ⟨hfit, hquantum, hrecovers⟩
    rw [defaultTqMs_nonneg_iff hfit] at hsign
    have hnonneg := hsign.mpr ⟨hquantum, hrecovers⟩
    have hwindow := cfg.window_bounds
    obtain ⟨hlo, hhi, hexact⟩ := timespecAfter_exact start hnonneg (by omega)
    exact ⟨(exactQuantum_iff cfg _).mpr hfit, hnonneg, hle, hlo, hhi, by omega⟩

/-- A fixed switch time of 2147484 s overflows when it is converted to milliseconds, and the
timer of a new context is left with a negative `tv_nsec`. -/
theorem fixed_switch_time_overflows :
    let cfg := initConfig (environment
      [("NVSHARE_SWITCH_TIME_MODE", "fixed"), ("NVSHARE_SWITCH_TIME_FIXED", "2147484")])
    ∃ s, Transition.Reaches (Step cfg steady) Sched.init s ∧ 0 < s.nctx ∧
      ¬ Sound cfg s 0 1 ⟨⟨1000, 0⟩, by decide, by decide⟩ ∧
      timespecAfter ⟨1000, 0⟩ (minSleepMs cfg s 0 1) = ⟨-2146483, -296000000⟩ := by
  intro cfg
  obtain ⟨s, hs, hpos, hdeadline⟩ := exists_reaches cfg steady (fun _ _ => True) 1
    [.accept {}, enter 0 1]
    (fun s => 0 < s.nctx ∧
      timespecAfter ⟨1000, 0⟩ (minSleepMs cfg s 0 1) = ⟨-2146483, -296000000⟩)
    (by decide +kernel)
  refine ⟨s, hs.mono fun _ _ _ h => h.2, hpos, fun hsound => ?_, hdeadline⟩
  have hnsec := hsound.nsec_nonneg
  rw [hdeadline] at hnsec
  exact absurd hnsec (by decide)

/-! ## Agreement with unbounded integers -/

/-- A number that fits into `long`. -/
def FitsLong (z : ℤ) : Prop := -2 ^ 63 ≤ z ∧ z < 2 ^ 63

theorem toInt64_of_fits {z : ℤ} (h : FitsLong z) : toInt64 z = z := toInt64_eq h.1 h.2

/-- No `long` overflows in the sleep computation. -/
structure LongsFit (cfg : Config) (s : Sched) (x : CtxId) (now : ℤ) : Prop where
  elapsed : FitsLong (now - (s.ctx x).windowStartMs)
  left : FitsLong (cfg.computeWindowMs - (now - (s.ctx x).windowStartMs))
  wall : ∀ c ∈ (s.ctx x).runningList, FitsLong (now - (s.client c).currentRunStartMs)
  usage : ∀ c ∈ (s.ctx x).runningList, FitsLong (currentUsage s (countRunningClients s x) now c)
  quota : ∀ c ∈ (s.ctx x).runningList, FitsLong (getEffectiveQuotaMs cfg s x c -
    currentUsage s (countRunningClients s x) now c)
  scaled : ∀ c ∈ (s.ctx x).runningList, FitsLong ((getEffectiveQuotaMs cfg s x c -
    currentUsage s (countRunningClients s x) now c) * countRunningClients s x)

theorem windowRemainingMs_eq (h : LongsFit cfg s x now) :
    Sleep.windowRemainingMs cfg toInt64 (s.ctx x) now = windowRemainingMs cfg (s.ctx x) now := by
  rw [Sleep.windowRemainingMs, toInt64_of_fits h.elapsed, toInt64_of_fits h.left]
  rfl

theorem sleepForClient_eq (h : LongsFit cfg s x now) {c : ClientId}
    (hc : c ∈ (s.ctx x).runningList) (sleep : ℤ) :
    Sleep.sleepForClient cfg toInt64 s x now sleep c = sleepForClient cfg s x now sleep c := by
  have hremaining : Sleep.remaining cfg toInt64 s x now c = getEffectiveQuotaMs cfg s x c -
      currentUsage s (countRunningClients s x) now c := by
    simp only [Sleep.remaining]
    rw [toInt64_of_fits (h.wall c hc)]
    exact (congrArg (fun u => toInt64 (getEffectiveQuotaMs cfg s x c - u))
      (toInt64_of_fits (h.usage c hc))).trans (toInt64_of_fits (h.quota c hc))
  rw [Sleep.sleepForClient, Sleep.remainingWall, hremaining, toInt64_of_fits (h.scaled c hc)]
  rfl

/-- Where no `long` overflows, the timer sleeps as long as it would with unbounded ones. -/
theorem minSleepMs_eq (hlongs : LongsFit cfg s x now) :
    minSleepMs cfg s x now = XpuShare.minSleepMs cfg s x now := by
  have hloop : Sleep.sleepByQuota cfg toInt64 s x now = Sleep.sleepByQuota cfg id s x now := by
    rw [Sleep.sleepByQuota, windowRemainingMs_eq hlongs]
    exact List.foldl_ext _ _ _ fun sleep c hc => sleepForClient_eq hlongs hc sleep
  rw [minSleepMs, Sleep.minSleepMs, hloop, windowRemainingMs_eq hlongs]
  rfl

end XpuShare.Deadline
