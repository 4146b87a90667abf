import XpuShare.Verification.Pacing.Progress

/-! # Pacing of kernel launches

What the window of pending kernels is for, and the settings and states in which the code
fails it. -/

namespace XpuShare

open Transition

variable {settings : WindowSettings} {r : Synchronisation} {k : KernelWindow}

/-! ## Progress -/

/-- In every run the window is within range, a launch returns with fewer kernels outstanding
than the window allows, and `m` short synchronisations double the window `m` times, up to its
cap. -/
structure MakesProgress (settings : WindowSettings) : Prop where
  range (lib : LibState) (events : List WindowEvent) :
    InRange settings (windowAfter settings lib events)
  outstanding (lib : LibState) (events : List WindowEvent) (r : Synchronisation) :
    (cuLaunchKernel settings r (windowAfter settings lib events)).kernSinceSync <
      (cuLaunchKernel settings r (windowAfter settings lib events)).pendingKernelWindow
  growth (lib : LibState) (events : List WindowEvent) (m : ℕ) (k : KernelWindow) :
    Accumulates (ShortSync settings) (windowAfter settings lib events) m k →
      min (2 ^ m) k.max ≤ k.pendingKernelWindow

theorem makesProgress (hlo : 1 ≤ settings.kernWindowMinFloor)
    (hhi : settings.kernWindowMinFloor < 2 ^ 30) (hbig : 1 ≤ settings.kernSyncDurationBig) :
    MakesProgress settings := by
  constructor
  · exact inRange_windowAfter hlo hhi
  · intro lib events r
    exact kernSinceSync_lt hlo hhi (inRange_windowAfter hlo hhi lib events) r
  · intro lib events m k hsyncs
    have hstart := (inRange_windowAfter hlo hhi lib events).grown
    have hgrown := hsyncs.invariant (fun _ _ _ _ hstep h => Grown.step hlo hhi hbig hstep h) hstart
    rw [zero_add] at hgrown
    exact hgrown.2

/-- An idle check, a synchronisation that times out and then as many launches as the floor
allows. -/
def overflowing (settings : WindowSettings) : List WindowEvent :=
  [.idleCheck, .launch ⟨settings.kernSyncDurationBig.toNat, 0, 0⟩] ++
    List.replicate (settings.kernWindowMinFloor - 1).toNat (.launch ⟨0, 0, 0⟩) ++
    [.launch ⟨0, 0, 0⟩]

/-- With a floor of `2 ^ 30` the next doubling overflows. -/
theorem windowAfter_overflowing (lib : LibState) (hfloor : settings.kernWindowMinFloor = 2 ^ 30)
    (hbig : 1 ≤ settings.kernSyncDurationBig) :
    (windowAfter settings lib (overflowing settings)).pendingKernelWindow = -2 ^ 31 := by
  have hbacked : [WindowEvent.idleCheck, .launch ⟨settings.kernSyncDurationBig.toNat, 0, 0⟩].foldl
      (WindowEvent.apply settings) { lib := lib } =
      { lib := lib, pendingKernelWindow := 2 ^ 30, consecutiveTimeoutCount := 1 } := by
    simp [WindowEvent.apply, cudaSyncContext, cuLaunchKernel, KernelWindow.full, adjustWindow,
      criticalTimeout, inWarmup, hfloor]
  have hwrap : toInt32 (2 ^ 30 * 2) = -2 ^ 31 := by decide
  rw [windowAfter, overflowing, List.foldl_append, List.foldl_append, hbacked,
    foldl_launch _ _ (by simp only [hfloor]; norm_num), List.foldl_cons, List.foldl_nil,
    WindowEvent.apply, cuLaunchKernel, if_pos (by simp [KernelWindow.full, hfloor])]
  rw [adjustWindow_short (by push_cast; omega) (by decide)]
  have hcap := (getKernelWindowMax_bounds lib.clientCoreLimit).1
  simp only [KernelWindow.doubled, KernelWindow.max, hwrap]
  omega

/-- Three idle checks, each with a synchronisation after it, and one more idle check. -/
def suspected : List WindowEvent :=
  [.idleCheck, .launch ⟨0, 0, 0⟩, .idleCheck, .launch ⟨0, 0, 0⟩, .idleCheck,
    .launch ⟨0, 0, 0⟩, .idleCheck]

/-- If every synchronisation counts as a critical timeout, the window is stuck at one. -/
theorem not_makesProgress_of_big (hbig : settings.kernSyncDurationBig ≤ 0) :
    ¬ MakesProgress settings := by
  intro h
  have hstart : windowAfter settings {} suspected =
      { pendingKernelWindow := 1, consecutiveTimeoutCount := 3 } := by
    simp [windowAfter, suspected, WindowEvent.apply, cudaSyncContext, cuLaunchKernel,
      KernelWindow.full, adjustWindow, criticalTimeout, inWarmup, hbig]
  have hsync : ShortSync settings (windowAfter settings {} suspected) 1
      (cuLaunchKernel settings ⟨0, 0, 0⟩ (windowAfter settings {} suspected)) := by
    have hfull : (windowAfter settings {} suspected).full = true := by
      rw [hstart]
      decide
    have hlaunch : ShortSync settings (windowAfter settings {} suspected)
        (if (windowAfter settings {} suspected).full then 1 else 0)
        (cuLaunchKernel settings ⟨0, 0, 0⟩ (windowAfter settings {} suspected)) :=
      .launch fun _ => rfl
    rwa [if_pos hfull] at hlaunch
  have hgrowth := h.growth {} suspected 1 _ (.single hsync)
  rw [hstart] at hgrowth
  have hstuck : cuLaunchKernel settings ⟨0, 0, 0⟩
      { pendingKernelWindow := 1, consecutiveTimeoutCount := 3 } =
      { pendingKernelWindow := 1, consecutiveTimeoutCount := 4 } := by
    simp [cuLaunchKernel, KernelWindow.full, adjustWindow, criticalTimeout, inWarmup, hbig]
  rw [hstuck] at hgrowth
  exact absurd hgrowth (by decide)

/-- For a floor from one to `2 ^ 30`, every run makes progress if and only if the floor is not
`2 ^ 30` itself and no synchronisation that takes less than a second is a critical timeout. -/
theorem makesProgress_iff (hlo : 1 ≤ settings.kernWindowMinFloor)
    (hhi : settings.kernWindowMinFloor ≤ 2 ^ 30) :
    MakesProgress settings ↔
      settings.kernWindowMinFloor < 2 ^ 30 ∧ 1 ≤ settings.kernSyncDurationBig := by
  constructor
  · intro h
    have hbig : 1 ≤ settings.kernSyncDurationBig := by
      by_contra hbig
      exact not_makesProgress_of_big (by omega) h
    refine ⟨lt_of_le_of_ne hhi fun hfloor => ?_, hbig⟩
    have hpos := (h.range {} (overflowing settings)).pos
    rw [windowAfter_overflowing {} hfloor hbig] at hpos
    exact absurd hpos (by decide)
  · rintro ⟨hfloor, hbig⟩
    exact makesProgress hlo hfloor hbig

theorem makesProgress_iff_default : MakesProgress {} :=
  (makesProgress_iff (by decide) (by decide)).mpr ⟨by decide, by decide⟩

/-- The largest floor in question leads to a negative window. -/
theorem window_negative :
    let settings : WindowSettings := { kernWindowMinFloor := 2 ^ 30 }
    (windowAfter settings {} (overflowing settings)).pendingKernelWindow = -2147483648 :=
  windowAfter_overflowing {} rfl (by decide)

/-! ## The cap on the window -/

/-- A launch of a run that synchronises, with the state before it. -/
def Adjustment (settings : WindowSettings) (lib : LibState) (events : List WindowEvent)
    (r : Synchronisation) (k : KernelWindow) : Prop :=
  ∃ before after, events = before ++ .launch r :: after ∧
    k = windowAfter settings lib before ∧ k.full = true

/-- From here an adjustment leads to the cap or below: it lets the window grow, it forces the
window down to one, or it cuts off enough of a window that is not much larger than the cap. -/
def Settles (settings : WindowSettings) (r : Synchronisation) (k : KernelWindow) : Prop :=
  let bound := max settings.kernWindowMinFloor k.max
  inWarmup settings r k = true ∨
    if settings.kernSyncDurationBig ≤ r.seconds then
      3 ≤ k.consecutiveTimeoutCount ∨ k.pendingKernelWindow < 2 * bound + 2
    else (r.seconds : ℤ) < 1 ∨ 4 * k.pendingKernelWindow < 5 * bound + 5

/-- A quotient rounded towards zero is at most a positive bound exactly if the dividend is less
than the next multiple. -/
theorem tdiv_le_iff {a b n : ℤ} (hb : 0 < b) (hn : 0 ≤ n) : a.tdiv b ≤ n ↔ a < b * (n + 1) := by
  rcases le_or_gt 0 a with ha | ha
  · rw [Int.tdiv_eq_ediv_of_nonneg ha, ← Int.lt_add_one_iff, Int.ediv_lt_iff_lt_mul hb,
      mul_comm b]
  · have hquotient : 0 ≤ (-a).tdiv b := Int.tdiv_nonneg (by omega) hb.le
    rw [Int.neg_tdiv] at hquotient
    have hmultiple : 0 < b * (n + 1) := mul_pos hb (by omega)
    constructor <;> intro <;> omega

theorem adjustWindow_le_iff (settings : WindowSettings) (r : Synchronisation)
    (k : KernelWindow) :
    (adjustWindow settings r k).pendingKernelWindow ≤ max settings.kernWindowMinFloor k.max ↔
      Settles settings r k := by
  have hcap := k.le_max
  have hdoubled : k.doubled ≤ max settings.kernWindowMinFloor k.max :=
    le_max_of_le_right k.doubled_le_max
  have hbound : ∀ w : ℤ, max settings.kernWindowMinFloor w ≤
      max settings.kernWindowMinFloor k.max ↔ w ≤ max settings.kernWindowMinFloor k.max := by
    intro w
    rw [max_le_iff]
    exact and_iff_right (le_max_left _ _)
  unfold Settles
  simp only
  rcases le_or_gt settings.kernSyncDurationBig r.seconds with hbig | hbig
  · rw [adjustWindow_critical hbig, if_pos hbig]
    cases hwarm : inWarmup settings r k with
    | true =>
        rw [criticalTimeout_warmup hwarm]
        simp [hdoubled]
    | false =>
        rw [criticalTimeout_cold hwarm]
        by_cases habuse : 3 < k.consecutiveTimeoutCount + 1
        · have hone : 1 ≤ max settings.kernWindowMinFloor k.max := le_max_of_le_right (by omega)
          simp only [if_pos habuse, hone, true_iff]
          exact .inr (.inl (by omega))
        · have hfew : ¬ 3 ≤ k.consecutiveTimeoutCount := by omega
          simp only [if_neg habuse, hfew, false_or, Bool.false_eq_true]
          rw [hbound, tdiv_le_iff two_pos (le_max_of_le_right (by omega)), mul_add, mul_one]
  · rw [if_neg (not_le.mpr hbig)]
    rcases le_or_gt 1 (r.seconds : ℤ) with hmild | hshort
    · rw [adjustWindow_mild hbig hmild]
      cases hwarm : inWarmup settings r k with
      | true =>
          rw [mildTimeout_warmup hwarm]
          simp [hdoubled]
      | false =>
          rw [mildTimeout_cold hwarm]
          simp only [not_lt.mpr hmild, false_or, Bool.false_eq_true]
          rw [hbound, tdiv_le_iff (by decide) (le_max_of_le_right (by omega))]
          constructor <;> intro <;> omega
    · rw [adjustWindow_short hbig hshort]
      simp [hdoubled, hshort]

/-- The adjustments of a run all respect the cap of the limit in force if and only if each
starts from a state that settles. -/
theorem capped_iff (settings : WindowSettings) (lib : LibState) (events : List WindowEvent) :
    (∀ r k, Adjustment settings lib events r k →
      (cuLaunchKernel settings r k).pendingKernelWindow ≤
        max settings.kernWindowMinFloor (cuLaunchKernel settings r k).max) ↔
    ∀ r k, Adjustment settings lib events r k → Settles settings r k := by
  refine forall₂_congr fun r k => ?_
  apply imp_congr_right
  rintro ⟨_, _, _, _, hfull⟩
  have hlimit : (cuLaunchKernel settings r k).max = k.max := by
    apply max_eq_of_limit
    rw [cuLaunchKernel, if_pos hfull]
    change (adjustWindow settings r k).lib.clientCoreLimit = k.lib.clientCoreLimit
    rw [adjustWindow_lib]
  rw [hlimit, ← adjustWindow_le_iff, cuLaunchKernel, if_pos hfull]

/-- The limit is lowered to 30, and the first synchronisation after it takes a second. -/
def lowered : List WindowEvent :=
  .message (.updateCoreLimit 30) 0 :: List.replicate 64 (.launch ⟨1, 0, 0⟩)

theorem window_over_cap :
    (windowAfter {} {} lowered).lib.clientCoreLimit = 30 ∧
      (windowAfter {} {} lowered).kernSinceSync = 0 ∧
      (windowAfter {} {} lowered).pendingKernelWindow = 51 ∧
      getKernelWindowMax 30 = 16 := by
  decide +kernel

/-! ## The warm-up period -/

/-- A synchronisation that starts in the warm-up period, of a window within its cap, neither
shrinks the window nor counts as a critical timeout, if and only if it also ends in the period
or is shorter than a timeout, or is a mild one of a window no larger than the floor. -/
theorem warmup_covers_iff (hfull : k.full = true) (hwindow : 0 ≤ k.pendingKernelWindow)
    (hcap : k.pendingKernelWindow ≤ k.max) (hlock : 0 < k.lockAcquireTime) :
    (r.started - k.lockAcquireTime < settings.kernWarmupPeriodSec →
      k.pendingKernelWindow ≤ (cuLaunchKernel settings r k).pendingKernelWindow ∧
        (cuLaunchKernel settings r k).consecutiveTimeoutCount ≤ k.consecutiveTimeoutCount) ↔
    (r.started - k.lockAcquireTime < settings.kernWarmupPeriodSec →
      r.now - k.lockAcquireTime < settings.kernWarmupPeriodSec ∨
        r.seconds < settings.kernSyncDurationBig ∧
          ((r.seconds : ℤ) < 1 ∨ k.pendingKernelWindow ≤ max 0 settings.kernWindowMinFloor)) := by
  apply imp_congr_right
  intro _
  have hmax := k.max_le
  have hdoubled : k.pendingKernelWindow ≤ k.doubled := by
    rw [KernelWindow.doubled_eq hwindow (by omega)]
    exact le_min (by omega) hcap
  have hwarm : inWarmup settings r k =
      decide (r.now - k.lockAcquireTime < settings.kernWarmupPeriodSec) := by
    simp [inWarmup, hlock]
  rw [cuLaunchKernel, if_pos hfull]
  simp only
  rcases le_or_gt settings.kernSyncDurationBig r.seconds with hbig | hbig
  · rw [adjustWindow_critical hbig]
    by_cases hnow : r.now - k.lockAcquireTime < settings.kernWarmupPeriodSec
    · rw [criticalTimeout_warmup (by rw [hwarm, decide_eq_true hnow])]
      simp [hnow, hdoubled]
    · rw [criticalTimeout_cold (by rw [hwarm, decide_eq_false hnow])]
      simp [hnow, hbig.not_gt]
  · rcases le_or_gt 1 (r.seconds : ℤ) with hmild | hshort
    · rw [adjustWindow_mild hbig hmild]
      by_cases hnow : r.now - k.lockAcquireTime < settings.kernWarmupPeriodSec
      · rw [mildTimeout_warmup (by rw [hwarm, decide_eq_true hnow])]
        simp [hnow, hdoubled]
      · rw [mildTimeout_cold (by rw [hwarm, decide_eq_false hnow]),
          Int.tdiv_eq_ediv_of_nonneg (by omega)]
        simp only [hnow, hbig, not_lt.mpr hmild, false_or, true_and, zero_le, and_true]
        constructor <;> intro <;> omega
    · rw [adjustWindow_short hbig hshort]
      simp [hbig, hshort, hdoubled]

theorem warmup_covers_iff_page_faults :
    let k : KernelWindow := { lockAcquireTime := 1000, kernSinceSync := 63 }
    let r : Synchronisation := ⟨26, 1027, 1001⟩
    k.pendingKernelWindow ≤ (cuLaunchKernel {} r k).pendingKernelWindow ∧
      (cuLaunchKernel {} r k).consecutiveTimeoutCount ≤ k.consecutiveTimeoutCount :=
  (warmup_covers_iff (by decide) (by decide) (by decide) (by decide)).mpr
    (fun _ => .inl (by decide)) (by decide)

/-- A storm of page faults that starts in the warm-up period and outlasts it. -/
theorem warmup_expires :
    let k : KernelWindow := { lockAcquireTime := 1000, kernSinceSync := 63 }
    let r : Synchronisation := ⟨26, 1035, 1009⟩
    r.started - k.lockAcquireTime < 30 ∧ k.pendingKernelWindow = 64 ∧
      (cuLaunchKernel {} r k).pendingKernelWindow = 32 ∧
      (cuLaunchKernel {} r k).consecutiveTimeoutCount = 1 := by
  decide

end XpuShare
