import XpuShare.Model.KernelWindow

/-! # Adjustments of the kernel window, case by case -/

namespace XpuShare

variable {settings : WindowSettings} {r : Synchronisation} {k : KernelWindow}

/-! ## The cap -/

theorem getKernelWindowMax_bounds (limit : ℤ) :
    16 ≤ getKernelWindowMax limit ∧ getKernelWindowMax limit ≤ 2048 := by
  have hclamp := clamp_bounds (by decide : (16 : ℤ) ≤ 32) (limit.tdiv 2)
  simp only [getKernelWindowMax, kernSyncWindowMax]
  split_ifs <;> omega

namespace KernelWindow

theorem le_max (k : KernelWindow) : 16 ≤ k.max := (getKernelWindowMax_bounds _).1

theorem max_le (k : KernelWindow) : k.max ≤ 2048 := (getKernelWindowMax_bounds _).2

theorem doubled_le_max (k : KernelWindow) : k.doubled ≤ k.max := min_le_right _ _

/-- Doubling is exact as long as the window stays below `2 ^ 30`. -/
theorem doubled_eq (hlo : 0 ≤ k.pendingKernelWindow) (hhi : k.pendingKernelWindow < 2 ^ 30) :
    k.doubled = min (k.pendingKernelWindow * 2) k.max := by
  rw [doubled, toInt32_eq (by omega) (by omega)]

end KernelWindow

/-! ## The branches -/

theorem adjustWindow_critical (h : settings.kernSyncDurationBig ≤ r.seconds) :
    adjustWindow settings r k = criticalTimeout settings r k := if_pos h

theorem adjustWindow_mild (h : r.seconds < settings.kernSyncDurationBig)
    (hmild : 1 ≤ (r.seconds : ℤ)) : adjustWindow settings r k = mildTimeout settings r k := by
  rw [adjustWindow, if_neg (not_le.mpr h)]
  exact if_pos hmild

theorem adjustWindow_short (h : r.seconds < settings.kernSyncDurationBig)
    (hshort : (r.seconds : ℤ) < 1) :
    adjustWindow settings r k =
      { k with consecutiveTimeoutCount := 0, pendingKernelWindow := k.doubled } := by
  rw [adjustWindow, if_neg (not_le.mpr h)]
  exact if_neg (not_le.mpr hshort)

theorem criticalTimeout_warmup (h : inWarmup settings r k = true) :
    criticalTimeout settings r k = { k with pendingKernelWindow := k.doubled } := if_pos h

theorem criticalTimeout_cold (h : inWarmup settings r k = false) :
    criticalTimeout settings r k =
      { k with
        consecutiveTimeoutCount := k.consecutiveTimeoutCount + 1
        pendingKernelWindow := if 3 < k.consecutiveTimeoutCount + 1 then 1
          else max settings.kernWindowMinFloor (k.pendingKernelWindow.tdiv 2) } := by
  rw [criticalTimeout, h]
  rfl

theorem mildTimeout_warmup (h : inWarmup settings r k = true) :
    mildTimeout settings r k =
      { k with consecutiveTimeoutCount := 0, pendingKernelWindow := k.doubled } := by
  rw [mildTimeout, h]
  rfl

theorem mildTimeout_cold (h : inWarmup settings r k = false) :
    mildTimeout settings r k =
      { k with
        consecutiveTimeoutCount := 0
        pendingKernelWindow :=
          max settings.kernWindowMinFloor ((k.pendingKernelWindow * 4).tdiv 5) } := by
  rw [mildTimeout, h]
  rfl

/-- The values an adjustment can give the window. -/
theorem adjustWindow_cases (settings : WindowSettings) (r : Synchronisation)
    (k : KernelWindow) :
    (adjustWindow settings r k).pendingKernelWindow = k.doubled ∨
      (adjustWindow settings r k).pendingKernelWindow = 1 ∨
      (adjustWindow settings r k).pendingKernelWindow =
        max settings.kernWindowMinFloor (k.pendingKernelWindow.tdiv 2) ∨
      (adjustWindow settings r k).pendingKernelWindow =
        max settings.kernWindowMinFloor ((k.pendingKernelWindow * 4).tdiv 5) := by
  rcases le_or_gt settings.kernSyncDurationBig r.seconds with hbig | hbig
  · rw [adjustWindow_critical hbig]
    cases hwarm : inWarmup settings r k with
    | true =>
        rw [criticalTimeout_warmup hwarm]
        exact .inl rfl
    | false =>
        rw [criticalTimeout_cold hwarm]
        by_cases habuse : 3 < k.consecutiveTimeoutCount + 1
        · exact .inr (.inl (if_pos habuse))
        · exact .inr (.inr (.inl (if_neg habuse)))
  · rcases le_or_gt 1 (r.seconds : ℤ) with hmild | hshort
    · rw [adjustWindow_mild hbig hmild]
      cases hwarm : inWarmup settings r k with
      | true =>
          rw [mildTimeout_warmup hwarm]
          exact .inl rfl
      | false =>
          rw [mildTimeout_cold hwarm]
          exact .inr (.inr (.inr rfl))
    · rw [adjustWindow_short hbig hshort]
      exact .inl rfl

/-- An adjustment leaves the rest of the client alone. -/
theorem adjustWindow_lib (settings : WindowSettings) (r : Synchronisation) (k : KernelWindow) :
    (adjustWindow settings r k).lib = k.lib := by
  unfold adjustWindow criticalTimeout mildTimeout
  split_ifs <;> rfl

end XpuShare
