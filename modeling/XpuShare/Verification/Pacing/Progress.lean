import XpuShare.Lib.Transition
import XpuShare.Verification.Pacing.Equations

/-! # The kernel window makes progress

As long as windows are doubled without overflow and short synchronisations are not taken for
critical timeouts, the window stays within its bounds, fewer kernels are outstanding than it
allows, and it doubles up to its cap while synchronisations are short. -/

namespace XpuShare

open Transition

variable {settings : WindowSettings} {r : Synchronisation} {k : KernelWindow}

/-! ## Bounds -/

/-- The window is positive and no larger than the maximum or the configured floor. -/
structure InRange (settings : WindowSettings) (k : KernelWindow) : Prop where
  pos : 1 ≤ k.pendingKernelWindow
  le : k.pendingKernelWindow ≤ max kernSyncWindowMax settings.kernWindowMinFloor

/-- Two values within range lead to a window within range. -/
theorem InRange.doubled (hfloor : settings.kernWindowMinFloor < 2 ^ 30)
    (h : InRange settings k) :
    min (k.pendingKernelWindow * 2) k.max = k.doubled ∧ 1 ≤ k.doubled ∧
      k.doubled ≤ kernSyncWindowMax := by
  have hpos := h.pos
  have hle := h.le
  have hcap := k.le_max
  have hmax := k.max_le
  rw [kernSyncWindowMax] at hle ⊢
  rw [KernelWindow.doubled_eq (by omega) (by omega)]
  refine ⟨rfl, ?_, ?_⟩
  · exact le_min (by omega) (by omega)
  · exact (min_le_right _ _).trans hmax

theorem InRange.adjustWindow (hlo : 1 ≤ settings.kernWindowMinFloor)
    (hhi : settings.kernWindowMinFloor < 2 ^ 30) (h : InRange settings k)
    (r : Synchronisation) : InRange settings (adjustWindow settings r k) := by
  have hpos := h.pos
  have hle := h.le
  obtain ⟨-, hgrown, hcapped⟩ := h.doubled hhi
  rw [kernSyncWindowMax] at hle hcapped
  rcases adjustWindow_cases settings r k with hw | hw | hw | hw
  · constructor <;> rw [hw]
    · exact hgrown
    · exact le_max_of_le_left hcapped
  · constructor <;> rw [hw]
    · rw [kernSyncWindowMax]
      omega
  · rw [Int.tdiv_eq_ediv_of_nonneg (by omega)] at hw
    constructor <;> rw [hw]
    · exact le_max_of_le_left hlo
    · rw [kernSyncWindowMax]
      omega
  · rw [Int.tdiv_eq_ediv_of_nonneg (by omega)] at hw
    constructor <;> rw [hw]
    · exact le_max_of_le_left hlo
    · rw [kernSyncWindowMax]
      omega

theorem InRange.cuLaunchKernel (hlo : 1 ≤ settings.kernWindowMinFloor)
    (hhi : settings.kernWindowMinFloor < 2 ^ 30) (h : InRange settings k)
    (r : Synchronisation) : InRange settings (cuLaunchKernel settings r k) := by
  unfold XpuShare.cuLaunchKernel
  split
  · have hadjusted := h.adjustWindow hlo hhi r
    exact ⟨hadjusted.pos, hadjusted.le⟩
  · exact ⟨h.pos, h.le⟩

theorem inRange_cudaSyncContext (settings : WindowSettings) (k : KernelWindow) :
    InRange settings (cudaSyncContext k) := by
  have hmax : (1 : ℤ) ≤ kernSyncWindowMax := by decide
  exact ⟨le_rfl, le_max_of_le_left hmax⟩

theorem windowMessage_window (m : ToClient) (now : ℤ) (k : KernelWindow) :
    (windowMessage m now k).pendingKernelWindow =
      if m = .dropLock ∧ k.lib.ownLock then 1 else k.pendingKernelWindow := by
  unfold windowMessage cudaSyncContext
  simp only
  split_ifs <;> rfl

theorem InRange.windowMessage (h : InRange settings k) (m : ToClient) (now : ℤ) :
    InRange settings (windowMessage m now k) := by
  have hwindow := windowMessage_window m now k
  split_ifs at hwindow
  · exact ⟨hwindow.ge, hwindow.trans_le (inRange_cudaSyncContext settings k).le⟩
  · exact ⟨h.pos.trans_eq hwindow.symm, hwindow.trans_le h.le⟩

/-- Every window of a run is within range. -/
theorem inRange_windowAfter (hlo : 1 ≤ settings.kernWindowMinFloor)
    (hhi : settings.kernWindowMinFloor < 2 ^ 30) (lib : LibState)
    (events : List WindowEvent) : InRange settings (windowAfter settings lib events) := by
  have hpos : (1 : ℤ) ≤ 64 := by decide
  have hmax : (64 : ℤ) ≤ kernSyncWindowMax := by decide
  induction events using List.reverseRecOn with
  | nil => exact ⟨hpos, le_max_of_le_left hmax⟩
  | append_singleton events e ih =>
      rw [windowAfter, List.foldl_append, List.foldl_cons, List.foldl_nil]
      cases e with
      | launch r => exact ih.cuLaunchKernel hlo hhi r
      | message m now => exact ih.windowMessage m now
      | idleCheck => exact inRange_cudaSyncContext settings _

/-! ## Outstanding kernels -/

/-- A launch that returns leaves fewer kernels outstanding than the window allows. -/
theorem kernSinceSync_lt (hlo : 1 ≤ settings.kernWindowMinFloor)
    (hhi : settings.kernWindowMinFloor < 2 ^ 30) (h : InRange settings k)
    (r : Synchronisation) :
    (cuLaunchKernel settings r k).kernSinceSync <
      (cuLaunchKernel settings r k).pendingKernelWindow := by
  have hpos := (h.adjustWindow hlo hhi r).pos
  unfold cuLaunchKernel
  cases hfull : k.full with
  | true =>
      simp only [if_true]
      omega
  | false =>
      simp only [KernelWindow.full, decide_eq_false_iff_not] at hfull
      simp only [Bool.false_eq_true, if_false]
      omega

/-! ## Growth -/

/-- Steps between which the core limit stays the same, the window is not reset and no
synchronisation takes a second; each comes with the number of its synchronisations. -/
inductive ShortSync (settings : WindowSettings) : KernelWindow → ℕ → KernelWindow → Prop where
  | launch {k : KernelWindow} {r : Synchronisation} (hshort : k.full = true → r.seconds = 0) :
      ShortSync settings k (if k.full then 1 else 0) (cuLaunchKernel settings r k)
  | message {k : KernelWindow} {m : ToClient} {now : ℤ}
      (hkept : ¬ (m = .dropLock ∧ k.lib.ownLock = true))
      (hlimit : (windowMessage m now k).lib.clientCoreLimit = k.lib.clientCoreLimit) :
      ShortSync settings k 0 (windowMessage m now k)

theorem max_eq_of_limit {k k' : KernelWindow}
    (h : k'.lib.clientCoreLimit = k.lib.clientCoreLimit) : k'.max = k.max := by
  rw [KernelWindow.max, KernelWindow.max, h]

/-- The window is within range, and at its cap or doubled `m` times from one. -/
def Grown (settings : WindowSettings) (k : KernelWindow) (m : ℕ) : Prop :=
  InRange settings k ∧ min (2 ^ m) k.max ≤ k.pendingKernelWindow

theorem InRange.grown (h : InRange settings k) : Grown settings k 0 :=
  ⟨h, (min_le_left _ _).trans h.pos⟩

theorem Grown.step (hlo : 1 ≤ settings.kernWindowMinFloor)
    (hhi : settings.kernWindowMinFloor < 2 ^ 30) (hbig : 1 ≤ settings.kernSyncDurationBig)
    {k' : KernelWindow} {m n : ℕ} (hstep : ShortSync settings k n k')
    (h : Grown settings k m) : Grown settings k' (m + n) := by
  obtain ⟨hrange, hgrown⟩ := h
  cases hstep with
  | launch hshort =>
      rename_i r
      refine ⟨hrange.cuLaunchKernel hlo hhi r, ?_⟩
      unfold cuLaunchKernel
      cases hfull : k.full with
      | true =>
          have hcap := k.le_max
          have hseconds : (r.seconds : ℤ) = 0 := by rw [hshort hfull, Nat.cast_zero]
          simp only [if_true]
          rw [adjustWindow_short (by omega) (by omega)]
          change min (2 ^ (m + 1)) k.max ≤ k.doubled
          rw [← (hrange.doubled hhi).1, pow_succ]
          omega
      | false => exact hgrown
  | message hkept hlimit =>
      rename_i msg now
      refine ⟨hrange.windowMessage msg now, ?_⟩
      rw [max_eq_of_limit hlimit, windowMessage_window, if_neg hkept]
      exact hgrown

/-! ## Where it fails -/

/-- Launches that do not fill the window only count. -/
theorem foldl_launch (r : Synchronisation) {n : ℕ} (k : KernelWindow)
    (h : k.kernSinceSync + n < k.pendingKernelWindow) :
    (List.replicate n (WindowEvent.launch r)).foldl (WindowEvent.apply settings) k =
      { k with kernSinceSync := k.kernSinceSync + n } := by
  induction n generalizing k with
  | zero => simp
  | succ n ih =>
      push_cast at h
      have hfull : k.full = false := by
        rw [KernelWindow.full, decide_eq_false_iff_not]
        omega
      rw [List.replicate_succ, List.foldl_cons]
      have hlaunch : WindowEvent.apply settings k (.launch r) =
          { k with kernSinceSync := k.kernSinceSync + 1 } := by
        simp [WindowEvent.apply, cuLaunchKernel, hfull]
      rw [hlaunch, ih _ (by change k.kernSinceSync + 1 + n < k.pendingKernelWindow; omega)]
      simp only [KernelWindow.mk.injEq, true_and, and_true]
      push_cast
      ring

end XpuShare
