import XpuShare.Verification.Reporting.Correctness

/-! # Raised memory limits

The first call of `cuMemAlloc` asks `cuMemGetInfo` how much memory there is and keeps the
answer. If a limit is in force then, the answer is that limit, and it goes on to bound every
allocation whatever the limit becomes. -/

namespace XpuShare

/-- The driver reports this total. -/
def MemoryEvent.Reports (total : ℕ) : MemoryEvent → Prop
  | .cuMemAlloc d _ => d.total = total
  | _ => True

/-- What a request has to keep to: the physical memory without the reserve, and the limit in
force, if there is one. -/
def WithinLimits (total bytesize : ℕ) (h : HookState) : Prop :=
  h.sumAllocated + bytesize ≤ total - meminfoReserve ∧
    (h.memoryLimit ≠ 0 → h.sumAllocated + bytesize ≤ h.memoryLimit)

/-- The limit in force at the first call of `cuMemAlloc`, or in the end if there is none. -/
def firstLimit (limit : ℕ) : List MemoryEvent → ℕ
  | [] => limit
  | .cuMemAlloc _ _ :: _ => limit
  | .cuMemFree _ _ :: events => firstLimit limit events
  | .updateLimit limit' :: events => firstLimit limit' events

/-- What the first call takes for the size of the memory. -/
def capacity (total limit : ℕ) : ℕ := if limit = 0 then total - meminfoReserve else limit

/-! ## The capacity that is kept -/

/-- The capacity has been measured and is `n`, and the hooks are set up in the usual way. -/
structure HookState.Measured (n : ℕ) (h : HookState) : Prop where
  bootstrapped : h.bootstrapped = true
  gotMaxMemSize : h.gotMaxMemSize = true
  allocatable : h.nvshareSizeMemAllocatable = n
  enableSingleOversub : h.enableSingleOversub = false

section Capacity

variable {h : HookState} {n total limit : ℕ} {events : List MemoryEvent}

/-- The first measurement, made before anything has been allocated. -/
theorem measured_of_fresh (hreserve : meminfoReserve ≤ total) (htotal : total < sizeMod)
    (d : DriverReply) (hd : d.total = total) :
    (measureMemory d { memoryLimit := limit }).Measured (capacity total limit) where
  bootstrapped := rfl
  gotMaxMemSize := rfl
  allocatable := by
    by_cases hlimit : limit = 0
    · simp [measureMemory, cuMemGetInfo, capacity, hlimit, hd, toSizeT_sub hreserve htotal]
    · have hpos : 0 < limit := Nat.pos_of_ne_zero hlimit
      simp [measureMemory, cuMemGetInfo, capacity, hlimit, hpos]
  enableSingleOversub := rfl

theorem HookState.Measured.measureMemory (hm : h.Measured n) (d : DriverReply) :
    measureMemory d h = h := by
  rw [XpuShare.measureMemory, if_pos hm.gotMaxMemSize]

theorem HookState.Measured.insertCudaAllocation (hm : h.Measured n) (dptr bytesize : ℕ) :
    (insertCudaAllocation dptr bytesize h).1.Measured n :=
  ⟨hm.bootstrapped, hm.gotMaxMemSize, hm.allocatable, hm.enableSingleOversub⟩

theorem HookState.Measured.removeAllocation {r : HookState × List ToScheduler}
    (hm : r.1.Measured n) (rmPtr : ℕ) (a : CudaMemAllocation) :
    (removeAllocation rmPtr r a).1.Measured n := by
  unfold XpuShare.removeAllocation
  split
  · exact ⟨hm.bootstrapped, hm.gotMaxMemSize, hm.allocatable, hm.enableSingleOversub⟩
  · exact hm

theorem HookState.Measured.removeCudaAllocation (hm : h.Measured n) (rmPtr : ℕ) :
    (removeCudaAllocation rmPtr h).1.Measured n := by
  have hloop : ∀ (l : List CudaMemAllocation) (r : HookState × List ToScheduler),
      r.1.Measured n → (l.foldl (XpuShare.removeAllocation rmPtr) r).1.Measured n := by
    intro l
    induction l with
    | nil => exact fun r hr => hr
    | cons a l ih => exact fun r hr => ih _ (hr.removeAllocation rmPtr a)
  exact hloop h.cudaAllocationList (h, []) hm

/-- Once a call is past the measurement, its outcome does not change the capacity. -/
theorem Measured.cuMemAlloc {d : DriverReply} (hboot : h.bootstrapped = true)
    (hm : (measureMemory d h).Measured n) (bytesize : ℕ) :
    (cuMemAlloc d bytesize h).2.1.Measured n := by
  unfold XpuShare.cuMemAlloc
  simp only [hboot, Bool.not_true, Bool.false_eq_true, if_false]
  split
  · exact hm
  · split
    · exact hm.insertCudaAllocation d.dptr bytesize
    · exact hm

theorem HookState.Measured.apply (hm : h.Measured n) (e : MemoryEvent) :
    (e.apply h).Measured n := by
  cases e with
  | cuMemAlloc d bytesize =>
      apply Measured.cuMemAlloc hm.bootstrapped
      rwa [hm.measureMemory d]
  | cuMemFree result dptr =>
      simp only [MemoryEvent.apply, XpuShare.cuMemFree, hm.bootstrapped, Bool.not_true,
        Bool.false_eq_true, if_false]
      split
      · exact hm.removeCudaAllocation dptr
      · exact hm
  | updateLimit limit =>
      exact ⟨hm.bootstrapped, hm.gotMaxMemSize, hm.allocatable, hm.enableSingleOversub⟩

theorem HookState.Measured.foldl (hm : h.Measured n) (events : List MemoryEvent) :
    (events.foldl MemoryEvent.apply h).Measured n := by
  induction events generalizing h with
  | nil => exact hm
  | cons e events ih => exact ih (hm.apply e)

theorem cuMemFree_fresh (result : CuResult) (dptr : ℕ) :
    (cuMemFree result dptr { memoryLimit := limit }).2.1 = { memoryLimit := limit } := by
  unfold cuMemFree
  simp only [Bool.not_true, Bool.false_eq_true, if_false]
  split <;> rfl

/-- However a run went, a call of `cuMemAlloc` compares with the capacity that the limit of
the first such call gave. -/
theorem measureMemory_hookAfter (hreserve : meminfoReserve ≤ total) (htotal : total < sizeMod)
    (hevents : ∀ e ∈ events, e.Reports total) (d : DriverReply) (hd : d.total = total) :
    (measureMemory d (hookAfter limit events)).Measured
      (capacity total (firstLimit limit events)) := by
  unfold hookAfter
  -- up to the first call the state is that of a client without allocations
  induction events generalizing limit with
  | nil => exact measured_of_fresh hreserve htotal d hd
  | cons e events ih =>
      have hrest : ∀ e ∈ events, e.Reports total := fun e he => hevents e (by simp [he])
      rw [List.foldl_cons]
      cases e with
      | cuMemAlloc d' bytesize =>
          have hfirst : (cuMemAlloc d' bytesize { memoryLimit := limit }).2.1.Measured
              (capacity total limit) :=
            Measured.cuMemAlloc rfl
              (measured_of_fresh hreserve htotal d' (hevents (.cuMemAlloc d' bytesize) (by simp)))
              bytesize
          have hlast := hfirst.foldl events
          simp only [MemoryEvent.apply, firstLimit]
          rw [hlast.measureMemory d]
          exact hlast
      | cuMemFree result dptr =>
          simp only [MemoryEvent.apply, firstLimit, cuMemFree_fresh]
          exact ih hrest
      | updateLimit limit' => exact ih hrest

end Capacity

/-! ## Which calls are passed on -/

section Calls

variable {d : DriverReply} {h : HookState} {n bytesize : ℕ}

theorem measureMemory_memoryLimit (d : DriverReply) (h : HookState) :
    (measureMemory d h).memoryLimit = h.memoryLimit := by
  unfold measureMemory
  split <;> rfl

theorem measureMemory_bootstrapped (d : DriverReply) (h : HookState) :
    (measureMemory d h).bootstrapped = h.bootstrapped := by
  unfold measureMemory
  split <;> rfl

theorem passesOn_iff (hm : (measureMemory d h).Measured n)
    (hwrap : h.sumAllocated + bytesize < sizeMod) :
    passesOn d bytesize h = true ↔ h.sumAllocated + bytesize ≤ n ∧
      (h.memoryLimit ≠ 0 → h.sumAllocated + bytesize ≤ h.memoryLimit) := by
  have hboot := hm.bootstrapped
  rw [measureMemory_bootstrapped] at hboot
  simp only [passesOn, admitsAllocation, hboot, measureMemory_sum,
    measureMemory_memoryLimit, hm.allocatable, hm.enableSingleOversub, Nat.mod_eq_of_lt hwrap]
  simp
  grind

end Calls

/-- A call is passed on exactly when it keeps to the memory and the limit in force, if there
was no limit at the first call, or the call is over the limit in force, or the first limit and
the memory without the reserve bound it alike; and only then. -/
theorem passesOn_within_limits_iff {total limit : ℕ} {events : List MemoryEvent} {d : DriverReply}
    {bytesize : ℕ} (hreserve : meminfoReserve ≤ total) (htotal : total < sizeMod)
    (hevents : ∀ e ∈ events, e.Reports total) (hd : d.total = total)
    (hwrap : (hookAfter limit events).sumAllocated + bytesize < sizeMod) :
    let h := hookAfter limit events
    let wanted := h.sumAllocated + bytesize
    (passesOn d bytesize h = true ↔ WithinLimits total bytesize h) ↔
      firstLimit limit events = 0 ∨ h.memoryLimit ≠ 0 ∧ h.memoryLimit < wanted ∨
        wanted ≤ min (firstLimit limit events) (total - meminfoReserve) ∨
        max (firstLimit limit events) (total - meminfoReserve) < wanted := by
  intro h wanted
  rw [passesOn_iff (measureMemory_hookAfter hreserve htotal hevents d hd) hwrap, WithinLimits]
  by_cases hfirst : firstLimit limit events = 0
  · simp [capacity, hfirst, h]
  · rw [capacity, if_neg hfirst]
    grind

/-- A limit raised before the first call takes effect, and so does a lowered one. -/
theorem passesOn_within_limits_iff_raised_early :
    let events := [.updateLimit (2 ^ 31), .cuMemAlloc { total := 2 ^ 34, dptr := 1 } (2 ^ 30),
      .updateLimit (3 * 2 ^ 29)]
    passesOn { total := 2 ^ 34 } (2 ^ 29) (hookAfter (2 ^ 30) events) = true ↔
      WithinLimits (2 ^ 34) (2 ^ 29) (hookAfter (2 ^ 30) events) := by
  intro events
  refine (passesOn_within_limits_iff (by decide) (by decide) ?_ rfl (by decide)).mpr (by decide)
  simp [events, MemoryEvent.Reports]

/-- On a GPU with 16 GiB, a client that made its first allocation under a limit of 1 GiB and
has none left is refused 2 GiB after the limit has been raised to 4 GiB. -/
theorem raised_limit_without_effect :
    let total := 2 ^ 34
    let h := hookAfter (2 ^ 30) [.cuMemAlloc { total := total, dptr := 1 } (2 ^ 20),
      .cuMemFree .success 1, .updateLimit (2 ^ 32)]
    meminfoReserve ≤ total ∧ h.memoryLimit = 2 ^ 32 ∧ WithinLimits total (2 ^ 31) h ∧
      passesOn { total := total } (2 ^ 31) h = false := by
  refine ⟨by decide, by decide, ⟨by decide, by decide⟩, by decide⟩

end XpuShare
