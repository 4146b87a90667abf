import XpuShare.Model.Handlers

/-! # Timer deadlines in machine arithmetic

The sleep computation of `timer_thr_fn` with the 64-bit `long` of the source, and the
`timespec` that the timer waits for. -/

namespace XpuShare

/-- Conversion of an integer to a 64-bit `long`. -/
def toInt64 (z : ℤ) : ℤ := Int.bmod z (2 ^ 64)

theorem toInt64_eq {z : ℤ} (hlo : -2 ^ 63 ≤ z) (hhi : z < 2 ^ 63) : toInt64 z = z := by
  unfold toInt64
  apply Int.bmod_eq_of_le
  · norm_num at hlo ⊢
    exact hlo
  · norm_num at hhi ⊢
    exact hhi

/-- `struct timespec`. -/
structure Timespec where
  sec : ℤ
  nsec : ℤ
  deriving DecidableEq

/-- A reading of CLOCK_REALTIME. A count of nanoseconds in 64 bits stays far within the
bound on the seconds. -/
structure RealTime extends Timespec where
  nsec_bounds : 0 ≤ nsec ∧ nsec < 1000000000
  sec_bounds : -2 ^ 62 ≤ sec ∧ sec < 2 ^ 62

namespace Deadline

/-- `min_sleep_ms` at time `now`, with `long`s of 64 bits. -/
def minSleepMs (cfg : Config) (s : Sched) (x : CtxId) (now : ℤ) : ℤ :=
  Sleep.minSleepMs cfg toInt64 s x now

/-- The `timespec` passed to `pthread_cond_timedwait`, for a sleep that begins at `start`. -/
def timespecAfter (start : Timespec) (sleep : ℤ) : Timespec :=
  let sec := toInt64 (start.sec + sleep.tdiv 1000)
  let nsec := toInt64 (start.nsec + sleep.tmod 1000 * 1000000)
  if 1000000000 ≤ nsec then ⟨toInt64 (sec + 1), nsec - 1000000000⟩ else ⟨sec, nsec⟩

end Deadline

end XpuShare
