import Mathlib.Tactic

/-! # Scheduler configuration

`initConfig` reads the environment of the scheduler process. Every clamped setting
carries its bounds in the configuration itself, so that a value outside them cannot
be built; the settings that the source does not clamp stay arbitrary. -/

namespace XpuShare

/-- Values of `size_t` are taken modulo this number. -/
abbrev sizeMod : ℕ := 2 ^ 64

/-- Conversion of an integer to a 32-bit `int`. -/
def toInt32 (z : ℤ) : ℤ := Int.bmod z (2 ^ 32)

theorem toInt32_eq {z : ℤ} (hlo : -2 ^ 31 ≤ z) (hhi : z < 2 ^ 31) : toInt32 z = z := by
  unfold toInt32
  apply Int.bmod_eq_of_le
  · norm_num at hlo ⊢
    exact hlo
  · norm_num at hhi ⊢
    exact hhi

theorem toInt32_bounds (z : ℤ) : -2 ^ 31 ≤ toInt32 z ∧ toInt32 z < 2 ^ 31 := by
  have hlo : -((2 ^ 32 : ℕ) : ℤ) / 2 ≤ toInt32 z := Int.le_bmod (by norm_num)
  have hhi : toInt32 z < (((2 ^ 32 : ℕ) : ℤ) + 1) / 2 := Int.bmod_lt (by norm_num)
  norm_num at hlo hhi ⊢
  exact ⟨hlo, hhi⟩

theorem toInt32_eq_iff (z : ℤ) : toInt32 z = z ↔ -2 ^ 31 ≤ z ∧ z < 2 ^ 31 := by
  constructor
  · intro h
    rw [← h]
    exact toInt32_bounds z
  · rintro ⟨hlo, hhi⟩
    exact toInt32_eq hlo hhi

/-- Conversion of an integer to `size_t`. -/
def toSizeT (z : ℤ) : ℕ := (z % (sizeMod : ℤ)).toNat

/-- A number that is not negative survives the way through `int` to `size_t`. -/
theorem toSizeT_toInt32 {z : ℤ} (hlo : 0 ≤ z) (hhi : z < 2 ^ 31) :
    toSizeT (toInt32 z) = z.toNat := by
  rw [toInt32_eq (by omega) hhi, toSizeT, Int.emod_eq_of_lt hlo]
  norm_num [sizeMod]
  omega

def isSpace (ch : Char) : Bool :=
  ch == ' ' || ch == '\t' || ch == '\n' || ch == '\r' || ch == '\x0b' || ch == '\x0c'

/-- The sign and the remaining characters of a decimal numeral. -/
def splitSign : List Char → Bool × List Char
  | '-' :: rest => (true, rest)
  | '+' :: rest => (false, rest)
  | rest => (false, rest)

/-- `atoi` is `strtol` in base ten, which saturates to `long`, cut down to `int`. -/
def atoi (text : String) : ℤ :=
  let (negative, rest) := splitSign (text.toList.dropWhile isSpace)
  let magnitude : ℤ := (rest.takeWhile Char.isDigit).foldl
    (fun acc digit => acc * 10 + (digit.toNat - '0'.toNat : ℕ)) 0
  let value := if negative then -magnitude else magnitude
  toInt32 (max (-2 ^ 63) (min value (2 ^ 63 - 1)))

inductive SwitchTimeMode where
  | auto
  | fixed
  deriving DecidableEq, Repr

inductive SchedulingMode where
  | auto
  | serial
  | concurrent
  deriving DecidableEq, Repr

/-- `struct scheduler_config` with the static initialiser of the source as defaults. -/
structure Config where
  mode : SwitchTimeMode := .auto
  schedulingMode : SchedulingMode := .auto
  fixedSwitchTime : ℤ := 60
  timeMultiplier : ℤ := 5
  memoryReservePercent : ℤ := 10
  maxRuntimeSec : ℤ := 300
  quotaSampleIntervalMs : ℤ := 50
  computeWindowMs : ℤ := 2000
  quotaCarryoverPercent : ℤ := 25
  dropTailBillingPercent : ℤ := 70
  defaultGpuMemory : ℕ := 16 * 1024 * 1024 * 1024
  maxRuntime_ge : 10 ≤ maxRuntimeSec := by decide
  sample_bounds : 10 ≤ quotaSampleIntervalMs ∧ quotaSampleIntervalMs ≤ 1000 := by decide
  window_bounds : 500 ≤ computeWindowMs ∧ computeWindowMs ≤ 20000 := by decide
  carryover_bounds : 0 ≤ quotaCarryoverPercent ∧ quotaCarryoverPercent ≤ 100 := by decide
  tail_bounds : 0 ≤ dropTailBillingPercent ∧ dropTailBillingPercent ≤ 100 := by decide

/-- The settings of the static initialiser. -/
def Config.static : Config := {}

/-- The `if (v < lo) v = lo; else if (v > hi) v = hi;` of the clamped settings. -/
def clamp (lo hi v : ℤ) : ℤ := if v < lo then lo else if v > hi then hi else v

theorem clamp_bounds {lo hi : ℤ} (h : lo ≤ hi) (v : ℤ) :
    lo ≤ clamp lo hi v ∧ clamp lo hi v ≤ hi := by
  unfold clamp
  split
  · exact ⟨le_rfl, h⟩
  · split
    · exact ⟨h, le_rfl⟩
    · omega

/-- A setting that keeps its default when the variable is unset and is clamped otherwise. -/
def clampedSetting (lo hi default : ℤ) (value : Option String) : ℤ :=
  match value with
  | some text => clamp lo hi (atoi text)
  | none => default

theorem clampedSetting_bounds {lo hi default : ℤ} (hlo : lo ≤ default) (hhi : default ≤ hi)
    (value : Option String) :
    lo ≤ clampedSetting lo hi default value ∧ clampedSetting lo hi default value ≤ hi := by
  cases value with
  | none => exact ⟨hlo, hhi⟩
  | some text => exact clamp_bounds (hlo.trans hhi) _

/-- `init_config`: the configuration read from the environment variables. -/
def initConfig (getenv : String → Option String) : Config where
  mode := if getenv "NVSHARE_SWITCH_TIME_MODE" = some "fixed" then .fixed else .auto
  fixedSwitchTime := match getenv "NVSHARE_SWITCH_TIME_FIXED" with
    | some text => atoi text
    | none => 60
  timeMultiplier := match getenv "NVSHARE_SWITCH_TIME_MULTIPLIER" with
    | some text => atoi text
    | none => 5
  memoryReservePercent := match getenv "NVSHARE_MEMORY_RESERVE_PERCENT" with
    | some text => atoi text
    | none => 10
  defaultGpuMemory := match getenv "NVSHARE_DEFAULT_GPU_MEMORY_GB" with
    | some text => toSizeT (atoi text * (1024 * 1024 * 1024))
    | none => 16 * 1024 * 1024 * 1024
  schedulingMode := match getenv "NVSHARE_SCHEDULING_MODE" with
    | some "serial" => .serial
    | some "concurrent" => .concurrent
    | _ => .auto
  maxRuntimeSec := match getenv "NVSHARE_MAX_RUNTIME_SEC" with
    | some text => max (atoi text) 10
    | none => 300
  quotaSampleIntervalMs :=
    clampedSetting 10 1000 50 (getenv "NVSHARE_QUOTA_SAMPLE_INTERVAL_MS")
  computeWindowMs := clampedSetting 500 20000 2000 (getenv "NVSHARE_COMPUTE_WINDOW_MS")
  quotaCarryoverPercent :=
    clampedSetting 0 100 25 (getenv "NVSHARE_QUOTA_CARRYOVER_PERCENT")
  dropTailBillingPercent :=
    clampedSetting 0 100 70 (getenv "NVSHARE_DROP_TAIL_BILLING_PERCENT")
  maxRuntime_ge := by split <;> simp
  sample_bounds := clampedSetting_bounds (by decide) (by decide) _
  window_bounds := clampedSetting_bounds (by decide) (by decide) _
  carryover_bounds := clampedSetting_bounds (by decide) (by decide) _
  tail_bounds := clampedSetting_bounds (by decide) (by decide) _

/-- An environment in which the listed variables are set. -/
def environment (settings : List (String × String)) (name : String) : Option String :=
  settings.lookup name

/-- An empty environment leaves the static initialiser in place. -/
theorem initConfig_unset : initConfig (fun _ => none) = {} := rfl

end XpuShare
