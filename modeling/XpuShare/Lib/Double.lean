import Mathlib.Tactic

/-! # Natural numbers in double precision

A natural number is a double if 53 significant bits are enough for it. Any other result is
rounded to the nearest double, ties to even, and is infinite from `2 ^ 1024` on. -/

namespace Double

/-- The power that stands for infinity. -/
def infinity : ℕ := 2 ^ 1024

/-- The nearest number of 53 significant bits. -/
def nearest (n : ℕ) : ℕ :=
  let unit := 2 ^ (n.log2 - 52)
  let up := unit < 2 * (n % unit) ∨ 2 * (n % unit) = unit ∧ n / unit % 2 = 1
  (n / unit + if up then 1 else 0) * unit

/-- The double that an exact result is rounded to. -/
def round (n : ℕ) : ℕ := min (nearest n) infinity

/-- The product of two doubles. -/
def mul (a b : ℕ) : ℕ := round (a * b)

/-- Numbers with 53 significant bits. -/
def Representable (n : ℕ) : Prop := ∃ m k, m < 2 ^ 53 ∧ n = m * 2 ^ k

/-! ## Rounding -/

theorem representable_infinity : Representable infinity :=
  ⟨1, 1024, by decide, by rw [infinity, one_mul]⟩

theorem Representable.mul_two_pow {n : ℕ} (h : Representable n) (k : ℕ) :
    Representable (n * 2 ^ k) := by
  obtain ⟨m, j, hm, rfl⟩ := h
  exact ⟨m, j + k, hm, by rw [pow_add, mul_assoc]⟩

theorem representable_min {a b : ℕ} (ha : Representable a) (hb : Representable b) :
    Representable (min a b) := by
  rcases min_choice a b with h | h
  · rwa [h]
  · rwa [h]

theorem nearest_of_dvd {n : ℕ} (h : 2 ^ (n.log2 - 52) ∣ n) : nearest n = n := by
  have hmod : n % 2 ^ (n.log2 - 52) = 0 := Nat.mod_eq_zero_of_dvd h
  have hpos : 0 < 2 ^ (n.log2 - 52) := by positivity
  have hstay : ¬ (2 ^ (n.log2 - 52) < 2 * 0 ∨
      2 * 0 = 2 ^ (n.log2 - 52) ∧ n / 2 ^ (n.log2 - 52) % 2 = 1) := by omega
  simp only [nearest, hmod]
  rw [if_neg hstay, Nat.add_zero, Nat.div_mul_cancel h]

theorem nearest_of_representable {n : ℕ} (h : Representable n) : nearest n = n := by
  obtain ⟨m, k, hm, rfl⟩ := h
  apply nearest_of_dvd
  by_cases hzero : m * 2 ^ k = 0
  · simp [hzero]
  · have hlt : m * 2 ^ k < 2 ^ (53 + k) := by
      rw [pow_add]
      exact Nat.mul_lt_mul_of_pos_right hm (by positivity)
    have hlog : (m * 2 ^ k).log2 < 53 + k := (Nat.log2_lt hzero).mpr hlt
    apply dvd_mul_of_dvd_right
    apply pow_dvd_pow
    omega

theorem round_of_representable {n : ℕ} (h : Representable n) :
    round n = min n infinity := by
  rw [round, nearest_of_representable h]

theorem representable_nearest (n : ℕ) : Representable (nearest n) := by
  have hlt : n / 2 ^ (n.log2 - 52) < 2 ^ 53 := by
    rw [Nat.div_lt_iff_lt_mul (by positivity), ← pow_add]
    have hle : n.log2 + 1 ≤ 53 + (n.log2 - 52) := by omega
    exact lt_of_lt_of_le Nat.lt_log2_self (Nat.pow_le_pow_right (by decide) hle)
  have hle : n / 2 ^ (n.log2 - 52) + 1 ≤ 2 ^ 53 := hlt
  simp only [nearest]
  split
  · rcases hle.lt_or_eq with hlt | heq
    · exact ⟨_, _, hlt, rfl⟩
    · -- a carry out of the 53 bits leaves a power of two
      rw [heq]
      exact ⟨1, 53 + (n.log2 - 52), by decide, by rw [pow_add, one_mul]⟩
  · exact ⟨_, _, hlt, rfl⟩

theorem representable_round (n : ℕ) : Representable (round n) :=
  representable_min (representable_nearest n) representable_infinity

theorem round_of_lt {m k : ℕ} (hm : m < 2 ^ 53) (hsmall : m * 2 ^ k < infinity) :
    round (m * 2 ^ k) = m * 2 ^ k := by
  have h : Representable (m * 2 ^ k) := ⟨m, k, hm, rfl⟩
  rw [round_of_representable h, min_eq_left hsmall.le]

/-- Scaling by powers of two loses nothing, so two of them make one. -/
theorem mul_two_pow_mul_two_pow {d : ℕ} (hd : Representable d) (a b : ℕ) :
    mul (mul d (2 ^ a)) (2 ^ b) = mul d (2 ^ (a + b)) := by
  have hleft : mul d (2 ^ a) = min (d * 2 ^ a) infinity :=
    round_of_representable (hd.mul_two_pow a)
  have hright : mul d (2 ^ (a + b)) = min (d * 2 ^ (a + b)) infinity :=
    round_of_representable (hd.mul_two_pow (a + b))
  have hinner : Representable (min (d * 2 ^ a) infinity) :=
    representable_min (hd.mul_two_pow a) representable_infinity
  have houter : mul (min (d * 2 ^ a) infinity) (2 ^ b) =
      min (min (d * 2 ^ a) infinity * 2 ^ b) infinity :=
    round_of_representable (hinner.mul_two_pow b)
  have hgrow : infinity ≤ infinity * 2 ^ b := Nat.le_mul_of_pos_right _ (by positivity)
  rw [hleft, houter, hright, min_mul_of_nonneg _ _ (Nat.zero_le _), mul_assoc, ← pow_add,
    min_assoc, min_eq_right hgrow]

end Double
