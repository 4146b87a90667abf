import Mathlib.Data.Int.Log
import Mathlib.Tactic

/-! # Numbers as text

The byte strings that `printf` writes for integers and for single-precision numbers, with
single precision as rational numbers of 24 significant bits. -/

namespace Printf

abbrev Text := List UInt8

/-- The bytes of a string; a character stands for the byte of its number. -/
def bytesOf (text : String) : Text := text.toList.map Char.toUInt8

def isDigit (b : UInt8) : Bool := 48 ≤ b && b ≤ 57

def digit (d : ℕ) : UInt8 := UInt8.ofNat (48 + d)

/-- `%zu` and `%lu`. -/
def natural (n : ℕ) : Text := if n = 0 then [digit 0] else (Nat.digits 10 n).reverse.map digit

/-- `%d` and `%ld`. -/
def decimal (z : ℤ) : Text :=
  if z < 0 then 45 :: natural z.natAbs else natural z.natAbs

def hexDigit (d : ℕ) : UInt8 := if d < 10 then digit d else UInt8.ofNat (87 + d)

/-- `%016lx`. -/
def hex16 (n : UInt64) : Text :=
  (List.range 16).reverse.map fun i => hexDigit (n.toNat / 16 ^ i % 16)

/-- The nearest integer, ties to even. -/
def roundEven (q : ℚ) : ℤ :=
  let rest := q - ⌊q⌋
  if 1 < 2 * rest ∨ (2 * rest = 1 ∧ ⌊q⌋ % 2 = 1) then ⌊q⌋ + 1 else ⌊q⌋

/-- The nearest number of 24 significant bits. -/
def single (q : ℚ) : ℚ :=
  if q = 0 then 0
  else
    let unit : ℚ := 2 ^ (Int.log 2 |q| - 23)
    roundEven (q / unit) * unit

/-- `%.4f`. -/
def fixed4 (q : ℚ) : Text :=
  let scaled := (roundEven (|q| * 10000)).natAbs
  (if q < 0 then [45] else []) ++ natural (scaled / 10000) ++ 46 ::
    [1000, 100, 10, 1].map fun unit => digit (scaled / unit % 10)

/-! ## Digits -/

theorem isDigit_digit {d : ℕ} (h : d < 10) : isDigit (digit d) = true := by
  interval_cases d <;> decide

theorem digit_toNat {d : ℕ} (h : d < 10) : (digit d).toNat = 48 + d := by
  interval_cases d <;> decide

theorem natural_isDigit (n : ℕ) : ∀ b ∈ natural n, isDigit b = true := by
  unfold natural
  split
  · simp [isDigit_digit]
  · intro b hb
    obtain ⟨d, hd, rfl⟩ := List.mem_map.mp hb
    exact isDigit_digit (Nat.digits_lt_base (by norm_num) (List.mem_reverse.mp hd))

theorem natural_ne_nil (n : ℕ) : natural n ≠ [] := by
  unfold natural
  split
  · simp
  · simpa [Nat.digits_ne_nil_iff_ne_zero] using ‹¬ n = 0›

/-- The value of a string of decimal digits. -/
def digitsValue (ds : Text) : ℕ := ds.foldl (fun acc b => 10 * acc + (b.toNat - 48)) 0

theorem digitsValue_natural (n : ℕ) : digitsValue (natural n) = n := by
  unfold natural
  split
  · rename_i hzero
    rw [hzero]
    decide
  · have hfold : ∀ ds : List ℕ, (∀ d ∈ ds, d < 10) →
        (ds.map digit).foldr (fun b acc => 10 * acc + (b.toNat - 48)) 0 = Nat.ofDigits 10 ds := by
      intro ds hds
      induction ds with
      | nil => rfl
      | cons d ds ih =>
          have hd : d < 10 := hds d List.mem_cons_self
          have hrest := ih fun e he => hds e (List.mem_cons_of_mem d he)
          rw [List.map_cons, List.foldr_cons, hrest, digit_toNat hd, Nat.ofDigits_cons]
          omega
    rw [digitsValue, List.map_reverse, List.foldl_reverse, hfold, Nat.ofDigits_digits]
    intro d hd
    exact Nat.digits_lt_base (by norm_num) hd

theorem hex16_length (n : UInt64) : (hex16 n).length = 16 := by
  simp [hex16]

end Printf
