import Mathlib
import XpuShare.Model.MemorySize

/-! # The two parsers of memory sizes

They agree on binary units and on plain bytes. A decimal unit, or any other text after the
number, means something to the one in `hook.c` only; the other returns zero, which its callers
take for no limit at all. -/

namespace XpuShare

/-- A decimal integer below `2 ^ 32`, any number of spaces, and letters. -/
structure SizeText where
  digits : List Char
  spaces : List Char
  letters : List Char
  digits_ne_nil : digits ≠ []
  isDigit : ∀ ch ∈ digits, ch.isDigit = true
  lt : ofDigits 10 digits < 2 ^ 32
  isSpace : ∀ ch ∈ spaces, ch = ' '
  isAlpha : ∀ ch ∈ letters, ch.isAlpha = true

namespace SizeText

def text (t : SizeText) : List Char := t.digits ++ t.spaces ++ t.letters

/-- The number, which is hexadecimal in a text such as `0xf`. -/
def number (t : SizeText) : ℕ :=
  match hexBody t.text with
  | some body => ofDigits 16 (body.takeWhile isHexDigit)
  | none => ofDigits 10 t.digits

/-- The letters that are not digits of the number. -/
def unit (t : SizeText) : List Char :=
  match hexBody t.text with
  | some body => body.dropWhile isHexDigit
  | none => t.letters

end SizeText

/-- The units that both parsers know. -/
def commonUnits : List (List Char) :=
  ["".toList, "B".toList, "Ki".toList, "KiB".toList, "Mi".toList, "MiB".toList, "Gi".toList,
    "GiB".toList]

/-- A unit that both parsers know, in any case of its letters. -/
def commonUnit (unit : List Char) : Bool := commonUnits.any (strcasecmpEq unit)

/-! ## Reading the number -/

section Reading

variable {p : Char → Bool} {front back : List Char}

theorem takeWhile_append_of_all (hfront : ∀ ch ∈ front, p ch = true)
    (hback : ∀ ch ∈ back, p ch = false) : (front ++ back).takeWhile p = front := by
  rw [List.takeWhile_append_of_pos hfront]
  cases back with
  | nil => simp
  | cons ch back => simp [hback ch (by simp)]

theorem dropWhile_append_of_all (hfront : ∀ ch ∈ front, p ch = true)
    (hback : ∀ ch ∈ back, p ch = false) : (front ++ back).dropWhile p = back := by
  rw [List.dropWhile_append_of_pos hfront]
  cases back with
  | nil => simp
  | cons ch back => simp [hback ch (by simp)]

theorem not_isDigit_of_isAlpha {ch : Char} (h : ch.isAlpha = true) : ch.isDigit = false := by
  simp only [Char.isAlpha, Char.isUpper, Char.isLower, Char.isDigit] at h ⊢
  grind

theorem ne_space_of_isAlpha {ch : Char} (h : ch.isAlpha = true) : ch ≠ ' ' := by
  rintro rfl
  exact absurd h (by decide)

theorem hexBody_eq_some {text body : List Char} (h : hexBody text = some body) :
    ∃ x, text = '0' :: x :: body ∧ (x = 'x' ∨ x = 'X') := by
  unfold hexBody at h
  split at h
  · next x digit rest =>
      split at h
      · next hx =>
          rw [Option.some.injEq] at h
          exact ⟨x, by rw [h], hx.1⟩
      · exact absurd h (by simp)
  · exact absurd h (by simp)

namespace SizeText

variable (t : SizeText)

theorem not_isDigit_of_mem {ch : Char} (h : ch ∈ t.spaces ++ t.letters) :
    ch.isDigit = false := by
  rcases List.mem_append.mp h with h | h
  · rw [t.isSpace ch h]
    decide
  · exact not_isDigit_of_isAlpha (t.isAlpha ch h)

/-- The digits of a hexadecimal number are letters of the text. -/
theorem letters_of_hexBody {body : List Char} (h : hexBody t.text = some body) :
    ∀ ch ∈ body, ch.isAlpha = true := by
  obtain ⟨x, htext, hx⟩ := hexBody_eq_some h
  have hxdigit : x.isDigit = false := by
    rcases hx with rfl | rfl <;> decide
  have hxspace : x ≠ ' ' := by
    rcases hx with rfl | rfl <;> decide
  rw [text, List.append_assoc] at htext
  intro ch hch
  apply t.isAlpha
  cases hdigits : t.digits with
  | nil => exact absurd hdigits t.digits_ne_nil
  | cons d ds =>
      rw [hdigits, List.cons_append, List.cons.injEq] at htext
      cases ds with
      | cons e es =>
          have he : e = x := by simpa using (List.cons.inj htext.2).1
          have hdigit := t.isDigit e (by simp [hdigits])
          rw [he, hxdigit] at hdigit
          exact absurd hdigit (by decide)
      | nil =>
          cases hspaces : t.spaces with
          | cons e es =>
              rw [hspaces] at htext
              have he : e = x := by simpa using (List.cons.inj htext.2).1
              exact absurd (he ▸ t.isSpace e (by simp [hspaces])) hxspace
          | nil =>
              rw [hspaces, List.nil_append, List.nil_append] at htext
              rw [htext.2]
              exact List.mem_cons_of_mem _ hch

theorem unit_isAlpha : ∀ ch ∈ t.unit, ch.isAlpha = true := by
  unfold unit
  cases h : hexBody t.text with
  | none => exact t.isAlpha
  | some body =>
      intro ch hch
      exact t.letters_of_hexBody h ch ((List.dropWhile_suffix _).mem hch)

/-- What both parsers work on: the number, and the unit after any spaces. -/
theorem strtod_text :
    (strtod t.text).1 = Double.round t.number ∧
      (strtod t.text).2.dropWhile (· = ' ') = t.unit := by
  have hspace : ∀ l : List Char, (∀ ch ∈ l, ch.isAlpha = true) →
      ∀ ch ∈ l, decide (ch = ' ') = false :=
    fun l hl ch hch => decide_eq_false (ne_space_of_isAlpha (hl ch hch))
  have hunit := hspace t.unit t.unit_isAlpha
  rw [strtod, number]
  unfold unit at hunit ⊢
  cases h : hexBody t.text with
  | some body =>
      simp only [h] at hunit ⊢
      have hnone : ∀ ch ∈ ([] : List Char), decide (ch = ' ') = true := by simp
      exact ⟨trivial, dropWhile_append_of_all hnone hunit⟩
  | none =>
      simp only [h] at hunit ⊢
      rw [text, List.append_assoc,
        takeWhile_append_of_all t.isDigit fun ch => t.not_isDigit_of_mem,
        dropWhile_append_of_all t.isDigit fun ch => t.not_isDigit_of_mem]
      refine ⟨rfl, dropWhile_append_of_all ?_ hunit⟩
      intro ch hch
      exact decide_eq_true (t.isSpace ch hch)

/-- A number has been read. -/
theorem strtod_ne_text : t.text ≠ [] ∧ (strtod t.text).2 ≠ t.text := by
  have hlength : (strtod t.text).2.length < t.text.length := by
    rw [strtod]
    cases h : hexBody t.text with
    | some body =>
        obtain ⟨x, htext, -⟩ := hexBody_eq_some h
        have hsuffix : body.dropWhile isHexDigit <:+ body := List.dropWhile_suffix isHexDigit
        have hle := hsuffix.length_le
        rw [htext]
        simp only [List.length_cons]
        omega
    | none =>
        have hpos : 0 < t.digits.length := List.length_pos_iff.mpr t.digits_ne_nil
        simp only
        rw [text, List.append_assoc,
          dropWhile_append_of_all t.isDigit fun ch => t.not_isDigit_of_mem]
        simp only [List.length_append]
        omega
  refine ⟨?_, ?_⟩
  · intro hnil
    rw [hnil] at hlength
    simp at hlength
  · intro heq
    rw [heq] at hlength
    omega

end SizeText

end Reading

/-! ## Units -/

theorem eq_or_eq_toLower {ch up : Char} (hup : up.isUpper = true)
    (h : ch.toLower = up.toLower) : ch = up ∨ ch = up.toLower := by
  by_cases hch : ch.val ≥ 'A'.val ∧ ch.val ≤ 'Z'.val
  · left
    have hrange : up.val ≥ 'A'.val ∧ up.val ≤ 'Z'.val := by simpa [Char.isUpper] using hup
    have hval := congrArg Char.val h
    rw [Char.toLower, dif_pos hch, Char.toLower, dif_pos hrange] at hval
    exact Char.ext (by simpa using hval)
  · right
    rw [← h, Char.toLower, dif_neg hch]

theorem strcasecmpEq_cons {unit rest : List Char} {a : Char}
    (h : strcasecmpEq unit (a :: rest) = true) :
    ∃ ch tail, unit = ch :: tail ∧ ch.toLower = a.toLower ∧ strcasecmpEq tail rest = true := by
  rw [strcasecmpEq, decide_eq_true_eq, List.map_cons] at h
  obtain ⟨ch, tail, hunit, hch, htail⟩ := List.map_eq_cons_iff.mp h
  exact ⟨ch, tail, hunit, hch, by rwa [strcasecmpEq, decide_eq_true_eq]⟩

@[simp] theorem strcasecmpEq_nil {unit : List Char} :
    strcasecmpEq unit [] = true ↔ unit = [] := by
  simp [strcasecmpEq]

/-- The first two letters of a binary unit. -/
theorem binaryUnit_letters {unit rest : List Char} {up : Char} (hup : up.isUpper = true)
    (h : strcasecmpEq unit (up :: 'i' :: rest) = true) :
    ∃ ch next tail, unit = ch :: next :: tail ∧ (ch = up ∨ ch = up.toLower) ∧
      nextIsI (next :: tail) = true := by
  obtain ⟨ch, tail, rfl, hch, htail⟩ := strcasecmpEq_cons h
  obtain ⟨next, tail, rfl, hnext, -⟩ := strcasecmpEq_cons htail
  refine ⟨ch, next, tail, rfl, eq_or_eq_toLower hup hch, ?_⟩
  have hI : next.toLower = 'I'.toLower := by rw [hnext]; decide
  have hlow : 'I'.toLower = 'i' := by decide
  rcases eq_or_eq_toLower (by decide) hI with rfl | rfl
  · simp [nextIsI]
  · simp [nextIsI, hlow]

section Scale

variable (value : ℕ) {unit rest : List Char}

theorem Hook.scale_gi (h : strcasecmpEq unit ('G' :: 'i' :: rest) = true) :
    Hook.scale value unit = Double.mul value (1024 * 1024 * 1024) := by
  obtain ⟨ch, next, tail, rfl, hch, hi⟩ := binaryUnit_letters (by decide) h
  rcases hch with rfl | rfl <;> simp [Hook.scale, hi]

theorem Hook.scale_mi (h : strcasecmpEq unit ('M' :: 'i' :: rest) = true) :
    Hook.scale value unit = Double.mul value (1024 * 1024) := by
  obtain ⟨ch, next, tail, rfl, hch, hi⟩ := binaryUnit_letters (by decide) h
  rcases hch with rfl | rfl <;> simp [Hook.scale, hi]

theorem Hook.scale_ki (h : strcasecmpEq unit ('K' :: 'i' :: rest) = true) :
    Hook.scale value unit = Double.mul value 1024 := by
  obtain ⟨ch, next, tail, rfl, hch, hi⟩ := binaryUnit_letters (by decide) h
  rcases hch with rfl | rfl <;> simp [Hook.scale, hi]

theorem Hook.scale_b (h : strcasecmpEq unit ['B'] = true) : Hook.scale value unit = value := by
  obtain ⟨ch, tail, rfl, hch, -⟩ := strcasecmpEq_cons h
  rcases eq_or_eq_toLower (by decide) hch with rfl | rfl <;> simp [Hook.scale]

/-- Below `2 ^ 32` no product is rounded. -/
theorem mul_of_lt {value factor : ℕ} (h : value < 2 ^ 32) (m k : ℕ) (hm : m ≤ 2 ^ 21)
    (hk : k ≤ 30) (hfactor : factor = m * 2 ^ k) : Double.mul value factor = value * factor := by
  have hproduct : value * m < 2 ^ 53 := by
    calc value * m ≤ value * 2 ^ 21 := Nat.mul_le_mul_left _ hm
      _ < 2 ^ 32 * 2 ^ 21 := Nat.mul_lt_mul_of_pos_right h (by decide)
      _ = 2 ^ 53 := by decide
  have hsmall : value * m * 2 ^ k < Double.infinity := by
    calc value * m * 2 ^ k ≤ value * m * 2 ^ 30 :=
          Nat.mul_le_mul_left _ (Nat.pow_le_pow_right (by decide) hk)
      _ < 2 ^ 53 * 2 ^ 30 := Nat.mul_lt_mul_of_pos_right hproduct (by decide)
      _ ≤ Double.infinity := by decide +kernel
  rw [hfactor, Double.mul, ← mul_assoc]
  exact Double.round_of_lt hproduct hsmall

/-- A number below `2 ^ 32` is scaled exactly, by at most `2 ^ 30`. -/
theorem Hook.scale_eq_mul {value : ℕ} (h : value < 2 ^ 32) (unit : List Char) :
    ∃ factor, 0 < factor ∧ factor ≤ 2 ^ 30 ∧ Hook.scale value unit = value * factor := by
  have hgi := mul_of_lt h 1 30 (by decide) (by decide) (by decide : 1024 * 1024 * 1024 = _)
  have hg := mul_of_lt h (5 ^ 9) 9 (by decide) (by decide) (by decide : 1000 * 1000 * 1000 = _)
  have hmi := mul_of_lt h 1 20 (by decide) (by decide) (by decide : 1024 * 1024 = _)
  have hm := mul_of_lt h (5 ^ 6) 6 (by decide) (by decide) (by decide : 1000 * 1000 = _)
  have hki := mul_of_lt h 1 10 (by decide) (by decide) (by decide : 1024 = _)
  have hk := mul_of_lt h (5 ^ 3) 3 (by decide) (by decide) (by decide : 1000 = _)
  have hone : value = value * 1 := (mul_one value).symm
  cases unit with
  | nil => exact ⟨1, by decide, by decide, hone⟩
  | cons ch rest =>
      rw [Hook.scale]
      split
      · split
        · exact ⟨_, by decide, by decide, hgi⟩
        · exact ⟨_, by decide, by decide, hg⟩
      · split
        · split
          · exact ⟨_, by decide, by decide, hmi⟩
          · exact ⟨_, by decide, by decide, hm⟩
        · split
          · split
            · exact ⟨_, by decide, by decide, hki⟩
            · exact ⟨_, by decide, by decide, hk⟩
          · exact ⟨1, by decide, by decide, hone⟩

end Scale

/-! ## Agreement -/

section Agreement

variable (wild : ℕ → ℕ) (t : SizeText)

theorem Hook.parseMemorySize_text : Hook.parseMemorySize wild t.text =
    doubleToSizeT wild (Hook.scale (Double.round t.number) t.unit) := by
  simp only [Hook.parseMemorySize]
  rw [t.strtod_text.1, t.strtod_text.2]

/-- `k8s_api.c` reads a common unit as `hook.c` does, and no other. -/
theorem K8sApi.parseMemorySize_text : K8sApi.parseMemorySize wild t.text =
    if commonUnit t.unit then Hook.parseMemorySize wild t.text else 0 := by
  have hvalue := Double.representable_round t.number
  have hmi : Double.mul (Double.mul (Double.round t.number) 1024) 1024 =
      Double.mul (Double.round t.number) (1024 * 1024) :=
    Double.mul_two_pow_mul_two_pow hvalue 10 10
  have hgi : Double.mul (Double.mul (Double.round t.number) (1024 * 1024)) 1024 =
      Double.mul (Double.round t.number) (1024 * 1024 * 1024) :=
    Double.mul_two_pow_mul_two_pow hvalue 20 10
  rw [Hook.parseMemorySize_text, K8sApi.parseMemorySize, if_neg t.strtod_ne_text.1]
  simp only [if_neg t.strtod_ne_text.2, t.strtod_text.1, t.strtod_text.2, hmi, hgi]
  have hcommon : ∀ name ∈ commonUnits, strcasecmpEq t.unit name = true → commonUnit t.unit = true :=
    fun name hname h => List.any_eq_true.mpr ⟨name, hname, h⟩
  by_cases hg : strcasecmpEq t.unit "Gi".toList || strcasecmpEq t.unit "GiB".toList
  · rw [if_pos hg]
    rcases Bool.or_eq_true_iff.mp hg with h | h
    · rw [if_pos (hcommon _ (by simp [commonUnits]) h), Hook.scale_gi _ h]
    · rw [if_pos (hcommon _ (by simp [commonUnits]) h), Hook.scale_gi _ h]
  rw [if_neg hg]
  by_cases hm : strcasecmpEq t.unit "Mi".toList || strcasecmpEq t.unit "MiB".toList
  · rw [if_pos hm]
    rcases Bool.or_eq_true_iff.mp hm with h | h
    · rw [if_pos (hcommon _ (by simp [commonUnits]) h), Hook.scale_mi _ h]
    · rw [if_pos (hcommon _ (by simp [commonUnits]) h), Hook.scale_mi _ h]
  rw [if_neg hm]
  by_cases hk : strcasecmpEq t.unit "Ki".toList || strcasecmpEq t.unit "KiB".toList
  · rw [if_pos hk]
    rcases Bool.or_eq_true_iff.mp hk with h | h
    · rw [if_pos (hcommon _ (by simp [commonUnits]) h), Hook.scale_ki _ h]
    · rw [if_pos (hcommon _ (by simp [commonUnits]) h), Hook.scale_ki _ h]
  rw [if_neg hk]
  by_cases hb : t.unit = [] || strcasecmpEq t.unit "B".toList
  · rw [if_pos hb]
    rcases Bool.or_eq_true_iff.mp hb with h | h
    · have hnil : t.unit = [] := of_decide_eq_true h
      rw [if_pos (hcommon [] (by simp [commonUnits]) (strcasecmpEq_nil.mpr hnil)), hnil,
        Hook.scale]
    · rw [if_pos (hcommon _ (by simp [commonUnits]) h), Hook.scale_b _ h]
  · have hnot : ¬ commonUnit t.unit = true := by
      intro h
      simp only [Bool.or_eq_true_iff, not_or, decide_eq_true_eq] at hg hm hk hb
      obtain ⟨name, hname, heq⟩ := List.any_eq_true.mp h
      simp only [commonUnits, List.mem_cons, List.not_mem_nil, or_false] at hname
      rcases hname with rfl | rfl | rfl | rfl | rfl | rfl | rfl | rfl
      · exact hb.1 (strcasecmpEq_nil.mp heq)
      · exact hb.2 heq
      · exact hk.1 heq
      · exact hk.2 heq
      · exact hm.1 heq
      · exact hm.2 heq
      · exact hg.1 heq
      · exact hg.2 heq
    rw [if_neg hb, if_neg hnot]

theorem doubleToSizeT_of_lt {d : ℕ} (h : d < sizeMod) : doubleToSizeT wild d = d := by
  rw [doubleToSizeT, if_pos h]

variable {t}

/-- A number below `2 ^ 32` is zero bytes only if it is zero. -/
theorem Hook.parseMemorySize_eq_zero (h : t.number < 2 ^ 32) :
    Hook.parseMemorySize wild t.text = 0 ↔ t.number = 0 := by
  have hround : Double.round t.number = t.number := by
    have hexact := mul_of_lt h 1 0 (by decide) (by decide) (by decide : 1 = _)
    rwa [Double.mul, mul_one] at hexact
  obtain ⟨factor, hpos, hle, hscale⟩ := Hook.scale_eq_mul h t.unit
  have hsize : t.number * factor < sizeMod := by
    calc t.number * factor ≤ t.number * 2 ^ 30 := Nat.mul_le_mul_left _ hle
      _ < 2 ^ 32 * 2 ^ 30 := Nat.mul_lt_mul_of_pos_right h (by decide)
      _ ≤ sizeMod := by decide
  rw [Hook.parseMemorySize_text, hround, hscale, doubleToSizeT_of_lt wild hsize]
  simp [hpos.ne']

/-- Both parsers return the same number of bytes if the unit is one that both know, and for
other units if the number is zero. Only then, as far as the numbers are below `2 ^ 32`, which a
hexadecimal one need not be. -/
theorem parsers_agree_iff (wild : ℕ → ℕ) (t : SizeText) :
    (commonUnit t.unit = true →
      Hook.parseMemorySize wild t.text = K8sApi.parseMemorySize wild t.text) ∧
    (t.number < 2 ^ 32 →
      (Hook.parseMemorySize wild t.text = K8sApi.parseMemorySize wild t.text ↔
        commonUnit t.unit = true ∨ t.number = 0)) := by
  rw [K8sApi.parseMemorySize_text]
  refine ⟨fun hcommon => (if_pos hcommon).symm, ?_⟩
  intro hlt
  by_cases hcommon : commonUnit t.unit = true
  · simp [hcommon]
  · rw [if_neg hcommon, Hook.parseMemorySize_eq_zero wild hlt]
    simp [hcommon]

theorem parsers_agree_iff_mebibytes :
    ∃ t : SizeText, t.text = "512 mib".toList ∧ commonUnit t.unit = true ∧
      Hook.parseMemorySize (fun _ => 0) t.text = K8sApi.parseMemorySize (fun _ => 0) t.text :=
  let t : SizeText := ⟨['5', '1', '2'], [' '], ['m', 'i', 'b'], by decide, by simp, by decide,
    by simp, by simp⟩
  ⟨t, by decide, by decide, (parsers_agree_iff (fun _ => 0) t).1 (by decide)⟩

/-- `4G` is four billion bytes in the environment and nothing in an annotation. -/
theorem parsers_differ_decimal_unit :
    ∃ t : SizeText, t.text = "4G".toList ∧
      Hook.parseMemorySize (fun _ => 0) t.text = 4000000000 ∧
      K8sApi.parseMemorySize (fun _ => 0) t.text = 0 :=
  ⟨⟨['4'], [], ['G'], by decide, by simp, by decide, by simp, by simp⟩, by decide,
    by decide +kernel, by decide +kernel⟩

end Agreement

end XpuShare
