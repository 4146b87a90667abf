import Mathlib.Data.List.TakeWhile
import XpuShare.Lib.Exposition

/-! # Samples written without escaping

A sample whose label values are written as they stand is read back as what was written exactly
when no label value contains a byte that the format would have escaped. -/

namespace Exposition

open Printf

/-! ## What is written -/

/-- A number to be written; a ratio is rounded to four decimal places. -/
inductive Quantity where
  | integer (z : ℤ)
  | ratio (q : ℚ)

def Quantity.text : Quantity → Text
  | .integer z => decimal z
  | .ratio q => fixed4 q

/-- A sample to be written. -/
structure Row where
  name : Text
  labels : List (Text × Text)
  value : Quantity

def labelText (label : Text × Text) : Text := label.1 ++ 61 :: quote :: label.2 ++ [quote]

/-- Labels with the brace that closes them. -/
def labelsText : List (Text × Text) → Text
  | [] => [125]
  | [label] => labelText label ++ [125]
  | label :: next :: labels => labelText label ++ 44 :: labelsText (next :: labels)

/-- The labels of a row, if it has any, with their braces. -/
def Row.labelSetText (row : Row) : Text :=
  if row.labels = [] then [] else 123 :: labelsText row.labels

/-- What follows the labels of a row. -/
def Row.pointText (row : Row) : Text := 32 :: row.value.text

def Row.text (row : Row) : Text := row.name ++ (row.labelSetText ++ row.pointText)

/-- A sample says what a row says; the exact value of a ratio is left open. -/
structure Sample.Agrees (s : Sample) (row : Row) : Prop where
  name : s.name = row.name
  labels : s.labels = row.labels
  value : ∀ z, row.value = .integer z → s.value = .number z
  timestamp : s.timestamp = none

/-- A name made of bytes of one kind and, after the first, of digits. -/
def isName (kind : UInt8 → Bool) : Text → Bool
  | [] => false
  | b :: rest => kind b && rest.all fun c => kind c || isDigit c

/-- A label value that reads as it stands. -/
structure Plain (value : Text) : Prop where
  no_quote : quote ∉ value
  no_backslash : backslash ∉ value
  no_newline : newline ∉ value
  utf8 : validUtf8 value = true

/-! ## Cutting at line feeds -/

/-- What stands before the first line feed. -/
def cut (t : Text) : Text := t.takeWhile (· ≠ newline)

@[simp] theorem cut_nil : cut [] = [] := rfl

@[simp] theorem cut_newline (t : Text) : cut (newline :: t) = [] := by simp [cut]

theorem cut_cons {b : UInt8} (h : b ≠ newline) (t : Text) : cut (b :: t) = b :: cut t := by
  simp [cut, h]

theorem cut_eq_cons {b c : UInt8} {t u : Text} (h : cut (b :: t) = c :: u) :
    c = b ∧ b ≠ newline ∧ u = cut t := by
  by_cases hb : b = newline
  · rw [hb, cut_newline] at h
    cases h
  · rw [cut_cons hb] at h
    cases h
    exact ⟨rfl, hb, rfl⟩

theorem cut_append {a : Text} (h : newline ∉ a) (t : Text) : cut (a ++ t) = a ++ cut t := by
  induction a with
  | nil => rfl
  | cons b a ih =>
      rw [List.mem_cons, not_or] at h
      rw [List.cons_append, cut_cons (Ne.symm h.1), ih h.2, List.cons_append]

/-! ## Names -/

theorem readName_append {kind : UInt8 → Bool} {name : Text} (hname : isName kind name = true)
    {rest : Text} (hrest : ∀ b ∈ rest.head?, kind b = false ∧ isDigit b = false) :
    readName kind (name ++ rest) = some (name, rest) := by
  cases name with
  | nil => cases hname
  | cons b name =>
      simp only [isName, Bool.and_eq_true, List.all_eq_true] at hname
      have hstop : rest.takeWhile (fun c => kind c || isDigit c) = [] ∧
          rest.dropWhile (fun c => kind c || isDigit c) = rest := by
        cases rest with
        | nil => exact ⟨rfl, rfl⟩
        | cons c rest =>
            obtain ⟨hkind, hdigit⟩ := hrest c rfl
            simp [hkind, hdigit]
      rw [List.cons_append, readName, if_pos hname.1,
        List.takeWhile_append_of_pos hname.2, List.dropWhile_append_of_pos hname.2, hstop.1,
        hstop.2, List.append_nil]

/-! ## Label values -/

/-- Up to the next quote or line feed no backslash follows. -/
def Guarded (tail : Text) : Prop :=
  ∃ lit more, tail = lit ++ more ∧ (∀ b ∈ lit, b ≠ quote ∧ b ≠ backslash) ∧
    ∀ b ∈ more.head?, b = quote ∨ b = newline

/-- A text without backslashes reads as what stands before its first quote. -/
theorem readQuoted_guarded {tail value rest : Text} (htail : Guarded tail)
    (h : readQuoted (cut tail) = some (value, rest)) : backslash ∉ value := by
  obtain ⟨lit, more, rfl, hlit, hmore⟩ := htail
  induction lit generalizing value with
  | nil =>
      cases more with
      | nil => cases h
      | cons b more =>
          rcases hmore b rfl with rfl | rfl
          · rw [List.nil_append, cut_cons (by decide), readQuoted_quote] at h
            cases h
            exact List.not_mem_nil
          · rw [List.nil_append, cut_newline] at h
            cases h
  | cons b lit ih =>
      obtain ⟨hquote, hback⟩ := hlit b List.mem_cons_self
      rcases readQuoted_inv h with
        ⟨ht, -⟩ | ⟨c, d, u, word, ht, -⟩ | ⟨c, u, word, ht, -, -, hword, rfl⟩
      · exact absurd (cut_eq_cons ht).1.symm hquote
      · exact absurd (cut_eq_cons ht).1.symm hback
      · obtain ⟨rfl, -, rfl⟩ := cut_eq_cons ht
        have hrest := ih hword fun b hb => hlit b (List.mem_cons_of_mem c hb)
        simp [hrest, Ne.symm hback]

/-- A value can only be longer than the text it was written as if that text ends in a
backslash, which escapes the closing quote; the value then ends in something else. -/
theorem readQuoted_long {tail : Text} (htail : Guarded tail) (written : Text) {value rest : Text}
    (h : readQuoted (cut (written ++ quote :: tail)) = some (value, rest))
    (hlong : written.length < value.length) :
    written.getLast? = some backslash ∧ value.getLast? ≠ some backslash := by
  -- a longer word in the rest of the text passes its last byte on
  have hextend : ∀ (front : Text) {back word : Text} {b : UInt8},
      back.length < word.length →
      back.getLast? = some backslash ∧ word.getLast? ≠ some backslash →
      (front ++ back).getLast? = some backslash ∧ (b :: word).getLast? ≠ some backslash := by
    rintro front back word b hlt ⟨hback, hword⟩
    have hne : word ≠ [] := by
      rintro rfl
      simp at hlt
    rw [List.getLast?_cons_of_ne_nil hne, List.getLast?_append, hback]
    exact ⟨rfl, hword⟩
  match written with
  | [] =>
      rw [List.nil_append, cut_cons (by decide), readQuoted_quote] at h
      cases h
      exact absurd hlong (by simp)
  | b :: written =>
      rcases readQuoted_inv h with ⟨-, rfl⟩ | ⟨c, d, u, word, ht, hd, hword, rfl⟩ |
        ⟨c, u, word, ht, -, -, hword, rfl⟩
      · exact absurd hlong (by simp)
      · obtain ⟨rfl, -, ht⟩ := cut_eq_cons ht
        match written with
        | [] =>
            obtain ⟨rfl, -, rfl⟩ := cut_eq_cons ht.symm
            have hfree := readQuoted_guarded htail hword
            cases hd
            refine ⟨rfl, fun hlast => ?_⟩
            rcases List.mem_cons.mp (List.mem_of_getLast? hlast) with hquote | hmem
            · exact absurd hquote (by decide)
            · exact hfree hmem
        | e :: written =>
            obtain ⟨rfl, -, rfl⟩ := cut_eq_cons ht.symm
            have hshorter : written.length < word.length := by
              simp only [List.length_cons] at hlong
              omega
            exact hextend [backslash, c] hshorter
              (readQuoted_long htail written hword hshorter)
      · obtain ⟨rfl, -, rfl⟩ := cut_eq_cons ht
        have hshorter : written.length < word.length := by
          simpa using hlong
        exact hextend [c] hshorter (readQuoted_long htail written hword hshorter)

/-- A label value in quotes reads as it stands if and only if it contains no byte that the
format would have escaped. -/
theorem readQuoted_iff {tail : Text} (htail : Guarded tail) (value rest : Text) :
    readQuoted (cut (value ++ quote :: tail)) = some (value, rest) ↔
      (quote ∉ value ∧ backslash ∉ value ∧ newline ∉ value) ∧ rest = cut tail := by
  induction value with
  | nil =>
      rw [List.nil_append, cut_cons (by decide), readQuoted_quote]
      simp [eq_comm]
  | cons b value ih =>
      constructor
      · intro h
        rcases readQuoted_inv h with ⟨-, hnil⟩ | ⟨c, d, u, word, ht, hd, hword, heq⟩ |
          ⟨c, u, word, ht, hquote, hback, hword, heq⟩
        · cases hnil
        · -- an escape that reads as a backslash shortens the text, and the value cannot catch up
          obtain ⟨rfl, -, ht⟩ := cut_eq_cons ht
          obtain ⟨rfl, rfl⟩ := List.cons.inj heq
          cases value with
          | nil =>
              obtain ⟨rfl, -, -⟩ := cut_eq_cons ht.symm
              exact absurd hd (by decide)
          | cons e value =>
              obtain ⟨rfl, -, rfl⟩ := cut_eq_cons ht.symm
              obtain ⟨hlast, hnot⟩ := readQuoted_long htail value hword (by simp)
              have hne : value ≠ [] := by
                rintro rfl
                cases hlast
              rw [List.getLast?_cons_of_ne_nil hne] at hnot
              exact absurd hlast hnot
        · obtain ⟨rfl, hnewline, rfl⟩ := cut_eq_cons ht
          obtain ⟨-, rfl⟩ := List.cons.inj heq
          obtain ⟨⟨hq, hb, hn⟩, hrest⟩ := ih.mp hword
          simp only [List.mem_cons, not_or]
          exact ⟨⟨⟨hquote.symm, hq⟩, ⟨hback.symm, hb⟩, ⟨hnewline.symm, hn⟩⟩, hrest⟩
      · rintro ⟨⟨hquote, hback, hnewline⟩, hrest⟩
        simp only [List.mem_cons, not_or] at hquote hback hnewline
        have htailread := ih.mpr ⟨⟨hquote.2, hback.2, hnewline.2⟩, hrest⟩
        rw [List.cons_append, cut_cons (Ne.symm hnewline.1),
          readQuoted_cons (Ne.symm hquote.1) (Ne.symm hback.1), htailread]
        rfl

theorem readLabelValue_iff {tail : Text} (htail : Guarded tail) (value rest : Text) :
    readLabelValue (cut (value ++ quote :: tail)) = some (value, rest) ↔
      Plain value ∧ rest = cut tail := by
  rw [readLabelValue, Option.filter_eq_some_iff, readQuoted_iff htail]
  constructor
  · rintro ⟨⟨⟨hquote, hback, hnewline⟩, hrest⟩, hutf8⟩
    exact ⟨⟨hquote, hback, hnewline, hutf8⟩, hrest⟩
  · rintro ⟨hplain, hrest⟩
    exact ⟨⟨⟨hplain.no_quote, hplain.no_backslash, hplain.no_newline⟩, hrest⟩, hplain.utf8⟩

/-! ## Labels -/

theorem expect_self (b : UInt8) (t : Text) : expect b (b :: t) = some t := if_pos rfl

theorem skipBlanks_cons {b : UInt8} (h : isBlank b = false) (t : Text) :
    skipBlanks (b :: t) = b :: t := by
  simp [skipBlanks, h]

/-- The bytes of a name are letters and digits, and those of its kind. -/
theorem bytes_of_isName {kind : UInt8 → Bool} {name : Text} (h : isName kind name = true) :
    ∀ b ∈ name, (kind b || isDigit b) = true := by
  cases name with
  | nil => cases h
  | cons c name =>
      simp only [isName, Bool.and_eq_true, List.all_eq_true] at h
      intro b hb
      rcases List.mem_cons.mp hb with rfl | hb
      · rw [h.1, Bool.true_or]
      · exact h.2 b hb

theorem notMem_of_isName {kind : UInt8 → Bool} {name : Text} (h : isName kind name = true)
    {b : UInt8} (hb : (kind b || isDigit b) = false) : b ∉ name := by
  intro hmem
  rw [bytes_of_isName h b hmem] at hb
  cases hb

theorem readLabel_iff {label : Text × Text} (hname : isName isLetter label.1 = true)
    {tail : Text} (htail : Guarded tail) (rest : Text) :
    readLabel (cut (labelText label ++ tail)) = some (label, rest) ↔
      Plain label.2 ∧ rest = cut tail := by
  have hcut : cut (labelText label ++ tail) =
      label.1 ++ 61 :: quote :: cut (label.2 ++ quote :: tail) := by
    rw [labelText, List.append_assoc, List.append_assoc,
      cut_append (notMem_of_isName hname (by decide)), List.cons_append, cut_cons (by decide),
      List.cons_append, cut_cons (by decide)]
    rfl
  have hread : readName isLetter (label.1 ++ 61 :: quote :: cut (label.2 ++ quote :: tail)) =
      some (label.1, 61 :: quote :: cut (label.2 ++ quote :: tail)) := by
    apply readName_append hname
    intro b hb
    cases hb
    decide
  rw [hcut, readLabel, hread, Option.bind_some, skipBlanks_cons (by decide), expect_self,
    Option.bind_some, skipBlanks_cons (by decide), expect_self, Option.bind_some,
    Option.map_eq_some_iff, ← readLabelValue_iff htail]
  constructor
  · rintro ⟨⟨value, rest⟩, hvalue, heq⟩
    obtain ⟨hlabel, rfl⟩ := Prod.mk.inj heq
    rw [hvalue, ← (Prod.ext_iff.mp hlabel).2]
  · intro hvalue
    exact ⟨(label.2, rest), hvalue, rfl⟩

theorem afterLabel_close {more : Text → Option (List (Text × Text) × Text)}
    (label : Text × Text) (t : Text) :
    afterLabel more label (125 :: t) = some ([label], t) := by
  rw [afterLabel, skipBlanks_cons (by decide), expect_self]

theorem afterLabel_comma {more : Text → Option (List (Text × Text) × Text)}
    (label : Text × Text) (t : Text) : afterLabel more label (44 :: t) =
      (more t).map fun labels => (label :: labels.1, labels.2) := by
  rw [afterLabel, skipBlanks_cons (by decide), expect_self, expect, if_neg (by decide),
    Option.bind_some]

theorem head_of_afterLabel {more : Text → Option (List (Text × Text) × Text)}
    {label first : Text × Text} {labels : List (Text × Text)} {t rest : Text}
    (h : afterLabel more label t = some (first :: labels, rest)) : label = first := by
  unfold afterLabel at h
  cases hclose : expect 125 (skipBlanks t) with
  | some u =>
      rw [hclose] at h
      cases h
      rfl
  | none =>
      simp only [hclose] at h
      rw [Option.bind_eq_some_iff] at h
      obtain ⟨u, -, h⟩ := h
      rw [Option.map_eq_some_iff] at h
      obtain ⟨⟨words, v⟩, -, heq⟩ := h
      cases heq
      rfl

/-- Reading labels begins with the first one that was written. -/
theorem readLabels_cons_iff {label : Text × Text} (hname : isName isLetter label.1 = true)
    {tail : Text} (htail : Guarded tail) (fuel : ℕ) (labels : List (Text × Text)) (rest : Text) :
    readLabels (fuel + 1) (cut (labelText label ++ tail)) = some (label :: labels, rest) ↔
      Plain label.2 ∧
        afterLabel (readLabels fuel) label (cut tail) = some (label :: labels, rest) := by
  obtain ⟨b, key, hkey⟩ : ∃ b key, label.1 = b :: key := by
    cases hlabel : label.1 with
    | nil =>
        rw [hlabel] at hname
        cases hname
    | cons b key => exact ⟨b, key, rfl⟩
  have hb : isLetter b = true := by
    rw [hkey, isName, Bool.and_eq_true] at hname
    exact hname.1
  have hne : ∀ c, isLetter c = false → b ≠ c := by
    rintro c hc rfl
    rw [hb] at hc
    cases hc
  have hstart : ∃ u, cut (labelText label ++ tail) = b :: u := by
    rw [labelText, hkey, List.cons_append, List.cons_append, List.cons_append,
      cut_cons (hne newline (by decide))]
    exact ⟨_, rfl⟩
  have hread := readLabel_iff hname htail
  obtain ⟨u, hu⟩ := hstart
  have hblank : isBlank b = false := by
    simp [isBlank, hne 32 (by decide), hne 9 (by decide)]
  rw [hu] at hread ⊢
  rw [readLabels, skipBlanks_cons hblank, expect, if_neg (hne 125 (by decide))]
  simp only
  rw [Option.bind_eq_some_iff]
  constructor
  · rintro ⟨⟨first, t⟩, hfirst, hafter⟩
    obtain rfl := head_of_afterLabel hafter
    obtain ⟨hplain, rfl⟩ := (hread t).mp hfirst
    exact ⟨hplain, hafter⟩
  · rintro ⟨hplain, hafter⟩
    exact ⟨(label, cut tail), (hread _).mpr ⟨hplain, rfl⟩, hafter⟩

theorem guarded_comma (labels : List (Text × Text)) (label : Text × Text)
    (hname : isName isLetter label.1 = true) (tail : Text) :
    Guarded (44 :: labelsText (label :: labels) ++ tail) := by
  have hlit : ∀ b ∈ (44 :: label.1 ++ [61] : Text), b ≠ quote ∧ b ≠ backslash := by
    intro b hb
    simp only [List.cons_append, List.mem_cons, List.mem_append, List.not_mem_nil, or_false] at hb
    rcases hb with rfl | hb | rfl
    · decide
    · constructor
      · rintro rfl
        exact notMem_of_isName hname (by decide) hb
      · rintro rfl
        exact notMem_of_isName hname (by decide) hb
    · decide
  cases labels with
  | nil =>
      refine ⟨44 :: label.1 ++ [61], quote :: (label.2 ++ [quote] ++ [125] ++ tail), ?_, hlit, ?_⟩
      · simp [labelsText, labelText]
      · simp
  | cons next labels =>
      refine ⟨44 :: label.1 ++ [61], quote :: (label.2 ++ [quote] ++
        44 :: labelsText (next :: labels) ++ tail), ?_, hlit, ?_⟩
      · simp [labelsText, labelText]
      · simp

/-- Labels read as they stand if and only if each of their values does. -/
theorem readLabels_iff {labels : List (Text × Text)}
    (hnames : ∀ label ∈ labels, isName isLetter label.1 = true) {tail : Text}
    (htail : Guarded (125 :: tail)) {fuel : ℕ} (hfuel : labels.length < fuel) (rest : Text) :
    readLabels fuel (cut (labelsText labels ++ tail)) = some (labels, rest) ↔
      (∀ label ∈ labels, Plain label.2) ∧ rest = cut tail := by
  induction labels generalizing fuel with
  | nil =>
      obtain ⟨fuel, rfl⟩ := Nat.exists_eq_succ_of_ne_zero (Nat.ne_of_gt hfuel)
      rw [labelsText, List.cons_append, List.nil_append, cut_cons (by decide), readLabels,
        skipBlanks_cons (by decide), expect_self]
      simp [eq_comm]
  | cons label labels ih =>
      obtain ⟨fuel, rfl⟩ := Nat.exists_eq_succ_of_ne_zero (Nat.ne_of_gt (Nat.zero_lt_of_lt hfuel))
      have hname := hnames label List.mem_cons_self
      cases labels with
      | nil =>
          have hsplit : labelsText [label] ++ tail = labelText label ++ 125 :: tail := by
            simp [labelsText]
          rw [hsplit, readLabels_cons_iff hname htail, cut_cons (by decide), afterLabel_close]
          simp [eq_comm]
      | cons next labels =>
          have hsplit : labelsText (label :: next :: labels) ++ tail =
              labelText label ++ (44 :: labelsText (next :: labels) ++ tail) := by
            simp [labelsText]
          have hnext := ih (fun l hl => hnames l (List.mem_cons_of_mem label hl))
            (Nat.lt_of_succ_lt_succ hfuel)
          have hguard := guarded_comma labels next
            (hnames next (List.mem_cons_of_mem label List.mem_cons_self)) tail
          rw [hsplit, readLabels_cons_iff hname hguard, List.cons_append, cut_cons (by decide),
            afterLabel_comma, Option.map_eq_some_iff, List.forall_mem_cons, and_assoc]
          refine and_congr_right fun _ => ?_
          rw [← hnext]
          constructor
          · rintro ⟨⟨words, t⟩, hread, heq⟩
            cases heq
            exact hread
          · intro hread
            exact ⟨(next :: labels, rest), hread, rfl⟩

/-! ## Numbers -/

theorem takeWhile_digits {ds : Text} (hds : ∀ b ∈ ds, isDigit b = true) {t : Text}
    (ht : ∀ b ∈ t.head?, isDigit b = false) :
    (ds ++ t).takeWhile isDigit = ds ∧ (ds ++ t).dropWhile isDigit = t := by
  rw [List.takeWhile_append_of_pos hds, List.dropWhile_append_of_pos hds]
  cases t with
  | nil => simp
  | cons b t => simp [ht b rfl]

theorem readSign_digits {ds : Text} (hds : ∀ b ∈ ds, isDigit b = true) (hne : ds ≠ [])
    (negative : Bool) (t : Text) :
    readSign ((if negative then [45] else []) ++ (ds ++ t)) = (negative, ds ++ t) := by
  cases negative with
  | true => rfl
  | false =>
      cases ds with
      | nil => exact absurd rfl hne
      | cons b ds =>
          have hb := hds b List.mem_cons_self
          have hminus : b ≠ 45 := by
            rintro rfl
            exact absurd hb (by decide)
          have hplus : b ≠ 43 := by
            rintro rfl
            exact absurd hb (by decide)
          simp [readSign, hminus, hplus]

/-- A sign, digits and what reads as a fraction make a number. -/
theorem readNumber_digits {ds fraction t : Text} (hds : ∀ b ∈ ds, isDigit b = true)
    (hne : ds ≠ []) (ht : ∀ b ∈ t.head?, isDigit b = false)
    (hfraction : readFraction t = (fraction, [])) (negative : Bool) :
    readNumber ((if negative then [45] else []) ++ (ds ++ t)) =
      some (signed negative (digitsValue (ds ++ fraction) * 10 ^ (0 - (fraction.length : ℤ)))) := by
  obtain ⟨htake, hdrop⟩ := takeWhile_digits hds ht
  simp only [readNumber, readSign_digits hds hne, htake, hdrop, hfraction, hne, false_and,
    if_false, readExponent, Option.map_some]

theorem readNumber_decimal (z : ℤ) : readNumber (decimal z) = some (z : ℚ) := by
  have hread := readNumber_digits (t := []) (natural_isDigit z.natAbs) (natural_ne_nil _)
    (by simp) rfl (decide (z < 0))
  simp only [List.append_nil, List.length_nil, Nat.cast_zero, sub_zero, zpow_zero, mul_one,
    digitsValue_natural] at hread
  have htext : decimal z = (if decide (z < 0) then [45] else []) ++ natural z.natAbs := by
    unfold decimal
    split <;> simp [*]
  rw [htext, hread, signed, Option.some.injEq]
  by_cases hz : z < 0
  · have hcast : (z.natAbs : ℚ) = -z := by
      rw [Nat.cast_natAbs, abs_of_neg hz, Int.cast_neg]
    simp [hz, hcast]
  · have hcast : (z.natAbs : ℚ) = z := by
      rw [Nat.cast_natAbs, abs_of_nonneg (not_lt.mp hz)]
    simp [hz, hcast]

theorem readNumber_fixed4 (q : ℚ) : (readNumber (fixed4 q)).isSome = true := by
  have hdigits : ∀ b ∈ [1000, 100, 10, 1].map fun unit =>
      digit ((roundEven (|q| * 10000)).natAbs / unit % 10), isDigit b = true := by
    intro b hb
    obtain ⟨unit, -, rfl⟩ := List.mem_map.mp hb
    exact isDigit_digit (Nat.mod_lt _ (by norm_num))
  have hfraction : readFraction (46 :: [1000, 100, 10, 1].map fun unit =>
      digit ((roundEven (|q| * 10000)).natAbs / unit % 10)) =
      ([1000, 100, 10, 1].map fun unit =>
        digit ((roundEven (|q| * 10000)).natAbs / unit % 10), []) := by
    obtain ⟨htake, hdrop⟩ := takeWhile_digits (t := []) hdigits (by simp)
    rw [List.append_nil] at htake hdrop
    rw [readFraction, if_pos rfl, htake, hdrop]
  have hread := readNumber_digits (natural_isDigit ((roundEven (|q| * 10000)).natAbs / 10000))
    (natural_ne_nil _) (by simp; decide) hfraction (decide (q < 0))
  have htext : fixed4 q = (if decide (q < 0) then [45] else []) ++
      (natural ((roundEven (|q| * 10000)).natAbs / 10000) ++ 46 ::
        [1000, 100, 10, 1].map fun unit =>
          digit ((roundEven (|q| * 10000)).natAbs / unit % 10)) := by
    simp [fixed4]
  rw [htext, hread]
  rfl

/-- A written number consists of digits, signs and points. -/
theorem Quantity.text_bytes (v : Quantity) :
    ∀ b ∈ v.text, isDigit b = true ∨ b = 45 ∨ b = 46 := by
  cases v with
  | integer z =>
      intro b hb
      simp only [Quantity.text, decimal] at hb
      split at hb
      · rcases List.mem_cons.mp hb with rfl | hb
        · exact Or.inr (Or.inl rfl)
        · exact Or.inl (natural_isDigit _ b hb)
      · exact Or.inl (natural_isDigit _ b hb)
  | ratio q =>
      intro b hb
      simp only [Quantity.text, fixed4, List.mem_append, List.mem_cons, List.mem_map] at hb
      rcases hb with (hb | hb) | rfl | ⟨unit, -, rfl⟩
      · split at hb
        · exact Or.inr (Or.inl (List.mem_singleton.mp hb))
        · cases hb
      · exact Or.inl (natural_isDigit _ b hb)
      · exact Or.inr (Or.inr rfl)
      · exact Or.inl (isDigit_digit (Nat.mod_lt _ (by norm_num)))

theorem Quantity.notMem_text (v : Quantity) {b : UInt8} (hdigit : isDigit b = false)
    (hminus : b ≠ 45) (hpoint : b ≠ 46) : b ∉ v.text := by
  intro hb
  rcases v.text_bytes b hb with h | h | h
  · rw [hdigit] at h
    cases h
  · exact hminus h
  · exact hpoint h

theorem readValue_text (v : Quantity) :
    ∃ value, readValue v.text = some value ∧ ∀ z, v = .integer z → value = .number z := by
  have hword : ∀ {word : Text} (b : UInt8), b ∈ word → isDigit b = false → b ≠ 45 → b ≠ 46 →
      v.text ≠ word := by
    rintro word b hb hdigit hminus hpoint rfl
    exact v.notMem_text hdigit hminus hpoint hb
  have hnan : v.text ≠ bytesOf "NaN" := hword 78 (by decide) (by decide) (by decide) (by decide)
  have hinf : v.text ≠ bytesOf "Inf" := hword 73 (by decide) (by decide) (by decide) (by decide)
  have hplus : v.text ≠ bytesOf "+Inf" :=
    hword 73 (by decide) (by decide) (by decide) (by decide)
  have hminus : v.text ≠ bytesOf "-Inf" :=
    hword 73 (by decide) (by decide) (by decide) (by decide)
  rw [readValue, if_neg hnan, if_neg (not_or.mpr ⟨hinf, hplus⟩), if_neg hminus]
  cases v with
  | integer z =>
      refine ⟨.number z, ?_, ?_⟩
      · rw [Quantity.text, readNumber_decimal, Option.map_some]
      · intro w hw
        cases hw
        rfl
  | ratio q =>
      obtain ⟨r, hr⟩ := Option.isSome_iff_exists.mp (readNumber_fixed4 q)
      refine ⟨.number r, ?_, ?_⟩
      · rw [Quantity.text, hr, Option.map_some]
      · intro w hw
        cases hw

/-! ## Rows -/

theorem readWord_append {word : Text} (h : word.all (!isBlank ·) = true) {rest : Text}
    (hrest : ∀ b ∈ rest.head?, isBlank b = true) : readWord (word ++ rest) = (word, rest) := by
  have hall : ∀ b ∈ word, (!isBlank b) = true := List.all_eq_true.mp h
  rw [readWord, List.takeWhile_append_of_pos hall, List.dropWhile_append_of_pos hall]
  cases rest with
  | nil => rw [List.takeWhile_nil, List.dropWhile_nil, List.append_nil]
  | cons b rest =>
      have hb : isBlank b = true := hrest b rfl
      rw [List.takeWhile_cons_of_neg (by simp [hb]), List.dropWhile_cons_of_neg (by simp [hb]),
        List.append_nil]

theorem Row.cut_pointText (row : Row) (more : Text) :
    cut (row.pointText ++ newline :: more) = row.pointText := by
  have hfree : newline ∉ row.pointText := by
    rw [Row.pointText, List.mem_cons, not_or]
    exact ⟨by decide, row.value.notMem_text (by decide) (by decide) (by decide)⟩
  rw [cut_append hfree, cut_newline, List.append_nil]

theorem Row.guarded_pointText (row : Row) (more : Text) :
    Guarded (125 :: (row.pointText ++ newline :: more)) := by
  refine ⟨125 :: row.pointText, newline :: more, rfl, ?_, by simp⟩
  intro b hb
  rw [Row.pointText, List.mem_cons, List.mem_cons] at hb
  rcases hb with rfl | rfl | hb
  · decide
  · decide
  · constructor
    · rintro rfl
      exact row.value.notMem_text (by decide) (by decide) (by decide) hb
    · rintro rfl
      exact row.value.notMem_text (by decide) (by decide) (by decide) hb

theorem readPoint_pointText (row : Row) :
    ∃ value, readPoint row.pointText = some (value, none) ∧
      ∀ z, row.value = .integer z → value = .number z := by
  obtain ⟨value, hvalue, hexact⟩ := readValue_text row.value
  have hblank : ∀ b ∈ row.value.text, isBlank b = false := by
    intro b hb
    by_contra hnot
    simp only [isBlank, Bool.or_eq_false_iff, decide_eq_false_iff_not, not_and_or, not_not] at hnot
    rcases hnot with rfl | rfl
    · exact row.value.notMem_text (by decide) (by decide) (by decide) hb
    · exact row.value.notMem_text (by decide) (by decide) (by decide) hb
  have hskip : skipBlanks row.pointText = row.value.text := by
    have hself : skipBlanks row.value.text = row.value.text := by
      cases htext : row.value.text with
      | nil => rfl
      | cons b t => exact skipBlanks_cons (hblank b (htext ▸ List.mem_cons_self)) t
    rw [Row.pointText, skipBlanks, List.dropWhile_cons_of_pos (by decide)]
    exact hself
  have hword : readWord row.value.text = (row.value.text, []) := by
    have hall : row.value.text.all (!isBlank ·) = true := by
      rw [List.all_eq_true]
      intro b hb
      rw [hblank b hb]
      rfl
    have hread := readWord_append hall (by simp : ∀ b ∈ ([] : Text).head?, isBlank b = true)
    rwa [List.append_nil] at hread
  refine ⟨value, ?_, hexact⟩
  rw [readPoint, hskip, hword, hvalue, Option.bind_some]
  rfl

/-- More fuel does not change what is read. -/
theorem readLabels_mono {fuel fuel' : ℕ} (hle : fuel ≤ fuel') {t : Text}
    {read : List (Text × Text) × Text} (h : readLabels fuel t = some read) :
    readLabels fuel' t = some read := by
  induction fuel generalizing fuel' t read with
  | zero => cases h
  | succ fuel ih =>
      obtain ⟨fuel', rfl⟩ := Nat.exists_eq_succ_of_ne_zero (by omega : fuel' ≠ 0)
      rw [readLabels] at h ⊢
      cases hclose : expect 125 (skipBlanks t) with
      | some u => rwa [hclose] at h
      | none =>
          simp only [hclose] at h ⊢
          rw [Option.bind_eq_some_iff] at h ⊢
          obtain ⟨label, hlabel, hafter⟩ := h
          refine ⟨label, hlabel, ?_⟩
          unfold afterLabel at hafter ⊢
          cases hend : expect 125 (skipBlanks label.2) with
          | some u => rwa [hend] at hafter
          | none =>
              simp only [hend] at hafter ⊢
              rw [Option.bind_eq_some_iff] at hafter ⊢
              obtain ⟨u, hu, hafter⟩ := hafter
              rw [Option.map_eq_some_iff] at hafter
              obtain ⟨labels, hlabels, heq⟩ := hafter
              exact ⟨u, hu, by rw [ih (by omega) hlabels, Option.map_some, heq]⟩

/-- Plain labels are written on one line, which is longer than their number. -/
theorem labelsText_plain {labels : List (Text × Text)}
    (hnames : ∀ label ∈ labels, isName isLetter label.1 = true)
    (hplain : ∀ label ∈ labels, Plain label.2) :
    newline ∉ labelsText labels ∧ labels.length ≤ (labelsText labels).length := by
  induction labels with
  | nil => exact ⟨by decide, Nat.zero_le _⟩
  | cons label labels ih =>
      have hkey := notMem_of_isName (hnames label List.mem_cons_self) (b := newline) (by decide)
      have hvalue := (hplain label List.mem_cons_self).no_newline
      have hlabel : newline ∉ labelText label := by
        simp only [labelText, List.mem_append, List.mem_cons, List.not_mem_nil, or_false, not_or]
        exact ⟨⟨hkey, by decide, by decide, hvalue⟩, by decide⟩
      have hrest := ih (fun l hl => hnames l (List.mem_cons_of_mem label hl))
        fun l hl => hplain l (List.mem_cons_of_mem label hl)
      cases labels with
      | nil =>
          rw [labelsText, List.mem_append, not_or]
          exact ⟨⟨hlabel, by decide⟩, by simp⟩
      | cons next labels =>
          rw [labelsText, List.mem_append, List.mem_cons, not_or, not_or]
          refine ⟨⟨hlabel, by decide, hrest.1⟩, ?_⟩
          have hlength := hrest.2
          simp only [List.length_append, List.length_cons] at hlength ⊢
          omega

/-- The labels of a row read as they stand if and only if each of their values does. -/
theorem readLabelSet_iff (row : Row)
    (hnames : ∀ label ∈ row.labels, isName isLetter label.1 = true) (more rest : Text) :
    readLabelSet (cut (row.labelSetText ++ (row.pointText ++ newline :: more))) =
        some (row.labels, rest) ↔
      (∀ label ∈ row.labels, Plain label.2) ∧ rest = row.pointText := by
  have hpoint := row.cut_pointText more
  unfold Row.labelSetText
  by_cases hnil : row.labels = []
  · have hopen : expect 123 (skipBlanks row.pointText) = none := by
      have hfree : (123 : UInt8) ∉ row.pointText := by
        rw [Row.pointText, List.mem_cons, not_or]
        exact ⟨by decide, row.value.notMem_text (by decide) (by decide) (by decide)⟩
      cases hskip : skipBlanks row.pointText with
      | nil => rfl
      | cons b t =>
          have hmem : b ∈ row.pointText := by
            apply List.dropWhile_subset isBlank
            rw [show row.pointText.dropWhile isBlank = b :: t from hskip]
            exact List.mem_cons_self
          rw [expect, if_neg]
          rintro rfl
          exact hfree hmem
    rw [if_pos hnil, List.nil_append, hpoint, readLabelSet, hopen]
    simp [hnil, eq_comm]
  · have hguard := row.guarded_pointText more
    rw [if_neg hnil, List.cons_append, cut_cons (by decide), readLabelSet,
      skipBlanks_cons (by decide), expect_self]
    simp only
    generalize hline : cut (labelsText row.labels ++ (row.pointText ++ newline :: more)) = line
    have hlabels : ∀ fuel, row.labels.length < fuel →
        (readLabels fuel line = some (row.labels, rest) ↔
          (∀ label ∈ row.labels, Plain label.2) ∧ rest = row.pointText) := by
      intro fuel hfuel
      rw [← hline, readLabels_iff hnames hguard hfuel, hpoint]
    constructor
    · intro h
      exact (hlabels (row.labels.length + 1 + (line.length + 1)) (by omega)).mp
        (readLabels_mono (by omega) h)
    · rintro ⟨hplain, hrest⟩
      obtain ⟨hfree, hlength⟩ := labelsText_plain hnames hplain
      refine (hlabels (line.length + 1) ?_).mpr ⟨hplain, hrest⟩
      rw [← hline, cut_append hfree, List.length_append]
      omega

/-- A row is read as what it says if and only if its label values read as they stand. -/
theorem Row.reads_iff (row : Row) (hname : isName isMetricByte row.name = true)
    (hnames : ∀ label ∈ row.labels, isName isLetter label.1 = true) (more : Text) :
    (∃ s, readSample (cut (row.text ++ newline :: more)) = some s ∧ s.Agrees row) ↔
      ∀ label ∈ row.labels, Plain label.2 := by
  have hfree : newline ∉ row.name := notMem_of_isName hname (by decide)
  have hcut : cut (row.text ++ newline :: more) =
      row.name ++ cut (row.labelSetText ++ (row.pointText ++ newline :: more)) := by
    rw [Row.text, List.append_assoc, List.append_assoc, cut_append hfree]
  have hread : readName isMetricByte (cut (row.text ++ newline :: more)) =
      some (row.name, cut (row.labelSetText ++ (row.pointText ++ newline :: more))) := by
    rw [hcut]
    apply readName_append hname
    unfold Row.labelSetText Row.pointText
    intro b hb
    split at hb
    · rw [List.nil_append, List.cons_append, cut_cons (by decide)] at hb
      cases hb
      decide
    · rw [List.cons_append, cut_cons (by decide)] at hb
      cases hb
      decide
  obtain ⟨value, hpoint, hexact⟩ := readPoint_pointText row
  have hlabels := readLabelSet_iff row hnames more
  rw [readSample, hread, Option.bind_some]
  constructor
  · rintro ⟨s, hs, hagrees⟩
    rw [Option.bind_eq_some_iff] at hs
    obtain ⟨⟨labels, t⟩, hset, hs⟩ := hs
    rw [Option.map_eq_some_iff] at hs
    obtain ⟨point, -, rfl⟩ := hs
    have hsame : labels = row.labels := hagrees.labels
    rw [hsame] at hset
    exact ((hlabels t).mp hset).1
  · intro hplain
    have hset := (hlabels row.pointText).mpr ⟨hplain, rfl⟩
    refine ⟨⟨row.name, row.labels, value, none⟩, ?_, ⟨rfl, rfl, hexact, rfl⟩⟩
    rw [hset, Option.bind_some]
    simp only [hpoint, Option.map_some]

end Exposition
