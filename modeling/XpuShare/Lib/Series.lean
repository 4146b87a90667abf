import Mathlib.Data.Nat.Digits.Lemmas
import XpuShare.Lib.Pages

/-! # Series of samples

A page made of families: which samples it consists of, which label values it contains, and how
many bytes it takes. -/

namespace Exposition

open Printf

/-! ## Label values that need no escaping -/

/-- The printable ASCII characters except the quote and the backslash. -/
def isPlainByte (b : UInt8) : Bool := 32 ≤ b && b < 127 && b != quote && b != backslash

theorem utf8EncodeChar_ofNat {b : UInt8} (h : b < 128) :
    String.utf8EncodeChar (Char.ofNat b.toNat) = [b] := by
  have hcheck : ∀ n < 128, String.utf8EncodeChar (Char.ofNat n) = [UInt8.ofNat n] := by decide
  have hb := hcheck b.toNat (UInt8.lt_iff_toNat_lt.mp h)
  rwa [UInt8.ofNat_toNat] at hb

theorem validUtf8_of_ascii {t : Text} (h : ∀ b ∈ t, b < 128) : validUtf8 t = true := by
  rw [validUtf8, ByteArray.validateUTF8_eq_true_iff]
  refine ByteArray.IsValidUTF8.intro (t.map fun b => Char.ofNat b.toNat) ?_
  have hbytes : (t.map fun b => Char.ofNat b.toNat).flatMap String.utf8EncodeChar = t := by
    induction t with
    | nil => rfl
    | cons b t ih =>
        have hrest := ih fun c hc => h c (List.mem_cons_of_mem b hc)
        rw [List.map_cons, List.flatMap_cons, utf8EncodeChar_ofNat (h b List.mem_cons_self),
          hrest, List.singleton_append]
  rw [List.utf8Encode, hbytes]
  exact ByteArray.ext List.data_toByteArray.symm

theorem plain_of_bytes {t : Text} (h : ∀ b ∈ t, isPlainByte b = true) : Plain t := by
  have hne : ∀ c, isPlainByte c = false → c ∉ t := by
    intro c hc hmem
    rw [h c hmem] at hc
    cases hc
  refine ⟨hne quote (by decide), hne backslash (by decide), hne newline (by decide), ?_⟩
  apply validUtf8_of_ascii
  intro b hb
  have hplain := h b hb
  simp only [isPlainByte, Bool.and_eq_true, decide_eq_true_eq] at hplain
  exact UInt8.lt_trans hplain.1.1.2 (by decide)

theorem isPlainByte_of_isDigit {b : UInt8} (h : isDigit b = true) : isPlainByte b = true := by
  simp only [isDigit, Bool.and_eq_true, decide_eq_true_eq, UInt8.le_iff_toNat_le,
    UInt8.reduceToNat] at h
  simp only [isPlainByte, quote, backslash, Bool.and_eq_true, decide_eq_true_eq, bne_iff_ne,
    ne_eq, UInt8.le_iff_toNat_le, UInt8.lt_iff_toNat_lt, ← UInt8.toNat_inj, UInt8.reduceToNat]
  omega

theorem natural_plain (n : ℕ) : ∀ b ∈ natural n, isPlainByte b = true :=
  fun b hb => isPlainByte_of_isDigit (natural_isDigit n b hb)

theorem decimal_plain (z : ℤ) : Plain (decimal z) := by
  apply plain_of_bytes
  intro b hb
  unfold decimal at hb
  split at hb
  · rcases List.mem_cons.mp hb with rfl | hb
    · decide
    · exact natural_plain _ b hb
  · exact natural_plain _ b hb

theorem hex16_plain (n : UInt64) : Plain (hex16 n) := by
  apply plain_of_bytes
  intro b hb
  obtain ⟨i, -, rfl⟩ := List.mem_map.mp hb
  have hcheck : ∀ d < 16, isPlainByte (hexDigit d) = true := by decide
  exact hcheck _ (Nat.mod_lt _ (by decide))

/-! ## Lengths -/

/-- The number of decimal digits of a number. -/
def digitCount (n : ℕ) : ℕ := Nat.log 10 n + 1

theorem natural_length (n : ℕ) : (natural n).length = digitCount n := by
  unfold natural digitCount
  split
  · rename_i hzero
    rw [hzero, Nat.log_zero_right]
    rfl
  · rename_i hpos
    rw [List.length_map, List.length_reverse, Nat.length_digits 10 n (by decide) hpos]

/-- The number of characters of a decimal, with its sign. -/
def decimalWidth (z : ℤ) : ℕ := (if z < 0 then 1 else 0) + digitCount z.natAbs

theorem decimal_length (z : ℤ) : (decimal z).length = decimalWidth z := by
  unfold decimal decimalWidth
  split
  · rw [List.length_cons, natural_length, add_comm]
  · rw [natural_length, zero_add]

/-- The number of bytes of a quantity; a ratio has a point and four places after it. -/
def Quantity.width : Quantity → ℕ
  | .integer z => decimalWidth z
  | .ratio q => (if q < 0 then 1 else 0) +
      digitCount ((roundEven (|q| * 10000)).natAbs / 10000) + 5

theorem Quantity.width_integer (z : ℤ) : (Quantity.integer z).width = decimalWidth z := rfl

theorem Quantity.text_length (v : Quantity) : v.text.length = v.width := by
  cases v with
  | integer z => exact decimal_length z
  | ratio q =>
      rw [Quantity.text, fixed4, List.length_append, List.length_append, natural_length,
        Quantity.width]
      split <;> rfl

/-- The number of bytes of a label and of the comma or the brace after it. -/
def labelWidth (label : Text × Text) : ℕ := label.1.length + label.2.length + 4

theorem labelText_length (label : Text × Text) :
    (labelText label).length + 1 = labelWidth label := by
  rw [labelText, labelWidth, List.length_append, List.length_append, List.length_cons,
    List.length_cons, List.length_singleton]
  omega

theorem labelsText_length {labels : List (Text × Text)} (h : labels ≠ []) :
    (labelsText labels).length = (labels.map labelWidth).sum := by
  induction labels with
  | nil => exact absurd rfl h
  | cons label labels ih =>
      rw [List.map_cons, List.sum_cons, ← labelText_length]
      cases labels with
      | nil => rw [labelsText, List.length_append]; rfl
      | cons next labels =>
          rw [labelsText, List.length_append, List.length_cons, ih (List.cons_ne_nil _ _)]
          omega

/-- The number of bytes of a line, with the line feed at its end. -/
def Row.width (row : Row) : ℕ :=
  row.name.length + (if row.labels = [] then 0 else (row.labels.map labelWidth).sum + 1) +
    row.value.width + 2

theorem Row.text_length (row : Row) : row.text.length + 1 = row.width := by
  rw [Row.text, Row.pointText, List.length_append, List.length_append, List.length_cons,
    row.value.text_length, Row.width, Row.labelSetText]
  split
  · rw [List.length_nil]
    omega
  · rename_i hne
    rw [List.length_cons, labelsText_length hne]
    omega

/-! ## Families of samples -/

/-- The bytes of a literal are counted by its characters. -/
theorem length_bytesOf_ofList (l : List Char) : (bytesOf (String.ofList l)).length = l.length := by
  rw [bytesOf, String.toList_ofList, List.length_map]

/-- The number of bytes of the two comments that announce a metric. -/
def Family.headerWidth {α : Type} (f : Family α) : ℕ :=
  2 * (bytesOf f.name).length + (bytesOf f.help).length + (bytesOf f.kind).length + 18

theorem Family.header_length {α : Type} (f : Family α) : f.header.length = f.headerWidth := by
  have hhelp : (bytesOf "# HELP ").length = 7 := by decide
  have htype : (bytesOf "# TYPE ").length = 7 := by decide
  simp only [header, helpText, typeText, headerWidth, List.length_append, List.length_cons,
    List.length_nil, hhelp, htype]
  omega

theorem Family.headerWidth_ofList {α : Type} {f : Family α} {name help kind : List Char}
    (hname : f.name = String.ofList name) (hhelp : f.help = String.ofList help)
    (hkind : f.kind = String.ofList kind) :
    f.headerWidth = 2 * name.length + help.length + kind.length + 18 := by
  rw [headerWidth, hname, hhelp, hkind, length_bytesOf_ofList, length_bytesOf_ofList,
    length_bytesOf_ofList]

theorem Family.line_length {α : Type} (f : Family α) (a : α) :
    (f.line a).length = (f.row a).width := by
  rw [line, List.length_append, List.length_singleton, Row.text_length]

theorem Family.row_width {α : Type} (f : Family α) {a : α} (h : f.labels a ≠ []) :
    (f.row a).width =
      (bytesOf f.name).length + ((f.labels a).map labelWidth).sum + (f.value a).width + 3 := by
  have hne : (f.row a).labels ≠ [] := h
  rw [Row.width, if_neg hne]
  simp only [row]
  omega

theorem Family.row_width_of_nil {α : Type} (f : Family α) {a : α} (h : f.labels a = []) :
    (f.row a).width = (bytesOf f.name).length + (f.value a).width + 2 := by
  have hnil : (f.row a).labels = [] := h
  rw [Row.width, if_pos hnil]
  rfl

/-- A metric with the members it is written for. -/
structure Series where
  {α : Type}
  family : Family α
  members : List α

namespace Series

def lines (s : Series) : List Line := s.family.lines s.members

def rows (s : Series) : List Row := s.members.map s.family.row

def text (s : Series) : Text := pageText s.lines

/-- The number of bytes of a series. -/
def width (s : Series) : ℕ :=
  s.family.headerWidth + (s.members.map fun a => (s.family.row a).width).sum

/-- The label values of a series read as they stand. -/
def Plain (s : Series) : Prop :=
  ∀ a ∈ s.members, ∀ label ∈ s.family.labels a, Exposition.Plain label.2

theorem text_eq (s : Series) :
    s.text = s.family.header ++ (s.members.map s.family.line).flatten :=
  s.family.pageText_lines s.members

theorem text_length (s : Series) : s.text.length = s.width := by
  have hlines : (s.members.map s.family.line).map List.length =
      s.members.map fun a => (s.family.row a).width := by
    rw [List.map_map]
    exact List.map_congr_left fun a _ => s.family.line_length a
  rw [s.text_eq, List.length_append, s.family.header_length, List.length_flatten, hlines, width]

theorem width_nil {α : Type} (f : Family α) : (Series.mk f []).width = f.headerWidth := by
  rw [width, List.map_nil, List.sum_nil, Nat.add_zero]

theorem width_cons {α : Type} (f : Family α) (a : α) (xs : List α) :
    (Series.mk f (a :: xs)).width = (f.row a).width + (Series.mk f xs).width := by
  rw [width, width, List.map_cons, List.sum_cons]
  exact Nat.add_left_comm _ _ _

theorem plain_iff (s : Series) :
    (∀ row ∈ s.rows, ∀ label ∈ row.labels, Exposition.Plain label.2) ↔ s.Plain := by
  rw [rows, List.forall_mem_map]
  exact Iff.rfl

end Series

/-! ## Pages of series -/

/-- The lines of a page. -/
def seriesLines (page : List Series) : List Line := page.flatMap Series.lines

/-- The samples of a page, series by series. -/
def seriesRows (page : List Series) : List Row := page.flatMap Series.rows

/-- The number of bytes of a page. -/
def seriesWidth (page : List Series) : ℕ := (page.map Series.width).sum

theorem seriesWidth_nil : seriesWidth [] = 0 := rfl

theorem seriesWidth_cons (s : Series) (page : List Series) :
    seriesWidth (s :: page) = s.width + seriesWidth page := by
  rw [seriesWidth, List.map_cons, List.sum_cons, seriesWidth]

theorem seriesWidth_append (page rest : List Series) :
    seriesWidth (page ++ rest) = seriesWidth page + seriesWidth rest := by
  rw [seriesWidth, List.map_append, List.sum_append, seriesWidth, seriesWidth]

theorem pageText_seriesLines (page : List Series) :
    pageText (seriesLines page) = (page.map Series.text).flatten := by
  rw [pageText, seriesLines, List.flatMap_assoc, List.flatMap_def]
  rfl

theorem pageText_length (page : List Series) :
    (pageText (seriesLines page)).length = seriesWidth page := by
  rw [pageText_seriesLines, List.length_flatten, List.map_map, seriesWidth]
  exact congrArg List.sum (List.map_congr_left fun s _ => s.text_length)

theorem rows_seriesLines (page : List Series) : rows (seriesLines page) = seriesRows page := by
  rw [rows, seriesLines, List.filterMap_flatMap, seriesRows]
  exact congrArg List.flatten (List.map_congr_left fun s _ => s.family.rows_lines s.members)

theorem seriesLines_ok (page : List Series) : ∀ l ∈ seriesLines page, l.Ok := by
  intro l hl
  obtain ⟨s, -, hl⟩ := List.mem_flatMap.mp hl
  exact s.family.lines_ok s.members l hl

theorem endsInRow_append {l m : List Line} (hne : m ≠ []) (h : EndsInRow m) :
    EndsInRow (l ++ m) := by
  induction l with
  | nil => exact h
  | cons a l ih =>
      cases hrest : l ++ m with
      | nil => exact absurd (List.append_eq_nil_iff.mp hrest).2 hne
      | cons b rest =>
          rw [hrest] at ih
          rw [List.cons_append, hrest]
          exact ih

theorem endsInRow_rows {α : Type} (f : Family α) {xs : List α} (hne : xs ≠ []) :
    EndsInRow (xs.map fun a => Line.row (f.row a)) := by
  induction xs with
  | nil => exact absurd rfl hne
  | cons a xs ih =>
      cases xs with
      | nil => rfl
      | cons b xs => exact ih (List.cons_ne_nil b xs)

/-- A page whose last series has members ends in a row. -/
theorem endsInRow_seriesLines (page : List Series) {s : Series} (hne : s.members ≠ []) :
    EndsInRow (seriesLines (page ++ [s])) := by
  have hlines : seriesLines (page ++ [s]) = (seriesLines page ++
      [.comment s.family.helpText, .comment s.family.typeText]) ++
        s.members.map fun a => Line.row (s.family.row a) := by
    rw [seriesLines, List.flatMap_append, List.flatMap_singleton, List.append_assoc]
    rfl
  rw [hlines]
  exact endsInRow_append (by simpa using hne) (endsInRow_rows s.family hne)

/-- The beginning of a page is read as the samples of the page, each in its place, if and only
if it is the whole page and all label values read as they stand. -/
theorem series_reads_iff {page : List Series} (hends : EndsInRow (seriesLines page)) (n : ℕ) :
    (∃ samples, readPage ((pageText (seriesLines page)).take n) = some samples ∧
        List.Forall₂ Sample.Agrees samples (seriesRows page)) ↔
      seriesWidth page ≤ n ∧ ∀ s ∈ page, s.Plain := by
  rw [← rows_seriesLines, page_reads_iff (seriesLines_ok page) hends (List.take_prefix n _),
    List.take_eq_self_iff, pageText_length, rows_seriesLines, seriesRows, List.forall_mem_flatMap]
  exact and_congr_right fun _ => forall₂_congr fun s _ => s.plain_iff

end Exposition
