import XpuShare.Lib.Rendering

/-! # Pages written without escaping

A page that is written line by line, and perhaps cut off, is read back as what was written
exactly when nothing is missing and every label value reads as it stands. -/

namespace Exposition

open Printf

/-- A line to be written. -/
inductive Line where
  | comment (t : Text)
  | row (r : Row)

def Line.text : Line → Text
  | .comment t => t
  | .row r => r.text

def Line.row? : Line → Option Row
  | .comment _ => none
  | .row r => some r

/-- Comments are well formed, and rows are named by names. -/
def Line.Ok : Line → Prop
  | .comment t => newline ∉ t ∧ readLine t = some none
  | .row r => isName isMetricByte r.name = true ∧
      ∀ label ∈ r.labels, isName isLetter label.1 = true

def pageText (lines : List Line) : Text := lines.flatMap fun l => l.text ++ [newline]

def rows (lines : List Line) : List Row := lines.filterMap Line.row?

/-- The last line, if there is one, is a row. -/
def EndsInRow : List Line → Prop
  | [] => True
  | [l] => l.row?.isSome = true
  | _ :: next :: lines => EndsInRow (next :: lines)

/-! ## Reading a page line by line -/

theorem completeLines_line {line : Text} (h : newline ∉ line) (t : Text) :
    completeLines (line ++ newline :: t) = (completeLines t).map (line :: ·) := by
  induction line with
  | nil => rw [List.nil_append, completeLines, if_pos rfl]
  | cons b line ih =>
      rw [List.mem_cons, not_or] at h
      rw [List.cons_append, completeLines, if_neg (Ne.symm h.1), ih h.2]
      cases completeLines t <;> rfl

theorem completeLines_inv {t : Text} {lines : List Text} (h : completeLines t = some lines) :
    t = [] ∧ lines = [] ∨ ∃ line u rest, t = line ++ newline :: u ∧ newline ∉ line ∧
      completeLines u = some rest ∧ lines = line :: rest := by
  induction t generalizing lines with
  | nil =>
      cases h
      exact Or.inl ⟨rfl, rfl⟩
  | cons b t ih =>
      right
      rw [completeLines] at h
      by_cases hb : b = newline
      · rw [if_pos hb, Option.map_eq_some_iff] at h
        obtain ⟨rest, hrest, rfl⟩ := h
        exact ⟨[], t, rest, by rw [hb, List.nil_append], List.not_mem_nil, hrest, rfl⟩
      · rw [if_neg hb] at h
        cases hlines : completeLines t with
        | none => simp [hlines] at h
        | some found =>
            rcases ih hlines with ⟨-, rfl⟩ | ⟨line, u, rest, rfl, hline, hu, rfl⟩
            · simp [hlines] at h
            · simp only [hlines, Option.some.injEq] at h
              refine ⟨b :: line, u, rest, rfl, ?_, hu, h.symm⟩
              rw [List.mem_cons, not_or]
              exact ⟨Ne.symm hb, hline⟩

theorem readPage_line {line : Text} (h : newline ∉ line) (t : Text) :
    readPage (line ++ newline :: t) =
      (readLine line).bind fun e => (readPage t).map fun samples => e.toList ++ samples := by
  rw [readPage, completeLines_line h, readPage]
  cases completeLines t with
  | none => cases readLine line <;> rfl
  | some lines =>
      simp only [Option.map_some, Option.bind_some, List.mapM_cons]
      cases readLine line with
      | none => rfl
      | some e =>
          cases lines.mapM readLine with
          | none => rfl
          | some read => cases e <;> rfl

theorem readPage_inv {t : Text} {samples : List Sample} (h : readPage t = some samples) :
    t = [] ∧ samples = [] ∨ ∃ line u e rest, t = line ++ newline :: u ∧ newline ∉ line ∧
      readLine line = some e ∧ readPage u = some rest ∧ samples = e.toList ++ rest := by
  have hpage := h
  rw [readPage, Option.bind_eq_some_iff] at h
  obtain ⟨lines, hlines, h⟩ := h
  rcases completeLines_inv hlines with ⟨rfl, rfl⟩ | ⟨line, u, rest, rfl, hline, -, rfl⟩
  · cases h
    exact Or.inl ⟨rfl, rfl⟩
  · rw [readPage_line hline, Option.bind_eq_some_iff] at hpage
    obtain ⟨e, he, hpage⟩ := hpage
    rw [Option.map_eq_some_iff] at hpage
    obtain ⟨samples, hsamples, rfl⟩ := hpage
    exact Or.inr ⟨line, u, e, samples, rfl, hline, he, hsamples, rfl⟩

/-! ## Rows and comments of a page -/

/-- The line of a row is read as a sample or not at all. -/
theorem readLine_row {row : Row} (hname : isName isMetricByte row.name = true) (more : Text) :
    readLine (cut (row.text ++ newline :: more)) =
      (readSample (cut (row.text ++ newline :: more))).map some := by
  obtain ⟨b, rest, hb⟩ : ∃ b rest, row.name = b :: rest := by
    cases hrow : row.name with
    | nil =>
        rw [hrow] at hname
        cases hname
    | cons b rest => exact ⟨b, rest, rfl⟩
  have hletter : isMetricByte b = true := by
    rw [hb, isName, Bool.and_eq_true] at hname
    exact hname.1
  have hne : ∀ c, isMetricByte c = false → b ≠ c := by
    rintro c hc rfl
    rw [hletter] at hc
    cases hc
  have hblank : isBlank b = false := by
    simp [isBlank, hne 32 (by decide), hne 9 (by decide)]
  rw [Row.text, hb, List.cons_append, List.cons_append, cut_cons (hne newline (by decide)),
    readLine, skipBlanks_cons hblank]
  simp only
  rw [if_neg (hne 35 (by decide))]

/-- The first line of the rest of a page is the first line of the page. -/
theorem line_eq_cut {line u v t : Text} (hline : newline ∉ line)
    (h : line ++ newline :: u ++ v = t) : line = cut t := by
  rw [← h, List.append_assoc, cut_append hline, List.cons_append, cut_newline,
    List.append_nil]

theorem Row.newline_notMem_text {row : Row} (hname : isName isMetricByte row.name = true)
    (hnames : ∀ label ∈ row.labels, isName isLetter label.1 = true)
    (hplain : ∀ label ∈ row.labels, Plain label.2) : newline ∉ row.text := by
  have hfree : newline ∉ row.name := notMem_of_isName hname (by decide)
  have hlabels := (labelsText_plain hnames hplain).1
  have hvalue := row.value.notMem_text (b := newline) (by decide) (by decide) (by decide)
  rw [Row.text, Row.labelSetText, Row.pointText, List.mem_append, List.mem_append,
    List.mem_cons, not_or, not_or, not_or]
  refine ⟨hfree, ?_, by decide, hvalue⟩
  split
  · exact List.not_mem_nil
  · rw [List.mem_cons, not_or]
    exact ⟨by decide, hlabels⟩

theorem EndsInRow.tail {l : Line} {lines : List Line} (h : EndsInRow (l :: lines)) :
    EndsInRow lines := by
  cases lines with
  | nil => trivial
  | cons next lines => exact h

theorem EndsInRow.rows_ne_nil {l : Line} {lines : List Line} (h : EndsInRow (l :: lines)) :
    rows (l :: lines) ≠ [] := by
  induction lines generalizing l with
  | nil =>
      obtain ⟨r, hr⟩ := Option.isSome_iff_exists.mp h
      simp [rows, hr]
  | cons next lines ih =>
      have hrest := ih h
      intro hnil
      apply hrest
      rw [rows, List.filterMap_cons] at hnil
      split at hnil
      · exact hnil
      · cases hnil

theorem pageText_cons (l : Line) (lines : List Line) :
    pageText (l :: lines) = l.text ++ newline :: pageText lines := by
  rw [pageText, List.flatMap_cons, List.append_assoc]
  rfl

/-- A page whose label values read as they stand is read as its rows. -/
theorem readPage_pageText {lines : List Line} (hok : ∀ l ∈ lines, l.Ok)
    (hplain : ∀ row ∈ rows lines, ∀ label ∈ row.labels, Plain label.2) :
    ∃ samples, readPage (pageText lines) = some samples ∧
      List.Forall₂ Sample.Agrees samples (rows lines) := by
  induction lines with
  | nil => exact ⟨[], rfl, List.Forall₂.nil⟩
  | cons l lines ih =>
      have hl := hok l List.mem_cons_self
      have hrest := ih fun l' hl' => hok l' (List.mem_cons_of_mem l hl')
      cases l with
      | comment c =>
          obtain ⟨samples, hread, hagree⟩ := hrest hplain
          refine ⟨samples, ?_, hagree⟩
          rw [pageText_cons, Line.text, readPage_line hl.1, hl.2, hread]
          rfl
      | row r =>
          obtain ⟨hr, hplain⟩ := List.forall_mem_cons.mp hplain
          obtain ⟨samples, hread, hagree⟩ := hrest hplain
          have hfree := Row.newline_notMem_text hl.1 hl.2 hr
          have hcut : cut (r.text ++ newline :: []) = r.text := by
            rw [cut_append hfree, cut_newline, List.append_nil]
          obtain ⟨s, hs, hsame⟩ := (r.reads_iff hl.1 hl.2 []).mpr hr
          have hline := readLine_row hl.1 []
          rw [hs, hcut, Option.map_some] at hline
          refine ⟨s :: samples, ?_, List.Forall₂.cons hsame hagree⟩
          rw [pageText_cons, Line.text, readPage_line hfree, hline, hread]
          rfl

/-- A beginning of a page that is read as all its rows is the whole page, and the label values
read as they stand. -/
theorem page_of_reads {lines : List Line} (hok : ∀ l ∈ lines, l.Ok) (hends : EndsInRow lines)
    {t : Text} (ht : t <+: pageText lines) {samples : List Sample}
    (hread : readPage t = some samples) (hagree : List.Forall₂ Sample.Agrees samples (rows lines)) :
    t = pageText lines ∧ ∀ row ∈ rows lines, ∀ label ∈ row.labels, Plain label.2 := by
  induction lines generalizing t samples with
  | nil =>
      refine ⟨List.prefix_nil.mp ht, fun row hrow => ?_⟩
      cases hrow
  | cons l lines ih =>
      have hl := hok l List.mem_cons_self
      have hrest : ∀ l' ∈ lines, l'.Ok := fun l' hl' => hok l' (List.mem_cons_of_mem l hl')
      rcases readPage_inv hread with ⟨-, rfl⟩ | ⟨line, u, e, read, rfl, hline, he, hu, rfl⟩
      · exact absurd (List.forall₂_nil_left_iff.mp hagree) hends.rows_ne_nil
      · obtain ⟨v, hv⟩ := ht
        rw [pageText_cons] at hv
        have hcut := line_eq_cut hline hv
        rw [pageText_cons]
        -- once the first line is known to be complete, the rest of the page follows
        have hnext : line = l.text → u <+: pageText lines := by
          rintro rfl
          rw [List.append_assoc, List.append_cancel_left_eq, List.cons_append,
            List.cons_inj_right] at hv
          exact ⟨v, hv⟩
        cases l with
        | comment c =>
            have hsame : line = c := by
              rw [hcut, Line.text, cut_append hl.1, cut_newline, List.append_nil]
            rw [hsame, hl.2] at he
            cases he
            obtain ⟨rfl, hplain⟩ := ih hrest hends.tail (hnext hsame) hu hagree
            exact ⟨by rw [hsame]; rfl, hplain⟩
        | row r =>
            rw [hcut, Line.text, readLine_row hl.1, Option.map_eq_some_iff] at he
            obtain ⟨s, hs, rfl⟩ := he
            obtain ⟨hfirst, hagree⟩ := List.forall₂_cons.mp hagree
            have hr := (r.reads_iff hl.1 hl.2 _).mp ⟨s, hs, hfirst⟩
            have hsame : line = r.text := by
              rw [hcut, Line.text, cut_append (Row.newline_notMem_text hl.1 hl.2 hr),
                cut_newline, List.append_nil]
            obtain ⟨rfl, hplain⟩ := ih hrest hends.tail (hnext hsame) hu hagree
            exact ⟨by rw [hsame]; rfl, List.forall_mem_cons.mpr ⟨hr, hplain⟩⟩

/-- A beginning of a page is read as all its rows if and only if it is the whole page and the
label values read as they stand. -/
theorem page_reads_iff {lines : List Line} (hok : ∀ l ∈ lines, l.Ok) (hends : EndsInRow lines)
    {t : Text} (ht : t <+: pageText lines) :
    (∃ samples, readPage t = some samples ∧
        List.Forall₂ Sample.Agrees samples (rows lines)) ↔
      t = pageText lines ∧ ∀ row ∈ rows lines, ∀ label ∈ row.labels, Plain label.2 := by
  constructor
  · rintro ⟨samples, hread, hagree⟩
    exact page_of_reads hok hends ht hread hagree
  · rintro ⟨rfl, hplain⟩
    exact readPage_pageText hok hplain

/-! ## Families of samples -/

/-- The samples of one metric, one for each member of a list, with their HELP and TYPE. -/
structure Family (α : Type) where
  name : String
  help : String
  kind : String
  labels : α → List (Text × Text)
  value : α → Quantity
  name_ok : isName isMetricByte (bytesOf name) = true := by decide
  help_ok : newline ∉ bytesOf help := by decide
  kind_ok : bytesOf kind ∈ metricTypes := by decide
  labels_ok : ∀ a, ∀ label ∈ labels a, isName isLetter label.1 = true

namespace Family

variable {α : Type} (f : Family α)

def helpText : Text := bytesOf "# HELP " ++ (bytesOf f.name ++ 32 :: bytesOf f.help)

def typeText : Text := bytesOf "# TYPE " ++ (bytesOf f.name ++ 32 :: bytesOf f.kind)

/-- The two comments that announce the metric. -/
def header : Text := f.helpText ++ newline :: (f.typeText ++ [newline])

def row (a : α) : Row := ⟨bytesOf f.name, f.labels a, f.value a⟩

/-- The line of one sample. -/
def line (a : α) : Text := (f.row a).text ++ [newline]

/-- The lines of the family for a list of members. -/
def lines (xs : List α) : List Line :=
  .comment f.helpText :: .comment f.typeText :: xs.map fun a => .row (f.row a)

theorem pageText_lines (xs : List α) :
    pageText (f.lines xs) = f.header ++ (xs.map f.line).flatten := by
  rw [lines, pageText_cons, pageText_cons, header, pageText, List.flatMap_map, Line.text,
    Line.text, List.append_assoc, List.cons_append, List.append_assoc]
  rfl

theorem rows_lines (xs : List α) : rows (f.lines xs) = xs.map f.row := by
  have hsome : (fun a => Line.row? (.row (f.row a))) = fun a => some (f.row a) := rfl
  rw [rows, lines, List.filterMap_cons_none rfl, List.filterMap_cons_none rfl,
    List.filterMap_map, Function.comp_def, hsome]
  exact congrFun List.filterMap_eq_map' xs

theorem readName_name (t : Text) :
    readName isMetricByte (skipBlanks (32 :: (bytesOf f.name ++ 32 :: t))) =
      some (bytesOf f.name, 32 :: t) := by
  have hskip : skipBlanks (32 :: (bytesOf f.name ++ 32 :: t)) = bytesOf f.name ++ 32 :: t := by
    have hname := f.name_ok
    rw [skipBlanks, List.dropWhile_cons_of_pos (by decide)]
    cases hbytes : bytesOf f.name with
    | nil =>
        rw [hbytes] at hname
        cases hname
    | cons b rest =>
        have hblank : isBlank b = false := by
          have hmem := notMem_of_isName f.name_ok (b := 32) (by decide)
          have hmem' := notMem_of_isName f.name_ok (b := 9) (by decide)
          rw [hbytes, List.mem_cons, not_or] at hmem hmem'
          simp [isBlank, Ne.symm hmem.1, Ne.symm hmem'.1]
        exact skipBlanks_cons hblank _
  rw [hskip]
  apply readName_append f.name_ok
  intro b hb
  cases hb
  decide

theorem helpText_ok : newline ∉ f.helpText ∧ readLine f.helpText = some none := by
  have hname := notMem_of_isName f.name_ok (b := newline) (by decide)
  constructor
  · rw [helpText, List.mem_append, List.mem_append, List.mem_cons, not_or, not_or, not_or]
    exact ⟨by decide, hname, by decide, f.help_ok⟩
  · have hsplit : f.helpText =
        35 :: 32 :: (bytesOf "HELP" ++ 32 :: (bytesOf f.name ++ 32 :: bytesOf f.help)) := rfl
    rw [hsplit, readLine_comment, if_pos]
    have hword : skipBlanks (32 :: (bytesOf "HELP" ++
        32 :: (bytesOf f.name ++ 32 :: bytesOf f.help))) =
        bytesOf "HELP" ++ 32 :: (bytesOf f.name ++ 32 :: bytesOf f.help) := rfl
    have hhelp : ∀ t, readWord (bytesOf "HELP" ++ 32 :: t) = (bytesOf "HELP", 32 :: t) :=
      fun t => readWord_append (by decide) (by simp [isBlank])
    simp only [commentOk, hword, hhelp, if_pos, f.readName_name]
    rfl

theorem typeText_ok : newline ∉ f.typeText ∧ readLine f.typeText = some none := by
  have hname := notMem_of_isName f.name_ok (b := newline) (by decide)
  have hkind : ∀ kind ∈ metricTypes, newline ∉ kind ∧
      readWord (skipBlanks (32 :: kind)) = (kind, []) := by decide
  obtain ⟨hfree, hread⟩ := hkind _ f.kind_ok
  constructor
  · rw [typeText, List.mem_append, List.mem_append, List.mem_cons, not_or, not_or, not_or]
    exact ⟨by decide, hname, by decide, hfree⟩
  · have hsplit : f.typeText =
        35 :: 32 :: (bytesOf "TYPE" ++ 32 :: (bytesOf f.name ++ 32 :: bytesOf f.kind)) := rfl
    rw [hsplit, readLine_comment, if_pos]
    have hword : skipBlanks (32 :: (bytesOf "TYPE" ++
        32 :: (bytesOf f.name ++ 32 :: bytesOf f.kind))) =
        bytesOf "TYPE" ++ 32 :: (bytesOf f.name ++ 32 :: bytesOf f.kind) := rfl
    have hother : bytesOf "TYPE" ≠ bytesOf "HELP" := by decide
    have htype : ∀ t, readWord (bytesOf "TYPE" ++ 32 :: t) = (bytesOf "TYPE", 32 :: t) :=
      fun t => readWord_append (by decide) (by simp [isBlank])
    simp only [commentOk, hword, htype, if_neg hother, if_pos, f.readName_name, hread]
    simp [f.kind_ok, skipBlanks]

theorem lines_ok (xs : List α) : ∀ l ∈ f.lines xs, l.Ok := by
  intro l hl
  rcases List.mem_cons.mp hl with rfl | hl
  · exact f.helpText_ok
  · rcases List.mem_cons.mp hl with rfl | hl
    · exact f.typeText_ok
    · obtain ⟨a, -, rfl⟩ := List.mem_map.mp hl
      exact ⟨f.name_ok, f.labels_ok a⟩

end Family

end Exposition
