import XpuShare.Lib.Printf

/-! # The text exposition format

Version 0.0.4 of the text format for metrics, read line by line. Comments may be HELP and
TYPE lines, which name a metric; every other line that is not blank is a sample. -/

namespace Exposition

open Printf

/-! ## Lines and words -/

def newline : UInt8 := 10
def quote : UInt8 := 34
def backslash : UInt8 := 92

/-- The lines of a text, each of which must be ended by a line feed. -/
def completeLines : Text → Option (List Text)
  | [] => some []
  | b :: rest =>
      if b = newline then (completeLines rest).map ([] :: ·)
      else match completeLines rest with
        | some (line :: lines) => some ((b :: line) :: lines)
        | _ => none

def isBlank (b : UInt8) : Bool := b = 32 || b = 9

def skipBlanks (t : Text) : Text := t.dropWhile isBlank

/-- The next word, up to a blank, and what follows it. -/
def readWord (t : Text) : Text × Text := (t.takeWhile (!isBlank ·), t.dropWhile (!isBlank ·))

def isLetter (b : UInt8) : Bool := (65 ≤ b && b ≤ 90) || (97 ≤ b && b ≤ 122) || b = 95

/-- Letters, the underscore and the colon begin the name of a metric. -/
def isMetricByte (b : UInt8) : Bool := isLetter b || b = 58

/-- A name that consists of bytes of one kind and, after the first, of digits. -/
def readName (kind : UInt8 → Bool) : Text → Option (Text × Text)
  | [] => none
  | b :: rest =>
      if kind b then
        some (b :: rest.takeWhile (fun c => kind c || isDigit c),
          rest.dropWhile (fun c => kind c || isDigit c))
      else none

def expect (b : UInt8) : Text → Option Text
  | [] => none
  | c :: rest => if c = b then some rest else none

/-! ## Labels -/

def unescape (b : UInt8) : Option UInt8 :=
  if b = backslash then some backslash
  else if b = quote then some quote
  else if b = 110 then some newline
  else none

/-- What stands before the next quote that is not escaped. -/
def readQuoted : Text → Option (Text × Text)
  | [] => none
  | b :: rest =>
      if b = quote then some ([], rest)
      else if b = backslash then
        match rest with
        | [] => none
        | c :: rest => (unescape c).bind fun d =>
            (readQuoted rest).map fun p => (d :: p.1, p.2)
      else (readQuoted rest).map fun p => (b :: p.1, p.2)

theorem readQuoted_quote (t : Text) : readQuoted (quote :: t) = some ([], t) := by
  rw [readQuoted.eq_def]
  rfl

theorem readQuoted_escape (c : UInt8) (t : Text) :
    readQuoted (backslash :: c :: t) = (unescape c).bind fun d =>
      (readQuoted t).map fun p => (d :: p.1, p.2) := by
  rw [readQuoted.eq_def]
  rfl

theorem readQuoted_cons {b : UInt8} (hquote : b ≠ quote) (hback : b ≠ backslash) (t : Text) :
    readQuoted (b :: t) = (readQuoted t).map fun p => (b :: p.1, p.2) := by
  rw [readQuoted.eq_def]
  simp only [if_neg hquote, if_neg hback]

/-- A text that can be read begins with the closing quote, with an escape, or with a byte that
stands for itself. -/
theorem readQuoted_inv {t value rest : Text} (h : readQuoted t = some (value, rest)) :
    (t = quote :: rest ∧ value = []) ∨
    (∃ c d u word, t = backslash :: c :: u ∧ unescape c = some d ∧
      readQuoted u = some (word, rest) ∧ value = d :: word) ∨
    (∃ b u word, t = b :: u ∧ b ≠ quote ∧ b ≠ backslash ∧
      readQuoted u = some (word, rest) ∧ value = b :: word) := by
  cases t with
  | nil => cases h
  | cons b t =>
      by_cases hquote : b = quote
      · rw [hquote, readQuoted_quote] at h
        cases h
        exact Or.inl ⟨by rw [hquote], rfl⟩
      · by_cases hback : b = backslash
        · subst hback
          cases t with
          | nil => cases h
          | cons c t =>
              rw [readQuoted_escape, Option.bind_eq_some_iff] at h
              obtain ⟨d, hd, h⟩ := h
              rw [Option.map_eq_some_iff] at h
              obtain ⟨⟨word, rest⟩, hword, heq⟩ := h
              cases heq
              exact Or.inr (Or.inl ⟨c, d, t, word, rfl, hd, hword, rfl⟩)
        · rw [readQuoted_cons hquote hback, Option.map_eq_some_iff] at h
          obtain ⟨⟨word, rest⟩, hword, heq⟩ := h
          cases heq
          exact Or.inr (Or.inr ⟨b, t, word, rfl, hquote, hback, hword, rfl⟩)

def validUtf8 (t : Text) : Bool := (ByteArray.mk t.toArray).validateUTF8

/-- A label value, after the quote that opens it. -/
def readLabelValue (t : Text) : Option (Text × Text) :=
  (readQuoted t).filter fun p => validUtf8 p.1

/-- One label and what follows it. -/
def readLabel (t : Text) : Option ((Text × Text) × Text) :=
  (readName isLetter t).bind fun name =>
    (expect 61 (skipBlanks name.2)).bind fun t =>
      (expect quote (skipBlanks t)).bind fun t =>
        (readLabelValue t).map fun value => ((name.1, value.1), value.2)

/-- The brace that closes the labels, or a comma and more labels, after one label. -/
def afterLabel (more : Text → Option (List (Text × Text) × Text)) (label : Text × Text)
    (t : Text) : Option (List (Text × Text) × Text) :=
  match expect 125 (skipBlanks t) with
  | some t => some ([label], t)
  | none => (expect 44 (skipBlanks t)).bind fun t =>
      (more t).map fun labels => (label :: labels.1, labels.2)

/-- The labels of a sample, after the brace that opens them; `fuel` bounds their number. -/
def readLabels : ℕ → Text → Option (List (Text × Text) × Text)
  | 0, _ => none
  | fuel + 1, t =>
      match expect 125 (skipBlanks t) with
      | some t => some ([], t)
      | none => (readLabel (skipBlanks t)).bind fun label =>
          afterLabel (readLabels fuel) label.1 label.2

/-! ## Values -/

/-- The value of a sample. -/
inductive Value where
  | number (q : ℚ)
  | infinity (negative : Bool)
  | nan
  deriving DecidableEq

def readSign : Text → Bool × Text
  | [] => (false, [])
  | b :: rest => if b = 45 then (true, rest) else if b = 43 then (false, rest)
      else (false, b :: rest)

def signed (negative : Bool) (q : ℚ) : ℚ := if negative then -q else q

def readInteger (t : Text) : Option ℤ :=
  let (negative, ds) := readSign t
  if ds ≠ [] ∧ ds.all isDigit then
    some (if negative then -(digitsValue ds : ℤ) else digitsValue ds)
  else none

/-- The exponent at the end of a number. -/
def readExponent : Text → Option ℤ
  | [] => some 0
  | b :: rest => if b = 101 ∨ b = 69 then readInteger rest else none

/-- Digits after a decimal point, if there is one, and what follows them. -/
def readFraction : Text → Text × Text
  | [] => ([], [])
  | b :: rest => if b = 46 then (rest.takeWhile isDigit, rest.dropWhile isDigit)
      else ([], b :: rest)

def readNumber (t : Text) : Option ℚ :=
  let (negative, t) := readSign t
  let integer := t.takeWhile isDigit
  let (fraction, t) := readFraction (t.dropWhile isDigit)
  if integer = [] ∧ fraction = [] then none
  else (readExponent t).map fun e =>
    signed negative (digitsValue (integer ++ fraction) * 10 ^ (e - (fraction.length : ℤ)))

def readValue (t : Text) : Option Value :=
  if t = bytesOf "NaN" then some .nan
  else if t = bytesOf "Inf" ∨ t = bytesOf "+Inf" then some (.infinity false)
  else if t = bytesOf "-Inf" then some (.infinity true)
  else (readNumber t).map .number

/-! ## Samples -/

structure Sample where
  name : Text
  labels : List (Text × Text)
  value : Value
  timestamp : Option ℤ
  deriving DecidableEq

/-- The labels of a sample, if a brace follows its name. -/
def readLabelSet (t : Text) : Option (List (Text × Text) × Text) :=
  match expect 123 (skipBlanks t) with
  | some t => readLabels (t.length + 1) t
  | none => some ([], t)

/-- The timestamp at the end of a sample, if there is one. -/
def readTimestamp (t : Text) : Option (Option ℤ) :=
  if skipBlanks t = [] then some none
  else
    let (word, rest) := readWord (skipBlanks t)
    if skipBlanks rest = [] then (readInteger word).map some else none

/-- The value and the timestamp that follow the name and the labels. -/
def readPoint (t : Text) : Option (Value × Option ℤ) :=
  (readValue (readWord (skipBlanks t)).1).bind fun value =>
    (readTimestamp (readWord (skipBlanks t)).2).map fun timestamp => (value, timestamp)

def readSample (line : Text) : Option Sample :=
  (readName isMetricByte line).bind fun name =>
    (readLabelSet name.2).bind fun labels =>
      (readPoint labels.2).map fun point =>
        { name := name.1, labels := labels.1, value := point.1, timestamp := point.2 }

def metricTypes : List Text :=
  ["counter", "gauge", "histogram", "summary", "untyped"].map bytesOf

/-- Whether a line that begins with `#` is well formed, given what follows that. -/
def commentOk (t : Text) : Bool :=
  let (word, t) := readWord (skipBlanks t)
  if word = bytesOf "HELP" then
    match readName isMetricByte (skipBlanks t) with
    | some (_, t) => t = [] || t.head?.any isBlank
    | none => false
  else if word = bytesOf "TYPE" then
    match readName isMetricByte (skipBlanks t) with
    | some (_, t) =>
        let (kind, t) := readWord (skipBlanks t)
        metricTypes.contains kind && skipBlanks t = []
    | none => false
  else true

/-- A line: nothing for a blank line or a comment, or a sample. -/
def readLine (line : Text) : Option (Option Sample) :=
  match skipBlanks line with
  | [] => some none
  | b :: rest =>
      if b = 35 then (if commentOk rest then some none else none)
      else (readSample (b :: rest)).map some

theorem readLine_comment (t : Text) :
    readLine (35 :: t) = if commentOk t then some none else none := by
  have hskip : skipBlanks (35 :: t) = 35 :: t := by
    rw [skipBlanks, List.dropWhile_cons_of_neg (by decide)]
  rw [readLine, hskip]
  exact if_pos rfl

/-- The samples of a page of complete lines. -/
def readPage (t : Text) : Option (List Sample) :=
  (completeLines t).bind fun lines => (lines.mapM readLine).map List.reduceOption

end Exposition
