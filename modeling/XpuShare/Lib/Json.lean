import Mathlib.Tactic

/-! # JSON texts

A JSON text is a sequence of lexemes: blanks, punctuation, numbers, literal names and strings.
The grammar says which sequences are texts. In each of them a string is followed by a blank, by
punctuation or by nothing. -/

namespace Json

/-! ## Lexemes -/

inductive Blank where
  | space
  | tab
  | lineFeed
  | carriageReturn
  deriving DecidableEq

def Blank.char : Blank → Char
  | .space => ' '
  | .tab => '\t'
  | .lineFeed => '\n'
  | .carriageReturn => '\r'

inductive Punctuation where
  | openBrace
  | closeBrace
  | openBracket
  | closeBracket
  | comma
  | colon
  deriving DecidableEq

def Punctuation.char : Punctuation → Char
  | .openBrace => '\x7b'
  | .closeBrace => '\x7d'
  | .openBracket => '['
  | .closeBracket => ']'
  | .comma => ','
  | .colon => ':'

inductive Literal where
  | null
  | true
  | false
  deriving DecidableEq

def Literal.text : Literal → List Char
  | .null => "null".toList
  | .true => "true".toList
  | .false => "false".toList

/-- At least one digit. -/
structure Digits where
  first : Fin 10
  rest : List (Fin 10)
  deriving DecidableEq

def digitChar (d : Fin 10) : Char := Char.ofNat ('0'.toNat + d)

def Digits.text (n : Digits) : List Char := (n.first :: n.rest).map digitChar

/-- The exponent of a number, with the letter and the sign it is written with. -/
structure Exponent where
  upper : Bool
  sign : Option Bool
  digits : Digits
  deriving DecidableEq

def Exponent.text (e : Exponent) : List Char :=
  (if e.upper then 'E' else 'e') ::
    ((e.sign.map fun minus => if minus then '-' else '+').toList ++ e.digits.text)

structure Number where
  negative : Bool
  integer : Digits
  fraction : Option Digits
  exponent : Option Exponent
  no_leading_zero : integer.first = 0 → integer.rest = []
  deriving DecidableEq

def Number.text (n : Number) : List Char :=
  (if n.negative then ['-'] else []) ++ n.integer.text ++
    n.fraction.elim [] (fun digits => '.' :: digits.text) ++ n.exponent.elim [] Exponent.text

/-- A character of a string as it stands, escaped, or by its number. -/
inductive StringUnit where
  | plain (ch : Char) (h : 0x20 ≤ ch.toNat ∧ ch ≠ '"' ∧ ch ≠ '\\')
  | escape (ch : Char) (h : ch ∈ ['"', '\\', '/', 'b', 'f', 'n', 'r', 't'])
  | unicode (a b c d : Char)
      (h : ∀ ch ∈ [a, b, c, d], ch.isDigit ∨ ch.toLower ∈ ['a', 'b', 'c', 'd', 'e', 'f'])
  deriving DecidableEq

def StringUnit.text : StringUnit → List Char
  | .plain ch _ => [ch]
  | .escape ch _ => ['\\', ch]
  | .unicode a b c d _ => ['\\', 'u', a, b, c, d]

/-- What stands between the quotes. -/
def content (units : List StringUnit) : List Char := units.flatMap StringUnit.text

/-- A string without escapes. -/
def Plain (units : List StringUnit) : Prop := '\\' ∉ content units

instance (units : List StringUnit) : Decidable (Plain units) :=
  inferInstanceAs (Decidable ('\\' ∉ content units))

inductive Lexeme where
  | blank (b : Blank)
  | punctuation (p : Punctuation)
  | number (n : Number)
  | literal (l : Literal)
  | string (units : List StringUnit)
  deriving DecidableEq

def Lexeme.text : Lexeme → List Char
  | .blank b => [b.char]
  | .punctuation p => [p.char]
  | .number n => n.text
  | .literal l => l.text
  | .string units => '"' :: (content units ++ ['"'])

def text (ls : List Lexeme) : List Char := ls.flatMap Lexeme.text

/-- The contents of the strings, in order. -/
def stringTokens (ls : List Lexeme) : List (List Char) :=
  ls.filterMap fun
    | .string units => some (content units)
    | _ => none

/-! ## Grammar -/

def blanks (bs : List Blank) : List Lexeme := bs.map .blank

inductive Phrase where
  | value
  | elements
  | members
  deriving DecidableEq

/-- The phrases of the grammar; `elements` and `members` are the insides of arrays and objects
that are not empty. -/
inductive Derives : Phrase → List Lexeme → Prop where
  | number (n) : Derives .value [.number n]
  | literal (l) : Derives .value [.literal l]
  | string (units) : Derives .value [.string units]
  | emptyArray (bs) : Derives .value
      (.punctuation .openBracket :: (blanks bs ++ [.punctuation .closeBracket]))
  | array {es} : Derives .elements es →
      Derives .value (.punctuation .openBracket :: (es ++ [.punctuation .closeBracket]))
  | emptyObject (bs) : Derives .value
      (.punctuation .openBrace :: (blanks bs ++ [.punctuation .closeBrace]))
  | object {ms} : Derives .members ms →
      Derives .value (.punctuation .openBrace :: (ms ++ [.punctuation .closeBrace]))
  | element (bs bs') {v} : Derives .value v → Derives .elements (blanks bs ++ (v ++ blanks bs'))
  | elements (bs bs') {v es} : Derives .value v → Derives .elements es →
      Derives .elements (blanks bs ++ (v ++ (blanks bs' ++ .punctuation .comma :: es)))
  | member (bs units bs' bs'' bs''') {v} : Derives .value v → Derives .members
      (blanks bs ++ .string units :: (blanks bs' ++ .punctuation .colon ::
        (blanks bs'' ++ (v ++ blanks bs'''))))
  | members (bs units bs' bs'' bs''') {v ms} : Derives .value v → Derives .members ms →
      Derives .members (blanks bs ++ .string units :: (blanks bs' ++ .punctuation .colon ::
        (blanks bs'' ++ (v ++ (blanks bs''' ++ .punctuation .comma :: ms)))))

/-- A value between blanks. -/
def IsText (ls : List Lexeme) : Prop :=
  ∃ bs v bs', Derives .value v ∧ ls = blanks bs ++ (v ++ blanks bs')

/-! ## Strings are set apart -/

def Lexeme.separates : Lexeme → Bool
  | .blank _ | .punctuation _ => true
  | _ => false

/-- The list starts with a blank or with punctuation, if it is not empty. -/
def StartsApart : List Lexeme → Prop
  | [] => True
  | l :: _ => l.separates = true

/-- Every string is followed by a blank, by punctuation or by nothing. -/
def Separated : List Lexeme → Prop
  | [] => True
  | .string _ :: ls => StartsApart ls ∧ Separated ls
  | _ :: ls => Separated ls

/-- What can follow any phrase. -/
def Apart (ls : List Lexeme) : Prop := StartsApart ls ∧ Separated ls

theorem apart_nil : Apart [] := ⟨trivial, trivial⟩

theorem apart_punctuation {ls : List Lexeme} (h : Separated ls) (p : Punctuation) :
    Apart (.punctuation p :: ls) := ⟨rfl, h⟩

theorem separated_blanks {ls : List Lexeme} (h : Separated ls) (bs : List Blank) :
    Separated (blanks bs ++ ls) := by
  induction bs with
  | nil => exact h
  | cons b bs ih => exact ih

theorem Apart.blanks {ls : List Lexeme} (h : Apart ls) (bs : List Blank) :
    Apart (blanks bs ++ ls) := by
  refine ⟨?_, separated_blanks h.2 bs⟩
  cases bs with
  | nil => exact h.1
  | cons b bs => rfl

/-- The name of a member and the colon, before a value. -/
theorem separated_name {ls : List Lexeme} (h : Separated ls) (bs : List Blank)
    (units : List StringUnit) (bs' bs'' : List Blank) :
    Separated (blanks bs ++ .string units :: (blanks bs' ++ .punctuation .colon ::
      (blanks bs'' ++ ls))) := by
  have hcolon : Apart (.punctuation .colon :: (blanks bs'' ++ ls)) :=
    apart_punctuation (separated_blanks h bs'') .colon
  have hstring : Separated (.string units :: (blanks bs' ++ .punctuation .colon ::
      (blanks bs'' ++ ls))) := hcolon.blanks bs'
  exact separated_blanks hstring bs

/-- A phrase is separated, whatever follows it. -/
theorem Derives.separated {ph : Phrase} {ls rest : List Lexeme} (h : Derives ph ls)
    (hrest : Apart rest) : Separated (ls ++ rest) := by
  induction h generalizing rest with
  | number n => exact hrest.2
  | literal l => exact hrest.2
  | string units => exact hrest
  | emptyArray bs =>
      rw [List.cons_append, List.append_assoc]
      exact separated_blanks (apart_punctuation hrest.2 .closeBracket).2 bs
  | array _ ih =>
      rw [List.cons_append, List.append_assoc]
      exact ih (apart_punctuation hrest.2 .closeBracket)
  | emptyObject bs =>
      rw [List.cons_append, List.append_assoc]
      exact separated_blanks (apart_punctuation hrest.2 .closeBrace).2 bs
  | object _ ih =>
      rw [List.cons_append, List.append_assoc]
      exact ih (apart_punctuation hrest.2 .closeBrace)
  | element bs bs' _ ih =>
      simp only [List.append_assoc]
      exact separated_blanks (ih (hrest.blanks bs')) bs
  | elements bs bs' _ _ ihv ihes =>
      simp only [List.append_assoc, List.cons_append]
      have hcomma := apart_punctuation (ihes hrest) .comma
      exact separated_blanks (ihv (hcomma.blanks bs')) bs
  | member bs units bs' bs'' bs''' _ ih =>
      simp only [List.append_assoc, List.cons_append]
      exact separated_name (ih (hrest.blanks bs''')) bs units bs' bs''
  | members bs units bs' bs'' bs''' _ _ ihv ihms =>
      simp only [List.append_assoc, List.cons_append]
      have hcomma := apart_punctuation (ihms hrest) .comma
      exact separated_name (ihv (hcomma.blanks bs''')) bs units bs' bs''

theorem IsText.separated {ls : List Lexeme} (h : IsText ls) : Separated ls := by
  obtain ⟨bs, v, bs', hv, rfl⟩ := h
  have hend : Apart (blanks bs') := by simpa using apart_nil.blanks bs'
  exact separated_blanks (hv.separated hend) bs

/-! ## Characters outside strings -/

theorem digits_text_ne {n : Digits} {ch : Char} (h : ch ∈ n.text) : ch ≠ '"' ∧ ch ≠ '\\' := by
  obtain ⟨d, -, rfl⟩ := List.mem_map.mp h
  clear h
  revert d
  decide

theorem exponent_text_ne {e : Exponent} {ch : Char} (h : ch ∈ e.text) : ch ≠ '"' ∧ ch ≠ '\\' := by
  obtain ⟨upper, sign, digits⟩ := e
  simp only [Exponent.text, List.mem_cons, List.mem_append] at h
  rcases h with rfl | h | h
  · cases upper <;> simp
  · cases sign with
    | none => cases h
    | some minus =>
        rw [Option.map_some, Option.toList_some, List.mem_singleton] at h
        subst h
        cases minus <;> simp
  · exact digits_text_ne h

theorem number_text_ne {n : Number} {ch : Char} (h : ch ∈ n.text) : ch ≠ '"' ∧ ch ≠ '\\' := by
  obtain ⟨negative, integer, fraction, exponent, _⟩ := n
  simp only [Number.text, List.mem_append] at h
  rcases h with ((h | h) | h) | h
  · cases negative with
    | false => cases h
    | true =>
        rw [if_pos rfl, List.mem_singleton] at h
        subst h
        decide
  · exact digits_text_ne h
  · cases fraction with
    | none => cases h
    | some digits =>
        rcases List.mem_cons.mp h with rfl | h
        · decide
        · exact digits_text_ne h
  · cases exponent with
    | none => cases h
    | some e => exact exponent_text_ne h

theorem literal_text_ne {l : Literal} {ch : Char} (h : ch ∈ l.text) :
    ch ≠ '"' ∧ ch ≠ '\\' := by
  have hall : l.text.all (fun ch => ch ≠ '"' ∧ ch ≠ '\\') = true := by
    cases l <;> decide
  simpa using List.all_eq_true.mp hall ch h

/-- There are neither quotes nor backslashes outside strings. -/
theorem Lexeme.text_ne {l : Lexeme} (hl : ∀ units, l ≠ .string units) {ch : Char}
    (h : ch ∈ l.text) : ch ≠ '"' ∧ ch ≠ '\\' := by
  cases l with
  | blank b =>
      rw [Lexeme.text, List.mem_singleton] at h
      subst h
      cases b <;> decide
  | punctuation p =>
      rw [Lexeme.text, List.mem_singleton] at h
      subst h
      cases p <;> decide
  | number n => exact number_text_ne h
  | literal l => exact literal_text_ne h
  | string units => exact absurd rfl (hl units)

theorem text_blanks (bs : List Blank) : text (blanks bs) = bs.map Blank.char := by
  induction bs with
  | nil => rfl
  | cons b bs ih => simpa [text, blanks, Lexeme.text] using ih

theorem number_text_head (n : Number) :
    ∃ ch rest, n.text = ch :: rest ∧ ch ≠ '"' ∧ ch ≠ ' ' ∧ ch ≠ '\t' := by
  have hdigit : ∀ d : Fin 10, digitChar d ≠ '"' ∧ digitChar d ≠ ' ' ∧ digitChar d ≠ '\t' := by
    decide
  obtain ⟨negative, ⟨first, more⟩, fraction, exponent, _⟩ := n
  cases negative with
  | true => exact ⟨'-', _, rfl, by decide⟩
  | false => exact ⟨digitChar first, _, rfl, hdigit first⟩

/-- The first character of a value that is not a string. -/
theorem Lexeme.text_head {v : Lexeme} (hblank : ∀ b, v ≠ .blank b)
    (hstring : ∀ units, v ≠ .string units) :
    ∃ ch rest, v.text = ch :: rest ∧ ch ≠ '"' ∧ ch ≠ ' ' ∧ ch ≠ '\t' := by
  cases v with
  | blank b => exact absurd rfl (hblank b)
  | punctuation p => exact ⟨p.char, [], rfl, by cases p <;> decide⟩
  | number n => exact number_text_head n
  | literal l =>
      cases l with
      | null => exact ⟨'n', _, rfl, by decide⟩
      | true => exact ⟨'t', _, rfl, by decide⟩
      | false => exact ⟨'f', _, rfl, by decide⟩
  | string units => exact absurd rfl (hstring units)

/-- Without escapes there are no quotes. -/
theorem Plain.ne_quote {units : List StringUnit} (h : Plain units) {ch : Char}
    (hch : ch ∈ content units) : ch ≠ '"' := by
  obtain ⟨u, hu, hmem⟩ := List.mem_flatMap.mp hch
  cases u with
  | plain ch' hch' =>
      rw [StringUnit.text, List.mem_singleton] at hmem
      rw [hmem]
      exact hch'.2.1
  | escape ch' hch' => exact absurd (List.mem_flatMap.mpr ⟨_, hu, List.mem_cons_self⟩) h
  | unicode a b c d hch' => exact absurd (List.mem_flatMap.mpr ⟨_, hu, List.mem_cons_self⟩) h

end Json
