import XpuShare.Lib.Json
import XpuShare.Model.K8sApi

/-! # Finding an annotation in a JSON text

The quoted name of the annotation can occur inside other strings, but there a backslash stands
before its first quote, and it cannot start at the last quote of a string, since what follows a
string in a JSON text is not part of a name. -/

namespace XpuShare

open Json

/-- The names of annotations, short enough for the buffer. -/
structure AnnotationKey (key : List Char) : Prop where
  short : key.length ≤ 125
  chars : ∀ ch ∈ key, ch.isAlphanum = true ∨ ch ∈ ['.', '/', '-', '_']

def quoted (key : List Char) : List Char := '"' :: (key ++ ['"'])

section Keys

variable {key : List Char} (hkey : AnnotationKey key)

include hkey

theorem AnnotationKey.search_eq : ('"' :: (key ++ ['"'])).take 127 = quoted key := by
  have hshort := hkey.short
  apply List.take_of_length_le
  rw [List.length_cons, List.length_append, List.length_singleton]
  omega

/-- No character of the syntax occurs in a name. -/
theorem AnnotationKey.ne {ch other : Char} (hch : ch ∈ key)
    (hother : other ∈ ['"', '\\', ':', ' ', '\t', '\n', '\r', '\x7b', '\x7d', '[', ']', ',']) :
    ch ≠ other := by
  have hnone : ∀ other ∈
      ['"', '\\', ':', ' ', '\t', '\n', '\r', '\x7b', '\x7d', '[', ']', ','],
      ¬ (other.isAlphanum = true ∨ other ∈ ['.', '/', '-', '_']) := by simp
  rintro rfl
  exact hnone ch hother (hkey.chars ch hch)

end Keys

/-! ## Scanning a text -/

section Scanning

variable {key rest : List Char} {prev : Option Char}

theorem findKey_of_ne_quote {ch : Char} (h : ch ≠ '"') :
    findKey (quoted key) prev (ch :: rest) = findKey (quoted key) (some ch) rest := by
  have hne : ¬ '"' = ch := fun he => h he.symm
  rw [findKey, if_neg]
  simp [quoted, List.isPrefixOf_cons_cons, hne]

theorem findKey_of_backslash {ch : Char} :
    findKey (quoted key) (some '\\') (ch :: rest) = findKey (quoted key) (some ch) rest := by
  rw [findKey, if_neg]
  simp

/-- A part without quotes and backslashes is passed over. -/
theorem findKey_outside {part : List Char} (h : ∀ ch ∈ part, ch ≠ '"' ∧ ch ≠ '\\')
    (hprev : prev ≠ some '\\') : ∃ prev', prev' ≠ some '\\' ∧
      findKey (quoted key) prev (part ++ rest) = findKey (quoted key) prev' rest := by
  induction part generalizing prev with
  | nil => exact ⟨prev, hprev, rfl⟩
  | cons ch part ih =>
      have hch := h ch List.mem_cons_self
      rw [List.cons_append, findKey_of_ne_quote hch.1]
      apply ih
      · exact fun ch' hch' => h ch' (List.mem_cons_of_mem ch hch')
      · simpa using hch.2

/-- The inside of a string is passed over: its quotes are escaped. -/
theorem findKey_content (units : List StringUnit) (prev : Option Char) : ∃ prev',
    findKey (quoted key) prev (content units ++ rest) = findKey (quoted key) prev' rest := by
  induction units generalizing prev with
  | nil => exact ⟨prev, rfl⟩
  | cons u units ih =>
      rw [content, List.flatMap_cons, List.append_assoc]
      cases u with
      | plain ch h =>
          rw [StringUnit.text, List.singleton_append, findKey_of_ne_quote h.2.1]
          exact ih (some ch)
      | escape ch h =>
          rw [StringUnit.text, List.cons_append, List.singleton_append,
            findKey_of_ne_quote (by decide), findKey_of_backslash]
          exact ih (some ch)
      | unicode a b c d h =>
          have hne : ∀ ch ∈ [a, b, c, d], ch ≠ '"' := by
            rintro ch hch rfl
            exact absurd (h '"' hch) (by decide)
          simp only [StringUnit.text, List.cons_append, List.nil_append]
          rw [findKey_of_ne_quote (by decide), findKey_of_ne_quote (by decide),
            findKey_of_ne_quote (hne a (by simp)), findKey_of_ne_quote (hne b (by simp)),
            findKey_of_ne_quote (hne c (by simp)), findKey_of_ne_quote (hne d (by simp))]
          exact ih (some d)

theorem not_prefix_backslash (hkey : ∀ ch ∈ key, ch ≠ '"' ∧ ch ≠ '\\') :
    ¬ key ++ ['"'] <+: '\\' :: rest := by
  intro h
  cases key with
  | nil =>
      rw [List.nil_append, List.cons_prefix_cons] at h
      exact absurd h.1 (by decide)
  | cons k key =>
      rw [List.cons_append, List.cons_prefix_cons] at h
      exact (hkey k List.mem_cons_self).2 h.1

/-- If a string starts with a name and a quote, the name is all of it. -/
theorem content_eq_of_starts (hkey : ∀ ch ∈ key, ch ≠ '"' ∧ ch ≠ '\\') (units : List StringUnit)
    (h : key ++ ['"'] <+: content units ++ '"' :: rest) : content units = key := by
  induction units generalizing key with
  | nil =>
      cases key with
      | nil => rfl
      | cons k key =>
          rw [List.cons_append, content, List.flatMap_nil, List.nil_append,
            List.cons_prefix_cons] at h
          exact absurd h.1 (hkey k List.mem_cons_self).1
  | cons u units ih =>
      rw [content, List.flatMap_cons, List.append_assoc] at h
      cases u with
      | plain ch hch =>
          rw [StringUnit.text, List.singleton_append] at h
          cases key with
          | nil =>
              rw [List.nil_append, List.cons_prefix_cons] at h
              exact absurd h.1.symm hch.2.1
          | cons k key =>
              rw [List.cons_append, List.cons_prefix_cons] at h
              have hrest := ih (fun ch hch => hkey ch (List.mem_cons_of_mem k hch)) h.2
              rw [content, List.flatMap_cons, StringUnit.text, List.singleton_append, h.1]
              exact congrArg _ hrest
      | escape ch hch =>
          rw [StringUnit.text, List.cons_append] at h
          exact absurd h (not_prefix_backslash hkey)
      | unicode a b c d hch =>
          rw [StringUnit.text, List.cons_append] at h
          exact absurd h (not_prefix_backslash hkey)

/-- A string with another content is passed over, if no name can start behind it. -/
theorem findKey_string (hkey : ∀ ch ∈ key, ch ≠ '"' ∧ ch ≠ '\\') {units : List StringUnit}
    (hne : content units ≠ key) (hrest : ¬ key ++ ['"'] <+: rest) :
    findKey (quoted key) prev ('"' :: (content units ++ '"' :: rest)) =
      findKey (quoted key) (some '"') rest := by
  have hskip : ∀ {prev tail}, ¬ key ++ ['"'] <+: tail →
      findKey (quoted key) prev ('"' :: tail) = findKey (quoted key) (some '"') tail := by
    intro prev tail htail
    rw [findKey, if_neg]
    rintro ⟨hstarts, -⟩
    rw [List.isPrefixOf_iff_prefix, quoted, List.cons_prefix_cons] at hstarts
    exact htail hstarts.2
  obtain ⟨prev', hinside⟩ := findKey_content units (some '"')
  rw [hskip fun h => hne (content_eq_of_starts hkey units h), hinside, hskip hrest]

end Scanning

/-! ## Scanning lexemes -/

section Lexemes

variable {key : List Char} (hkey : AnnotationKey key)

include hkey

theorem AnnotationKey.plain : ∀ ch ∈ key, ch ≠ '"' ∧ ch ≠ '\\' :=
  fun _ hch => ⟨hkey.ne hch (by decide), hkey.ne hch (by decide)⟩

/-- No name starts with a character that separates. -/
theorem not_prefix_separator {ch : Char} {rest : List Char} (hch : ch ∈
      ['"', '\\', ':', ' ', '\t', '\n', '\r', '\x7b', '\x7d', '[', ']', ','])
    (hquote : ch ≠ '"') : ¬ key ++ ['"'] <+: ch :: rest := by
  intro h
  cases key with
  | nil =>
      rw [List.nil_append, List.cons_prefix_cons] at h
      exact hquote h.1.symm
  | cons k key =>
      rw [List.cons_append, List.cons_prefix_cons] at h
      exact hkey.ne List.mem_cons_self hch h.1

theorem not_prefix_of_startsApart {ls : List Lexeme} (h : StartsApart ls) :
    ¬ key ++ ['"'] <+: text ls := by
  cases ls with
  | nil => simp [text]
  | cons l ls =>
      rw [text, List.flatMap_cons]
      cases l with
      | blank b => exact not_prefix_separator hkey (by cases b <;> decide) (by cases b <;> decide)
      | punctuation p =>
          exact not_prefix_separator hkey (by cases p <;> decide) (by cases p <;> decide)
      | number n => cases h
      | literal l => cases h
      | string units => cases h

/-- Lexemes without the name are passed over, and no backslash ends them. -/
theorem findKey_lexemes {front back : List Lexeme} (hsep : Separated (front ++ back))
    (hnot : key ∉ stringTokens front) {prev : Option Char} (hprev : prev ≠ some '\\') :
    ∃ prev', prev' ≠ some '\\' ∧ findKey (quoted key) prev (text (front ++ back)) =
      findKey (quoted key) prev' (text back) := by
  induction front generalizing prev with
  | nil => exact ⟨prev, hprev, rfl⟩
  | cons l front ih =>
      have hskip : (∀ units, l ≠ .string units) → Separated (front ++ back) →
          key ∉ stringTokens front → ∃ prev', prev' ≠ some '\\' ∧
            findKey (quoted key) prev (text (l :: (front ++ back))) =
              findKey (quoted key) prev' (text back) := by
        intro hl hsep hnot
        obtain ⟨prev₁, hprev₁, hl'⟩ := findKey_outside (fun ch => l.text_ne hl) hprev
        obtain ⟨prev₂, hprev₂, hrest⟩ := ih hsep hnot hprev₁
        exact ⟨prev₂, hprev₂, by rw [text, List.flatMap_cons, hl', ← hrest, text]⟩
      cases l with
      | blank b => exact hskip (by simp) hsep hnot
      | punctuation p => exact hskip (by simp) hsep hnot
      | number n => exact hskip (by simp) hsep hnot
      | literal l => exact hskip (by simp) hsep hnot
      | string units =>
          have hne : content units ≠ key ∧ key ∉ stringTokens front := by
            rw [stringTokens, List.filterMap_cons, List.mem_cons, not_or] at hnot
            exact ⟨fun he => hnot.1 he.symm, hnot.2⟩
          have hquote : some '"' ≠ some '\\' := by decide
          obtain ⟨prev', hprev', hrest⟩ := ih hsep.2 hne.2 hquote
          refine ⟨prev', hprev', ?_⟩
          have hpass : findKey (quoted key) prev
              ('"' :: (content units ++ '"' :: text (front ++ back))) = _ :=
            findKey_string hkey.plain hne.1 (not_prefix_of_startsApart hkey hsep.1)
          rw [List.cons_append, text, List.flatMap_cons, Lexeme.text, List.cons_append,
            List.append_assoc, List.singleton_append]
          exact hpass.trans hrest

omit hkey in
/-- The name itself is found. -/
theorem findKey_self {units : List StringUnit} (hunits : content units = key)
    (back : List Lexeme) {prev : Option Char} (hprev : prev ≠ some '\\') :
    findKey (quoted key) prev (text (.string units :: back)) =
      some (text (.string units :: back)) := by
  rw [text, List.flatMap_cons, Lexeme.text, List.cons_append, findKey, if_pos]
  refine ⟨?_, hprev⟩
  rw [List.isPrefixOf_iff_prefix, quoted, hunits]
  exact ⟨List.flatMap Lexeme.text back, by simp⟩

end Lexemes

/-! ## The value of a member -/

section Value

variable {key : List Char} {units : List StringUnit} {bs gap : List Blank}

/-- The colon found is the one behind the name, and the blanks behind it are passed over. -/
theorem valueAfterColon_eq (hkey : AnnotationKey key) (hunits : content units = key)
    (hgap : ∀ b ∈ gap, b = .space ∨ b = .tab) {ch : Char} {rest : List Char} {ls : List Lexeme}
    (hls : text ls = ch :: rest) (hspace : ch ≠ ' ') (htab : ch ≠ '\t') :
    valueAfterColon (text (.string units ::
        (blanks bs ++ .punctuation .colon :: (blanks gap ++ ls)))) =
      if ch = '"' then if '"' ∈ rest then some (rest.takeWhile (· ≠ '"')) else none
      else none := by
  have htext : text (.string units :: (blanks bs ++ .punctuation .colon :: (blanks gap ++ ls))) =
      ('"' :: (key ++ '"' :: bs.map Blank.char)) ++ ':' :: (gap.map Blank.char ++ ch :: rest) := by
    have hsplit : text (.string units :: (blanks bs ++ .punctuation .colon :: (blanks gap ++ ls))) =
        '"' :: (content units ++
          '"' :: (text (blanks bs) ++ ':' :: (text (blanks gap) ++ text ls))) := by
      simp [text, Lexeme.text, Punctuation.char]
    rw [hsplit, hunits, hls, text_blanks, text_blanks]
    simp
  have hname : ∀ ch ∈ '"' :: (key ++ '"' :: bs.map Blank.char), decide (ch ≠ ':') = true := by
    intro ch hch
    rw [decide_eq_true_eq]
    simp only [List.mem_cons, List.mem_append, List.mem_map] at hch
    rcases hch with rfl | hch | rfl | ⟨b, -, rfl⟩
    · decide
    · exact hkey.ne hch (by decide)
    · decide
    · cases b <;> decide
  have hskip : ∀ ch ∈ gap.map Blank.char, decide (ch = ' ' ∨ ch = '\t') = true := by
    intro ch hch
    obtain ⟨b, hb, rfl⟩ := List.mem_map.mp hch
    rcases hgap b hb with rfl | rfl
    · decide
    · decide
  have hstop : decide (ch = ' ' ∨ ch = '\t') = false := by
    simp [hspace, htab]
  rw [htext, valueAfterColon, List.dropWhile_append_of_pos hname]
  simp only [List.dropWhile_cons, ne_eq, not_true_eq_false, decide_false, Bool.false_eq_true,
    if_false]
  rw [List.dropWhile_append_of_pos hskip, List.dropWhile_cons, hstop, if_neg Bool.false_ne_true]
  by_cases hquote : ch = '"'
  · subst hquote
    rfl
  · rw [if_neg hquote]
    split
    · next body heq => exact absurd (List.cons.inj heq).1 hquote
    · rfl

end Value

/-! ## Extraction -/

/-- Exactly one string of the text is `key`, and it is the name of a member: a colon follows,
and then, after spaces and tabs only, the value, of which `v` is the first lexeme. -/
structure OnlyMember (key : List Char) (v : Lexeme) (ls : List Lexeme) : Prop where
  once : (stringTokens ls).count key = 1
  value : ∀ b, v ≠ .blank b
  member : ∃ front units bs gap back, content units = key ∧
    (∀ b ∈ gap, b = Blank.space ∨ b = Blank.tab) ∧
    ls = front ++ .string units ::
      (blanks bs ++ .punctuation .colon :: (blanks gap ++ v :: back))

section Extraction

variable {ls : List Lexeme} {key : List Char} {v : Lexeme}

theorem extractJsonString_eq (hkey : AnnotationKey key) (json : List Char) :
    extractJsonString json key = (findKey (quoted key) none json).bind valueAfterColon := by
  rw [extractJsonString, hkey.search_eq]

theorem extractJsonString_of_notMem (hjson : IsText ls) (hkey : AnnotationKey key)
    (hnot : key ∉ stringTokens ls) : extractJsonString (text ls) key = none := by
  have hsep : Separated (ls ++ []) := by simpa using hjson.separated
  have hstart : (none : Option Char) ≠ some '\\' := by decide
  obtain ⟨prev, -, hfind⟩ := findKey_lexemes hkey hsep hnot hstart
  rw [List.append_nil] at hfind
  rw [extractJsonString_eq hkey, hfind]
  rfl

/-- The name of the only member is found, and its value read. -/
theorem OnlyMember.extractJsonString (h : OnlyMember key v ls) (hjson : IsText ls)
    (hkey : AnnotationKey key) {ch : Char} {rest : List Char} (hv : v.text = ch :: rest)
    (hspace : ch ≠ ' ') (htab : ch ≠ '\t') :
    ∃ back, extractJsonString (text ls) key =
      if ch = '"' then
        if '"' ∈ rest ++ back then some ((rest ++ back).takeWhile (· ≠ '"')) else none
      else none := by
  obtain ⟨front, units, bs, gap, back, hunits, hgap, rfl⟩ := h.member
  have hnot : key ∉ stringTokens front := by
    have honce := h.once
    rw [stringTokens, List.filterMap_append, List.filterMap_cons, List.count_append,
      List.count_cons, hunits, beq_self_eq_true, if_pos rfl] at honce
    rw [← List.count_eq_zero]
    change List.count key (stringTokens front) + _ = 1 at honce
    omega
  have hstart : (none : Option Char) ≠ some '\\' := by decide
  obtain ⟨prev, hprev, hfind⟩ := findKey_lexemes hkey hjson.separated hnot hstart
  have htext : text (v :: back) = ch :: (rest ++ text back) := by
    rw [text, List.flatMap_cons, hv, List.cons_append]
    rfl
  refine ⟨text back, ?_⟩
  rw [extractJsonString_eq hkey, hfind, findKey_self hunits _ hprev, Option.bind_some,
    valueAfterColon_eq hkey hunits hgap htext hspace htab]

/-- A string value without escapes is returned. -/
theorem OnlyMember.plain_eq {units : List StringUnit} (h : OnlyMember key (.string units) ls)
    (hjson : IsText ls) (hkey : AnnotationKey key) (hplain : Plain units) :
    XpuShare.extractJsonString (text ls) key = some (content units) := by
  obtain ⟨back, heq⟩ := h.extractJsonString hjson hkey rfl (by decide) (by decide)
  have hquotes : ∀ ch ∈ content units, decide (ch ≠ '"') = true :=
    fun ch hch => decide_eq_true (hplain.ne_quote hch)
  rw [heq, if_pos rfl, List.append_assoc, List.takeWhile_append_of_pos hquotes]
  simp

end Extraction

/-- However often the name occurs inside other strings: a string value without escapes is
returned, for any other kind of value the result is NULL, and so it is if no string of the text
is the name. -/
theorem extractJsonString_correct {ls : List Lexeme} (hjson : IsText ls) {key : List Char}
    (hkey : AnnotationKey key) :
    (∀ v, OnlyMember key v ls →
      (∀ units, v = .string units → Plain units →
        extractJsonString (text ls) key = some (content units)) ∧
      ((∀ units, v ≠ .string units) → extractJsonString (text ls) key = none)) ∧
    (key ∉ stringTokens ls → extractJsonString (text ls) key = none) := by
  refine ⟨?_, extractJsonString_of_notMem hjson hkey⟩
  intro v hv
  refine ⟨?_, ?_⟩
  · rintro units rfl hplain
    exact hv.plain_eq hjson hkey hplain
  · intro hstring
    obtain ⟨ch, rest, htext, hquote, hspace, htab⟩ := Lexeme.text_head hv.value hstring
    obtain ⟨back, heq⟩ := hv.extractJsonString hjson hkey htext hspace htab
    rw [heq, if_neg hquote]

/-- The text `\x7b"a":"\"k\"","k": "v"\x7d`. -/
theorem extractJsonString_correct_lookalike :
    ∃ ls, IsText ls ∧ OnlyMember ['k'] (.string [.plain 'v' (by decide)]) ls ∧
      "\\\"k\\\"".toList ∈ stringTokens ls ∧
      extractJsonString (text ls) ['k'] = some ['v'] := by
  let name : List StringUnit := [.plain 'a' (by decide)]
  let lookalike : List StringUnit :=
    [.escape '"' (by decide), .plain 'k' (by decide), .escape '"' (by decide)]
  let key : List StringUnit := [.plain 'k' (by decide)]
  let value : List StringUnit := [.plain 'v' (by decide)]
  let front : List Lexeme := [.punctuation .openBrace, .string name, .punctuation .colon,
    .string lookalike, .punctuation .comma]
  let ls : List Lexeme := front ++ .string key :: (blanks [] ++ .punctuation .colon ::
    (blanks [.space] ++ .string value :: [.punctuation .closeBrace]))
  have hjson : IsText ls := ⟨[], ls, [], .object (.members [] name [] [] [] (.string lookalike)
    (.member [] key [] [.space] [] (.string value))), rfl⟩
  have hmember : OnlyMember ['k'] (.string value) ls :=
    ⟨by decide, by simp, front, key, [], [.space], [.punctuation .closeBrace], rfl, by simp, rfl⟩
  exact ⟨ls, hjson, hmember, by decide, ((extractJsonString_correct hjson
    ⟨by decide, by simp⟩).1 _ hmember).1 value rfl (by decide)⟩

end XpuShare
