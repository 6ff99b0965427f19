import CoreWar.Text.Blank
import CoreWar.Text.Decimal
import CoreWar.Text.Uppercase
import Mathlib.Data.List.Basic
import Mathlib.Data.List.TakeDrop
import Mathlib.Data.List.TakeWhile

/-!
Contract: texts that are put together from words, blanks and separators come apart again.

Owns:
- trimming a text between blanks, and splitting off its first word;
- the parts between separators, and the lines of a text whose lines are all ended;
- numerals that read back, and words in capitals.

Does not own: what the words mean.
-/

namespace CoreWar.Text

/-- Blanks only. -/
def Blank (text : List Char) : Prop :=
  ∀ character ∈ text, isBlank character = true

/-- No blanks at all. -/
def Solid (text : List Char) : Prop :=
  ∀ character ∈ text, isBlank character = false

-- Only the characters of the text are tried, and not all there are.
instance (text : List Char) : Decidable (Blank text) :=
  List.decidableBAll (fun character => isBlank character = true) text

instance (text : List Char) : Decidable (Solid text) :=
  List.decidableBAll (fun character => isBlank character = false) text

/-- No blank at either end. -/
structure Edged (text : List Char) : Prop where
  first : ∀ character ∈ text.head?, isBlank character = false
  last : ∀ character ∈ text.getLast?, isBlank character = false

/-! ## Trimming -/

theorem edged_of_solid {text : List Char} (solid : Solid text) : Edged text where
  first character member := solid character (List.mem_of_head? member)
  last character member := solid character (List.mem_of_getLast? member)

theorem trimStart_append_of_blank
    {gap : List Char}
    (blank : Blank gap)
    (text : List Char) :
    trimStart (gap ++ text) = trimStart text :=
  List.dropWhile_append_of_pos blank

theorem trimStart_of_first
    {text : List Char}
    (first : ∀ character ∈ text.head?, isBlank character = false) :
    trimStart text = text := by
  cases text with
  | nil => rfl
  | cons character rest => exact List.dropWhile_cons_of_neg (by simp [first character rfl])

theorem trimEnd_append_of_blank
    (text : List Char)
    {gap : List Char}
    (blank : Blank gap) :
    trimEnd (text ++ gap) = trimEnd text := by
  unfold trimEnd
  rw [List.reverse_append, List.dropWhile_append_of_pos]
  intro character member
  exact blank character (List.mem_reverse.mp member)

theorem trimEnd_of_last
    {text : List Char}
    (last : ∀ character ∈ text.getLast?, isBlank character = false) :
    trimEnd text = text := by
  have reversed : trimStart text.reverse = text.reverse := by
    apply trimStart_of_first
    rw [List.head?_reverse]
    exact last
  unfold trimStart at reversed
  unfold trimEnd
  rw [reversed, List.reverse_reverse]

theorem trim_of_blank {gap : List Char} (blank : Blank gap) : trim gap = [] := by
  have started : trimStart gap = [] := by
    rw [← List.append_nil gap, trimStart_append_of_blank blank]
    rfl
  rw [trim, started]
  rfl

/-- Blanks around a text that has none at its ends are trimmed away. -/
theorem trim_surrounded
    {before text after : List Char}
    (beforeBlank : Blank before)
    (edged : Edged text)
    (afterBlank : Blank after) :
    trim (before ++ text ++ after) = text := by
  cases text with
  | nil =>
      apply trim_of_blank
      intro character member
      rcases List.mem_append.mp member with early | late
      · exact beforeBlank character (by simpa using early)
      · exact afterBlank character late
  | cons character rest =>
      have started : trimStart (character :: rest ++ after) = character :: rest ++ after := by
        apply trimStart_of_first
        intro other member
        exact edged.first other member
      rw [trim, List.append_assoc, trimStart_append_of_blank beforeBlank, started,
        trimEnd_append_of_blank _ afterBlank, trimEnd_of_last edged.last]

theorem trim_append_of_blank
    (text : List Char)
    {gap : List Char}
    (blank : Blank gap) :
    trim (text ++ gap) = trim text := by
  by_cases allBlank : trimStart text = []
  · have started : trimStart (text ++ gap) = [] := by
      unfold trimStart at allBlank ⊢
      rw [List.dropWhile_append, allBlank]
      exact List.dropWhile_eq_nil_iff.mpr blank
    rw [trim, trim, started, allBlank]
  · have started : trimStart (text ++ gap) = trimStart text ++ gap := by
      unfold trimStart at allBlank ⊢
      rw [List.dropWhile_append, if_neg (by simpa using allBlank)]
    rw [trim, trim, started, trimEnd_append_of_blank _ blank]

theorem first_trimStart (text : List Char) :
    ∀ character ∈ (trimStart text).head?, isBlank character = false := by
  intro character member
  have first := List.head?_dropWhile_not isBlank text
  unfold trimStart at member
  rw [Option.mem_def.mp member] at first
  exact first

theorem last_trimEnd (text : List Char) :
    ∀ character ∈ (trimEnd text).getLast?, isBlank character = false := by
  intro character member
  unfold trimEnd at member
  rw [List.getLast?_reverse] at member
  exact first_trimStart text.reverse character member

theorem trimEnd_isPrefix (text : List Char) : trimEnd text <+: text := by
  have suffix : text.reverse.dropWhile isBlank <:+ text.reverse := List.dropWhile_suffix isBlank
  unfold trimEnd
  rw [← List.reverse_suffix, List.reverse_reverse]
  exact suffix

/-- A trimmed text has no blank at either end. -/
theorem edged_trim (text : List Char) : Edged (trim text) where
  first character member := by
    apply first_trimStart text
    obtain ⟨rest, whole⟩ := trimEnd_isPrefix (trimStart text)
    have found : (trimEnd (trimStart text)).head? = some character := member
    rw [← whole, List.head?_append, found]
    rfl
  last := last_trimEnd (trimStart text)

theorem trim_of_edged {text : List Char} (edged : Edged text) : trim text = text := by
  rw [trim, trimStart_of_first edged.first, trimEnd_of_last edged.last]

/-- Trimming the end of a text does not go beyond a part of it that ends without a blank. -/
theorem trimEnd_append_of_edged
    {text : List Char}
    (edged : Edged text)
    (after : List Char) :
    trimEnd (text ++ after) = text ++ trimEnd after := by
  have kept : text.reverse.dropWhile isBlank = text.reverse := by
    apply trimStart_of_first
    rw [List.head?_reverse]
    exact edged.last
  unfold trimEnd
  rw [List.reverse_append, List.dropWhile_append]
  split
  · rename_i nothing
    rw [kept, List.isEmpty_iff.mp nothing, List.reverse_reverse, List.reverse_nil, List.append_nil]
  · rw [List.reverse_append, List.reverse_reverse]

theorem trim_append_of_edged
    {before text : List Char}
    (beforeBlank : Blank before)
    (edged : Edged text)
    (notEmpty : text ≠ [])
    (after : List Char) :
    trim (before ++ (text ++ after)) = text ++ trimEnd after := by
  have started : trimStart (text ++ after) = text ++ after := by
    apply trimStart_of_first
    obtain ⟨first, others, rfl⟩ := List.exists_cons_of_ne_nil notEmpty
    exact edged.first
  rw [trim, trimStart_append_of_blank beforeBlank, started,
    trimEnd_append_of_edged edged]

/-- What is left of a text when its end is trimmed starts as the text does. -/
theorem head_trimEnd (text : List Char) :
    ∀ character ∈ (trimEnd text).head?, character ∈ text.head? := by
  intro character member
  obtain ⟨rest, whole⟩ := trimEnd_isPrefix text
  rw [← whole, List.head?_append, Option.mem_def.mp member]
  rfl

theorem blank_takeWhile (text : List Char) : Blank (text.takeWhile isBlank) :=
  fun _ => List.mem_takeWhile_imp

theorem exists_append_trimEnd (text : List Char) :
    ∃ after, Blank after ∧ text = trimEnd text ++ after := by
  refine ⟨(text.reverse.takeWhile isBlank).reverse, ?_, ?_⟩
  · intro character member
    exact blank_takeWhile text.reverse character (List.mem_reverse.mp member)
  · rw [trimEnd, ← List.reverse_append, List.takeWhile_append_dropWhile, List.reverse_reverse]

/-- A text is its trimmed form between blanks. -/
theorem exists_surrounded_trim (text : List Char) :
    ∃ before after, Blank before ∧ Blank after ∧ text = before ++ trim text ++ after := by
  obtain ⟨after, afterBlank, whole⟩ := exists_append_trimEnd (trimStart text)
  refine ⟨text.takeWhile isBlank, after, blank_takeWhile text, afterBlank, ?_⟩
  rw [List.append_assoc, trim, ← whole]
  exact List.takeWhile_append_dropWhile.symm

/-- Trimming the end of a text that is not blank leaves what stands in front of it. -/
theorem exists_trimEnd_append
    {text : List Char}
    (notBlank : trim text ≠ [])
    (front : List Char) :
    ∃ before, Blank before ∧ trimEnd (front ++ text) = front ++ (before ++ trim text) := by
  obtain ⟨before, after, beforeBlank, afterBlank, whole⟩ := exists_surrounded_trim text
  have ended : ∀ character ∈ (front ++ (before ++ trim text)).getLast?,
      isBlank character = false := by
    rw [← List.append_assoc, List.getLast?_append_of_ne_nil _ notBlank]
    exact (edged_trim text).last
  have regrouped : front ++ text = front ++ (before ++ trim text) ++ after :=
    (congrArg (front ++ ·) whole).trans (List.append_assoc _ _ _).symm
  refine ⟨before, beforeBlank, ?_⟩
  rw [regrouped, trimEnd_append_of_blank _ afterBlank, trimEnd_of_last ended]

/-! ## Splitting -/

/-- A run of characters of a class ends at the first one outside the class. -/
theorem span_append
    {keep : Char → Bool}
    {word rest : List Char}
    (inside : ∀ character ∈ word, keep character = true)
    (ended : ∀ character ∈ rest.head?, keep character = false) :
    (word ++ rest).span keep = (word, rest) := by
  rw [List.span_eq_takeWhile_dropWhile, List.takeWhile_append_of_pos inside,
    List.dropWhile_append_of_pos inside]
  cases rest with
  | nil => simp
  | cons character others => simp [ended character rfl]

/-- The first word ends at the first blank behind it. -/
theorem splitWord_append
    {gap word rest : List Char}
    (gapBlank : Blank gap)
    (solid : Solid word)
    (notEmpty : word ≠ [])
    (ended : ∀ character ∈ rest.head?, isBlank character = true) :
    splitWord (gap ++ (word ++ rest)) = (word, rest) := by
  have started : trimStart (word ++ rest) = word ++ rest := by
    apply trimStart_of_first
    intro character member
    obtain ⟨first, others, rfl⟩ := List.exists_cons_of_ne_nil notEmpty
    rw [← Option.some.inj member]
    exact solid first List.mem_cons_self
  unfold splitWord
  rw [trimStart_append_of_blank gapBlank, started]
  apply span_append
  · intro character member
    rw [solid character member]
    rfl
  · intro character member
    rw [ended character member]
    rfl

/-- A text that starts with a word is that word and what follows it. -/
theorem splitWord_of_first
    {text : List Char}
    (first : ∀ character ∈ text.head?, isBlank character = false) :
    text = (splitWord text).1 ++ (splitWord text).2 ∧ Solid (splitWord text).1 ∧
      ∀ character ∈ (splitWord text).2.head?, isBlank character = true := by
  rw [splitWord, trimStart_of_first first, List.span_eq_takeWhile_dropWhile]
  refine ⟨List.takeWhile_append_dropWhile.symm, ?_, ?_⟩
  · intro character member
    simpa using List.mem_takeWhile_imp member
  · intro character member
    have ended := List.head?_dropWhile_not (fun character => !isBlank character) text
    rw [Option.mem_def.mp member] at ended
    simpa using ended

/-- Blanks in front of the first word do not matter. -/
theorem splitWord_trimStart (text : List Char) : splitWord (trimStart text) = splitWord text := by
  rw [splitWord, splitWord, trimStart_of_first (first_trimStart text)]

theorem splitAtChar_of_notMem {separator : Char} {text : List Char} (absent : separator ∉ text) :
    splitAtChar separator text = [text] := by
  induction text with
  | nil => rfl
  | cons character rest inductionHypothesis =>
      have different : character ≠ separator := fun same => absent (same ▸ List.mem_cons_self)
      have restAbsent : separator ∉ rest := fun later => absent (List.mem_cons_of_mem _ later)
      rw [splitAtChar, if_neg different, inductionHypothesis restAbsent]
      rfl

theorem splitAtChar_append_cons
    {separator : Char}
    {text : List Char}
    (absent : separator ∉ text)
    (rest : List Char) :
    splitAtChar separator (text ++ separator :: rest) = text :: splitAtChar separator rest := by
  induction text with
  | nil => simp [splitAtChar]
  | cons character others inductionHypothesis =>
      have different : character ≠ separator := fun same => absent (same ▸ List.mem_cons_self)
      have othersAbsent : separator ∉ others := fun later => absent (List.mem_cons_of_mem _ later)
      rw [List.cons_append, splitAtChar, if_neg different, inductionHypothesis othersAbsent]
      rfl

/-- A text has no separator, or it goes on behind the first one. -/
@[elab_as_elim]
theorem separated_induction
    (separator : Char)
    {motive : List Char → Prop}
    (last : ∀ text, separator ∉ text → motive text)
    (more : ∀ text rest, separator ∉ text → motive rest → motive (text ++ separator :: rest))
    (text : List Char) :
    motive text := by
  induction size : text.length using Nat.strongRecOn generalizing text with
  | _ length inductionHypothesis =>
      by_cases inside : separator ∈ text
      · obtain ⟨front, rest, rfl, absent⟩ := List.eq_append_cons_of_mem inside
        refine more front rest absent (inductionHypothesis rest.length ?_ rest rfl)
        rw [← size, List.length_append, List.length_cons]
        omega
      · exact last text inside

/-! ## Lines -/

/-- The text of these lines, each of them ended by a line feed. -/
def unlines (lines : List (List Char)) : List Char :=
  lines.flatMap fun line => line ++ ['\n']

/-- A line without the carriage return that may end it. -/
def withoutReturn (line : List Char) : List Char :=
  if line.getLast? = some '\r' then line.dropLast else line

theorem withoutReturn_append (text : List Char) {line : List Char} (notEmpty : line ≠ []) :
    withoutReturn (text ++ line) = text ++ withoutReturn line := by
  unfold withoutReturn
  rw [List.getLast?_append_of_ne_nil text notEmpty, List.dropLast_append_of_ne_nil notEmpty]
  split
  · rfl
  · rfl

/-- The carriage return at the end of a line is trimmed away with the blanks. -/
theorem trim_withoutReturn (line : List Char) : trim (withoutReturn line) = trim line := by
  unfold withoutReturn
  split
  · rename_i isReturn
    obtain ⟨front, rfl⟩ := List.getLast?_eq_some_iff.mp isReturn
    have blank : Blank ['\r'] := by
      intro character member
      rw [List.mem_singleton.mp member]
      decide
    rw [List.dropLast_concat, trim_append_of_blank front blank]
  · rfl

theorem lines_cons
    {character : Char}
    {rest : List Char}
    (notEnd : character ≠ '\n')
    (notReturn : character = '\r' → rest.head? ≠ some '\n') :
    lines (character :: rest) = consLine character (lines rest) := by
  rw [lines]
  · intro others isReturn same
    exact notReturn isReturn (by rw [same]; rfl)
  · exact notEnd

/-- The first line feed of a text ends its first line. -/
theorem lines_append_cons {line : List Char} (inside : '\n' ∉ line) (rest : List Char) :
    lines (line ++ '\n' :: rest) = withoutReturn line :: lines rest := by
  induction line with
  | nil => rfl
  | cons character others inductionHypothesis =>
      have notEnd : character ≠ '\n' := fun same => inside (same ▸ List.mem_cons_self)
      have othersInside : '\n' ∉ others := fun later => inside (List.mem_cons_of_mem _ later)
      cases others with
      | nil =>
          by_cases isReturn : character = '\r'
          · subst isReturn
            rfl
          · have notReturn : character = '\r' → ('\n' :: rest).head? ≠ some '\n' :=
              fun same => absurd same isReturn
            rw [List.cons_append, List.nil_append, lines_cons notEnd notReturn]
            simp [withoutReturn, isReturn, lines, consLine]
      | cons next others =>
          have different : next ≠ '\n' := fun same => othersInside (same ▸ List.mem_cons_self)
          rw [List.cons_append, lines_cons notEnd (fun _ => by simpa using different),
            inductionHypothesis othersInside]
          by_cases isReturn : (next :: others).getLast? = some '\r'
          · simp [withoutReturn, isReturn, consLine]
          · simp [withoutReturn, isReturn, consLine]

theorem lines_unlines (texts : List (List Char)) (inside : ∀ line ∈ texts, '\n' ∉ line) :
    lines (unlines texts) = texts.map withoutReturn := by
  induction texts with
  | nil => rfl
  | cons line rest inductionHypothesis =>
      have restInside : ∀ other ∈ rest, '\n' ∉ other := fun other member =>
        inside other (List.mem_cons_of_mem line member)
      have unfolded : unlines (line :: rest) = line ++ '\n' :: unlines rest := by
        simp [unlines]
      rw [unfolded, lines_append_cons (inside line List.mem_cons_self),
        inductionHypothesis restInside, List.map_cons]

/-- A last line that is not ended is a line all the same, unless it is empty. -/
theorem lines_of_notMem {line : List Char} (inside : '\n' ∉ line) (notEmpty : line ≠ []) :
    lines line = [line] := by
  induction line with
  | nil => contradiction
  | cons character rest inductionHypothesis =>
      have notEnd : character ≠ '\n' := fun same => inside (same ▸ List.mem_cons_self)
      have restInside : '\n' ∉ rest := fun later => inside (List.mem_cons_of_mem _ later)
      have notReturn : character = '\r' → rest.head? ≠ some '\n' := fun _ isEnd =>
        restInside (List.mem_of_head? isEnd)
      rw [lines_cons notEnd notReturn]
      cases rest with
      | nil => rfl
      | cons next others =>
          rw [inductionHypothesis restInside (by simp)]
          rfl

/-- The line feed behind the last line may be left out, as long as that line does not end in a
carriage return. -/
theorem lines_unlines_append
    {texts : List (List Char)}
    (inside : ∀ line ∈ texts, '\n' ∉ line)
    {last : List Char}
    (lastInside : '\n' ∉ last)
    (notEmpty : last ≠ [])
    (noReturn : last.getLast? ≠ some '\r') :
    lines (unlines texts ++ last) = lines (unlines (texts ++ [last])) := by
  induction texts with
  | nil =>
      show lines last = lines (last ++ ['\n'] ++ [])
      rw [lines_of_notMem lastInside notEmpty, List.append_nil, lines_append_cons lastInside,
        withoutReturn, if_neg noReturn]
      rfl
  | cons line rest inductionHypothesis =>
      have restInside : ∀ other ∈ rest, '\n' ∉ other := fun other member =>
        inside other (List.mem_cons_of_mem line member)
      have ended (others : List (List Char)) :
          unlines (line :: others) = line ++ '\n' :: unlines others := by
        simp [unlines]
      rw [List.cons_append, ended, ended, List.append_assoc, List.cons_append,
        lines_append_cons (inside line List.mem_cons_self),
        lines_append_cons (inside line List.mem_cons_self), inductionHypothesis restInside]

/-- No line holds a line feed. -/
theorem lineFeed_notMem_of_mem_lines {text line : List Char} (member : line ∈ lines text) :
    '\n' ∉ line := by
  fun_induction lines text generalizing line with
  | case1 => contradiction
  | case2 rest inductionHypothesis =>
      rcases List.mem_cons.mp member with rfl | later
      · exact List.not_mem_nil
      · exact inductionHypothesis later
  | case3 rest inductionHypothesis =>
      rcases List.mem_cons.mp member with rfl | later
      · exact List.not_mem_nil
      · exact inductionHypothesis later
  | case4 character rest notReturn notEnd inductionHypothesis =>
      have different : '\n' ≠ character := fun same => notEnd same.symm
      cases first : lines rest with
      | nil =>
          rw [first] at member
          rw [List.mem_singleton.mp member]
          simpa using different
      | cons front others =>
          rw [first] at member inductionHypothesis
          rcases List.mem_cons.mp member with rfl | later
          · simpa [different] using inductionHypothesis List.mem_cons_self
          · exact inductionHypothesis (List.mem_cons_of_mem front later)

/-! ## Numerals and capitals -/

theorem signed?_toInt (word : Int64) : Word.signed? word.toInt = some word := by
  have least := word.minValue_le_toInt
  have greatest := word.toInt_le
  unfold Word.signed?
  rw [if_pos ⟨by omega, by omega⟩, Int64.ofInt_toInt]

theorem readSigned?_of_unsigned
    {text : List Char}
    (unsigned : ∀ character ∈ text.head?, character ≠ '-' ∧ character ≠ '+') :
    readSigned? text = (ofDigits? text).bind fun value => Word.signed? value := by
  rw [readSigned?]
  · intro digits same
    subst same
    exact (unsigned '-' rfl).1 rfl
  · intro digits same
    subst same
    exact (unsigned '+' rfl).2 rfl

theorem isDigit_of_mem_decimal {number : Nat} {character : Char}
    (member : character ∈ decimal number) :
    character.isDigit = true :=
  Nat.isDigit_of_mem_toDigits (by decide) (by decide) member

/-- A word in decimal reads back as the word. -/
theorem readSigned?_signedDecimal (word : Int64) :
    readSigned? (signedDecimal word) = some word := by
  unfold signedDecimal
  split
  · have magnitude : -(word.toInt.natAbs : Int) = word.toInt := by omega
    simp only [readSigned?, ofDigits?_decimal, Option.bind_some, magnitude, signed?_toInt]
  · have magnitude : (word.toInt.natAbs : Int) = word.toInt := by omega
    rw [readSigned?_of_unsigned, ofDigits?_decimal, Option.bind_some, magnitude, signed?_toInt]
    intro character member
    have digit := isDigit_of_mem_decimal (List.mem_of_head? member)
    constructor
    · intro same
      subst same
      exact absurd digit (by decide)
    · intro same
      subst same
      exact absurd digit (by decide)

theorem upper_of_ascii {text : List Char} (ascii : ∀ character ∈ text, character.toNat < 0x80) :
    upper text = text.map Char.toUpper := by
  induction text with
  | nil => rfl
  | cons character rest inductionHypothesis =>
      have restAscii : ∀ other ∈ rest, other.toNat < 0x80 := fun other member =>
        ascii other (List.mem_cons_of_mem character member)
      have first : upperChar character = [character.toUpper] :=
        if_pos (ascii character List.mem_cons_self)
      unfold upper at inductionHypothesis ⊢
      rw [List.flatMap_cons, first, inductionHypothesis restAscii]
      rfl

theorem toNat_ofNat_of_valid {code : Nat} (valid : code.isValidChar) :
    (Char.ofNat code).toNat = code := by
  rw [Char.ofNat, dif_pos valid]
  rfl

/-- The capital of a letter beyond ASCII is beyond ASCII too, or has an `F`, an `I` or an `S` in it:
there are ligatures, the letter `ß`, the dotless `ı` and the long `ſ`. -/
theorem exists_mem_upperChar_of_beyond {character : Char} (beyond : 0x80 ≤ character.toNat) :
    ∃ capital ∈ upperChar character, 0x80 ≤ capital.toNat ∨ capital ∈ ['F', 'I', 'S'] := by
  have moved : ∀ run ∈ caseRuns,
      (0x80 ≤ run.first + run.shift ∧
        (run.last + run.shift < 0xD800 ∨
          0xDFFF < run.first + run.shift ∧ run.last + run.shift < 0x110000)) ∨
      run.first = run.last ∧ Char.ofNat (run.first + run.shift).toNat ∈ ['F', 'I', 'S'] := by
    decide +kernel
  have expanded : ∀ entry ∈ expandedCapitals, ∃ code ∈ entry.2,
      0x80 ≤ (Char.ofNat code).toNat ∨ Char.ofNat code ∈ ['F', 'I', 'S'] := by
    decide +kernel
  unfold upperChar
  rw [if_neg (by omega)]
  cases found : caseRuns.find? fun run => run.covers character.toNat with
  | some run =>
      refine ⟨_, List.mem_singleton_self _, ?_⟩
      have covers := List.find?_some found
      simp only [CaseRun.covers, Bool.and_eq_true, decide_eq_true_eq] at covers
      obtain ⟨⟨fromFirst, toLast⟩, _⟩ := covers
      rcases moved run (List.mem_of_find?_eq_some found) with ⟨low, high⟩ | ⟨single, ascii⟩
      · have valid : (character.toNat + run.shift).toNat.isValidChar := by
          unfold Nat.isValidChar
          omega
        rw [toNat_ofNat_of_valid valid]
        omega
      · have same : character.toNat = run.first := by omega
        rw [same]
        exact Or.inr ascii
  | none =>
      cases listed : expandedCapitals.lookup character.toNat with
      | some capitals =>
          have member : (character.toNat, capitals) ∈ expandedCapitals := by
            obtain ⟨before, after, split, _⟩ := List.lookup_eq_some_iff.mp listed
            rw [split]
            exact List.mem_append_right before List.mem_cons_self
          obtain ⟨code, inside, foreign⟩ := expanded _ member
          exact ⟨_, List.mem_map_of_mem inside, foreign⟩
      | none => exact ⟨character, List.mem_singleton_self _, Or.inl beyond⟩

/-- A text whose capitals are ASCII letters other than those three is in ASCII. -/
theorem ascii_of_upper
    {text : List Char}
    (plain : ∀ capital ∈ upper text, capital.toNat < 0x80 ∧ capital ∉ ['F', 'I', 'S']) :
    ∀ character ∈ text, character.toNat < 0x80 := by
  intro character member
  by_contra beyond
  obtain ⟨capital, inside, foreign⟩ := exists_mem_upperChar_of_beyond (Nat.le_of_not_lt beyond)
  obtain ⟨ascii, other⟩ := plain capital (List.mem_flatMap.mpr ⟨character, member, inside⟩)
  rcases foreign with foreign | foreign
  · omega
  · exact other foreign
end CoreWar.Text
