import CoreWar.Proofs.Assembly.Stages
import CoreWar.Proofs.Text.Words

/-!
Contract: what the lines of a source declare.

Owns:
- how a line is written that declares something, with or without a parameter;
- the last declaration of a kind, which is the one that counts;
- the header of lines that are read one part after the other.

Does not own: what a header must declare, see `CoreWar.Proofs.Assembly.Judgement`.
-/

namespace CoreWar.Assembly

/-! ## Lines that declare -/

/-- The line is a comment that starts with this word, behind blanks on either side of the semicolon.
The word goes on as far as it can, and `rest` is what follows it. -/
inductive CommentStarts : List Char → List Char → List Char → Prop where
  | line
      {indent gap word rest : List Char}
      (indentBlank : Text.Blank indent)
      (gapBlank : Text.Blank gap)
      (first : ∀ character ∈ (word ++ rest).head?, Text.isBlank character = false)
      (inside : ∀ character ∈ word, Directive.isWordChar character = true)
      (ended : ∀ character ∈ rest.head?, Directive.isWordChar character = false) :
      CommentStarts (indent ++ ';' :: (gap ++ (word ++ rest))) word rest

/-- What follows the word of a directive gives this parameter: the text between the blanks around
it, if it is set off from the word and not empty. -/
inductive Parameter : List Char → Option String → Prop where
  | given
      {gap text trailing : List Char}
      (gapBlank : Text.Blank gap)
      (setOff : gap ≠ [])
      (edged : Text.Edged text)
      (notEmpty : text ≠ [])
      (trailingBlank : Text.Blank trailing) :
      Parameter (gap ++ text ++ trailing) (some (String.ofList text))
  | empty {rest : List Char} (blank : Text.Blank rest) : Parameter rest none
  | attached
      {first : Char}
      {rest : List Char}
      (notBlank : Text.isBlank first = false) :
      Parameter (first :: rest) none

/-- The line declares this. The case of the word does not matter. -/
inductive Declares (line : List Char) : Directive → Prop where
  | marker
      {word rest : List Char}
      (starts : CommentStarts line word rest)
      (spelled : word.map Char.toLower = "redcode".toList) :
      Declares line .marker
  | name
      {word rest : List Char}
      {value : Option String}
      (starts : CommentStarts line word rest)
      (spelled : word.map Char.toLower = "name".toList)
      (parameter : Parameter rest value) :
      Declares line (.name value)
  | assertion
      {word rest : List Char}
      {value : Option String}
      (starts : CommentStarts line word rest)
      (spelled : word.map Char.toLower = "assert".toList)
      (parameter : Parameter rest value) :
      Declares line (.assertion value)

theorem parameter?_of_parameter {rest : List Char} {value : Option String}
    (parameter : Parameter rest value) :
    Directive.parameter? rest = value := by
  cases parameter with
  | @given gap text trailing gapBlank setOff edged notEmpty trailingBlank =>
      obtain ⟨first, others, rfl⟩ := List.exists_cons_of_ne_nil setOff
      have trimmed := Text.trim_surrounded gapBlank edged trailingBlank
      have firstBlank : Text.isBlank first = true := gapBlank first List.mem_cons_self
      rw [List.cons_append, List.cons_append] at trimmed ⊢
      generalize others ++ text ++ trailing = behind at trimmed ⊢
      simp [Directive.parameter?, trimmed, firstBlank, notEmpty]
  | empty blank =>
      cases rest with
      | nil => rfl
      | cons first others => simp [Directive.parameter?, Text.trim_of_blank blank]
  | attached notBlank => simp [Directive.parameter?, notBlank]

theorem parameter_parameter? (rest : List Char) : Parameter rest (Directive.parameter? rest) := by
  cases rest with
  | nil => exact .empty (by simp [Text.Blank])
  | cons first others =>
      by_cases firstBlank : Text.isBlank first = true
      · obtain ⟨before, after, beforeBlank, afterBlank, whole⟩ :=
          Text.exists_surrounded_trim (first :: others)
        by_cases nothing : Text.trim (first :: others) = []
        · have blank : Text.Blank (first :: others) := by
            rw [whole, nothing, List.append_nil]
            exact fun character member =>
              (List.mem_append.mp member).elim (beforeBlank character) (afterBlank character)
          rw [parameter?_of_parameter (.empty blank)]
          exact .empty blank
        · have edged := Text.edged_trim (first :: others)
          have setOff : before ≠ [] := by
            rintro rfl
            obtain ⟨other, text, trimmed⟩ := List.exists_cons_of_ne_nil nothing
            rw [trimmed] at whole edged
            obtain rfl : first = other := (List.cons.inj whole).1
            exact absurd firstBlank (by simp [edged.first first rfl])
          have given := Parameter.given beforeBlank setOff edged nothing afterBlank
          rw [← whole] at given
          rw [parameter?_of_parameter given]
          exact given
      · have attached : Parameter (first :: others) none := .attached (by simpa using firstBlank)
        rw [parameter?_of_parameter attached]
        exact attached

/-- The directive of a comment is that of the word it starts with. -/
theorem ofLine?_of_starts {line word rest : List Char} (starts : CommentStarts line word rest) :
    Directive.ofLine? line = Directive.ofWord? word rest := by
  cases starts with
  | @line indent gap word rest indentBlank gapBlank first inside ended =>
      have comment : Text.trimStart (indent ++ ';' :: (gap ++ (word ++ rest))) =
          ';' :: (gap ++ (word ++ rest)) :=
        (Text.trimStart_append_of_blank indentBlank _).trans
          (Text.trimStart_of_first (by rintro character ⟨⟩; decide))
      have started : Text.trimStart (gap ++ (word ++ rest)) = word ++ rest :=
        (Text.trimStart_append_of_blank gapBlank _).trans (Text.trimStart_of_first first)
      simp only [Directive.ofLine?, comment, started, Text.span_append inside ended]

/-- A line with a directive is a comment. -/
theorem exists_starts_of_ofLine? {line : List Char} {directive : Directive}
    (found : Directive.ofLine? line = some directive) :
    ∃ word rest, CommentStarts line word rest := by
  unfold Directive.ofLine? at found
  split at found
  · rename_i comment isComment
    let started := Text.trimStart comment
    have whole : line = line.takeWhile Text.isBlank ++ ';' :: (comment.takeWhile Text.isBlank ++
        (started.takeWhile Directive.isWordChar ++ started.dropWhile Directive.isWordChar)) := by
      have commentParts : comment.takeWhile Text.isBlank ++ started = comment :=
        List.takeWhile_append_dropWhile
      rw [List.takeWhile_append_dropWhile, commentParts, ← isComment]
      exact List.takeWhile_append_dropWhile.symm
    rw [whole]
    refine ⟨_, _, .line (Text.blank_takeWhile line) (Text.blank_takeWhile comment) ?_ ?_ ?_⟩
    · rw [List.takeWhile_append_dropWhile]
      exact Text.first_trimStart comment
    · exact fun _ => List.mem_takeWhile_imp
    · intro character member
      have first := List.head?_dropWhile_not Directive.isWordChar started
      rw [Option.mem_def.mp member] at first
      exact first
  · contradiction

theorem declares_of_ofWord?
    {line word rest : List Char}
    {directive : Directive}
    (starts : CommentStarts line word rest)
    (found : Directive.ofWord? word rest = some directive) :
    Declares line directive := by
  unfold Directive.ofWord? at found
  simp only at found
  split at found
  · rename_i spelled
    cases found
    exact .marker starts spelled
  · split at found
    · rename_i spelled
      cases found
      exact .name starts spelled (parameter_parameter? rest)
    · split at found
      · rename_i spelled
        cases found
        exact .assertion starts spelled (parameter_parameter? rest)
      · contradiction

theorem ofLine?_eq_some_iff {line : List Char} {directive : Directive} :
    Directive.ofLine? line = some directive ↔ Declares line directive := by
  constructor
  · intro found
    obtain ⟨word, rest, starts⟩ := exists_starts_of_ofLine? found
    rw [ofLine?_of_starts starts] at found
    exact declares_of_ofWord? starts found
  · intro declares
    cases declares with
    | marker starts spelled =>
        rw [ofLine?_of_starts starts, Directive.ofWord?, spelled]
        rfl
    | name starts spelled parameter =>
        rw [ofLine?_of_starts starts, Directive.ofWord?, spelled,
          parameter?_of_parameter parameter]
        rfl
    | assertion starts spelled parameter =>
        rw [ofLine?_of_starts starts, Directive.ofWord?, spelled,
          parameter?_of_parameter parameter]
        rfl

/-! ## The last declaration -/

/-- The kinds of directives that have a parameter, each made from it. -/
abbrev Kind := Option String → Directive

/-- The last of the lines that declares something of this kind declares this value. -/
def LastDeclares (lines : List (List Char)) (kind : Kind) (value : Option String) : Prop :=
  ∃ above line below, lines = above ++ line :: below ∧ Declares line (kind value) ∧
    ∀ other ∈ below, ∀ later, ¬Declares other (kind later)

/-- Some line marks the text as a source. -/
def Marked (lines : List (List Char)) : Prop :=
  ∃ line ∈ lines, Declares line .marker

/-- Some line of the kind is the last one, unless there is none. -/
theorem exists_last_or_silent (lines : List (List Char)) (kind : Kind) :
    (∃ value, LastDeclares lines kind value) ∨
      ∀ line ∈ lines, ∀ value, ¬Declares line (kind value) := by
  induction lines with
  | nil => exact Or.inr (by simp)
  | cons line rest inductionHypothesis =>
      rcases inductionHypothesis with ⟨value, above, other, below, rfl, declares, later⟩ | silent
      · exact Or.inl ⟨value, line :: above, other, below, rfl, declares, later⟩
      · by_cases here : ∃ value, Declares line (kind value)
        · obtain ⟨value, declares⟩ := here
          exact Or.inl ⟨value, [], line, rest, rfl, declares, silent⟩
        · exact Or.inr (List.forall_mem_cons.mpr ⟨not_exists.mp here, silent⟩)

/-- A field of the header that records the directives of one kind, each in place of the one before
it. -/
structure Records (field : Header → Option String) (kind : Kind) : Prop where
  set : ∀ (header : Header) value, field (header.declare (kind value)) = value
  keep : ∀ (header : Header) directive, (∀ value, directive ≠ kind value) →
    field (header.declare directive) = field header

theorem records_name : Records Header.name .name where
  set header value := rfl
  keep header directive other := by
    cases directive with
    | name value => exact absurd rfl (other value)
    | _ => rfl

theorem records_assertion : Records Header.assertion .assertion where
  set header value := rfl
  keep header directive other := by
    cases directive with
    | assertion value => exact absurd rfl (other value)
    | _ => rfl

namespace Header

theorem scanFrom_append (header : Header) (above below : List (List Char)) :
    header.scanFrom (above ++ below) = (header.scanFrom above).scanFrom below := by
  simp [scanFrom, List.filterMap_append, List.foldl_append]

theorem scan_append (above below : List (List Char)) :
    scan (above ++ below) = (scan above).scanFrom below :=
  scanFrom_append {} above below

theorem scanFrom_cons_of_declares
    (header : Header)
    {line : List Char}
    {directive : Directive}
    (declares : Declares line directive)
    (rest : List (List Char)) :
    header.scanFrom (line :: rest) = (header.declare directive).scanFrom rest := by
  simp [scanFrom, ofLine?_eq_some_iff.mpr declares]

/-- A line is skipped, or declares one thing. -/
theorem scanFrom_cons_cases (header : Header) (line : List Char) (rest : List (List Char)) :
    ((∀ directive, ¬Declares line directive) ∧
      header.scanFrom (line :: rest) = header.scanFrom rest) ∨
    ∃ directive, Declares line directive ∧
      header.scanFrom (line :: rest) = (header.declare directive).scanFrom rest := by
  cases found : Directive.ofLine? line with
  | none =>
      refine Or.inl ⟨fun directive declares => ?_, by simp [scanFrom, found]⟩
      rw [ofLine?_eq_some_iff.mpr declares] at found
      contradiction
  | some directive =>
      have declares := ofLine?_eq_some_iff.mp found
      exact Or.inr ⟨directive, declares, header.scanFrom_cons_of_declares declares rest⟩

section Recording

variable {field : Header → Option String} {kind : Kind} (records : Records field kind)
include records

/-- Lines that declare nothing of the kind leave its field as it was. -/
theorem field_scanFrom_of_silent
    {lines : List (List Char)}
    (silent : ∀ line ∈ lines, ∀ value, ¬Declares line (kind value))
    (header : Header) :
    field (header.scanFrom lines) = field header := by
  induction lines generalizing header with
  | nil => rfl
  | cons line rest inductionHypothesis =>
      have restSilent : ∀ other ∈ rest, ∀ value, ¬Declares other (kind value) :=
        fun other member => silent other (List.mem_cons_of_mem line member)
      rcases header.scanFrom_cons_cases line rest with ⟨_, skipped⟩ | ⟨directive, declares, taken⟩
      · rw [skipped, inductionHypothesis restSilent]
      · rw [taken, inductionHypothesis restSilent, records.keep]
        rintro value rfl
        exact silent line List.mem_cons_self value declares

theorem field_scanFrom_of_last
    {lines : List (List Char)}
    {value : Option String}
    (last : LastDeclares lines kind value)
    (header : Header) :
    field (header.scanFrom lines) = value := by
  obtain ⟨above, line, below, rfl, declares, silent⟩ := last
  rw [scanFrom_append, scanFrom_cons_of_declares _ declares,
    field_scanFrom_of_silent records silent, records.set]

/-- The field of a source holds a text when the last line of the kind gives it. -/
theorem field_scan_eq_some_iff
    (unset : field {} = none)
    (lines : List (List Char))
    (text : String) :
    field (scan lines) = some text ↔ LastDeclares lines kind (some text) := by
  constructor
  · intro found
    rcases exists_last_or_silent lines kind with ⟨value, last⟩ | silent
    · have same : value = some text :=
        (field_scanFrom_of_last records last {}).symm.trans found
      exact same ▸ last
    · have nothing : field (scan lines) = none :=
        (field_scanFrom_of_silent records silent {}).trans unset
      rw [nothing] at found
      contradiction
  · intro last
    exact field_scanFrom_of_last records last {}

end Recording

theorem marked_scanFrom (header : Header) (lines : List (List Char)) :
    (header.scanFrom lines).marked = true ↔ header.marked = true ∨ Marked lines := by
  induction lines generalizing header with
  | nil => simp [scanFrom, Marked]
  | cons line rest inductionHypothesis =>
      have split : Marked (line :: rest) ↔ Declares line .marker ∨ Marked rest := by
        simp [Marked]
      rcases header.scanFrom_cons_cases line rest with ⟨nothing, skipped⟩ |
        ⟨directive, declares, taken⟩
      · rw [skipped, inductionHypothesis, split, or_iff_right (nothing .marker)]
      · have only {other : Directive} (also : Declares line other) : other = directive :=
          Option.some.inj
            ((ofLine?_eq_some_iff.mpr also).symm.trans (ofLine?_eq_some_iff.mpr declares))
        rw [taken, inductionHypothesis, split]
        cases directive with
        | marker => simp [declare, declares]
        | name value =>
            have notMarker : ¬Declares line .marker := fun also => by cases only also
            simp [declare, notMarker]
        | assertion value =>
            have notMarker : ¬Declares line .marker := fun also => by cases only also
            simp [declare, notMarker]

theorem marked_scan_iff (lines : List (List Char)) :
    (scan lines).marked = true ↔ Marked lines := by
  rw [scan, marked_scanFrom]
  simp

theorem name_scan_eq_some_iff (lines : List (List Char)) (text : String) :
    (scan lines).name = some text ↔ LastDeclares lines .name (some text) :=
  field_scan_eq_some_iff records_name rfl lines text

theorem assertion_scan_eq_some_iff (lines : List (List Char)) (text : String) :
    (scan lines).assertion = some text ↔ LastDeclares lines .assertion (some text) :=
  field_scan_eq_some_iff records_assertion rfl lines text

end Header

end CoreWar.Assembly
