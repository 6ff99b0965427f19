import CoreWar.Proofs.Assembly.Items

/-!
Contract: where reading stops, and that nothing behind that line is read.

Owns:
- the draft with which reading goes on behind a line, and the line where it does not;
- the lines that end a source;
- that a source may have any lines behind the one where its reading stops.

Does not own: the header, which is scanned from all lines, see
`CoreWar.Proofs.Assembly.Directives`.
-/

namespace CoreWar.Assembly

namespace Draft

/-! ## Going on and stopping -/

/-- The draft with which reading goes on behind the line, unless the line ends the source or is at
fault. -/
def goOn? (draft : Draft) (number : Nat) (line : List Char) : Option Draft :=
  match Statement.ofLine line with
  | .error _ => none
  | .ok .finish => none
  | .ok statement => (draft.add number statement).toOption

/-- The number of the line where reading stops, if it does not go through all lines. -/
def stopFrom (draft : Draft) (number : Nat) : List (List Char) → Option Nat
  | [] => none
  | line :: rest =>
    match draft.goOn? number line with
    | none => some number
    | some next => next.stopFrom (number + 1) rest

/-- Where reading a source stops. -/
def stop? (lines : List (List Char)) : Option Nat :=
  stopFrom {} 1 lines

/-- Reading goes through these lines, the first of which has this number. -/
inductive Passes : Draft → Nat → List (List Char) → Draft → Prop where
  | nothing (draft : Draft) (number : Nat) : Passes draft number [] draft
  | line
      {draft next last : Draft}
      {number : Nat}
      {line : List Char}
      {rest : List (List Char)}
      (goesOn : draft.goOn? number line = some next)
      (later : Passes next (number + 1) rest last) :
      Passes draft number (line :: rest) last

section OneLine

variable {draft next : Draft} {number : Nat} {line : List Char}

theorem goOn?_eq_some_iff :
    draft.goOn? number line = some next ↔
      ∃ statement, Statement.ofLine line = .ok statement ∧ statement ≠ .finish ∧
        draft.add number statement = .ok next := by
  have toOption (outcome : Except Error Draft) :
      outcome.toOption = some next ↔ outcome = .ok next := by
    cases outcome with
    | error error => simp [Except.toOption]
    | ok other => simp [Except.toOption]
  unfold goOn?
  cases said : Statement.ofLine line with
  | error fault => simp
  | ok statement =>
      cases statement with
      | finish => simp
      | _ => simp [toOption]

theorem readFrom_of_goOn?
    (goesOn : draft.goOn? number line = some next)
    (rest : List (List Char)) :
    draft.readFrom number (line :: rest) = next.readFrom (number + 1) rest := by
  obtain ⟨statement, said, notFinish, added⟩ := goOn?_eq_some_iff.mp goesOn
  rw [readFrom_of_said said notFinish, added]
  rfl

/-- A line that ends the source stops the reading wherever it stands. -/
theorem goOn?_of_finish (finish : Statement.ofLine line = .ok .finish) :
    draft.goOn? number line = none := by
  unfold goOn?
  rw [finish]

/-- Where reading does not go on, the line ends the source, or it is at fault whatever follows. -/
theorem finish_or_fails_of_stop (stops : draft.goOn? number line = none) :
    Statement.ofLine line = .ok .finish ∨
      ∃ fault : LineFault, fault.OfReading ∧
        ∀ rest, draft.readFrom number (line :: rest) = .error (.atLine number fault) := by
  cases said : Statement.ofLine line with
  | error fault =>
      refine Or.inr ⟨fault, Statement.ofLine_fails line fault said, fun rest => ?_⟩
      rw [readFrom, said]
  | ok statement =>
      by_cases finish : statement = .finish
      · exact Or.inl (finish ▸ rfl)
      · cases added : draft.add number statement with
        | ok next =>
            rw [goOn?_eq_some_iff.mpr ⟨statement, said, finish, added⟩] at stops
            contradiction
        | error error =>
            obtain ⟨label, rfl⟩ := add_fails draft number statement error added
            refine Or.inr ⟨.duplicateLabel label, trivial, fun rest => ?_⟩
            rw [readFrom_of_said said finish, added]
            rfl

/-- Where reading does not go on, what follows does not matter. -/
theorem readFrom_of_stop
    (stops : draft.goOn? number line = none)
    (rest others : List (List Char)) :
    draft.readFrom number (line :: rest) = draft.readFrom number (line :: others) := by
  rcases finish_or_fails_of_stop stops with finish | ⟨fault, _, fails⟩
  · rw [readFrom, readFrom, finish]
  · rw [fails, fails]

end OneLine

/-! ## Reading part of a source -/

section Parts

variable {draft last : Draft} {number : Nat} {above : List (List Char)}

/-- Reading goes on behind lines that it goes through. -/
theorem readFrom_append_of_passes
    (passes : Passes draft number above last)
    (below : List (List Char)) :
    draft.readFrom number (above ++ below) = last.readFrom (number + above.length) below := by
  induction passes with
  | nothing draft number => rfl
  | @line draft next last number line rest goesOn later inductionHypothesis =>
      rw [List.cons_append, readFrom_of_goOn? goesOn, inductionHypothesis, List.length_cons,
        Nat.add_right_comm, Nat.add_assoc]

theorem stopFrom_append_of_passes
    (passes : Passes draft number above last)
    (below : List (List Char)) :
    draft.stopFrom number (above ++ below) = last.stopFrom (number + above.length) below := by
  induction passes with
  | nothing draft number => rfl
  | @line draft next last number line rest goesOn later inductionHypothesis =>
      simp only [List.cons_append, stopFrom, goesOn]
      rw [inductionHypothesis, List.length_cons, Nat.add_right_comm, Nat.add_assoc]

theorem readFrom_of_passes (passes : Passes draft number above last) :
    draft.readFrom number above = .ok last := by
  have whole := readFrom_append_of_passes passes []
  rwa [List.append_nil] at whole

theorem stopFrom_of_passes (passes : Passes draft number above last) :
    draft.stopFrom number above = none := by
  have whole := stopFrom_append_of_passes passes []
  rwa [List.append_nil] at whole

/-- Reading goes through all lines, or there is a first one where it stops. -/
theorem passes_or_stops (draft : Draft) (number : Nat) (lines : List (List Char)) :
    (∃ last, Passes draft number lines last) ∨
    ∃ above line below last, lines = above ++ line :: below ∧ Passes draft number above last ∧
      last.goOn? (number + above.length) line = none := by
  induction lines generalizing draft number with
  | nil => exact Or.inl ⟨draft, .nothing draft number⟩
  | cons line rest inductionHypothesis =>
      cases goesOn : draft.goOn? number line with
      | none => exact Or.inr ⟨[], line, rest, draft, rfl, .nothing draft number, goesOn⟩
      | some next =>
          rcases inductionHypothesis next (number + 1) with
            ⟨last, later⟩ | ⟨above, other, below, last, rfl, later, stops⟩
          · exact Or.inl ⟨last, .line goesOn later⟩
          · refine Or.inr ⟨line :: above, other, below, last, rfl, .line goesOn later, ?_⟩
            rw [List.length_cons, Nat.add_comm above.length, ← Nat.add_assoc]
            exact stops

end Parts

/-- The line where reading stops, and what was read above it. -/
structure StopsAt
    (lines above : List (List Char))
    (line : List Char)
    (below : List (List Char))
    (last : Draft) :
    Prop where
  split : lines = above ++ line :: below
  passes : Passes {} 1 above last
  stops : last.goOn? (1 + above.length) line = none

theorem StopsAt.stop?_eq
    {lines above below : List (List Char)}
    {line : List Char}
    {last : Draft}
    (stopsAt : StopsAt lines above line below last) :
    stop? lines = some (1 + above.length) := by
  rw [stop?, stopsAt.split, stopFrom_append_of_passes stopsAt.passes, stopFrom, stopsAt.stops]

theorem exists_passes_or_stopsAt (lines : List (List Char)) :
    (stop? lines = none ∧ ∃ last, Passes {} 1 lines last) ∨
      ∃ above line below last, StopsAt lines above line below last := by
  rcases passes_or_stops {} 1 lines with
    ⟨last, passes⟩ | ⟨above, line, below, last, split, passes, stops⟩
  · exact Or.inl ⟨stopFrom_of_passes passes, last, passes⟩
  · exact Or.inr ⟨above, line, below, last, split, passes, stops⟩

theorem exists_stopsAt_of_stop?
    {lines : List (List Char)}
    {number : Nat}
    (stopped : stop? lines = some number) :
    ∃ above line below last, StopsAt lines above line below last ∧ number = 1 + above.length := by
  rcases exists_passes_or_stopsAt lines with
    ⟨passed, _⟩ | ⟨above, line, below, last, stopsAt⟩
  · rw [passed] at stopped
    contradiction
  · refine ⟨above, line, below, last, stopsAt, ?_⟩
    rw [stopsAt.stop?_eq] at stopped
    exact (Option.some.inj stopped).symm

/-- Reading stops where a line ends the source, and otherwise at the first fault. -/
theorem finish_or_error_of_stopsAt
    {lines above below : List (List Char)}
    {line : List Char}
    {last : Draft}
    (stopsAt : StopsAt lines above line below last) :
    (Statement.ofLine line = .ok .finish ∧ read lines = .ok last) ∨
      ∃ fault : LineFault, fault.OfReading ∧
        read lines = .error (.atLine (1 + above.length) fault) := by
  rw [read, stopsAt.split, readFrom_append_of_passes stopsAt.passes]
  rcases finish_or_fails_of_stop stopsAt.stops with finish | ⟨fault, reading, fails⟩
  · refine Or.inl ⟨finish, ?_⟩
    rw [readFrom, finish]
  · exact Or.inr ⟨fault, reading, fails below⟩

/-- An error of reading names the line where reading stops. -/
theorem stop?_of_read_error
    {lines : List (List Char)}
    {number : Nat}
    {fault : LineFault}
    (failed : read lines = .error (.atLine number fault)) :
    stop? lines = some number := by
  rcases exists_passes_or_stopsAt lines with
    ⟨_, last, passes⟩ | ⟨above, line, below, last, stopsAt⟩
  · rw [read, readFrom_of_passes passes] at failed
    contradiction
  · rcases finish_or_error_of_stopsAt stopsAt with ⟨_, read⟩ | ⟨other, _, fails⟩
    · rw [read] at failed
      contradiction
    · rw [fails] at failed
      cases failed
      exact stopsAt.stop?_eq

/-- Lines that are the same up to where reading stops are read the same. -/
theorem read_eq_of_take
    {lines others : List (List Char)}
    {number : Nat}
    (stopped : stop? lines = some number)
    (same : others.take number = lines.take number) :
    read others = read lines := by
  obtain ⟨above, line, below, last, stopsAt, rfl⟩ := exists_stopsAt_of_stop? stopped
  have front : lines.take (1 + above.length) = above ++ [line] := by
    rw [stopsAt.split, Nat.add_comm, List.take_append]
    simp
  have split : others = above ++ line :: others.drop (1 + above.length) := by
    have whole := List.take_append_drop (1 + above.length) others
    rw [same, front] at whole
    simpa using whole.symm
  rw [read, read, split, stopsAt.split, readFrom_append_of_passes stopsAt.passes,
    readFrom_append_of_passes stopsAt.passes]
  exact readFrom_of_stop stopsAt.stops _ _

/-- Reading stops at a line that ends the source, unless it has stopped above it. -/
theorem stop?_of_finish
    {line : List Char}
    (finish : Statement.ofLine line = .ok .finish)
    (above below : List (List Char)) :
    stop? (above ++ line :: below) = some ((stop? above).getD (above.length + 1)) := by
  rcases exists_passes_or_stopsAt above with
    ⟨passed, last, passes⟩ | ⟨front, other, back, last, stopsAt⟩
  · have here : StopsAt (above ++ line :: below) above line below last :=
      ⟨rfl, passes, goOn?_of_finish finish⟩
    rw [here.stop?_eq, passed, Option.getD_none, Nat.add_comm]
  · have early : StopsAt (above ++ line :: below) front other (back ++ line :: below) last :=
      ⟨by rw [stopsAt.split, List.append_assoc, List.cons_append], stopsAt.passes, stopsAt.stops⟩
    rw [early.stop?_eq, stopsAt.stop?_eq, Option.getD_some]

/-- Each line that reading goes through is a statement and does not end the source. -/
theorem statement_of_passes
    {draft last : Draft}
    {number : Nat}
    {lines : List (List Char)}
    (passes : Passes draft number lines last) :
    ∀ line ∈ lines, ∃ statement, Statement.ofLine line = .ok statement ∧ statement ≠ .finish := by
  induction passes with
  | nothing draft number => simp
  | line goesOn later inductionHypothesis =>
      rw [List.forall_mem_cons]
      obtain ⟨statement, said, notFinish, _⟩ := goOn?_eq_some_iff.mp goesOn
      exact ⟨⟨statement, said, notFinish⟩, inductionHypothesis⟩

end Draft

/-! ## Lines that end a source -/

/-- What may stand in front of a mnemonic: nothing, or a word of another kind and blanks. -/
inductive Front : List Char → Prop where
  | bare : Front []
  | labelled
      {label gap : List Char}
      (solid : Text.Solid label)
      (notEmpty : label ≠ [])
      (noComment : ';' ∉ label)
      (noMnemonic : isMnemonic label = false)
      (gapBlank : Text.Blank gap)
      (gapNotEmpty : gap ≠ []) :
      Front (label ++ gap)

/-- The line says that the source ends: its mnemonic is the last one's, in capitals or not, with a
label or without, and with anything behind it. -/
inductive EndLine : List Char → Prop where
  | line
      {indent front word rest : List Char}
      (indentBlank : Text.Blank indent)
      (labelled : Front front)
      (spelled : word.map Char.toUpper = "END".toList)
      (ended : ∀ character ∈ rest.head?, Text.isBlank character = true ∨ character = ';') :
      EndLine (indent ++ (front ++ word ++ rest))

theorem Front.edged_append
    {front word : List Char}
    (labelled : Front front)
    (solid : Text.Solid word)
    (notEmpty : word ≠ []) :
    Text.Edged (front ++ word) where
  first character member := by
    cases labelled with
    | bare => exact solid character (List.mem_of_head? member)
    | @labelled label gap labelSolid labelNotEmpty =>
        obtain ⟨first, others, rfl⟩ := List.exists_cons_of_ne_nil labelNotEmpty
        obtain rfl : first = character := Option.some.inj member
        exact labelSolid first List.mem_cons_self
  last character member := by
    rw [List.getLast?_append_of_ne_nil _ notEmpty] at member
    exact solid character (List.mem_of_getLast? member)

theorem Front.noComment {front : List Char} (labelled : Front front) : ';' ∉ front := by
  cases labelled with
  | bare => exact List.not_mem_nil
  | labelled _ _ noComment _ gapBlank _ =>
      rw [List.mem_append, not_or]
      exact ⟨noComment, fun inGap => absurd (gapBlank _ inGap) (by decide)⟩

theorem Front.mnemonic_ofCode
    {front word rest : List Char}
    (labelled : Front front)
    (spelled : word.map Char.toUpper ∈ mnemonics)
    (ended : ∀ character ∈ rest.head?, Text.isBlank character = true) :
    (LineParts.ofCode (front ++ (word ++ rest))).mnemonic = word := by
  cases labelled with
  | bare => rw [List.nil_append, ofCode_unlabelled spelled ended]
  | labelled solid notEmpty _ noMnemonic gapBlank gapNotEmpty =>
      rw [List.append_assoc, ofCode_labelled solid notEmpty noMnemonic gapBlank gapNotEmpty
        (isAlpha_of_spelled spelled) (ne_nil_of_spelled spelled) ended]

theorem ofLine_of_endLine {line : List Char} (ends : EndLine line) :
    Statement.ofLine line = .ok .finish := by
  cases ends with
  | @line indent front word rest indentBlank labelled spelled ended =>
      have known : word.map Char.toUpper ∈ mnemonics := by
        rw [spelled]
        decide
      have solid := solid_of_plain (plain_of_spelled known)
      have noComment : ';' ∉ front ++ word := by
        rw [List.mem_append, not_or]
        exact ⟨labelled.noComment, fun inWord =>
          absurd (plain_of_spelled known _ inWord) (by decide)⟩
      have code := codeOf_append indentBlank
        (labelled.edged_append solid (ne_nil_of_spelled known))
        (by simp [ne_nil_of_spelled known]) noComment rest
      have setOff : ∀ character ∈ (Text.trimEnd (rest.takeWhile (· != ';'))).head?,
          Text.isBlank character = true := by
        intro character member
        have first := Text.head_trimEnd _ character member
        rw [List.head?_takeWhile, Option.mem_def, Option.filter_eq_some_iff, bne_iff_ne] at first
        obtain ⟨inRest, notComment⟩ := first
        exact (ended character inRest).resolve_right notComment
      have mnemonic := labelled.mnemonic_ofCode known setOff
      rw [List.append_assoc] at code
      have notEmpty : (front ++ (word ++ Text.trimEnd (rest.takeWhile (· != ';')))).isEmpty =
          false := by
        simp [ne_nil_of_spelled known]
      simp only [Statement.ofLine, List.append_assoc, code, notEmpty, mnemonic,
        upper_of_spelled known, spelled]
      rfl

/-- Between a first word and a second one there are blanks. -/
theorem exists_front_of_second_word
    {first rest : List Char}
    (edged : Text.Edged (first ++ rest))
    (solid : Text.Solid first)
    (ended : ∀ character ∈ rest.head?, Text.isBlank character = true)
    (noComment : ';' ∉ first ++ rest)
    (noMnemonic : isMnemonic first = false)
    (second : (Text.splitWord rest).1 ≠ []) :
    ∃ front, Front front ∧
      first ++ rest = front ++ (Text.splitWord rest).1 ++ (Text.splitWord rest).2 := by
  cases rest with
  | nil => exact absurd rfl second
  | cons character others =>
      have blank : Text.isBlank character = true := ended character rfl
      have firstNotEmpty : first ≠ [] := by
        rintro rfl
        rw [edged.first character rfl] at blank
        contradiction
      have gap : (character :: others).takeWhile Text.isBlank ≠ [] := by
        rw [List.takeWhile_cons_of_pos blank]
        exact List.cons_ne_nil _ _
      have words := (Text.splitWord_of_first (Text.first_trimStart (character :: others))).1
      rw [Text.splitWord_trimStart] at words
      refine ⟨first ++ (character :: others).takeWhile Text.isBlank,
        .labelled solid firstNotEmpty (fun inside => noComment (List.mem_append_left _ inside))
          noMnemonic (Text.blank_takeWhile _) gap, ?_⟩
      rw [List.append_assoc, List.append_assoc, ← words]
      exact congrArg (first ++ ·) List.takeWhile_append_dropWhile.symm

/-- The code in front of a mnemonic and behind it, however the line is written. -/
theorem exists_front_of_ofCode
    {code : List Char}
    (edged : Text.Edged code)
    (noComment : ';' ∉ code)
    (known : isMnemonic (LineParts.ofCode code).mnemonic = true) :
    ∃ front rest, Front front ∧ code = front ++ (LineParts.ofCode code).mnemonic ++ rest ∧
      ∀ character ∈ rest.head?, Text.isBlank character = true := by
  obtain ⟨whole, solid, ended⟩ := Text.splitWord_of_first edged.first
  unfold LineParts.ofCode at known ⊢
  simp only at known ⊢
  split at known
  · rename_i isFirst
    rw [if_pos isFirst]
    exact ⟨[], _, .bare, whole, ended⟩
  · rename_i noMnemonic
    rw [if_neg noMnemonic]
    split at known
    · rename_i isWord
      rw [if_pos isWord]
      have second : (Text.splitWord (Text.splitWord code).2).1 ≠ [] := by
        rintro nothing
        rw [nothing] at isWord
        contradiction
      have tailEnded := (Text.splitWord_of_first (Text.first_trimStart (Text.splitWord code).2)).2.2
      rw [Text.splitWord_trimStart] at tailEnded
      rw [whole] at edged noComment
      obtain ⟨front, labelled, split⟩ := exists_front_of_second_word edged solid ended noComment
        (by simpa using noMnemonic) second
      exact ⟨front, _, labelled, whole.trans split, tailEnded⟩
    · contradiction

/-- The mnemonic of a last line is spelled with ASCII letters only. -/
theorem map_toUpper_of_upper_end {word : List Char} (upper : Text.upper word = "END".toList) :
    word.map Char.toUpper = "END".toList := by
  rw [← Text.upper_of_ascii, upper]
  apply Text.ascii_of_upper
  rw [upper]
  have letters : ("END".toList.all fun capital =>
      decide (capital.toNat < 0x80 ∧ capital ∉ ['F', 'I', 'S'])) = true := by
    decide
  exact fun capital member => of_decide_eq_true (List.all_eq_true.mp letters capital member)

theorem mnemonic_of_finish {line : List Char} (said : Statement.ofLine line = .ok .finish) :
    Text.upper (LineParts.ofCode (codeOf line)).mnemonic = "END".toList := by
  unfold Statement.ofLine at said
  simp only at said
  split at said
  · cases said
  · split at said
    · assumption
    · obtain ⟨_, _, made⟩ := bind_eq_ok_iff.mp said
      cases conveys_of_ofOperands made

/-- Only such a line ends a source, in spite of the capitals of letters beyond ASCII. -/
theorem endLine_of_ofLine {line : List Char} (said : Statement.ofLine line = .ok .finish) :
    EndLine line := by
  have upper := mnemonic_of_finish said
  have known : isMnemonic (LineParts.ofCode (codeOf line)).mnemonic = true := by
    rw [isMnemonic_iff, upper]
    decide
  obtain ⟨indent, trailing, comment, indentBlank, trailingBlank, isComment, noComment, whole⟩ :=
    exists_surrounded_codeOf line
  have edged : Text.Edged (codeOf line) := Text.edged_trim _
  obtain ⟨front, rest, labelled, split, ended⟩ := exists_front_of_ofCode edged noComment known
  have behind : ∀ character ∈ (rest ++ (trailing ++ comment)).head?,
      Text.isBlank character = true ∨ character = ';' := by
    intro character member
    rw [List.head?_append, List.head?_append, Option.mem_def, Option.or_eq_some_iff,
      Option.or_eq_some_iff] at member
    rcases member with inRest | ⟨_, inTrailing | ⟨_, inComment⟩⟩
    · exact Or.inl (ended character inRest)
    · exact Or.inl (trailingBlank character (List.mem_of_head? inTrailing))
    · exact Or.inr (isComment character inComment)
  have isEnd := EndLine.line indentBlank labelled (map_toUpper_of_upper_end upper) behind
  have regrouped := whole.trans (congrArg (indent ++ ·)
    ((congrArg (· ++ (trailing ++ comment)) split).trans (List.append_assoc _ rest _)))
  rw [← regrouped] at isEnd
  exact isEnd

/-! ## The whole source -/

/-- Of the lines, assembling depends on the header and on the draft only. -/
theorem assembleLines_congr
    {lines others : List (List Char)}
    (sameHeader : Header.scan others = Header.scan lines)
    (sameDraft : Draft.read others = Draft.read lines)
    (limits : Limits) :
    assembleLines limits others = assembleLines limits lines := by
  unfold assembleLines assembleBody
  rw [sameHeader, sameDraft]

/-- The line is the last one of the source that is read as code. -/
structure LastRead (limits : Limits) (source : String) (number : Nat) : Prop where
  inside : 1 ≤ number ∧ number ≤ (Text.lines source.toList).length
  /-- The line ends the source, or it is the first one at fault. -/
  cause :
    (∃ line, (Text.lines source.toList)[number - 1]? = some line ∧ EndLine line) ∨
    ∃ fault : LineFault, fault.OfReading ∧
      Draft.read (Text.lines source.toList) = .error (.atLine number fault)
  /-- The lines above it are read without a fault. -/
  aboveRead : ∃ draft, Draft.read ((Text.lines source.toList).take (number - 1)) = .ok draft
  aboveGoesOn : ∀ line ∈ (Text.lines source.toList).take (number - 1),
    ∃ statement, Statement.ofLine line = .ok statement ∧ statement ≠ .finish
  /-- Other lines below it do not matter as long as the header stays as it is. -/
  belowUnread : ∀ other : String,
    (Text.lines other.toList).take number = (Text.lines source.toList).take number →
    Header.scan (Text.lines other.toList) = Header.scan (Text.lines source.toList) →
    assemble limits other = assemble limits source

theorem lastRead_of_stop?
    {source : String}
    {number : Nat}
    (stopped : Draft.stop? (Text.lines source.toList) = some number)
    (limits : Limits) :
    LastRead limits source number := by
  have unread {others : List (List Char)} := @Draft.read_eq_of_take _ others _ stopped
  obtain ⟨above, line, below, last, stopsAt, rfl⟩ := Draft.exists_stopsAt_of_stop? stopped
  have front : (Text.lines source.toList).take (1 + above.length - 1) = above := by
    rw [stopsAt.split, Nat.add_sub_cancel_left, List.take_left]
  refine ⟨⟨Nat.le_add_right 1 _, ?_⟩, ?_, ?_, ?_, ?_⟩
  · rw [stopsAt.split, List.length_append, List.length_cons]
    omega
  · rcases Draft.finish_or_error_of_stopsAt stopsAt with ⟨finish, _⟩ | failed
    · refine Or.inl ⟨line, ?_, endLine_of_ofLine finish⟩
      rw [stopsAt.split, Nat.add_sub_cancel_left, List.getElem?_append_right (Nat.le_refl _),
        Nat.sub_self, List.getElem?_cons_zero]
    · exact Or.inr failed
  · rw [front]
    exact ⟨last, Draft.readFrom_of_passes stopsAt.passes⟩
  · rw [front]
    exact Draft.statement_of_passes stopsAt.passes
  · intro other same sameHeader
    exact assembleLines_congr sameHeader (unread same) limits

/-- Reading stops at the first line that ends the source or is at fault. All above it is read
without a fault, nothing below it counts, and labels are looked up only where reading has met no
fault at all. -/
theorem reading_stops_for_good (limits : Limits) (source : String) :
    let lines := Text.lines source.toList
    (∀ above line below, lines = above ++ line :: below → EndLine line →
      Draft.stop? lines = some ((Draft.stop? above).getD (above.length + 1))) ∧
    (∀ number fault, assemble limits source = .error (.atLine number fault) →
      fault.OfReading → Draft.stop? lines = some number) ∧
    (∀ number, Draft.stop? lines = some number → LastRead limits source number) ∧
    ∀ number label, assemble limits source = .error (.atLine number (.undefinedLabel label)) →
      ∃ draft, Draft.read lines = .ok draft := by
  intro lines
  refine ⟨fun above line below split ends => ?_, fun number fault failed reading => ?_,
    fun number stopped => lastRead_of_stop? stopped limits, fun number label failed => ?_⟩
  · rw [split]
    exact Draft.stop?_of_finish (ofLine_of_endLine ends) above below
  · exact Draft.stop?_of_read_error (read_error_of_assembleLines failed reading)
  · exact exists_read_of_assembleLines failed trivial

/-- A source that ends at a labelled line in mixed case keeps its warrior when other lines stand
behind it. Of an unknown label and a duplicate one below it the duplicate is the answer, and an
unknown label is one only where all lines have been read. -/
theorem reading_stops_for_good_end :
    let header := "; redcode\n; name A\n; assert 1\n"
    let ended := header ++ "x: JMP x\n done:\teNd; here\nMOV 1, 2, 3\n"
    let other := header ++ "x: JMP x\n done:\teNd; here\nx: DAT #0\nEND\n\n"
    let faulty := header ++ "x: JMP nowhere\nx: DAT #0\nEND"
    let unknown := header ++ "x: JMP nowhere\nEND\nx: DAT #0"
    EndLine " done:\teNd; here".toList ∧
    assemble {} other = assemble {} ended ∧
    assemble {} faulty = .error (.atLine 5 (.duplicateLabel "x")) ∧
    LastRead {} faulty 5 ∧
    assemble {} unknown = .error (.atLine 4 (.undefinedLabel "nowhere")) ∧
    ∃ draft, Draft.read (Text.lines unknown.toList) = .ok draft := by
  intro header ended other faulty unknown
  have labelled : Front ("done:".toList ++ "\t".toList) :=
    .labelled (by decide +kernel) (by decide) (by decide) (by decide +kernel) (by decide +kernel)
      (by decide)
  have ends : EndLine " done:\teNd; here".toList :=
    EndLine.line (by decide +kernel : Text.Blank " ".toList) labelled
      (by decide : "eNd".toList.map Char.toUpper = "END".toList)
      (by rintro character ⟨⟩; exact Or.inr rfl :
        ∀ character ∈ "; here".toList.head?, _ ∨ character = ';')
  obtain ⟨stopsAtEnd, _, lastRead, _⟩ := reading_stops_for_good {} ended
  have stopped := stopsAtEnd (Text.lines (header ++ "x: JMP x\n").toList) _
    ["MOV 1, 2, 3".toList] (by decide +kernel) ends
  have unread := (lastRead 5 (stopped.trans (by decide +kernel))).belowUnread other
    (by decide +kernel) (by decide +kernel)
  have duplicate : assemble {} faulty = .error (.atLine 5 (.duplicateLabel "x")) := by
    decide +kernel
  obtain ⟨_, firstFault, faultyRead, _⟩ := reading_stops_for_good {} faulty
  obtain ⟨_, _, _, allRead⟩ := reading_stops_for_good {} unknown
  have undefined : assemble {} unknown = .error (.atLine 4 (.undefinedLabel "nowhere")) := by
    decide +kernel
  exact ⟨ends, unread, duplicate, faultyRead 5 (firstFault 5 _ duplicate trivial), undefined,
    allRead 4 _ undefined⟩

end CoreWar.Assembly
