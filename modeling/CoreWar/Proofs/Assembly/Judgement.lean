import CoreWar.Proofs.Assembly.Directives

/-!
Contract: the order in which a source is judged.

Owns:
- the complaints about the limits and about the header, each with the conditions under which it is
  the answer;
- the sources that are assembled at all, and under which name.

Does not own: what a line declares, see `CoreWar.Proofs.Assembly.Directives`, and what becomes of
the lines of an approved source, see `CoreWar.Proofs.Assembly.Reference`.
-/

namespace CoreWar.Assembly

/-- The source comes as far as this assertion: its limits can be played, it is marked, and its last
assertion is this text. -/
def Asserts (limits : Limits) (lines : List (List Char)) (text : String) : Prop :=
  limits.Playable ∧ Marked lines ∧ LastDeclares lines .assertion (some text)

/-- The assertion holds under the limits. -/
def Accepted (limits : Limits) (lines : List (List Char)) : Prop :=
  ∃ text, Asserts limits lines text ∧ Assertion.holds limits text = .ok true

/-- The outcome is what the limits and the header call for: the first complaint in this order, or
the assembled lines under the last name. -/
structure Judged
    (limits : Limits)
    (lines : List (List Char))
    (outcome : Except Error Warrior) :
    Prop where
  unplayable : ∀ error, outcome = .error (.limits error) ↔ limits.check = .error error
  unmarked : outcome = .error .missingMarker ↔ limits.Playable ∧ ¬Marked lines
  unasserted : outcome = .error .missingAssertion ↔
    limits.Playable ∧ Marked lines ∧ ∀ text, ¬LastDeclares lines .assertion (some text)
  invalid : ∀ text, outcome = .error (.invalidAssertion text) ↔
    Asserts limits lines text ∧ Assertion.holds limits text = .error .invalidToken
  failed : ∀ text, outcome = .error (.failedAssertion text) ↔
    Asserts limits lines text ∧
      (Assertion.holds limits text = .ok false ∨ Assertion.holds limits text = .error .malformed)
  unnamed : outcome = .error .missingName ↔
    Accepted limits lines ∧ ∀ name, ¬LastDeclares lines .name (some name)
  approved : ∀ name, Accepted limits lines → LastDeclares lines .name (some name) →
    outcome = (assembleBody limits lines).map fun body => .single name body.2 body.1

/-! ## Stages -/

section Stages

variable {limits : Limits} {lines : List (List Char)}

theorem assembleLines_of_unplayable {error : LimitsError} (failed : limits.check = .error error) :
    assembleLines limits lines = .error (.limits error) := by
  simp only [assembleLines, failed]
  rfl

theorem assembleLines_of_rejected
    (playable : limits.Playable)
    {error : Error}
    (rejected : (Header.scan lines).approve limits = .error error) :
    assembleLines limits lines = .error error := by
  simp only [assembleLines, (Limits.check_eq_ok_iff limits).mpr playable, rejected]
  rfl

theorem assembleLines_of_approved
    (playable : limits.Playable)
    {name : String}
    (approved : (Header.scan lines).approve limits = .ok name) :
    assembleLines limits lines =
      (assembleBody limits lines).map fun body => .single name body.2 body.1 := by
  simp only [assembleLines, (Limits.check_eq_ok_iff limits).mpr playable, approved]
  show (assembleBody limits lines >>= _) = _
  cases assembleBody limits lines with
  | error error => rfl
  | ok body => rfl

end Stages

theorem approve_of_unmarked {header : Header} (unmarked : header.marked = false) (limits : Limits) :
    header.approve limits = .error .missingMarker := by
  simp only [Header.approve, unmarked]
  rfl

theorem approve_of_unasserted
    {header : Header}
    (marked : header.marked = true)
    (unasserted : header.assertion = none)
    (limits : Limits) :
    header.approve limits = .error .missingAssertion := by
  simp only [Header.approve, marked, unasserted]
  rfl

theorem approve_of_asserted
    {header : Header}
    (marked : header.marked = true)
    {text : String}
    (asserted : header.assertion = some text)
    (limits : Limits) :
    header.approve limits = (checkAssertion limits text >>= fun _ =>
      match header.name with
      | some name => .ok name
      | none => .error .missingName) := by
  simp only [Header.approve, marked, asserted]
  cases header.name with
  | none => rfl
  | some name => rfl

/-- A body never gives a complaint about the header. -/
theorem map_assembleBody_ne
    {error : Error}
    (header : error.OfHeader)
    (limits : Limits)
    (lines : List (List Char))
    (warrior : List Instruction × UInt64 → Warrior) :
    (assembleBody limits lines).map warrior ≠ .error error := by
  have fails := assembleBody_fails limits lines
  cases body : assembleBody limits lines with
  | ok made => simp [Except.map]
  | error other =>
      intro same
      have equal : other = error := Except.error.inj same
      exact fails other body (equal ▸ header)

/-! ## The judgement -/

/-- The judgement from the assertion on. -/
theorem judged_of_asserted
    {limits : Limits}
    {lines : List (List Char)}
    (playable : limits.Playable)
    (marked : (Header.scan lines).marked = true)
    {text : String}
    (asserted : (Header.scan lines).assertion = some text) :
    Judged limits lines (assembleLines limits lines) := by
  have checked := (Limits.check_eq_ok_iff limits).mpr playable
  have markedIff := Header.marked_scan_iff lines
  have assertionIff := Header.assertion_scan_eq_some_iff lines
  have nameIff := Header.name_scan_eq_some_iff lines
  have approve := approve_of_asserted marked asserted limits
  rw [checkAssertion] at approve
  rcases held : Assertion.holds limits text with (_ | _) | (_ | _)
  case ok.true =>
    rw [held] at approve
    cases named : (Header.scan lines).name with
    | none =>
        rw [named] at approve
        rw [assembleLines_of_rejected playable approve]
        constructor <;>
          simp [checked, playable, Asserts, Accepted, ← markedIff, marked, ← assertionIff,
            asserted, held, ← nameIff, named]
    | some name =>
        rw [named] at approve
        rw [assembleLines_of_approved playable approve]
        have never {error : Error} (header : error.OfHeader) :=
          map_assembleBody_ne header limits lines fun body => .single name body.2 body.1
        refine ⟨fun _ => iff_of_false (never trivial) ?_, iff_of_false (never trivial) ?_,
          iff_of_false (never trivial) ?_, fun _ => iff_of_false (never trivial) ?_,
          fun _ => iff_of_false (never trivial) ?_, iff_of_false (never trivial) ?_, ?_⟩
        all_goals
          simp [checked, playable, Asserts, Accepted, ← markedIff, marked, ← assertionIff,
            asserted, held, ← nameIff, named]
        · rintro rfl
          simp [held]
        · rintro rfl
          simp [held]
  -- In the three other cases the assertion is refused, and the outcome is its error.
  all_goals
    rw [held] at approve
    rw [assembleLines_of_rejected playable approve]
    constructor <;>
      simp [checked, playable, Asserts, Accepted, ← markedIff, marked, ← assertionIff, asserted,
        held]

theorem judged_assembleLines (limits : Limits) (lines : List (List Char)) :
    Judged limits lines (assembleLines limits lines) := by
  have markedIff := Header.marked_scan_iff lines
  have assertionIff := Header.assertion_scan_eq_some_iff lines
  cases checked : limits.check with
  | error complaint =>
      have unplayable : ¬limits.Playable := by
        rw [← Limits.check_eq_ok_iff, checked]
        simp
      rw [assembleLines_of_unplayable checked]
      constructor <;> simp [checked, unplayable, Asserts, Accepted]
  | ok _ =>
      have playable := (Limits.check_eq_ok_iff limits).mp checked
      cases marked : (Header.scan lines).marked with
      | false =>
          rw [assembleLines_of_rejected playable (approve_of_unmarked marked limits)]
          constructor <;> simp [checked, playable, Asserts, Accepted, ← markedIff, marked]
      | true =>
          cases asserted : (Header.scan lines).assertion with
          | none =>
              rw [assembleLines_of_rejected playable (approve_of_unasserted marked asserted limits)]
              constructor <;>
                simp [checked, playable, Asserts, Accepted, ← markedIff, marked, ← assertionIff,
                  asserted]
          | some text => exact judged_of_asserted playable marked asserted

/-- The later lines decide a field of the header if they declare its kind at all, be it without a
parameter, and the earlier lines decide it otherwise. -/
structure LastWins
    (above below : List (List Char))
    (field : Header → Option String)
    (kind : Kind) :
    Prop where
  later : ∀ value, LastDeclares below kind value →
    field (Header.scan (above ++ below)) = value ∧ field (Header.scan below) = value
  earlier : (∀ line ∈ below, ∀ value, ¬Declares line (kind value)) →
    field (Header.scan (above ++ below)) = field (Header.scan above)

theorem lastWins_of_records
    {field : Header → Option String}
    {kind : Kind}
    (records : Records field kind)
    (above below : List (List Char)) :
    LastWins above below field kind where
  later value last := by
    rw [Header.scan_append]
    exact ⟨Header.field_scanFrom_of_last records last _,
      Header.field_scanFrom_of_last records last _⟩
  earlier silent := by
    rw [Header.scan_append]
    exact Header.field_scanFrom_of_silent records silent _

theorem marked_scan_append (above below : List (List Char)) :
    (Header.scan (above ++ below)).marked =
      ((Header.scan above).marked || (Header.scan below).marked) := by
  rw [Bool.eq_iff_iff, Bool.or_eq_true, Header.scan_append, Header.marked_scanFrom,
    Header.marked_scan_iff below]

/-- Of the directives of a kind the last one counts, also where it erases what an earlier one has
declared; a mark counts wherever it stands. And every source is judged in one order: limits, mark,
assertion, name. Only what passes is assembled. -/
theorem header_lastWins_and_judged :
    (∀ above below : List (List Char),
      (Header.scan (above ++ below)).marked =
        ((Header.scan above).marked || (Header.scan below).marked) ∧
      LastWins above below Header.name .name ∧
      LastWins above below Header.assertion .assertion) ∧
    ∀ limits source, Judged limits (Text.lines source.toList) (assemble limits source) := by
  constructor
  · intro above below
    exact ⟨marked_scan_append above below, lastWins_of_records records_name above below,
      lastWins_of_records records_assertion above below⟩
  · intro limits source
    exact judged_assembleLines limits (Text.lines source.toList)

/-- The last name has no parameter and erases the one above it; the failed assertion does not count,
since one below it holds. The words may be in capitals, and the mark may have something behind it.
-/
theorem header_lastWins_and_judged_erased :
    let source := "; name A\n;ASSERT 0\n ; Redcode-94\n; Assert CORESIZE == 8192 \n;name\nXYZ\n"
    let lines := Text.lines source.toList
    assemble {} source = .error .missingName ∧
    (Header.scan (lines.take 1)).name = some "A" ∧
    (∃ text, Asserts {} lines text ∧ Assertion.holds {} text = .ok true) ∧
    ∀ name, ¬LastDeclares lines .name (some name) := by
  intro source lines
  have refused : assemble {} source = .error .missingName := by decide +kernel
  have named : (Header.scan (lines.take 1)).name = some "A" := by decide +kernel
  have judged := header_lastWins_and_judged.2 {} source
  obtain ⟨accepted, unnamed⟩ := judged.unnamed.mp refused
  exact ⟨refused, named, accepted, unnamed⟩

end CoreWar.Assembly
