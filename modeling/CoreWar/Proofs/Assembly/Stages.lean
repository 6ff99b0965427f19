import CoreWar.Proofs.Assembly.Faults
import CoreWar.Proofs.Assertion.Grammar

/-!
Contract: assembling as a sequence of stages that must all succeed.

Owns:
- the stages of assembling a source and what they hand on;
- the origin, for which every core of the usual sizes has a place;
- the single thread of an assembled warrior.

Does not own: when a stage succeeds; the modules beside this one tell that.
-/

namespace CoreWar

/-- The shortest assertion that holds under all limits. -/
theorem Assertion.holds_one (limits : Limits) : holds limits "1" = .ok true := by
  have scanned : Token.scan limits "1".toList = .ok [.number 1] := by
    simp [Token.scan, Text.isBlank, isWordChar]
    rfl
  let one : Equality := ⟨⟨⟨⟨[], 1⟩, []⟩, []⟩, []⟩
  have isOne : one.Value 1 := ⟨1, ⟨1, ⟨1, .bare, .done⟩, .done⟩, .done⟩
  have valued : tokensValue [.number 1] = .ok 1 := tokensValue_eq_ok_iff.mpr ⟨one, rfl, isOne⟩
  unfold holds
  rw [scanned]
  show tokensValue [.number 1] >>= (fun value => pure (value != 0)) = .ok true
  rw [valued]
  rfl

namespace Assembly

/-- A complete header with that assertion is approved. -/
theorem approve_of_holds_one (limits : Limits) (name : String) :
    Header.approve ⟨true, some name, some "1"⟩ limits = .ok name := by
  simp only [Header.approve, checkAssertion, Assertion.holds_one]
  rfl

theorem assembleBody_eq_ok_iff
    (limits : Limits)
    (lines : List (List Char))
    (program : List Instruction)
    (start : UInt64) :
    assembleBody limits lines = .ok (program, start) ↔
      ∃ draft entry, Draft.read lines = .ok draft ∧ draft.program = .ok program ∧
        draft.entry = .ok entry ∧ fold? entry limits.coreSize = some start := by
  unfold assembleBody
  simp only [bind_eq_ok_iff]
  constructor
  · intro stages
    obtain ⟨draft, read, program, linked, entry, entered, folded⟩ := stages
    cases place : fold? entry limits.coreSize with
    | none => simp [place, throw, throwThe, MonadExceptOf.throw] at folded
    | some start =>
        simp only [place, pure, Except.pure, Except.ok.injEq, Prod.mk.injEq] at folded
        obtain ⟨rfl, rfl⟩ := folded
        exact ⟨draft, entry, read, linked, entered, place⟩
  · intro stages
    obtain ⟨draft, entry, read, linked, entered, place⟩ := stages
    refine ⟨draft, read, program, linked, entry, entered, ?_⟩
    simp only [place]
    rfl

/-- A source is a warrior when its limits can be played, its header is approved, its lines make a
draft, and all labels of the draft are known. -/
theorem assemble_eq_ok_iff (limits : Limits) (source : String) (warrior : Warrior) :
    assemble limits source = .ok warrior ↔
      limits.Playable ∧ ∃ name draft program entry start,
        (Header.scan (Text.lines source.toList)).approve limits = .ok name ∧
        Draft.read (Text.lines source.toList) = .ok draft ∧
        draft.program = .ok program ∧
        draft.entry = .ok entry ∧
        fold? entry limits.coreSize = some start ∧
        warrior = .single name start program := by
  rw [← Limits.check_eq_ok_iff]
  unfold assemble assembleLines
  cases checked : limits.check with
  | error error => simp [throw, throwThe, MonadExceptOf.throw]
  | ok _ =>
      simp only [bind_eq_ok_iff, true_and]
      constructor
      · intro stages
        obtain ⟨name, approved, ⟨program, start⟩, body, made⟩ := stages
        obtain ⟨draft, entry, read, linked, entered, place⟩ :=
          (assembleBody_eq_ok_iff limits _ program start).mp body
        simp only [pure, Except.pure, Except.ok.injEq] at made
        exact ⟨name, draft, program, entry, start, approved, read, linked, entered, place,
          made.symm⟩
      · intro stages
        obtain ⟨name, draft, program, entry, start, approved, read, linked, entered, place, rfl⟩ :=
          stages
        have body : assembleBody limits (Text.lines source.toList) = .ok (program, start) :=
          (assembleBody_eq_ok_iff limits _ program start).mpr
            ⟨draft, entry, read, linked, entered, place⟩
        exact ⟨name, approved, (program, start), body, rfl⟩

/-- A statement that does not end the source is added before the lines behind it are read. -/
theorem readFrom_of_said
    {line : List Char}
    {statement : Statement}
    (said : Statement.ofLine line = .ok statement)
    (goesOn : statement ≠ .finish)
    (draft : Draft)
    (number : Nat)
    (rest : List (List Char)) :
    draft.readFrom number (line :: rest) =
      (draft.add number statement >>= fun next => next.readFrom (number + 1) rest) := by
  rw [Draft.readFrom, said]
  cases statement with
  | finish => contradiction
  | _ => rfl

/-! ## The origin -/

/-- Where the remainder by the size of the core is always defined, so is the folded origin. -/
theorem fold?_of_small
    (entry : Int64)
    (size : UInt64)
    (positive : 0 < size.toNat)
    (small : size.toNat < 0x8000000000000000) :
    fold? entry size = some (fold entry size) := by
  have asInt := toInt_toInt64 size small
  have notZero : size ≠ 0 := by
    intro same
    subst same
    exact absurd positive (by decide)
  have notMinusOne : size.toInt64 ≠ -1 := by
    intro minusOne
    rw [minusOne] at asInt
    have : (-1 : Int64).toInt = -1 := by decide
    omega
  unfold fold?
  rw [if_neg]
  intro undefinedRemainder
  rcases undefinedRemainder with zero | ⟨_, minusOne⟩
  · exact notZero zero
  · exact notMinusOne minusOne

theorem eq_fold_of_fold?
    {entry : Int64}
    {size start : UInt64}
    (place : fold? entry size = some start) :
    start = fold entry size := by
  unfold fold? at place
  split at place
  · contradiction
  · exact (Option.some.inj place).symm

/-- Up to 2^63 - 1 cells there is a place for every origin. -/
theorem assemble_ne_unfoldableOrigin
    {limits : Limits}
    (small : limits.coreSize.toNat < 0x8000000000000000)
    (source : String) :
    assemble limits source ≠ .error .unfoldableOrigin := by
  suffices fails : FailsOnlyWith (· ≠ .unfoldableOrigin) (assemble limits source) from
    fun failed => fails _ failed rfl
  unfold assemble assembleLines
  cases checked : limits.check with
  | error error => exact failsOnlyWith_error (by simp)
  | ok _ =>
      have positive := ((Limits.check_eq_ok_iff limits).mp checked).toNat_coreSize_pos
      have header := (approve_fails (Header.scan (Text.lines source.toList)) limits).mono
        fun _ => Error.OfHeader.ne_unfoldableOrigin
      have reading := (Draft.read_fails (Text.lines source.toList)).mono
        fun _ => Error.OfReading.ne_unfoldableOrigin
      refine header.bind fun _ => FailsOnlyWith.bind ?_ fun _ => failsOnlyWith_ok _
      refine reading.bind fun draft => ?_
      have linking := draft.program_fails.mono fun _ => Error.OfLinking.ne_unfoldableOrigin
      refine linking.bind fun _ => ?_
      have entering := draft.entry_fails.mono fun _ => Error.OfLinking.ne_unfoldableOrigin
      refine entering.bind fun entry => ?_
      rw [fold?_of_small entry limits.coreSize positive small]
      exact failsOnlyWith_ok _

/-- An assembled warrior has a single thread, at the folded entry of its program. -/
theorem exists_single_of_assemble
    {limits : Limits}
    {source : String}
    {warrior : Warrior}
    (assembled : assemble limits source = .ok warrior) :
    ∃ name entry program, warrior = .single name (fold entry limits.coreSize) program := by
  obtain ⟨_, name, _, program, entry, start, _, _, _, _, place, rfl⟩ :=
    (assemble_eq_ok_iff limits source warrior).mp assembled
  rw [eq_fold_of_fold? place]
  exact ⟨name, entry, program, rfl⟩

end Assembly

end CoreWar
