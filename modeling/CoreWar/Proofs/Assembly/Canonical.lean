import CoreWar.Proofs.Assembly.Directives
import CoreWar.Proofs.Assembly.Reference

/-!
Contract: a warrior can be written down and assembled again.

Owns:
- the names that a header can declare;
- the canonical source of a warrior: its name, its entry and its instructions, without any label;
- the warrior that the canonical source assembles to.

Does not own: how the lines of a source are read, see `CoreWar.Proofs.Assembly.Reading`.
-/

namespace CoreWar.Assembly

/-! ## Declared names -/

/-- What a name declared in a header is like: on one line, not empty, and without blanks at its
ends. -/
structure Declarable (name : String) : Prop where
  inside : '\n' ∉ name.toList
  notEmpty : name.toList ≠ []
  edged : Text.Edged name.toList

theorem declarable_of_declares
    {line : List Char}
    (inside : '\n' ∉ line)
    {name : String}
    (declares : Declares line (.name (some name))) :
    Declarable name := by
  cases declares with
  | name starts _ parameter =>
      cases starts with
      | line =>
          cases parameter with
          | given _ _ edged notEmpty _ =>
              constructor
              · rw [String.toList_ofList]
                exact fun member => inside (by simp [member])
              · rwa [String.toList_ofList]
              · rwa [String.toList_ofList]

/-- The name of a header is one that some line declares. -/
theorem declarable_of_scan
    {lines : List (List Char)}
    (inside : ∀ line ∈ lines, '\n' ∉ line)
    {name : String}
    (named : (Header.scan lines).name = some name) :
    Declarable name := by
  obtain ⟨above, line, below, rfl, declares, _⟩ :=
    (Header.name_scan_eq_some_iff lines name).mp named
  exact declarable_of_declares (inside line (by simp)) declares

theorem name_of_approve
    {header : Header}
    {limits : Limits}
    {name : String}
    (approved : header.approve limits = .ok name) :
    header.name = some name := by
  unfold Header.approve at approved
  cases marked : header.marked with
  | false => simp [marked, throw, throwThe, MonadExceptOf.throw, bind, Except.bind] at approved
  | true =>
      cases asserted : header.assertion with
      | none => simp [marked, asserted, throw, throwThe, MonadExceptOf.throw] at approved
      | some assertion =>
          simp only [marked, asserted, Bool.not_true, Bool.false_eq_true, if_false] at approved
          obtain ⟨_, _, judged⟩ := bind_eq_ok_iff.mp approved
          cases named : header.name with
          | none => simp [named, throw, throwThe, MonadExceptOf.throw] at judged
          | some other =>
              rw [named] at judged
              exact congrArg some (Except.ok.inj judged)

theorem declarable_of_assemble
    {limits : Limits}
    {source : String}
    {warrior : Warrior}
    (assembled : assemble limits source = .ok warrior) :
    Declarable warrior.name := by
  obtain ⟨_, name, _, _, _, _, approved, _, _, _, _, rfl⟩ :=
    (assemble_eq_ok_iff limits source warrior).mp assembled
  have inside : ∀ line ∈ Text.lines source.toList, '\n' ∉ line := fun line member =>
    Text.lineFeed_notMem_of_mem_lines member
  exact declarable_of_scan inside (name_of_approve approved)

/-! ## Canonical sources -/

/-- The instruction without a label, with numbers only. -/
def itemOf (instruction : Instruction) : Item :=
  .instruction none instruction.operation
    (.two ⟨instruction.a.mode, .literal instruction.a.field⟩
      ⟨instruction.b.mode, .literal instruction.b.field⟩)

/-- The origin at this address, without a label. -/
def originAt (start : UInt64) : Item :=
  .origin none (some ⟨.direct, .literal start.toInt64⟩)

def canonicalItems (warrior : Warrior) : List Item :=
  originAt warrior.start :: warrior.program.map itemOf

/-- The lines behind the declaration: the origin, then the instructions as they are written. -/
def canonicalBody (warrior : Warrior) : List (List Char) :=
  ("ORG ".toList ++ Text.decimal warrior.start.toNat) :: warrior.program.map Instruction.text

def canonicalLines (warrior : Warrior) : List (List Char) :=
  declaration warrior.name.toList ++ canonicalBody warrior

theorem toUpper_mnemonic (operation : Operation) :
    operation.mnemonic.map Char.toUpper = operation.mnemonic := by
  cases operation <;> rfl

theorem gap_space : Gap [' '] := by
  simp [Gap]

theorem written_itemOf (instruction : Instruction) :
    (itemOf instruction).Written instruction.text := by
  have line := @Item.Written.line (itemOf instruction) [] [] instruction.operation.mnemonic _ []
    gap_nil .absent (toUpper_mnemonic instruction.operation)
    (.two _ _ gap_space (by simp) gap_nil gap_space) gap_nil
  have same : instruction.text = [] ++ ([] ++ (instruction.operation.mnemonic ++ ([' '] ++
      (instruction.a.text ++ [] ++ ',' :: ([' '] ++ instruction.b.text))))) ++ [] := by
    simp [Instruction.text]
  rw [same]
  exact line

theorem decimal_eq_signedDecimal {start : UInt64} (small : start.toNat < 0x8000000000000000) :
    Text.decimal start.toNat = Text.signedDecimal start.toInt64 := by
  have word := toInt_toInt64 start small
  have magnitude : start.toInt64.toInt.natAbs = start.toNat := by omega
  rw [Text.signedDecimal, if_neg (by omega), magnitude]

theorem written_originAt {start : UInt64} (small : start.toNat < 0x8000000000000000) :
    (originAt start).Written ("ORG ".toList ++ Text.decimal start.toNat) := by
  rw [decimal_eq_signedDecimal small]
  have line := @Item.Written.line (originAt start) [] [] "ORG".toList _ [] gap_nil .absent (by rfl)
    (.one _ gap_space (by simp)) gap_nil
  rw [List.append_nil] at line
  exact line

/-- The line of each item stands in the canonical source. -/
theorem written_canonical
    {warrior : Warrior}
    (small : warrior.start.toNat < 0x8000000000000000) :
    List.Forall₂ Item.Written (canonicalItems warrior) (canonicalBody warrior) := by
  apply List.Forall₂.cons (written_originAt small)
  induction warrior.program with
  | nil => exact .nil
  | cons instruction rest inductionHypothesis =>
      exact .cons (written_itemOf instruction) inductionHypothesis

/-! ## Assembling again -/

theorem label?_of_mem_canonicalItems
    {warrior : Warrior}
    {item : Item}
    (member : item ∈ canonicalItems warrior) :
    item.label? = none := by
  rcases List.mem_cons.mp member with rfl | later
  · rfl
  · obtain ⟨instruction, _, rfl⟩ := List.mem_map.mp later
    rfl

theorem labels_canonicalItems (warrior : Warrior) : labels (canonicalItems warrior) = [] :=
  List.filterMap_eq_nil_iff.mpr fun _ member => label?_of_mem_canonicalItems member

theorem lastOrigin_canonicalItems (warrior : Warrior) :
    LastOrigin (canonicalItems warrior) (some ⟨.direct, .literal warrior.start.toInt64⟩) := by
  refine ⟨[], none, warrior.program.map itemOf, rfl, ?_⟩
  intro item member
  obtain ⟨instruction, _, rfl⟩ := List.mem_map.mp member
  rfl

/-- A canonical source uses no names. -/
theorem not_uses_canonicalItems (warrior : Warrior) (name : Identifier) :
    ¬Uses (canonicalItems warrior) name := by
  intro uses
  cases uses with
  | instruction member used =>
      rcases List.mem_cons.mp member with isOrigin | later
      · contradiction
      · obtain ⟨instruction, _, same⟩ := List.mem_map.mp later
        cases same
        simp [Arguments.a?, Arguments.b?] at used
  | @origin argument last used =>
      obtain ⟨above, label, below, split, _⟩ := last
      have member : Item.origin label argument ∈ canonicalItems warrior := by
        rw [split]
        simp
      rcases List.mem_cons.mp member with isOrigin | later
      · cases isOrigin
        simp at used
      · obtain ⟨instruction, _, same⟩ := List.mem_map.mp later
        contradiction

theorem instructionCount_canonical (start : UInt64) (program : List Instruction) :
    instructionCount (originAt start :: program.map itemOf) = program.length := by
  unfold instructionCount
  rw [List.countP_cons_of_neg (by simp [originAt, Item.isInstruction]), List.countP_map]
  exact List.countP_eq_length.mpr fun _ _ => rfl

theorem eq_of_operandValue_literal
    {items : List Item}
    {index : Nat}
    {mode : Mode}
    {field : Int64}
    {operand : Operand}
    (value : OperandValue items index (some ⟨mode, .literal field⟩) operand) :
    operand = ⟨mode, field⟩ := by
  obtain ⟨sameMode, sameField⟩ := value
  obtain ⟨otherMode, otherField⟩ := operand
  obtain rfl : otherMode = mode := sameMode
  obtain rfl : otherField = field := sameField
  rfl

/-- The program of the canonical items is the program they were made from. -/
theorem eq_of_programValue_canonical
    {warrior : Warrior}
    {program : List Instruction}
    (value : ProgramValue (canonicalItems warrior) program) :
    program = warrior.program := by
  have length : program.length = warrior.program.length :=
    value.length.trans (instructionCount_canonical warrior.start warrior.program)
  apply List.ext_getElem length
  intro index below belowOriginal
  let original := warrior.program[index]
  have parts : warrior.program =
      warrior.program.take index ++ original :: warrior.program.drop (index + 1) := by
    rw [List.cons_getElem_drop_succ, List.take_append_drop]
  have split : canonicalItems warrior =
      (originAt warrior.start :: (warrior.program.take index).map itemOf) ++
        itemOf original :: (warrior.program.drop (index + 1)).map itemOf := by
    unfold canonicalItems
    conv_lhs => rw [parts]
    simp
  obtain ⟨instruction, found, operation, a, b⟩ := value.instruction _ _ _ _ _ split
  have count : instructionCount
      (originAt warrior.start :: (warrior.program.take index).map itemOf) = index := by
    rw [instructionCount_canonical, List.length_take]
    omega
  rw [count, List.getElem?_eq_getElem below, Option.some.injEq] at found
  rw [found]
  have sameA : instruction.a = original.a := eq_of_operandValue_literal a
  have sameB : instruction.b = original.b := eq_of_operandValue_literal b
  cases instruction with
  | mk otherOperation otherA otherB =>
      simp only at operation sameA sameB
      rw [operation, sameA, sameB]

/-- A warrior whose name can be declared and whose start is in the core is what its canonical source
assembles to. -/
theorem assemble_canonicalLines
    {limits : Limits}
    (playable : limits.Playable)
    (small : limits.coreSize.toNat < 0x8000000000000000)
    {name : String}
    (declarable : Declarable name)
    {start : UInt64}
    (below : start.toNat < limits.coreSize.toNat)
    (program : List Instruction) :
    assemble limits (String.ofList (Text.unlines (canonicalLines (.single name start program)))) =
      .ok (.single name start program) := by
  let warrior : Warrior := .single name start program
  have trimmed : Text.trim name.toList = name.toList := Text.trim_of_edged declarable.edged
  have written : List.Forall₂ Item.Written (canonicalItems warrior) (canonicalBody warrior) :=
    written_canonical (show start.toNat < 0x8000000000000000 by omega)
  have unlabelled : (labels ([] ++ canonicalItems warrior)).Nodup := by
    rw [List.nil_append, labels_canonicalItems]
    exact List.nodup_nil
  obtain ⟨draft, read, gathered⟩ := readFrom_of_nodup written gathered_nil unlabelled 4
  have defined : ∀ other, Uses (canonicalItems warrior) other →
      other ∈ labels (canonicalItems warrior) := fun other uses =>
    absurd uses (not_uses_canonicalItems warrior other)
  obtain ⟨linked, isLinked⟩ := exists_program gathered defined
  obtain ⟨entry, isEntry⟩ := exists_entry gathered defined
  have sameProgram : linked = program :=
    eq_of_programValue_canonical (programValue_of_program gathered isLinked)
  have sameEntry : entry = start.toInt64 :=
    (entryValue_of_entry gathered isEntry).last _ (lastOrigin_canonicalItems warrior)
  have folded : fold entry limits.coreSize = start := by
    have remainder := toNat_fold entry limits.coreSize playable.toNat_coreSize_pos small
    rw [sameEntry, toInt_toInt64 start (by omega), Int.emod_eq_of_lt (by omega) (by omega)]
      at remainder
    rw [sameEntry]
    exact UInt64.toNat_inj.mp (by omega)
  refine (assemble_declared_eq_ok_iff playable small declarable.inside ?_ written warrior).mpr
    ⟨draft, linked, entry, read, isLinked, isEntry, ?_⟩
  · rw [trimmed]
    exact declarable.notEmpty
  · rw [trimmed, folded, sameProgram, String.ofList_toList]

/-- The line feed behind the last line of a canonical source does not matter. -/
theorem lines_canonical_dropLast
    {warrior : Warrior}
    (inside : '\n' ∉ warrior.name.toList)
    (small : warrior.start.toNat < 0x8000000000000000) :
    Text.lines (Text.unlines (canonicalLines warrior)).dropLast =
      Text.lines (Text.unlines (canonicalLines warrior)) := by
  have written := written_canonical small
  have lineFeeds := lineFeed_notMem_declared inside written
  obtain ⟨front, last, body⟩ : ∃ front last, canonicalBody warrior = front ++ [last] :=
    ⟨_, _, (List.dropLast_concat_getLast (by simp [canonicalBody])).symm⟩
  have member : last ∈ canonicalBody warrior := by
    rw [body]
    simp
  have lineChars := lineChar_of_mem written member
  have noReturn : last.getLast? ≠ some '\r' := fun isReturn =>
    absurd (lineChars '\r' (List.mem_of_getLast? isReturn)) (by decide)
  have notEmpty : last ≠ [] := by
    rcases List.mem_cons.mp member with rfl | later
    · simp
    · obtain ⟨instruction, _, rfl⟩ := List.mem_map.mp later
      simp [Instruction.text]
  rw [body, ← List.append_assoc] at lineFeeds
  have split : canonicalLines warrior = declaration warrior.name.toList ++ front ++ [last] := by
    rw [canonicalLines, body, List.append_assoc]
  have unended : (Text.unlines (canonicalLines warrior)).dropLast =
      Text.unlines (declaration warrior.name.toList ++ front) ++ last := by
    simp [split, Text.unlines, ← List.append_assoc]
  rw [unended, split]
  apply Text.lines_unlines_append _ (lineFeeds last (by simp)) notEmpty noReturn
  exact fun line inFront => lineFeeds line (List.mem_append_left _ inFront)

/-- Whatever a source assembles to, its canonical source assembles to it as well, whether or not the
last line is ended. -/
theorem assemble_canonical_of_assemble
    {limits : Limits}
    (small : limits.coreSize.toNat < 0x8000000000000000)
    {source : String}
    {warrior : Warrior}
    (assembled : assemble limits source = .ok warrior) :
    assemble limits (String.ofList (Text.unlines (canonicalLines warrior))) = .ok warrior ∧
    assemble limits (String.ofList (Text.unlines (canonicalLines warrior)).dropLast) =
      .ok warrior := by
  have playable := ((assemble_eq_ok_iff limits source warrior).mp assembled).1
  have positive := playable.toNat_coreSize_pos
  have declarable := declarable_of_assemble assembled
  obtain ⟨name, entry, program, rfl⟩ := exists_single_of_assemble assembled
  have folded := toNat_fold entry limits.coreSize positive small
  have remainder : entry.toInt % limits.coreSize.toNat < limits.coreSize.toNat :=
    Int.emod_lt_of_pos _ (by omega)
  have below : (fold entry limits.coreSize).toNat < limits.coreSize.toNat := by omega
  have again := assemble_canonicalLines playable small declarable below program
  let canonical := Text.unlines (canonicalLines (.single name (fold entry limits.coreSize) program))
  have sameLines : Text.lines canonical.dropLast = Text.lines canonical :=
    lines_canonical_dropLast declarable.inside
      (show (fold entry limits.coreSize).toNat < 0x8000000000000000 by omega)
  have sameResult : assemble limits (String.ofList canonical.dropLast) =
      assemble limits (String.ofList canonical) := by
    unfold assemble
    rw [String.toList_ofList, String.toList_ofList, sameLines]
  exact ⟨again, sameResult.trans again⟩

/-- A name with punctuation, a lone return and a blank of two bytes in front of it, a folded origin,
and the least word. -/
theorem assemble_canonical_of_assemble_odd_name :
    let limits : Limits := ⟨8, 10, 4, 5⟩
    let source := "; redcode\r\n;\tNaMe \u00a0 A; b,\rß\u00a0 \n; assert 1\nORG -1 ; x\n" ++
      "x: MOV #-9223372036854775808, @x\n"
    let warrior : Warrior :=
      .single "A; b,\rß" 7 [⟨.mov, ⟨.immediate, Int64.minValue⟩, ⟨.indirect, 0⟩⟩]
    let canonical := "; redcode\n; name A; b,\rß\n; assert 1\nORG 7\n" ++
      "MOV #-9223372036854775808, @0"
    assemble limits source = .ok warrior ∧
    assemble limits canonical = .ok warrior ∧
    assemble limits (canonical ++ "\n") = .ok warrior := by
  intro limits source warrior canonical
  have assembled : assemble limits source = .ok warrior := by decide +kernel
  have ended : String.ofList (Text.unlines (canonicalLines warrior)) = canonical ++ "\n" := by
    decide +kernel
  have unended : String.ofList (Text.unlines (canonicalLines warrior)).dropLast = canonical := by
    decide +kernel
  have again := assemble_canonical_of_assemble (by decide) assembled
  rw [ended, unended] at again
  exact ⟨assembled, again.2, again.1⟩

end CoreWar.Assembly
