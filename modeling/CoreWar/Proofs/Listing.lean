import CoreWar.Listing
import CoreWar.Proofs.Addressing
import CoreWar.Proofs.Assembly.Canonical

/-!
Contract: what can be told from listings and dumps.

Owns:
- the text of an instruction, which the assembler reads back and no other instruction has;
- numbered lines, from which each number and each instruction is found again;
- the cells of a dump, around the end of the core, and the core that a full dump tells.

Does not own: the listing of a warrior, which marks the first thread in a column of its own.

A number is padded to a width and may outgrow it. It ends at the colon behind it, whatever the
width.
-/

namespace CoreWar

/-! ## Instructions -/

namespace Instruction

open Assembly

/-- The assembler reads the text of an instruction as that instruction. -/
theorem ofLine_text (instruction : Instruction) :
    Statement.ofLine instruction.text = .ok (itemOf instruction).statement :=
  ofLine_of_written (written_itemOf instruction)

theorem text_inj {left right : Instruction} : left.text = right.text ↔ left = right := by
  constructor
  · intro same
    have read : (itemOf left).statement = (itemOf right).statement := by
      apply Except.ok.inj (ε := LineFault)
      rw [← ofLine_text left, same, ofLine_text right]
    obtain ⟨operation, ⟨aMode, aField⟩, ⟨bMode, bField⟩⟩ := left
    obtain ⟨otherOperation, ⟨otherAMode, otherAField⟩, ⟨otherBMode, otherBField⟩⟩ := right
    simp only [itemOf, Item.statement, Arguments.a?, Arguments.b?, writtenOperand, Term.field,
      Statement.instruction.injEq, WrittenOperand.mk.injEq, Option.some.injEq,
      Field.number.injEq] at read
    obtain ⟨_, rfl, ⟨rfl, rfl⟩, rfl, rfl⟩ := read
    rfl
  · intro same
    rw [same]

theorem lineChar_text (instruction : Instruction) :
    ∀ character ∈ instruction.text, LineChar character :=
  fun _ => lineChar_of_written (written_itemOf instruction) _

end Instruction

/-! ## Numbers -/

namespace Text

theorem isDigit_of_mem_paddedDecimal
    {width number : Nat}
    {character : Char}
    (member : character ∈ paddedDecimal width number) :
    character.isDigit = true := by
  rcases List.mem_append.mp member with zero | digit
  · rw [List.eq_of_mem_replicate zero]
    rfl
  · exact isDigit_of_mem_decimal digit

/-- Zeros in front do not change a number. -/
theorem ofDigitChars_paddedDecimal (width number : Nat) :
    Nat.ofDigitChars 10 (paddedDecimal width number) 0 = number := by
  rw [paddedDecimal, List.leftpad, Nat.ofDigitChars_append, Nat.ofDigitChars_replicate_zero,
    Nat.mul_zero]
  exact Nat.ofDigitChars_ten_toDigits

end Text

/-! ## Numbered lines -/

namespace Listing

/-- A numbered line without the line feed that ends it. -/
def entry (width number : Nat) (instruction : Instruction) : List Char :=
  Text.paddedDecimal width number ++ ':' :: ' ' :: instruction.text

/-- The number of a line ends at its colon, and the instruction stands behind it. -/
theorem entry_inj
    {width leftNumber rightNumber : Nat}
    {left right : Instruction}
    (same : entry width leftNumber left = entry width rightNumber right) :
    leftNumber = rightNumber ∧ left = right := by
  have parts (number : Nat) (instruction : Instruction) :
      (entry width number instruction).span Char.isDigit =
        (Text.paddedDecimal width number, ':' :: ' ' :: instruction.text) := by
    apply Text.span_append
    · exact fun _ member => Text.isDigit_of_mem_paddedDecimal member
    · rintro _ ⟨⟩
      rfl
  have split := congrArg (List.span Char.isDigit) same
  rw [parts, parts, Prod.mk.injEq] at split
  obtain ⟨sameDigits, sameText⟩ := split
  constructor
  · rw [← Text.ofDigitChars_paddedDecimal width leftNumber, sameDigits,
      Text.ofDigitChars_paddedDecimal]
  · exact Instruction.text_inj.mp (List.cons.inj (List.cons.inj sameText).2).2

theorem lineChar_entry (width number : Nat) (instruction : Instruction) :
    ∀ character ∈ entry width number instruction, Assembly.LineChar character := by
  intro character member
  rcases List.mem_append.mp member with digit | member
  · have isDigit := Text.isDigit_of_mem_paddedDecimal digit
    exact Or.inl (by simp [Assembly.isFieldStart, Char.isAlphanum, isDigit])
  · rcases List.mem_cons.mp member with rfl | member
    · exact Or.inr (by decide)
    · rcases List.mem_cons.mp member with rfl | inText
      · exact Or.inr (by decide)
      · exact instruction.lineChar_text character inText

/-- Numbered lines in a row. -/
def numberedLines (width : Nat) (lines : List (Nat × Instruction)) : List Char :=
  lines.flatMap fun line => numberedLine width line.1 line.2

/-- Cut at its line feeds, the text of numbered lines is those lines. -/
theorem lines_numberedLines (width : Nat) (lines : List (Nat × Instruction)) :
    Text.lines (numberedLines width lines) =
      lines.map fun line => entry width line.1 line.2 := by
  have entries : numberedLines width lines =
      Text.unlines (lines.map fun line => entry width line.1 line.2) := by
    simp [numberedLines, numberedLine, entry, Text.unlines, List.flatMap_map]
  have absent (special : Char) (notLineChar : ¬Assembly.LineChar special) :
      ∀ text ∈ lines.map (fun line => entry width line.1 line.2), special ∉ text := by
    intro text member inside
    obtain ⟨line, _, rfl⟩ := List.mem_map.mp member
    exact notLineChar (lineChar_entry width line.1 line.2 special inside)
  have noReturn : ∀ text ∈ lines.map (fun line => entry width line.1 line.2),
      Text.withoutReturn text = text := by
    intro text member
    apply if_neg
    intro last
    exact absent '\r' (by decide) text member (List.mem_of_getLast? last)
  rw [entries, Text.lines_unlines _ (absent '\n' (by decide)),
    List.map_congr_left (g := id) noReturn, List.map_id]

/-- Numbered lines tell their numbers and their instructions. -/
theorem numberedLines_injective (width : Nat) : Function.Injective (numberedLines width) := by
  intro left right same
  have entries := congrArg Text.lines same
  rw [lines_numberedLines, lines_numberedLines] at entries
  refine List.map_injective_iff.mpr ?_ entries
  rintro ⟨leftNumber, left⟩ ⟨rightNumber, right⟩ sameEntry
  obtain ⟨rfl, rfl⟩ := entry_inj sameEntry
  rfl

theorem programLines_eq (program : List Instruction) :
    programLines program = numberedLines 4 (program.zipIdx.map Prod.swap) := by
  simp [programLines, numberedLines, List.flatMap_map]

theorem dumpLines_eq (core : Core) (start count : UInt64) :
    dumpLines core start count =
      numberedLines 5 ((core.dump start count).map fun cell => (cell.1.toNat, cell.2)) := by
  simp [dumpLines, numberedLines, List.flatMap_map]

/-- No two programs have the same listing. -/
theorem disassemble_injective : Function.Injective disassemble := by
  intro left right same
  have lines := String.ofList_injective same
  rw [programLines_eq, programLines_eq] at lines
  have programs := congrArg (List.map Prod.snd) (numberedLines_injective 4 lines)
  rw [List.map_map, List.map_map] at programs
  calc
    left = left.zipIdx.map Prod.fst := (List.zipIdx_map_fst 0 left).symm
    _ = right.zipIdx.map Prod.fst := programs
    _ = right := List.zipIdx_map_fst 0 right

end Listing

/-! ## The cells of a dump -/

namespace Core

/-- The cells of a stretch of memory, around the end of the core, each with its address. -/
def stretch (core : Core) (start count : Nat) : List (Nat × Option Instruction) :=
  (List.range count).map fun index =>
    let address := (start + index) % core.cells.size
    (address, core.cells[address]?)

/-- A cell of a stretch, told by its address and what it holds. -/
def told (cell : UInt64 × Instruction) : Nat × Option Instruction :=
  (cell.1.toNat, some cell.2)

section Dump

variable {core : Core} (addressable : core.Addressable)
include addressable

/-- The cell so many places after another one is found by counting around the end of the core. -/
theorem told_cellAfter
    {start : UInt64}
    (startSmall : start.toNat < 0x4000000000000000)
    {distance : Nat}
    (distanceSmall : distance < 0x4000000000000000) :
    told (core.cellAfter start distance) =
      ((start.toNat + distance) % core.cells.size,
        core.cells[(start.toNat + distance) % core.cells.size]?) := by
  have startInt := toInt_toInt64 start (by omega)
  have distanceInt : (Int64.ofNat distance).toInt = distance :=
    Int64.toInt_ofNat_of_lt (by omega)
  have sum : (start.toInt64 + Int64.ofNat distance).toInt = (start.toNat + distance : Nat) := by
    rw [toInt_add_of_fits _ _ (by omega) (by omega), startInt, distanceInt, Int.natCast_add]
  have address := toNat_fold_of_toInt addressable sum
  have inside := inside_fold addressable (start.toInt64 + Int64.ofNat distance)
  have cell : core.read (core.fold (start.toInt64 + Int64.ofNat distance)).toInt64 =
      core.cellAt ((start.toNat + distance) % core.cells.size : Nat) := by
    rw [read_eq_cellAt addressable, toInt_of_inside addressable inside, address]
  unfold Inside at inside
  rw [getElem?_eq_cellAt core (by omega), told, cellAfter]
  simp only [cell, address]

/-- A dump is the stretch without its cleared cells. -/
theorem map_told_dump
    {start count : UInt64}
    (startSmall : start.toNat < 0x4000000000000000)
    (countSmall : count.toNat ≤ 0x4000000000000000) :
    (core.dump start count).map told =
      (core.stretch start.toNat count.toNat).filter fun cell =>
        cell.2 ≠ some Instruction.cleared := by
  have cells : core.stretch start.toNat count.toNat =
      (List.range count.toNat).map fun index => told (core.cellAfter start index) := by
    apply List.map_congr_left
    intro index member
    have below := List.mem_range.mp member
    exact (told_cellAfter addressable startSmall (by omega)).symm
  rw [cells, dump, List.filter_map, List.filter_map, List.map_map]
  congr 1
  apply List.filter_congr
  intro index _
  simp [told, Instruction.isCleared]

end Dump

/-- The stretch of a whole core holds each of its cells once. -/
theorem mem_stretch_zero_iff (core : Core) (cell : Nat × Option Instruction) :
    cell ∈ core.stretch 0 core.cells.size ↔
      cell.1 < core.cells.size ∧ cell.2 = core.cells[cell.1]? := by
  obtain ⟨address, content⟩ := cell
  simp only [stretch, List.mem_map, List.mem_range, Prod.mk.injEq, Nat.zero_add]
  constructor
  · rintro ⟨index, below, rfl, rfl⟩
    rw [Nat.mod_eq_of_lt below]
    exact ⟨below, rfl⟩
  · rintro ⟨below, rfl⟩
    exact ⟨address, below, Nat.mod_eq_of_lt below, by rw [Nat.mod_eq_of_lt below]⟩

/-- Cores of the same size whose occupied cells are the same are the same core. -/
theorem eq_of_occupied
    {left right : Core}
    (size : left.cells.size = right.cells.size)
    (occupied :
      ((left.stretch 0 left.cells.size).filter fun cell => cell.2 ≠ some Instruction.cleared) =
        (right.stretch 0 right.cells.size).filter fun cell =>
          cell.2 ≠ some Instruction.cleared) :
    left = right := by
  -- An occupied cell of either core is one of the other.
  have shared {core other : Core} (same :
      ((core.stretch 0 core.cells.size).filter fun cell => cell.2 ≠ some Instruction.cleared) =
        (other.stretch 0 other.cells.size).filter fun cell => cell.2 ≠ some Instruction.cleared)
      {index : Nat} (below : index < core.cells.size)
      (notCleared : core.cells[index]? ≠ some Instruction.cleared) :
      core.cells[index]? = other.cells[index]? := by
    have member : (index, core.cells[index]?) ∈ (core.stretch 0 core.cells.size).filter
        fun cell => cell.2 ≠ some Instruction.cleared := by
      rw [List.mem_filter]
      exact ⟨(mem_stretch_zero_iff core _).mpr ⟨below, rfl⟩, decide_eq_true notCleared⟩
    rw [same, List.mem_filter] at member
    exact ((mem_stretch_zero_iff other _).mp member.1).2
  apply ext_getElem?
  intro index
  by_cases below : index < left.cells.size
  · by_cases leftCleared : left.cells[index]? = some Instruction.cleared
    · by_cases rightCleared : right.cells[index]? = some Instruction.cleared
      · rw [leftCleared, rightCleared]
      · exact (shared occupied.symm (by omega) rightCleared).symm
    · exact shared occupied below leftCleared
  · rw [Array.getElem?_eq_none (by omega), Array.getElem?_eq_none (by omega)]

end Core

namespace Listing

theorem eq_of_dump_eq
    {left right : Core}
    (size : left.cells.size = right.cells.size)
    (small : left.cells.size ≤ 0x4000000000000000)
    (same : dump left 0 left.size = dump right 0 right.size) :
    left = right := by
  by_cases empty : left.cells.size = 0
  · cases left
    cases right
    simp_all
  · have addressable : left.Addressable := ⟨by omega, small⟩
    have rightAddressable := addressable.of_size size.symm
    have lines := String.ofList_injective same
    rw [dumpLines_eq, dumpLines_eq] at lines
    have cells := numberedLines_injective 5 lines
    have told :
        (left.dump 0 left.size).map Core.told = (right.dump 0 right.size).map Core.told := by
      have again := congrArg (List.map fun cell => (cell.1, some cell.2)) cells
      rwa [List.map_map, List.map_map] at again
    have leftSize := Core.toNat_size addressable
    have rightSize := Core.toNat_size rightAddressable
    rw [Core.map_told_dump addressable (by decide) (by omega),
      Core.map_told_dump rightAddressable (by decide) (by omega), leftSize, rightSize] at told
    exact Core.eq_of_occupied size told

/-- Dumps and listings lose nothing. A dump holds exactly the cells of its stretch that are not
cleared, in the order of the stretch and with their addresses. So two cores of one size with the
same full dump are the same, and two programs with the same listing are. -/
theorem dump_exact_and_texts_lossless :
    (∀ (core : Core) (start count : UInt64),
      core.Addressable →
      start.toNat < 0x4000000000000000 →
      count.toNat < 0x4000000000000000 →
      (core.dump start count).map Core.told =
        (core.stretch start.toNat count.toNat).filter fun cell =>
          cell.2 ≠ some Instruction.cleared) ∧
    (∀ left right : Core,
      left.cells.size = right.cells.size →
      left.cells.size < 0x4000000000000000 →
      dump left 0 left.size = dump right 0 right.size →
      left = right) ∧
    ∀ left right : List Instruction, disassemble left = disassemble right → left = right := by
  refine ⟨?_, ?_, ?_⟩
  · intro core start count addressable startSmall countSmall
    exact Core.map_told_dump addressable startSmall (Nat.le_of_lt countSmall)
  · intro left right size small same
    exact eq_of_dump_eq size (Nat.le_of_lt small) same
  · intro left right same
    exact disassemble_injective same

/-- A program of three instructions that goes around the end of a core of five cells, one of them
cleared, and the same cells written one by one. -/
theorem dump_exact_and_texts_lossless_around_the_end :
    let mover : Instruction := ⟨.mov, {}, ⟨.immediate, 1⟩⟩
    let jumper : Instruction := ⟨.jmp, ⟨.indirect, -2⟩, ⟨.direct, Int64.minValue⟩⟩
    let loaded := (Core.ofSize 5).load 4 [mover, .cleared, jumper]
    let written := ((Core.ofSize 5).write 6 jumper).write (-1) mover
    loaded.Addressable ∧
    (loaded.dump 3 4).map Core.told = [(4, some mover), (1, some jumper)] ∧
    loaded.cells.size = written.cells.size ∧
    dump loaded 0 loaded.size = dump written 0 written.size ∧
    loaded = written ∧
    disassemble loaded.cells.toList = disassemble written.cells.toList ∧
    loaded.cells.toList = written.cells.toList := by
  intro mover jumper loaded written
  have addressable : loaded.Addressable := ⟨by decide, by decide⟩
  obtain ⟨exactly, cores, programs⟩ := dump_exact_and_texts_lossless
  have cells := exactly loaded 3 4 addressable (by decide) (by decide)
  have size : loaded.cells.size = written.cells.size := by decide
  have dumps : dump loaded 0 loaded.size = dump written 0 written.size := by decide +kernel
  have listings : disassemble loaded.cells.toList = disassemble written.cells.toList := by
    decide +kernel
  refine ⟨addressable, ?_, size, dumps, cores loaded written size (by decide) dumps, listings,
    programs _ _ listings⟩
  rw [cells]
  decide

end Listing

end CoreWar
