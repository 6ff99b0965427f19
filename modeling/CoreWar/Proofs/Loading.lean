import CoreWar.Proofs.Safety
import Mathlib.Data.Nat.ModEq
import Mathlib.Order.Bounds.Basic

/-!
Contract: what a core holds after a program was copied into it.

Owns:
- one cell through the steps of the copy: missed by all of them, or written last by one;
- the instructions of a program that go to one cell, and which of them is the last;
- every cell after the copy, for a program of any length, and the reads after it.

Does not own: the warriors whose programs are copied, see `CoreWar.Proofs.Placement`.

A program that is longer than the core goes around it and overwrites its own instructions. Those
that go to one cell are whole laps apart, so the last of them is the one behind which less than a
lap of the program follows.
-/

namespace CoreWar.Core

/-! ## Copying -/

/-- The address after one that is not the greatest word. -/
theorem toInt_succ {address : Int64} (below : address.toInt + 1 < 0x8000000000000000) :
    (address + 1).toInt = address.toInt + 1 := by
  have least := address.le_toInt
  have one := Int64.toInt_one
  rw [toInt_add_of_fits address 1 (by omega) (by omega), one]

/-- A cell that no instruction of the program goes to is left alone. -/
theorem cellAt_loadFrom_of_missed
    {core : Core}
    (addressable : core.Addressable)
    {address : Int64}
    {program : List Instruction}
    (fits : address.toInt + program.length < 0x8000000000000000)
    {other : Int}
    (missed : ∀ index < program.length,
      (address.toInt + index) % core.cells.size ≠ other % core.cells.size) :
    (core.loadFrom address program).cellAt other = core.cellAt other := by
  induction program generalizing core address with
  | nil => rfl
  | cons instruction rest inductionHypothesis =>
      rw [List.length_cons] at fits missed
      have next : (address + 1).toInt = address.toInt + 1 := toInt_succ (by omega)
      have size : (core.write address instruction).cells.size = core.cells.size :=
        size_modify core address _
      have first : address.toInt % core.cells.size ≠ other % core.cells.size := by
        have atZero := missed 0 (by omega)
        rwa [Int.natCast_zero, Int.add_zero] at atZero
      rw [loadFrom, inductionHypothesis (addressable.of_size size) (by omega)]
      · rw [write, cellAt_modify addressable, if_neg first]
      · intro index below
        rw [size, next]
        have later := missed (index + 1) (by omega)
        rwa [Int.natCast_add, Int.natCast_one, Int.add_comm (index : Int) 1, ← Int.add_assoc]
          at later

/-- A cell holds the last instruction of the program that goes to it. -/
theorem cellAt_loadFrom_of_last
    {core : Core}
    (addressable : core.Addressable)
    {address : Int64}
    {program : List Instruction}
    (fits : address.toInt + program.length < 0x8000000000000000)
    {other : Int}
    {index : Nat}
    (below : index < program.length)
    (hit : (address.toInt + index) % core.cells.size = other % core.cells.size)
    (last : ∀ later < program.length, index < later →
      (address.toInt + later) % core.cells.size ≠ other % core.cells.size) :
    (core.loadFrom address program).cellAt other = program[index] := by
  induction program generalizing core address index with
  | nil => contradiction
  | cons instruction rest inductionHypothesis =>
      rw [List.length_cons] at fits below last
      have next : (address + 1).toInt = address.toInt + 1 := toInt_succ (by omega)
      have size : (core.write address instruction).cells.size = core.cells.size :=
        size_modify core address _
      have shifted (place : Nat) :
          (address + 1).toInt + place = address.toInt + (place + 1 : Nat) := by
        omega
      rw [loadFrom]
      cases index with
      | zero =>
          -- The first instruction goes to the cell, and none of the others does.
          rw [cellAt_loadFrom_of_missed (addressable.of_size size) (by omega)]
          · rw [Int.natCast_zero, Int.add_zero] at hit
            rw [write, cellAt_modify addressable, if_pos hit]
            rfl
          · intro later laterBelow
            rw [size, shifted]
            exact last (later + 1) (by omega) (by omega)
      | succ index =>
          have restHit :
              ((address + 1).toInt + index) % (core.write address instruction).cells.size =
                other % (core.write address instruction).cells.size := by
            rw [size, shifted]
            exact hit
          rw [inductionHypothesis (addressable.of_size size) (by omega) (by omega) restHit]
          · rfl
          · intro later laterBelow after
            rw [size, shifted]
            exact last (later + 1) (by omega) (by omega)

/-! ## The instructions that go to a cell -/

/-- The numbers of the instructions that go to a cell, when a program of this length is copied into
the core from `start` on. -/
def landings (core : Core) (start length cell : Nat) : Set Nat :=
  {index | index < length ∧ (start + index) % core.cells.size = cell}

section Landings

variable {core : Core} (positive : 0 < core.cells.size) {start length cell : Nat}
include positive

/-- The last instruction that goes to a cell is the one behind which less than a lap follows. -/
theorem isGreatest_landings_iff {index : Nat} :
    IsGreatest (core.landings start length cell) index ↔
      index ∈ core.landings start length cell ∧ length ≤ index + core.cells.size := by
  constructor
  · rintro ⟨⟨below, hit⟩, greatest⟩
    refine ⟨⟨below, hit⟩, ?_⟩
    by_contra follows
    have lapLater : index + core.cells.size ∈ core.landings start length cell :=
      ⟨by omega, by rw [← Nat.add_assoc, Nat.add_mod_right, hit]⟩
    have atMost := greatest lapLater
    omega
  · rintro ⟨⟨below, hit⟩, lessThanLap⟩
    refine ⟨⟨below, hit⟩, ?_⟩
    rintro other ⟨otherBelow, otherHit⟩
    by_contra beyond
    have apart : index ≡ other [MOD core.cells.size] :=
      Nat.ModEq.add_left_cancel' start (hit.trans otherHit.symm)
    have lap := apart.add_le_of_lt (Nat.not_le.mp beyond)
    omega

/-- If any instruction goes to a cell, there is a last one: from any that does, it is as many whole
laps on as the program has left. -/
theorem exists_isGreatest_landings (landed : (core.landings start length cell).Nonempty) :
    ∃ index, IsGreatest (core.landings start length cell) index := by
  obtain ⟨first, below, hit⟩ := landed
  have split := Nat.div_add_mod' (length - 1 - first) core.cells.size
  have part := Nat.mod_lt (length - 1 - first) positive
  refine ⟨first + (length - 1 - first) / core.cells.size * core.cells.size, ?_⟩
  apply (isGreatest_landings_iff positive).mpr
  refine ⟨⟨by omega, ?_⟩, by omega⟩
  rw [← Nat.add_assoc, Nat.add_mul_mod_self_right, hit]

end Landings

/-! ## Every cell after the copy -/

/-- A core as it stands after a program was copied into it: each cell holds the last instruction
that goes to it, and what it held before if none does. -/
structure Copied (before : Core) (start : Nat) (program : List Instruction) (after : Core) :
    Prop where
  size : after.cells.size = before.cells.size
  last : ∀ cell index,
    IsGreatest (before.landings start program.length cell) index →
    after.cells[cell]? = program[index]?
  others : ∀ cell,
    before.landings start program.length cell = ∅ →
    after.cells[cell]? = before.cells[cell]?

/-- Every cell is accounted for, so there is only one such core. -/
theorem Copied.unique
    {before : Core}
    (positive : 0 < before.cells.size)
    {start : Nat}
    {program : List Instruction}
    {left right : Core}
    (leftCopied : Copied before start program left)
    (rightCopied : Copied before start program right) :
    left = right := by
  apply ext_getElem?
  intro cell
  by_cases landed : (before.landings start program.length cell).Nonempty
  · obtain ⟨index, greatest⟩ := exists_isGreatest_landings positive landed
    rw [leftCopied.last cell index greatest, rightCopied.last cell index greatest]
  · have none := Set.not_nonempty_iff_eq_empty.mp landed
    rw [leftCopied.others cell none, rightCopied.others cell none]

section Copied

variable
  {core : Core}
  (addressable : core.Addressable)
  {start : UInt64}
  (startSmall : start.toNat < 0x4000000000000000)
  {program : List Instruction}
  (programSmall : program.length ≤ 0x4000000000000000)

include addressable startSmall programSmall

/-- A cell holds the last instruction that goes to it, however often the program goes around. -/
theorem getElem?_load_of_isGreatest
    {cell index : Nat}
    (greatest : IsGreatest (core.landings start.toNat program.length cell) index) :
    (core.load start program).cells[cell]? = program[index]? := by
  obtain ⟨⟨below, rfl⟩, greatest⟩ := greatest
  have size : (core.load start program).cells.size = core.cells.size :=
    size_loadFrom core _ program
  have small := addressable.small
  have asInt := toInt_toInt64 start (by omega)
  have inside := Nat.mod_lt (start.toNat + index) addressable.positive
  rw [getElem?_eq_cellAt _ (by omega), List.getElem?_eq_getElem below, load]
  congr 1
  apply cellAt_loadFrom_of_last addressable (by omega)
  · rw [asInt, Int.natCast_emod, Int.natCast_add, Int.emod_emod]
  · intro later laterBelow after same
    rw [asInt, Int.natCast_emod, Int.natCast_add, Int.emod_emod] at same
    have atMost := greatest ⟨laterBelow, by exact_mod_cast same⟩
    omega

/-- A cell to which no instruction goes is as it was. -/
theorem getElem?_load_of_missed
    {cell : Nat}
    (missed : ∀ index < program.length, cell ≠ (start.toNat + index) % core.cells.size) :
    (core.load start program).cells[cell]? = core.cells[cell]? := by
  have size : (core.load start program).cells.size = core.cells.size :=
    size_loadFrom core _ program
  have small := addressable.small
  by_cases inside : cell < core.cells.size
  · have asInt := toInt_toInt64 start (by omega)
    rw [getElem?_eq_cellAt _ (by omega), getElem?_eq_cellAt core inside, load]
    congr 1
    apply cellAt_loadFrom_of_missed addressable (by omega)
    intro index below same
    rw [asInt, Int.emod_eq_of_lt (a := (cell : Int)) (by omega) (by omega)] at same
    exact missed index below (by exact_mod_cast same.symm)
  · rw [Array.getElem?_eq_none (by omega), Array.getElem?_eq_none (by omega)]

theorem copied_load : Copied core start.toNat program (core.load start program) where
  size := size_loadFrom core _ program
  last := by
    intro cell index greatest
    exact getElem?_load_of_isGreatest addressable startSmall programSmall greatest
  others := by
    intro cell none
    apply getElem?_load_of_missed addressable startSmall programSmall
    intro index below hit
    have landed : index ∈ core.landings start.toNat program.length cell := ⟨below, hit.symm⟩
    rw [none] at landed
    exact landed

end Copied

/-- A program that is no longer than the core does not overwrite itself: each instruction is in its
cell, around the end of the core. -/
theorem getElem?_load
    {core : Core}
    (addressable : core.Addressable)
    {start : UInt64}
    (startSmall : start.toNat < 0x4000000000000000)
    {program : List Instruction}
    (short : program.length ≤ core.cells.size)
    {index : Nat}
    (below : index < program.length) :
    (core.load start program).cells[(start.toNat + index) % core.cells.size]? =
      some program[index] := by
  have programSmall := Nat.le_trans short addressable.small
  have greatest := (isGreatest_landings_iff addressable.positive).mpr
    ⟨(⟨below, rfl⟩ : index ∈ core.landings start.toNat program.length _), by omega⟩
  rw [getElem?_load_of_isGreatest addressable startSmall programSmall greatest,
    List.getElem?_eq_getElem below]

/-- An address reads the cell that is its remainder, in the core as in the checked machine. -/
theorem read?_eq_getElem?
    {core : Core}
    (addressable : core.Addressable)
    (address : Int64) :
    core.read? address = core.cells[(address.toInt % core.cells.size).toNat]? := by
  rw [read?, fold?_eq addressable, ← toNat_fold_eq addressable]
  rfl

/-- A program of any length that the words allow, copied around the core as often as it goes. The
copy succeeds, its result is the one core in which each cell holds the last instruction that goes to
it, or what it held before if none does, and every address then reads the cell that is its
remainder. -/
theorem load_leaves_last_instructions
    {core : Core}
    (addressable : core.Addressable)
    (start : UInt64)
    (startSmall : start.toNat < 0x4000000000000000)
    (program : List Instruction)
    (programSmall : program.length < 0x4000000000000000) :
    core.loadFrom? start 0 program = some (core.load start program) ∧
    (∀ after, Copied core start.toNat program after ↔ after = core.load start program) ∧
    ∀ address,
      (core.load start program).read? address = some ((core.load start program).read address) ∧
      (core.load start program).cells[(address.toInt % core.cells.size).toNat]? =
        some ((core.load start program).read address) := by
  have copied := copied_load addressable startSmall (Nat.le_of_lt programSmall)
  have loaded := addressable.of_size copied.size
  refine ⟨?_, ?_, ?_⟩
  · exact loadFrom?_zero addressable startSmall program (by omega)
  · intro after
    constructor
    · intro afterCopied
      exact afterCopied.unique addressable.positive copied
    · rintro rfl
      exact copied
  · intro address
    have read := read?_eq loaded address
    refine ⟨read, ?_⟩
    rw [← read, read?_eq_getElem? loaded, copied.size]

/-- Seven instructions that go around a core of three cells more than twice, from the last start
that is allowed, and two that go around the end of a core of four cells, one of them occupied. -/
theorem load_leaves_last_instructions_overwritten :
    let numbered (field : Int64) : Instruction := ⟨.jmp, {}, ⟨.immediate, field⟩⟩
    let long := [numbered 0, numbered 1, numbered 2, numbered 3, numbered 4, numbered 5, numbered 6]
    let wound := (ofSize 3).load 0x3fffffffffffffff long
    let occupied := (ofSize 4).write 1 (numbered 9)
    let short := [numbered 0, numbered 1]
    let wrapped := occupied.load 3 short
    (ofSize 3).Addressable ∧
    (ofSize 3).loadFrom? 0x3fffffffffffffff 0 long = some wound ∧
    wound.cells[0]? = some (numbered 6) ∧
    wound.cells[1]? = some (numbered 4) ∧
    wound.read Int64.minValue = numbered 4 ∧
    occupied.Addressable ∧
    wrapped.cells[0]? = some (numbered 1) ∧
    wrapped.cells[1]? = some (numbered 9) ∧
    wrapped.read (-3) = numbered 9 := by
  intro numbered long wound occupied short wrapped
  have addressable : (ofSize 3).Addressable := ⟨by decide, by decide⟩
  have occupiedAddressable : occupied.Addressable := ⟨by decide, by decide⟩
  -- The program goes around twice, and its last instruction starts a third lap.
  obtain ⟨succeeds, exactly, reads⟩ :=
    load_leaves_last_instructions addressable 0x3fffffffffffffff (by decide) long (by decide)
  have copied := (exactly wound).mpr rfl
  have first : wound.cells[0]? = some (numbered 6) :=
    copied.last 0 6 ((isGreatest_landings_iff addressable.positive).mpr
      ⟨⟨by decide, by decide⟩, by decide⟩)
  have second : wound.cells[1]? = some (numbered 4) :=
    copied.last 1 4 ((isGreatest_landings_iff addressable.positive).mpr
      ⟨⟨by decide, by decide⟩, by decide⟩)
  have least : (Int64.minValue.toInt % (ofSize 3).cells.size).toNat = 1 := by decide
  have readLeast := (reads Int64.minValue).2
  rw [least, second] at readLeast
  -- No instruction of the other program goes to the occupied cell.
  obtain ⟨_, exactlyWrapped, readsWrapped⟩ :=
    load_leaves_last_instructions occupiedAddressable 3 (by decide) short (by decide)
  have copiedWrapped := (exactlyWrapped wrapped).mpr rfl
  have around : wrapped.cells[0]? = some (numbered 1) :=
    copiedWrapped.last 0 1 ((isGreatest_landings_iff occupiedAddressable.positive).mpr
      ⟨⟨by decide, by decide⟩, by decide⟩)
  have missed : occupied.landings (3 : UInt64).toNat short.length 1 = ∅ := by
    have elsewhere : ∀ index < 2, (3 + index) % 4 ≠ 1 := by decide
    apply Set.eq_empty_of_forall_notMem
    rintro index ⟨below, hit⟩
    exact elsewhere index below hit
  have kept : wrapped.cells[1]? = some (numbered 9) := copiedWrapped.others 1 missed
  have negative : ((-3 : Int64).toInt % occupied.cells.size).toNat = 1 := by decide
  have readKept := (readsWrapped (-3)).2
  rw [negative, kept] at readKept
  exact ⟨addressable, succeeds, first, second, (Option.some.inj readLeast).symm,
    occupiedAddressable, around, kept, (Option.some.inj readKept).symm⟩

end CoreWar.Core
