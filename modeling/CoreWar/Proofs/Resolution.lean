import CoreWar.Proofs.Safety

/-!
Contract: operands are resolved by exact arithmetic modulo the size of the core.

Owns:
- one hop from a cell to another, as a sum over the integers;
- the targets of direct and of indirect operands, for every field.

Does not own: the checked machine, see `CoreWar.Proofs.Checked`.
-/

namespace CoreWar

namespace Core

/-- From a cell of the core to the one at this distance. What is added as signed words fits the word
before it is folded, and the outcome is the sum over the integers modulo the size. -/
structure Hop (core : Core) (base : UInt64) (distance : Int64) (address : UInt64) : Prop where
  nonnegative : 0 ≤ base.toInt64.toInt + (core.fold distance).toInt64.toInt
  fits : base.toInt64.toInt + (core.fold distance).toInt64.toInt < 0x8000000000000000
  exact : (address.toNat : Int) = (base.toNat + distance.toInt) % core.cells.size

/-- The target's address is that of a cell of the core, and its value is the A-field of the cell. -/
def Targeted (core : Core) (target : Target) : Prop :=
  ∃ cell, core.cells[target.address.toNat]? = some cell ∧ target.value = cell.a.field

variable {core : Core} (addressable : core.Addressable)
include addressable

theorem hop_displace {base : UInt64} (inside : core.Inside base) (distance : Int64) :
    core.Hop base distance (core.displace base distance) := by
  have small := addressable.small
  have folded := inside_fold addressable distance
  have baseInt := toInt_of_inside addressable inside
  have foldedInt := toInt_of_inside addressable folded
  unfold Inside at inside folded
  exact ⟨by omega, by omega, toNat_displace addressable inside distance⟩

/-- Reading inside the core needs no folding. -/
theorem getElem?_of_inside {address : UInt64} (inside : core.Inside address) :
    core.cells[address.toNat]? = some (core.read address.toInt64) := by
  rw [read_eq_cellAt addressable, toInt_of_inside addressable inside]
  exact getElem?_eq_cellAt core inside

theorem targeted_target {address : UInt64} (inside : core.Inside address) :
    core.Targeted (core.target address) :=
  ⟨core.read address.toInt64, getElem?_of_inside addressable inside, rfl⟩

end Core

/-- In a core of at most 2^62 cells every operand has a target, whatever its field and whatever the
cells hold. A direct operand targets the cell one hop away. An indirect operand targets the cell one
more hop away, by the A-field of the cell that the first hop leads to. Each hop is exact. -/
theorem Operand.resolve_by_hops
    {core : Core}
    (addressable : core.Addressable)
    {pc : UInt64}
    (inside : core.Inside pc)
    (field : Int64) :
    let direct := resolve ⟨.direct, field⟩ core pc
    let indirect := resolve ⟨.indirect, field⟩ core pc
    (resolve? ⟨.direct, field⟩ core pc = some direct ∧
      core.Hop pc field direct.address ∧ core.Targeted direct) ∧
    resolve? ⟨.indirect, field⟩ core pc = some indirect ∧
      ∃ pointer cell, core.Hop pc field pointer ∧ core.cells[pointer.toNat]? = some cell ∧
        core.Hop pointer cell.a.field indirect.address ∧ core.Targeted indirect := by
  intro direct indirect
  let pointer := core.displace pc field
  have pointerInside : core.Inside pointer := Core.inside_displace addressable pc field
  have firstHop : core.Hop pc field pointer := Core.hop_displace addressable inside field
  have read := Core.getElem?_of_inside addressable pointerInside
  constructor
  · exact ⟨resolve?_eq ⟨.direct, field⟩ addressable inside, firstHop,
      Core.targeted_target addressable pointerInside⟩
  · have targetInside := Core.inside_displace addressable pointer
      (core.read pointer.toInt64).a.field
    exact ⟨resolve?_eq ⟨.indirect, field⟩ addressable inside, pointer, _, firstHop, read,
      Core.hop_displace addressable pointerInside _, Core.targeted_target addressable targetInside⟩

/-- In a core of three cells the greatest field leads from the last cell to the first, whose A-field
is the least word and leads on to the second. -/
theorem Operand.resolve_by_hops_extreme :
    let core : Core := ⟨#[⟨.dat, ⟨.direct, Int64.minValue⟩, {}⟩, ⟨.dat, ⟨.direct, 5⟩, {}⟩, .cleared]⟩
    core.Addressable ∧ core.Inside 2 ∧
    resolve ⟨.direct, Int64.maxValue⟩ core 2 = ⟨Int64.minValue, 0⟩ ∧
    core.Hop 2 Int64.maxValue 0 ∧
    resolve ⟨.indirect, Int64.maxValue⟩ core 2 = ⟨5, 1⟩ ∧
    ∃ pointer cell, core.Hop 2 Int64.maxValue pointer ∧
      core.cells[pointer.toNat]? = some cell ∧ core.Hop pointer cell.a.field 1 := by
  intro core
  have addressable : core.Addressable := ⟨by decide, by decide⟩
  have inside : core.Inside 2 := by
    show 2 < 3
    decide
  have direct : resolve ⟨.direct, Int64.maxValue⟩ core 2 = ⟨Int64.minValue, 0⟩ := by decide
  have indirect : resolve ⟨.indirect, Int64.maxValue⟩ core 2 = ⟨5, 1⟩ := by decide
  obtain ⟨⟨_, hop, _⟩, _, pointer, cell, first, read, second, _⟩ :=
    resolve_by_hops addressable inside Int64.maxValue
  rw [direct] at hop
  rw [indirect] at second
  exact ⟨addressable, inside, direct, hop, indirect, pointer, cell, first, read, second⟩

end CoreWar
