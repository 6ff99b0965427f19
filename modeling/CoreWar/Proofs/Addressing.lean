import CoreWar.Machine.Execution

/-!
Contract: addresses of a core as integers modulo its size.

Owns:
- the cores whose addresses can be added up without leaving the word: at most 2^62 cells;
- the view of a core as a function of any integer address;
- folding, displacement, reading and changing cells in terms of that view.

Does not own: what is proved with this view, see the modules beside this one.
-/

namespace CoreWar

/-! ## Signed words -/

/-- A sum of words that fits the word is the sum of the integers. -/
theorem toInt_add_of_fits
    (left right : Int64)
    (atLeast : -0x8000000000000000 ≤ left.toInt + right.toInt)
    (below : left.toInt + right.toInt < 0x8000000000000000) :
    (left + right).toInt = left.toInt + right.toInt := by
  rw [Int64.toInt_add]
  exact Int.bmod_eq_of_le (by omega) (by omega)

/-- The sum of two unsigned words below 2^62 fits the signed word. -/
theorem toInt_add_toInt64
    (left right : UInt64)
    (leftSmall : left.toNat ≤ 0x4000000000000000)
    (rightSmall : right.toNat < 0x4000000000000000) :
    (left.toInt64 + right.toInt64).toInt = left.toNat + right.toNat := by
  have leftInt := toInt_toInt64 left (by omega)
  have rightInt := toInt_toInt64 right (by omega)
  rw [toInt_add_of_fits _ _ (by omega) (by omega), leftInt, rightInt]

namespace Core

/-- A core with at least one cell and at most 2^62. -/
structure Addressable (core : Core) : Prop where
  positive : 0 < core.cells.size
  small : core.cells.size ≤ 0x4000000000000000

theorem Addressable.of_size
    {core other : Core}
    (addressable : core.Addressable)
    (size : other.cells.size = core.cells.size) :
    other.Addressable :=
  ⟨size ▸ addressable.positive, size ▸ addressable.small⟩

/-- The address names a cell of the core as it stands. -/
def Inside (core : Core) (address : UInt64) : Prop :=
  address.toNat < core.cells.size

/-- The cell at any integer address. -/
def cellAt (core : Core) (address : Int) : Instruction :=
  core.cells.getD (address % core.cells.size).toNat Instruction.cleared

section Folding

variable {core : Core} (addressable : core.Addressable)
include addressable

theorem toNat_size : core.size.toNat = core.cells.size := by
  have small := addressable.small
  apply UInt64.toNat_ofNat_of_lt'
  simp only [UInt64.size]
  omega

theorem toNat_fold (address : Int64) :
    ((core.fold address).toNat : Int) = address.toInt % core.cells.size := by
  have positive := addressable.positive
  have small := addressable.small
  have size := toNat_size addressable
  rw [fold, CoreWar.toNat_fold address core.size (by omega) (by omega), size]

/-- A word that is no negative number is folded as a natural number. -/
theorem toNat_fold_of_toInt {address : Int64} {number : Nat} (natural : address.toInt = number) :
    (core.fold address).toNat = number % core.cells.size := by
  have folded := toNat_fold addressable address
  rw [natural] at folded
  exact_mod_cast folded

/-- The index of the cell that an address names. -/
theorem toNat_fold_eq (address : Int64) :
    (core.fold address).toNat = (address.toInt % core.cells.size).toNat := by
  have folded := toNat_fold addressable address
  omega

theorem inside_fold (address : Int64) : core.Inside (core.fold address) := by
  have positive := addressable.positive
  have folded := toNat_fold addressable address
  have below : address.toInt % core.cells.size < core.cells.size :=
    Int.emod_lt_of_pos _ (by omega)
  unfold Inside
  omega

/-- An address inside the core is the same integer as a signed word. -/
theorem toInt_of_inside {address : UInt64} (inside : core.Inside address) :
    address.toInt64.toInt = address.toNat := by
  have small := addressable.small
  unfold Inside at inside
  exact toInt_toInt64 address (by omega)

/-- Adding two addresses inside the core stays inside the word. -/
theorem toInt_add_of_inside
    {left right : UInt64}
    (leftInside : core.Inside left)
    (rightInside : core.Inside right) :
    (left.toInt64 + right.toInt64).toInt = left.toNat + right.toNat := by
  have small := addressable.small
  unfold Inside at leftInside rightInside
  exact toInt_add_toInt64 left right (by omega) (by omega)

/-- The address after one inside the core fits the word. -/
theorem toInt_add_one_of_inside {address : UInt64} (inside : core.Inside address) :
    (address.toInt64 + 1).toInt = address.toInt64.toInt + (1 : Int64).toInt := by
  have small := addressable.small
  have asInt := toInt_of_inside addressable inside
  unfold Inside at inside
  apply toInt_add_of_fits
  · rw [asInt, Int64.toInt_one]
    omega
  · rw [asInt, Int64.toInt_one]
    omega

/-- Displacement is addition modulo the size, for every distance. -/
theorem toNat_displace {base : UInt64} (inside : core.Inside base) (distance : Int64) :
    ((core.displace base distance).toNat : Int) =
      (base.toNat + distance.toInt) % core.cells.size := by
  rw [displace, toNat_fold addressable,
    toInt_add_of_inside addressable inside (inside_fold addressable distance),
    toNat_fold addressable, Int.add_emod_emod]

theorem inside_displace (base : UInt64) (distance : Int64) :
    core.Inside (core.displace base distance) :=
  inside_fold addressable _

theorem read_eq_cellAt (address : Int64) : core.read address = core.cellAt address.toInt := by
  rw [read, cellAt, toNat_fold_eq addressable]

theorem cellAt_modify (address : Int64) (change : Instruction → Instruction) (other : Int) :
    (core.modify address change).cellAt other =
      if address.toInt % core.cells.size = other % core.cells.size then
        change (core.cellAt other)
      else
        core.cellAt other := by
  have positive := addressable.positive
  have folded := toNat_fold addressable address
  have nonnegative : 0 ≤ other % core.cells.size := Int.emod_nonneg _ (by omega)
  have below : other % core.cells.size < core.cells.size := Int.emod_lt_of_pos _ (by omega)
  have index : (other % core.cells.size).toNat < core.cells.size := by omega
  simp only [cellAt, size_modify]
  simp only [modify, Array.getD_eq_getD_getElem?, Array.getElem?_modify,
    Array.getElem?_eq_getElem index, Option.map_some, Option.getD_some]
  by_cases same : address.toInt % core.cells.size = other % core.cells.size
  · rw [if_pos same, if_pos (by omega)]
    rfl
  · rw [if_neg same, if_neg (by omega)]
    rfl

end Folding

@[simp]
theorem addressable_modify (core : Core) (address : Int64) (change : Instruction → Instruction) :
    (core.modify address change).Addressable ↔ core.Addressable := by
  constructor
  · intro changed
    obtain ⟨positive, small⟩ := changed
    rw [size_modify] at positive small
    exact ⟨positive, small⟩
  · intro before
    obtain ⟨positive, small⟩ := before
    rw [← size_modify core address change] at positive small
    exact ⟨positive, small⟩

/-- Only the remainder of an address matters. -/
theorem cellAt_congr
    (core : Core)
    {left right : Int}
    (same : left % core.cells.size = right % core.cells.size) :
    core.cellAt left = core.cellAt right := by
  rw [cellAt, cellAt, same]

/-- The cell of a number below the size. -/
theorem cellAt_natCast (core : Core) {index : Nat} (below : index < core.cells.size) :
    core.cellAt index = core.cells[index] := by
  have remainder : ((index : Int) % core.cells.size).toNat = index := by
    rw [Int.emod_eq_of_lt (by omega) (by omega)]
    rfl
  rw [cellAt, remainder, Array.getD_eq_getD_getElem?, Array.getElem?_eq_getElem below]
  rfl

theorem getElem?_eq_cellAt (core : Core) {index : Nat} (below : index < core.cells.size) :
    core.cells[index]? = some (core.cellAt index) := by
  rw [cellAt_natCast core below, Array.getElem?_eq_getElem below]

/-- A core is its cells. -/
theorem ext_getElem?
    {left right : Core}
    (cells : ∀ index : Nat, left.cells[index]? = right.cells[index]?) :
    left = right := by
  cases left
  cases right
  exact congrArg Core.mk (Array.ext_getElem? cells)

/-- A core is its size and its cells. -/
theorem ext_cellAt
    {left right : Core}
    (size : left.cells.size = right.cells.size)
    (cells : ∀ address : Int, left.cellAt address = right.cellAt address) :
    left = right := by
  cases left with
  | mk leftCells =>
      cases right with
      | mk rightCells =>
          congr 1
          apply Array.ext size
          intro index leftBelow rightBelow
          have equal := cells index
          rw [cellAt_natCast _ leftBelow, cellAt_natCast _ rightBelow] at equal
          exact equal

end Core

end CoreWar
