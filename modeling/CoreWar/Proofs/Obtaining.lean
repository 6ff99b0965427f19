import CoreWar.Codec.Instruction
import CoreWar.Limits
import CoreWar.Proofs.Safety

/-!
Contract: which cores can be obtained, and whether they can be addressed.

Owns:
- the ways to obtain a core, and what can be done with one afterwards;
- the number of cells of a core that was decoded, and the one way to obtain a core without cells;
- the cores of which every address can be read and changed.

Does not own: the checked operations, see `CoreWar.Proofs.Checked`.

A core that is created has a cell, which is checked then and nowhere else. Nothing that is done with
a core changes how many cells it has, so it depends on how it was obtained.
-/

namespace CoreWar.Core

/-- How a core is obtained. -/
inductive Source where
  | created (size : UInt64)
  /-- It has the size that limits have by default. -/
  | default
  | decoded (text : String)

/-- The core that is obtained, if one is. -/
def Source.core? : Source → Option Core
  | created size => ofSize? size
  | default => ofSize? ({} : Limits).coreSize
  | decoded text => Json.decode? ofJson? text

/-- The core comes from the text of a record in which the array of the cells is empty. -/
inductive Source.WithoutCells : Source → Prop where
  | decoded
      {text : String}
      {value : Json.Value}
      (parsed : Json.parse? text.toList = some value)
      (empty : value.fields? ["cells"] = some [some (.array [])]) :
      WithoutCells (.decoded text)

/-- What can be done with a core. -/
inductive Update where
  | write (address : Int64) (instruction : Instruction)
  | modify (address : Int64) (change : Instruction → Instruction)
  | clear (address : Int64)
  | load (start : UInt64) (program : List Instruction)

def update (core : Core) : Update → Core
  | .write address instruction => core.write address instruction
  | .modify address change => core.modify address change
  | .clear address => core.clear address
  | .load start program => core.load start program

def updateAll (core : Core) (updates : List Update) : Core :=
  updates.foldl update core

/-- Every address is folded to a cell of the core, which can be read and changed. -/
structure Safe (core : Core) : Prop where
  occupied : 0 < core.cells.size
  folds : ∀ address,
    CoreWar.fold? address core.size = some (core.fold address) ∧ core.Inside (core.fold address)
  reads : ∀ address, core.read? address = some (core.read address)
  changes : ∀ address change, core.modify? address change = some (core.modify address change)

/-! ## Sizes -/

theorem size_update (core : Core) (change : Update) :
    (core.update change).cells.size = core.cells.size := by
  cases change with
  | write address instruction => exact size_modify core address _
  | modify address change => exact size_modify core address change
  | clear address => exact size_modify core address _
  | load start program => exact size_loadFrom core _ program

theorem size_updateAll (core : Core) (updates : List Update) :
    (core.updateAll updates).cells.size = core.cells.size := by
  induction updates generalizing core with
  | nil => rfl
  | cons change rest inductionHypothesis =>
      exact (inductionHypothesis (core.update change)).trans (core.size_update change)

theorem size_of_ofSize? {size : UInt64} {core : Core} (created : ofSize? size = some core) :
    core.cells.size = size.toNat ∧ 0 < size.toNat := by
  unfold ofSize? at created
  split at created
  · contradiction
  · rename_i notZero
    obtain rfl := Option.some.inj created
    exact ⟨Array.size_replicate, UInt64.lt_iff_toNat_lt.mp (UInt64.pos_iff_ne_zero.mpr notZero)⟩

theorem length_of_mapM
    {α β : Type}
    {read : α → Option β}
    {items : List α}
    {contents : List β}
    (success : items.mapM read = some contents) :
    contents.length = items.length := by
  induction items generalizing contents with
  | nil =>
      obtain rfl := Option.some.inj success
      rfl
  | cons item rest inductionHypothesis =>
      simp only [List.mapM_cons, Option.bind_eq_bind, Option.bind_eq_some_iff, Option.pure_def,
        Option.some.injEq] at success
      obtain ⟨content, _, others, othersRead, rfl⟩ := success
      simp only [List.length_cons, inductionHypothesis othersRead]

/-- A decoded core has as many cells as the array in its text. -/
theorem exists_items_of_decoded
    {text : String}
    {core : Core}
    (decoded : Json.decode? ofJson? text = some core) :
    ∃ value items,
      Json.parse? text.toList = some value ∧
      value.fields? ["cells"] = some [some (.array items)] ∧
      core.cells.size = items.length := by
  obtain ⟨value, parsed, read⟩ := Option.bind_eq_some_iff.mp decoded
  refine ⟨value, ?_⟩
  simp only [ofJson?, Option.bind_eq_bind, Option.bind_eq_some_iff] at read
  obtain ⟨fields, isRecord, read⟩ := read
  split at read
  · rename_i cells
    cases cells with
    | array items =>
        simp only [Json.Value.items?, Option.bind_some, Option.bind_eq_some_iff, Option.pure_def,
          Option.some.injEq] at read
        obtain ⟨contents, success, rfl⟩ := read
        exact ⟨items, parsed, isRecord, length_of_mapM success⟩
    | _ => simp [Json.Value.items?] at read
  · contradiction

/-- A core without cells is obtained in one way only. -/
theorem size_eq_zero_iff_withoutCells
    {source : Source}
    {core : Core}
    (obtained : source.core? = some core) :
    core.cells.size = 0 ↔ source.WithoutCells := by
  cases source with
  | created size =>
      have positive := size_of_ofSize? obtained
      exact ⟨fun empty => by omega, fun withoutCells => nomatch withoutCells⟩
  | default =>
      have positive := size_of_ofSize? obtained
      exact ⟨fun empty => by omega, fun withoutCells => nomatch withoutCells⟩
  | decoded text =>
      obtain ⟨value, items, parsed, isRecord, size⟩ := exists_items_of_decoded obtained
      constructor
      · intro empty
        obtain rfl : items = [] := List.eq_nil_of_length_eq_zero (by omega)
        exact .decoded parsed isRecord
      · rintro ⟨otherParsed, otherEmpty⟩
        obtain rfl := Option.some.inj (parsed.symm.trans otherParsed)
        rw [isRecord] at otherEmpty
        simp only [Option.some.injEq, List.cons.injEq, Json.Value.array.injEq] at otherEmpty
        rw [size, otherEmpty.1]
        rfl

/-! ## Addresses -/

theorem safe_of_addressable {core : Core} (addressable : core.Addressable) : core.Safe where
  occupied := addressable.positive
  folds := by
    intro address
    have size := toNat_size addressable
    have positive := addressable.positive
    have small := addressable.small
    exact ⟨Assembly.fold?_of_small address core.size (by omega) (by omega),
      inside_fold addressable address⟩
  reads := read?_eq addressable
  changes := modify?_eq addressable

/-- In a core without cells no address can be folded. -/
theorem fold?_of_empty {core : Core} (empty : core.cells.size = 0) (address : Int64) :
    CoreWar.fold? address core.size = none := by
  have zero : core.size = 0 := by
    rw [size, empty]
    rfl
  rw [CoreWar.fold?, if_pos (Or.inl zero)]

/-- Every core that is obtained has a cell, whatever is done with it, unless it was decoded from a
text without cells. Its number of cells never changes, and with a cell it can be addressed; the bound
is beyond what a memory holds. From a text without cells a core is obtained in which no address can
be folded. -/
theorem obtained_safe_unless_decoded_without_cells
    {source : Source}
    {core : Core}
    (obtained : source.core? = some core)
    (updates : List Update) :
    (0 < (core.updateAll updates).cells.size ↔ ¬source.WithoutCells) ∧
    (core.updateAll updates).cells.size = core.cells.size ∧
    (core.cells.size ≤ 0x4000000000000000 →
      ((core.updateAll updates).Safe ↔ ¬source.WithoutCells)) ∧
    (source.WithoutCells → ∀ address, CoreWar.fold? address core.size = none) := by
  have size := core.size_updateAll updates
  have empty := size_eq_zero_iff_withoutCells obtained
  have occupied : 0 < (core.updateAll updates).cells.size ↔ ¬source.WithoutCells := by
    rw [size, Nat.pos_iff_ne_zero]
    exact not_congr empty
  refine ⟨occupied, size, ?_, ?_⟩
  · intro small
    constructor
    · intro safe
      exact occupied.mp safe.occupied
    · intro withCells
      exact safe_of_addressable ⟨occupied.mpr withCells, by omega⟩
  · intro withoutCells
    exact fold?_of_empty (empty.mpr withoutCells)

/-- A core of one cell, decoded from a text in which records are arrays. Everything that is done
with it is done to that cell. -/
theorem obtained_safe_unless_decoded_without_cells_array :
    let text := "[[[\"Jmp\",\"Direct\",-1,\"Immediate\",0]]]"
    let jumper : Instruction := ⟨.jmp, ⟨.direct, -1⟩, ⟨.immediate, 0⟩⟩
    let updates : List Update :=
      [.write Int64.minValue jumper, .load 7 [.cleared, jumper], .clear Int64.maxValue,
        .modify (-5) fun instruction => instruction.setField 3]
    let core : Core := ⟨#[jumper]⟩
    (Source.decoded text).core? = some core ∧
    (core.updateAll updates).Safe ∧
    (core.updateAll updates).cells = #[Instruction.cleared.setField 3] := by
  intro text jumper updates core
  have obtained : (Source.decoded text).core? = some core := by decide +kernel
  obtain ⟨occupied, size, safe, _⟩ := obtained_safe_unless_decoded_without_cells obtained updates
  have withCells := occupied.mp (by rw [size]; decide)
  exact ⟨obtained, (safe (by decide)).mpr withCells, by decide +kernel⟩

/-- A core without cells is decoded, and none of its addresses can be folded. -/
theorem decoded_core_has_no_cells :
    ∃ core,
      (Source.decoded "\x7b\"cells\":[]\x7d").core? = some core ∧
      core.cells.size = 0 ∧
      ∀ address, CoreWar.fold? address core.size = none := by
  refine ⟨⟨#[]⟩, by decide +kernel, rfl, ?_⟩
  exact fold?_of_empty rfl

end CoreWar.Core
