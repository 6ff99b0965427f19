import CoreWar.Proofs.Edit
import CoreWar.Proofs.Ending
import CoreWar.Proofs.Naming

/-!
Contract: where the instructions of a core come from.

Owns:
- the shape of an instruction: all of it but the A-field;
- that no turn makes a shape which was not in the core before, that of the cleared cell apart;
- that every cell of a match, and every instruction executed in it, has the shape of a cleared cell
  or of an instruction that a placed warrior has brought.

Does not own: the A-fields, which arithmetic can take anywhere.

An edit keeps the shape of the cell it goes to, or brings the shape of another cell or that of the
cleared one. So whatever is true of all shapes in a core, and of the cleared one, stays true.
-/

namespace CoreWar

/-- All of an instruction but its A-field. -/
structure Shape where
  operation : Operation
  aMode : Mode
  b : Operand
deriving DecidableEq, Repr

def Instruction.shape (instruction : Instruction) : Shape :=
  ⟨instruction.operation, instruction.a.mode, instruction.b⟩

/-- Every cell of the core has a known shape. -/
def Core.Shaped (Known : Shape → Prop) (core : Core) : Prop :=
  ∀ cell ∈ core.cells, Known cell.shape

/-- The instruction that the event shows to be executed, if there is one, has a known shape. -/
def Event.Shaped (Known : Shape → Prop) : Event → Prop
  | .step _ _ instruction => Known instruction.shape
  | _ => True

/-! ## Placing -/

namespace Core

variable {Known : Shape → Prop} {core : Core}

theorem shaped_write
    (shaped : core.Shaped Known)
    (address : Int64)
    {instruction : Instruction}
    (known : Known instruction.shape) :
    (core.write address instruction).Shaped Known := by
  intro cell member
  rcases mem_cells_write member with old | new
  · exact shaped cell old
  · rw [new]
    exact known

theorem shaped_loadFrom
    (shaped : core.Shaped Known)
    (address : Int64)
    {program : List Instruction}
    (brought : ∀ instruction ∈ program, Known instruction.shape) :
    (core.loadFrom address program).Shaped Known := by
  induction program generalizing core address with
  | nil => exact shaped
  | cons instruction rest inductionHypothesis =>
      rw [List.forall_mem_cons] at brought
      exact inductionHypothesis (shaped_write shaped address brought.1) (address + 1) brought.2

end Core

namespace Battle

variable {Known : Shape → Prop} {battle : Battle}

/-- Placing a warrior brings the shapes of its program, if it is placed. -/
theorem shaped_place
    (shaped : battle.core.Shaped Known)
    (warrior : Warrior)
    (offset : UInt64)
    (brought : ∀ placement ∈ battle.placement? (.place warrior offset),
      ∀ instruction ∈ placement.placed.program, Known instruction.shape) :
    (battle.place warrior offset).battle.core.Shaped Known := by
  by_cases short : warrior.program.length < battle.limits.maxLength.toNat
  · simp only [placement?, place_of_short battle warrior offset short, Loading.placement?]
      at brought
    rw [place_of_short battle warrior offset short]
    exact Core.shaped_loadFrom shaped _ (brought _ rfl)
  · rw [place_of_long battle warrior offset (Nat.not_lt.mp short)]
    exact shaped

theorem shaped_load
    (shaped : battle.core.Shaped Known)
    (source : String)
    (brought : ∀ placement ∈ battle.placement? (.load source),
      ∀ instruction ∈ placement.placed.program, Known instruction.shape) :
    (battle.load source).battle.core.Shaped Known := by
  cases assembled : Assembly.assemble battle.limits source with
  | error error =>
      simp only [load_eq, assembled]
      exact shaped
  | ok warrior =>
      simp only [placement?, load_eq, assembled] at brought ⊢
      have drawn : battle.drawOffset.2.core.Shaped Known := shaped
      exact shaped_place drawn warrior battle.drawOffset.1 brought

end Battle

/-! ## Edits -/

section Cleared

variable {Known : Shape → Prop} (cleared : Known Instruction.cleared.shape)
include cleared

/-- What is read is a cell of the core, or cleared. -/
theorem Core.shape_read {core : Core} (shaped : core.Shaped Known) (address : Int64) :
    Known (core.read address).shape := by
  rw [read, Array.getD_eq_getD_getElem?]
  cases found : core.cells[(core.fold address).toNat]? with
  | none => exact cleared
  | some cell => exact shaped cell (Array.mem_of_getElem? found)

theorem Operation.shape_edit?
    (operation : Operation)
    (a b : Target)
    {core : Core}
    (shaped : core.Shaped Known) :
    ∀ edit ∈ operation.edit? a b core, Known edit.content.shape := by
  have reads := Core.shape_read cleared shaped
  intro edit made
  rcases operation.edit?_cases a b with nothing | ⟨value, stores⟩ | clears | copies
  · rw [nothing] at made
    contradiction
  · rw [stores] at made
    rw [← Option.mem_some.mp made]
    exact reads b.address.toInt64
  · rw [clears] at made
    rw [← Option.mem_some.mp made]
    exact cleared
  · rw [copies] at made
    rw [← Option.mem_some.mp made]
    exact reads a.address.toInt64

theorem Core.shaped_edited
    {core : Core}
    (shaped : core.Shaped Known)
    (warrior : Warrior) :
    (core.edited (warrior.editIn? core)).Shaped Known := by
  intro cell member
  rcases mem_cells_edited member with old | ⟨edit, made, rfl⟩
  · exact shaped cell old
  · obtain ⟨address, _, atAddress⟩ := Option.bind_eq_some_iff.mp made
    exact Operation.shape_edit? cleared _ _ _ shaped edit atAddress

namespace Battle

/-! ## Turns and rounds -/

theorem shaped_turn
    (maxTasks : UInt64)
    {core : Core}
    (shaped : core.Shaped Known)
    (warrior : Warrior) :
    (turn maxTasks core warrior).core.Shaped Known ∧
    ∀ event ∈ (turn maxTasks core warrior).events, event.Shaped Known := by
  rw [core_turn]
  refine ⟨Core.shaped_edited cleared shaped warrior, ?_⟩
  intro event member
  obtain ⟨_, rfl | ⟨_, rfl⟩⟩ := step_or_fault_of_mem_turn member
  · exact Core.shape_read cleared shaped _
  · trivial

theorem shaped_turns
    (maxTasks : UInt64)
    {core : Core}
    (shaped : core.Shaped Known)
    (roster : List Warrior) :
    (turns maxTasks core roster).core.Shaped Known ∧
    ∀ event ∈ (turns maxTasks core roster).events, event.Shaped Known := by
  induction roster generalizing core with
  | nil => exact ⟨shaped, by simp [turns]⟩
  | cons warrior rest inductionHypothesis =>
      obtain ⟨firstShaped, firstEvents⟩ := shaped_turn cleared maxTasks shaped warrior
      obtain ⟨laterShaped, laterEvents⟩ := inductionHypothesis firstShaped
      rw [turns_cons]
      refine ⟨laterShaped, ?_⟩
      intro event member
      rcases List.mem_append.mp member with now | member
      · exact firstEvents event now
      · rcases List.mem_append.mp member with died | later
        · rw [Turn.eq_died_of_mem_obituary died]
          trivial
        · exact laterEvents event later

theorem shaped_round {battle : Battle} (shaped : battle.core.Shaped Known) :
    battle.round.1.core.Shaped Known ∧ ∀ event ∈ battle.round.2, event.Shaped Known := by
  by_cases running : battle.status = .running
  · obtain ⟨core, events⟩ := shaped_turns cleared battle.limits.maxTasks shaped battle.roster
    rw [round_of_running battle running]
    refine ⟨core, ?_⟩
    intro event member
    rcases List.mem_append.mp member with played | announced
    · exact events event played
    · cases event with
      | step =>
          have isVerdict := isVerdict_of_mem_announcement announced
          contradiction
      | _ => trivial
  · rw [round_of_ended battle running]
    exact ⟨shaped, by simp⟩

/-! ## Histories -/

theorem shaped_obey
    {battle : Battle}
    (shaped : battle.core.Shaped Known)
    (command : Command)
    (brought : ∀ placement ∈ battle.placement? command,
      ∀ instruction ∈ placement.placed.program, Known instruction.shape) :
    (battle.obey command).1.core.Shaped Known ∧
    ∀ event ∈ (battle.obey command).2, event.Shaped Known := by
  have rejection {event : Event} (isError : event.isError) : event.Shaped Known := by
    obtain ⟨message, rfl⟩ := exists_message_of_isError isError
    trivial
  cases command with
  | load source =>
      exact ⟨shaped_load shaped source brought,
        fun _ member => rejection (isError_of_mem_load member)⟩
  | place warrior offset =>
      exact ⟨shaped_place shaped warrior offset brought,
        fun _ member => rejection (isError_of_mem_place member)⟩
  | round => exact shaped_round cleared shaped
  | run =>
      exact run_keeps (fun other => other.core.Shaped Known) (Event.Shaped Known)
        (fun _ => shaped_round cleared) battle shaped

/-- A history in which only known shapes are brought keeps to them. -/
theorem shaped_follow
    {battle : Battle}
    (shaped : battle.core.Shaped Known)
    (commands : List Command)
    (brought : ∀ placement ∈ battle.placements commands,
      ∀ instruction ∈ placement.placed.program, Known instruction.shape) :
    (battle.follow commands).1.core.Shaped Known ∧
    ∀ event ∈ (battle.follow commands).2, event.Shaped Known := by
  induction commands generalizing battle with
  | nil => exact ⟨shaped, by simp [follow]⟩
  | cons command rest inductionHypothesis =>
      have broughtNow : ∀ placement ∈ battle.placement? command,
          ∀ instruction ∈ placement.placed.program, Known instruction.shape :=
        fun placement made =>
          brought placement (List.mem_append_left _ (Option.mem_toList.mpr made))
      obtain ⟨nextShaped, nowEvents⟩ := shaped_obey cleared shaped command broughtNow
      obtain ⟨lastShaped, laterEvents⟩ := inductionHypothesis nextShaped
        fun placement made => brought placement (List.mem_append_right _ made)
      refine ⟨lastShaped, ?_⟩
      intro event member
      rcases List.mem_append.mp member with now | later
      · exact nowEvents event now
      · exact laterEvents event later

end Battle

end Cleared

namespace Battle

theorem shaped_of_create
    (Known : Shape → Prop)
    (cleared : Known Instruction.cleared.shape)
    {limits : Limits}
    {generator : Generator}
    {fresh : Battle}
    (created : create limits generator = .ok fresh)
    (commands : List Command)
    (brought : ∀ placement ∈ fresh.placements commands,
      ∀ instruction ∈ placement.placed.program, Known instruction.shape) :
    (fresh.follow commands).1.core.Shaped Known ∧
    ∀ event ∈ (fresh.follow commands).2, event.Shaped Known := by
  obtain ⟨_, isFresh⟩ := (create_eq_ok_iff limits generator fresh).mp created
  refine shaped_follow cleared ?_ commands brought
  intro cell member
  rw [isFresh] at member
  rw [(Array.mem_replicate.mp member).2]
  exact cleared

/-- The shape of a cleared cell, and those that warriors have brought. -/
def shapes (placements : List Placement) : List Shape :=
  Instruction.cleared.shape ::
    (placements.flatMap fun placement => placement.placed.program).map Instruction.shape

theorem shape_mem_shapes
    {placements : List Placement}
    {placement : Placement}
    (made : placement ∈ placements)
    {instruction : Instruction}
    (brought : instruction ∈ placement.placed.program) :
    instruction.shape ∈ shapes placements :=
  List.mem_cons_of_mem _ (List.mem_map_of_mem (List.mem_flatMap_of_mem made brought))

/-- No shape is ever invented. After any history of a match, every cell has the shape of a cleared
one or of an instruction that a placed warrior has brought, and so has every instruction that was
executed. An operation other than that of a cleared cell is never executed unless a warrior has
brought it. -/
theorem shapes_brought
    {limits : Limits}
    {generator : Generator}
    {fresh : Battle}
    (created : create limits generator = .ok fresh)
    (commands : List Command) :
    (∀ cell ∈ (fresh.follow commands).1.core.cells,
      cell.shape ∈ shapes (fresh.placements commands)) ∧
    (∀ name address instruction, .step name address instruction ∈ (fresh.follow commands).2 →
      instruction.shape ∈ shapes (fresh.placements commands)) ∧
    ∀ operation ≠ .dat,
      (∀ placement ∈ fresh.placements commands,
        ∀ instruction ∈ placement.placed.program, instruction.operation ≠ operation) →
      ∀ name address instruction, .step name address instruction ∈ (fresh.follow commands).2 →
        instruction.operation ≠ operation := by
  obtain ⟨cells, executed⟩ := shaped_of_create (· ∈ shapes (fresh.placements commands))
    List.mem_cons_self created commands fun _ made _ brought => shape_mem_shapes made brought
  refine ⟨cells, ?_, ?_⟩
  · exact fun name address instruction shown => executed _ shown
  · -- Shapes with another operation are a set of shapes too, and the cleared one is among them.
    intro operation notData unbrought name address instruction shown
    obtain ⟨_, others⟩ := shaped_of_create (fun shape => shape.operation ≠ operation)
      notData.symm created commands unbrought
    exact others _ shown

/-- A warrior that copies a cell, adds to the A-field of the copy, clears a cell and runs into its
copy, beside one that jumps. It executes an instruction that nobody has brought, with a shape that
somebody has, and nobody has multiplied. -/
theorem shapes_brought_copier :
    let limits : Limits := ⟨8, 9, 5, 2⟩
    let fresh : Battle := { limits, core := .ofSize 8, generator := ⟨1, 2, 3, 4⟩ }
    let copier : Warrior := .single "C" 0 [⟨.cpy, ⟨.direct, 0⟩, ⟨.direct, 3⟩⟩,
      ⟨.add, ⟨.immediate, 5⟩, ⟨.direct, 2⟩⟩, ⟨.clr, ⟨.direct, -1⟩, {}⟩]
    let jumper : Warrior := .single "J" 0 [⟨.jmp, {}, {}⟩]
    let commands : List Command := [.place copier 6, .place jumper 3, .round, .round, .run]
    let changed : Instruction := ⟨.cpy, ⟨.direct, 5⟩, ⟨.direct, 3⟩⟩
    create limits ⟨1, 2, 3, 4⟩ = .ok fresh ∧
    (fresh.follow commands).1.core.cells[1]? = some changed ∧
    changed ∉ copier.program ++ jumper.program ∧
    .step "C0" 1 changed ∈ (fresh.follow commands).2 ∧
    (∀ cell ∈ (fresh.follow commands).1.core.cells,
      cell.shape ∈ shapes (fresh.placements commands)) ∧
    ∀ name address instruction, .step name address instruction ∈ (fresh.follow commands).2 →
      instruction.shape ∈ shapes (fresh.placements commands) ∧ instruction.operation ≠ .mul := by
  intro limits fresh copier jumper commands changed
  have created : create limits ⟨1, 2, 3, 4⟩ = .ok fresh :=
    (create_eq_ok_iff _ _ _).mpr ⟨by decide, rfl⟩
  have unbrought : ∀ placement ∈ fresh.placements commands,
      ∀ instruction ∈ placement.placed.program, instruction.operation ≠ .mul := by
    decide +kernel
  obtain ⟨cells, executed, operations⟩ := shapes_brought created commands
  refine ⟨created, by decide +kernel, by decide, by decide +kernel, cells, ?_⟩
  intro name address instruction shown
  exact ⟨executed name address instruction shown,
    operations .mul (by decide) unbrought name address instruction shown⟩

end Battle

end CoreWar
