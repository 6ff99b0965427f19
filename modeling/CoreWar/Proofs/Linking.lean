import CoreWar.Proofs.Assembly.Items
import CoreWar.Proofs.Placement

/-!
Contract: names of a source lead to the cells they label, wherever the warrior is placed.

Owns:
- the address of an instruction of a placed program, around the end of the core;
- where an operand leads that is written as the label of an instruction;
- the first thread of a warrior whose last origin is written so.

Does not own: the items of a source, see `CoreWar.Proofs.Assembly.Items`, and what the core holds
once a program was copied into it, see `CoreWar.Proofs.Loading`.

The distance from an instruction to the one it names is fixed when the source is assembled. It is
added to an address that was folded into the core, so the offset of the program and the laps around
the core have to cancel.
-/

namespace CoreWar

open Assembly

/-! ## Addresses of a program -/

/-- The address of the cell with this index, counted from `offset` around the end of the core. -/
def Limits.addressAt (limits : Limits) (offset : UInt64) (index : Nat) : UInt64 :=
  UInt64.ofNat ((offset.toNat + index) % limits.coreSize.toNat)

section Addresses

variable {limits : Limits} (playable : limits.Playable)
include playable

theorem toNat_addressAt (offset : UInt64) (index : Nat) :
    (limits.addressAt offset index).toNat = (offset.toNat + index) % limits.coreSize.toNat := by
  have below := Nat.mod_lt (offset.toNat + index) playable.toNat_coreSize_pos
  exact UInt64.toNat_ofNat_of_lt' (Nat.lt_trans below limits.coreSize.toNat_lt)

variable {core : Core} (cells : core.cells.size = limits.coreSize.toNat)
include cells

theorem inside_addressAt (offset : UInt64) (index : Nat) :
    core.Inside (limits.addressAt offset index) := by
  unfold Core.Inside
  rw [toNat_addressAt playable, cells]
  exact Nat.mod_lt _ playable.toNat_coreSize_pos

variable (addressable : core.Addressable)
include addressable

/-- The distance between two indices, as a word, leads from the one address to the other. -/
theorem displace_addressAt
    (offset : UInt64)
    {source target : Nat}
    (sourceSmall : source < 0x4000000000000000)
    (targetSmall : target < 0x4000000000000000) :
    core.displace (limits.addressAt offset source) (Int64.ofInt ((target : Int) - source)) =
      limits.addressAt offset target := by
  have distance : (Int64.ofInt ((target : Int) - source)).toInt = target - source :=
    Int64.toInt_ofInt_of_le (by omega) (by omega)
  have displaced := Core.toNat_displace addressable
    (inside_addressAt playable cells offset source)
    (Int64.ofInt ((target : Int) - source))
  rw [toNat_addressAt playable, distance, cells, Int.natCast_emod, Int.emod_add_emod] at displaced
  have cancelled : ((offset.toNat + source : Nat) : Int) + (target - source) =
      (offset.toNat + target : Nat) := by
    omega
  rw [cancelled] at displaced
  apply UInt64.toNat_inj.mp
  rw [toNat_addressAt playable]
  exact_mod_cast displaced

/-- Each instruction of a program that was copied to `offset` is found at its address. -/
theorem read_load_addressAt
    {offset : UInt64}
    (offsetSmall : offset.toNat < 0x4000000000000000)
    {program : List Instruction}
    (short : program.length ≤ core.cells.size)
    {index : Nat}
    {instruction : Instruction}
    (found : program[index]? = some instruction) :
    (core.load offset program).read (limits.addressAt offset index).toInt64 = instruction := by
  obtain ⟨below, rfl⟩ := List.getElem?_eq_some_iff.mp found
  have size : (core.load offset program).cells.size = core.cells.size :=
    Core.size_loadFrom core _ program
  have loaded := addressable.of_size size
  have asInt := Core.toInt_of_inside addressable
    (inside_addressAt playable cells offset index)
  have inside := Nat.mod_lt (offset.toNat + index) addressable.positive
  have held := Core.getElem?_load addressable offsetSmall short below
  rw [Core.getElem?_eq_cellAt _ (by omega), cells] at held
  rw [Core.read_eq_cellAt loaded, asInt, toNat_addressAt playable]
  exact Option.some.inj held

end Addresses

/-! ## Operands -/

/-- One of the two operands of an instruction. -/
inductive Side where
  | a
  | b
deriving DecidableEq, Repr

def Side.argument? (side : Side) (arguments : Arguments) : Option Argument :=
  match side with
  | a => arguments.a?
  | b => arguments.b?

def Side.operand (side : Side) (instruction : Instruction) : Operand :=
  match side with
  | a => instruction.a
  | b => instruction.b

/-- The operand of the instruction at `pc` leads to this cell: to the cell itself, or to the one
that its A-field points to. -/
structure Operand.LeadsTo
    (operand : Operand)
    (core : Core)
    (pc cell : UInt64) : Prop where
  direct : operand.mode = .direct → (operand.resolve core pc).address = cell
  indirect : operand.mode = .indirect →
    ((operand.resolve core pc).address.toNat : Int) =
      (cell.toNat + (core.read cell.toInt64).a.field.toInt) % core.cells.size
  value : operand.mode ≠ .immediate →
    (operand.resolve core pc).value =
      (core.read (operand.resolve core pc).address.toInt64).a.field

/-- It is enough that the field leads from the one address to the other. -/
theorem Operand.leadsTo_of_displace
    {operand : Operand}
    {core : Core}
    (addressable : core.Addressable)
    {pc cell : UInt64}
    (inside : core.Inside cell)
    (displaced : core.displace pc operand.field = cell) :
    operand.LeadsTo core pc cell where
  direct isDirect := by
    simp only [resolve, isDirect, Core.target]
    exact displaced
  indirect isIndirect := by
    simp only [resolve, isIndirect, Core.target, displaced]
    exact Core.toNat_displace addressable inside _
  value notImmediate := by
    unfold resolve
    cases mode : operand.mode with
    | immediate => contradiction
    | direct => rfl
    | indirect => rfl

/-! ## Names -/

/-- A name stands for at most as many instructions as there are. -/
theorem Assembly.position_le_instructionCount
    {items : List Item}
    {name : Identifier}
    {index : Nat}
    (stands : Stands items name (.position index)) :
    index ≤ instructionCount items := by
  cases stands with
  | position split _ _ =>
      rw [split, instructionCount, instructionCount, List.countP_append]
      exact Nat.le_add_right _ _

/-- The value of a name that labels an instruction is the distance to it. -/
theorem Assembly.Accounts.termValue_name
    {limits : Limits}
    {items : List Item}
    {warrior : Warrior}
    (accounts : Accounts limits items warrior)
    {name : Identifier}
    {target : Nat}
    (stands : Stands items name (.position target))
    {index : Nat}
    {value : Int64}
    (valued : TermValue items index (some (.name name)) value) :
    value = Int64.ofInt ((target : Int) - index) := by
  obtain ⟨symbol, standsFor, rfl⟩ := valued
  rw [accounts.functional name _ _ standsFor stands]
  rfl

/-- An operand that is written as an argument has its mode and the value of its term. -/
theorem Assembly.ProgramValue.side
    {items : List Item}
    {program : List Instruction}
    (programValue : ProgramValue items program)
    {above below : List Item}
    {label : Option Identifier}
    {operation : Operation}
    {arguments : Arguments}
    (split : items = above ++ .instruction label operation arguments :: below)
    {side : Side}
    {argument : Argument}
    (written : side.argument? arguments = some argument) :
    ∃ instruction, program[instructionCount above]? = some instruction ∧
      (side.operand instruction).mode = argument.mode ∧
      TermValue items (instructionCount above) (some argument.term)
        (side.operand instruction).field := by
  obtain ⟨instruction, found, _, a, b⟩ := programValue.instruction _ _ _ _ _ split
  refine ⟨instruction, found, ?_⟩
  cases side with
  | a =>
      have first : arguments.a? = some argument := written
      rw [first] at a
      exact ⟨a.mode, a.field⟩
  | b =>
      have second : arguments.b? = some argument := written
      rw [second] at b
      exact ⟨b.mode, b.field⟩

/-- In a core into which the items were placed at `offset`, every name that labels an instruction
leads to it: from the operands written as this name, and from the last origin. -/
structure Linked
    (limits : Limits)
    (items : List Item)
    (offset : UInt64)
    (core : Core)
    (placed : Warrior) : Prop where
  operand : ∀ above label operation arguments below (side : Side) (argument : Argument) name target,
    items = above ++ .instruction label operation arguments :: below →
    side.argument? arguments = some argument →
    argument.term = .name name →
    Stands items name (.position target) →
    let pc := limits.addressAt offset (instructionCount above)
    let operand := side.operand (core.read pc.toInt64)
    operand.mode = argument.mode ∧ operand.LeadsTo core pc (limits.addressAt offset target)
  origin : ∀ (argument : Argument) name target,
    LastOrigin items (some argument) →
    argument.term = .name name →
    Stands items name (.position target) →
    placed.start = limits.addressAt offset target ∧
      placed.tasks.waiting = [limits.addressAt offset target]

section Placing

variable
  {limits : Limits}
  (playable : limits.Playable)
  (small : limits.coreSize.toNat ≤ 0x4000000000000000)
  {core : Core}
  (cells : core.cells.size = limits.coreSize.toNat)
  {items : List Item}
  {warrior : Warrior}
  (accounts : Accounts limits items warrior)
  (short : warrior.program.length < limits.maxLength.toNat)
  {offset : UInt64}
  (inside : offset.toNat < limits.coreSize.toNat)
include playable small cells accounts short inside

theorem leadsTo_of_accounts
    {above below : List Item}
    {label : Option Identifier}
    {operation : Operation}
    {arguments : Arguments}
    (split : items = above ++ .instruction label operation arguments :: below)
    {side : Side}
    {argument : Argument}
    (written : side.argument? arguments = some argument)
    {name : Identifier}
    (isName : argument.term = .name name)
    {target : Nat}
    (stands : Stands items name (.position target)) :
    let loaded := core.load offset warrior.program
    let pc := limits.addressAt offset (instructionCount above)
    let operand := side.operand (loaded.read pc.toInt64)
    operand.mode = argument.mode ∧
      operand.LeadsTo loaded pc (limits.addressAt offset target) := by
  intro loaded pc operand
  have positive := playable.toNat_coreSize_pos
  have lengths := playable.toNat_maxLength_lt
  have counted := accounts.program.length
  have targetBelow := position_le_instructionCount stands
  obtain ⟨instruction, found, mode, valued⟩ := accounts.program.side split written
  have sourceBelow := (List.getElem?_eq_some_iff.mp found).1
  have addressable : core.Addressable := ⟨by omega, by omega⟩
  have loadedCells : loaded.cells.size = limits.coreSize.toNat :=
    (Core.size_loadFrom core _ warrior.program).trans cells
  have loadedAddressable : loaded.Addressable := ⟨by omega, by omega⟩
  have offsetSmall : offset.toNat < 0x4000000000000000 := by omega
  -- What is read at `pc` is the instruction of the program, with the distance as its field.
  have isOperand : operand = side.operand instruction := by
    rw [← read_load_addressAt playable cells addressable offsetSmall (by omega) found]
  rw [isName] at valued
  have field := accounts.termValue_name stands valued
  rw [isOperand]
  refine ⟨mode, Operand.leadsTo_of_displace loadedAddressable
    (inside_addressAt playable loadedCells offset target) ?_⟩
  rw [field]
  exact displace_addressAt playable loadedCells loadedAddressable offset (by omega) (by omega)

theorem start_of_accounts
    {argument : Argument}
    (last : LastOrigin items (some argument))
    {name : Identifier}
    (isName : argument.term = .name name)
    {target : Nat}
    (stands : Stands items name (.position target)) :
    (Battle.launch core warrior offset).start = limits.addressAt offset target ∧
    (Battle.launch core warrior offset).tasks.waiting = [limits.addressAt offset target] := by
  have positive := playable.toNat_coreSize_pos
  have lengths := playable.toNat_maxLength_lt
  have counted := accounts.program.length
  have targetBelow := position_le_instructionCount stands
  have addressable : core.Addressable := ⟨by omega, by omega⟩
  have offsetSmall : offset.toNat < 0x4000000000000000 := by omega
  obtain ⟨entry, entryValue, single⟩ := accounts.thread
  have valued := entryValue.last _ last
  rw [Option.map_some, isName] at valued
  have entryInt : entry.toInt = target := by
    rw [accounts.termValue_name stands valued, Int64.toInt_ofInt_of_le (by omega) (by omega)]
    omega
  -- The target is inside the core, so folding the entry leaves it alone.
  have folded := toNat_fold entry limits.coreSize positive (by omega)
  rw [entryInt, Int.emod_eq_of_lt (by omega) (by omega)] at folded
  obtain ⟨waiting, start⟩ := Battle.launch_of_single addressable single (by omega) offsetSmall
  have started : (Battle.launch core warrior offset).start = limits.addressAt offset target := by
    apply UInt64.toNat_inj.mp
    rw [start, toNat_addressAt playable, cells]
    congr 1
    omega
  rw [waiting, started]
  exact ⟨rfl, rfl⟩

theorem linked_of_accounts :
    Linked limits items offset (core.load offset warrior.program)
      (Battle.launch core warrior offset) where
  operand _ _ _ _ _ _ _ _ _ split written isName stands :=
    leadsTo_of_accounts playable small cells accounts short inside split written isName stands
  origin _ _ _ last isName stands :=
    start_of_accounts playable small cells accounts short inside last isName stands

end Placing

namespace Battle

/-- The warrior that a source assembles to is placed: at a given place, or at a drawn one. -/
inductive Places
    (before : Battle)
    (source : String)
    (warrior : Warrior)
    (offset : UInt64) : Loading → Prop where
  | given : Places before source warrior offset (before.place warrior offset)
  | drawn (isDrawn : before.drawOffset.1 = offset) :
      Places before source warrior offset (before.load source)

/-- A match in a core of the right size places the warrior, and links it. -/
theorem place_links_of_sized
    {limits : Limits}
    (playable : limits.Playable)
    (small : limits.coreSize.toNat ≤ 0x4000000000000000)
    {before : Battle}
    (sized : Sized limits before)
    {source : String}
    {warrior : Warrior}
    (assembled : assemble limits source = .ok warrior)
    (short : warrior.program.length < limits.maxLength.toNat)
    {offset : UInt64}
    (inside : offset.toNat < limits.coreSize.toNat) :
    ∃ placed,
      (before.place warrior offset).outcome = .ok placed ∧
      (before.place warrior offset).battle.roster = before.roster ++ [placed] ∧
      ∀ items, Reads (Text.lines source.toList) items →
        Linked limits items offset (before.place warrior offset).battle.core placed := by
  have fits : warrior.program.length < before.limits.maxLength.toNat := by
    rw [sized.paced.limits_eq]
    exact short
  rw [place_of_short before warrior offset fits]
  refine ⟨_, rfl, rfl, ?_⟩
  intro items reads
  have accounts := accounts_of_reads assembled reads
  -- The number behind its name changes nothing else about the warrior.
  have numbered : Accounts limits items (before.numbered warrior) :=
    ⟨accounts.functional, accounts.program, accounts.thread⟩
  exact linked_of_accounts playable small sized.cells numbered short inside

/-- Wherever a warrior is placed in a match, its names lead to what they label. Whatever happened in
the match before, a source that assembles to a warrior of an allowed length is placed, the source
has items, and in the core as it is right after the placement every operand that is written as the
label of an instruction, and the first thread if the last origin is written so, is linked to the
cell of that instruction. -/
theorem places_linked
    {limits : Limits}
    {generator : Generator}
    {fresh : Battle}
    (created : create limits generator = .ok fresh)
    (small : limits.coreSize.toNat ≤ 0x4000000000000000)
    (commands : List Command)
    {source : String}
    {warrior : Warrior}
    (assembled : assemble limits source = .ok warrior)
    (short : warrior.program.length < limits.maxLength.toNat)
    {offset : UInt64}
    (inside : offset.toNat < limits.coreSize.toNat)
    {loading : Loading}
    (places : Places (fresh.follow commands).1 source warrior offset loading) :
    (∃ items, Reads (Text.lines source.toList) items) ∧
    ∃ placed,
      loading.outcome = .ok placed ∧
      loading.battle.roster = (fresh.follow commands).1.roster ++ [placed] ∧
      ∀ items, Reads (Text.lines source.toList) items →
        Linked limits items offset loading.battle.core placed := by
  have playable := ((create_eq_ok_iff limits generator fresh).mp created).1
  have sized := sized_follow created commands
  refine ⟨exists_reads_of_assemble assembled, ?_⟩
  cases places with
  | given => exact place_links_of_sized playable small sized assembled short inside
  | drawn isDrawn =>
      -- Drawing a place changes the generator only.
      have drawn : Sized limits (fresh.follow commands).1.drawOffset.2 := by
        obtain ⟨⟨sameLimits, within, below, contested⟩, cells⟩ := sized
        exact ⟨⟨sameLimits, within, below, contested⟩, cells⟩
      have sameLimits : (fresh.follow commands).1.limits = limits := sized.paced.limits_eq
      rw [load_eq, sameLimits, assembled, isDrawn]
      exact place_links_of_sized playable small drawn assembled short inside

/-- A warrior of three instructions that goes around the end of the core: its second and third
instruction are in the first two cells. -/
theorem places_linked_around_the_end :
    let limits : Limits := ⟨8, 10, 4, 5⟩
    let fresh : Battle := { limits, core := .ofSize 8, generator := ⟨1, 2, 3, 4⟩ }
    let jumper : Warrior := .single "J" 0 [⟨.jmp, {}, {}⟩]
    let source := "; redcode\n; name L\n; assert 1\n\n ORG loop\nstep EQU 3\ndata: DAT 2 ; sum\n" ++
      "loop: ADD #step, @ data\n JMP loop\nEND\n"
    let warrior : Warrior := .single "L" 1
      [⟨.dat, ⟨.direct, 2⟩, {}⟩, ⟨.add, ⟨.immediate, 3⟩, ⟨.indirect, -1⟩⟩,
        ⟨.jmp, ⟨.direct, -1⟩, {}⟩]
    let before := (fresh.follow [.place jumper 1, .place jumper 4, .round]).1
    let loading := before.place warrior 7
    let core := loading.battle.core
    create limits ⟨1, 2, 3, 4⟩ = .ok fresh ∧
    assemble limits source = .ok warrior ∧
    ∃ placed,
      loading.outcome = .ok placed ∧
      placed.start = 0 ∧
      placed.tasks.waiting = [0] ∧
      (core.read (0 : UInt64).toInt64).b.mode = .indirect ∧
      (((core.read (0 : UInt64).toInt64).b.resolve core 0).address.toNat : Int) =
        ((7 : UInt64).toNat + (core.read (7 : UInt64).toInt64).a.field.toInt) % core.cells.size ∧
      (core.read (1 : UInt64).toInt64).a.mode = .direct ∧
      ((core.read (1 : UInt64).toInt64).a.resolve core 1).address = 0 := by
  intro limits fresh jumper source warrior before loading core
  have created : create limits ⟨1, 2, 3, 4⟩ = .ok fresh :=
    (create_eq_ok_iff _ _ _).mpr ⟨by decide, rfl⟩
  have assembled : assemble limits source = .ok warrior := by decide +kernel
  have places : Places before source warrior 7 loading := .given
  clear_value loading
  let step : Identifier := ⟨"step".toList, by decide⟩
  let data : Identifier := ⟨"data".toList, by decide⟩
  let loop : Identifier := ⟨"loop".toList, by decide⟩
  let origin : Item := .origin none (some ⟨.direct, .name loop⟩)
  let constant : Item := .constant step 3
  let sum : Item := .instruction (some data) .dat (.one ⟨.direct, .literal 2⟩)
  let addition : Item :=
    .instruction (some loop) .add (.two ⟨.immediate, .name step⟩ ⟨.indirect, .name data⟩)
  let jump : Item := .instruction none .jmp (.one ⟨.direct, .name loop⟩)
  let items := [origin, constant, sum, addition, jump]
  have lines : Text.lines source.toList =
      ["; redcode".toList, "; name L".toList, "; assert 1".toList, [], " ORG loop".toList,
        "step EQU 3".toList, "data: DAT 2 ; sum".toList, "loop: ADD #step, @ data".toList,
        " JMP loop".toList, "END".toList] := by
    decide +kernel
  have reads : Reads (Text.lines source.toList) items := by
    rw [lines]
    refine .blank (by decide +kernel) (.blank (by decide +kernel) (.blank (by decide +kernel)
      (.blank (by decide +kernel) ?_)))
    refine .item (by decide +kernel) (.item (by decide +kernel) (.item (by decide +kernel)
      (.item (by decide +kernel) (.item (by decide +kernel) ?_))))
    exact .finish (by decide +kernel) []
  obtain ⟨_, placed, isPlaced, _, linked⟩ := places_linked created (by decide)
    [.place jumper 1, .place jumper 4, .round] assembled (by decide) (by decide) places
  have standsData : Stands items data (.position 0) :=
    @Stands.position items data [origin, constant] [addition, jump] sum rfl rfl rfl
  have standsLoop : Stands items loop (.position 1) :=
    @Stands.position items loop [origin, constant, sum] [jump] addition rfl rfl rfl
  obtain ⟨start, waiting⟩ := (linked items reads).origin ⟨.direct, .name loop⟩ loop 1
    ⟨[], none, [constant, sum, addition, jump], rfl, by decide⟩ rfl standsLoop
  obtain ⟨indirect, toSum⟩ := (linked items reads).operand [origin, constant, sum] (some loop) .add
    (.two ⟨.immediate, .name step⟩ ⟨.indirect, .name data⟩) [jump] .b ⟨.indirect, .name data⟩ data 0
    rfl rfl rfl standsData
  obtain ⟨direct, toLoop⟩ := (linked items reads).operand [origin, constant, sum, addition] none
    .jmp (.one ⟨.direct, .name loop⟩) [] .a ⟨.direct, .name loop⟩ loop 1 rfl rfl rfl standsLoop
  have dataAt : limits.addressAt 7 0 = 7 := by decide +kernel
  have loopAt : limits.addressAt 7 1 = 0 := by decide +kernel
  have additionAt : limits.addressAt 7 (instructionCount [origin, constant, sum]) = 0 := by
    decide +kernel
  have jumpAt : limits.addressAt 7 (instructionCount [origin, constant, sum, addition]) = 1 := by
    decide +kernel
  rw [loopAt] at start waiting
  simp only [additionAt, dataAt, Side.operand] at indirect toSum
  simp only [jumpAt, loopAt, Side.operand] at direct toLoop
  exact ⟨created, assembled, placed, isPlaced, start, waiting, indirect, toSum.indirect indirect,
    direct, toLoop.direct direct⟩

end Battle

end CoreWar
