import CoreWar.Proofs.Admission
import CoreWar.Proofs.Linking
import CoreWar.Proofs.Safety

/-!
Contract: which cells a loaded warrior is put into.

Owns:
- cells ahead of another one, around the end of the core, and how far ahead they lie;
- the site of a warrior: its cells, its first thread, and what is left alone;
- the start of the warrior placed before, which is a cell of the core in every match;
- loading with any place drawn in the range of the draw.

Does not own: which sources are admitted, see `CoreWar.Proofs.Admission`, and where the names of a
program lead to, see `CoreWar.Proofs.Linking`.

The draw leaves room for the longest program between the first cell and the start of the warrior
placed before. That is why a program neither meets itself nor comes around to that start.
-/

namespace CoreWar

open Assembly

/-! ## Cells ahead -/

namespace Limits

/-- The cell that lies so many steps ahead of `start`, around the end of the core. -/
def ahead (limits : Limits) (start steps : Nat) : Nat :=
  (start + steps) % limits.coreSize.toNat

/-- How many steps `cell` lies ahead of `start`. -/
def stepsTo (limits : Limits) (start cell : Nat) : Nat :=
  (cell + limits.coreSize.toNat - start) % limits.coreSize.toNat

variable {limits : Limits} {start : Nat} (inside : start < limits.coreSize.toNat)
include inside

theorem ahead_lt (steps : Nat) : limits.ahead start steps < limits.coreSize.toNat :=
  Nat.mod_lt _ (by omega)

/-- Less than a lap ahead, the steps are counted back exactly. -/
theorem stepsTo_ahead {steps : Nat} (below : steps < limits.coreSize.toNat) :
    limits.stepsTo start (limits.ahead start steps) = steps := by
  unfold stepsTo ahead
  by_cases around : start + steps < limits.coreSize.toNat
  · have sum : start + steps + limits.coreSize.toNat - start = steps + limits.coreSize.toNat := by
      omega
    rw [Nat.mod_eq_of_lt around, sum, Nat.add_mod_right, Nat.mod_eq_of_lt below]
  · have lap : (start + steps) % limits.coreSize.toNat = start + steps - limits.coreSize.toNat := by
      rw [Nat.mod_eq_sub_mod (by omega), Nat.mod_eq_of_lt (by omega)]
    have difference : start + steps - limits.coreSize.toNat + limits.coreSize.toNat - start =
        steps := by
      omega
    rw [lap, difference, Nat.mod_eq_of_lt below]

theorem ahead_inj
    {left right : Nat}
    (leftBelow : left < limits.coreSize.toNat)
    (rightBelow : right < limits.coreSize.toNat)
    (same : limits.ahead start left = limits.ahead start right) :
    left = right := by
  rw [← stepsTo_ahead inside leftBelow, same, stepsTo_ahead inside rightBelow]

/-- The start itself is met again only after no steps. -/
theorem ahead_eq_start_iff {steps : Nat} (below : steps < limits.coreSize.toNat) :
    limits.ahead start steps = start ↔ steps = 0 := by
  have none : limits.ahead start 0 = start := Nat.mod_eq_of_lt inside
  constructor
  · intro same
    exact ahead_inj inside below (by omega) (same.trans none.symm)
  · rintro rfl
    exact none

end Limits

/-! ## The site of a warrior -/

/-- A program was put into the core so many cells ahead of the start of the warrior placed before,
and its first thread as far ahead of that place as its entry says. -/
structure Sited
    (limits : Limits)
    (before : Battle)
    (program : List Instruction)
    (entry : Int64)
    (distance : Nat)
    (placed : Warrior)
    (after : Battle) :
    Prop where
  roster : after.roster = before.roster ++ [placed]
  carried : placed.program = program
  /-- Each instruction is in its cell. -/
  cells : ∀ index (below : index < program.length),
    after.core.cells[limits.ahead before.lastStart.toNat (distance + index)]? = some program[index]
  /-- The other cells are as they were. -/
  others : ∀ cell,
    (∀ index < program.length, cell ≠ limits.ahead before.lastStart.toNat (distance + index)) →
    after.core.cells[cell]? = before.core.cells[cell]?
  start : (placed.start.toNat : Int) =
    (before.lastStart.toNat + distance + entry.toInt) % limits.coreSize.toNat
  thread : placed.tasks.waiting = [placed.start]
  lastStart : after.lastStart = placed.start
  /-- The program stands in a window that ends before the core does. -/
  window : ∀ index < program.length,
    distance + index < limits.coreSize.toNat ∧
    limits.stepsTo before.lastStart.toNat
      (limits.ahead before.lastStart.toNat (distance + index)) = distance + index
  /-- No two instructions share a cell. -/
  apart : ∀ left < program.length, ∀ right < program.length,
    limits.ahead before.lastStart.toNat (distance + left) =
      limits.ahead before.lastStart.toNat (distance + right) → left = right
  /-- The start before is overwritten only by an instruction that was put exactly there. -/
  overwritten :
    (∃ index < program.length,
      limits.ahead before.lastStart.toNat (distance + index) = before.lastStart.toNat) ↔
    distance = 0 ∧ 0 < program.length

/-! ## The start before -/

namespace Battle

/-- The start of the warrior placed last is a cell of the core, the first one if there is none. -/
structure Anchored (limits : Limits) (battle : Battle) : Prop where
  sized : Sized limits battle
  inside : battle.lastStart.toNat < limits.coreSize.toNat
  first : battle.placed = 0 → battle.lastStart = 0

theorem anchored_round
    {limits : Limits}
    {battle : Battle}
    (anchored : Anchored limits battle) :
    Anchored limits battle.round.1 := by
  have sized := sized_round anchored.sized
  by_cases running : battle.status = .running
  · rw [round_of_running battle running] at sized ⊢
    exact ⟨sized, anchored.inside, anchored.first⟩
  · rw [round_of_ended battle running]
    exact anchored

/-- Drawing a place changes the generator only. -/
theorem Anchored.drawn {limits : Limits} {battle : Battle} (anchored : Anchored limits battle) :
    Anchored limits battle.drawn := by
  obtain ⟨⟨⟨sameLimits, within, below, contested⟩, cells⟩, inside, first⟩ := anchored
  exact ⟨⟨⟨sameLimits, within, below, contested⟩, cells⟩, inside, first⟩

section Anchored

variable
  {limits : Limits}
  (playable : limits.Playable)
  (small : limits.coreSize.toNat ≤ 0x4000000000000000)
include playable small

theorem Sized.addressable {battle : Battle} (sized : Sized limits battle) :
    battle.core.Addressable := by
  have positive := playable.toNat_coreSize_pos
  have cells := sized.cells
  exact ⟨by omega, by omega⟩

theorem anchored_place
    {battle : Battle}
    (anchored : Anchored limits battle)
    (warrior : Warrior)
    (offset : UInt64) :
    Anchored limits (battle.place warrior offset).battle := by
  have sized := sized_obey anchored.sized (.place warrior offset)
  refine ⟨sized, ?_, ?_⟩
  · by_cases short : warrior.program.length < battle.limits.maxLength.toNat
    · rw [place_of_short battle warrior offset short]
      have folded := Core.inside_fold (anchored.sized.addressable playable small)
      have cells := anchored.sized.cells
      have insideCore := folded
        (((battle.numbered warrior).tasks.dequeue?.getD (0, {})).1.toInt64 + offset.toInt64)
      unfold Core.Inside at insideCore
      rw [cells] at insideCore
      exact insideCore
    · rw [place_of_long battle warrior offset (Nat.not_lt.mp short)]
      exact anchored.inside
  · by_cases short : warrior.program.length < battle.limits.maxLength.toNat
    · rw [place_of_short battle warrior offset short]
      intro none
      exact absurd none (Nat.succ_ne_zero _)
    · rw [place_of_long battle warrior offset (Nat.not_lt.mp short)]
      exact anchored.first

theorem anchored_load
    {battle : Battle}
    (anchored : Anchored limits battle)
    (source : String) :
    Anchored limits (battle.load source).battle := by
  have drawn := anchored.drawn
  rw [load_eq, drawOffset_eq_drawn]
  cases assemble battle.limits source with
  | ok warrior => exact anchored_place playable small drawn warrior battle.drawOffset.1
  | error error => exact drawn

theorem anchored_obey
    {battle : Battle}
    (anchored : Anchored limits battle)
    (command : Command) :
    Anchored limits (battle.obey command).1 := by
  cases command with
  | load source => exact anchored_load playable small anchored source
  | place warrior offset => exact anchored_place playable small anchored warrior offset
  | round => exact anchored_round anchored
  | run =>
      exact (run_keeps (Anchored limits) (fun _ => True)
        (fun _ before => ⟨anchored_round before, fun _ _ => trivial⟩) battle anchored).1

end Anchored

/-- In every match the start before is a cell of the core. -/
theorem anchored_follow
    {limits : Limits}
    {generator : Generator}
    {fresh : Battle}
    (created : create limits generator = .ok fresh)
    (small : limits.coreSize.toNat ≤ 0x4000000000000000)
    (commands : List Command) :
    Anchored limits (fresh.follow commands).1 := by
  have initially := (create_eq_ok_iff limits generator fresh).mp created
  obtain ⟨playable, isFresh⟩ := initially
  have anchored : Anchored limits fresh := by
    refine ⟨sized_follow created [], ?_, ?_⟩
    · rw [isFresh]
      exact playable.toNat_coreSize_pos
    · intro _
      rw [isFresh]
  exact (follow_keeps (Anchored limits) (fun _ => True) (fun _ => True)
    (fun _ command _ before =>
      ⟨anchored_obey playable small before command, fun _ _ => trivial⟩)
    fresh commands (fun _ _ => trivial) anchored).1

/-! ## Loading at a drawn place -/

/-- Loads a source as if this distance had been drawn for it. -/
def loadAt (battle : Battle) (distance : UInt64) (source : String) : Loading :=
  match assemble battle.limits source with
  | .ok warrior =>
    battle.place warrior (battle.core.fold (battle.lastStart.toInt64 + distance.toInt64))
  | .error error => battle.reject (.assembly error)

/-- The distance that is drawn for the next source. -/
def distance (battle : Battle) : UInt64 :=
  (battle.generator.below (battle.limits.coreSize - battle.limits.maxLength)).1

theorem load_eq_loadAt (battle : Battle) (source : String) :
    battle.load source = battle.drawn.loadAt battle.distance source :=
  rfl

/-- The draw leaves room for a program of the greatest length. -/
theorem toNat_distance_lt
    {limits : Limits}
    (playable : limits.Playable)
    {battle : Battle}
    (sized : Sized limits battle) :
    battle.distance.toNat < limits.coreSize.toNat - limits.maxLength.toNat := by
  have shorter := playable.toNat_maxLength_lt
  have sameLimits := sized.paced.limits_eq
  have spread : (limits.coreSize - limits.maxLength).toNat =
      limits.coreSize.toNat - limits.maxLength.toNat :=
    UInt64.toNat_sub_of_le _ _ (UInt64.le_of_lt playable.2.2.2)
  rw [← spread, distance, sameLimits]
  exact battle.generator.toNat_below_lt (by omega)

section Siting

variable
  {limits : Limits}
  (playable : limits.Playable)
  (small : limits.coreSize.toNat ≤ 0x4000000000000000)
  {battle : Battle}
  (anchored : Anchored limits battle)
include playable small anchored

/-- A drawn place lies its distance ahead of the start before. -/
theorem toNat_fold_distance
    {distance : UInt64}
    (room : distance.toNat < limits.coreSize.toNat) :
    (battle.core.fold (battle.lastStart.toInt64 + distance.toInt64)).toNat =
      limits.ahead battle.lastStart.toNat distance.toNat := by
  have inside := anchored.inside
  have folded := Core.toNat_fold_of_toInt (anchored.sized.addressable playable small)
    (toInt_add_toInt64 battle.lastStart distance (by omega) (by omega))
  rw [folded, anchored.sized.cells, Limits.ahead]

/-- The entry was folded into the core when the source was assembled. Counted from the place of the
warrior and folded again, it still leads as far as it was written. -/
theorem launch_of_entry
    {warrior : Warrior}
    {entry : Int64}
    (single : warrior.tasks.waiting = [fold entry limits.coreSize])
    {offset : UInt64}
    (offsetInside : offset.toNat < limits.coreSize.toNat) :
    let launched := launch battle.core warrior offset
    launched.tasks.waiting = [launched.start] ∧
    (launched.start.toNat : Int) = (offset.toNat + entry.toInt) % limits.coreSize.toNat := by
  intro launched
  have folded := toNat_fold entry limits.coreSize (by omega) (by omega)
  have foldedInside : entry.toInt % limits.coreSize.toNat < limits.coreSize.toNat :=
    Int.emod_lt_of_pos _ (by omega)
  obtain ⟨thread, start⟩ := launch_of_single (anchored.sized.addressable playable small) single
    (by omega) (Nat.lt_of_lt_of_le offsetInside small)
  refine ⟨thread, ?_⟩
  rw [start, anchored.sized.cells, Int.natCast_emod, Int.natCast_add, folded, Int.emod_add_emod,
    Int.add_comm]

/-- Wherever a warrior with a single thread is put in the range of the draw, it has its site. -/
theorem sited_place
    {warrior : Warrior}
    {entry : Int64}
    (single : warrior.tasks.waiting = [fold entry limits.coreSize])
    (short : warrior.program.length < limits.maxLength.toNat)
    {distance : UInt64}
    (room : distance.toNat < limits.coreSize.toNat - limits.maxLength.toNat) :
    let offset := battle.core.fold (battle.lastStart.toInt64 + distance.toInt64)
    ∃ placed,
      (battle.place warrior offset).outcome = .ok placed ∧
      Sited limits battle warrior.program entry distance.toNat placed
        (battle.place warrior offset).battle := by
  intro offset
  have shortHere : warrior.program.length < battle.limits.maxLength.toNat := by
    rw [anchored.sized.paced.limits_eq]
    exact short
  have inside := anchored.inside
  have addressable := anchored.sized.addressable playable small
  have cells := anchored.sized.cells
  have isOffset : offset.toNat = limits.ahead battle.lastStart.toNat distance.toNat :=
    toNat_fold_distance playable small anchored (by omega)
  have offsetInside : offset.toNat < limits.coreSize.toNat := by
    rw [isOffset]
    exact Limits.ahead_lt inside distance.toNat
  have offsetSmall := Nat.lt_of_lt_of_le offsetInside small
  -- The cell of an instruction, counted from the place of the first one and from the start before.
  have cell (index : Nat) : (offset.toNat + index) % battle.core.cells.size =
      limits.ahead battle.lastStart.toNat (distance.toNat + index) := by
    rw [cells, isOffset, Limits.ahead, Limits.ahead, Nat.mod_add_mod, Nat.add_assoc]
  have below {index : Nat} (inProgram : index < warrior.program.length) :
      distance.toNat + index < limits.coreSize.toNat := by
    omega
  have numbered : (battle.numbered warrior).tasks.waiting = [fold entry limits.coreSize] := single
  obtain ⟨thread, start⟩ := launch_of_entry playable small anchored numbered offsetInside
  rw [place_of_short battle warrior offset shortHere]
  refine ⟨_, rfl, ?_⟩
  constructor
  case roster => rfl
  case carried => rfl
  case cells =>
    intro index inProgram
    rw [← cell]
    exact Core.getElem?_load addressable offsetSmall (by omega) inProgram
  case others =>
    intro other missed
    simp only [← cell] at missed
    exact Core.getElem?_load_of_missed addressable offsetSmall (by omega) missed
  case start =>
    rw [start, isOffset, Limits.ahead, Int.natCast_emod, Int.emod_add_emod, Int.natCast_add]
  case thread => exact thread
  case lastStart => rfl
  case window =>
    intro index inProgram
    exact ⟨below inProgram, Limits.stepsTo_ahead inside (below inProgram)⟩
  case apart =>
    intro left leftInProgram right rightInProgram same
    have equal := Limits.ahead_inj inside (below leftInProgram) (below rightInProgram) same
    omega
  case overwritten =>
    constructor
    · rintro ⟨index, inProgram, same⟩
      have none := (Limits.ahead_eq_start_iff inside (below inProgram)).mp same
      omega
    · rintro ⟨adjacent, someProgram⟩
      exact ⟨0, someProgram, (Limits.ahead_eq_start_iff inside (below someProgram)).mpr (by omega)⟩

/-- A source that assembles to a warrior of an allowed length is loaded into its site. -/
theorem sited_loadAt
    {source : String}
    {warrior : Warrior}
    (assembled : assemble limits source = .ok warrior)
    {entry : Int64}
    (single : warrior.tasks.waiting = [fold entry limits.coreSize])
    (short : warrior.program.length < limits.maxLength.toNat)
    {distance : UInt64}
    (room : distance.toNat < limits.coreSize.toNat - limits.maxLength.toNat) :
    ∃ placed,
      (battle.loadAt distance source).outcome = .ok placed ∧
      Sited limits battle warrior.program entry distance.toNat placed
        (battle.loadAt distance source).battle := by
  rw [loadAt, anchored.sized.paced.limits_eq, assembled]
  exact sited_place playable small anchored single short room

end Siting

/-- What a source that was loaded assembles to. -/
theorem exists_assemble_of_load
    {battle : Battle}
    {source : String}
    {placed : Warrior}
    (accepted : (battle.load source).outcome = .ok placed) :
    ∃ warrior, assemble battle.limits source = .ok warrior ∧
      warrior.program.length < battle.limits.maxLength.toNat := by
  have judged := battle.outcome_load source
  rw [accepted] at judged
  have admitted := (battle.limits.exists_judge_eq_ok_iff battle.placed source).mp
    ⟨placed.admission, judged.symm⟩
  exact (battle.limits.admits_iff source).mp admitted

/-- A source that is loaded into a match is put exactly where the draw says. Whatever happened
before, the distance is drawn below the size of the core less the greatest length, and it leads from
the start of the warrior placed before, or from the first cell, to the first instruction. The entry
of the source, which is the one value of its last origin or zero, leads from there to the first
thread. At any other distance in that range the source would have been put just as exactly. -/
theorem load_sites_program
    {limits : Limits}
    {generator : Generator}
    {fresh : Battle}
    (created : create limits generator = .ok fresh)
    (small : limits.coreSize.toNat ≤ 0x4000000000000000)
    (commands : List Command)
    {source : String}
    {placed : Warrior}
    (accepted : ((fresh.follow commands).1.load source).outcome = .ok placed) :
    let before := (fresh.follow commands).1
    let range := limits.coreSize.toNat - limits.maxLength.toNat
    (before.placed = 0 → before.lastStart = 0) ∧
    before.distance.toNat < range ∧
    (∃ items, Reads (Text.lines source.toList) items) ∧
    ∃ warrior,
      assemble limits source = .ok warrior ∧
      warrior.program.length < limits.maxLength.toNat ∧
      ∀ items, Reads (Text.lines source.toList) items →
        ∃ entry,
          EntryValue items entry ∧
          (∀ other, EntryValue items other → other = entry) ∧
          Sited limits before warrior.program entry before.distance.toNat placed
            (before.load source).battle ∧
          ∀ distance : UInt64, distance.toNat < range →
            ∃ other,
              (before.loadAt distance source).outcome = .ok other ∧
              Sited limits before warrior.program entry distance.toNat other
                (before.loadAt distance source).battle := by
  intro before range
  have playable := ((create_eq_ok_iff limits generator fresh).mp created).1
  have anchored : Anchored limits before := anchored_follow created small commands
  have sameLimits : before.limits = limits := anchored.sized.paced.limits_eq
  have room : before.distance.toNat < range := toNat_distance_lt playable anchored.sized
  obtain ⟨warrior, assembled, short⟩ := exists_assemble_of_load accepted
  rw [sameLimits] at assembled short
  refine ⟨anchored.first, room, exists_reads_of_assemble assembled, warrior, assembled, short, ?_⟩
  intro items reads
  have accounts := accounts_of_reads assembled reads
  obtain ⟨entry, isEntry, single⟩ := accounts.thread
  refine ⟨entry, isEntry, fun other isOther => accounts.entryValue_unique isOther isEntry, ?_, ?_⟩
  · obtain ⟨loaded, isLoaded, sited⟩ := sited_loadAt playable small anchored.drawn assembled
      single short room
    rw [← load_eq_loadAt] at isLoaded sited
    obtain rfl : loaded = placed := Except.ok.inj (isLoaded.symm.trans accepted)
    -- The draw left the core, the roster and the start before as they were.
    exact ⟨sited.roster, sited.carried, sited.cells, sited.others, sited.start, sited.thread,
      sited.lastStart, sited.window, sited.apart, sited.overwritten⟩
  · intro distance inRange
    exact sited_loadAt playable small anchored assembled single short inRange

/-- A warrior of two instructions that goes around the end of a core of eight cells, one cell ahead
of the start before. Its origin leads back over that start. Drawn at no distance, it would have been
put onto it. -/
theorem load_sites_program_around_the_end :
    let limits : Limits := ⟨8, 10, 4, 5⟩
    let fresh : Battle := { limits, core := .ofSize 8, generator := .ofSeed 4 }
    let jumper : Warrior := .single "J" 0 [⟨.jmp, {}, {}⟩]
    let source := "; redcode\n; name L\n; assert 1\nORG -3\nMOV 0, 1\nDAT 2\n"
    let first : Instruction := ⟨.mov, {}, ⟨.direct, 1⟩⟩
    let second : Instruction := ⟨.dat, ⟨.direct, 2⟩, {}⟩
    let placed : Warrior := .single "L1" 4 [first, second]
    create limits (.ofSeed 4) = .ok fresh ∧
    ∃ before,
      before = (fresh.follow [.place jumper 6, .round]).1 ∧
      before.lastStart = 6 ∧
      before.distance = 1 ∧
      (before.load source).outcome = .ok placed ∧
      (before.load source).battle.core.cells[7]? = some first ∧
      (before.load source).battle.core.cells[0]? = some second ∧
      (before.load source).battle.core.cells[6]? = before.core.cells[6]? ∧
      (placed.start.toNat : Int) = (6 + 1 + -3) % 8 ∧
      ∃ other,
        (before.loadAt 0 source).outcome = .ok other ∧
        (before.loadAt 0 source).battle.core.cells[6]? = some first ∧
        (other.start.toNat : Int) = (6 + 0 + -3) % 8 := by
  intro limits fresh jumper source first second placed
  have created : create limits (.ofSeed 4) = .ok fresh :=
    (create_eq_ok_iff _ _ _).mpr ⟨by decide, rfl⟩
  let back : Argument := ⟨.direct, .literal (-3)⟩
  let move : Item := .instruction none .mov (.two ⟨.direct, .literal 0⟩ ⟨.direct, .literal 1⟩)
  let stop : Item := .instruction none .dat (.one ⟨.direct, .literal 2⟩)
  let items := [.origin none (some back), move, stop]
  have lines : Text.lines source.toList =
      ["; redcode".toList, "; name L".toList, "; assert 1".toList, "ORG -3".toList,
        "MOV 0, 1".toList, "DAT 2".toList] := by
    decide +kernel
  have reads : Reads (Text.lines source.toList) items := by
    rw [lines]
    refine .blank (by decide +kernel) (.blank (by decide +kernel) (.blank (by decide +kernel) ?_))
    exact .item (by decide +kernel) (.item (by decide +kernel) (.item (by decide +kernel) .nothing))
  have assembled : assemble limits source = .ok (.single "L" 5 [first, second]) := by
    decide +kernel
  have started : (fresh.follow [.place jumper 6, .round]).1.lastStart = 6 := by decide +kernel
  have drawn : (fresh.follow [.place jumper 6, .round]).1.distance = 1 := by decide +kernel
  have accepted : ((fresh.follow [.place jumper 6, .round]).1.load source).outcome =
      .ok placed := by
    decide +kernel
  obtain ⟨_, _, _, warrior, isWarrior, _, site⟩ :=
    load_sites_program created (by decide) [.place jumper 6, .round] accepted
  obtain rfl := Except.ok.inj (assembled.symm.trans isWarrior)
  obtain ⟨entry, isEntry, _, sited, anywhere⟩ := site items reads
  obtain rfl : entry = -3 :=
    isEntry.last (some back) ⟨[], none, [move, stop], rfl, by decide⟩
  obtain ⟨other, isOther, otherSited⟩ := anywhere 0 (by decide)
  refine ⟨created, (fresh.follow [.place jumper 6, .round]).1, ?_⟩
  generalize (fresh.follow [.place jumper 6, .round]).1 = before at *
  have firstCell := sited.cells 0 (by decide)
  have secondCell := sited.cells 1 (by decide)
  have startCell := sited.others 6
  have onStart := otherSited.cells 0 (by decide)
  have start := sited.start
  have otherStart := otherSited.start
  -- The end of the core is between the two instructions.
  have firstAt : limits.ahead (6 : UInt64).toNat ((1 : UInt64).toNat + 0) = 7 := by decide
  have secondAt : limits.ahead (6 : UInt64).toNat ((1 : UInt64).toNat + 1) = 0 := by decide
  have startAt : limits.ahead (6 : UInt64).toNat ((0 : UInt64).toNat + 0) = 6 := by decide
  rw [started, drawn] at startCell start
  rw [started, drawn, firstAt] at firstCell
  rw [started, drawn, secondAt] at secondCell
  rw [started, startAt] at onStart
  rw [started] at otherStart
  exact ⟨rfl, started, drawn, accepted, firstCell, secondCell, startCell (by decide), start, other,
    isOther, onStart, otherStart⟩

end Battle

end CoreWar
