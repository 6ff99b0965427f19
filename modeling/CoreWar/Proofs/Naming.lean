import CoreWar.Proofs.Confinement
import CoreWar.Proofs.Text.Words

/-!
Contract: the names of the warriors of a match.

Owns:
- the placements of a history, with the warrior as it was given and as it was placed;
- the name of a placed warrior: the given one with the number of earlier placements behind it;
- which warriors then have the same name, and when no two do;
- the names in events and in the status, which are names of placed warriors.

Does not own: which names a source can give, see `CoreWar.Proofs.Assembly.Canonical`.

Nothing stands between a name and the number behind it. A given name that ends in digits can so be
taken for a shorter one with a longer number.
-/

namespace CoreWar

/-! ## Numbers behind texts -/

namespace Text

theorem decimal_inj {left right : Nat} : decimal left = decimal right ↔ left = right := by
  constructor
  · intro same
    have value := congrArg ofDigits? same
    rw [ofDigits?_decimal, ofDigits?_decimal] at value
    exact Option.some.inj value
  · intro same
    rw [same]

/-- A number that ends in the digits of another is not the smaller one. -/
theorem le_of_decimal_eq_append
    {digits : List Char}
    {left right : Nat}
    (ends : decimal left = digits ++ decimal right) :
    right ≤ left := by
  have value : left = Nat.ofDigitChars 10 (digits ++ decimal right) 0 := by
    rw [← ends]
    exact Nat.ofDigitChars_ten_toDigits.symm
  rw [Nat.ofDigitChars_append, Nat.ofDigitChars_eq_ofDigitChars_zero, decimal,
    Nat.ofDigitChars_ten_toDigits] at value
  omega

/-- Two texts with numbers behind them are the same when the one with the lower number has the
leading digits of the higher one at its end. -/
theorem append_decimal_eq_iff
    {lowerText upperText : List Char}
    {lower upper : Nat}
    (less : lower < upper) :
    lowerText ++ decimal lower = upperText ++ decimal upper ↔
      ∃ digits, lowerText = upperText ++ digits ∧ decimal upper = digits ++ decimal lower := by
  rw [List.append_eq_append_iff]
  constructor
  · intro either
    rcases either with ⟨digits, _, ends⟩ | shared
    · have atMost := le_of_decimal_eq_append ends
      omega
    · exact shared
  · intro shared
    exact Or.inr shared

end Text

/-- The warrior that an event is about. -/
def Event.warrior? : Event → Option String
  | step warrior _ _ => some warrior
  | fault warrior _ _ => some warrior
  | died warrior => some warrior
  | won warrior => some warrior
  | tie _ => none
  | error _ => none

/-- The event is about none but the warriors of these names. -/
def Event.About (names : List String) (event : Event) : Prop :=
  ∀ name ∈ event.warrior?, name ∈ names

namespace Battle

/-! ## Placements -/

/-- A warrior as it was given and as it was placed. -/
structure Placement where
  given : Warrior
  placed : Warrior
deriving DecidableEq, Repr

/-- The placement of a warrior that was given, if it was not rejected. -/
def Loading.placement? (loading : Loading) (given : Warrior) : Option Placement :=
  match loading.outcome with
  | .ok placed => some ⟨given, placed⟩
  | .error _ => none

/-- The placement that a command makes, if it makes one. -/
def placement? (battle : Battle) : Command → Option Placement
  | .load source =>
    match Assembly.assemble battle.limits source with
    | .ok given => (battle.load source).placement? given
    | .error _ => none
  | .place given offset => (battle.place given offset).placement? given
  | .round => none
  | .run => none

/-- The placements of a sequence of commands, in order. -/
def placements (battle : Battle) : List Command → List Placement
  | [] => []
  | command :: rest => (battle.placement? command).toList ++ (battle.obey command).1.placements rest

/-- The names under which warriors were placed. -/
def names (placements : List Placement) : List String :=
  placements.map fun placement => placement.placed.name

/-- What a placement, or the lack of one, does to a match. -/
inductive Joins (before : Battle) : Option Placement → Battle → Prop where
  | rejected
      {after : Battle}
      (counted : after.placed = before.placed)
      (roster : after.roster = before.roster)
      (status : after.status = before.status) :
      Joins before none after
  | placed
      {after : Battle}
      {placement : Placement}
      (counted : after.placed = before.placed + 1)
      (roster : after.roster = before.roster ++ [placement.placed])
      (status : after.status = before.status)
      (name : placement.placed.name.toList =
        placement.given.name.toList ++ Text.decimal before.placed) :
      Joins before (some placement) after

theorem joins_place (battle : Battle) (warrior : Warrior) (offset : UInt64) :
    Joins battle (battle.placement? (.place warrior offset))
      (battle.place warrior offset).battle := by
  by_cases short : warrior.program.length < battle.limits.maxLength.toNat
  · simp only [placement?, place_of_short battle warrior offset short, Loading.placement?]
    refine Joins.placed rfl rfl rfl ?_
    show (warrior.name ++ String.ofList (Text.decimal battle.placed)).toList = _
    rw [String.toList_append, String.toList_ofList]
  · simp only [placement?, place_of_long battle warrior offset (Nat.not_lt.mp short), reject,
      Loading.placement?]
    exact Joins.rejected rfl rfl rfl

theorem joins_load (battle : Battle) (source : String) :
    Joins battle (battle.placement? (.load source)) (battle.load source).battle := by
  cases assembled : Assembly.assemble battle.limits source with
  | error error =>
      simp only [placement?, load_eq, assembled]
      exact Joins.rejected rfl rfl rfl
  | ok warrior =>
      simp only [placement?, load_eq, assembled]
      -- Drawing a place changes the generator only.
      have joins := joins_place battle.drawOffset.2 warrior battle.drawOffset.1
      simp only [placement?] at joins
      generalize (battle.drawOffset.2.place warrior battle.drawOffset.1).placement? warrior =
        placement at joins ⊢
      cases joins with
      | rejected counted roster status => exact Joins.rejected counted roster status
      | placed counted roster status name => exact Joins.placed counted roster status name

/-! ## Counting -/

theorem placed_round (battle : Battle) : battle.round.1.placed = battle.placed := by
  by_cases running : battle.status = .running
  · rw [round_of_running battle running]
  · rw [round_of_ended battle running]

theorem placed_run (battle : Battle) : battle.run.battle.placed = battle.placed :=
  (run_keeps (fun other => other.placed = battle.placed) (fun _ => True)
    (fun other same => ⟨(placed_round other).trans same, fun _ _ => trivial⟩) battle rfl).1

/-- A match counts a placement and puts the count before it behind the name. -/
structure Counts (before : Battle) (placement : Option Placement) (after : Battle) : Prop where
  placed : after.placed = before.placed + placement.toList.length
  name : ∀ made ∈ placement,
    made.placed.name.toList = made.given.name.toList ++ Text.decimal before.placed

theorem counts_of_joins
    {before after : Battle}
    {placement : Option Placement}
    (joins : Joins before placement after) :
    Counts before placement after := by
  cases joins with
  | rejected counted _ _ => exact ⟨counted, by simp⟩
  | placed counted _ _ name => exact ⟨counted, fun _ made => Option.mem_some.mp made ▸ name⟩

theorem counts_obey (battle : Battle) (command : Command) :
    Counts battle (battle.placement? command) (battle.obey command).1 := by
  cases command with
  | load source => exact counts_of_joins (joins_load battle source)
  | place warrior offset => exact counts_of_joins (joins_place battle warrior offset)
  | round => exact ⟨placed_round battle, by simp [placement?]⟩
  | run => exact ⟨placed_run battle, by simp [placement?]⟩

theorem placed_follow (battle : Battle) (commands : List Command) :
    (battle.follow commands).1.placed = battle.placed + (battle.placements commands).length := by
  induction commands generalizing battle with
  | nil => rfl
  | cons command rest inductionHypothesis =>
      show ((battle.obey command).1.follow rest).1.placed = _
      rw [inductionHypothesis, (counts_obey battle command).placed, placements, List.length_append,
        Nat.add_assoc]

/-- The number behind a name is the count of the placements before it. -/
theorem name_of_placements
    (battle : Battle)
    (commands : List Command)
    {index : Nat}
    {placement : Placement}
    (found : (battle.placements commands)[index]? = some placement) :
    placement.placed.name.toList =
      placement.given.name.toList ++ Text.decimal (battle.placed + index) := by
  induction commands generalizing battle index with
  | nil => contradiction
  | cons command rest inductionHypothesis =>
      rw [placements] at found
      have counts := counts_obey battle command
      cases made : battle.placement? command with
      | none =>
          rw [made] at found counts
          have later := inductionHypothesis (battle.obey command).1 found
          rwa [counts.placed] at later
      | some first =>
          rw [made] at found counts
          cases index with
          | zero =>
              obtain rfl : first = placement := Option.some.inj found
              exact counts.name first rfl
          | succ index =>
              have later := inductionHypothesis (battle.obey command).1 found
              rwa [counts.placed, Nat.add_assoc, Nat.add_comm _ index] at later

/-! ## Distinct names -/

/-- The placements are numbered in order, from zero on. -/
def Ordered (placements : List Placement) : Prop :=
  ∀ index placement, placements[index]? = some placement →
    placement.placed.name.toList = placement.given.name.toList ++ Text.decimal index

section Ordered

variable {placements : List Placement} (ordered : Ordered placements)
include ordered

/-- Which two placements have the same name. -/
theorem sameName_iff
    {lower upper : Nat}
    (less : lower < upper)
    {first second : Placement}
    (isFirst : placements[lower]? = some first)
    (isSecond : placements[upper]? = some second) :
    first.placed.name = second.placed.name ↔
      ∃ digits, first.given.name.toList = second.given.name.toList ++ digits ∧
        Text.decimal upper = digits ++ Text.decimal lower := by
  rw [← String.toList_inj, ordered lower first isFirst, ordered upper second isSecond]
  exact Text.append_decimal_eq_iff less

/-- It is enough that no digit can pass from a number to the name in front of it. -/
theorem nodup_of_noDigits
    (noDigits : ∀ (lower upper : Nat) (first second : Placement) (digits : List Char),
      lower < upper →
      placements[lower]? = some first →
      placements[upper]? = some second →
      first.given.name.toList = second.given.name.toList ++ digits →
      Text.decimal upper = digits ++ Text.decimal lower →
      digits = []) :
    (names placements).Nodup := by
  rw [names, List.nodup_iff_pairwise_ne, List.pairwise_map, List.pairwise_iff_getElem]
  intro lower upper lowerBelow upperBelow less same
  have isFirst := List.getElem?_eq_getElem lowerBelow
  have isSecond := List.getElem?_eq_getElem upperBelow
  obtain ⟨digits, given, numeral⟩ := (sameName_iff ordered less isFirst isSecond).mp same
  have none := noDigits lower upper _ _ digits less isFirst isSecond given numeral
  rw [none, List.nil_append, Text.decimal_inj] at numeral
  omega

/-- The first ten placements have numbers of one digit. -/
theorem nodup_of_few (few : placements.length ≤ 10) :
    (names placements).Nodup := by
  apply nodup_of_noDigits ordered
  intro lower upper first second digits _ _ isSecond _ numeral
  have below := (List.getElem?_eq_some_iff.mp isSecond).1
  have single : (Text.decimal upper).length ≤ 1 :=
    (Nat.length_toDigits_le_iff (by decide) (by decide)).mpr (by omega)
  have notEmpty : 0 < (Text.decimal lower).length := Nat.length_toDigits_pos
  rw [numeral, List.length_append] at single
  exact List.length_eq_zero_iff.mp (by omega)

/-- A name that does not end in a digit takes none from the number. -/
theorem nodup_of_undigited
    (undigited : ∀ placement ∈ placements, ∀ character ∈ placement.given.name.toList.getLast?,
      character.isDigit = false) :
    (names placements).Nodup := by
  apply nodup_of_noDigits ordered
  intro lower upper first second digits _ isFirst _ given numeral
  rcases List.eq_nil_or_concat digits with empty | ⟨front, last, rfl⟩
  · exact empty
  · have isLast : last ∈ first.given.name.toList.getLast? := by
      rw [given]
      simp
    have noDigit := undigited first (List.mem_of_getElem? isFirst) last isLast
    have member : last ∈ Text.decimal upper := by
      rw [numeral]
      simp
    have isDigit := Text.isDigit_of_mem_decimal member
    rw [noDigit] at isDigit
    contradiction

end Ordered

/-! ## Names in a match -/

/-- The warriors left and the winner have these names. -/
structure Knows (names : List String) (battle : Battle) : Prop where
  roster : ∀ warrior ∈ battle.roster, warrior.name ∈ names
  winner : ∀ name, battle.status = .won name → name ∈ names

theorem name_turn (maxTasks : UInt64) (core : Core) (warrior : Warrior) :
    (turn maxTasks core warrior).warrior.name = warrior.name := by
  cases dequeued : warrior.tasks.dequeue? with
  | none => rw [turn_of_idle maxTasks core dequeued]
  | some pair =>
      rw [turn_of_dequeue? maxTasks core dequeued]
      rfl

theorem warrior?_of_mem_turn
    {maxTasks : UInt64}
    {core : Core}
    {warrior : Warrior}
    {event : Event}
    (member : event ∈ (turn maxTasks core warrior).events) :
    event.warrior? = some warrior.name := by
  obtain ⟨_, rfl | ⟨_, rfl⟩⟩ := step_or_fault_of_mem_turn member
  · rfl
  · rfl

theorem warrior?_of_mem_obituary
    {played : Turn}
    {event : Event}
    (member : event ∈ played.obituary) :
    event.warrior? = some played.warrior.name := by
  rw [Turn.eq_died_of_mem_obituary member]
  rfl

/-- The turns of a round are about the warriors that have them. -/
theorem about_turns
    (maxTasks : UInt64)
    (core : Core)
    {names : List String}
    {roster : List Warrior}
    (known : ∀ warrior ∈ roster, warrior.name ∈ names) :
    (∀ warrior ∈ (turns maxTasks core roster).survivors, warrior.name ∈ names) ∧
    ∀ event ∈ (turns maxTasks core roster).events, event.About names := by
  induction roster generalizing core with
  | nil => exact ⟨by simp [turns], by simp [turns]⟩
  | cons warrior rest inductionHypothesis =>
      have firstKnown := known warrior List.mem_cons_self
      have restKnown : ∀ other ∈ rest, other.name ∈ names := fun other member =>
        known other (List.mem_cons_of_mem warrior member)
      obtain ⟨survivors, events⟩ :=
        inductionHypothesis (turn maxTasks core warrior).core restKnown
      have isFirst {event : Event} (about : event.warrior? = some warrior.name) :
          event.About names := by
        intro name isName
        rw [about, Option.mem_some] at isName
        rw [← isName]
        exact firstKnown
      rw [turns_cons]
      constructor
      · intro other member
        rcases List.mem_append.mp member with first | later
        · rw [Turn.eq_of_mem_survivor first, name_turn]
          exact firstKnown
        · exact survivors other later
      · intro event member
        rcases List.mem_append.mp member with played | following
        · exact isFirst (warrior?_of_mem_turn played)
        · rcases List.mem_append.mp following with died | later
          · exact isFirst ((warrior?_of_mem_obituary died).trans
              (congrArg some (name_turn maxTasks core warrior)))
          · exact events event later

theorem eq_won_of_announcement
    {status : Status}
    {cycles : UInt64}
    {event : Event}
    (announced : event ∈ status.announcement cycles)
    {name : String}
    (isName : name ∈ event.warrior?) :
    status = .won name := by
  cases status with
  | running => contradiction
  | tie =>
      rw [List.mem_singleton.mp announced] at isName
      contradiction
  | won warrior =>
      rw [List.mem_singleton.mp announced] at isName
      exact congrArg Status.won (Option.mem_some.mp isName)

theorem knows_round {names : List String} {battle : Battle} (knows : Knows names battle) :
    Knows names battle.round.1 ∧ ∀ event ∈ battle.round.2, event.About names := by
  by_cases running : battle.status = .running
  · rw [round_of_running battle running]
    obtain ⟨survivors, events⟩ :=
      about_turns battle.limits.maxTasks battle.core knows.roster
    have winner : ∀ name,
        verdict battle.limits (battle.cycles + 1)
          (turns battle.limits.maxTasks battle.core battle.roster).survivors = .won name →
        name ∈ names := by
      intro name won
      obtain ⟨warrior, alone, rfl⟩ := (verdict_eq_won_iff _ _ _ _).mp won
      exact survivors warrior (by rw [alone]; exact List.mem_cons_self)
    refine ⟨⟨survivors, winner⟩, ?_⟩
    intro event member
    rcases List.mem_append.mp member with played | announced
    · exact events event played
    · intro name isName
      exact winner name (eq_won_of_announcement announced isName)
  · rw [round_of_ended battle running]
    exact ⟨knows, by simp⟩

theorem knows_of_joins
    {known : List String}
    {before after : Battle}
    {placement : Option Placement}
    (joins : Joins before placement after)
    (knows : Knows known before) :
    Knows (known ++ names placement.toList) after := by
  cases joins with
  | rejected _ roster status =>
      refine ⟨?_, ?_⟩
      · rw [roster]
        exact fun warrior member => List.mem_append_left _ (knows.roster warrior member)
      · rw [status]
        exact fun name won => List.mem_append_left _ (knows.winner name won)
  | @placed _ placement _ roster status _ =>
      refine ⟨?_, ?_⟩
      · rw [roster]
        intro warrior member
        rcases List.mem_append.mp member with old | new
        · exact List.mem_append_left _ (knows.roster warrior old)
        · rw [List.mem_singleton.mp new]
          exact List.mem_append_right _ List.mem_cons_self
      · rw [status]
        exact fun name won => List.mem_append_left _ (knows.winner name won)

/-- Loading announces nothing but errors, which are about no warrior of the match. -/
theorem about_of_mem_place
    {battle : Battle}
    {warrior : Warrior}
    {offset : UInt64}
    {event : Event}
    (member : event ∈ (battle.place warrior offset).events)
    (known : List String) :
    event.About known := by
  by_cases short : warrior.program.length < battle.limits.maxLength.toNat
  · rw [place_of_short battle warrior offset short] at member
    contradiction
  · rw [place_of_long battle warrior offset (Nat.not_lt.mp short)] at member
    rw [List.mem_singleton.mp member]
    intro name isName
    contradiction

theorem about_of_mem_load
    {battle : Battle}
    {source : String}
    {event : Event}
    (member : event ∈ (battle.load source).events)
    (known : List String) :
    event.About known := by
  rw [load_eq] at member
  cases assembled : Assembly.assemble battle.limits source with
  | ok warrior =>
      rw [assembled] at member
      exact about_of_mem_place member known
  | error error =>
      rw [assembled] at member
      rw [List.mem_singleton.mp member]
      intro name isName
      contradiction

theorem knows_obey
    {known : List String}
    {battle : Battle}
    (knows : Knows known battle)
    (command : Command) :
    Knows (known ++ names (battle.placement? command).toList) (battle.obey command).1 ∧
    ∀ event ∈ (battle.obey command).2, event.About known := by
  cases command with
  | load source =>
      exact ⟨knows_of_joins (joins_load battle source) knows,
        fun _ member => about_of_mem_load member known⟩
  | place warrior offset =>
      exact ⟨knows_of_joins (joins_place battle warrior offset) knows,
        fun _ member => about_of_mem_place member known⟩
  | round =>
      have same : known ++ names (battle.placement? .round).toList = known := List.append_nil known
      rw [same]
      exact knows_round knows
  | run =>
      have same : known ++ names (battle.placement? .run).toList = known := List.append_nil known
      rw [same]
      exact run_keeps (Knows known) (Event.About known) (fun _ => knows_round) battle knows

/-- A history knows the warriors that were there before and those that it places. -/
theorem knows_follow
    {known : List String}
    {battle : Battle}
    (knows : Knows known battle)
    (commands : List Command) :
    Knows (known ++ names (battle.placements commands)) (battle.follow commands).1 ∧
    ∀ event ∈ (battle.follow commands).2,
      event.About (known ++ names (battle.placements commands)) := by
  induction commands generalizing battle known with
  | nil =>
      have same : known ++ names (battle.placements []) = known := List.append_nil known
      rw [same]
      exact ⟨knows, by simp [follow]⟩
  | cons command rest inductionHypothesis =>
      obtain ⟨nextKnows, nowAbout⟩ := knows_obey knows command
      obtain ⟨lastKnows, laterAbout⟩ := inductionHypothesis nextKnows
      have regrouped : known ++ names (battle.placements (command :: rest)) =
          known ++ names (battle.placement? command).toList ++
            names ((battle.obey command).1.placements rest) := by
        rw [placements, names, List.map_append, List.append_assoc]
        rfl
      rw [regrouped]
      refine ⟨lastKnows, ?_⟩
      intro event member
      rcases List.mem_append.mp member with now | later
      · intro name isName
        rw [List.append_assoc]
        exact List.mem_append_left _ (nowAbout event now name isName)
      · exact laterAbout event later

/-! ## Whole histories -/

/-- The names of a match, over any history of it. A placed warrior has the name it was given and
behind it the number of placements before. Two have the same name exactly if the earlier one was
given the name of the later one with the leading digits of the later number, so none do if there are
at most ten of them or if no given name ends in a digit. Whoever is left, has won, or is named in an
event has the name of a placed warrior. -/
theorem placements_named
    {limits : Limits}
    {generator : Generator}
    {fresh : Battle}
    (created : create limits generator = .ok fresh)
    (commands : List Command) :
    let placements := fresh.placements commands
    (fresh.follow commands).1.placed = placements.length ∧
    Ordered placements ∧
    (∀ (lower upper : Nat) (first second : Placement), lower < upper →
      placements[lower]? = some first →
      placements[upper]? = some second →
      (first.placed.name = second.placed.name ↔
        ∃ digits, first.given.name.toList = second.given.name.toList ++ digits ∧
          Text.decimal upper = digits ++ Text.decimal lower)) ∧
    ((placements.length ≤ 10 ∨
      ∀ placement ∈ placements, ∀ character ∈ placement.given.name.toList.getLast?,
        character.isDigit = false) →
      (names placements).Nodup) ∧
    Knows (names placements) (fresh.follow commands).1 ∧
    ∀ event ∈ (fresh.follow commands).2, event.About (names placements) := by
  intro placements
  have isFresh := ((create_eq_ok_iff limits generator fresh).mp created).2
  have noneYet : fresh.placed = 0 := by rw [isFresh]
  have ordered : Ordered placements := by
    intro index placement found
    have named := name_of_placements fresh commands found
    rwa [noneYet, Nat.zero_add] at named
  have initially : Knows [] fresh := by
    rw [isFresh]
    exact ⟨by simp, by simp⟩
  obtain ⟨knows, about⟩ := knows_follow initially commands
  refine ⟨?_, ordered, ?_, ?_, knows, about⟩
  · rw [placed_follow, noneYet, Nat.zero_add]
  · intro lower upper first second less isFirst isSecond
    exact sameName_iff ordered less isFirst isSecond
  · intro either
    rcases either with few | undigited
    · exact nodup_of_few ordered few
    · exact nodup_of_undigited ordered undigited

/-- Two copies of a warrior and one whose name ends in a digit. -/
theorem placements_named_three :
    let limits : Limits := ⟨16, 3, 2, 1⟩
    let fresh : Battle := { limits, core := .ofSize 16, generator := ⟨1, 2, 3, 4⟩ }
    let copy : Warrior := .single "A" 0 [⟨.jmp, {}, {}⟩]
    let other : Warrior := .single "A1" 0 [⟨.dat, {}, {}⟩]
    let commands : List Command := [.place copy 0, .place copy 4, .round, .place other 8, .run]
    create limits ⟨1, 2, 3, 4⟩ = .ok fresh ∧
    names (fresh.placements commands) = ["A0", "A1", "A12"] ∧
    (names (fresh.placements commands)).Nodup ∧
    ∀ event ∈ (fresh.follow commands).2, event.About (names (fresh.placements commands)) := by
  intro limits fresh copy other commands
  have created : create limits ⟨1, 2, 3, 4⟩ = .ok fresh :=
    (create_eq_ok_iff _ _ _).mpr ⟨by decide, rfl⟩
  have placed : names (fresh.placements commands) = ["A0", "A1", "A12"] := by decide +kernel
  have few : (fresh.placements commands).length ≤ 10 := by decide +kernel
  obtain ⟨_, _, _, distinct, _, about⟩ := placements_named created commands
  exact ⟨created, placed, distinct (Or.inl few), about⟩

/-- Eleven warriors, the first given the name `A1` and the last `A`: both are placed as `A10`. When
all but the first have died, the same name has died and has won. -/
theorem names_not_distinct :
    let limits : Limits := ⟨16, 3, 2, 1⟩
    let fresh : Battle := { limits, core := .ofSize 16, generator := ⟨1, 2, 3, 4⟩ }
    let jumper : Warrior := .single "A1" 0 [⟨.jmp, {}, {}⟩]
    let victim (name : String) : Warrior := .single name 0 [⟨.dat, {}, {}⟩]
    let between : List Command := [1, 2, 3, 4, 5, 6, 7, 8, 9].map (.place (victim "B"))
    let commands : List Command := .place jumper 0 :: between ++ [.place (victim "A") 10, .round]
    create limits ⟨1, 2, 3, 4⟩ = .ok fresh ∧
    (fresh.placements commands).length = 11 ∧
    ¬(names (fresh.placements commands)).Nodup ∧
    .died "A10" ∈ (fresh.follow commands).2 ∧
    .won "A10" ∈ (fresh.follow commands).2 ∧
    (fresh.follow commands).1.status = .won "A10" := by
  intro limits fresh jumper victim between commands
  refine ⟨(create_eq_ok_iff _ _ _).mpr ⟨by decide, rfl⟩, ?_, ?_, ?_, ?_, ?_⟩
  · decide +kernel
  · decide +kernel
  · decide +kernel
  · decide +kernel
  · decide +kernel

end Battle

end CoreWar
