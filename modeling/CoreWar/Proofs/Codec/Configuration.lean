import CoreWar.Codec.Limits
import CoreWar.Proofs.Codec.RoundTrip

/-!
Contract: which JSON objects are configurations, and with which limits.

Owns:
- the limit that the members of an object fix, and the members that spoil it;
- the limits of an object, and the text of an object in any layout as a configuration.

Does not own: the limits that a command replaces, see `CoreWar.Proofs.CommandLine.Configuration`.
-/

namespace CoreWar.Limits

open Json (Value memberNamed?)

/-! ## Members -/

/-- The names of the limits. -/
def names : List String :=
  ["core_size", "max_cycles", "max_length", "max_tasks"]

/-- The members fix a limit: it keeps its default if none of them has its name, and if a single one
has, that one holds an integer literal of one word. -/
inductive Fixed
    (members : List (String × Value))
    (name : String)
    (default : UInt64) :
    UInt64 → Prop where
  | absent (unnamed : ∀ member ∈ members, member.1 ≠ name) : Fixed members name default default
  | given
      {front back : List (String × Value)}
      {literal : Nat}
      (layout : members = front ++ (name, .number (.integer false literal)) :: back)
      (alone : ∀ member ∈ front ++ back, member.1 ≠ name)
      (word : literal < UInt64.size) :
      Fixed members name default (UInt64.ofNat literal)

/-- The members spoil a limit: two of them have its name, or one of them holds something else than
an integer literal of one word. -/
inductive Spoilt (members : List (String × Value)) (name : String) : Prop where
  | repeated
      {front middle back : List (String × Value)}
      {first second : Value}
      (layout : members = front ++ (name, first) :: (middle ++ (name, second) :: back))
  | noWord
      {value : Value}
      (member : (name, value) ∈ members)
      (noLiteral : ∀ literal < UInt64.size, value ≠ .number (.integer false literal))

/-- The members fix these limits. -/
structure FixedBy (members : List (String × Value)) (limits : Limits) : Prop where
  coreSize : Fixed members "core_size" 8192 limits.coreSize
  maxCycles : Fixed members "max_cycles" 65536 limits.maxCycles
  maxLength : Fixed members "max_length" 256 limits.maxLength
  maxTasks : Fixed members "max_tasks" 16 limits.maxTasks

section Members

variable
  {members : List (String × Value)}
  {name : String}

theorem filter_eq_nil_of_unnamed (unnamed : ∀ member ∈ members, member.1 ≠ name) :
    members.filter (fun member => member.1 == name) = [] := by
  apply List.filter_eq_nil_iff.mpr
  intro member isMember
  simpa using unnamed member isMember

/-- Among the members with a name, one is alone or stands before another. -/
theorem absent_or_alone_or_repeated (members : List (String × Value)) (name : String) :
    (∀ member ∈ members, member.1 ≠ name) ∨
      (∃ front value back, members = front ++ (name, value) :: back ∧
        ∀ member ∈ front ++ back, member.1 ≠ name) ∨
      ∃ front first middle second back,
        members = front ++ (name, first) :: (middle ++ (name, second) :: back) := by
  induction members with
  | nil => exact Or.inl (by simp)
  | cons member rest inductionHypothesis =>
      obtain ⟨key, value⟩ := member
      by_cases named : key = name
      · subst named
        rcases inductionHypothesis with unnamed | ⟨front, other, back, rfl, _⟩ |
          ⟨front, first, middle, second, back, rfl⟩
        · exact Or.inr (Or.inl ⟨[], value, rest, rfl, unnamed⟩)
        · exact Or.inr (Or.inr ⟨[], value, front, other, back, rfl⟩)
        · exact Or.inr (Or.inr ⟨(key, value) :: front, first, middle, second, back, rfl⟩)
      · rcases inductionHypothesis with unnamed | ⟨front, other, back, rfl, alone⟩ |
          ⟨front, first, middle, second, back, rfl⟩
        · exact Or.inl (List.forall_mem_cons.mpr ⟨named, unnamed⟩)
        · exact Or.inr (Or.inl ⟨(key, value) :: front, other, back, rfl,
            List.forall_mem_cons.mpr ⟨named, alone⟩⟩)
        · exact Or.inr (Or.inr ⟨(key, value) :: front, first, middle, second, back, rfl⟩)

theorem memberNamed?_of_unnamed (unnamed : ∀ member ∈ members, member.1 ≠ name) :
    memberNamed? members name = some none := by
  rw [memberNamed?, filter_eq_nil_of_unnamed unnamed]

theorem memberNamed?_of_alone
    {front back : List (String × Value)}
    (value : Value)
    (alone : ∀ member ∈ front ++ back, member.1 ≠ name) :
    memberNamed? (front ++ (name, value) :: back) name = some (some value) := by
  have front := filter_eq_nil_of_unnamed fun member isMember =>
    alone member (List.mem_append_left back isMember)
  have back := filter_eq_nil_of_unnamed fun member isMember =>
    alone member (List.mem_append_right _ isMember)
  rw [memberNamed?, List.filter_append, List.filter_cons_of_pos (by simp), front, back]
  rfl

theorem memberNamed?_of_repeated
    (front middle back : List (String × Value))
    (first second : Value) :
    memberNamed? (front ++ (name, first) :: (middle ++ (name, second) :: back)) name = none := by
  have twice : 2 ≤ ((front ++ (name, first) :: (middle ++ (name, second) :: back)).filter
      fun member => member.1 == name).length := by
    simp only [List.filter_append, List.filter_cons, beq_self_eq_true, if_true, List.length_append,
      List.length_cons]
    omega
  rw [memberNamed?]
  split
  · rename_i none
    simp [none] at twice
  · rename_i single
    simp [single] at twice
  · rfl

theorem unsigned?_literal {literal : Nat} (word : literal < UInt64.size) :
    (Value.number (.integer false literal)).unsigned? = some (UInt64.ofNat literal) := by
  show Word.unsigned? literal = _
  rw [Word.unsigned?, if_pos word]

/-- Nothing else than an integer literal of one word is read as a word. -/
theorem unsigned?_eq_none
    {value : Value}
    (noLiteral : ∀ literal < UInt64.size, value ≠ .number (.integer false literal)) :
    value.unsigned? = none := by
  cases value with
  | number number =>
      cases number with
      | integer negative magnitude =>
          cases negative with
          | true => rfl
          | false =>
              have beyond : ¬magnitude < UInt64.size :=
                fun word => noLiteral magnitude word rfl
              show Word.unsigned? magnitude = none
              rw [Word.unsigned?, if_neg beyond]
      | decimal negative whole fraction exponent => rfl
  | null => rfl
  | bool value => rfl
  | text content => rfl
  | array items => rfl
  | object members => rfl

theorem readLimit_of_fixed
    {default limit : UInt64}
    (isFixed : Fixed members name default limit) :
    (memberNamed? members name).bind (readLimit default) = some limit := by
  cases isFixed with
  | absent unnamed =>
      rw [memberNamed?_of_unnamed unnamed]
      rfl
  | given layout alone word =>
      rw [layout, memberNamed?_of_alone _ alone]
      exact unsigned?_literal word

/-- A value that is no word spoils a limit also where its name is repeated. -/
theorem readLimit_of_spoilt
    (isSpoilt : Spoilt members name)
    (default : UInt64) :
    (memberNamed? members name).bind (readLimit default) = none := by
  cases isSpoilt with
  | repeated layout =>
      rw [layout, memberNamed?_of_repeated]
      rfl
  | @noWord value member noLiteral =>
      rcases absent_or_alone_or_repeated members name with unnamed |
        ⟨front, other, back, rfl, alone⟩ | ⟨front, first, middle, second, back, rfl⟩
      · exact absurd rfl (unnamed _ member)
      · have same : value = other := by
          rcases List.mem_append.mp member with inFront | inBack
          · exact absurd rfl (alone _ (List.mem_append_left back inFront))
          · rcases List.mem_cons.mp inBack with here | later
            · exact congrArg Prod.snd here
            · exact absurd rfl (alone _ (List.mem_append_right front later))
        rw [memberNamed?_of_alone _ alone, ← same]
        exact unsigned?_eq_none noLiteral
      · rw [memberNamed?_of_repeated]
        rfl

/-- Every object fixes a limit or spoils it. -/
theorem exists_fixed_or_spoilt
    (members : List (String × Value))
    (name : String)
    (default : UInt64) :
    (∃ limit, Fixed members name default limit) ∨ Spoilt members name := by
  rcases absent_or_alone_or_repeated members name with unnamed |
    ⟨front, value, back, layout, alone⟩ | ⟨front, first, middle, second, back, layout⟩
  · exact Or.inl ⟨default, .absent unnamed⟩
  · by_cases isWord : ∃ literal < UInt64.size, value = .number (.integer false literal)
    · obtain ⟨literal, word, rfl⟩ := isWord
      exact Or.inl ⟨_, .given layout alone word⟩
    · have member : (name, value) ∈ members := by
        rw [layout]
        exact List.mem_append_right front List.mem_cons_self
      refine Or.inr (.noWord member ?_)
      intro literal word same
      exact isWord ⟨literal, word, same⟩
  · exact Or.inr (.repeated layout)

end Members

/-! ## Objects -/

/-- Each limit of an object is read by itself. -/
theorem ofJson?_ofMembers (members : List (String × Value)) :
    ofJson? (.ofMembers members) =
      ((memberNamed? members "core_size").bind (readLimit 8192)).bind fun coreSize =>
      ((memberNamed? members "max_cycles").bind (readLimit 65536)).bind fun maxCycles =>
      ((memberNamed? members "max_length").bind (readLimit 256)).bind fun maxLength =>
      ((memberNamed? members "max_tasks").bind (readLimit 16)).map fun maxTasks =>
      { coreSize, maxCycles, maxLength, maxTasks } := by
  simp only [ofJson?, Value.ofMembers, Value.fields?, Json.unicodeMembers?_some,
    Option.bind_eq_bind, Option.bind_some, List.mapM_cons, List.mapM_nil, Option.pure_def]
  -- The names are all looked up before a value is read; nothing is read if one of them is repeated.
  cases memberNamed? members "core_size" with
  | none => rfl
  | some coreSize =>
    cases memberNamed? members "max_cycles" with
    | none => simp
    | some maxCycles =>
      cases memberNamed? members "max_length" with
      | none => simp
      | some maxLength =>
        cases memberNamed? members "max_tasks" with
        | none => simp
        | some maxTasks =>
          simp only [Option.bind_some, Option.map_eq_bind]
          rfl

section Objects

variable {members : List (String × Value)}

theorem ofJson?_of_fixedBy {limits : Limits} (areFixed : FixedBy members limits) :
    ofJson? (.ofMembers members) = some limits := by
  rw [ofJson?_ofMembers, readLimit_of_fixed areFixed.coreSize,
    readLimit_of_fixed areFixed.maxCycles, readLimit_of_fixed areFixed.maxLength,
    readLimit_of_fixed areFixed.maxTasks]
  rfl

theorem ofJson?_of_spoilt
    {name : String}
    (isName : name ∈ names)
    (isSpoilt : Spoilt members name) :
    ofJson? (.ofMembers members) = none := by
  have unread := readLimit_of_spoilt isSpoilt
  rw [ofJson?_ofMembers]
  simp only [names, List.mem_cons, List.not_mem_nil, or_false] at isName
  rcases isName with rfl | rfl | rfl | rfl
  · rw [unread]
    rfl
  · simp [unread]
  · simp [unread]
  · simp [unread]

theorem fixedBy_or_spoilt (members : List (String × Value)) :
    (∃ limits, FixedBy members limits) ∨ ∃ name ∈ names, Spoilt members name := by
  rcases exists_fixed_or_spoilt members "core_size" 8192 with ⟨coreSize, core⟩ | spoilt
  · rcases exists_fixed_or_spoilt members "max_cycles" 65536 with ⟨maxCycles, cycles⟩ | spoilt
    · rcases exists_fixed_or_spoilt members "max_length" 256 with ⟨maxLength, length⟩ | spoilt
      · rcases exists_fixed_or_spoilt members "max_tasks" 16 with ⟨maxTasks, tasks⟩ | spoilt
        · exact Or.inl ⟨⟨coreSize, maxCycles, maxLength, maxTasks⟩, core, cycles, length, tasks⟩
        · exact Or.inr ⟨"max_tasks", by simp [names], spoilt⟩
      · exact Or.inr ⟨"max_length", by simp [names], spoilt⟩
    · exact Or.inr ⟨"max_cycles", by simp [names], spoilt⟩
  · exact Or.inr ⟨"core_size", by simp [names], spoilt⟩

end Objects

/-! ## Configurations -/

theorem decode?_of_elementText
    {text : String}
    {value : Value}
    (isElement : Json.ElementText text.toList value) :
    Json.decode? ofJson? text = ofJson? value := by
  rw [Json.decode?, Json.parse?_of_elementText isElement]
  rfl

section Decoded

variable
  {text : String}
  {limits : Limits}
  (decoded : Json.decode? ofJson? text = some limits)
include decoded

theorem ofConfiguration_of_playable (playable : limits.Playable) :
    ofConfiguration text = .ok limits := by
  simp only [ofConfiguration, decoded, limits.check_eq_ok_iff.mpr playable]

theorem ofConfiguration_of_unplayable (unplayable : ¬limits.Playable) :
    ∃ error, limits.check = .error error ∧ ofConfiguration text = .error (.unplayable error) := by
  obtain ⟨error, refused⟩ := exists_check_eq_error unplayable
  refine ⟨error, refused, ?_⟩
  simp only [ofConfiguration, decoded, refused]

theorem ofConfiguration_ne_malformed : ofConfiguration text ≠ .error .malformed := by
  simp only [ofConfiguration, decoded]
  cases limits.check with
  | ok accepted => simp
  | error error => simp

end Decoded

/-- In any layout, an object whose members fix the limits is a configuration if they can be played,
and is refused with what their check complains about if they cannot. It is malformed exactly if its
members spoil one of the limits. -/
theorem configuration_overrides_defaults
    {text : String}
    {members : List (String × Value)}
    (isObject : Json.ElementText text.toList (.ofMembers members)) :
    (∀ limits, FixedBy members limits →
      (limits.Playable → ofConfiguration text = .ok limits) ∧
      (¬limits.Playable → ∃ error, limits.check = .error error ∧
        ofConfiguration text = .error (.unplayable error))) ∧
    (ofConfiguration text = .error .malformed ↔ ∃ name ∈ names, Spoilt members name) := by
  have decoded := decode?_of_elementText isObject
  have isFixed {limits : Limits} (areFixed : FixedBy members limits) :
      Json.decode? ofJson? text = some limits := by
    rw [decoded, ofJson?_of_fixedBy areFixed]
  refine ⟨?_, ?_, ?_⟩
  · intro limits areFixed
    exact ⟨ofConfiguration_of_playable (isFixed areFixed),
      ofConfiguration_of_unplayable (isFixed areFixed)⟩
  · intro malformed
    rcases fixedBy_or_spoilt members with ⟨limits, areFixed⟩ | spoilt
    · exact absurd malformed (ofConfiguration_ne_malformed (isFixed areFixed))
    · exact spoilt
  · rintro ⟨name, isName, isSpoilt⟩
    rw [ofConfiguration, decoded, ofJson?_of_spoilt isName isSpoilt]

/-! ### A layout with blanks, escapes and other members -/

/-- The members of a file that leaves two limits to their defaults, out of order and between other
members; one of those holds a limit's name and a string that is no Unicode text. -/
def scatteredMembers : List (String × Value) :=
  [("note", .array [.number (.decimal false 1 [] 3),
      .object [(some "core_size", .number (.integer true 1))], .text none]),
    ("max_length", .number (.integer false 100)),
    ("note", .null),
    ("core_size", .number (.integer false 8000))]

/-- Their text. A key of a limit is written with an escape, and blanks stand between the tokens. -/
def scatteredText : String :=
  "\x7b\n\t\"note\" : [1e3,\x7b\"core_size\":-1\x7d,\"\\ud800\"] ,\"max\\u005Flength\":100,\r" ++
    "\"note\":null, \"core_size\":8000\x7d\n"

theorem stringText_escapedKey :
    Json.StringText "max\\u005Flength".toList (some "max_length") := by
  have zero : Json.HexDigit '0' 0 := .lower 0 (by decide)
  have five : Json.HexDigit '5' 5 := .lower 5 (by decide)
  have fifteen : Json.HexDigit 'F' 15 := .upper 15 (by decide)
  have tail := Json.quoted_flatMap_escapeChar "length".toList
  have quoted := Json.Quoted.escapeChar_append (Json.Quoted.escapeChar_append
    (Json.Quoted.escapeChar_append (.unit zero zero five fifteen tail) 'x') 'a') 'm'
  refine Json.stringText_of_quoted (cast (congrArg₂ Json.Quoted ?_ ?_) quoted)
  · decide +kernel
  · decide +kernel

theorem elementText_scattered :
    Json.ElementText scatteredText.toList (.ofMembers scatteredMembers) := by
  have lines : Json.Blanks ['\n', '\t'] := by decide
  have back : Json.Blanks ['\r'] := by decide
  have space : Json.Blanks [' '] := by decide
  have nothing := Json.blanks_nil
  have key := Json.stringText_flatMap_escapeChar
  have value := Json.valueText_render
  have array := value (.array [.number (.decimal false 1 [] 3),
    .object [(some "core_size", .number (.integer true 1))], .text none])
  have note := Json.MemberText.colon lines (key "note") space (.surrounded space array space)
  have maxLength := Json.MemberText.colon nothing stringText_escapedKey nothing
    (.surrounded nothing (value (.number (.integer false 100))) nothing)
  have secondNote := Json.MemberText.colon back (key "note") nothing
    (.surrounded nothing (value .null) nothing)
  have coreSize := Json.MemberText.colon space (key "core_size") nothing
    (.surrounded nothing (value (.number (.integer false 8000))) nothing)
  have members := Json.MembersText.more note (.more maxLength (.more secondNote (.one coreSize)))
  have lineEnd : Json.Blanks ['\n'] := by decide
  have element := Json.ElementText.surrounded nothing (.object members) lineEnd
  refine cast (congrArg (Json.ElementText · (.ofMembers scatteredMembers)) ?_) element
  decide +kernel

theorem configuration_overrides_defaults_scattered :
    Json.ElementText scatteredText.toList (.ofMembers scatteredMembers) ∧
      FixedBy scatteredMembers { coreSize := 8000, maxLength := 100 } ∧
      ofConfiguration scatteredText = .ok { coreSize := 8000, maxLength := 100 } := by
  have coreSize : scatteredMembers =
      scatteredMembers.take 3 ++ ("core_size", .number (.integer false 8000)) :: [] := rfl
  have maxLength : scatteredMembers = scatteredMembers.take 1 ++
      ("max_length", .number (.integer false 100)) :: scatteredMembers.drop 2 := rfl
  have areFixed : FixedBy scatteredMembers { coreSize := 8000, maxLength := 100 } := {
    coreSize := .given coreSize (by decide) (by decide)
    maxCycles := .absent (by decide)
    maxLength := .given maxLength (by decide) (by decide)
    maxTasks := .absent (by decide) }
  have read := configuration_overrides_defaults elementText_scattered
  exact ⟨elementText_scattered, areFixed, (read.1 _ areFixed).1 (by decide)⟩

end CoreWar.Limits
