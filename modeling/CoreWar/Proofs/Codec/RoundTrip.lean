import CoreWar.Codec.Event
import CoreWar.Codec.Limits
import CoreWar.Proofs.Json.RoundTrip

/-!
Contract: every value that has a JSON form is read back from its text.

Owns:
- the fields of a written record, found by their names;
- words, modes, operations, instructions, cores, queues, warriors, limits, states and events;
- written events, which can be held while their tag is looked for;
- configurations: the written limits are accepted when they can be played.

Does not own: the text of a JSON value, see `CoreWar.Proofs.Json.RoundTrip`.

Each reader undoes its writer on JSON values first. The text comes in once, at the end.
-/

namespace CoreWar

open Json (Value EmptyContent)

namespace Json

/-! ## Lists and records -/

/-- Written one by one, contents are read one by one. -/
theorem mapM_map_eq_some
    {α β γ : Type}
    {write : α → β}
    {read : β → Option γ}
    {content : α → γ}
    {items : List α}
    (undone : ∀ item ∈ items, read (write item) = some (content item)) :
    (items.map write).mapM read = some (items.map content) := by
  induction items with
  | nil => rfl
  | cons item rest inductionHypothesis =>
      have restUndone : ∀ other ∈ rest, read (write other) = some (content other) :=
        fun other member => undone other (List.mem_cons_of_mem item member)
      rw [List.map_cons, List.mapM_cons, undone item List.mem_cons_self,
        inductionHypothesis restUndone]
      rfl

/-- A key that stands once among the members has its value. -/
theorem memberNamed?_of_mem
    {members : List (String × Value)}
    (distinct : (members.map Prod.fst).Nodup)
    {member : String × Value}
    (found : member ∈ members) :
    memberNamed? members member.1 = some (some member.2) := by
  have alone : members.filter (fun other => other.1 == member.1) = [member] := by
    induction members with
    | nil => contradiction
    | cons first rest inductionHypothesis =>
        rw [List.map_cons, List.nodup_cons] at distinct
        obtain ⟨fresh, restDistinct⟩ := distinct
        rcases List.mem_cons.mp found with rfl | later
        · have none : rest.filter (fun other => other.1 == member.1) = [] := by
            apply List.filter_eq_nil_iff.mpr
            intro other otherMember same
            exact fresh (beq_iff_eq.mp same ▸ List.mem_map_of_mem otherMember)
          rw [List.filter_cons_of_pos (by simp), none]
        · have different : ¬(first.1 == member.1) = true := by
            intro same
            exact fresh (beq_iff_eq.mp same ▸ List.mem_map_of_mem later)
          rw [List.filter_cons, if_neg different]
          exact inductionHypothesis restDistinct later
  rw [memberNamed?, alone]

theorem unicodeMembers?_some (members : List (String × Value)) :
    unicodeMembers? (members.map fun member => (some member.1, member.2)) = some members := by
  have unicode : unicodeMembers? (members.map fun member => (some member.1, member.2)) =
      some (members.map id) :=
    mapM_map_eq_some fun _ _ => rfl
  rwa [List.map_id] at unicode

/-- The fields of a written record are its values in their order. -/
theorem fields?_ofMembers
    (members : List (String × Value))
    (distinct : (members.map Prod.fst).Nodup) :
    (Value.ofMembers members).fields? (members.map Prod.fst) =
      some (members.map fun member => some member.2) := by
  simp only [Value.ofMembers, Value.fields?, unicodeMembers?_some, Option.bind_eq_bind,
    Option.bind_some]
  exact mapM_map_eq_some fun _ member => memberNamed?_of_mem distinct member

theorem string?_ofString (content : String) : (Value.ofString content).string? = some content :=
  rfl

/-! ## Words -/

theorem unsigned?_ofUnsigned (word : UInt64) : (Value.ofUnsigned word).unsigned? = some word := by
  show Word.unsigned? word.toNat = some word
  rw [Word.unsigned?, if_pos word.toNat_lt, UInt64.ofNat_toNat]

theorem signed?_ofSigned (word : Int64) : (Value.ofSigned word).signed? = some word := by
  show (Number.integer (word.toInt < 0) word.toInt.natAbs).signed? = some word
  by_cases negative : word.toInt < 0
  · obtain ⟨magnitude, isMagnitude⟩ := Nat.exists_eq_succ_of_ne_zero
      (show word.toInt.natAbs ≠ 0 by omega)
    have value : -((magnitude + 1 : Nat) : Int) = word.toInt := by omega
    rw [decide_eq_true negative, isMagnitude]
    show Word.signed? (-((magnitude + 1 : Nat) : Int)) = some word
    rw [value, Text.signed?_toInt]
  · have value : (word.toInt.natAbs : Int) = word.toInt := by omega
    rw [decide_eq_false negative]
    show Word.signed? (word.toInt.natAbs : Int) = some word
    rw [value, Text.signed?_toInt]

end Json

/-! ## Instructions, cores, queues and warriors -/

theorem Mode.ofJson?_toJson (empty : EmptyContent) (mode : Mode) :
    ofJson? empty mode.toJson = some mode := by
  cases mode with
  | immediate => rfl
  | direct => rfl
  | indirect => rfl

theorem Operation.ofJson?_toJson (empty : EmptyContent) (operation : Operation) :
    ofJson? empty operation.toJson = some operation := by
  have named : ofJsonName? operation.jsonName = some operation := by
    cases operation <;> rfl
  exact named

theorem Instruction.ofJson?_toJson (empty : EmptyContent) (instruction : Instruction) :
    ofJson? empty instruction.toJson = some instruction := by
  have fields := Json.fields?_ofMembers
    [("op", instruction.operation.toJson),
      ("a_mode", instruction.a.mode.toJson),
      ("a_field", .ofSigned instruction.a.field),
      ("b_mode", instruction.b.mode.toJson),
      ("b_field", .ofSigned instruction.b.field)]
    (by simp)
  simp only [List.map_cons, List.map_nil] at fields
  simp only [ofJson?, toJson, fields, Option.bind_eq_bind, Option.bind_some,
    Operation.ofJson?_toJson, Mode.ofJson?_toJson, Json.signed?_ofSigned, Option.pure_def]

/-- Written instructions are read one by one. -/
theorem Instruction.mapM_ofJson?_toJson (program : List Instruction) :
    (program.map toJson).mapM (ofJson? .nullOnly) = some program := by
  have read : (program.map toJson).mapM (ofJson? .nullOnly) = some (program.map id) :=
    Json.mapM_map_eq_some fun instruction _ => ofJson?_toJson _ instruction
  rwa [List.map_id] at read

theorem Core.ofJson?_toJson (core : Core) : ofJson? core.toJson = some core := by
  have fields := Json.fields?_ofMembers
    [("cells", .array (core.cells.toList.map Instruction.toJson))] (by simp)
  simp only [List.map_cons, List.map_nil] at fields
  simp only [ofJson?, toJson, fields, Option.bind_eq_bind, Option.bind_some, Value.items?,
    Instruction.mapM_ofJson?_toJson, Option.pure_def, Array.toArray_toList]

theorem TaskQueue.ofJson?_toJson (tasks : TaskQueue) : ofJson? tasks.toJson = some tasks := by
  have fields := Json.fields?_ofMembers
    [("pcs", .array (tasks.waiting.map Value.ofUnsigned))] (by simp)
  have waiting : (tasks.waiting.map Value.ofUnsigned).mapM Value.unsigned? =
      some (tasks.waiting.map id) :=
    Json.mapM_map_eq_some fun word _ => Json.unsigned?_ofUnsigned word
  rw [List.map_id] at waiting
  simp only [List.map_cons, List.map_nil] at fields
  simp only [ofJson?, toJson, fields, Option.bind_eq_bind, Option.bind_some, Value.items?, waiting,
    Option.pure_def]

theorem Warrior.ofJson?_toJson (warrior : Warrior) : ofJson? warrior.toJson = some warrior := by
  have fields := Json.fields?_ofMembers
    [("name", .ofString warrior.name),
      ("instructions", .array (warrior.program.map Instruction.toJson)),
      ("tasks", warrior.tasks.toJson),
      ("start", .ofUnsigned warrior.start)]
    (by simp)
  simp only [List.map_cons, List.map_nil] at fields
  simp only [ofJson?, toJson, fields, Option.bind_eq_bind, Option.bind_some, Json.string?_ofString,
    Value.items?, Instruction.mapM_ofJson?_toJson, TaskQueue.ofJson?_toJson,
    Json.unsigned?_ofUnsigned, Option.pure_def]

/-! ## Limits and states -/

theorem readLimit_ofUnsigned (default limit : UInt64) :
    readLimit default (some (.ofUnsigned limit)) = some limit :=
  Json.unsigned?_ofUnsigned limit

theorem Limits.ofJson?_toJson (limits : Limits) : ofJson? limits.toJson = some limits := by
  have fields := Json.fields?_ofMembers
    [("core_size", .ofUnsigned limits.coreSize),
      ("max_cycles", .ofUnsigned limits.maxCycles),
      ("max_length", .ofUnsigned limits.maxLength),
      ("max_tasks", .ofUnsigned limits.maxTasks)]
    (by simp)
  simp only [List.map_cons, List.map_nil] at fields
  simp only [ofJson?, toJson, fields, Option.bind_eq_bind, Option.bind_some, readLimit_ofUnsigned,
    Option.pure_def]

/-- Written limits are a configuration when they pass the check. -/
theorem Limits.ofConfiguration_toText (limits : Limits) :
    ofConfiguration (Json.toText limits.toJson) = .ok limits ↔ limits.check = .ok () := by
  have decoded : Json.decode? ofJson? (Json.toText limits.toJson) = some limits :=
    Json.decode?_toText limits.ofJson?_toJson
  simp only [ofConfiguration, decoded]
  cases limits.check with
  | ok accepted => simp
  | error error => simp

theorem Status.ofJson?_toJson (status : Status) : ofJson? status.toJson = some status := by
  cases status with
  | running => rfl
  | won warrior => rfl
  | tie => rfl

/-! ## Events -/

namespace Json

/-- Rounding adds less than one unit in the last of the 53 places. -/
theorem Binary64.round_le (number : Nat) :
    round number ≤ number + Nat.pow 2 (number.log2 + 1 - 53) := by
  have whole := Nat.div_mul_le_self number (Nat.pow 2 (number.log2 + 1 - 53))
  unfold round
  simp only
  split
  · rw [Nat.add_mul, Nat.one_mul]
    omega
  · omega

/-- A word is in the range of binary64. -/
theorem Binary64.isFinite_of_word {significand : Nat} (word : significand < UInt64.size) :
    isFinite significand 0 = true := by
  by_cases zero : significand = 0
  · rw [isFinite, if_pos (Or.inl zero)]
  · have bits : significand.log2 < 64 := (Nat.log2_lt zero).mpr word
    have unit : Nat.pow 2 (significand.log2 + 1 - 53) ≤ Nat.pow 2 12 :=
      Nat.pow_le_pow_right (by decide) (by omega)
    have rounded := round_le significand
    have one : round (Nat.pow 10 (0 : Int).toNat) = 1 := by decide
    have large : UInt64.size + Nat.pow 2 12 < overflow := by decide +kernel
    have below : round significand < overflow := by omega
    rw [isFinite, if_neg (by simp [zero]), if_neg (by decide), one, Nat.mul_one]
    exact decide_eq_true below

/-- The digits of a number are all taken as long as the number is a word. -/
theorem takeDigits_digitsOf
    {digits : List Char}
    (allDigits : ∀ character ∈ digits, character.isDigit = true)
    {significand : Nat}
    (word : Nat.ofDigitChars 10 digits significand < UInt64.size) :
    takeDigits significand (digitsOf digits) = (Nat.ofDigitChars 10 digits significand, 0) := by
  induction digits generalizing significand with
  | nil => rfl
  | cons digit rest inductionHypothesis =>
      have restDigits : ∀ character ∈ rest, character.isDigit = true := fun character member =>
        allDigits character (List.mem_cons_of_mem digit member)
      have value : (Fin.ofNat 10 (digit.toNat - '0'.toNat)).val = digit.toNat - '0'.toNat := by
        have isDigit := allDigits digit List.mem_cons_self
        simp only [Char.isDigit, Bool.and_eq_true, decide_eq_true_eq] at isDigit
        have atMost : digit.toNat ≤ '9'.toNat := isDigit.2
        have nine : '9'.toNat = '0'.toNat + 9 := by decide
        exact Nat.mod_eq_of_lt (by omega)
      rw [Nat.ofDigitChars_cons] at word ⊢
      have grows : 10 * significand + (digit.toNat - '0'.toNat) ≤
          Nat.ofDigitChars 10 rest (10 * significand + (digit.toNat - '0'.toNat)) := by
        rw [Nat.ofDigitChars_eq_ofDigitChars_zero]
        exact Nat.le_trans (Nat.le_mul_of_pos_left _ (Nat.pow_pos (by decide)))
          (Nat.le_add_right _ _)
      have longer : significand * 10 + (digit.toNat - '0'.toNat) =
          10 * significand + (digit.toNat - '0'.toNat) := by
        omega
      have next := inductionHypothesis restDigits word
      unfold digitsOf at next ⊢
      rw [List.map_cons, takeDigits]
      simp only [value, longer]
      rw [if_pos (by omega), next]

/-- A literal for a word is in the range of binary64. -/
theorem isFinite_integer (negative : Bool) {magnitude : Nat} (word : magnitude < UInt64.size) :
    (Number.integer negative magnitude).isFinite = true := by
  have value : Nat.ofDigitChars 10 (Text.decimal magnitude) 0 = magnitude :=
    Nat.ofDigitChars_ten_toDigits
  have taken : takeDigits 0 (digitsOf (Text.decimal magnitude)) = (magnitude, 0) := by
    rw [takeDigits_digitsOf (fun _ member => Text.isDigit_of_mem_decimal member)
      (by rw [value]; exact word), value]
  simp only [Number.isFinite, scientific, taken, takeDigits]
  exact Binary64.isFinite_of_word word

theorem isHoldable_ofString (depth : Nat) (content : String) :
    (Value.ofString content).isHoldable depth = true :=
  rfl

theorem isHoldable_ofUnsigned (depth : Nat) (word : UInt64) :
    (Value.ofUnsigned word).isHoldable depth = true :=
  isFinite_integer false word.toNat_lt

theorem isHoldable_ofSigned (depth : Nat) (word : Int64) :
    (Value.ofSigned word).isHoldable depth = true := by
  have least := word.le_toInt
  have below := word.toInt_lt
  have fits : word.toInt.natAbs < UInt64.size := by
    simp only [UInt64.size]
    omega
  exact isFinite_integer (word.toInt < 0) fits

theorem membersHoldable_cons (depth : Nat) (key : Content) (value : Value)
    (rest : List (Content × Value)) :
    membersHoldable depth ((key, value) :: rest) =
      (key.isSome && value.isHoldable depth && membersHoldable depth rest) :=
  rfl

/-- A record can be held when its values can. -/
theorem isHoldable_ofMembers
    {depth : Nat}
    {members : List (String × Value)}
    (held : ∀ member ∈ members, member.2.isHoldable depth = true) :
    (Value.ofMembers members).isHoldable (depth + 1) = true := by
  have all :
      membersHoldable depth (members.map fun member => (some member.1, member.2)) = true := by
    induction members with
    | nil => rfl
    | cons member rest inductionHypothesis =>
        have restHeld : ∀ other ∈ rest, other.2.isHoldable depth = true := fun other found =>
          held other (List.mem_cons_of_mem member found)
        rw [List.map_cons, membersHoldable_cons, held member List.mem_cons_self,
          inductionHypothesis restHeld]
        rfl
  show (decide (0 < depth + 1) &&
    membersHoldable depth (members.map fun member => (some member.1, member.2))) = true
  rw [decide_eq_true (Nat.succ_pos depth), all]
  rfl

end Json

theorem Instruction.isHoldable_toJson (depth : Nat) (instruction : Instruction) :
    instruction.toJson.isHoldable (depth + 1) = true := by
  apply Json.isHoldable_ofMembers
  simp [Operation.toJson, Mode.toJson, Json.isHoldable_ofString, Json.isHoldable_ofSigned]

namespace Event

/-- A written event can be held: an instruction is the most deeply nested value in it. -/
theorem isHoldable_toJson (event : Event) : event.toJson.isHoldable maxDepth = true := by
  apply Json.isHoldable_ofMembers
  cases event with
  | step warrior address instruction =>
      simp [members, Json.isHoldable_ofString, Json.isHoldable_ofUnsigned,
        Instruction.isHoldable_toJson 125]
  | fault warrior address message =>
      simp [members, Json.isHoldable_ofString, Json.isHoldable_ofUnsigned]
  | died warrior => simp [members, Json.isHoldable_ofString]
  | won warrior => simp [members, Json.isHoldable_ofString]
  | tie cycles => simp [members, Json.isHoldable_ofString, Json.isHoldable_ofUnsigned]
  | error message => simp [members, Json.isHoldable_ofString]

/-- No member of an event is called like the tag. -/
theorem ne_event_of_mem_members {event : Event} {member : String × Value}
    (found : member ∈ event.members) :
    member.1 ≠ "event" := by
  revert member
  cases event with
  | step warrior address instruction => simp [members]
  | fault warrior address message => simp [members]
  | died warrior => simp [members]
  | won warrior => simp [members]
  | tie cycles => simp [members]
  | error message => simp [members]

/-- The tag that was written in front of the members is split off them. -/
theorem splitTag?_toJson (event : Event) :
    splitTag? ((("event", .ofString event.tag) :: event.members).map
        fun member => (some member.1, member.2)) =
      some (event.tag, .ofMembers event.members) := by
  have untagged : ∀ member ∈ event.members.map fun member => (some member.1, member.2),
      (member.1 == some "event") = false := by
    intro member found
    obtain ⟨source, sourceFound, rfl⟩ := List.mem_map.mp found
    simpa using ne_event_of_mem_members sourceFound
  have tags : (event.members.map fun member => (some member.1, member.2)).filter
      (fun member => member.1 == some "event") = [] := by
    apply List.filter_eq_nil_iff.mpr
    intro member found
    simp [untagged member found]
  have others : (event.members.map fun member => (some member.1, member.2)).filter
      (fun member => !(member.1 == some "event")) =
        event.members.map fun member => (some member.1, member.2) := by
    apply List.filter_eq_self.mpr
    intro member found
    simp [untagged member found]
  rw [List.map_cons, splitTag?, List.partition_eq_filter_filter, List.filter_cons_of_pos (by rfl),
    tags, List.filter_cons_of_neg (by simp)]
  simp only [Function.comp_def, others]
  rfl

/-- The members of an event are read under its tag. -/
theorem ofTagged?_members (event : Event) :
    ofTagged? event.tag (.ofMembers event.members) = some event := by
  have distinct : (event.members.map Prod.fst).Nodup := by
    cases event <;> simp [members]
  have fields := Json.fields?_ofMembers event.members distinct
  cases event with
  | step warrior address instruction =>
      simp only [members, List.map_cons, List.map_nil] at fields
      simp only [members, tag, ofTagged?, fields, Option.bind_eq_bind, Option.bind_some,
        Json.string?_ofString, Json.unsigned?_ofUnsigned, Instruction.ofJson?_toJson,
        Option.pure_def]
  | fault warrior address message =>
      simp only [members, List.map_cons, List.map_nil] at fields
      simp only [members, tag, ofTagged?, fields, Option.bind_eq_bind, Option.bind_some,
        Json.string?_ofString, Json.unsigned?_ofUnsigned, Option.pure_def]
  | died warrior =>
      simp only [members, List.map_cons, List.map_nil] at fields
      simp only [members, tag, ofTagged?, fields, Option.bind_eq_bind, Option.bind_some,
        Json.string?_ofString, Option.pure_def]
  | won warrior =>
      simp only [members, List.map_cons, List.map_nil] at fields
      simp only [members, tag, ofTagged?, fields, Option.bind_eq_bind, Option.bind_some,
        Json.string?_ofString, Option.pure_def]
  | tie cycles =>
      simp only [members, List.map_cons, List.map_nil] at fields
      simp only [members, tag, ofTagged?, fields, Option.bind_eq_bind, Option.bind_some,
        Json.unsigned?_ofUnsigned, Option.pure_def]
  | error message =>
      simp only [members, List.map_cons, List.map_nil] at fields
      simp only [members, tag, ofTagged?, fields, Option.bind_eq_bind, Option.bind_some,
        Json.string?_ofString, Option.pure_def]

theorem ofJson?_toJson (event : Event) : ofJson? event.toJson = some event := by
  unfold ofJson?
  rw [if_pos event.isHoldable_toJson]
  show (splitTag? ((("event", .ofString event.tag) :: event.members).map
    fun member => (some member.1, member.2))).bind _ = some event
  rw [splitTag?_toJson]
  exact ofTagged?_members event

end Event

/-! ## Through the text -/

/-- Every value of every type with a JSON form is what its text is read as: words of any size, names
and messages of any characters, lists of any length. The text of limits is a configuration exactly
if the limits pass the check. -/
theorem decode_written :
    (∀ (empty : EmptyContent) (instruction : Instruction),
      Json.decode? (Instruction.ofJson? empty) (Json.toText instruction.toJson) =
        some instruction) ∧
    (∀ (empty : EmptyContent) (mode : Mode),
      Json.decode? (Mode.ofJson? empty) (Json.toText mode.toJson) = some mode) ∧
    (∀ (empty : EmptyContent) (operation : Operation),
      Json.decode? (Operation.ofJson? empty) (Json.toText operation.toJson) = some operation) ∧
    (∀ event : Event, Json.decode? Event.ofJson? (Json.toText event.toJson) = some event) ∧
    (∀ status : Status, Json.decode? Status.ofJson? (Json.toText status.toJson) = some status) ∧
    (∀ tasks : TaskQueue,
      Json.decode? TaskQueue.ofJson? (Json.toText tasks.toJson) = some tasks) ∧
    (∀ warrior : Warrior,
      Json.decode? Warrior.ofJson? (Json.toText warrior.toJson) = some warrior) ∧
    (∀ core : Core, Json.decode? Core.ofJson? (Json.toText core.toJson) = some core) ∧
    (∀ limits : Limits, Json.decode? Limits.ofJson? (Json.toText limits.toJson) = some limits) ∧
    (∀ limits : Limits,
      Limits.ofConfiguration (Json.toText limits.toJson) = .ok limits ↔
        limits.check = .ok ()) :=
  ⟨fun empty instruction => Json.decode?_toText (instruction.ofJson?_toJson empty),
    fun empty mode => Json.decode?_toText (mode.ofJson?_toJson empty),
    fun empty operation => Json.decode?_toText (operation.ofJson?_toJson empty),
    fun event => Json.decode?_toText event.ofJson?_toJson,
    fun status => Json.decode?_toText status.ofJson?_toJson,
    fun tasks => Json.decode?_toText tasks.ofJson?_toJson,
    fun warrior => Json.decode?_toText warrior.ofJson?_toJson,
    fun core => Json.decode?_toText core.ofJson?_toJson,
    fun limits => Json.decode?_toText limits.ofJson?_toJson,
    fun limits => limits.ofConfiguration_toText⟩

end CoreWar
