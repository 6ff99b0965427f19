import CoreWar.Proofs.Assembly.Reading
import CoreWar.Proofs.Assembly.Stages
import Mathlib.Data.List.Forall2

/-!
Contract: the assembler agrees with the reference semantics.

Owns:
- the draft that gathers the items of a source, as an invariant of reading it line by line;
- fields, programs and entries of such a draft;
- when a declared source is a warrior, and which.

Does not own: the reference semantics, see `CoreWar.Proofs.Assembly.Source`.

The draft is compared with the items read so far, so the invariant speaks of a growing list: every
notion of the reference is described on a list with one more item at its end.
-/

namespace CoreWar.Assembly

/-! ## One more item -/

/-- A place in a list with one more item is that item or a place in the list. -/
theorem split_concat
    {items above below : List Item}
    {item other : Item}
    (split : items ++ [item] = above ++ other :: below) :
    (items = above ∧ item = other ∧ below = []) ∨
      ∃ between, below = between ++ [item] ∧ items = above ++ other :: between := by
  rcases List.eq_nil_or_concat below with rfl | ⟨between, last, rfl⟩
  · obtain ⟨front, back⟩ := List.append_inj' split rfl
    exact Or.inl ⟨front, by simpa using back, rfl⟩
  · have regrouped : items ++ [item] = (above ++ other :: between) ++ [last] := by
      simpa using split
    obtain ⟨front, back⟩ := List.append_inj' regrouped rfl
    obtain rfl : item = last := by simpa using back
    exact Or.inr ⟨between, by simp, front⟩

/-- What the label of an item stands for, below this many instructions. -/
def Item.symbolBelow (count : Nat) : Item → Symbol
  | constant _ value => .constant value
  | _ => .position count

theorem stands_concat
    {items : List Item}
    {item : Item}
    {name : Identifier}
    {symbol : Symbol} :
    Stands (items ++ [item]) name symbol ↔
      Stands items name symbol ∨
        (item.label? = some name ∧ symbol = item.symbolBelow (instructionCount items)) := by
  constructor
  · intro stands
    rcases stands with member | @⟨above, below, other, split, labelled, notConstant⟩
    · rcases List.mem_append.mp member with old | new
      · exact Or.inl (.constant old)
      · rw [← List.mem_singleton.mp new]
        exact Or.inr ⟨rfl, rfl⟩
    · rcases split_concat split with ⟨rfl, rfl, _⟩ | ⟨between, _, rfl⟩
      · refine Or.inr ⟨labelled, ?_⟩
        cases item with
        | constant label value => contradiction
        | instruction label operation arguments => rfl
        | origin label argument => rfl
      · exact Or.inl (.position rfl labelled notConstant)
  · intro either
    rcases either with
      (member | @⟨above, below, other, rfl, labelled, notConstant⟩) | ⟨labelled, rfl⟩
    · exact .constant (List.mem_append_left _ member)
    · have split : above ++ other :: below ++ [item] = above ++ other :: (below ++ [item]) := by
        simp
      exact .position split labelled notConstant
    · cases item with
      | constant label value =>
          obtain rfl : label = name := Option.some.inj labelled
          exact .constant (List.mem_append_right _ List.mem_cons_self)
      | instruction label operation arguments => exact .position rfl labelled rfl
      | origin label argument => exact .position rfl labelled rfl

theorem mem_labels_iff {items : List Item} {name : Identifier} :
    name ∈ labels items ↔ ∃ symbol, Stands items name symbol := by
  constructor
  · intro member
    obtain ⟨item, inItems, labelled⟩ := List.mem_filterMap.mp member
    cases item with
    | constant label value =>
        obtain rfl : label = name := Option.some.inj labelled
        exact ⟨_, .constant inItems⟩
    | instruction label operation arguments =>
        obtain ⟨above, below, split⟩ := List.append_of_mem inItems
        exact ⟨_, .position split labelled rfl⟩
    | origin label argument =>
        obtain ⟨above, below, split⟩ := List.append_of_mem inItems
        exact ⟨_, .position split labelled rfl⟩
  · intro found
    obtain ⟨symbol, member | ⟨rfl, labelled, _⟩⟩ := found
    · exact List.mem_filterMap.mpr ⟨_, member, rfl⟩
    · exact List.mem_filterMap.mpr ⟨_, by simp, labelled⟩

theorem lastOrigin_concat
    {items : List Item}
    {item : Item}
    {argument : Option Argument} :
    LastOrigin (items ++ [item]) argument ↔
      (∃ label, item = .origin label argument) ∨
        (item.isOrigin = false ∧ LastOrigin items argument) := by
  constructor
  · intro last
    obtain ⟨above, label, below, split, noneBelow⟩ := last
    rcases split_concat split with ⟨_, rfl, _⟩ | ⟨between, rfl, rfl⟩
    · exact Or.inl ⟨label, rfl⟩
    · refine Or.inr ⟨noneBelow item (by simp), above, label, between, rfl, ?_⟩
      intro other member
      exact noneBelow other (List.mem_append_left _ member)
  · intro either
    rcases either with ⟨label, rfl⟩ | ⟨notOrigin, above, label, below, rfl, noneBelow⟩
    · exact ⟨items, label, [], rfl, by simp⟩
    · refine ⟨above, label, below ++ [item], by simp, ?_⟩
      intro other member
      rcases List.mem_append.mp member with old | new
      · exact noneBelow other old
      · rw [List.mem_singleton.mp new]
        exact notOrigin

theorem labels_append (front back : List Item) :
    labels (front ++ back) = labels front ++ labels back :=
  List.filterMap_append

/-! ## Gathering -/

theorem Identifier.name_inj {left right : Identifier} : left.name = right.name ↔ left = right := by
  constructor
  · intro same
    have texts : left.text = right.text := String.ofList_inj.mp same
    cases left
    cases right
    congr
  · intro same
    subst same
    rfl

/-- An instruction of the source without its line and its label. -/
def Item.content? : Item → Option (Operation × WrittenOperand × WrittenOperand)
  | instruction _ operation arguments =>
    some (operation, writtenOperand arguments.a?, writtenOperand arguments.b?)
  | _ => none

def DraftInstruction.content (instruction : DraftInstruction) :
    Operation × WrittenOperand × WrittenOperand :=
  (instruction.operation, instruction.a, instruction.b)

/-- The draft holds these items: the meaning of every name, the instructions in order, and the
field of the last origin. -/
structure Gathered (items : List Item) (draft : Draft) : Prop where
  symbols : ∀ (name : Identifier) symbol,
    draft.symbols.lookup name.name = some symbol ↔ Stands items name symbol
  instructions :
    draft.instructions.toList.map DraftInstruction.content = items.filterMap Item.content?
  origin : ∀ field, (∃ line, draft.origin = some (line, field)) ↔
    ∃ argument, LastOrigin items argument ∧ (writtenOperand argument).field = field

theorem gathered_nil : Gathered [] {} where
  symbols name symbol := by
    constructor
    · intro found
      contradiction
    · intro stands
      rcases stands with member | ⟨split, _, _⟩
      · contradiction
      · simp at split
  instructions := rfl
  origin field := by
    constructor
    · intro found
      obtain ⟨line, found⟩ := found
      contradiction
    · intro found
      obtain ⟨argument, ⟨above, label, below, split, _⟩, _⟩ := found
      simp at split

theorem length_filterMap_content (items : List Item) :
    (items.filterMap Item.content?).length = instructionCount items := by
  induction items with
  | nil => rfl
  | cons item rest inductionHypothesis =>
      unfold instructionCount at inductionHypothesis ⊢
      rw [List.filterMap_cons, List.countP_cons, ← inductionHypothesis]
      cases item with
      | instruction label operation arguments => simp [Item.content?, Item.isInstruction]
      | constant label value => simp [Item.content?, Item.isInstruction]
      | origin label argument => simp [Item.content?, Item.isInstruction]

section Gathering

variable {items : List Item} {draft : Draft} (gathered : Gathered items draft)
include gathered

theorem size_of_gathered : draft.instructions.size = instructionCount items := by
  rw [← length_filterMap_content, ← gathered.instructions, List.length_map, Array.length_toList]

theorem lookup_eq_none_iff (name : Identifier) :
    draft.symbols.lookup name.name = none ↔ name ∉ labels items := by
  rw [mem_labels_iff, Option.eq_none_iff_forall_ne_some]
  simp only [ne_eq, gathered.symbols, not_exists]

/-- The draft with one more item in it. -/
def Draft.after (draft : Draft) (line : Nat) (item : Item) : Draft where
  symbols := match item.label? with
    | none => draft.symbols
    | some label => (label.name, item.symbolBelow draft.instructions.size) :: draft.symbols
  instructions := match item with
    | .instruction _ operation arguments =>
      draft.instructions.push
        ⟨line, operation, writtenOperand arguments.a?, writtenOperand arguments.b?⟩
    | _ => draft.instructions
  origin := match item with
    | .origin _ argument => some (line, (writtenOperand argument).field)
    | _ => draft.origin

/-- A label that the items do not have yet can be added. -/
theorem add_of_fresh
    {item : Item}
    (fresh : ∀ name ∈ item.label?, name ∉ labels items)
    (line : Nat) :
    draft.add line item.statement = .ok (draft.after line item) := by
  have unknown : ∀ name ∈ item.label?, draft.symbols.lookup name.name = none := by
    intro name labelled
    exact (lookup_eq_none_iff gathered name).mpr (fresh name labelled)
  cases item with
  | constant label value =>
      simp only [Item.statement, Draft.add, Draft.define, unknown label rfl]
      rfl
  | instruction label operation arguments =>
      cases label with
      | none => rfl
      | some label =>
          simp only [Item.statement, Draft.add, Draft.defineHere, Option.map_some, Draft.define,
            unknown label rfl]
          rfl
  | origin label argument =>
      cases label with
      | none => rfl
      | some label =>
          simp only [Item.statement, Draft.add, Draft.defineHere, Option.map_some, Draft.define,
            unknown label rfl]
          rfl

/-- A label that the items have already cannot be added. -/
theorem fresh_of_add
    {item : Item}
    {line : Nat}
    {next : Draft}
    (added : draft.add line item.statement = .ok next) :
    ∀ name ∈ item.label?, name ∉ labels items := by
  intro name labelled
  rw [← lookup_eq_none_iff gathered]
  cases found : draft.symbols.lookup name.name with
  | none => rfl
  | some symbol =>
      cases item with
      | constant label value =>
          obtain rfl : label = name := Option.some.inj labelled
          simp [Item.statement, Draft.add, Draft.define, found] at added
      | instruction label operation arguments =>
          obtain rfl : label = some name := labelled
          simp [Item.statement, Draft.add, Draft.defineHere, Draft.define, found, bind,
            Except.bind] at added
      | origin label argument =>
          obtain rfl : label = some name := labelled
          simp [Item.statement, Draft.add, Draft.defineHere, Draft.define, found, bind,
            Except.bind] at added

theorem gathered_after
    {item : Item}
    (fresh : ∀ name ∈ item.label?, name ∉ labels items)
    (line : Nat) :
    Gathered (items ++ [item]) (draft.after line item) where
  symbols name symbol := by
    rw [stands_concat, ← gathered.symbols, ← size_of_gathered gathered]
    cases labelled : item.label? with
    | none => simp [Draft.after, labelled]
    | some label =>
        by_cases same : label = name
        · -- The new entry hides nothing: the label is not in the table yet.
          subst same
          have unknown := (lookup_eq_none_iff gathered label).mpr (fresh label labelled)
          simp [Draft.after, labelled, unknown, eq_comm]
        · have different : (name.name == label.name) = false := by
            rw [beq_eq_false_iff_ne, ne_eq, Identifier.name_inj]
            exact fun equal => same equal.symm
          simp [Draft.after, labelled, List.lookup_cons, different, same]
  instructions := by
    rw [List.filterMap_append, ← gathered.instructions]
    cases item with
    | instruction label operation arguments =>
        simp [Draft.after, Item.content?, DraftInstruction.content]
    | constant label value => simp [Draft.after, Item.content?]
    | origin label argument => simp [Draft.after, Item.content?]
  origin field := by
    simp only [lastOrigin_concat]
    cases item with
    | instruction label operation arguments =>
        simpa [Draft.after, Item.isOrigin] using gathered.origin field
    | constant label value => simpa [Draft.after, Item.isOrigin] using gathered.origin field
    | origin label argument => simp [Draft.after, Item.isOrigin]

end Gathering

/-- Reading a line that says an item adds its statement. -/
theorem readFrom_cons
    {item : Item}
    {line : List Char}
    (said : Statement.ofLine line = .ok item.statement)
    (draft : Draft)
    (number : Nat)
    (rest : List (List Char)) :
    draft.readFrom number (line :: rest) =
      (draft.add number item.statement >>= fun next => next.readFrom (number + 1) rest) := by
  apply readFrom_of_said said
  cases item <;> simp [Item.statement]

theorem nodup_labels_cons {front : List Item} {item : Item} {rest : List Item}
    (nodup : (labels (front ++ item :: rest)).Nodup) :
    ∀ name ∈ item.label?, name ∉ labels front := by
  intro name labelled member
  rw [labels_append, List.nodup_append] at nodup
  have inRest : name ∈ labels (item :: rest) :=
    List.mem_filterMap.mpr ⟨item, List.mem_cons_self, labelled⟩
  exact nodup.2.2 name member name inRest rfl

/-- Without a label that is defined twice, reading gathers all items. -/
theorem readFrom_of_nodup
    {todo : List Item}
    {lines : List (List Char)}
    (written : List.Forall₂ Item.Written todo lines)
    {front : List Item}
    {draft : Draft}
    (gathered : Gathered front draft)
    (nodup : (labels (front ++ todo)).Nodup)
    (number : Nat) :
    ∃ last, draft.readFrom number lines = .ok last ∧ Gathered (front ++ todo) last := by
  induction written generalizing front draft number with
  | nil =>
      rw [List.append_nil]
      exact ⟨draft, rfl, gathered⟩
  | @cons item line todo lines first _ inductionHypothesis =>
      -- The first item moves from the lines to come to the items gathered.
      have fresh := nodup_labels_cons nodup
      have regrouped : front ++ item :: todo = front ++ [item] ++ todo := by simp
      rw [regrouped] at nodup ⊢
      obtain ⟨last, read, gatheredLast⟩ :=
        inductionHypothesis (gathered_after gathered fresh number) nodup (number + 1)
      refine ⟨last, ?_, gatheredLast⟩
      rw [readFrom_cons (ofLine_of_written first), add_of_fresh gathered fresh]
      exact read

/-- What was read has no label that is defined twice. -/
theorem nodup_of_readFrom
    {todo : List Item}
    {lines : List (List Char)}
    (written : List.Forall₂ Item.Written todo lines)
    {front : List Item}
    {draft last : Draft}
    (gathered : Gathered front draft)
    (frontNodup : (labels front).Nodup)
    {number : Nat}
    (read : draft.readFrom number lines = .ok last) :
    (labels (front ++ todo)).Nodup := by
  induction written generalizing front draft number with
  | nil =>
      rw [List.append_nil]
      exact frontNodup
  | @cons item line todo lines first _ inductionHypothesis =>
      rw [readFrom_cons (ofLine_of_written first), bind_eq_ok_iff] at read
      obtain ⟨next, added, readRest⟩ := read
      -- That the statement could be added says that its label is new.
      have fresh := fresh_of_add gathered added
      rw [add_of_fresh gathered fresh, Except.ok.injEq] at added
      subst added
      have regrouped : front ++ item :: todo = front ++ [item] ++ todo := by simp
      rw [regrouped]
      refine inductionHypothesis (gathered_after gathered fresh number) ?_ readRest
      have single : labels [item] = item.label?.toList := by
        cases labelled : item.label? <;> simp [labels, labelled]
      rw [labels_append, single, List.nodup_append]
      refine ⟨frontNodup, by cases item.label? <;> simp, ?_⟩
      intro name member other labelled same
      subst same
      exact fresh name (Option.mem_toList.mp labelled) member

/-! ## Resolving -/

/-- The stages of a list succeed when each of them does. -/
theorem mapM_eq_ok_iff
    {ε α β : Type}
    {stage : α → Except ε β}
    {inputs : List α}
    {results : List β} :
    inputs.mapM stage = .ok results ↔
      List.Forall₂ (fun input result => stage input = .ok result) inputs results := by
  induction inputs generalizing results with
  | nil => simp [pure, Except.pure, eq_comm]
  | cons input rest inductionHypothesis =>
      simp only [List.mapM_cons, bind_eq_ok_iff, inductionHypothesis, List.forall₂_cons_left_iff]
      constructor
      · intro made
        obtain ⟨first, made, others, restMade, ⟨⟩⟩ := made
        exact ⟨first, others, made, restMade, rfl⟩
      · intro made
        obtain ⟨first, others, made, restMade, rfl⟩ := made
        exact ⟨first, made, others, restMade, rfl⟩

theorem exists_getElem?_of_forall₂
    {α β : Type}
    {Related : α → β → Prop}
    {inputs : List α}
    {results : List β}
    (related : List.Forall₂ Related inputs results)
    {index : Nat}
    {input : α}
    (found : inputs[index]? = some input) :
    ∃ result, results[index]? = some result ∧ Related input result := by
  induction related generalizing index with
  | nil => simp at found
  | cons first _ inductionHypothesis =>
      cases index with
      | zero =>
          simp only [List.getElem?_cons_zero, Option.some.injEq] at found
          subst found
          exact ⟨_, rfl, first⟩
      | succ index => exact inductionHypothesis found

theorem exists_mapM_eq_ok
    {ε α β : Type}
    {stage : α → Except ε β}
    {inputs : List α}
    (made : ∀ input ∈ inputs, ∃ result, stage input = .ok result) :
    ∃ results, inputs.mapM stage = .ok results := by
  induction inputs with
  | nil => exact ⟨[], rfl⟩
  | cons input rest inductionHypothesis =>
      obtain ⟨first, firstMade⟩ := made input List.mem_cons_self
      obtain ⟨others, othersMade⟩ := inductionHypothesis fun other member =>
        made other (List.mem_cons_of_mem input member)
      rw [mapM_eq_ok_iff] at othersMade
      exact ⟨first :: others, mapM_eq_ok_iff.mpr (.cons firstMade othersMade)⟩

theorem link_eq_ok_iff
    (draft : Draft)
    (instruction : DraftInstruction)
    (index : Nat)
    (linked : Instruction) :
    draft.link instruction index = .ok linked ↔
      linked.operation = instruction.operation ∧
      linked.a.mode = instruction.a.mode ∧
      linked.b.mode = instruction.b.mode ∧
      draft.resolve instruction.line index instruction.a.field = .ok linked.a.field ∧
      draft.resolve instruction.line index instruction.b.field = .ok linked.b.field := by
  simp only [Draft.link, bind_eq_ok_iff]
  constructor
  · intro linked
    obtain ⟨a, resolvedA, b, resolvedB, ⟨⟩⟩ := linked
    exact ⟨rfl, rfl, rfl, resolvedA, resolvedB⟩
  · intro parts
    obtain ⟨operation, modeA, modeB, resolvedA, resolvedB⟩ := parts
    refine ⟨linked.a.field, resolvedA, linked.b.field, resolvedB, ?_⟩
    rw [← operation, ← modeA, ← modeB]
    rfl

theorem field_writtenOperand (argument : Option Argument) :
    (writtenOperand argument).field = (argument.map Argument.term).map Term.field := by
  cases argument with
  | none => rfl
  | some argument => rfl

theorem mode_writtenOperand (argument : Option Argument) :
    (writtenOperand argument).mode = (argument.map Argument.mode).getD .direct := by
  cases argument with
  | none => rfl
  | some argument => rfl

section Resolving

variable {items : List Item} {draft : Draft} (gathered : Gathered items draft)
include gathered

theorem resolve_eq_ok_iff (line index : Nat) (term : Option Term) (value : Int64) :
    draft.resolve line index (term.map Term.field) = .ok value ↔
      TermValue items index term value := by
  cases term with
  | none => simp [Draft.resolve, TermValue, eq_comm]
  | some term =>
      cases term with
      | literal number => simp [Draft.resolve, TermValue, Term.field, eq_comm]
      | name name =>
          simp only [TermValue, ← gathered.symbols, Option.map_some, Term.field, Draft.resolve]
          cases draft.symbols.lookup name.name with
          | none => simp
          | some symbol =>
              cases symbol with
              | constant number => simp [Symbol.valueAt, eq_comm]
              | position target => simp [Symbol.valueAt, Int64.ofInt_eq_ofNat, eq_comm]

/-- The instruction of the draft that an instruction of the source has become. -/
theorem exists_draftInstruction
    {above below : List Item}
    {label : Option Identifier}
    {operation : Operation}
    {arguments : Arguments}
    (split : items = above ++ .instruction label operation arguments :: below) :
    ∃ line, draft.instructions.toList[instructionCount above]? =
      some ⟨line, operation, writtenOperand arguments.a?, writtenOperand arguments.b?⟩ := by
  have content : (draft.instructions.toList.map DraftInstruction.content)[instructionCount above]? =
      some (operation, writtenOperand arguments.a?, writtenOperand arguments.b?) := by
    rw [gathered.instructions, split, List.filterMap_append, ← length_filterMap_content,
      List.getElem?_append_right (Nat.le_refl _), Nat.sub_self]
    rfl
  rw [List.getElem?_map, Option.map_eq_some_iff] at content
  obtain ⟨⟨line, _, _, _⟩, found, same⟩ := content
  cases same
  exact ⟨line, found⟩

theorem programValue_of_program
    {program : List Instruction}
    (linked : draft.program = .ok program) :
    ProgramValue items program := by
  have each := mapM_eq_ok_iff.mp linked
  refine ⟨?_, ?_⟩
  · rw [← each.length_eq, List.length_zipIdx, Array.length_toList, size_of_gathered gathered]
  · intro above label operation arguments below split
    obtain ⟨line, found⟩ := exists_draftInstruction gathered split
    have numbered : draft.instructions.toList.zipIdx[instructionCount above]? =
        some (⟨line, operation, writtenOperand arguments.a?, writtenOperand arguments.b?⟩,
          instructionCount above) := by
      rw [List.getElem?_zipIdx, found, Option.map_some, Nat.zero_add]
    obtain ⟨instruction, placed, made⟩ := exists_getElem?_of_forall₂ each numbered
    obtain ⟨sameOperation, modeA, modeB, resolvedA, resolvedB⟩ :=
      (link_eq_ok_iff draft _ _ instruction).mp made
    rw [field_writtenOperand, resolve_eq_ok_iff gathered] at resolvedA resolvedB
    rw [mode_writtenOperand] at modeA modeB
    exact ⟨instruction, placed, sameOperation, ⟨modeA, resolvedA⟩, ⟨modeB, resolvedB⟩⟩

theorem entryValue_of_entry {entry : Int64} (entered : draft.entry = .ok entry) :
    EntryValue items entry where
  last argument last := by
    obtain ⟨line, found⟩ := (gathered.origin _).mpr ⟨argument, last, rfl⟩
    rw [Draft.entry, found, field_writtenOperand] at entered
    exact (resolve_eq_ok_iff gathered line 0 _ entry).mp entered
  absent noOrigin := by
    cases origin : draft.origin with
    | none =>
        rw [Draft.entry, origin] at entered
        exact (Except.ok.inj entered).symm
    | some pair =>
        obtain ⟨argument, ⟨above, label, below, split, _⟩, _⟩ :=
          (gathered.origin pair.2).mp ⟨pair.1, origin⟩
        have isOrigin := noOrigin (.origin label argument) (by rw [split]; simp)
        contradiction

/-- A term whose name is defined has a value. -/
theorem exists_resolve
    {term : Option Term}
    (defined : ∀ name, term = some (.name name) → name ∈ labels items)
    (line index : Nat) :
    ∃ value, draft.resolve line index (term.map Term.field) = .ok value := by
  simp only [resolve_eq_ok_iff gathered]
  cases term with
  | none => exact ⟨0, rfl⟩
  | some term =>
      cases term with
      | literal number => exact ⟨number, rfl⟩
      | name name =>
          obtain ⟨symbol, stands⟩ := mem_labels_iff.mp (defined name rfl)
          exact ⟨_, symbol, stands, rfl⟩

variable (defined : ∀ name, Uses items name → name ∈ labels items)
include defined

theorem exists_program : ∃ program, draft.program = .ok program := by
  apply exists_mapM_eq_ok
  rintro ⟨instruction, index⟩ member
  have inDraft : instruction ∈ draft.instructions.toList := List.fst_mem_of_mem_zipIdx member
  have content : instruction.content ∈ items.filterMap Item.content? := by
    rw [← gathered.instructions]
    exact List.mem_map_of_mem inDraft
  obtain ⟨item, inItems, same⟩ := List.mem_filterMap.mp content
  cases item with
  | constant label value => contradiction
  | origin label argument => contradiction
  | instruction label operation arguments =>
      obtain ⟨line, _, _, _⟩ := instruction
      cases same
      obtain ⟨a, resolvedA⟩ := exists_resolve gathered
        (fun name used => defined name (.instruction inItems (Or.inl used))) line index
      obtain ⟨b, resolvedB⟩ := exists_resolve gathered
        (fun name used => defined name (.instruction inItems (Or.inr used))) line index
      rw [← field_writtenOperand] at resolvedA resolvedB
      exact ⟨⟨_, ⟨_, a⟩, ⟨_, b⟩⟩,
        (link_eq_ok_iff draft _ index _).mpr ⟨rfl, rfl, rfl, resolvedA, resolvedB⟩⟩

theorem exists_entry : ∃ entry, draft.entry = .ok entry := by
  unfold Draft.entry
  split
  · exact ⟨0, rfl⟩
  · rename_i line field origin
    obtain ⟨argument, last, rfl⟩ := (gathered.origin field).mp ⟨line, origin⟩
    rw [field_writtenOperand]
    exact exists_resolve gathered (fun name used => defined name (.origin last used)) line 0

end Resolving

/-- Whatever a program and an entry use has a meaning. -/
theorem defined_of_values
    {items : List Item}
    {program : List Instruction}
    {entry : Int64}
    (programValue : ProgramValue items program)
    (entryValue : EntryValue items entry)
    {name : Identifier}
    (uses : Uses items name) :
    name ∈ labels items := by
  have stands (index : Nat) (value : Int64) :
      TermValue items index (some (.name name)) value → name ∈ labels items := by
    intro valued
    obtain ⟨symbol, stands, _⟩ := valued
    exact mem_labels_iff.mpr ⟨symbol, stands⟩
  cases uses with
  | instruction member used =>
      obtain ⟨above, below, split⟩ := List.append_of_mem member
      obtain ⟨instruction, _, _, a, b⟩ := programValue.instruction _ _ _ _ _ split
      rcases used with inA | inB
      · exact stands _ _ (inA ▸ a.field)
      · exact stands _ _ (inB ▸ b.field)
  | origin last used => exact stands _ _ (used ▸ entryValue.last _ last)

/-! ## Declared sources -/

/-- Assembling a declared source is reading its items and resolving them. -/
theorem assemble_declared_eq_ok_iff
    {limits : Limits}
    (playable : limits.Playable)
    (small : limits.coreSize.toNat < 0x8000000000000000)
    {name : List Char}
    (inside : '\n' ∉ name)
    (notBlank : Text.trim name ≠ [])
    {items : List Item}
    {lines : List (List Char)}
    (written : List.Forall₂ Item.Written items lines)
    (warrior : Warrior) :
    assemble limits (String.ofList (Text.unlines (declaration name ++ lines))) = .ok warrior ↔
      ∃ draft program entry,
        Draft.readFrom {} 4 lines = .ok draft ∧
        draft.program = .ok program ∧
        draft.entry = .ok entry ∧
        warrior =
          .single (String.ofList (Text.trim name)) (fold entry limits.coreSize) program := by
  have noComments : ∀ line ∈ lines, ';' ∉ line := by
    intro line member isInside
    exact absurd (lineChar_of_mem written member ';' isInside) (by decide)
  have trimmed : Text.trim (Text.withoutReturn name) = Text.trim name :=
    Text.trim_withoutReturn name
  have header : (Header.scan (declaration (Text.withoutReturn name) ++ lines)).approve limits =
      .ok (String.ofList (Text.trim name)) := by
    rw [scan_declaration _ (trimmed ▸ notBlank) noComments, approve_of_holds_one, trimmed]
  have folded (entry : Int64) :
      fold? entry limits.coreSize = some (fold entry limits.coreSize) :=
    fold?_of_small entry limits.coreSize playable.toNat_coreSize_pos (by omega)
  rw [assemble_eq_ok_iff, String.toList_ofList, lines_declared name notBlank inside written, header,
    read_declaration]
  constructor
  · intro stages
    obtain ⟨_, _, draft, program, entry, start, ⟨⟩, read, linked, entered, place, rfl⟩ := stages
    obtain rfl : fold entry limits.coreSize = start :=
      Option.some.inj ((folded entry).symm.trans place)
    exact ⟨draft, program, entry, read, linked, entered, rfl⟩
  · intro stages
    obtain ⟨draft, program, entry, read, linked, entered, rfl⟩ := stages
    exact ⟨playable, _, draft, program, entry, _, rfl, read, linked, entered, folded entry, rfl⟩

/-- A declared source is a warrior exactly if no label is defined twice and every name that is used
in an instruction or in the last origin is defined. The warrior then has the declared name, the
program that the items amount to, and a single thread at their entry, folded into the core. -/
theorem assemble_declared_iff_and_values
    {limits : Limits}
    (playable : limits.Playable)
    (small : limits.coreSize.toNat < 0x8000000000000000)
    {name : List Char}
    (inside : '\n' ∉ name)
    (notBlank : Text.trim name ≠ [])
    {items : List Item}
    {lines : List (List Char)}
    (written : List.Forall₂ Item.Written items lines) :
    let source := String.ofList (Text.unlines (declaration name ++ lines))
    ((∃ warrior, assemble limits source = .ok warrior) ↔
      (labels items).Nodup ∧ ∀ identifier, Uses items identifier → identifier ∈ labels items) ∧
    ∀ warrior, assemble limits source = .ok warrior →
      ∃ start program entry,
        warrior = .single (String.ofList (Text.trim name)) start program ∧
        ProgramValue items program ∧
        EntryValue items entry ∧
        (start.toNat : Int) = entry.toInt % limits.coreSize.toNat := by
  intro source
  have assembled := assemble_declared_eq_ok_iff playable small inside notBlank written
  have gathers (draft : Draft) (read : Draft.readFrom {} 4 lines = .ok draft) :
      (labels items).Nodup ∧ Gathered items draft := by
    have nodup : (labels items).Nodup := nodup_of_readFrom written gathered_nil List.nodup_nil read
    obtain ⟨last, readLast, gathered⟩ := readFrom_of_nodup written gathered_nil nodup 4
    obtain rfl : draft = last := Except.ok.inj (read.symm.trans readLast)
    exact ⟨nodup, gathered⟩
  refine ⟨⟨?_, ?_⟩, ?_⟩
  · intro success
    obtain ⟨warrior, isWarrior⟩ := success
    obtain ⟨draft, program, entry, read, linked, entered, _⟩ := (assembled warrior).mp isWarrior
    obtain ⟨nodup, gathered⟩ := gathers draft read
    exact ⟨nodup, fun _ uses => defined_of_values (programValue_of_program gathered linked)
      (entryValue_of_entry gathered entered) uses⟩
  · intro sound
    obtain ⟨nodup, defined⟩ := sound
    obtain ⟨draft, read, gathered⟩ := readFrom_of_nodup written gathered_nil nodup 4
    obtain ⟨program, linked⟩ := exists_program gathered defined
    obtain ⟨entry, entered⟩ := exists_entry gathered defined
    exact ⟨_, (assembled _).mpr ⟨draft, program, entry, read, linked, entered, rfl⟩⟩
  · intro warrior isWarrior
    obtain ⟨draft, program, entry, read, linked, entered, rfl⟩ := (assembled warrior).mp isWarrior
    obtain ⟨_, gathered⟩ := gathers draft read
    exact ⟨_, program, entry, rfl, programValue_of_program gathered linked,
      entryValue_of_entry gathered entered,
      toNat_fold entry limits.coreSize playable.toNat_coreSize_pos (by omega)⟩

/-- A source with a constant, and with an origin that names a later line. -/
theorem assemble_declared_iff_and_values_counter :
    let limits : Limits := ⟨8, 10, 4, 5⟩
    let step : Identifier := ⟨"step".toList, by decide⟩
    let loop : Identifier := ⟨"loop".toList, by decide⟩
    let origin : Item := .origin none (some ⟨.direct, .name loop⟩)
    let constant : Item := .constant step 4
    let addition : Item :=
      .instruction (some loop) .add (.two ⟨.immediate, .name step⟩ ⟨.direct, .literal (-1)⟩)
    let items := [origin, constant, addition]
    let lines := [" ORG loop".toList, "step: Equ\t4".toList, "loop: add #step , -1".toList]
    List.Forall₂ Item.Written items lines ∧
    ∃ start program entry,
      assemble limits (String.ofList (Text.unlines (declaration "counter".toList ++ lines))) =
        .ok (.single "counter" start program) ∧
      ProgramValue items program ∧
      EntryValue items entry ∧
      (start.toNat : Int) = entry.toInt % 8 := by
  intro limits step loop origin constant addition items lines
  have blank : Gap [' '] := by simp [Gap]
  have tab : Gap ['\t'] := by simp [Gap]
  have written : List.Forall₂ Item.Written items lines := by
    refine .cons ?_ (.cons ?_ (.cons ?_ .nil))
    · exact @Item.Written.line origin [' '] [] "ORG".toList _ [] blank .absent (by decide)
        (.one _ blank (by simp)) gap_nil
    · exact @Item.Written.line constant [] _ "Equ".toList _ [] gap_nil
        (.present step blank (by simp)) (by decide) (.one _ tab (by simp)) gap_nil
    · exact @Item.Written.line addition [] _ "add".toList _ [] gap_nil
        (.present loop blank (by simp)) (by decide) (.two _ _ blank (by simp) blank blank) gap_nil
  have defined : ∀ identifier, Uses items identifier → identifier ∈ labels items := by
    rintro identifier (⟨member, used⟩ | @⟨argument, ⟨above, label, below, split, _⟩, used⟩)
    · obtain ⟨rfl, rfl, rfl⟩ : _ ∧ _ ∧ _ := by
        simpa [items, origin, constant, addition] using member
      obtain rfl : step = identifier := by simpa [Arguments.a?, Arguments.b?] using used
      decide
    · have member : Item.origin label argument ∈ items := by simp [split]
      obtain ⟨rfl, rfl⟩ : _ ∧ _ := by simpa [items, origin, constant, addition] using member
      obtain rfl : loop = identifier := by simpa using used
      decide
  obtain ⟨success, values⟩ :=
    assemble_declared_iff_and_values (by decide : limits.Playable) (by decide) (by decide)
      (by decide : Text.trim "counter".toList ≠ []) written
  obtain ⟨warrior, assembled⟩ := success.mpr ⟨by decide, defined⟩
  obtain ⟨start, program, entry, rfl, programValue, entryValue, folded⟩ := values warrior assembled
  exact ⟨written, start, program, entry, assembled, programValue, entryValue, folded⟩

end CoreWar.Assembly
