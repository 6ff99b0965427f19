import CoreWar.Proofs.Json.Completeness

/-!
Contract: the text of a JSON value reads back as the value.

Owns:
- strings: each character and its escape, and the code points of a text;
- numbers: integers and decimals with their signs;
- that what is written for a value stands for it, and so reads back;
- the characters of a written text, none of which is a control character.

Does not own: the reading of texts, see `CoreWar.Proofs.Json.Completeness`, and which values stand
for a record, see `CoreWar.Proofs.Codec.RoundTrip`.
-/

namespace CoreWar

/-- Only zero is written with a zero in front. -/
theorem Text.decimal_ne_zero_cons (number : Nat) (next : Char) (rest : List Char) :
    decimal number ≠ '0' :: next :: rest := by
  induction number using Nat.strongRecOn generalizing next rest with
  | ind number inductionHypothesis =>
      unfold decimal at *
      rw [Nat.toDigits_eq_if (by decide)]
      split
      · simp
      · rename_i atLeastTen
        intro same
        have lower : number / 10 < number := by omega
        -- The digits in front of the last one begin with the same zero.
        cases front : Nat.toDigits 10 (number / 10) with
        | nil => exact Nat.toDigits_ne_nil front
        | cons digit others =>
            rw [front, List.cons_append, List.cons.injEq] at same
            cases others with
            | nil =>
                have value : Nat.ofDigitChars 10 ['0'] 0 = number / 10 := by
                  rw [← same.1, ← front]
                  exact Nat.ofDigitChars_ten_toDigits
                have zero : Nat.ofDigitChars 10 ['0'] 0 = 0 := by decide
                omega
            | cons second others =>
                rw [same.1] at front
                exact inductionHypothesis _ lower second others front

namespace Json

/-! ## Strings -/

/-- The code points of a text spell it, since no character is a surrogate. -/
theorem unicode?_map_toNat (text : List Char) : unicode? (text.map Char.toNat) = some text := by
  induction text with
  | nil => rfl
  | cons character rest inductionHypothesis =>
      rw [List.map_cons, unicode?_toNat_cons, inductionHypothesis]
      rfl

/-- What is written for a character has its code point. -/
theorem Quoted.escapeChar_append
    {text : List Char}
    {codes : List Nat}
    (rest : Quoted text codes)
    (character : Char) :
    Quoted (escapeChar character ++ text) (character.toNat :: codes) := by
  unfold escapeChar
  split
  · exact .escape (by decide) rest
  · exact .escape (by decide) rest
  · exact .escape (by decide) rest
  · exact .escape (by decide) rest
  · exact .escape (by decide) rest
  · exact .escape (by decide) rest
  · exact .escape (by decide) rest
  · rename_i notQuote notBackslash _ _ _ _ _
    split
    · rename_i control
      have written := Quoted.unit (.lower 0 (by decide)) (.lower 0 (by decide))
        (.lower (character.toNat / 16) (by omega)) (.lower (character.toNat % 16) (by omega)) rest
      have code : 0 * 0x1000 + 0 * 0x100 + character.toNat / 16 * 0x10 + character.toNat % 16 =
          character.toNat := by omega
      rwa [code] at written
    · rename_i notControl
      exact .plain notQuote notBackslash (Nat.not_lt.mp notControl) rest

theorem quoted_flatMap_escapeChar (text : List Char) :
    Quoted (text.flatMap escapeChar) (text.map Char.toNat) := by
  induction text with
  | nil => exact .nil
  | cons character rest inductionHypothesis =>
      exact inductionHypothesis.escapeChar_append character

/-- Whatever has the code points of a text stands for it. -/
theorem stringText_of_quoted
    {body : List Char}
    {content : String}
    (quoted : Quoted body (content.toList.map Char.toNat)) :
    StringText body (some content) := by
  refine ⟨_, quoted, ?_⟩
  intro characters
  rw [spells_iff quoted.bounded, unicode?_map_toNat, Option.some_inj, Option.some_inj]
  constructor
  · rintro rfl
    exact String.ofList_toList.symm
  · rintro rfl
    exact String.toList_ofList

theorem stringText_flatMap_escapeChar (content : String) :
    StringText (content.toList.flatMap escapeChar) (some content) :=
  stringText_of_quoted (quoted_flatMap_escapeChar content.toList)

/-- A written string has its content, also one that is no Unicode text. -/
theorem exists_renderText_eq (content : Content) :
    ∃ body, renderText content = '"' :: (body ++ ['"']) ∧ StringText body content := by
  cases content with
  | none =>
      have quoted : Quoted ['\\', 'u', 'd', '8', '0', '0'] [0xD800] :=
        .unit (.lower 13 (by decide)) (.lower 8 (by decide)) (.lower 0 (by decide))
          (.lower 0 (by decide)) .nil
      refine ⟨_, rfl, [0xD800], quoted, ?_⟩
      intro characters
      rw [spells_iff quoted.bounded]
      simp [unicode?, isHighSurrogate]
  | some content => exact ⟨_, rfl, stringText_flatMap_escapeChar content⟩

/-! ## Numbers -/

theorem digits_decimal (number : Nat) : Digits (Text.decimal number) where
  notEmpty := Nat.toDigits_ne_nil
  allDigits _ member := Text.isDigit_of_mem_decimal member

theorem ofDigitChars_decimal (number : Nat) :
    Nat.ofDigitChars 10 (Text.decimal number) 0 = number :=
  Nat.ofDigitChars_ten_toDigits

theorem eq_zero_of_head?_decimal
    {number : Nat}
    (zero : (Text.decimal number).head? = some '0') :
    Text.decimal number = ['0'] := by
  cases digits : Text.decimal number with
  | nil => exact absurd digits Nat.toDigits_ne_nil
  | cons digit others =>
      rw [digits] at zero
      cases Option.some.inj zero
      cases others with
      | nil => rfl
      | cons next others => exact absurd digits (Text.decimal_ne_zero_cons number _ _)

/-- The digits as they are read behind a point; without digits there is no point. -/
def writtenFraction : List (Fin 10) → Option (List Char)
  | [] => none
  | digits => some (digits.map fun digit => Nat.digitChar digit.val)

theorem fractionText_renderFraction (fraction : List (Fin 10)) :
    FractionText (renderFraction fraction) (writtenFraction fraction) := by
  cases fraction with
  | nil => exact .absent
  | cons digit others =>
      refine .present ⟨by simp, ?_⟩
      intro character member
      obtain ⟨value, _, rfl⟩ := List.mem_map.mp member
      rw [Nat.isDigit_digitChar]
      exact decide_eq_true value.isLt

/-- Digits that were written are the digits that are read. -/
theorem digitsOf_writtenFraction (fraction : List (Fin 10)) :
    digitsOf ((writtenFraction fraction).getD []) = fraction := by
  have value (digit : Fin 10) :
      Fin.ofNat 10 ((Nat.digitChar digit.val).toNat - '0'.toNat) = digit := by
    revert digit
    decide
  cases fraction with
  | nil => rfl
  | cons digit others =>
      simp only [writtenFraction, Option.getD_some, digitsOf, List.map_map]
      rw [List.map_congr_left (g := id), List.map_id]
      intro digit _
      exact value digit

theorem exponentText_render (exponent : Int) :
    ExponentText ('e' :: (renderSign (exponent < 0) ++ Text.decimal exponent.natAbs))
      (some exponent) := by
  have digits := digits_decimal exponent.natAbs
  by_cases negative : exponent < 0
  · have written := ExponentText.negative (Or.inl rfl) digits
    rw [ofDigitChars_decimal, Int.ofNat_natAbs_of_nonpos (by omega), Int.neg_neg] at written
    rw [decide_eq_true negative]
    exact written
  · have written := ExponentText.unsigned (Or.inl rfl) digits
    rw [ofDigitChars_decimal, Int.natAbs_of_nonneg (by omega)] at written
    rw [decide_eq_false negative]
    exact written

theorem numberText_renderSign_append
    {negative : Bool}
    {text : List Char}
    {literal : Number}
    (magnitude : MagnitudeText negative text literal) :
    NumberText (renderSign negative ++ text) literal := by
  cases negative with
  | true => exact .negative magnitude
  | false => exact .positive magnitude

/-- A written number stands for itself, whether or not it is an integer. -/
theorem numberText_renderNumber (literal : Number) : NumberText (renderNumber literal) literal := by
  cases literal with
  | integer negative magnitude =>
      have written : MagnitudeText negative _ _ :=
        .parts (digits_decimal magnitude) eq_zero_of_head?_decimal .absent .absent
      simp only [Number.ofParts, ofDigitChars_decimal, List.append_nil] at written
      exact numberText_renderSign_append written
  | decimal negative whole fraction exponent =>
      have written : MagnitudeText negative _ _ :=
        .parts (digits_decimal whole) eq_zero_of_head?_decimal
          (fractionText_renderFraction fraction) (exponentText_render exponent)
      have parts : Number.ofParts negative (Text.decimal whole) (writtenFraction fraction)
          (some exponent) = .decimal negative whole fraction exponent := by
        simp [Number.ofParts, ofDigitChars_decimal, digitsOf_writtenFraction]
      rw [parts] at written
      simp only [renderNumber, List.append_assoc, List.cons_append, List.nil_append]
      exact numberText_renderSign_append written

/-! ## Values -/

@[simp]
theorem render_text (content : Content) : render (.text content) = renderText content := rfl

@[simp]
theorem render_array (items : List Value) :
    render (.array items) = '[' :: (renderItems items ++ [']']) := rfl

@[simp]
theorem render_object (members : List (Content × Value)) :
    render (.object members) = '\x7b' :: (renderMembers members ++ ['\x7d']) := rfl

@[simp]
theorem renderItems_cons_cons (item next : Value) (others : List Value) :
    renderItems (item :: next :: others) = render item ++ ',' :: renderItems (next :: others) := by
  rw [renderItems]
  simp

@[simp]
theorem renderMembers_cons_cons
    (key : Content)
    (value : Value)
    (next : Content × Value)
    (others : List (Content × Value)) :
    renderMembers ((key, value) :: next :: others) =
      renderText key ++ ':' :: (render value ++ ',' :: renderMembers (next :: others)) := by
  rw [renderMembers]
  · simp
  · simp

theorem blanks_nil : Blanks [] := by
  simp [Blanks]

/-- Nothing is written around a value. -/
theorem elementText_of_valueText
    {text : List Char}
    {value : Value}
    (isValue : ValueText text value) :
    ElementText text value := by
  have element := ElementText.surrounded blanks_nil isValue blanks_nil
  rwa [List.nil_append, List.append_nil] at element

theorem memberText_render
    (key : Content)
    {text : List Char}
    {value : Value}
    (isValue : ValueText text value) :
    MemberText (renderText key ++ ':' :: text) (key, value) := by
  obtain ⟨body, written, isKey⟩ := exists_renderText_eq key
  have member := MemberText.colon blanks_nil isKey blanks_nil (elementText_of_valueText isValue)
  rw [written]
  simpa using member

theorem valueText_array
    {items : List Value}
    (written : items ≠ [] → ItemsText (renderItems items) items) :
    ValueText (render (.array items)) (.array items) := by
  cases items with
  | nil => exact .emptyArray blanks_nil
  | cons item others => exact .array (written (List.cons_ne_nil item others))

theorem valueText_object
    {members : List (Content × Value)}
    (written : members ≠ [] → MembersText (renderMembers members) members) :
    ValueText (render (.object members)) (.object members) := by
  cases members with
  | nil => exact .emptyObject blanks_nil
  | cons member others => exact .object (written (List.cons_ne_nil member others))

mutual

/-- What is written for a value stands for it. -/
theorem valueText_render : ∀ value : Value, ValueText (render value) value
  | .null => .isNull
  | .bool true => .isTrue
  | .bool false => .isFalse
  | .number literal => .number (numberText_renderNumber literal)
  | .text content => by
      obtain ⟨body, written, isString⟩ := exists_renderText_eq content
      rw [render_text, written]
      exact .text isString
  | .array items => valueText_array (itemsText_renderItems items)
  | .object members => valueText_object (membersText_renderMembers members)

theorem itemsText_renderItems :
    ∀ items : List Value, items ≠ [] → ItemsText (renderItems items) items
  | [], notEmpty => absurd rfl notEmpty
  | [item], _ => by
      rw [renderItems]
      exact .one (elementText_of_valueText (valueText_render item))
  | item :: next :: others, _ => by
      rw [renderItems_cons_cons]
      exact .more (elementText_of_valueText (valueText_render item))
        (itemsText_renderItems (next :: others) (List.cons_ne_nil next others))

theorem membersText_renderMembers :
    ∀ members : List (Content × Value), members ≠ [] →
      MembersText (renderMembers members) members
  | [], notEmpty => absurd rfl notEmpty
  | [(key, value)], _ => by
      rw [renderMembers]
      exact .one (memberText_render key (valueText_render value))
  | (key, value) :: next :: others, _ => by
      have member := memberText_render key (valueText_render value)
      have written := MembersText.more member
        (membersText_renderMembers (next :: others) (List.cons_ne_nil next others))
      rw [renderMembers_cons_cons]
      simpa using written

end

/-- The text of any value reads back as the value. -/
theorem parse?_render (value : Value) : parse? (render value) = some value :=
  parse?_of_elementText (elementText_of_valueText (valueText_render value))

/-- A reader that undoes a writer undoes it through the text. -/
theorem decode?_toText
    {α : Type}
    {reader : Value → Option α}
    {value : Value}
    {content : α}
    (read : reader value = some content) :
    decode? reader (toText value) = some content := by
  rw [decode?, toText, String.toList_ofList, parse?_render]
  exact read

/-! ## Printable text -/

/-- No character is a control character below the space. -/
def Printable (text : List Char) : Prop :=
  ∀ character ∈ text, 0x20 ≤ character.toNat

@[simp]
theorem printable_nil : Printable [] := by
  simp [Printable]

@[simp]
theorem printable_cons (character : Char) (rest : List Char) :
    Printable (character :: rest) ↔ 0x20 ≤ character.toNat ∧ Printable rest := by
  simp [Printable]

@[simp]
theorem printable_append (front back : List Char) :
    Printable (front ++ back) ↔ Printable front ∧ Printable back := by
  simp [Printable, or_imp, forall_and]

theorem printable_of_digits
    {digits : List Char}
    (allDigits : ∀ character ∈ digits, character.isDigit = true) :
    Printable digits := by
  intro character member
  have isDigit := allDigits character member
  simp only [Char.isDigit, Bool.and_eq_true, decide_eq_true_eq] at isDigit
  have atLeast : '0'.toNat ≤ character.toNat := isDigit.1
  have zero : '0'.toNat = 0x30 := rfl
  omega

theorem printable_decimal (number : Nat) : Printable (Text.decimal number) :=
  printable_of_digits fun _ member => Text.isDigit_of_mem_decimal member

theorem printable_digitChar : ∀ value < 16, 0x20 ≤ (Nat.digitChar value).toNat := by
  decide

/-- A control character is not written as itself. -/
theorem printable_escapeChar (character : Char) : Printable (escapeChar character) := by
  unfold escapeChar
  split
  case h_8 =>
    split
    · have high := printable_digitChar (character.toNat / 16) (by omega)
      have low := printable_digitChar (character.toNat % 16) (by omega)
      simp [controlEscape, high, low]
    · rename_i notControl
      simpa using notControl
  all_goals simp

theorem printable_renderText (content : Content) : Printable (renderText content) := by
  cases content with
  | none =>
      show Printable ['"', '\\', 'u', 'd', '8', '0', '0', '"']
      simp
  | some content =>
      have body : Printable (content.toList.flatMap escapeChar) := by
        intro character member
        obtain ⟨source, _, escaped⟩ := List.mem_flatMap.mp member
        exact printable_escapeChar source character escaped
      show Printable ('"' :: content.toList.flatMap escapeChar ++ ['"'])
      rw [printable_append, printable_cons]
      exact ⟨⟨by decide, body⟩, by simp⟩

theorem printable_renderSign (negative : Bool) : Printable (renderSign negative) := by
  cases negative with
  | true => simp [renderSign]
  | false => simp [renderSign]

theorem printable_renderFraction (fraction : List (Fin 10)) :
    Printable (renderFraction fraction) := by
  cases fraction with
  | nil => simp [renderFraction]
  | cons digit others =>
      show Printable ('.' :: (digit :: others).map fun digit => Nat.digitChar digit.val)
      rw [printable_cons]
      refine ⟨by decide, ?_⟩
      intro character member
      obtain ⟨value, _, rfl⟩ := List.mem_map.mp member
      exact printable_digitChar value.val (by omega)

theorem printable_renderNumber (literal : Number) : Printable (renderNumber literal) := by
  cases literal with
  | integer negative magnitude =>
      simp [renderNumber, printable_renderSign, printable_decimal]
  | decimal negative whole fraction exponent =>
      simp [renderNumber, printable_renderSign, printable_decimal, printable_renderFraction]

mutual

/-- A written value is a single line of printable characters. -/
theorem printable_render : ∀ value : Value, Printable (render value)
  | .null => by
      show Printable ['n', 'u', 'l', 'l']
      simp
  | .bool true => by
      show Printable ['t', 'r', 'u', 'e']
      simp
  | .bool false => by
      show Printable ['f', 'a', 'l', 's', 'e']
      simp
  | .number literal => printable_renderNumber literal
  | .text content => printable_renderText content
  | .array items => by simp [printable_renderItems items]
  | .object members => by simp [printable_renderMembers members]

theorem printable_renderItems : ∀ items : List Value, Printable (renderItems items)
  | [] => by simp [renderItems]
  | [item] => by
      rw [renderItems]
      exact printable_render item
  | item :: next :: others => by
      simp [printable_render item, printable_renderItems (next :: others)]

theorem printable_renderMembers :
    ∀ members : List (Content × Value), Printable (renderMembers members)
  | [] => by simp [renderMembers]
  | [(key, value)] => by simp [renderMembers, printable_renderText, printable_render value]
  | (key, value) :: next :: others => by
      simp [printable_renderText, printable_render value, printable_renderMembers (next :: others)]

end

end Json

end CoreWar
