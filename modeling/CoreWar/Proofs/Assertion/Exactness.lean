import CoreWar.Proofs.Assertion.Grammar
import CoreWar.Proofs.Assertion.Lexemes

/-!
Contract: assertions are exact about limits below 2^63, and about no others.

Owns:
- the exact value of an expression, as a relation over its lexemes: a limit stands for its live
  value, and the arithmetic is that of the integers;
- an expression has one exact value at most;
- where the limits are signed words, the truth of an assertion is that of its exact value;
- a limit that is no signed word makes some assertion untrue to its exact value.

Does not own: the values in words, see `CoreWar.Proofs.Assertion.Grammar`; the lexemes of a text,
see `CoreWar.Proofs.Assertion.Lexemes`.

The lexemes of an expression and the derivation that spells their tokens have the same layers, so
one lemma about parts that are joined by operators carries from the one to the other. A derivation
is fixed by its tokens, and this makes the exact value unique.
-/

namespace CoreWar.Assertion

/-! ## Exact values -/

/-- The outcome of an operator over the integers. A remainder has the sign of the dividend, and
there is none by zero; a comparison is one or zero. -/
def Lexeme.combine? : Lexeme → Int → Int → Option Int
  | plus, left, right => some (left + right)
  | minus, left, right => some (left - right)
  | times, left, right => some (left * right)
  | percent, left, right => if right = 0 then none else some (left.tmod right)
  | equals, left, right => some (if left = right then 1 else 0)
  | limit _, _, _ => none
  | numeral _, _, _ => none

/-- The exact value of a word behind any number of signs. -/
inductive FactorMeans (limits : Limits) : List Lexeme → Int → Prop where
  | limit (name : LimitName) : FactorMeans limits [.limit name] (name.limit limits).toNat
  | numeral (written : Numeral) : FactorMeans limits [.numeral written] written.value
  | plus
      {lexemes : List Lexeme}
      {value : Int}
      (inner : FactorMeans limits lexemes value) :
      FactorMeans limits (.plus :: lexemes) value
  | minus
      {lexemes : List Lexeme}
      {value : Int}
      (inner : FactorMeans limits lexemes value) :
      FactorMeans limits (.minus :: lexemes) (-value)

/-- Operators, each with a part behind it, applied to a value one after the other. -/
inductive Continued (operators : List Lexeme) (Part : List Lexeme → Int → Prop) :
    Int → List Lexeme → Int → Prop where
  | done {value : Int} : Continued operators Part value [] value
  | link
      {left right next last : Int}
      {operator : Lexeme}
      {part rest : List Lexeme}
      (among : operator ∈ operators)
      (isPart : Part part right)
      (combined : operator.combine? left right = some next)
      (others : Continued operators Part next rest last) :
      Continued operators Part left (operator :: (part ++ rest)) last

/-- Parts that are joined by operators, from left to right. -/
def Joined
    (operators : List Lexeme)
    (Part : List Lexeme → Int → Prop)
    (lexemes : List Lexeme)
    (value : Int) :
    Prop :=
  ∃ first rest start, lexemes = first ++ rest ∧ Part first start ∧
    Continued operators Part start rest value

def ProductMeans (limits : Limits) : List Lexeme → Int → Prop :=
  Joined [.times, .percent] (FactorMeans limits)

def SumMeans (limits : Limits) : List Lexeme → Int → Prop :=
  Joined [.plus, .minus] (ProductMeans limits)

def EqualityMeans (limits : Limits) : List Lexeme → Int → Prop :=
  Joined [.equals] (SumMeans limits)

/-- The text is an expression with this exact value. -/
def Means (limits : Limits) (text : List Char) (value : Int) : Prop :=
  ∃ lexemes, Written lexemes text ∧ EqualityMeans limits lexemes value

/-- Every limit is a signed word. -/
def SignedLimits (limits : Limits) : Prop :=
  ∀ name : LimitName, (name.limit limits).toNat < 0x8000000000000000

/-! ## The exact value of a derivation -/

def Sign.exact : Sign → Int → Int
  | plus, value => value
  | minus, value => -value

/-- A number is read as the unsigned word with its bits: that is the live value of the limit, or the
value of the numeral, whose token it is. -/
def Factor.exactValue? (factor : Factor) : Option Int :=
  some (factor.signs.foldr Sign.exact factor.number.toUInt64.toNat)

def ProductOperator.lexeme : ProductOperator → Lexeme
  | times => .times
  | percent => .percent

def SumOperator.lexeme : SumOperator → Lexeme
  | plus => .plus
  | minus => .minus

/-- Links applied to a value one after the other, each an operator and the value behind it. -/
def exactLinks?
    {Link : Type}
    (operator : Link → Lexeme)
    (part? : Link → Option Int)
    (links : List Link)
    (start : Int) :
    Option Int :=
  links.foldlM (fun left link => (part? link).bind ((operator link).combine? left)) start

def Product.exactValue? (product : Product) : Option Int :=
  product.first.exactValue?.bind
    (exactLinks? (fun link => link.1.lexeme) (fun link => link.2.exactValue?) product.rest)

def Sum.exactValue? (sum : Sum) : Option Int :=
  sum.first.exactValue?.bind
    (exactLinks? (fun link => link.1.lexeme) (fun link => link.2.exactValue?) sum.rest)

def Equality.exactValue? (equality : Equality) : Option Int :=
  equality.first.exactValue?.bind
    (exactLinks? (fun _ => .equals) Sum.exactValue? equality.rest)

/-! ## Lexemes and derivations -/

/-- The parts of a layer are spelled by its derivations, with the same exact values. -/
def Spelled
    {Derivation : Type}
    (limits : Limits)
    (Part : List Lexeme → Int → Prop)
    (tokens : Derivation → List Token)
    (exactValue? : Derivation → Option Int) :
    Prop :=
  ∀ lexemes value, Part lexemes value ↔
    ∃ derivation, tokens derivation = lexemes.map (Lexeme.token limits) ∧
      exactValue? derivation = some value

/-- The token of an operator is that of no other lexeme. -/
theorem eq_of_token_eq
    {limits : Limits}
    {lexeme operator : Lexeme}
    (symbol : operator.isWord = false)
    (same : lexeme.token limits = operator.token limits) :
    lexeme = operator := by
  cases operator <;> cases lexeme <;> simp_all [Lexeme.token, Lexeme.isWord]

section Layer

variable {limits : Limits} {operators : List Lexeme} {Part : List Lexeme → Int → Prop}
  {Derivation Link : Type} {tokens : Derivation → List Token}
  {exactValue? : Derivation → Option Int} {operator : Link → Lexeme} {part : Link → Derivation}
  {linkTokens : Link → List Token}

/-- Operators with their parts are links with their derivations. -/
theorem continued_iff
    (spelled : Spelled limits Part tokens exactValue?)
    (symbols : ∀ link, operator link ∈ operators ∧ (operator link).isWord = false)
    (reached : ∀ symbol ∈ operators, ∀ derivation, ∃ link,
      operator link = symbol ∧ part link = derivation)
    (linked : ∀ link, linkTokens link = (operator link).token limits :: tokens (part link))
    (lexemes : List Lexeme)
    (start value : Int) :
    Continued operators Part start lexemes value ↔
      ∃ links, links.flatMap linkTokens = lexemes.map (Lexeme.token limits) ∧
        exactLinks? operator (fun link => exactValue? (part link)) links start = some value := by
  constructor
  · intro continued
    induction continued with
    | done => exact ⟨[], rfl, rfl⟩
    | @link left right next last symbol front rest among isPart combined others
        inductionHypothesis =>
        obtain ⟨derivation, spelledFront, exactFront⟩ := (spelled front right).mp isPart
        obtain ⟨link, rfl, rfl⟩ := reached symbol among derivation
        obtain ⟨links, spelledRest, exactRest⟩ := inductionHypothesis
        refine ⟨link :: links, ?_, ?_⟩
        · rw [List.flatMap_cons, linked, spelledFront, spelledRest]
          simp
        · rw [exactLinks?, List.foldlM_cons, exactFront, Option.bind_some, combined]
          exact exactRest
  · rintro ⟨links, spelledLinks, exactly⟩
    induction links generalizing lexemes start with
    | nil =>
        rw [List.flatMap_nil, eq_comm, List.map_eq_nil_iff] at spelledLinks
        rw [exactLinks?, List.foldlM_nil, Option.pure_def, Option.some.injEq] at exactly
        rw [spelledLinks, exactly]
        exact .done
    | cons link links inductionHypothesis =>
        rw [List.flatMap_cons, linked, List.cons_append, eq_comm, List.map_eq_cons_iff]
          at spelledLinks
        obtain ⟨symbol, others, rfl, sameToken, spelledOthers⟩ := spelledLinks
        obtain ⟨front, rest, rfl, spelledFront, spelledRest⟩ :=
          List.map_eq_append_iff.mp spelledOthers
        rw [exactLinks?, List.foldlM_cons, Option.bind_eq_bind, Option.bind_eq_some_iff] at exactly
        obtain ⟨next, combined, exactRest⟩ := exactly
        obtain ⟨right, exactFront, combined⟩ := Option.bind_eq_some_iff.mp combined
        rw [eq_of_token_eq (symbols link).2 sameToken]
        apply Continued.link (symbols link).1 _ combined
        · exact inductionHypothesis rest next spelledRest.symm exactRest
        · exact (spelled front right).mpr ⟨part link, spelledFront.symm, exactFront⟩

theorem joined_iff
    (spelled : Spelled limits Part tokens exactValue?)
    (symbols : ∀ link, operator link ∈ operators ∧ (operator link).isWord = false)
    (reached : ∀ symbol ∈ operators, ∀ derivation, ∃ link,
      operator link = symbol ∧ part link = derivation)
    (linked : ∀ link, linkTokens link = (operator link).token limits :: tokens (part link))
    (lexemes : List Lexeme)
    (value : Int) :
    Joined operators Part lexemes value ↔
      ∃ first links,
        tokens first ++ links.flatMap linkTokens = lexemes.map (Lexeme.token limits) ∧
        (exactValue? first).bind
          (exactLinks? operator (fun link => exactValue? (part link)) links) = some value := by
  have continued := continued_iff spelled symbols reached linked
  constructor
  · rintro ⟨front, rest, start, rfl, isPart, isContinued⟩
    obtain ⟨first, spelledFront, exactFront⟩ := (spelled front start).mp isPart
    obtain ⟨links, spelledRest, exactRest⟩ := (continued rest start value).mp isContinued
    refine ⟨first, links, ?_, ?_⟩
    · rw [spelledFront, spelledRest, List.map_append]
    · rw [exactFront, Option.bind_some, exactRest]
  · rintro ⟨first, links, spelledAll, exactly⟩
    obtain ⟨front, rest, rfl, spelledFront, spelledRest⟩ :=
      List.map_eq_append_iff.mp spelledAll.symm
    obtain ⟨start, exactFront, exactRest⟩ := Option.bind_eq_some_iff.mp exactly
    refine ⟨front, rest, start, rfl, ?_, ?_⟩
    · exact (spelled front start).mpr ⟨first, spelledFront.symm, exactFront⟩
    · exact (continued rest start value).mpr ⟨links, spelledRest.symm, exactRest⟩

end Layer

theorem Numeral.value_lt (written : Numeral) : written.value < 0x8000000000000000 :=
  written.small

theorem toNat_toUInt64_value (written : Numeral) :
    (Int64.ofNat written.value).toUInt64.toNat = written.value := by
  have small := written.value_lt
  have bits : (Int64.ofNat written.value).toUInt64.toNat = written.value % 2 ^ 64 := by simp
  rw [bits, Nat.mod_eq_of_lt (by omega)]

/-- A word is read as what it stands for. -/
theorem factorMeans_word
    {limits : Limits}
    {lexeme : Lexeme}
    {number : Int64}
    (same : lexeme.token limits = .number number) :
    FactorMeans limits [lexeme] number.toUInt64.toNat := by
  cases lexeme with
  | limit name =>
      rw [← Token.number.inj same, UInt64.toUInt64_toInt64]
      exact .limit name
  | numeral written =>
      rw [← Token.number.inj same, toNat_toUInt64_value]
      exact .numeral written
  | _ => contradiction

theorem spelled_factor (limits : Limits) :
    Spelled limits (FactorMeans limits) Factor.tokens Factor.exactValue? := by
  intro lexemes value
  constructor
  · intro means
    induction means with
    | limit name =>
        refine ⟨⟨[], (name.limit limits).toInt64⟩, rfl, ?_⟩
        rw [Factor.exactValue?, List.foldr_nil, UInt64.toUInt64_toInt64]
    | numeral written =>
        refine ⟨⟨[], Int64.ofNat written.value⟩, rfl, ?_⟩
        rw [Factor.exactValue?, List.foldr_nil, toNat_toUInt64_value]
    | plus inner inductionHypothesis =>
        obtain ⟨factor, spelled, exactly⟩ := inductionHypothesis
        refine ⟨⟨.plus :: factor.signs, factor.number⟩, ?_, exactly⟩
        exact congrArg (List.cons Token.plus) spelled
    | minus inner inductionHypothesis =>
        obtain ⟨factor, spelled, exactly⟩ := inductionHypothesis
        refine ⟨⟨.minus :: factor.signs, factor.number⟩, ?_, ?_⟩
        · exact congrArg (List.cons Token.minus) spelled
        · exact congrArg (Option.map Neg.neg) exactly
  · rintro ⟨⟨signs, number⟩, spelled, exactly⟩
    rw [← Option.some.inj exactly]
    clear exactly
    induction signs generalizing lexemes with
    | nil =>
        obtain ⟨lexeme, rfl, same⟩ := List.map_eq_singleton_iff.mp spelled.symm
        exact factorMeans_word same
    | cons sign signs inductionHypothesis =>
        obtain ⟨lexeme, rest, rfl, same, spelledRest⟩ := List.map_eq_cons_iff.mp spelled.symm
        have inner := inductionHypothesis rest spelledRest.symm
        cases sign with
        | plus =>
            rw [eq_of_token_eq (rfl : Lexeme.plus.isWord = false) same]
            exact .plus inner
        | minus =>
            rw [eq_of_token_eq (rfl : Lexeme.minus.isWord = false) same]
            exact .minus inner

theorem ProductOperator.isSymbol (operator : ProductOperator) :
    operator.lexeme ∈ [Lexeme.times, .percent] ∧ operator.lexeme.isWord = false := by
  cases operator <;> decide

theorem spelled_product (limits : Limits) :
    Spelled limits (ProductMeans limits) Product.tokens Product.exactValue? := by
  have symbols (link : ProductOperator × Factor) := link.1.isSymbol
  have reached (symbol : Lexeme) (among : symbol ∈ [Lexeme.times, .percent]) (factor : Factor) :
      ∃ link : ProductOperator × Factor, link.1.lexeme = symbol ∧ link.2 = factor := by
    rw [List.mem_pair] at among
    rcases among with rfl | rfl
    · exact ⟨(.times, factor), rfl, rfl⟩
    · exact ⟨(.percent, factor), rfl, rfl⟩
  have linked (link : ProductOperator × Factor) :
      link.1.token :: link.2.tokens = link.1.lexeme.token limits :: link.2.tokens := by
    obtain ⟨operator, _⟩ := link
    cases operator <;> rfl
  intro lexemes value
  apply (joined_iff (spelled_factor limits) symbols reached linked lexemes value).trans
  exact ⟨fun ⟨first, rest, spelled⟩ => ⟨⟨first, rest⟩, spelled⟩,
    fun ⟨product, spelled⟩ => ⟨product.first, product.rest, spelled⟩⟩

theorem SumOperator.isSymbol (operator : SumOperator) :
    operator.lexeme ∈ [Lexeme.plus, .minus] ∧ operator.lexeme.isWord = false := by
  cases operator <;> decide

theorem spelled_sum (limits : Limits) :
    Spelled limits (SumMeans limits) Sum.tokens Sum.exactValue? := by
  have symbols (link : SumOperator × Product) := link.1.isSymbol
  have reached (symbol : Lexeme) (among : symbol ∈ [Lexeme.plus, .minus]) (product : Product) :
      ∃ link : SumOperator × Product, link.1.lexeme = symbol ∧ link.2 = product := by
    rw [List.mem_pair] at among
    rcases among with rfl | rfl
    · exact ⟨(.plus, product), rfl, rfl⟩
    · exact ⟨(.minus, product), rfl, rfl⟩
  have linked (link : SumOperator × Product) :
      link.1.token :: link.2.tokens = link.1.lexeme.token limits :: link.2.tokens := by
    obtain ⟨operator, _⟩ := link
    cases operator <;> rfl
  intro lexemes value
  apply (joined_iff (spelled_product limits) symbols reached linked lexemes value).trans
  exact ⟨fun ⟨first, rest, spelled⟩ => ⟨⟨first, rest⟩, spelled⟩,
    fun ⟨sum, spelled⟩ => ⟨sum.first, sum.rest, spelled⟩⟩

theorem spelled_equality (limits : Limits) :
    Spelled limits (EqualityMeans limits) Equality.tokens Equality.exactValue? := by
  have symbols (_ : Sum) : Lexeme.equals ∈ [Lexeme.equals] ∧ Lexeme.equals.isWord = false := by
    decide
  have reached (symbol : Lexeme) (among : symbol ∈ [Lexeme.equals]) (sum : Sum) :
      ∃ link : Sum, Lexeme.equals = symbol ∧ link = sum :=
    ⟨sum, (List.mem_singleton.mp among).symm, rfl⟩
  have linked (sum : Sum) :
      Token.equals :: sum.tokens = Lexeme.equals.token limits :: sum.tokens := rfl
  intro lexemes value
  apply (joined_iff (spelled_sum limits) symbols reached linked lexemes value).trans
  exact ⟨fun ⟨first, rest, spelled⟩ => ⟨⟨first, rest⟩, spelled⟩,
    fun ⟨equality, spelled⟩ => ⟨equality.first, equality.rest, spelled⟩⟩

/-- A text has one exact value at most: its tokens fix the derivation. -/
theorem means_unique
    {limits : Limits}
    {text : List Char}
    {value other : Int}
    (means : Means limits text value)
    (meansOther : Means limits text other) :
    value = other := by
  obtain ⟨lexemes, written, exactly⟩ := means
  obtain ⟨lexemesOther, writtenOther, exactlyOther⟩ := meansOther
  obtain ⟨equality, spelled, valued⟩ := (spelled_equality limits lexemes value).mp exactly
  obtain ⟨equalityOther, spelledOther, valuedOther⟩ :=
    (spelled_equality limits lexemesOther other).mp exactlyOther
  have sameTokens : lexemes.map (Lexeme.token limits) = lexemesOther.map (Lexeme.token limits) := by
    apply Except.ok.inj
    rw [← scan_of_written limits written, ← scan_of_written limits writtenOther]
  have same : equality = equalityOther := by
    apply Equality.tokens_injective
    rw [spelled, spelledOther, sameTokens]
  rw [same, valuedOther] at valued
  exact (Option.some.inj valued).symm

/-! ## Values in words -/

/-- The value of a signed word and that of the unsigned word with the same bits. -/
theorem toInt_eq_unsigned (word : Int64) :
    word.toInt =
      if word.toUInt64.toNat < 0x8000000000000000 then (word.toUInt64.toNat : Int)
      else word.toUInt64.toNat - 0x10000000000000000 := by
  have bits : word.toInt =
      if 2 * word.toUInt64.toNat < 2 ^ 64 then (word.toUInt64.toNat : Int)
      else word.toUInt64.toNat - (2 ^ 64 : Nat) :=
    BitVec.toInt_eq_toNat_cond word.toBitVec
  rw [bits]
  split <;> split <;> omega

/-- No number changes its value when its bits are read without a sign. -/
def Unsigned (tokens : List Token) : Prop :=
  ∀ number, Token.number number ∈ tokens → number.toUInt64.toNat < 0x8000000000000000

theorem Unsigned.mono
    {tokens others : List Token}
    (unsigned : Unsigned tokens)
    (inside : others ⊆ tokens) :
    Unsigned others :=
  fun number member => unsigned number (inside member)

/-- Where no number changes its value in this way, the value in words is the exact one. -/
def Agrees
    {Derivation : Type}
    (tokens : Derivation → List Token)
    (Value : Derivation → Int → Prop)
    (exactValue? : Derivation → Option Int) :
    Prop :=
  ∀ derivation value, Value derivation value → Unsigned (tokens derivation) →
    exactValue? derivation = some value

theorem foldr_exact_of_signedValue
    {number value : Int}
    {signs : List Sign}
    (signed : SignedValue number signs value) :
    signs.foldr Sign.exact number = value := by
  induction signed with
  | bare => rfl
  | plus inner inductionHypothesis => exact inductionHypothesis
  | minus inner fits inductionHypothesis => exact congrArg Neg.neg inductionHypothesis

theorem agrees_factor : Agrees Factor.tokens Factor.Value Factor.exactValue? := by
  intro factor value valued unsigned
  have small := unsigned factor.number (by simp [Factor.tokens])
  have read : factor.number.toInt = factor.number.toUInt64.toNat := by
    rw [toInt_eq_unsigned, if_pos small]
  rw [Factor.exactValue?, ← read, foldr_exact_of_signedValue valued]

section Layer

variable {Derivation Link : Type} {tokens : Derivation → List Token}
  {Value : Derivation → Int → Prop} {exactValue? : Derivation → Option Int}
  {operator : Link → Lexeme} {part : Link → Derivation} {linkTokens : Link → List Token}
  {Step : Int → Link → Int → Prop}

theorem exactLinks?_of_chain
    (agrees : Agrees tokens Value exactValue?)
    (inside : ∀ link, tokens (part link) ⊆ linkTokens link)
    (steps : ∀ {left link result}, Step left link result → ∃ right, Value (part link) right ∧
      (operator link).combine? left right = some result)
    {start value : Int}
    {links : List Link}
    (chain : Chain Step start links value)
    (unsigned : Unsigned (links.flatMap linkTokens)) :
    exactLinks? operator (fun link => exactValue? (part link)) links start = some value := by
  induction chain with
  | done => rfl
  | @step value next last link rest first others inductionHypothesis =>
      rw [List.flatMap_cons] at unsigned
      have unsignedLink := unsigned.mono (List.subset_append_left _ _)
      have unsignedRest := unsigned.mono (List.subset_append_right _ _)
      obtain ⟨right, valued, combined⟩ := steps first
      have exactly := agrees (part link) right valued (unsignedLink.mono (inside link))
      rw [exactLinks?, List.foldlM_cons, exactly, Option.bind_some, combined]
      exact inductionHypothesis unsignedRest

/-- Agreement goes up from one layer of the grammar to the next. -/
theorem exactValue?_of_chain
    (agrees : Agrees tokens Value exactValue?)
    (inside : ∀ link, tokens (part link) ⊆ linkTokens link)
    (steps : ∀ {left link result}, Step left link result → ∃ right, Value (part link) right ∧
      (operator link).combine? left right = some result)
    {first : Derivation}
    {start value : Int}
    {links : List Link}
    (valued : Value first start)
    (chain : Chain Step start links value)
    (unsigned : Unsigned (tokens first ++ links.flatMap linkTokens)) :
    (exactValue? first).bind
      (exactLinks? operator (fun link => exactValue? (part link)) links) = some value := by
  rw [agrees first start valued (unsigned.mono (List.subset_append_left _ _)), Option.bind_some]
  exact exactLinks?_of_chain agrees inside steps chain
    (unsigned.mono (List.subset_append_right _ _))

end Layer

theorem ProductOperator.combine?_of_result
    {operator : ProductOperator}
    {left right value : Int}
    (result : operator.Result left right value) :
    operator.lexeme.combine? left right = some value := by
  cases result with
  | times => rfl
  | percent divisible => exact if_neg divisible

theorem agrees_product : Agrees Product.tokens Product.Value Product.exactValue? := by
  rintro product value ⟨start, first, chain⟩ unsigned
  apply exactValue?_of_chain agrees_factor _ _ first chain unsigned
  · exact fun link => List.subset_cons_self link.1.token link.2.tokens
  · rintro left link result ⟨right, valued, combined⟩
    exact ⟨right, valued, ProductOperator.combine?_of_result combined⟩

theorem SumOperator.combine?_of_result
    {operator : SumOperator}
    {left right value : Int}
    (result : operator.Result left right value) :
    operator.lexeme.combine? left right = some value := by
  cases result with
  | plus => rfl
  | minus => rfl

theorem agrees_sum : Agrees Sum.tokens Sum.Value Sum.exactValue? := by
  rintro sum value ⟨start, first, chain⟩ unsigned
  apply exactValue?_of_chain agrees_product _ _ first chain unsigned
  · exact fun link => List.subset_cons_self link.1.token link.2.tokens
  · rintro left link result ⟨right, valued, combined⟩
    exact ⟨right, valued, SumOperator.combine?_of_result combined⟩

theorem agrees_equality : Agrees Equality.tokens Equality.Value Equality.exactValue? := by
  rintro equality value ⟨start, first, chain⟩ unsigned
  apply exactValue?_of_chain agrees_sum _ _ first chain unsigned
  · exact fun sum => List.subset_cons_self Token.equals sum.tokens
  · rintro left sum result ⟨right, valued, rfl⟩
    exact ⟨right, valued, rfl⟩

theorem unsigned_tokens
    {limits : Limits}
    {lexemes : List Lexeme}
    (signed : ∀ name, Lexeme.limit name ∈ lexemes →
      (name.limit limits).toNat < 0x8000000000000000) :
    Unsigned (lexemes.map (Lexeme.token limits)) := by
  intro number member
  obtain ⟨lexeme, inside, same⟩ := List.mem_map.mp member
  cases lexeme with
  | limit name =>
      rw [← Token.number.inj same, UInt64.toUInt64_toInt64]
      exact signed name inside
  | numeral written =>
      rw [← Token.number.inj same, toNat_toUInt64_value]
      exact written.small
  | _ => contradiction

/-! ## Truth -/

/-- The truth of a written assertion is that of its value in words. -/
theorem holds_eq_ok_iff
    {limits : Limits}
    {text : String}
    {lexemes : List Lexeme}
    (written : Written lexemes text.toList)
    {truth : Bool} :
    holds limits text = .ok truth ↔
      ∃ (equality : Equality) (value : Int),
        equality.tokens = lexemes.map (Lexeme.token limits) ∧ equality.Value value ∧
        (truth = true ↔ value ≠ 0) := by
  have nonzero (word : Int64) : (word != 0) = true ↔ word.toInt ≠ 0 := by
    rw [bne_iff_ne, ne_eq, ← Int64.toInt_inj, Int64.toInt_zero]
  have unfolded : holds limits text =
      tokensValue (lexemes.map (Lexeme.token limits)) >>= fun word => pure (word != 0) := by
    unfold holds
    rw [scan_of_written limits written]
    rfl
  rw [unfolded, bind_eq_ok_iff]
  constructor
  · rintro ⟨word, accepted, answered⟩
    obtain ⟨equality, spelled, valued⟩ := tokensValue_eq_ok_iff.mp accepted
    refine ⟨equality, word.toInt, spelled, valued, ?_⟩
    rw [← Except.ok.inj answered]
    exact nonzero word
  · rintro ⟨equality, value, spelled, valued, answered⟩
    obtain ⟨word, _, rfl⟩ := (Computes.equality equality).exists_word valued
    refine ⟨word, tokensValue_eq_ok_iff.mpr ⟨equality, spelled, valued⟩, ?_⟩
    rw [← nonzero, ← Bool.eq_iff_iff] at answered
    exact congrArg Except.ok answered.symm

/-- Only what is written has a truth value. -/
theorem exists_written_of_holds
    {limits : Limits}
    {text : String}
    {truth : Bool}
    (accepted : holds limits text = .ok truth) :
    ∃ lexemes, Written lexemes text.toList := by
  apply (written_or_fails text.toList).resolve_right
  rintro ⟨failure, fails⟩
  unfold holds at accepted
  rw [scan_of_fails limits fails] at accepted
  contradiction

/-- An assertion is exact about the limits that it names, if they are signed words. -/
theorem means_of_holds
    {limits : Limits}
    {text : String}
    {truth : Bool}
    (accepted : holds limits text = .ok truth)
    {lexemes : List Lexeme}
    (written : Written lexemes text.toList)
    (signed : ∀ name, Lexeme.limit name ∈ lexemes →
      (name.limit limits).toNat < 0x8000000000000000) :
    ∃ value, Means limits text.toList value ∧ (truth = true ↔ value ≠ 0) := by
  obtain ⟨equality, value, spelled, valued, answered⟩ := (holds_eq_ok_iff written).mp accepted
  have unsigned : Unsigned equality.tokens := by
    rw [spelled]
    exact unsigned_tokens signed
  have exactly := (spelled_equality limits lexemes value).mpr
    ⟨equality, spelled, agrees_equality equality value valued unsigned⟩
  exact ⟨value, ⟨lexemes, written, exactly⟩, answered⟩

/-- A number below 2^63 in its shortest form. -/
def Numeral.ofNat (value : Nat) (small : value < 0x8000000000000000) : Numeral where
  digits := Text.decimal value
  notEmpty := Nat.toDigits_ne_nil
  areDigits _ := Text.isDigit_of_mem_decimal
  small := by
    rw [Text.decimal, Nat.ofDigitChars_toDigits (by decide) (by decide)]
    exact small

@[simp] theorem Numeral.value_ofNat (value : Nat) (small : value < 0x8000000000000000) :
    (Numeral.ofNat value small).value = value :=
  Nat.ofDigitChars_toDigits (by decide) (by decide)

/-- The lexemes of the sum of a limit and two numbers. -/
def limitPlus (name : LimitName) (first second : Numeral) : List Lexeme :=
  [.limit name, .plus, .numeral first, .plus, .numeral second]

/-- A number alone, as a product. -/
def Product.ofNumber (number : Int64) : Product :=
  ⟨⟨[], number⟩, []⟩

/-- The derivation of such a sum. -/
def limitPlusEquality
    (limits : Limits)
    (name : LimitName)
    (first second : Numeral) :
    Equality where
  first := {
    first := .ofNumber (name.limit limits).toInt64
    rest := [
      (.plus, .ofNumber (Int64.ofNat first.value)),
      (.plus, .ofNumber (Int64.ofNat second.value))] }
  rest := []

theorem exists_written_limitPlus (name : LimitName) (first second : Numeral) :
    ∃ text, Written (limitPlus name first second) text := by
  have plus : Lexeme.plus.isWord = false := rfl
  have outside : isWordChar '+' = false := by decide
  have last := written_symbol plus (written_lexeme (.numeral second))
  have middle := written_symbol plus (written_word (.numeral first) last outside)
  exact ⟨_, written_word (.limit name) middle outside⟩

theorem means_limitPlus
    (limits : Limits)
    {name : LimitName}
    {first second : Numeral}
    {text : List Char}
    (written : Written (limitPlus name first second) text) :
    Means limits text ((name.limit limits).toNat + first.value + second.value) := by
  refine ⟨_, written, (spelled_equality limits _ _).mpr ?_⟩
  refine ⟨limitPlusEquality limits name first second, rfl, ?_⟩
  have exactly : (limitPlusEquality limits name first second).exactValue? =
      some (((name.limit limits).toInt64.toUInt64.toNat : Int) +
        (Int64.ofNat first.value).toUInt64.toNat + (Int64.ofNat second.value).toUInt64.toNat) := rfl
  rw [exactly, UInt64.toUInt64_toInt64, toNat_toUInt64_value, toNat_toUInt64_value]

theorem toInt_ofNat_value (written : Numeral) :
    (Int64.ofNat written.value).toInt = written.value := by
  rw [toInt_eq_unsigned, toNat_toUInt64_value, if_pos written.value_lt]

theorem value_limitPlus
    (limits : Limits)
    {name : LimitName}
    {first second : Numeral}
    (fitsFirst : Fits ((name.limit limits).toInt64.toInt + first.value))
    (fitsSecond : Fits ((name.limit limits).toInt64.toInt + first.value + second.value)) :
    (limitPlusEquality limits name first second).Value
      ((name.limit limits).toInt64.toInt + first.value + second.value) := by
  have lone (number : Int64) : (Product.ofNumber number).Value number.toInt :=
    ⟨number.toInt, .bare, .done⟩
  have stepFirst := lone (Int64.ofNat first.value)
  have stepSecond := lone (Int64.ofNat second.value)
  rw [toInt_ofNat_value] at stepFirst stepSecond
  exact ⟨_, ⟨_, lone _, .step ⟨_, stepFirst, .plus fitsFirst⟩
    (.step ⟨_, stepSecond, .plus fitsSecond⟩ .done)⟩, .done⟩

/-- A limit of 2^63 or more has the negative word with its bits. Its distance to 2^64 makes that
word zero, and the limit 2^64. -/
theorem exists_holds_false_of_large
    {limits : Limits}
    {name : LimitName}
    (large : 0x8000000000000000 ≤ (name.limit limits).toNat) :
    ∃ text : String, holds limits text = .ok false ∧
      Means limits text.toList 0x10000000000000000 := by
  have bounded : (name.limit limits).toNat < 0x10000000000000000 := (name.limit limits).toNat_lt
  have reads : (name.limit limits).toInt64.toInt =
      (name.limit limits).toNat - 0x10000000000000000 := by
    rw [toInt_eq_unsigned, UInt64.toUInt64_toInt64, if_neg (Nat.not_lt.mpr large)]
  -- The distance itself may be 2^63, which is no numeral, so it is written as a sum.
  let missing := Numeral.ofNat (0xFFFFFFFFFFFFFFFF - (name.limit limits).toNat) (by omega)
  let one := Numeral.ofNat 1 (by decide)
  obtain ⟨text, isWritten⟩ := exists_written_limitPlus name missing one
  have written : Written (limitPlus name missing one) (String.ofList text).toList := by
    rw [String.toList_ofList]
    exact isWritten
  have missed : (name.limit limits).toNat + missing.value = 0xFFFFFFFFFFFFFFFF := by
    rw [Numeral.value_ofNat]
    omega
  have unit : one.value = 1 := Numeral.value_ofNat 1 _
  refine ⟨String.ofList text, ?_, ?_⟩
  · refine (holds_eq_ok_iff written).mpr ⟨limitPlusEquality limits name missing one, _, rfl,
      value_limitPlus limits ⟨by omega, by omega⟩ ⟨by omega, by omega⟩, ?_⟩
    simp only [Bool.false_eq_true, false_iff, not_not]
    omega
  · have means := means_limitPlus limits written
    have total : ((name.limit limits).toNat + missing.value + one.value : Int) =
        0x10000000000000000 := by omega
    rw [total] at means
    exact means

/-- Assertions are exact about signed limits and no others. A text has one exact value at most. An
assertion that names only limits below 2^63 is true exactly if its exact value is not zero; and all
assertions are, exactly if all limits are below 2^63. -/
theorem holds_exact_iff_signed (limits : Limits) :
    (∀ text value other, Means limits text value → Means limits text other → value = other) ∧
    (∀ (text : String) truth lexemes, holds limits text = .ok truth →
      Written lexemes text.toList →
      (∀ name, Lexeme.limit name ∈ lexemes → (name.limit limits).toNat < 0x8000000000000000) →
      ∃ value, Means limits text.toList value ∧ (truth = true ↔ value ≠ 0)) ∧
    ((∀ (text : String) truth, holds limits text = .ok truth →
      ∃ value, Means limits text.toList value ∧ (truth = true ↔ value ≠ 0)) ↔
        SignedLimits limits) := by
  refine ⟨fun text value other => means_unique, ?_, ?_⟩
  · intro text truth lexemes accepted written signed
    exact means_of_holds accepted written signed
  · constructor
    · intro exactly name
      by_contra large
      obtain ⟨text, refuted, means⟩ := exists_holds_false_of_large (Nat.not_lt.mp large)
      obtain ⟨value, meansValue, answered⟩ := exactly text false refuted
      have same := means_unique means meansValue
      simp [← same] at answered
    · intro signed text truth accepted
      obtain ⟨lexemes, written⟩ := exists_written_of_holds accepted
      exact means_of_holds accepted written fun name _ => signed name

/-- Signs bind closer than products, and the default limits are signed words. -/
theorem holds_exact_iff_signed_default :
    let text := "CORESIZE == -MAXTASKS * -512"
    SignedLimits {} ∧
    holds {} text = .ok true ∧
    ∃ value, Means {} text.toList value ∧ value ≠ 0 := by
  intro text
  have signed : SignedLimits {} := by
    intro name
    cases name <;> decide
  have accepted : holds {} text = .ok true := by decide +kernel
  obtain ⟨_, _, exactly⟩ := holds_exact_iff_signed {}
  obtain ⟨value, means, answered⟩ := exactly.mpr signed text true accepted
  exact ⟨signed, accepted, value, means, answered.mp rfl⟩

/-- The greatest cycle limit can be played with, and is minus one to an assertion. -/
theorem holds_not_exact :
    let limits : Limits := { maxCycles := 18446744073709551615 }
    let text := "MAXCYCLES == -1"
    limits.Playable ∧
    holds limits text = .ok true ∧
    Means limits text.toList 0 ∧
    ∀ value, Means limits text.toList value → value = 0 := by
  intro limits text
  let one : Numeral := ⟨['1'], by decide, List.all_eq_true.mp (by decide), by decide⟩
  let lexemes : List Lexeme := [.limit .maxCycles, .equals, .minus, .numeral one]
  let equality : Equality :=
    ⟨⟨.ofNumber (-1), []⟩, [⟨⟨⟨[.minus], 1⟩, []⟩, []⟩]⟩
  have space : Text.Blank [' '] := List.all_eq_true.mp (by decide)
  have negated : Written [.minus, .numeral one] "-1".toList :=
    written_symbol rfl (written_lexeme (.numeral one))
  have compared : Written [.equals, .minus, .numeral one] "== -1".toList :=
    written_symbol rfl (written_gap space negated)
  have isText : text.toList = LimitName.maxCycles.text ++ ' ' :: "== -1".toList := by decide
  have written : Written lexemes text.toList := by
    rw [isText]
    exact written_word (.limit .maxCycles) (written_gap space compared) (by decide)
  have spelled : equality.tokens = lexemes.map (Lexeme.token limits) := by decide
  have exactly : equality.exactValue? = some 0 := by decide
  have means : Means limits text.toList 0 :=
    ⟨lexemes, written, (spelled_equality limits lexemes 0).mpr ⟨equality, spelled, exactly⟩⟩
  have accepted : holds limits text = .ok true := by decide +kernel
  exact ⟨by decide, accepted, means, fun value meansValue => means_unique meansValue means⟩

end CoreWar.Assertion
