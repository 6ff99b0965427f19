import CoreWar.Assertion.Expression
import CoreWar.Proofs.Text.Words

/-!
Contract: the derivations of the grammar of expressions.

Owns:
- the derivations and the tokens that each one spells;
- the value of a derivation over the integers, as a relation: left to right, every intermediate
  result a 64-bit integer;
- the value of a derivation in words, which is that over the integers;
- a list of tokens is spelled by one derivation at most.

Does not own: reading, see `CoreWar.Proofs.Assertion.Grammar`.

Products, sums and equalities are layers of the same form: a first part, and links that each put an
operator and another part behind it. What is true of every layer is said about `Layer`.
-/

namespace CoreWar.Assertion

/-! ## Derivations -/

inductive Sign where
  | plus
  | minus
deriving DecidableEq, Repr

/-- A number behind any number of signs. -/
structure Factor where
  signs : List Sign
  number : Int64
deriving DecidableEq, Repr

inductive ProductOperator where
  | times
  | percent
deriving DecidableEq, Repr

structure Product where
  first : Factor
  rest : List (ProductOperator × Factor)
deriving DecidableEq, Repr

inductive SumOperator where
  | plus
  | minus
deriving DecidableEq, Repr

structure Sum where
  first : Product
  rest : List (SumOperator × Product)
deriving DecidableEq, Repr

structure Equality where
  first : Sum
  rest : List Sum
deriving DecidableEq, Repr

/-! ## The tokens of a derivation -/

def Sign.token : Sign → Token
  | plus => .plus
  | minus => .minus

def Factor.tokens (factor : Factor) : List Token :=
  factor.signs.map Sign.token ++ [.number factor.number]

def ProductOperator.token : ProductOperator → Token
  | times => .times
  | percent => .percent

def Product.tokens (product : Product) : List Token :=
  product.first.tokens ++ product.rest.flatMap fun link => link.1.token :: link.2.tokens

def SumOperator.token : SumOperator → Token
  | plus => .plus
  | minus => .minus

def Sum.tokens (sum : Sum) : List Token :=
  sum.first.tokens ++ sum.rest.flatMap fun link => link.1.token :: link.2.tokens

def Equality.tokens (equality : Equality) : List Token :=
  equality.first.tokens ++ equality.rest.flatMap fun sum => .equals :: sum.tokens

/-! ## The value over the integers -/

/-- The integers from -2^63 to 2^63 - 1. -/
def Fits (value : Int) : Prop :=
  -0x8000000000000000 ≤ value ∧ value < 0x8000000000000000

/-- The value of a number behind signs; the sign nearest to it applies first. -/
inductive SignedValue (number : Int) : List Sign → Int → Prop where
  | bare : SignedValue number [] number
  | plus
      {signs : List Sign}
      {value : Int}
      (inner : SignedValue number signs value) :
      SignedValue number (.plus :: signs) value
  | minus
      {signs : List Sign}
      {value : Int}
      (inner : SignedValue number signs value)
      (fits : Fits (-value)) :
      SignedValue number (.minus :: signs) (-value)

def Factor.Value (factor : Factor) (value : Int) : Prop :=
  SignedValue factor.number.toInt factor.signs value

/-- Links applied to a value one after the other, from left to right. -/
inductive Chain {Link : Type} (Step : Int → Link → Int → Prop) : Int → List Link → Int → Prop where
  | done {value : Int} : Chain Step value [] value
  | step
      {value next last : Int}
      {link : Link}
      {rest : List Link}
      (first : Step value link next)
      (others : Chain Step next rest last) :
      Chain Step value (link :: rest) last

/-- A remainder has the sign of the dividend. There is none by zero, and none of the least word by
minus one. -/
inductive ProductOperator.Result (left right : Int) : ProductOperator → Int → Prop where
  | times (fits : Fits (left * right)) : Result left right .times (left * right)
  | percent
      (divisible : right ≠ 0)
      (quotient : ¬(left = -0x8000000000000000 ∧ right = -1)) :
      Result left right .percent (left.tmod right)

def Product.Step (left : Int) (link : ProductOperator × Factor) (result : Int) : Prop :=
  ∃ right, link.2.Value right ∧ link.1.Result left right result

def Product.Value (product : Product) (value : Int) : Prop :=
  ∃ start, product.first.Value start ∧ Chain Product.Step start product.rest value

inductive SumOperator.Result (left right : Int) : SumOperator → Int → Prop where
  | plus (fits : Fits (left + right)) : Result left right .plus (left + right)
  | minus (fits : Fits (left - right)) : Result left right .minus (left - right)

def Sum.Step (left : Int) (link : SumOperator × Product) (result : Int) : Prop :=
  ∃ right, link.2.Value right ∧ link.1.Result left right result

def Sum.Value (sum : Sum) (value : Int) : Prop :=
  ∃ start, sum.first.Value start ∧ Chain Sum.Step start sum.rest value

/-- A comparison is one or zero. -/
def Equality.Step (left : Int) (sum : Sum) (result : Int) : Prop :=
  ∃ right, sum.Value right ∧ result = if left = right then 1 else 0

def Equality.Value (equality : Equality) (value : Int) : Prop :=
  ∃ start, equality.first.Value start ∧ Chain Equality.Step start equality.rest value

/-! ## The value in words -/

def Sign.compute? : Sign → Int64 → Option Int64
  | plus, value => some value
  | minus, value => Word.neg? value

/-- The sign nearest to the number applies first. -/
def Factor.value? (factor : Factor) : Option Int64 :=
  factor.signs.foldr (fun sign value => value.bind sign.compute?) (some factor.number)

def ProductOperator.compute? : ProductOperator → Int64 → Int64 → Option Int64
  | times => Word.mul?
  | percent => Word.rem?

def Product.step? (left : Int64) (link : ProductOperator × Factor) : Option Int64 :=
  link.2.value?.bind (link.1.compute? left)

def Product.value? (product : Product) : Option Int64 :=
  product.first.value?.bind fun start => product.rest.foldlM Product.step? start

def SumOperator.compute? : SumOperator → Int64 → Int64 → Option Int64
  | plus => Word.add?
  | minus => Word.sub?

def Sum.step? (left : Int64) (link : SumOperator × Product) : Option Int64 :=
  link.2.value?.bind (link.1.compute? left)

def Sum.value? (sum : Sum) : Option Int64 :=
  sum.first.value?.bind fun start => sum.rest.foldlM Sum.step? start

/-- A comparison is one or zero. -/
def compare? (left right : Int64) : Option Int64 :=
  some (if left = right then 1 else 0)

def Equality.step? (left : Int64) (sum : Sum) : Option Int64 :=
  sum.value?.bind (compare? left)

def Equality.value? (equality : Equality) : Option Int64 :=
  equality.first.value?.bind fun start => equality.rest.foldlM Equality.step? start

/-! ## Both values are the same -/

theorem fits_toInt (word : Int64) : Fits word.toInt := by
  have least := word.le_toInt
  have greatest := word.toInt_lt
  exact ⟨by omega, by omega⟩

theorem fits_tmod {left right : Int} (fits : Fits left) : Fits (left.tmod right) := by
  have magnitude : (left.tmod right).natAbs ≤ left.natAbs := by
    rw [Int.natAbs_tmod]
    exact Nat.mod_le _ _
  obtain ⟨least, greatest⟩ := fits
  by_cases negative : left < 0
  · have opposite : 0 ≤ (-left).tmod right := Int.tmod_nonneg right (by omega)
    rw [Int.neg_tmod] at opposite
    exact ⟨by omega, by omega⟩
  · have nonnegative : 0 ≤ left.tmod right := Int.tmod_nonneg right (by omega)
    exact ⟨by omega, by omega⟩

/-- A computation in words that gives exactly the values stated over the integers. -/
structure Computes (computed : Option Int64) (Stated : Int → Prop) : Prop where
  agrees : ∀ word, computed = some word ↔ Stated word.toInt
  fits : ∀ value, Stated value → Fits value

namespace Computes

theorem of_iff
    {computed : Option Int64}
    {Stated Restated : Int → Prop}
    (computes : Computes computed Stated)
    (restated : ∀ value, Restated value ↔ Stated value) :
    Computes computed Restated where
  agrees word := (computes.agrees word).trans (restated word.toInt).symm
  fits value stated := computes.fits value ((restated value).mp stated)

theorem exists_word
    {computed : Option Int64}
    {Stated : Int → Prop}
    (computes : Computes computed Stated)
    {value : Int}
    (stated : Stated value) :
    ∃ word : Int64, computed = some word ∧ word.toInt = value := by
  obtain ⟨least, greatest⟩ := computes.fits value stated
  have same : (Int64.ofInt value).toInt = value :=
    Int64.toInt_ofInt_of_le (by omega) (by omega)
  refine ⟨Int64.ofInt value, ?_, same⟩
  rw [computes.agrees, same]
  exact stated

theorem pure (word : Int64) : Computes (some word) (· = word.toInt) where
  agrees other := by
    rw [Option.some.injEq, ← Int64.toInt_inj, eq_comm]
  fits value same := by
    rw [same]
    exact fits_toInt word

/-- A computation that goes on with the result of another one. -/
theorem bind
    {computed : Option Int64}
    {Stated : Int → Prop}
    (first : Computes computed Stated)
    {next : Int64 → Option Int64}
    (Next : Int → Int → Prop)
    (later : ∀ word, Computes (next word) (Next word.toInt)) :
    Computes (computed.bind next) (fun result => ∃ value, Stated value ∧ Next value result) where
  agrees result := by
    rw [Option.bind_eq_some_iff]
    constructor
    · intro done
      obtain ⟨word, isComputed, isNext⟩ := done
      exact ⟨word.toInt, (first.agrees word).mp isComputed, ((later word).agrees result).mp isNext⟩
    · intro done
      obtain ⟨value, stated, isNext⟩ := done
      obtain ⟨word, isComputed, rfl⟩ := first.exists_word stated
      exact ⟨word, isComputed, ((later word).agrees result).mpr isNext⟩
  fits result done := by
    obtain ⟨value, stated, isNext⟩ := done
    obtain ⟨word, _, rfl⟩ := first.exists_word stated
    exact (later word).fits result isNext

/-- Taking an integer into a word. -/
theorem signed? (value : Int) :
    Computes (Word.signed? value) (fun result => Fits value ∧ result = value) where
  agrees word := by
    constructor
    · intro taken
      unfold Word.signed? at taken
      split at taken
      · rename_i range
        have least : Int64.minValue.toInt = -0x8000000000000000 := by decide
        have greatest : Int64.maxValue.toInt = 0x8000000000000000 - 1 := by decide
        rw [← Option.some.inj taken]
        exact ⟨⟨by omega, by omega⟩, Int64.toInt_ofInt_of_le (by omega) (by omega)⟩
      · contradiction
    · intro same
      rw [← same.2]
      exact Text.signed?_toInt word
  fits result same := by
    rw [same.2]
    exact same.1

theorem productOperator (operator : ProductOperator) (left right : Int64) :
    Computes (operator.compute? left right) (operator.Result left.toInt right.toInt) := by
  cases operator with
  | times =>
      apply (signed? (left.toInt * right.toInt)).of_iff
      intro value
      constructor
      · intro result
        cases result with
        | times fits => exact ⟨fits, rfl⟩
      · rintro ⟨fits, rfl⟩
        exact .times fits
  | percent =>
      have zero : right = 0 ↔ right.toInt = 0 := by
        rw [← Int64.toInt_inj, Int64.toInt_zero]
      have least : left = Int64.minValue ↔ left.toInt = -0x8000000000000000 := by
        rw [← Int64.toInt_inj]
        rfl
      have minusOne : right = -1 ↔ right.toInt = -1 := by
        rw [← Int64.toInt_inj]
        rfl
      have divides : (right = 0 ∨ left = Int64.minValue ∧ right = -1) ↔
          right.toInt = 0 ∨ left.toInt = -0x8000000000000000 ∧ right.toInt = -1 := by
        rw [zero, least, minusOne]
      show Computes (Word.rem? left right) _
      unfold Word.rem?
      by_cases refused : right = 0 ∨ left = Int64.minValue ∧ right = -1
      · rw [if_pos refused]
        have undefined : ∀ value, ¬ProductOperator.percent.Result left.toInt right.toInt value := by
          intro value result
          cases result with
          | percent divisible quotient => exact (divides.mp refused).elim divisible quotient
        exact ⟨fun word => by simp [undefined], fun value result => absurd result (undefined value)⟩
      · rw [if_neg refused]
        have defined := not_or.mp (mt divides.mpr refused)
        apply (signed? (left.toInt.tmod right.toInt)).of_iff
        intro value
        constructor
        · intro result
          cases result with
          | percent => exact ⟨fits_tmod (fits_toInt left), rfl⟩
        · rintro ⟨_, rfl⟩
          exact .percent defined.1 defined.2

theorem sumOperator (operator : SumOperator) (left right : Int64) :
    Computes (operator.compute? left right) (operator.Result left.toInt right.toInt) := by
  cases operator with
  | plus =>
      apply (signed? (left.toInt + right.toInt)).of_iff
      intro value
      constructor
      · intro result
        cases result with
        | plus fits => exact ⟨fits, rfl⟩
      · rintro ⟨fits, rfl⟩
        exact .plus fits
  | minus =>
      apply (signed? (left.toInt - right.toInt)).of_iff
      intro value
      constructor
      · intro result
        cases result with
        | minus fits => exact ⟨fits, rfl⟩
      · rintro ⟨fits, rfl⟩
        exact .minus fits

theorem signs (number : Int64) (signs : List Sign) :
    Computes (signs.foldr (fun sign value => value.bind sign.compute?) (some number))
      (SignedValue number.toInt signs) := by
  induction signs with
  | nil =>
      apply (pure number).of_iff
      intro value
      constructor
      · intro signed
        cases signed with
        | bare => rfl
      · rintro rfl
        exact .bare
  | cons sign signs inductionHypothesis =>
      rw [List.foldr_cons]
      cases sign with
      | plus =>
          apply (inductionHypothesis.bind (fun value result => result = value) pure).of_iff
          intro value
          constructor
          · intro signed
            cases signed with
            | plus inner => exact ⟨_, inner, rfl⟩
          · rintro ⟨_, inner, rfl⟩
            exact .plus inner
      | minus =>
          apply (inductionHypothesis.bind (fun value result => Fits (-value) ∧ result = -value)
            fun word => signed? (-word.toInt)).of_iff
          intro value
          constructor
          · intro signed
            cases signed with
            | minus inner fits => exact ⟨_, inner, fits, rfl⟩
          · rintro ⟨_, inner, fits, rfl⟩
            exact .minus inner fits

theorem chain
    {Link : Type}
    {step : Int64 → Link → Option Int64}
    {Step : Int → Link → Int → Prop}
    (each : ∀ left link, Computes (step left link) (Step left.toInt link))
    (links : List Link)
    (start : Int64) :
    Computes (links.foldlM step start) (Chain Step start.toInt links) := by
  induction links generalizing start with
  | nil =>
      apply (pure start).of_iff
      intro value
      constructor
      · intro chained
        cases chained with
        | done => rfl
      · rintro rfl
        exact .done
  | cons link rest inductionHypothesis =>
      rw [List.foldlM_cons]
      apply ((each start link).bind (fun next => Chain Step next rest) inductionHypothesis).of_iff
      intro value
      constructor
      · intro chained
        cases chained with
        | step first others => exact ⟨_, first, others⟩
      · rintro ⟨_, first, others⟩
        exact .step first others

theorem factor (factor : Factor) : Computes factor.value? factor.Value :=
  signs factor.number factor.signs

theorem product (product : Product) : Computes product.value? product.Value := by
  apply (factor product.first).bind fun start => Chain Product.Step start product.rest
  apply chain
  intro left link
  exact (factor link.2).bind (link.1.Result left.toInt) (productOperator link.1 left)

theorem sum (sum : Sum) : Computes sum.value? sum.Value := by
  apply (product sum.first).bind fun start => Chain Sum.Step start sum.rest
  apply chain
  intro left link
  exact (product link.2).bind (link.1.Result left.toInt) (sumOperator link.1 left)

theorem equality (equality : Equality) : Computes equality.value? equality.Value := by
  apply (sum equality.first).bind fun start => Chain Equality.Step start equality.rest
  apply chain
  intro left next
  apply (sum next).bind fun right result => result = if left.toInt = right then 1 else 0
  intro right
  apply (pure (if left = right then 1 else 0)).of_iff
  intro value
  by_cases same : left = right
  · rw [if_pos same, if_pos (congrArg Int64.toInt same)]
    rfl
  · rw [if_neg same, if_neg (mt Int64.toInt_inj.mp same)]
    rfl

end Computes

/-! ## Layers -/

/-- How strongly an operator binds what stands beside it. -/
def Token.strength : Token → Nat
  | number _ => 0
  | equals => 1
  | plus => 2
  | minus => 2
  | times => 3
  | percent => 3

/-- What comes next, if anything does, binds weaker than this. -/
def Ends (strength : Nat) (next : Option Token) : Prop :=
  ∀ token, next = some token → token.strength < strength

theorem ends_none (strength : Nat) : Ends strength none := by
  intro token found
  contradiction

theorem Ends.tighter {strength : Nat} {next : Option Token} (ends : Ends strength next) :
    Ends (strength + 1) next :=
  fun token found => Nat.lt_succ_of_lt (ends token found)

/-- A layer of the grammar: its links, each with an operator and the part behind it, and the
operators that the reader looks for. -/
structure Layer (Part Link : Type) where
  strength : Nat
  operators : Operators
  operator : Link → Token
  compute? : Link → Int64 → Int64 → Option Int64
  part : Link → Part
  tokens : Part → List Token
  value? : Part → Option Int64
  /-- The reader looks for the tokens that bind this strongly, and for no others. -/
  binds : ∀ token, operators token ≠ none ↔ token.strength = strength
  known : ∀ link, operators (operator link) = some (compute? link)
  /-- Every operator makes a link with every part. -/
  reached : ∀ token other, operators token ≠ none →
    ∃ link, operator link = token ∧ part link = other
  link_ext : ∀ link other, operator link = operator other → part link = part other → link = other

/-- Tokens that spell a derivation, with something behind them that ends it, spell no other one. -/
def Unambiguous {Derivation : Type} (strength : Nat) (tokens : Derivation → List Token) : Prop :=
  ∀ derivation other rest otherRest,
    tokens derivation ++ rest = tokens other ++ otherRest →
    Ends strength rest.head? →
    Ends strength otherRest.head? →
    derivation = other ∧ rest = otherRest

namespace Layer

variable {Part Link : Type} (layer : Layer Part Link)

def linkTokens (link : Link) : List Token :=
  layer.operator link :: layer.tokens (layer.part link)

def step? (left : Int64) (link : Link) : Option Int64 :=
  (layer.value? (layer.part link)).bind (layer.compute? link left)

theorem strength_operator (link : Link) : (layer.operator link).strength = layer.strength := by
  apply (layer.binds _).mp
  rw [layer.known link]
  exact Option.some_ne_none _

/-- An operator of the layer does not end it. -/
theorem not_ends_operator (link : Link) : ¬Ends layer.strength (some (layer.operator link)) := by
  intro ends
  have weaker := ends _ rfl
  rw [layer.strength_operator link] at weaker
  exact Nat.lt_irrefl _ weaker

/-- Links, and what ends the layer behind them, end the part in front of them. -/
theorem ends_links
    {rest : List Token}
    (ends : Ends layer.strength rest.head?)
    (links : List Link) :
    Ends (layer.strength + 1) (links.flatMap layer.linkTokens ++ rest).head? := by
  cases links with
  | nil => exact ends.tighter
  | cons link links =>
      intro token found
      have isOperator : layer.operator link = token := Option.some.inj found
      rw [← isOperator, layer.strength_operator link]
      exact Nat.lt_succ_self _

theorem unambiguous_links (parts : Unambiguous (layer.strength + 1) layer.tokens) :
    Unambiguous layer.strength (List.flatMap layer.linkTokens) := by
  intro links
  induction links with
  | nil =>
      intro others rest otherRest same ends otherEnds
      cases others with
      | nil => exact ⟨rfl, same⟩
      | cons other others =>
          have starts : rest.head? = some (layer.operator other) := congrArg List.head? same
          rw [starts] at ends
          exact absurd ends (layer.not_ends_operator other)
  | cons link links inductionHypothesis =>
      intro others rest otherRest same ends otherEnds
      cases others with
      | nil =>
          have starts : some (layer.operator link) = otherRest.head? := congrArg List.head? same
          rw [← starts] at otherEnds
          exact absurd otherEnds (layer.not_ends_operator link)
      | cons other others =>
          rw [List.flatMap_cons, List.flatMap_cons, List.append_assoc, List.append_assoc] at same
          have heads := List.cons.inj same
          have sameParts := parts _ _ _ _ heads.2 (layer.ends_links ends links)
            (layer.ends_links otherEnds others)
          have sameLinks := inductionHypothesis others rest otherRest sameParts.2 ends otherEnds
          rw [layer.link_ext link other heads.1 sameParts.1, sameLinks.1]
          exact ⟨rfl, sameLinks.2⟩

/-- The first part and the links of a layer are fixed by their tokens. -/
theorem unambiguous
    (parts : Unambiguous (layer.strength + 1) layer.tokens) :
    Unambiguous layer.strength fun derivation : Part × List Link =>
      layer.tokens derivation.1 ++ derivation.2.flatMap layer.linkTokens := by
  intro derivation other rest otherRest same ends otherEnds
  rw [List.append_assoc, List.append_assoc] at same
  have sameFirst := parts _ _ _ _ same (layer.ends_links ends _) (layer.ends_links otherEnds _)
  have sameLinks := layer.unambiguous_links parts _ _ _ _ sameFirst.2 ends otherEnds
  exact ⟨Prod.ext sameFirst.1 sameLinks.1, sameLinks.2⟩

end Layer

theorem ProductOperator.token_injective : Function.Injective ProductOperator.token := by
  intro operator other same
  cases operator <;> cases other <;> first | rfl | contradiction

def productLayer : Layer Factor (ProductOperator × Factor) where
  strength := 3
  operators := productOperators
  operator link := link.1.token
  compute? link := link.1.compute?
  part := Prod.snd
  tokens := Factor.tokens
  value? := Factor.value?
  binds token := by
    cases token <;> simp [productOperators, Token.strength]
  known link := by
    cases link with
    | mk operator factor => cases operator <;> rfl
  reached token factor found := by
    cases token with
    | times => exact ⟨(.times, factor), rfl, rfl⟩
    | percent => exact ⟨(.percent, factor), rfl, rfl⟩
    | _ => contradiction
  link_ext _ _ same sameFactor := Prod.ext (ProductOperator.token_injective same) sameFactor

theorem SumOperator.token_injective : Function.Injective SumOperator.token := by
  intro operator other same
  cases operator <;> cases other <;> first | rfl | contradiction

def sumLayer : Layer Product (SumOperator × Product) where
  strength := 2
  operators := sumOperators
  operator link := link.1.token
  compute? link := link.1.compute?
  part := Prod.snd
  tokens := Product.tokens
  value? := Product.value?
  binds token := by
    cases token <;> simp [sumOperators, Token.strength]
  known link := by
    cases link with
    | mk operator product => cases operator <;> rfl
  reached token product found := by
    cases token with
    | plus => exact ⟨(.plus, product), rfl, rfl⟩
    | minus => exact ⟨(.minus, product), rfl, rfl⟩
    | _ => contradiction
  link_ext _ _ same sameProduct := Prod.ext (SumOperator.token_injective same) sameProduct

def equalityLayer : Layer Sum Sum where
  strength := 1
  operators := equalityOperators
  operator _ := .equals
  compute? _ := compare?
  part := id
  tokens := Sum.tokens
  value? := Sum.value?
  binds token := by
    cases token <;> simp [equalityOperators, Token.strength]
  known _ := rfl
  reached token sum found := by
    cases token with
    | equals => exact ⟨sum, rfl, rfl⟩
    | _ => contradiction
  link_ext _ _ _ same := same

theorem Sign.token_injective : Function.Injective Sign.token := by
  intro sign other same
  cases sign <;> cases other <;> first | rfl | contradiction

theorem Sign.token_ne_number (sign : Sign) (number : Int64) : sign.token ≠ .number number := by
  cases sign <;> simp [Sign.token]

/-- Nothing that stands behind a factor belongs to it. -/
theorem unambiguous_factor : Unambiguous 4 Factor.tokens := by
  intro factor other rest otherRest same _ _
  cases factor with
  | mk signs number =>
  cases other with
  | mk others otherNumber =>
  induction signs generalizing others with
  | nil =>
      cases others with
      | nil =>
          have parts := List.cons.inj same
          have sameNumber : number = otherNumber := Token.number.inj parts.1
          rw [sameNumber]
          exact ⟨rfl, parts.2⟩
      | cons sign others =>
          exact absurd (List.cons.inj same).1.symm (sign.token_ne_number number)
  | cons sign signs inductionHypothesis =>
      cases others with
      | nil => exact absurd (List.cons.inj same).1 (sign.token_ne_number otherNumber)
      | cons other others =>
          have parts := List.cons.inj same
          have inner := inductionHypothesis others parts.2
          have sameFactor := Factor.mk.inj inner.1
          rw [Sign.token_injective parts.1, sameFactor.1, sameFactor.2]
          exact ⟨rfl, inner.2⟩

theorem unambiguous_product : Unambiguous 3 Product.tokens := by
  intro product other rest otherRest same ends otherEnds
  have parts := productLayer.unambiguous unambiguous_factor (product.first, product.rest)
    (other.first, other.rest) rest otherRest same ends otherEnds
  have fields := Prod.mk.inj parts.1
  exact ⟨(Product.mk.injEq ..).mpr fields, parts.2⟩

theorem unambiguous_sum : Unambiguous 2 Sum.tokens := by
  intro sum other rest otherRest same ends otherEnds
  have parts := sumLayer.unambiguous unambiguous_product (sum.first, sum.rest)
    (other.first, other.rest) rest otherRest same ends otherEnds
  have fields := Prod.mk.inj parts.1
  exact ⟨(Sum.mk.injEq ..).mpr fields, parts.2⟩

theorem unambiguous_equality : Unambiguous 1 Equality.tokens := by
  intro equality other rest otherRest same ends otherEnds
  have parts := equalityLayer.unambiguous unambiguous_sum (equality.first, equality.rest)
    (other.first, other.rest) rest otherRest same ends otherEnds
  have fields := Prod.mk.inj parts.1
  exact ⟨(Equality.mk.injEq ..).mpr fields, parts.2⟩

/-- A list of tokens is spelled by one derivation at most. -/
theorem Equality.tokens_injective : Function.Injective Equality.tokens := by
  intro equality other same
  have padded : equality.tokens ++ [] = other.tokens ++ [] := congrArg (· ++ []) same
  exact (unambiguous_equality _ _ _ _ padded (ends_none 1) (ends_none 1)).1

end CoreWar.Assertion
