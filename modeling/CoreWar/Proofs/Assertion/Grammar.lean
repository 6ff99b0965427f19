import CoreWar.Proofs.Assertion.Derivation
import CoreWar.Proofs.Failure

/-!
Contract: the reader accepts exactly the grammar, with the stated meaning.

Owns:
- the tokens that a reader passes from one position to another;
- what each layer of the reader reads, with the position that it stops at;
- the value of a list of tokens, all of which must be read.

Does not own: the derivations and their values, see `CoreWar.Proofs.Assertion.Derivation`; the
tokens of a text, see `CoreWar.Proofs.Assertion.Lexemes`.

A layer reads a derivation and stops where no operator follows that binds as strongly as its own
(`Understood`). That this goes up from the parts of a layer to the layer is one lemma. Reading is
followed along the position, and a derivation along its links.
-/

namespace CoreWar.Assertion

/-! ## Passing tokens -/

/-- Reading these tokens one after the other leads from the one reader to the other. -/
inductive Passes : Reader → List Token → Reader → Prop where
  | done {reader : Reader} : Passes reader [] reader
  | token
      {before after : Reader}
      {token : Token}
      {rest : List Token}
      (found : before.peek? = some token)
      (others : Passes before.advance rest after) :
      Passes before (token :: rest) after

theorem Passes.append
    {before middle after : Reader}
    {tokens others : List Token}
    (first : Passes before tokens middle)
    (second : Passes middle others after) :
    Passes before (tokens ++ others) after := by
  induction first with
  | done => exact second
  | token found _ inductionHypothesis => exact .token found (inductionHypothesis second)

theorem exists_passes_of_append
    {before after : Reader}
    {tokens others : List Token}
    (passes : Passes before (tokens ++ others) after) :
    ∃ middle, Passes before tokens middle ∧ Passes middle others after := by
  induction tokens generalizing before with
  | nil => exact ⟨before, .done, passes⟩
  | cons token tokens inductionHypothesis =>
      cases passes with
      | token found rest =>
          obtain ⟨middle, first, second⟩ := inductionHypothesis rest
          exact ⟨middle, .token found first, second⟩

/-- What is passed is what stood between the two positions. -/
theorem drop_of_passes
    {before after : Reader}
    {tokens : List Token}
    (passes : Passes before tokens after) :
    after.tokens = before.tokens ∧
    before.tokens.drop before.position = tokens ++ before.tokens.drop after.position := by
  induction passes with
  | done => exact ⟨rfl, rfl⟩
  | @token before after token rest found others inductionHypothesis =>
      obtain ⟨inside, isToken⟩ := List.getElem?_eq_some_iff.mp found
      refine ⟨inductionHypothesis.1, ?_⟩
      rw [List.drop_eq_getElem_cons inside, isToken]
      exact congrArg (List.cons token) inductionHypothesis.2

/-- The tokens that stand from the position on can be passed. -/
theorem passes_of_drop
    {tokens : List Token}
    {before : Reader}
    {rest : List Token}
    (starts : before.tokens.drop before.position = tokens ++ rest) :
    Passes before tokens { before with position := before.position + tokens.length } := by
  induction tokens generalizing before with
  | nil => exact .done
  | cons token tokens inductionHypothesis =>
      have found : before.peek? = some token := by
        rw [Reader.peek?, ← List.head?_drop, starts]
        rfl
      have later : before.advance.tokens.drop before.advance.position = tokens ++ rest := by
        show before.tokens.drop (before.position + 1) = _
        rw [← List.tail_drop, starts]
        rfl
      have others := inductionHypothesis later
      rw [List.length_cons, Nat.add_comm tokens.length, ← Nat.add_assoc]
      exact .token found others

/-- From the start to the end, all tokens are passed. -/
theorem exists_passes_whole_iff {tokens words : List Token} :
    (∃ after, Passes { tokens } words after ∧ after.position = tokens.length) ↔
      words = tokens := by
  constructor
  · intro whole
    obtain ⟨after, passes, atEnd⟩ := whole
    have between := (drop_of_passes passes).2
    rw [atEnd, List.drop_length, List.append_nil] at between
    exact between.symm
  · intro same
    subst same
    exact ⟨_, passes_of_drop (List.append_nil words).symm, Nat.zero_add _⟩

/-! ## Yielding a value -/

/-- The outcome is this value, with the reader there. -/
def Yields
    {before : Reader}
    (outcome : Except Failure (Reading before))
    (value : Int64)
    (after : Reader) :
    Prop :=
  ∃ reading, outcome = .ok reading ∧ reading.value = value ∧ reading.after = after

section Yields

variable {before later after : Reader} {value : Int64}

theorem yields_ok_iff {reading : Reading before} :
    Yields (.ok reading) value after ↔ reading.value = value ∧ reading.after = after := by
  constructor
  · intro yields
    obtain ⟨same, isOk, parts⟩ := yields
    rw [Except.ok.inj isOk]
    exact parts
  · intro parts
    exact ⟨reading, rfl, parts⟩

theorem not_yields_error {failure : Failure} :
    ¬Yields (.error failure : Except Failure (Reading before)) value after := by
  intro yields
  obtain ⟨_, isOk, _⟩ := yields
  contradiction

theorem Yields.remaining_le
    {outcome : Except Failure (Reading before)}
    (yields : Yields outcome value after) :
    after.remaining ≤ before.remaining := by
  obtain ⟨reading, _, _, isAfter⟩ := yields
  rw [← isAfter]
  exact reading.remaining_le

theorem computed_eq_ok_iff {result : Option Int64} :
    computed result = .ok value ↔ result = some value := by
  cases result <;> simp [computed]

/-- An outcome stays what it is when it is seen from further ahead. -/
theorem yields_since_iff
    {outcome : Except Failure (Reading later)}
    {notBack : later.remaining ≤ before.remaining} :
    Yields (outcome >>= fun reading => pure (reading.since notBack)) value after ↔
      Yields outcome value after := by
  cases outcome with
  | error failure => exact iff_of_false not_yields_error not_yields_error
  | ok reading =>
      have seen : Yields (.ok (reading.since notBack)) value after ↔
          reading.value = value ∧ reading.after = after := yields_ok_iff
      exact seen.trans yields_ok_iff.symm

theorem yields_bind_iff
    {α : Type}
    {outcome : Except Failure α}
    {next : α → Except Failure (Reading before)} :
    Yields (outcome >>= next) value after ↔
      ∃ result, outcome = .ok result ∧ Yields (next result) value after := by
  cases outcome with
  | error failure =>
      apply iff_of_false not_yields_error
      intro stages
      obtain ⟨_, isOk, _⟩ := stages
      contradiction
  | ok result =>
      constructor
      · intro yields
        exact ⟨result, rfl, yields⟩
      · intro stages
        obtain ⟨same, isOk, yields⟩ := stages
        rw [Except.ok.inj isOk]
        exact yields

end Yields

/-! ## One step of each layer -/

/-- What is read behind a minus sign is negated. -/
theorem yields_negated_iff
    {before later after : Reader}
    {outcome : Except Failure (Reading later)}
    {notBack : ∀ inner : Reading later, inner.after.remaining ≤ before.remaining}
    {value : Int64} :
    Yields (do
        let inner ← outcome
        let value ← computed (Word.neg? inner.value)
        return (⟨value, inner.after, notBack inner⟩ : Reading before)) value after ↔
      ∃ inner, Yields outcome inner after ∧ Word.neg? inner = some value := by
  constructor
  · intro yields
    obtain ⟨inner, isInner, negated⟩ := yields_bind_iff.mp yields
    obtain ⟨word, isWord, given⟩ := yields_bind_iff.mp negated
    obtain ⟨rfl, rfl⟩ := yields_ok_iff.mp given
    exact ⟨inner.value, ⟨inner, isInner, rfl, rfl⟩, computed_eq_ok_iff.mp isWord⟩
  · intro stages
    obtain ⟨_, ⟨inner, isInner, rfl, rfl⟩, isWord⟩ := stages
    apply yields_bind_iff.mpr ⟨inner, isInner, _⟩
    exact yields_bind_iff.mpr ⟨value, computed_eq_ok_iff.mpr isWord, ⟨_, rfl, rfl, rfl⟩⟩

/-- Where a sign stands, there is no number and no other sign. -/
theorem stands_sign_iff
    (sign : Sign)
    {number : Int64}
    {Lone : Prop}
    {Signed : Sign → Prop} :
    (some sign.token = some (Token.number number) ∧ Lone ∨
      ∃ other : Sign, some sign.token = some other.token ∧ Signed other) ↔ Signed sign := by
  constructor
  · intro stands
    cases stands with
    | inl lone => exact absurd (Option.some.inj lone.1) (sign.token_ne_number number)
    | inr signed =>
        obtain ⟨other, same, holds⟩ := signed
        rw [Sign.token_injective (Option.some.inj same)]
        exact holds
  · intro holds
    exact .inr ⟨sign, rfl, holds⟩

/-- A factor is a number, or a sign in front of a factor. -/
theorem yields_readFactor_iff {before after : Reader} {value : Int64} :
    Yields (readFactor before) value after ↔
      (before.peek? = some (.number value) ∧ before.advance = after) ∨
      ∃ sign : Sign, before.peek? = some sign.token ∧
        ∃ inner, Yields (readFactor before.advance) inner after ∧
          sign.compute? inner = some value := by
  rw [readFactor]
  split
  next later found =>
    have parts := Prod.mk.inj found
    obtain rfl := parts.2
    rw [parts.1, yields_negated_iff]
    apply Iff.symm
    exact stands_sign_iff .minus
  next later found =>
    have parts := Prod.mk.inj found
    obtain rfl := parts.2
    have kept : Yields (readFactor before.advance) value after ↔
        ∃ inner, Yields (readFactor before.advance) inner after ∧
          Sign.plus.compute? inner = some value := by
      simp [Sign.compute?]
    rw [parts.1, yields_since_iff, kept]
    apply Iff.symm
    exact stands_sign_iff .plus
  next number later found =>
    have parts := Prod.mk.inj found
    obtain rfl := parts.2
    rw [parts.1, yields_ok_iff]
    constructor
    · intro given
      exact .inl ⟨congrArg (some ∘ Token.number) given.1, given.2⟩
    · intro stages
      cases stages with
      | inl lone => exact ⟨Token.number.inj (Option.some.inj lone.1), lone.2⟩
      | inr signed =>
          obtain ⟨sign, isSign, _⟩ := signed
          exact absurd (Option.some.inj isSign).symm (sign.token_ne_number number)
  next notMinus notPlus notNumber =>
    apply iff_of_false not_yields_error
    intro stages
    cases stages with
    | inl lone => exact notNumber value before.advance (congrArg (·, before.advance) lone.1)
    | inr signed =>
        obtain ⟨sign, isSign, _⟩ := signed
        cases sign with
        | plus => exact notPlus before.advance (congrArg (·, before.advance) isSign)
        | minus => exact notMinus before.advance (congrArg (·, before.advance) isSign)

/-- Links end where no operator comes next; else an operator applies to the value so far and the
part behind it. -/
theorem yields_readLinks_iff
    {operators : Operators}
    {readPart : (reader : Reader) → Except Failure (Reading reader)}
    {before after : Reader}
    {start value : Int64} :
    Yields (readLinks operators readPart start before) value after ↔
      (before.peek?.bind operators = none ∧ start = value ∧ before = after) ∨
      ∃ operator right middle next, before.peek?.bind operators = some operator ∧
        Yields (readPart before.advance) right middle ∧ operator start right = some next ∧
        Yields (readLinks operators readPart next middle) value after := by
  rw [readLinks]
  split
  next found =>
    rw [yields_ok_iff, found]
    simp
  next operator found =>
    constructor
    · intro yields
      obtain ⟨right, isRight, combined⟩ := yields_bind_iff.mp yields
      obtain ⟨next, isNext, links⟩ := yields_bind_iff.mp combined
      exact .inr ⟨operator, right.value, right.after, next, found, ⟨right, isRight, rfl, rfl⟩,
        computed_eq_ok_iff.mp isNext, yields_since_iff.mp links⟩
    · intro stages
      cases stages with
      | inl ended =>
          rw [found] at ended
          exact absurd ended.1 (Option.some_ne_none operator)
      | inr linked =>
          obtain ⟨same, _, _, next, isSame, ⟨right, isRight, rfl, rfl⟩, isNext, links⟩ := linked
          rw [Option.some.inj (isSame.symm.trans found)] at isNext
          apply yields_bind_iff.mpr ⟨right, isRight, _⟩
          exact yields_bind_iff.mpr
            ⟨next, computed_eq_ok_iff.mpr isNext, yields_since_iff.mpr links⟩

theorem yields_readLayer_iff
    {operators : Operators}
    {readPart : (reader : Reader) → Except Failure (Reading reader)}
    {before after : Reader}
    {value : Int64} :
    Yields (readLayer operators readPart before) value after ↔
      ∃ start middle, Yields (readPart before) start middle ∧
        Yields (readLinks operators readPart start middle) value after := by
  unfold readLayer
  constructor
  · intro yields
    obtain ⟨first, isFirst, links⟩ := yields_bind_iff.mp yields
    exact ⟨first.value, first.after, ⟨first, isFirst, rfl, rfl⟩, yields_since_iff.mp links⟩
  · intro stages
    obtain ⟨_, _, ⟨first, isFirst, rfl, rfl⟩, links⟩ := stages
    exact yields_bind_iff.mpr ⟨first, isFirst, yields_since_iff.mpr links⟩

/-! ## What each layer reads -/

/-- What is read at a position is a derivation whose tokens stand there, with its value, and the
reader stops behind it. Nothing that comes next binds as strongly as the layer. -/
def Understood
    {Derivation : Type}
    (strength : Nat)
    (read : (reader : Reader) → Except Failure (Reading reader))
    (tokens : Derivation → List Token)
    (value? : Derivation → Option Int64) :
    Prop :=
  ∀ before value after, Yields (read before) value after ↔
    ∃ derivation, Passes before (tokens derivation) after ∧
      value? derivation = some value ∧ Ends strength after.peek?

theorem ends_four (next : Option Token) : Ends 4 next := by
  intro token _
  cases token <;> simp [Token.strength]

theorem exists_factor_of_yields
    {before after : Reader}
    {value : Int64}
    (yields : Yields (readFactor before) value after) :
    ∃ factor : Factor, Passes before factor.tokens after ∧ factor.value? = some value := by
  induction measure : before.remaining using Nat.strongRecOn generalizing before value with
  | _ _ inductionHypothesis =>
      subst measure
      cases yields_readFactor_iff.mp yields with
      | inl lone =>
          obtain ⟨found, rfl⟩ := lone
          exact ⟨⟨[], value⟩, .token found .done, rfl⟩
      | inr signed =>
          obtain ⟨sign, found, inner, yieldsInner, isValue⟩ := signed
          have decreases := Reader.remaining_advance_lt found
          obtain ⟨factor, passes, valued⟩ := inductionHypothesis _ decreases yieldsInner rfl
          refine ⟨⟨sign :: factor.signs, factor.number⟩, .token found passes, ?_⟩
          show factor.value?.bind sign.compute? = some value
          rw [valued]
          exact isValue

theorem yields_factor
    {factor : Factor}
    {before after : Reader}
    {value : Int64}
    (passes : Passes before factor.tokens after)
    (valued : factor.value? = some value) :
    Yields (readFactor before) value after := by
  cases factor with
  | mk signs number =>
  induction signs generalizing before value with
  | nil =>
      cases passes with
      | token found others =>
          cases others with
          | done =>
              rw [← Option.some.inj valued]
              exact yields_readFactor_iff.mpr (.inl ⟨found, rfl⟩)
  | cons sign signs inductionHypothesis =>
      cases passes with
      | token found others =>
          obtain ⟨inner, valuedInner, isValue⟩ := Option.bind_eq_some_iff.mp valued
          have yieldsInner := inductionHypothesis others valuedInner
          exact yields_readFactor_iff.mpr (.inr ⟨sign, found, inner, yieldsInner, isValue⟩)

theorem understood_factor : Understood 4 readFactor Factor.tokens Factor.value? := by
  intro before value after
  constructor
  · intro yields
    obtain ⟨factor, passes, valued⟩ := exists_factor_of_yields yields
    exact ⟨factor, passes, valued, ends_four after.peek?⟩
  · intro derived
    obtain ⟨factor, passes, valued, _⟩ := derived
    exact yields_factor passes valued

namespace Layer

variable {Part Link : Type} (layer : Layer Part Link)
  {readPart : (reader : Reader) → Except Failure (Reading reader)}

theorem operators_eq_none_iff (token : Token) :
    layer.operators token = none ↔ token.strength ≠ layer.strength :=
  (not_iff_comm.mp (layer.binds token)).symm

/-- Links, and what ends the layer behind them, end the part in front of them. -/
theorem ends_of_passes_links
    {before after : Reader}
    {links : List Link}
    (passes : Passes before (links.flatMap layer.linkTokens) after)
    (ends : Ends layer.strength after.peek?) :
    Ends (layer.strength + 1) before.peek? := by
  cases links with
  | nil =>
      cases passes with
      | done => exact ends.tighter
  | cons link links =>
      cases passes with
      | token found others =>
          intro token isToken
          rw [← Option.some.inj (found.symm.trans isToken), layer.strength_operator link]
          exact Nat.lt_succ_self _

/-- The links that are read, by induction on what is left to read. -/
theorem exists_links_of_yields
    (parts : Understood (layer.strength + 1) readPart layer.tokens layer.value?)
    {before after : Reader}
    {start value : Int64}
    (behindPart : Ends (layer.strength + 1) before.peek?)
    (yields : Yields (readLinks layer.operators readPart start before) value after) :
    ∃ links : List Link, Passes before (links.flatMap layer.linkTokens) after ∧
      links.foldlM layer.step? start = some value ∧ Ends layer.strength after.peek? := by
  induction measure : before.remaining using Nat.strongRecOn generalizing before start with
  | _ _ inductionHypothesis =>
      subst measure
      cases yields_readLinks_iff.mp yields with
      | inl ended =>
          obtain ⟨noOperator, rfl, rfl⟩ := ended
          refine ⟨[], .done, rfl, ?_⟩
          intro token found
          rw [found] at noOperator
          have other := (layer.operators_eq_none_iff token).mp noOperator
          have weaker := behindPart token found
          omega
      | inr linked =>
          obtain ⟨operator, right, middle, next, found, yieldsPart, combined, yieldsLinks⟩ := linked
          obtain ⟨token, isNext, isOperator⟩ := Option.bind_eq_some_iff.mp found
          obtain ⟨part, passesPart, valuedPart, ends⟩ := (parts _ _ _).mp yieldsPart
          have among : layer.operators token ≠ none := by
            rw [isOperator]
            exact Option.some_ne_none operator
          obtain ⟨link, rfl, rfl⟩ := layer.reached token part among
          have decreases : middle.remaining < before.remaining :=
            Nat.lt_of_le_of_lt yieldsPart.remaining_le (Reader.remaining_advance_lt isNext)
          obtain ⟨links, passesLinks, valuedLinks, endsLayer⟩ :=
            inductionHypothesis _ decreases ends yieldsLinks rfl
          refine ⟨link :: links, .token isNext (passesPart.append passesLinks), ?_, endsLayer⟩
          have step : layer.step? start link = some next := by
            rw [step?, valuedPart, Option.bind_some,
              Option.some.inj ((layer.known link).symm.trans isOperator)]
            exact combined
          rw [List.foldlM_cons, step]
          exact valuedLinks

theorem yields_links
    (parts : Understood (layer.strength + 1) readPart layer.tokens layer.value?)
    {links : List Link}
    {before after : Reader}
    {start value : Int64}
    (passes : Passes before (links.flatMap layer.linkTokens) after)
    (valued : links.foldlM layer.step? start = some value)
    (ends : Ends layer.strength after.peek?) :
    Yields (readLinks layer.operators readPart start before) value after := by
  induction links generalizing before start with
  | nil =>
      cases passes with
      | done =>
          refine yields_readLinks_iff.mpr (.inl ⟨?_, Option.some.inj valued, rfl⟩)
          apply Option.bind_eq_none_iff.mpr
          intro token found
          exact (layer.operators_eq_none_iff token).mpr (Nat.ne_of_lt (ends token found))
  | cons link links inductionHypothesis =>
      cases passes with
      | token found others =>
          obtain ⟨middle, passesPart, passesLinks⟩ := exists_passes_of_append others
          rw [List.foldlM_cons] at valued
          obtain ⟨next, step, valuedLinks⟩ := Option.bind_eq_some_iff.mp valued
          obtain ⟨right, valuedPart, combined⟩ := Option.bind_eq_some_iff.mp step
          have behindPart := layer.ends_of_passes_links passesLinks ends
          have yieldsPart := (parts _ _ _).mpr ⟨_, passesPart, valuedPart, behindPart⟩
          have isOperator : before.peek?.bind layer.operators = some (layer.compute? link) := by
            rw [found]
            exact layer.known link
          exact yields_readLinks_iff.mpr (.inr ⟨_, right, middle, next, isOperator, yieldsPart,
            combined, inductionHypothesis passesLinks valuedLinks⟩)

/-- What is understood of the parts is understood of the layer. -/
theorem understood
    (parts : Understood (layer.strength + 1) readPart layer.tokens layer.value?) :
    Understood layer.strength (readLayer layer.operators readPart)
      (fun derivation : Part × List Link =>
        layer.tokens derivation.1 ++ derivation.2.flatMap layer.linkTokens)
      (fun derivation => (layer.value? derivation.1).bind fun start =>
        derivation.2.foldlM layer.step? start) := by
  intro before value after
  rw [yields_readLayer_iff]
  constructor
  · intro stages
    obtain ⟨start, middle, yieldsFirst, yieldsLinks⟩ := stages
    obtain ⟨first, passesFirst, valuedFirst, behindFirst⟩ := (parts _ _ _).mp yieldsFirst
    obtain ⟨links, passesLinks, valuedLinks, ends⟩ :=
      layer.exists_links_of_yields parts behindFirst yieldsLinks
    exact ⟨(first, links), passesFirst.append passesLinks,
      Option.bind_eq_some_iff.mpr ⟨start, valuedFirst, valuedLinks⟩, ends⟩
  · intro derived
    obtain ⟨derivation, passes, valued, ends⟩ := derived
    obtain ⟨middle, passesFirst, passesLinks⟩ := exists_passes_of_append passes
    obtain ⟨start, valuedFirst, valuedLinks⟩ := Option.bind_eq_some_iff.mp valued
    have behindFirst := layer.ends_of_passes_links passesLinks ends
    exact ⟨start, middle, (parts _ _ _).mpr ⟨_, passesFirst, valuedFirst, behindFirst⟩,
      layer.yields_links parts passesLinks valuedLinks ends⟩

end Layer

theorem understood_product : Understood 3 readProduct Product.tokens Product.value? := by
  intro before value after
  apply (productLayer.understood understood_factor before value after).trans
  exact ⟨fun ⟨parts, derived⟩ => ⟨⟨parts.1, parts.2⟩, derived⟩,
    fun ⟨product, derived⟩ => ⟨(product.first, product.rest), derived⟩⟩

theorem understood_sum : Understood 2 readSum Sum.tokens Sum.value? := by
  intro before value after
  apply (sumLayer.understood understood_product before value after).trans
  exact ⟨fun ⟨parts, derived⟩ => ⟨⟨parts.1, parts.2⟩, derived⟩,
    fun ⟨sum, derived⟩ => ⟨(sum.first, sum.rest), derived⟩⟩

theorem understood_equality : Understood 1 readEquality Equality.tokens Equality.value? := by
  intro before value after
  apply (equalityLayer.understood understood_sum before value after).trans
  exact ⟨fun ⟨parts, derived⟩ => ⟨⟨parts.1, parts.2⟩, derived⟩,
    fun ⟨equality, derived⟩ => ⟨(equality.first, equality.rest), derived⟩⟩

/-! ## Failures -/

/-- The outcome is no other failure than that the tokens are malformed. -/
abbrev AtWorstMalformed {α : Type} : Except Failure α → Prop :=
  FailsOnlyWith (· = .malformed)

theorem computed_fails (result : Option Int64) : AtWorstMalformed (computed result) := by
  cases result with
  | none => exact failsOnlyWith_error rfl
  | some value => exact failsOnlyWith_ok value

theorem readFactor_fails (reader : Reader) : AtWorstMalformed (readFactor reader) := by
  fun_induction readFactor reader with
  | case1 reader later found inductionHypothesis =>
      exact inductionHypothesis.bind fun _ =>
        (computed_fails _).bind fun _ => failsOnlyWith_ok _
  | case2 reader later found inductionHypothesis =>
      exact inductionHypothesis.bind fun _ => failsOnlyWith_ok _
  | case3 reader number later found => exact failsOnlyWith_ok _
  | case4 => exact failsOnlyWith_error rfl

section Layers

variable {operators : Operators} {readPart : (reader : Reader) → Except Failure (Reading reader)}

theorem readLinks_fails
    (parts : ∀ reader, AtWorstMalformed (readPart reader))
    (value : Int64)
    (reader : Reader) :
    AtWorstMalformed (readLinks operators readPart value reader) := by
  fun_induction readLinks operators readPart value reader with
  | case1 => exact failsOnlyWith_ok _
  | case2 value reader operator found inductionHypothesis =>
      exact (parts reader.advance).bind fun right =>
        (computed_fails _).bind fun next =>
          (inductionHypothesis right next).bind fun _ => failsOnlyWith_ok _

theorem readLayer_fails
    (parts : ∀ reader, AtWorstMalformed (readPart reader))
    (reader : Reader) :
    AtWorstMalformed (readLayer operators readPart reader) :=
  (parts reader).bind fun first =>
    (readLinks_fails parts first.value first.after).bind fun _ => failsOnlyWith_ok _

end Layers

theorem readEquality_fails (reader : Reader) : AtWorstMalformed (readEquality reader) :=
  readLayer_fails
    (readLayer_fails (readLayer_fails readFactor_fails)) reader

/-! ## Acceptance -/

/-- What is read counts if it ends with the tokens. -/
theorem tokensValue_eq_bind (tokens : List Token) :
    tokensValue tokens = readEquality { tokens } >>= fun reading =>
      if reading.after.position = tokens.length then .ok reading.value else .error .malformed := by
  unfold tokensValue
  apply congrArg (readEquality { tokens } >>= ·)
  funext reading
  by_cases whole : reading.after.position = tokens.length
  · simp only [whole, ne_eq, not_true, if_false, if_true]
    rfl
  · simp only [whole, ne_eq, not_false_iff, if_false, if_true]
    rfl

theorem tokensValue_fails (tokens : List Token) : AtWorstMalformed (tokensValue tokens) := by
  rw [tokensValue_eq_bind]
  apply (readEquality_fails { tokens }).bind
  intro reading
  split
  · exact failsOnlyWith_ok reading.value
  · exact failsOnlyWith_error rfl

/-- A value is accepted where the reader gives it and has read everything. -/
theorem tokensValue_eq_ok_iff_yields {tokens : List Token} {value : Int64} :
    tokensValue tokens = .ok value ↔
      ∃ after, Yields (readEquality { tokens }) value after ∧ after.position = tokens.length := by
  rw [tokensValue_eq_bind, bind_eq_ok_iff]
  constructor
  · intro stages
    obtain ⟨reading, isReading, accepted⟩ := stages
    split at accepted
    next whole =>
      exact ⟨reading.after, ⟨reading, isReading, Except.ok.inj accepted, rfl⟩, whole⟩
    next => contradiction
  · intro stages
    obtain ⟨_, ⟨reading, isReading, rfl, rfl⟩, whole⟩ := stages
    exact ⟨reading, isReading, if_pos whole⟩

theorem tokensValue_eq_ok_iff {tokens : List Token} {value : Int64} :
    tokensValue tokens = .ok value ↔
      ∃ equality : Equality, equality.tokens = tokens ∧ equality.Value value.toInt := by
  rw [tokensValue_eq_ok_iff_yields]
  simp only [← (Computes.equality _).agrees, ← exists_passes_whole_iff]
  constructor
  · intro yielded
    obtain ⟨after, yields, whole⟩ := yielded
    obtain ⟨equality, passes, valued, _⟩ := (understood_equality _ _ _).mp yields
    exact ⟨equality, ⟨after, passes, whole⟩, valued⟩
  · intro derived
    obtain ⟨equality, ⟨after, passes, whole⟩, valued⟩ := derived
    have atEnd : after.peek? = none := by
      rw [Reader.peek?, (drop_of_passes passes).1, whole]
      exact List.getElem?_length tokens
    refine ⟨after, (understood_equality _ _ _).mpr ⟨equality, passes, valued, ?_⟩, whole⟩
    rw [atEnd]
    exact ends_none 1

theorem tokensValue_eq_error_iff {tokens : List Token} :
    tokensValue tokens = .error .malformed ↔ ∀ value, tokensValue tokens ≠ .ok value := by
  constructor
  · intro refused value accepted
    rw [refused] at accepted
    contradiction
  · intro noValue
    cases outcome : tokensValue tokens with
    | error failure => rw [tokensValue_fails tokens failure outcome]
    | ok value => exact absurd outcome (noValue value)

/-- The value of a list of tokens is that of the derivation which spells them. No other derivation
spells the same tokens, and a list that is spelled by none, or by one without a value, is
malformed. -/
theorem tokensValue_iff_unique_derivation (tokens : List Token) :
    (∀ value, tokensValue tokens = .ok value ↔
      ∃ equality : Equality, equality.tokens = tokens ∧ equality.Value value.toInt) ∧
    (∀ equality other : Equality,
      equality.tokens = tokens → other.tokens = tokens → equality = other) ∧
    (tokensValue tokens = .error .malformed ↔
      ¬∃ (equality : Equality) (value : Int), equality.tokens = tokens ∧ equality.Value value) := by
  refine ⟨fun value => tokensValue_eq_ok_iff, ?_, ?_⟩
  · intro equality other spelled otherSpelled
    exact Equality.tokens_injective (spelled.trans otherSpelled.symm)
  · rw [tokensValue_eq_error_iff]
    constructor
    · rintro refused ⟨equality, value, spelled, valued⟩
      -- A stated value fits a word, so it is one that the reader would have answered.
      obtain ⟨word, _, rfl⟩ := (Computes.equality equality).exists_word valued
      exact refused word (tokensValue_eq_ok_iff.mpr ⟨equality, spelled, valued⟩)
    · intro noValue word accepted
      obtain ⟨equality, spelled, valued⟩ := tokensValue_eq_ok_iff.mp accepted
      exact noValue ⟨equality, word.toInt, spelled, valued⟩

/-- `-2 - -3 * 4 == 10 == 1`: signs bind closer than products, products closer than sums, and the
second comparison is with the outcome of the first. -/
theorem tokensValue_iff_unique_derivation_nested :
    let tokens : List Token :=
      [.minus, .number 2, .minus, .minus, .number 3, .times, .number 4, .equals, .number 10,
        .equals, .number 1]
    tokensValue tokens = .ok 1 ∧
    ∃ equality : Equality, equality.tokens = tokens ∧ equality.Value 1 ∧
      ∀ other : Equality, other.tokens = tokens → other = equality := by
  intro tokens
  have accepted : tokensValue tokens = .ok 1 := by decide +kernel
  obtain ⟨values, unique, _⟩ := tokensValue_iff_unique_derivation tokens
  obtain ⟨equality, spelled, valued⟩ := (values 1).mp accepted
  exact ⟨accepted, equality, spelled, valued, fun other otherSpelled =>
    unique other equality otherSpelled spelled⟩

end CoreWar.Assertion
