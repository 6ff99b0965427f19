import CoreWar.Assertion.Token

/-!
Contract: reading an expression and computing its value.

The grammar, loosest binding first:

    equality := sum ("==" sum)*
    sum      := product (("+" | "-") product)*
    product  := factor (("*" | "%") factor)*
    factor   := ("-" | "+")* number

Owns:
- the reader: the tokens and the position of the next one;
- a function for each layer of the grammar, which computes the value while it reads;
- the truth value of an assertion.

Does not own: the vocabulary, see `CoreWar.Assertion.Token`; the derivations of the grammar and what
they are worth, see `CoreWar.Proofs.Assertion.Derivation`.

The layers share the position. Each one stops in front of the first token that it cannot use, and
only at the end it is asked whether all tokens were read.
-/

namespace CoreWar.Assertion

/-! ## The reader -/

/-- The tokens of an expression, and the position of the next one to read. -/
structure Reader where
  tokens : List Token
  position : Nat := 0
deriving DecidableEq, Repr

namespace Reader

/-- The next token, which stays where it is. -/
def peek? (reader : Reader) : Option Token :=
  reader.tokens[reader.position]?

def advance (reader : Reader) : Reader :=
  { reader with position := reader.position + 1 }

/-- The next token, and the reader behind it. The position moves on even if there is no token. -/
def next (reader : Reader) : Option Token × Reader :=
  (reader.peek?, reader.advance)

/-- How many tokens there are still to read. -/
def remaining (reader : Reader) : Nat :=
  reader.tokens.length - reader.position

theorem remaining_advance_lt
    {reader : Reader}
    {token : Token}
    (found : reader.peek? = some token) :
    reader.advance.remaining < reader.remaining := by
  have inside : reader.position < reader.tokens.length :=
    (List.getElem?_eq_some_iff.mp found).1
  show reader.tokens.length - (reader.position + 1) < reader.tokens.length - reader.position
  omega

theorem remaining_lt_of_next
    {reader later : Reader}
    {token : Token}
    (found : reader.next = (some token, later)) :
    later.remaining < reader.remaining := by
  have parts := Prod.mk.inj found
  rw [← parts.2]
  exact remaining_advance_lt parts.1

theorem remaining_advance_lt_of_bind
    {reader : Reader}
    {Choice : Type}
    {choose? : Token → Option Choice}
    {chosen : Choice}
    (found : reader.peek?.bind choose? = some chosen) :
    reader.advance.remaining < reader.remaining := by
  obtain ⟨_, peeked, _⟩ := Option.bind_eq_some_iff.mp found
  exact remaining_advance_lt peeked

end Reader

/-- A value that was read, and the reader behind it. -/
structure Reading (before : Reader) where
  value : Int64
  after : Reader
  remaining_le : after.remaining ≤ before.remaining

/-- What was read from a later position on was read from here. -/
def Reading.since
    {before later : Reader}
    (reading : Reading later)
    (notBack : later.remaining ≤ before.remaining) :
    Reading before where
  value := reading.value
  after := reading.after
  remaining_le := Nat.le_trans reading.remaining_le notBack

/-! ## The layers -/

/-- A value that cannot be computed makes the expression malformed. -/
def computed : Option Int64 → Except Failure Int64
  | some value => .ok value
  | none => .error .malformed

/-- The sign nearest to the number applies first. -/
def readFactor (reader : Reader) : Except Failure (Reading reader) :=
  match found : reader.next with
  | (some .minus, later) => do
    let inner ← readFactor later
    let value ← computed (Word.neg? inner.value)
    return ⟨value, inner.after,
      Nat.le_trans inner.remaining_le (Nat.le_of_lt (Reader.remaining_lt_of_next found))⟩
  | (some .plus, later) => do
    let inner ← readFactor later
    return inner.since (Nat.le_of_lt (Reader.remaining_lt_of_next found))
  | (some (.number number), later) =>
    .ok ⟨number, later, Nat.le_of_lt (Reader.remaining_lt_of_next found)⟩
  | _ => .error .malformed
termination_by reader.remaining
decreasing_by all_goals exact Reader.remaining_lt_of_next found

/-- The tokens that join the parts of a layer, with what they compute. -/
abbrev Operators := Token → Option (Int64 → Int64 → Option Int64)

/-- Reads on while an operator of the layer comes next, each with the part behind it. -/
def readLinks
    (operators : Operators)
    (readPart : (reader : Reader) → Except Failure (Reading reader))
    (value : Int64)
    (reader : Reader) :
    Except Failure (Reading reader) :=
  match found : reader.peek?.bind operators with
  | none => .ok ⟨value, reader, Nat.le_refl _⟩
  | some operator => do
    let right ← readPart reader.advance
    let next ← computed (operator value right.value)
    let last ← readLinks operators readPart next right.after
    return last.since (Nat.le_trans right.remaining_le
      (Nat.le_of_lt (Reader.remaining_advance_lt_of_bind found)))
termination_by reader.remaining
decreasing_by
  exact Nat.lt_of_le_of_lt right.remaining_le (Reader.remaining_advance_lt_of_bind found)

/-- A first part and the links behind it, from left to right. -/
def readLayer
    (operators : Operators)
    (readPart : (reader : Reader) → Except Failure (Reading reader))
    (reader : Reader) :
    Except Failure (Reading reader) := do
  let first ← readPart reader
  let last ← readLinks operators readPart first.value first.after
  return last.since first.remaining_le

def productOperators : Operators
  | .times => some Word.mul?
  | .percent => some Word.rem?
  | _ => none

def readProduct : (reader : Reader) → Except Failure (Reading reader) :=
  readLayer productOperators readFactor

def sumOperators : Operators
  | .plus => some Word.add?
  | .minus => some Word.sub?
  | _ => none

def readSum : (reader : Reader) → Except Failure (Reading reader) :=
  readLayer sumOperators readProduct

/-- A comparison is 1 or 0, and may be compared again. -/
def equalityOperators : Operators
  | .equals => some fun left right => some (if left = right then 1 else 0)
  | _ => none

def readEquality : (reader : Reader) → Except Failure (Reading reader) :=
  readLayer equalityOperators readSum

/-! ## Assertions -/

/-- The value of a list of tokens that are an expression, all of them. -/
def tokensValue (tokens : List Token) : Except Failure Int64 := do
  let reading ← readEquality { tokens }
  if reading.after.position ≠ tokens.length then
    throw .malformed
  return reading.value

/-- Whether an assertion holds under the limits: its value is not zero. -/
def holds (limits : Limits) (text : String) : Except Failure Bool := do
  let tokens ← Token.scan limits text.toList
  let value ← tokensValue tokens
  return value != 0

end CoreWar.Assertion
