/-!
Contract: outcomes that may be errors, through stages in a row.

Owns:
- stages in a row succeed when all of them do;
- outcomes whose errors are all of one kind, and which stage an error comes from.

Does not own: the stages themselves.
-/

namespace CoreWar

/-- A sequence of two stages succeeds when both do. -/
theorem bind_eq_ok_iff
    {ε α β : Type}
    {first : Except ε α}
    {second : α → Except ε β}
    {result : β} :
    (first >>= second) = .ok result ↔ ∃ value, first = .ok value ∧ second value = .ok result := by
  cases first with
  | error error => simp [bind, Except.bind]
  | ok value => simp [bind, Except.bind]

/-- An error of the outcome, if it is one, has the property. -/
def FailsOnlyWith {ε α : Type} (property : ε → Prop) (outcome : Except ε α) : Prop :=
  ∀ error, outcome = .error error → property error

variable {ε α β : Type} {property other : ε → Prop}

theorem failsOnlyWith_ok (value : α) : FailsOnlyWith property (.ok value) := by
  intro error failed
  contradiction

theorem failsOnlyWith_error {error : ε} (holds : property error) :
    FailsOnlyWith property (.error error : Except ε α) := by
  intro same failed
  rw [← Except.error.inj failed]
  exact holds

theorem FailsOnlyWith.mono
    {outcome : Except ε α}
    (fails : FailsOnlyWith property outcome)
    (weaker : ∀ error, property error → other error) :
    FailsOnlyWith other outcome :=
  fun error failed => weaker error (fails error failed)

theorem FailsOnlyWith.bind
    {first : Except ε α}
    {second : α → Except ε β}
    (firstFails : FailsOnlyWith property first)
    (secondFails : ∀ value, FailsOnlyWith property (second value)) :
    FailsOnlyWith property (first >>= second) := by
  cases first with
  | error error => exact failsOnlyWith_error (firstFails error rfl)
  | ok value => exact secondFails value

/-- An error that the second stage cannot give is an error of the first. -/
theorem FailsOnlyWith.error_of_bind
    {first : Except ε α}
    {second : α → Except ε β}
    {error : ε}
    (secondFails : ∀ value, FailsOnlyWith property (second value))
    (failed : (first >>= second) = .error error)
    (notSecond : ¬property error) :
    first = .error error := by
  cases first with
  | error other => exact congrArg _ (Except.error.inj failed)
  | ok value => exact absurd (secondFails value error failed) notSecond

/-- An error that the first stage cannot give is an error of the second. -/
theorem FailsOnlyWith.exists_ok_of_bind
    {first : Except ε α}
    {second : α → Except ε β}
    {error : ε}
    (firstFails : FailsOnlyWith property first)
    (failed : (first >>= second) = .error error)
    (notFirst : ¬property error) :
    ∃ value, first = .ok value ∧ second value = .error error := by
  cases first with
  | error other => exact absurd (firstFails error (congrArg _ (Except.error.inj failed))) notFirst
  | ok value => exact ⟨value, rfl, failed⟩

theorem FailsOnlyWith.mapM
    {stage : α → Except ε β}
    (fails : ∀ item, FailsOnlyWith property (stage item))
    (items : List α) :
    FailsOnlyWith property (items.mapM stage) := by
  induction items with
  | nil => exact failsOnlyWith_ok []
  | cons item rest inductionHypothesis =>
      rw [List.mapM_cons]
      exact (fails item).bind fun _ => inductionHypothesis.bind fun _ => failsOnlyWith_ok _

theorem FailsOnlyWith.mapM_option
    {stage : α → Except ε β}
    (fails : ∀ item, FailsOnlyWith property (stage item))
    (item : Option α) :
    FailsOnlyWith property (item.mapM stage) := by
  cases item with
  | none => exact failsOnlyWith_ok none
  | some item =>
      rw [Option.mapM_some, map_eq_pure_bind]
      exact (fails item).bind fun _ => failsOnlyWith_ok _

end CoreWar
