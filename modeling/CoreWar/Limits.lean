import CoreWar.Text.Decimal

/-!
Contract: the limits of a match.

Owns:
- the four limits and their defaults;
- the check that a match can be played under them, and its complaints.

Does not own: the JSON form of the limits, see `CoreWar.Codec.Limits`.
-/

namespace CoreWar

/-- The limits of one match. -/
structure Limits where
  /-- Cells of the core. -/
  coreSize : UInt64 := 8192
  /-- Rounds until the match is a tie. -/
  maxCycles : UInt64 := 65536
  /-- A warrior has fewer instructions than this. -/
  maxLength : UInt64 := 256
  /-- Threads of one warrior; a fork beyond them is dropped. -/
  maxTasks : UInt64 := 16
deriving DecidableEq, Repr, Inhabited

/-- Why no match can be played under the given limits. -/
inductive LimitsError where
  | noCore
  | noCycles
  | noTasks
  | lengthExceedsCore (maxLength coreSize : UInt64)
deriving DecidableEq, Repr

/-- The complaint, without its heading. -/
def LimitsError.reason : LimitsError → String
  | noCore => "core_size must be positive"
  | noCycles => "max_cycles must be positive"
  | noTasks => "max_tasks must be positive"
  | lengthExceedsCore maxLength coreSize =>
    "max_length (" ++ String.ofList (Text.decimal maxLength.toNat) ++
      ") must be smaller than core_size (" ++ String.ofList (Text.decimal coreSize.toNat) ++ ")"

def LimitsError.message (error : LimitsError) : String :=
  "invalid configuration: " ++ error.reason

namespace Limits

/-- A match can be played: there is a core, a round and a thread, and the core is larger than any
warrior. -/
def Playable (limits : Limits) : Prop :=
  limits.coreSize ≠ 0 ∧ limits.maxCycles ≠ 0 ∧ limits.maxTasks ≠ 0 ∧
    limits.maxLength < limits.coreSize

instance (limits : Limits) : Decidable limits.Playable := by
  unfold Playable
  infer_instance

theorem Playable.toNat_coreSize_pos {limits : Limits} (playable : limits.Playable) :
    0 < limits.coreSize.toNat :=
  UInt64.lt_iff_toNat_lt.mp (UInt64.pos_iff_ne_zero.mpr playable.1)

theorem Playable.toNat_maxLength_lt {limits : Limits} (playable : limits.Playable) :
    limits.maxLength.toNat < limits.coreSize.toNat :=
  UInt64.lt_iff_toNat_lt.mp playable.2.2.2

/-- Checks the limits; of several faults the first in the order of the complaints is named. -/
def check (limits : Limits) : Except LimitsError Unit :=
  if limits.coreSize = 0 then
    .error .noCore
  else if limits.maxCycles = 0 then
    .error .noCycles
  else if limits.maxTasks = 0 then
    .error .noTasks
  else if limits.coreSize ≤ limits.maxLength then
    .error (.lengthExceedsCore limits.maxLength limits.coreSize)
  else
    .ok ()

/-- The check accepts exactly the limits that can be played. -/
theorem check_eq_ok_iff (limits : Limits) : limits.check = .ok () ↔ limits.Playable := by
  unfold check Playable
  by_cases noCore : limits.coreSize = 0
  · simp [noCore]
  by_cases noCycles : limits.maxCycles = 0
  · simp [noCore, noCycles]
  by_cases noTasks : limits.maxTasks = 0
  · simp [noCore, noCycles, noTasks]
  by_cases tooLong : limits.coreSize ≤ limits.maxLength
  · simp [noCore, noCycles, noTasks, tooLong]
  · simp [noCore, noCycles, noTasks, tooLong, UInt64.not_le.mp tooLong]

/-- The check complains about all others. -/
theorem exists_check_eq_error {limits : Limits} (unplayable : ¬limits.Playable) :
    ∃ error, limits.check = .error error := by
  cases checked : limits.check with
  | ok accepted => exact absurd (limits.check_eq_ok_iff.mp checked) unplayable
  | error error => exact ⟨error, rfl⟩

end Limits

end CoreWar
