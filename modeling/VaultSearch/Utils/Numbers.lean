/-
The floats of the language, as far as their values are looked at: what they are compared
with, cut off to, and which integers are too large to become one.
-/

import Mathlib.Data.Nat.Basic
import Mathlib.Tactic.NormNum

set_option autoImplicit false

namespace VaultSearch

/-- A binary64 number; the zeros are not told apart. -/
inductive PyFloat where
  | nan
  | infinite (negative : Bool)
  | finite (value : Rat)
  deriving DecidableEq

namespace PyFloat

/-- `first < second` -/
def lt : PyFloat → PyFloat → Bool
  | .nan, _ => false
  | _, .nan => false
  | .finite first, .finite second => first < second
  | .infinite negative, .infinite other => negative && !other
  | .infinite negative, .finite _ => negative
  | .finite _, .infinite negative => !negative

/-- An integer in a comparison, where nothing is rounded. -/
def exact (value : Int) : PyFloat :=
  .finite value

def isFinite : PyFloat → Bool
  | .finite _ => true
  | _ => false

/-- `int(value)` of a finite number. -/
def truncate (value : Rat) : Int :=
  if 0 ≤ value then value.floor else value.ceil

/-- The nearest number with a significand of 53 bits, ties to even. -/
def roundMagnitude (magnitude : Nat) : Nat :=
  let unit := 2 ^ (magnitude.log2 - 52)
  let below := magnitude / unit
  let rest := magnitude % unit
  (if unit < 2 * rest ∨ (2 * rest = unit ∧ below % 2 = 1) then below + 1 else below) * unit

/-- Every float is smaller than 2 to the power of this. -/
def maxExponent : Nat := 1024

/-- `float(value)` of an integer, or `none` for an `OverflowError`. -/
def ofInt (value : Int) : Option PyFloat :=
  let rounded := roundMagnitude value.natAbs
  if rounded < 2 ^ maxExponent then some (.finite (value.sign * rounded)) else none

/-! ### Overflow -/

/-- From here on integers are rounded beyond the largest float. -/
def overflowLimit : Nat :=
  2 ^ maxExponent - 2 ^ (maxExponent - 54)

theorem roundMagnitude_le {magnitude bits : Nat} (atLeast : 52 ≤ bits)
    (short : magnitude < 2 ^ bits) : roundMagnitude magnitude ≤ 2 ^ bits := by
  have shift : magnitude.log2 - 52 ≤ bits := by
    by_cases zero : magnitude = 0
    · rw [zero, Nat.log2_zero]
      omega
    · have log := (Nat.log2_lt zero).mpr short
      omega
  obtain ⟨units, whole⟩ := Nat.pow_dvd_pow 2 shift
  have positive : 0 < 2 ^ (magnitude.log2 - 52) := Nat.two_pow_pos _
  have below : magnitude / 2 ^ (magnitude.log2 - 52) < units := by
    rw [Nat.div_lt_iff_lt_mul positive, Nat.mul_comm, ← whole]
    exact short
  unfold roundMagnitude
  dsimp only
  rw [whole, Nat.mul_comm (2 ^ _) units]
  apply Nat.mul_le_mul_right
  split
  · exact below
  · exact Nat.le_of_lt below

theorem le_roundMagnitude {magnitude bits : Nat} (atLeast : 52 ≤ bits)
    (long : 2 ^ bits ≤ magnitude) : 2 ^ bits ≤ roundMagnitude magnitude := by
  have filled : magnitude ≠ 0 := by
    have positive := Nat.two_pow_pos bits
    omega
  have log : bits ≤ magnitude.log2 := (Nat.le_log2 filled).mpr long
  have positive : 0 < 2 ^ (magnitude.log2 - 52) := Nat.two_pow_pos _
  have whole : 2 ^ magnitude.log2 = 2 ^ 52 * 2 ^ (magnitude.log2 - 52) := by
    rw [← Nat.pow_add]
    congr 1
    omega
  have below : 2 ^ 52 ≤ magnitude / 2 ^ (magnitude.log2 - 52) := by
    rw [Nat.le_div_iff_mul_le positive, ← whole]
    exact Nat.log2_self_le filled
  calc 2 ^ bits ≤ 2 ^ magnitude.log2 := Nat.pow_le_pow_right (by omega) log
    _ = 2 ^ 52 * 2 ^ (magnitude.log2 - 52) := whole
    _ ≤ roundMagnitude magnitude := by
        unfold roundMagnitude
        dsimp only
        apply Nat.mul_le_mul_right
        split
        · exact Nat.le_succ_of_le below
        · exact below

/-- A significand of 53 bits overflows exactly if it is rounded up from all ones. -/
theorem round_lt_iff {half below rest : Nat} (positive : 0 < half) (inside : rest < 2 * half)
    (short : below < 2 ^ 53) :
    (if 2 * half < 2 * rest ∨ (2 * rest = 2 * half ∧ below % 2 = 1) then below + 1 else below) *
        (2 * half) < 2 ^ 53 * (2 * half) ↔
      below * (2 * half) + rest < 2 ^ 53 * (2 * half) - half := by
  rw [Nat.mul_lt_mul_right (by omega : 0 < 2 * half)]
  by_cases full : below = 2 ^ 53 - 1
  · rw [full]
    split
    · omega
    · omega
  · have room : (below + 1 + 1) * (2 * half) ≤ 2 ^ 53 * (2 * half) :=
      Nat.mul_le_mul_right _ (by omega)
    rw [Nat.add_mul, Nat.add_mul, Nat.one_mul] at room
    split
    · omega
    · omega

theorem roundMagnitude_lt_iff {bits : Nat} (atLeast : 54 ≤ bits) (magnitude : Nat) :
    roundMagnitude magnitude < 2 ^ bits ↔ magnitude < 2 ^ bits - 2 ^ (bits - 54) := by
  have positive : 0 < 2 ^ (bits - 54) := Nat.two_pow_pos _
  have double : 2 ^ (bits - 53) = 2 * 2 ^ (bits - 54) := by
    rw [← Nat.pow_succ']
    congr 1
    omega
  have whole : 2 ^ bits = 2 ^ 53 * (2 * 2 ^ (bits - 54)) := by
    rw [← double, ← Nat.pow_add]
    congr 1
    omega
  have lower : 2 ^ (bits - 1) = 2 ^ 52 * (2 * 2 ^ (bits - 54)) := by
    rw [← double, ← Nat.pow_add]
    congr 1
    omega
  by_cases short : magnitude < 2 ^ (bits - 1)
  · have rounded := roundMagnitude_le (by omega) short
    constructor
    · intro _small
      omega
    · intro _small
      omega
  · by_cases long : 2 ^ bits ≤ magnitude
    · have rounded := le_roundMagnitude (by omega) long
      constructor
      · intro small
        exact absurd small (Nat.not_lt.mpr rounded)
      · intro small
        exact absurd (Nat.lt_of_lt_of_le small (Nat.sub_le _ _)) (Nat.not_lt.mpr long)
    · have filled : magnitude ≠ 0 := by
        intro zero
        rw [zero] at short
        exact short (Nat.two_pow_pos _)
      have log : magnitude.log2 = bits - 1 := by
        have most := (Nat.le_log2 filled).mpr (Nat.not_lt.mp short)
        have least := (Nat.log2_lt filled).mpr (Nat.not_le.mp long)
        omega
      have unit : 2 ^ (magnitude.log2 - 52) = 2 * 2 ^ (bits - 54) := by
        rw [log, ← double]
        congr 1
      have inside := Nat.mod_lt magnitude (by omega : 0 < 2 * 2 ^ (bits - 54))
      have split := Nat.div_add_mod magnitude (2 * 2 ^ (bits - 54))
      have significand : magnitude / (2 * 2 ^ (bits - 54)) < 2 ^ 53 := by
        rw [Nat.div_lt_iff_lt_mul (by omega), ← whole]
        exact Nat.not_le.mp long
      have exact := round_lt_iff positive inside significand
      unfold roundMagnitude
      dsimp only
      rw [unit, whole, exact, Nat.mul_comm _ (2 * 2 ^ (bits - 54)), split]

theorem ofInt_eq_none (value : Int) : ofInt value = none ↔ overflowLimit ≤ value.natAbs := by
  unfold ofInt
  dsimp only
  split
  case isTrue small =>
    constructor
    · intro impossible
      cases impossible
    · intro large
      exact absurd ((roundMagnitude_lt_iff (by decide) _).mp small) (Nat.not_lt.mpr large)
  case isFalse large =>
    constructor
    · intro _none
      exact Nat.not_lt.mp (fun small => large ((roundMagnitude_lt_iff (by decide) _).mpr small))
    · intro _large
      rfl

theorem ofInt_whole {value : Int} {number : PyFloat} (converted : ofInt value = some number) :
    ∃ whole : Int, number = .finite whole := by
  unfold ofInt at converted
  dsimp only at converted
  split at converted
  · refine ⟨value.sign * roundMagnitude value.natAbs, ?_⟩
    rw [← Option.some.inj converted]
    push_cast
    rfl
  · cases converted

-- the powers are not to be evaluated
attribute [irreducible] ofInt overflowLimit

end PyFloat

end VaultSearch
