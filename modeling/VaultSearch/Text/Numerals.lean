/-
Numbers in decimal digits, and how texts of such numbers are ordered.

Texts are ordered by code points.  Two numbers that are written with the same number of digits
are ordered as the numbers are; a number that is written with fewer digits is ordered by the
digits it has and by what stands behind them.
-/

import Mathlib.Tactic.Ring
import VaultSearch.Text.Basic

set_option autoImplicit false

namespace VaultSearch.Text

/-! ### Digits -/

/-- A digit between 0 and 9 as a character. -/
def digitChar (digit : Nat) : Char :=
  Char.ofNat (48 + digit)

def digitValue (char : Char) : Nat :=
  char.toNat - 48

/-- A number in a fixed number of digits. -/
def padded : Nat → Nat → Text
  | 0, _ => []
  | width + 1, number => digitChar (number / 10 ^ width) :: padded width (number % 10 ^ width)

/-- The number in a text of digits. -/
def numeral (text : Text) : Nat :=
  text.foldl (fun number char => 10 * number + digitValue char) 0

/-- A text begins with that many digits. -/
def startsFull : Nat → Text → Bool
  | 0, _ => true
  | _ + 1, [] => false
  | width + 1, char :: rest => char.isDigit && startsFull width rest

/-- The least number that comes behind a text when it is written in that many digits. -/
def leastBehind : Nat → Text → Nat
  | 0, _ => 0
  | _ + 1, [] => 0
  | width + 1, char :: rest =>
      if char.isDigit then digitValue char * 10 ^ width + leastBehind width rest
      else if char < '0' then 0 else 10 ^ (width + 1)

theorem toNat_digitChar {digit : Nat} (small : digit < 10) :
    (digitChar digit).toNat = 48 + digit := by
  have each : ∀ one : Fin 10, (digitChar one).toNat = 48 + one := by decide
  exact each ⟨digit, small⟩

theorem isDigit_iff (char : Char) : char.isDigit = true ↔ 48 ≤ char.toNat ∧ char.toNat ≤ 57 := by
  unfold Char.isDigit
  rw [Bool.and_eq_true, decide_eq_true_iff, decide_eq_true_iff]
  exact Iff.rfl

theorem char_lt_iff (first second : Char) : first < second ↔ first.toNat < second.toNat :=
  Iff.rfl

theorem isDigit_digitChar {digit : Nat} (small : digit < 10) :
    (digitChar digit).isDigit = true := by
  rw [isDigit_iff, toNat_digitChar small]
  omega

theorem digitValue_digitChar {digit : Nat} (small : digit < 10) :
    digitValue (digitChar digit) = digit := by
  unfold digitValue
  rw [toNat_digitChar small]
  omega

theorem digitValue_lt {char : Char} (isDigit : char.isDigit = true) : digitValue char < 10 := by
  rw [isDigit_iff] at isDigit
  unfold digitValue
  omega

theorem digitChar_digitValue {char : Char} (isDigit : char.isDigit = true) :
    digitChar (digitValue char) = char := by
  apply Char.toNat_inj.mp
  rw [toNat_digitChar (digitValue_lt isDigit)]
  rw [isDigit_iff] at isDigit
  unfold digitValue
  omega

theorem digitChar_lt_iff {first second : Nat} (left : first < 10) (right : second < 10) :
    digitChar first < digitChar second ↔ first < second := by
  rw [char_lt_iff, toNat_digitChar left, toNat_digitChar right]
  omega

theorem digitChar_inj {first second : Nat} (left : first < 10) (right : second < 10) :
    digitChar first = digitChar second ↔ first = second := by
  constructor
  · intro same
    have values := congrArg digitValue same
    rwa [digitValue_digitChar left, digitValue_digitChar right] at values
  · intro same
    rw [same]

@[simp] theorem length_padded (width number : Nat) : (padded width number).length = width := by
  induction width generalizing number with
  | zero => rfl
  | succ width ih => rw [padded, List.length_cons, ih]

theorem leading_lt {width number : Nat} (short : number < 10 ^ (width + 1)) :
    number / 10 ^ width < 10 := by
  rw [Nat.div_lt_iff_lt_mul (Nat.pow_pos (by decide)), Nat.mul_comm, ← Nat.pow_succ]
  exact short

/-! ### Order -/

/-- Numbers by their first digit and what is left of them. -/
theorem lt_iff_leading (unit first second : Nat) (positive : 0 < unit) :
    first < second ↔ first / unit < second / unit ∨
      first / unit = second / unit ∧ first % unit < second % unit := by
  have left := Nat.div_add_mod first unit
  have right := Nat.div_add_mod second unit
  have leftRest := Nat.mod_lt first positive
  have rightRest := Nat.mod_lt second positive
  constructor
  · intro less
    rcases Nat.lt_trichotomy (first / unit) (second / unit) with below | same | above
    · exact Or.inl below
    · rw [same] at left
      exact Or.inr ⟨same, by omega⟩
    · have gap : unit * (second / unit + 1) ≤ unit * (first / unit) :=
        Nat.mul_le_mul_left unit above
      rw [Nat.mul_add, Nat.mul_one] at gap
      omega
  · intro cases
    cases cases with
    | inl below =>
        have gap : unit * (first / unit + 1) ≤ unit * (second / unit) :=
          Nat.mul_le_mul_left unit below
        rw [Nat.mul_add, Nat.mul_one] at gap
        omega
    | inr same =>
        rw [same.1] at left
        omega

theorem eq_iff_leading (unit first second : Nat) :
    first = second ↔ first / unit = second / unit ∧ first % unit = second % unit := by
  constructor
  · intro same
    rw [same]
    exact ⟨rfl, rfl⟩
  · intro parts
    rw [← Nat.div_add_mod first unit, ← Nat.div_add_mod second unit, parts.1, parts.2]

/-- Numbers in the same number of digits are ordered as numbers, then by what follows them. -/
theorem padded_lt_padded {width first second : Nat} (left : first < 10 ^ width)
    (right : second < 10 ^ width) (front back : Text) :
    padded width first ++ front < padded width second ++ back ↔
      first < second ∨ first = second ∧ front < back := by
  induction width generalizing first second with
  | zero =>
      rw [Nat.pow_zero] at left right
      have zeros : first = 0 ∧ second = 0 := by omega
      simp [zeros, padded]
  | succ width ih =>
      have positive : 0 < 10 ^ width := Nat.pow_pos (by decide)
      rw [padded, padded, List.cons_append, List.cons_append, List.cons_lt_cons_iff,
        digitChar_lt_iff (leading_lt left) (leading_lt right),
        digitChar_inj (leading_lt left) (leading_lt right),
        ih (Nat.mod_lt first positive) (Nat.mod_lt second positive),
        lt_iff_leading (10 ^ width) first second positive, eq_iff_leading (10 ^ width) first second]
      constructor
      · rintro (below | ⟨same, below | ⟨sameRest, later⟩⟩)
        · exact Or.inl (Or.inl below)
        · exact Or.inl (Or.inr ⟨same, below⟩)
        · exact Or.inr ⟨⟨same, sameRest⟩, later⟩
      · rintro ((below | ⟨same, below⟩) | ⟨⟨same, sameRest⟩, later⟩)
        · exact Or.inl below
        · exact Or.inr ⟨same, Or.inl below⟩
        · exact Or.inr ⟨same, Or.inr ⟨sameRest, later⟩⟩

/-! ### Numbers that are written in full -/

theorem numeral_snoc (text : Text) (char : Char) :
    numeral (text ++ [char]) = 10 * numeral text + digitValue char := by
  unfold numeral
  rw [List.foldl_append]
  rfl

theorem numeral_cons (char : Char) (text : Text) :
    numeral (char :: text) = digitValue char * 10 ^ text.length + numeral text := by
  induction text using List.reverseRecOn with
  | nil => simp [numeral]
  | append_singleton text last ih =>
      rw [← List.cons_append, numeral_snoc, numeral_snoc, ih, List.length_append,
        List.length_singleton, Nat.pow_succ]
      ring

theorem startsFull_cons (width : Nat) (char : Char) (rest : Text) :
    startsFull (width + 1) (char :: rest) = true ↔
      char.isDigit = true ∧ startsFull width rest = true := by
  rw [startsFull, Bool.and_eq_true]

/-- What a text begins with is a number in full. -/
theorem startsFull_split {width : Nat} {text : Text} (full : startsFull width text = true) :
    numeral (text.take width) < 10 ^ width ∧
      text = padded width (numeral (text.take width)) ++ text.drop width := by
  induction width generalizing text with
  | zero => simp [numeral, padded]
  | succ width ih =>
      cases text with
      | nil => cases full
      | cons char rest =>
          obtain ⟨isDigit, later⟩ := (startsFull_cons width char rest).mp full
          obtain ⟨small, whole⟩ := ih later
          have count : (rest.take width).length = width := by
            have lengths := congrArg List.length whole
            rw [List.length_append, length_padded, List.length_drop] at lengths
            rw [List.length_take]
            omega
          have value : numeral ((char :: rest).take (width + 1)) =
              digitValue char * 10 ^ width + numeral (rest.take width) := by
            rw [List.take_succ_cons, numeral_cons, count]
          have leading : (digitValue char * 10 ^ width + numeral (rest.take width)) / 10 ^ width =
              digitValue char := by
            rw [Nat.mul_comm, Nat.mul_add_div (Nat.pow_pos (by decide)), Nat.div_eq_of_lt small,
              Nat.add_zero]
          have remaining : (digitValue char * 10 ^ width + numeral (rest.take width)) %
              10 ^ width = numeral (rest.take width) := by
            rw [Nat.mul_comm, Nat.mul_add_mod, Nat.mod_eq_of_lt small]
          constructor
          · have tenfold : (digitValue char + 1) * 10 ^ width ≤ 10 * 10 ^ width :=
              Nat.mul_le_mul_right _ (digitValue_lt isDigit)
            rw [value, Nat.pow_succ]
            rw [Nat.add_mul, Nat.one_mul] at tenfold
            omega
          · rw [value, padded, leading, remaining, digitChar_digitValue isDigit,
              List.drop_succ_cons, List.cons_append, ← whole]

theorem startsFull_length {width : Nat} {text : Text} (full : startsFull width text = true) :
    width ≤ text.length := by
  have lengths := congrArg List.length (startsFull_split full).2
  rw [List.length_append, length_padded] at lengths
  omega

/-! ### Numbers that are not -/

theorem lt_digit_of_not {char : Char} (other : ¬char.isDigit = true) (digit : Nat)
    (small : digit < 10) : (char < digitChar digit ↔ char < '0') ∧ char ≠ digitChar digit := by
  have zero : ('0' : Char).toNat = 48 := rfl
  rw [isDigit_iff] at other
  constructor
  · rw [char_lt_iff, char_lt_iff, toNat_digitChar small, zero]
    omega
  · intro same
    rw [same, toNat_digitChar small] at other
    omega

theorem leastBehind_le (width : Nat) (text : Text) : leastBehind width text ≤ 10 ^ width := by
  induction width generalizing text with
  | zero => exact Nat.zero_le _
  | succ width ih =>
      cases text with
      | nil => exact Nat.zero_le _
      | cons char rest =>
          rw [leastBehind]
          split
          case isTrue isDigit =>
            have tenfold : (digitValue char + 1) * 10 ^ width ≤ 10 * 10 ^ width :=
              Nat.mul_le_mul_right _ (digitValue_lt isDigit)
            have inside := ih rest
            rw [Nat.add_mul, Nat.one_mul] at tenfold
            rw [Nat.pow_succ]
            omega
          case isFalse =>
            split
            · exact Nat.zero_le _
            · exact Nat.le_refl _

/-- Reaching a number by its first digit and what is left of it. -/
theorem leading_le_iff {unit digit least leading rest : Nat} (inside : rest < unit)
    (bounded : least ≤ unit) :
    digit < leading ∨ digit = leading ∧ least ≤ rest ↔
      digit * unit + least ≤ leading * unit + rest := by
  constructor
  · rintro (below | ⟨same, reached⟩)
    · have gap : (digit + 1) * unit ≤ leading * unit := Nat.mul_le_mul_right unit below
      rw [Nat.add_mul, Nat.one_mul] at gap
      omega
    · rw [same]
      omega
  · intro reached
    rcases Nat.lt_trichotomy digit leading with below | same | above
    · exact Or.inl below
    · rw [same] at reached
      exact Or.inr ⟨same, by omega⟩
    · have gap : (leading + 1) * unit ≤ digit * unit := Nat.mul_le_mul_right unit above
      rw [Nat.add_mul, Nat.one_mul] at gap
      omega

/-- A text that does not begin with a number in full comes before the numbers from the least one
behind it on, whatever follows them. -/
theorem short_lt_padded {width number : Nat} {text : Text}
    (short : startsFull width text = false) (bounded : number < 10 ^ width) (rest : Text) :
    (text < padded width number ++ rest ↔ leastBehind width text ≤ number) ∧
      text ≠ padded width number ++ rest := by
  induction width generalizing number text with
  | zero => cases short
  | succ width ih =>
      rw [padded, List.cons_append]
      cases text with
      | nil =>
          constructor
          · simp [leastBehind]
          · exact (List.cons_ne_nil _ _).symm
      | cons char later =>
          have small := leading_lt bounded
          have inside := Nat.mod_lt number (Nat.pow_pos (by decide) : 0 < 10 ^ width)
          rw [List.cons_lt_cons_iff, leastBehind]
          by_cases isDigit : char.isDigit = true
          · have laterShort : startsFull width later = false := by
              rw [startsFull, isDigit, Bool.true_and] at short
              exact short
            have later_iff := ih laterShort inside
            have first : char < digitChar (number / 10 ^ width) ↔
                digitValue char < number / 10 ^ width := by
              rw [← digitChar_digitValue isDigit, digitChar_lt_iff (digitValue_lt isDigit) small,
                digitValue_digitChar (digitValue_lt isDigit)]
            have same : char = digitChar (number / 10 ^ width) ↔
                digitValue char = number / 10 ^ width := by
              rw [← digitChar_digitValue isDigit, digitChar_inj (digitValue_lt isDigit) small,
                digitValue_digitChar (digitValue_lt isDigit)]
            rw [if_pos isDigit, first, same, later_iff.1]
            constructor
            · exact (leading_le_iff inside (leastBehind_le width later)).trans
                (by rw [Nat.div_add_mod'])
            · intro equal
              rw [List.cons.injEq] at equal
              exact later_iff.2 equal.2
          · have compared := lt_digit_of_not isDigit (number / 10 ^ width) small
            rw [if_neg isDigit, compared.1]
            constructor
            · by_cases below : char < '0'
              · simp [below]
              · rw [if_neg below]
                constructor
                · rintro (impossible | same)
                  · exact absurd impossible below
                  · exact absurd same.1 compared.2
                · intro atMost
                  omega
            · intro equal
              rw [List.cons.injEq] at equal
              exact compared.2 equal.1

/-! ### Fields -/

/-- Each field: the character in front of it and its number of digits. -/
abbrev Layout := List (Char × Nat)

/-- Numbers in the fields of a layout, and a text behind them. -/
def stamp : Layout → List Nat → Text → Text
  | (separator, width) :: layout, number :: numbers, tail =>
      separator :: (padded width number ++ stamp layout numbers tail)
  | _, _, tail => tail

/-- The numbers a text stands for among the stamps of a layout: its fields up to the first that
is not written in full, and for that one the least number behind it. -/
def standsFor : Layout → Text → List Nat
  | (_, width) :: layout, _ :: text =>
      if startsFull width text then
        numeral (text.take width) :: standsFor layout (text.drop width)
      else [leastBehind width text]
  | _, _ => []

/-- Every field of the layout is written in full. -/
def complete : Layout → Text → Bool
  | (_, width) :: layout, _ :: text =>
      startsFull width text && complete layout (text.drop width)
  | [], _ => true
  | _ :: _, [] => false

/-- As far as the fields are written in full, the separators stand where they belong, and
nothing follows the last field. -/
def Separated : Layout → Text → Prop
  | (separator, width) :: layout, char :: text =>
      char = separator ∧ (startsFull width text = true → Separated layout (text.drop width))
  | _, [] => True
  | [], _ :: _ => False

/-- A number for every field, and every number fits its field. -/
def Fits : Layout → List Nat → Prop
  | (_, width) :: layout, number :: numbers => number < 10 ^ width ∧ Fits layout numbers
  | [], [] => True
  | _, _ => False

/-- What begins with a number in full has that many digits in front of the first other one. -/
theorem length_of_startsFull {width : Nat} {front back : Text}
    (ends : ∀ char rest, back = char :: rest → char.isDigit = false)
    (full : startsFull width (front ++ back) = true) : width ≤ front.length := by
  induction width generalizing front with
  | zero => exact Nat.zero_le _
  | succ width ih =>
      cases front with
      | nil =>
          rw [List.nil_append] at full
          cases shape : back with
          | nil =>
              rw [shape] at full
              cases full
          | cons char rest =>
              rw [shape, startsFull_cons, ends char rest shape] at full
              exact absurd full.1 (by decide)
      | cons char front =>
          rw [List.cons_append, startsFull_cons] at full
          exact Nat.succ_le_succ (ih full.2)

theorem digits_of_startsFull {front back : Text}
    (full : startsFull front.length (front ++ back) = true) :
    ∀ char ∈ front, char.isDigit = true := by
  induction front with
  | nil => exact fun _char member => absurd member List.not_mem_nil
  | cons head tail ih =>
      rw [List.length_cons, List.cons_append, startsFull_cons] at full
      exact List.forall_mem_cons.mpr ⟨full.1, ih full.2⟩

/-- The text consists of fields, each behind its separator and none of them too long. -/
def Consists : Layout → List Text → Text → Prop
  | _, [], text => text = []
  | [], _ :: _, _ => False
  | (separator, width) :: layout, piece :: pieces, text =>
      ∃ rest, text = separator :: (piece ++ rest) ∧ piece.length ≤ width ∧
        Consists layout pieces rest

/-- The fields that are there are written in full. -/
def inFull : Layout → Text → Bool
  | (_, width) :: layout, _ :: text =>
      startsFull width text && inFull layout (text.drop width)
  | [], _ :: _ => false
  | _, [] => true

/-- No separator is a digit. -/
def NoDigits (layout : Layout) : Prop :=
  ∀ field ∈ layout, field.1.isDigit = false

theorem Consists.head {layout : Layout} {pieces : List Text} {text : Text}
    (consists : Consists layout pieces text) (noDigits : NoDigits layout) :
    ∀ char rest, text = char :: rest → char.isDigit = false := by
  intro char rest shape
  cases pieces with
  | nil =>
      have empty : text = [] := by
        cases layout with
        | nil => exact consists
        | cons field layout => exact consists
      rw [empty] at shape
      cases shape
  | cons piece pieces =>
      cases layout with
      | nil => exact consists.elim
      | cons field layout =>
          obtain ⟨later, whole, _short, _rest⟩ := consists
          rw [whole] at shape
          rw [← (List.cons.inj shape).1]
          exact noDigits field List.mem_cons_self

theorem separated_nil (layout : Layout) : Separated layout [] := by
  cases layout with
  | nil => trivial
  | cons field layout => trivial

theorem Consists.separated {layout : Layout} {pieces : List Text} {text : Text}
    (consists : Consists layout pieces text) (noDigits : NoDigits layout) :
    Separated layout text := by
  induction layout generalizing pieces text with
  | nil =>
      cases pieces with
      | nil =>
          have empty : text = [] := consists
          rw [empty]
          exact separated_nil []
      | cons piece pieces => exact consists.elim
  | cons field layout ih =>
      cases pieces with
      | nil =>
          have empty : text = [] := consists
          rw [empty]
          exact separated_nil _
      | cons piece pieces =>
          obtain ⟨rest, whole, short, later⟩ := consists
          have others : NoDigits layout :=
            fun other member => noDigits other (List.mem_cons_of_mem _ member)
          rw [whole]
          constructor
          · rfl
          · intro full
            have length := Nat.le_antisymm short
              (length_of_startsFull (later.head others) full)
            rw [← length, List.drop_left]
            exact ih later others

theorem standsFor_full {separator : Char} {width : Nat} {layout : Layout} {char : Char}
    {text : Text} (full : startsFull width text = true) :
    standsFor ((separator, width) :: layout) (char :: text) =
      numeral (text.take width) :: standsFor layout (text.drop width) := if_pos full

theorem standsFor_short {separator : Char} {width : Nat} {layout : Layout} {char : Char}
    {text : Text} (short : ¬startsFull width text = true) :
    standsFor ((separator, width) :: layout) (char :: text) = [leastBehind width text] :=
  if_neg short

theorem standsFor_nil (layout : Layout) : standsFor layout [] = [] := by
  cases layout with
  | nil => rfl
  | cons field layout => rfl

theorem length_standsFor_le (layout : Layout) (text : Text) :
    (standsFor layout text).length ≤ layout.length := by
  induction layout generalizing text with
  | nil => exact Nat.le_refl _
  | cons field layout ih =>
      cases text with
      | nil => exact Nat.zero_le _
      | cons char text =>
          rw [standsFor]
          split
          · exact Nat.succ_le_succ (ih _)
          · exact Nat.succ_le_succ (Nat.zero_le _)

theorem length_standsFor_of_complete {layout : Layout} {text : Text}
    (whole : complete layout text = true) : (standsFor layout text).length = layout.length := by
  induction layout generalizing text with
  | nil => rfl
  | cons field layout ih =>
      cases text with
      | nil => cases whole
      | cons char text =>
          rw [complete, Bool.and_eq_true] at whole
          rw [standsFor_full whole.1, List.length_cons, ih whole.2, List.length_cons]

/-- All fields are there if there are as many as the layout has. -/
theorem complete_iff_of_inFull {layout : Layout} {text : Text}
    (full : inFull layout text = true) :
    complete layout text = true ↔ (standsFor layout text).length = layout.length := by
  induction layout generalizing text with
  | nil => simp [complete, standsFor]
  | cons field layout ih =>
      cases text with
      | nil => simp [complete, standsFor_nil]
      | cons char text =>
          rw [inFull, Bool.and_eq_true] at full
          rw [complete, full.1, Bool.true_and, ih full.2, standsFor_full full.1,
            List.length_cons, List.length_cons, Nat.succ_inj]

/-- A text whose fields are written in full stands for the numbers in its fields. -/
theorem Consists.standsFor_eq {layout : Layout} {pieces : List Text} {text : Text}
    (consists : Consists layout pieces text) (noDigits : NoDigits layout)
    (full : inFull layout text = true) :
    standsFor layout text = pieces.map numeral ∧
      ∀ piece ∈ pieces, ∀ char ∈ piece, char.isDigit = true := by
  induction layout generalizing pieces text with
  | nil =>
      cases pieces with
      | nil => exact ⟨rfl, fun _piece member => absurd member List.not_mem_nil⟩
      | cons piece pieces => exact consists.elim
  | cons field layout ih =>
      cases pieces with
      | nil =>
          have empty : text = [] := consists
          rw [empty]
          exact ⟨rfl, fun _piece member => absurd member List.not_mem_nil⟩
      | cons piece pieces =>
          obtain ⟨rest, whole, short, later⟩ := consists
          have others : NoDigits layout :=
            fun other member => noDigits other (List.mem_cons_of_mem _ member)
          rw [whole, inFull, Bool.and_eq_true] at full
          have length := Nat.le_antisymm short
            (length_of_startsFull (later.head others) full.1)
          have restFull := full.2
          rw [← length, List.drop_left] at restFull
          have tail := ih later others restFull
          rw [whole, standsFor_full full.1, ← length, List.take_left, List.drop_left, tail.1]
          constructor
          · rfl
          · intro one member
            cases List.mem_cons.mp member with
            | inl same =>
                rw [same]
                have start := full.1
                rw [← length] at start
                exact digits_of_startsFull start
            | inr inside => exact tail.2 one inside

theorem Fits.length_eq {layout : Layout} {numbers : List Nat} (fits : Fits layout numbers) :
    numbers.length = layout.length := by
  induction layout generalizing numbers with
  | nil =>
      cases numbers with
      | nil => rfl
      | cons number numbers => exact fits.elim
  | cons field layout ih =>
      cases numbers with
      | nil => exact fits.elim
      | cons number numbers => exact congrArg Nat.succ (ih fits.2)

theorem stamp_cons (separator : Char) (width : Nat) (layout : Layout) (number : Nat)
    (numbers : List Nat) (tail : Text) :
    stamp ((separator, width) :: layout) (number :: numbers) tail =
      separator :: (padded width number ++ stamp layout numbers tail) := rfl

/-- The stamps before a text are those of smaller numbers than it stands for. -/
theorem stamp_lt_iff {layout : Layout} {numbers : List Nat} {text : Text} (tail : Text)
    (fits : Fits layout numbers) (separated : Separated layout text) :
    stamp layout numbers tail < text ↔ numbers < standsFor layout text := by
  induction layout generalizing numbers text with
  | nil =>
      cases text with
      | nil => simp [standsFor_nil]
      | cons char text => exact separated.elim
  | cons field layout ih =>
      obtain ⟨separator, width⟩ := field
      cases numbers with
      | nil => exact fits.elim
      | cons number numbers =>
          cases text with
          | nil => simp [standsFor_nil]
          | cons char text =>
              obtain ⟨same, later⟩ := separated
              obtain ⟨small, restFits⟩ := fits
              rw [stamp_cons, same, List.cons_lt_cons_iff]
              by_cases full : startsFull width text = true
              · obtain ⟨valueSmall, whole⟩ := startsFull_split full
                rw [standsFor_full full, List.cons_lt_cons_iff, ← ih restFits (later full)]
                have compared := padded_lt_padded small valueSmall (stamp layout numbers tail)
                  (text.drop width)
                rw [← whole] at compared
                simp [compared]
              · have compared := short_lt_padded (Bool.eq_false_iff.mpr full) small
                  (stamp layout numbers tail)
                have behind : padded width number ++ stamp layout numbers tail < text ↔
                    number < leastBehind width text := by
                  constructor
                  · intro before
                    apply Nat.lt_of_not_le
                    intro reached
                    exact List.lt_asymm before (compared.1.mpr reached)
                  · intro below
                    have notBefore : ¬text < padded width number ++ stamp layout numbers tail :=
                      fun before => absurd (compared.1.mp before) (Nat.not_le.mpr below)
                    cases List.le_iff_lt_or_eq.mp (List.not_lt.mp notBefore) with
                    | inl after => exact after
                    | inr same => exact absurd same.symm compared.2
                rw [standsFor_short full, behind, List.cons_lt_cons_iff]
                simp

/-- The stamps behind a text that is written in full: those of larger numbers, and those of the
same numbers with something behind them. -/
theorem lt_stamp_of_complete {layout : Layout} {numbers : List Nat} {text : Text} (tail : Text)
    (fits : Fits layout numbers) (separated : Separated layout text)
    (whole : complete layout text = true) :
    text < stamp layout numbers tail ↔
      standsFor layout text < numbers ∨ standsFor layout text = numbers ∧ tail ≠ [] := by
  induction layout generalizing numbers text with
  | nil =>
      cases numbers with
      | cons number numbers => exact fits.elim
      | nil =>
          cases text with
          | cons char text => exact separated.elim
          | nil =>
              cases tail with
              | nil => simp [standsFor_nil, stamp]
              | cons char tail => simp [standsFor_nil, stamp]
  | cons field layout ih =>
      obtain ⟨separator, width⟩ := field
      cases numbers with
      | nil => exact fits.elim
      | cons number numbers =>
          cases text with
          | nil => cases whole
          | cons char text =>
              obtain ⟨same, later⟩ := separated
              obtain ⟨small, restFits⟩ := fits
              rw [complete, Bool.and_eq_true] at whole
              obtain ⟨full, restWhole⟩ := whole
              obtain ⟨valueSmall, split⟩ := startsFull_split full
              have compared := padded_lt_padded valueSmall small (text.drop width)
                (stamp layout numbers tail)
              rw [← split, ih restFits (later full) restWhole] at compared
              rw [stamp_cons, same, List.cons_lt_cons_iff, compared, standsFor_full full,
                List.cons_lt_cons_iff, List.cons.injEq]
              simp only [Char.lt_irrefl, false_or, true_and]
              tauto

/-- The stamps behind a text that ends early or in a field that is not written in full: all
that do not come before it. -/
theorem lt_stamp_of_incomplete {layout : Layout} {numbers : List Nat} {text : Text} (tail : Text)
    (fits : Fits layout numbers) (separated : Separated layout text)
    (partly : complete layout text = false) :
    text < stamp layout numbers tail ↔ ¬numbers < standsFor layout text := by
  induction layout generalizing numbers text with
  | nil => cases partly
  | cons field layout ih =>
      obtain ⟨separator, width⟩ := field
      cases numbers with
      | nil => exact fits.elim
      | cons number numbers =>
          cases text with
          | nil => simp [standsFor_nil, stamp]
          | cons char text =>
              obtain ⟨same, later⟩ := separated
              obtain ⟨small, restFits⟩ := fits
              rw [stamp_cons, same, List.cons_lt_cons_iff]
              by_cases full : startsFull width text = true
              · obtain ⟨valueSmall, split⟩ := startsFull_split full
                have restPartly : complete layout (text.drop width) = false := by
                  rw [complete, full, Bool.true_and] at partly
                  exact partly
                have compared := padded_lt_padded valueSmall small (text.drop width)
                  (stamp layout numbers tail)
                rw [← split, ih restFits (later full) restPartly] at compared
                rw [compared, standsFor_full full, List.cons_lt_cons_iff]
                by_cases before : numbers < standsFor layout (text.drop width)
                · simp only [before, Char.lt_irrefl, false_or, true_and, not_true, and_false,
                    and_true, or_false]
                  omega
                · simp only [before, Char.lt_irrefl, false_or, true_and, not_false_iff, and_true,
                    and_false, or_false]
                  omega
              · have compared := short_lt_padded (Bool.eq_false_iff.mpr full) small
                  (stamp layout numbers tail)
                rw [standsFor_short full, compared.1, List.cons_lt_cons_iff]
                simp

end VaultSearch.Text
