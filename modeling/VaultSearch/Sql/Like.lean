/-
The `LIKE` operator of a table engine: `%` stands for any text, `_` for one character, and
the character after the escape character for itself.  Letters of ASCII match in either case.
-/

import VaultSearch.Text.AsciiCase

set_option autoImplicit false

namespace VaultSearch.Sql

inductive LikeElement where
  | exact (char : Char)
  | one
  | many

/-- The elements of a pattern, unless it ends in the escape character. -/
def readLike (escape : Char) : Text → Option (List LikeElement)
  | [] => some []
  | [char] =>
      if char = escape then none
      else if char = '%' then some [.many]
      else if char = '_' then some [.one]
      else some [.exact char]
  | char :: second :: rest =>
      if char = escape then (readLike escape rest).map (.exact second :: ·)
      else if char = '%' then (readLike escape (second :: rest)).map (.many :: ·)
      else if char = '_' then (readLike escape (second :: rest)).map (.one :: ·)
      else (readLike escape (second :: rest)).map (.exact char :: ·)

/-- Some ending of the text meets the test. -/
def someEnding (test : Text → Bool) : Text → Bool
  | [] => test []
  | head :: tail => test (head :: tail) || someEnding test tail

def likeMatches : List LikeElement → Text → Bool
  | [], text => text.isEmpty
  | .exact _ :: _, [] => false
  | .exact char :: rest, head :: tail => char.toLower == head.toLower && likeMatches rest tail
  | .one :: _, [] => false
  | .one :: rest, _ :: tail => likeMatches rest tail
  | .many :: rest, text => someEnding (likeMatches rest) text

/-- `text LIKE pattern ESCAPE escape`. -/
def like (escape : Char) (pattern text : Text) : Bool :=
  match readLike escape pattern with
  | none => false
  | some elements => likeMatches elements text

/-- The same text up to the case of ASCII letters. -/
def sameFolded (left right : Text) : Prop :=
  left.map Char.toLower = right.map Char.toLower

instance (left right : Text) : Decidable (sameFolded left right) :=
  inferInstanceAs (Decidable (_ = _))

/-- Without letters there is no other case. -/
theorem sameFolded_iff {text : Text} (plain : ∀ char ∈ text, char.isAlpha = false) :
    ∀ {front : Text}, sameFolded front text ↔ front = text := by
  induction text with
  | nil =>
      intro front
      unfold sameFolded
      rw [List.map_nil, List.map_eq_nil_iff]
  | cons head tail ih =>
      intro front
      constructor
      · intro folded
        cases front with
        | nil => cases folded
        | cons first others =>
            obtain ⟨sameHead, sameTail⟩ := List.cons.inj folded
            have later := (ih (fun char member => plain char (List.mem_cons_of_mem _ member))).mp
              sameTail
            rw [Text.eq_of_toLower_eq (plain head List.mem_cons_self) sameHead, later]
      · intro same
        rw [same]
        rfl

/-! ### Reading -/

theorem readLike_exact {escape char : Char} (plain : char ≠ escape) (notMany : char ≠ '%')
    (notOne : char ≠ '_') (rest : Text) :
    readLike escape (char :: rest) = (readLike escape rest).map (.exact char :: ·) := by
  cases rest with
  | nil => simp [readLike, plain, notMany, notOne]
  | cons second tail => simp [readLike, plain, notMany, notOne]

theorem readLike_escaped (escape char : Char) (rest : Text) :
    readLike escape (escape :: char :: rest) = (readLike escape rest).map (.exact char :: ·) := by
  simp [readLike]

/-! ### Matching -/

theorem someEnding_iff (test : Text → Bool) (text : Text) :
    someEnding test text = true ↔ ∃ front back, text = front ++ back ∧ test back = true := by
  induction text with
  | nil =>
      constructor
      · intro holds
        exact ⟨[], [], rfl, holds⟩
      · rintro ⟨front, back, shape, holds⟩
        rw [(List.append_eq_nil_iff.mp shape.symm).2] at holds
        exact holds
  | cons head tail ih =>
      unfold someEnding
      rw [Bool.or_eq_true, ih]
      constructor
      · rintro (here | ⟨front, back, shape, holds⟩)
        · exact ⟨[], head :: tail, rfl, here⟩
        · exact ⟨head :: front, back, by rw [shape]; rfl, holds⟩
      · rintro ⟨front, back, shape, holds⟩
        cases front with
        | nil =>
            left
            rw [shape]
            exact holds
        | cons first others =>
            right
            exact ⟨others, back, (List.cons.inj shape).2, holds⟩

theorem likeMatches_exact (expected : Text) (rest : List LikeElement) :
    ∀ text, likeMatches (expected.map .exact ++ rest) text = true ↔
      ∃ front back, text = front ++ back ∧ sameFolded front expected ∧
        likeMatches rest back = true := by
  induction expected with
  | nil =>
      intro text
      constructor
      · intro holds
        exact ⟨[], text, rfl, rfl, holds⟩
      · rintro ⟨front, back, shape, folded, holds⟩
        rw [List.map_eq_nil_iff.mp folded] at shape
        rw [shape]
        exact holds
  | cons char expected ih =>
      intro text
      cases text with
      | nil =>
          constructor
          · intro impossible
            cases impossible
          · rintro ⟨front, back, shape, folded, _holds⟩
            rw [(List.append_eq_nil_iff.mp shape.symm).1] at folded
            cases folded
      | cons head tail =>
          rw [List.map_cons, List.cons_append, likeMatches, Bool.and_eq_true, beq_iff_eq, ih]
          constructor
          · rintro ⟨same, front, back, shape, folded, holds⟩
            have longer : sameFolded (head :: front) (char :: expected) := by
              unfold sameFolded
              rw [List.map_cons, List.map_cons, same]
              exact congrArg _ folded
            exact ⟨head :: front, back, by rw [shape]; rfl, longer, holds⟩
          · rintro ⟨front, back, shape, folded, holds⟩
            cases front with
            | nil => cases folded
            | cons first others =>
                obtain ⟨same, later⟩ := List.cons.inj shape
                obtain ⟨sameChar, sameRest⟩ := List.cons.inj folded
                subst same
                exact ⟨sameChar.symm, others, back, later, sameRest, holds⟩

/-- A character that is no letter is matched by itself alone. -/
theorem toLower_slash {char : Char} (same : char.toLower = ('/' : Char).toLower) : char = '/' := by
  have slash : ('/' : Char).toLower = '/' := by decide
  rw [slash] at same
  exact (Text.toLower_eq_iff (by decide) (by decide) char).mp same

theorem likeMatches_any (text : Text) : likeMatches [.many] text = true := by
  rw [likeMatches, someEnding_iff]
  exact ⟨text, [], (List.append_nil text).symm, rfl⟩

end VaultSearch.Sql
