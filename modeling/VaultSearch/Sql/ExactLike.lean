/-
`LIKE` in an engine that tells upper case from lower case, and what a pattern of the form
`text/%` takes when the text is not escaped.
-/

import VaultSearch.Sql.Like

set_option autoImplicit false

namespace VaultSearch.Sql

def exactMatches : List LikeElement → Text → Bool
  | [], text => text.isEmpty
  | .exact _ :: _, [] => false
  | .exact char :: rest, head :: tail => char == head && exactMatches rest tail
  | .one :: _, [] => false
  | .one :: rest, _ :: tail => exactMatches rest tail
  | .many :: rest, text => someEnding (exactMatches rest) text

/-- `text LIKE pattern ESCAPE escape`, letter for letter. -/
def exactLike (escape : Char) (pattern text : Text) : Bool :=
  match readLike escape pattern with
  | none => false
  | some elements => exactMatches elements text

/-! ### Literal patterns -/

theorem exactMatches_exact (expected : Text) (rest : List LikeElement) :
    ∀ text, exactMatches (expected.map .exact ++ rest) text = true ↔
      ∃ back, text = expected ++ back ∧ exactMatches rest back = true := by
  induction expected with
  | nil =>
      intro text
      constructor
      · intro holds
        exact ⟨text, rfl, holds⟩
      · rintro ⟨back, same, holds⟩
        rw [same]
        exact holds
  | cons char expected ih =>
      intro text
      cases text with
      | nil =>
          constructor
          · intro impossible
            cases impossible
          · rintro ⟨back, same, _holds⟩
            cases same
      | cons head tail =>
          rw [List.map_cons, List.cons_append, exactMatches, Bool.and_eq_true, beq_iff_eq, ih]
          constructor
          · rintro ⟨same, back, split, holds⟩
            exact ⟨back, by rw [same, split]; rfl, holds⟩
          · rintro ⟨back, split, holds⟩
            obtain ⟨same, later⟩ := List.cons.inj split
            exact ⟨same.symm, back, later, holds⟩

theorem exactMatches_any (text : Text) : exactMatches [.many] text = true := by
  rw [exactMatches, someEnding_iff]
  exact ⟨text, [], (List.append_nil text).symm, rfl⟩

theorem exactMatches_begins (expected text : Text) :
    exactMatches (expected.map .exact ++ [.many]) text = true ↔ expected <+: text := by
  rw [exactMatches_exact]
  constructor
  · rintro ⟨back, split, _any⟩
    exact ⟨back, split.symm⟩
  · rintro ⟨back, split⟩
    exact ⟨back, split.symm, exactMatches_any back⟩

theorem exactMatches_ends (expected text : Text) :
    exactMatches (.many :: expected.map .exact) text = true ↔ expected <:+ text := by
  have alone : ∀ back, exactMatches (expected.map .exact) back = true ↔ back = expected := by
    intro back
    have whole := exactMatches_exact expected [] back
    rw [List.append_nil] at whole
    rw [whole]
    simp [exactMatches]
  rw [exactMatches, someEnding_iff]
  constructor
  · rintro ⟨front, back, split, ends⟩
    rw [(alone back).mp ends] at split
    exact ⟨front, split.symm⟩
  · rintro ⟨front, split⟩
    exact ⟨front, expected, split.symm, (alone expected).mpr rfl⟩

theorem exactMatches_inside (expected text : Text) :
    exactMatches (.many :: (expected.map .exact ++ [.many])) text = true ↔ expected <:+: text := by
  rw [exactMatches, someEnding_iff]
  constructor
  · rintro ⟨front, back, split, holds⟩
    obtain ⟨rest, shape⟩ := (exactMatches_begins expected back).mp holds
    exact ⟨front, rest, by rw [split, ← shape, List.append_assoc]⟩
  · rintro ⟨front, rest, shape⟩
    refine ⟨front, expected ++ rest, by rw [← shape, List.append_assoc], ?_⟩
    exact (exactMatches_begins expected _).mpr ⟨rest, rfl⟩

/-- A literal text, a slash and anything. -/
theorem exactMatches_below (expected text : Text) :
    exactMatches (expected.map .exact ++ [.exact '/', .many]) text = true ↔
      expected ++ ['/'] <+: text := by
  have elements : expected.map LikeElement.exact ++ [.exact '/', .many] =
      (expected ++ ['/']).map .exact ++ [.many] := by simp
  rw [elements]
  exact exactMatches_begins _ _

/-! ### Room in a pattern -/

/-- What matches texts of two lengths leaves room: there any text may be put in. -/
theorem exactMatches_room {elements : List LikeElement} :
    ∀ {text other : Text}, exactMatches elements text = true → exactMatches elements other = true →
      text.length ≠ other.length →
      ∃ front back, text = front ++ back ∧
        ∀ inserted, exactMatches elements (front ++ (inserted ++ back)) = true := by
  induction elements with
  | nil =>
      intro text other first second differ
      have noText : text = [] := List.isEmpty_iff.mp first
      have noOther : other = [] := List.isEmpty_iff.mp second
      rw [noText, noOther] at differ
      exact absurd rfl differ
  | cons element rest ih =>
      intro text other first second differ
      cases element with
      | exact char =>
          cases text with
          | nil => cases first
          | cons head tail =>
              cases other with
              | nil => cases second
              | cons twin others =>
                  rw [exactMatches, Bool.and_eq_true] at first second
                  have tails : tail.length ≠ others.length := fun same => differ (congrArg Nat.succ same)
                  obtain ⟨front, back, split, holds⟩ := ih first.2 second.2 tails
                  refine ⟨head :: front, back, by rw [split]; rfl, ?_⟩
                  intro inserted
                  rw [List.cons_append, exactMatches, first.1, holds]
                  rfl
      | one =>
          cases text with
          | nil => cases first
          | cons head tail =>
              cases other with
              | nil => cases second
              | cons twin others =>
                  have tails : tail.length ≠ others.length := fun same => differ (congrArg Nat.succ same)
                  obtain ⟨front, back, split, holds⟩ := ih first second tails
                  exact ⟨head :: front, back, by rw [split]; rfl, holds⟩
      | many =>
          rw [exactMatches, someEnding_iff] at first
          obtain ⟨front, back, split, holds⟩ := first
          refine ⟨front, back, split, ?_⟩
          intro inserted
          rw [exactMatches, someEnding_iff]
          exact ⟨front ++ inserted, back, by rw [List.append_assoc], holds⟩

/-- No pattern takes a text and exactly what is below it. -/
theorem exactMatches_not_below {elements : List LikeElement} {text other : Text}
    (here : exactMatches elements text = true) (longer : exactMatches elements other = true)
    (differ : text.length ≠ other.length) :
    ∃ taken, exactMatches elements taken = true ∧ taken ≠ text ∧ ¬ text ++ ['/'] <+: taken := by
  obtain ⟨front, back, split, holds⟩ := exactMatches_room here longer differ
  have lengths : ∀ char : Char,
      (front ++ ([char] ++ back)).length = (text ++ ['/']).length := by
    intro char
    rw [split]
    simp only [List.length_append, List.length_singleton]
    omega
  have apart : ∀ char : Char, front ++ ([char] ++ back) ≠ text := by
    intro char same
    have sameLength := lengths char
    rw [same, List.length_append, List.length_singleton] at sameLength
    omega
  by_cases below : text ++ ['/'] <+: front ++ (['x'] ++ back)
  · refine ⟨front ++ (['y'] ++ back), holds ['y'], apart 'y', ?_⟩
    intro alsoBelow
    have first := below.eq_of_length (lengths 'x').symm
    have second := alsoBelow.eq_of_length (lengths 'y').symm
    have same := List.append_cancel_left (first.symm.trans second)
    cases same
  · exact ⟨front ++ (['x'] ++ back), holds ['x'], apart 'x', below⟩

theorem exactLike_elements {escape : Char} {pattern text : Text}
    (holds : exactLike escape pattern text = true) :
    ∃ elements, readLike escape pattern = some elements := by
  unfold exactLike at holds
  cases read : readLike escape pattern with
  | none =>
      rw [read] at holds
      cases holds
  | some elements => exact ⟨elements, rfl⟩

/-- To take a folder and what is below it, a pattern needs the folder beside it. -/
theorem eq_of_below {folder other pattern : Text} {escape : Char}
    (same : ∀ text, text = other ∨ exactLike escape pattern text = true ↔
      text = folder ∨ folder ++ ['/'] <+: text) : other = folder := by
  by_contra apart
  have taken : ∀ text, text ≠ other → (text = folder ∨ folder ++ ['/'] <+: text) →
      exactLike escape pattern text = true := by
    intro text differ below
    rcases (same text).mpr below with equal | holds
    · exact absurd equal differ
    · exact holds
  have here := taken folder (Ne.symm apart) (Or.inl rfl)
  obtain ⟨elements, read⟩ := exactLike_elements here
  have matched : ∀ text, exactLike escape pattern text = true ↔
      exactMatches elements text = true := by
    intro text
    unfold exactLike
    rw [read]
  obtain ⟨longer, differ, below, longerLength⟩ : ∃ longer, longer ≠ other ∧
      folder ++ ['/'] <+: longer ∧ longer.length = folder.length + 2 := by
    by_cases isOther : folder ++ ['/', 'x'] = other
    · refine ⟨folder ++ ['/', 'y'], ?_, ⟨['y'], by simp⟩, by simp⟩
      rw [← isOther]
      intro equal
      cases List.append_cancel_left equal
    · exact ⟨folder ++ ['/', 'x'], isOther, ⟨['x'], by simp⟩, by simp⟩
  have there := taken longer differ (Or.inr below)
  have lengths : folder.length ≠ longer.length := by omega
  obtain ⟨more, holds, notFolder, notBelow⟩ :=
    exactMatches_not_below ((matched folder).mp here) ((matched longer).mp there) lengths
  rcases (same more).mp (Or.inr ((matched more).mpr holds)) with equal | isBelow
  · exact notFolder equal
  · exact notBelow isBelow

/-! ### A folder that is not escaped -/

/-- A character with a meaning of its own in a pattern. -/
def isSpecial (char : Char) : Bool :=
  char == '%' || char == '_' || char == '\\'

/-- A shortest text that a pattern takes. -/
def shortest : List LikeElement → Text
  | [] => []
  | .exact char :: rest => char :: shortest rest
  | .one :: rest => 'x' :: shortest rest
  | .many :: rest => shortest rest

theorem readLike_many {escape : Char} (plain : '%' ≠ escape) (rest : Text) :
    readLike escape ('%' :: rest) = (readLike escape rest).map (.many :: ·) := by
  cases rest with
  | nil => simp [readLike, plain]
  | cons second tail => simp [readLike, plain]

theorem readLike_one {escape : Char} (plain : '_' ≠ escape) (rest : Text) :
    readLike escape ('_' :: rest) = (readLike escape rest).map (.one :: ·) := by
  cases rest with
  | nil => simp [readLike, plain]
  | cons second tail => simp [readLike, plain]

/-- What the elements of `folder/%` take: everything that begins with their shortest text,
which is no longer than the folder and a slash, and these only for a folder without special
characters. -/
theorem readLike_folder (folder : Text) :
    ∃ elements, readLike '\\' (folder ++ "/%".toList) = some elements ∧
      (∀ rest, exactMatches elements (shortest elements ++ rest) = true) ∧
      (shortest elements).length ≤ folder.length + 1 ∧
      (shortest elements = folder ++ ['/'] → ∀ char ∈ folder, isSpecial char = false) := by
  induction long : folder.length using Nat.strong_induction_on generalizing folder with
  | _ size ih =>
      cases folder with
      | nil =>
          refine ⟨[.exact '/', .many], rfl, ?_, Nat.le_add_left _ _, ?_⟩
          · intro rest
            exact (exactMatches_exact ['/'] [.many] _).mpr ⟨rest, rfl, exactMatches_any rest⟩
          · exact fun _same char impossible => absurd impossible List.not_mem_nil
      | cons head tail =>
          have shorter : tail.length < size := by
            rw [← long]
            exact Nat.lt_succ_self _
          by_cases backslash : head = '\\'
          · rw [backslash]
            cases tail with
            | nil =>
                refine ⟨[.exact '/', .many], rfl, ?_, Nat.le_add_left _ _, ?_⟩
                · intro rest
                  exact (exactMatches_exact ['/'] [.many] _).mpr
                    ⟨rest, rfl, exactMatches_any rest⟩
                · intro impossible
                  cases impossible
            | cons second later =>
                have laterShorter : later.length < size := by
                  rw [← long, List.length_cons, List.length_cons]
                  omega
                obtain ⟨elements, read, holds, short, _plain⟩ := ih _ laterShorter later rfl
                refine ⟨.exact second :: elements, ?_, ?_, ?_, ?_⟩
                · rw [List.cons_append, List.cons_append, readLike_escaped, read]
                  rfl
                · intro rest
                  have same : (second == second) = true := beq_self_eq_true second
                  rw [shortest, List.cons_append, exactMatches, same, holds]
                  rfl
                · rw [← long, shortest, List.length_cons, List.length_cons, List.length_cons]
                  omega
                · intro same
                  have lengths := congrArg List.length same
                  rw [shortest] at lengths
                  simp only [List.length_append, List.length_cons, List.length_nil] at lengths
                  omega
          · obtain ⟨elements, read, holds, short, plain⟩ := ih _ shorter tail rfl
            by_cases percent : head = '%'
            · refine ⟨.many :: elements, ?_, ?_, ?_, ?_⟩
              · rw [percent, List.cons_append, readLike_many (by decide), read]
                rfl
              · intro rest
                rw [exactMatches, someEnding_iff]
                exact ⟨[], shortest elements ++ rest, rfl, holds rest⟩
              · rw [← long, shortest, List.length_cons]
                omega
              · intro same
                have lengths := congrArg List.length same
                rw [shortest] at lengths
                simp only [List.length_append, List.length_cons, List.length_nil] at lengths
                omega
            · by_cases underscore : head = '_'
              · refine ⟨.one :: elements, ?_, ?_, ?_, ?_⟩
                · rw [underscore, List.cons_append, readLike_one (by decide), read]
                  rfl
                · exact fun rest => holds rest
                · rw [← long, shortest, List.length_cons, List.length_cons]
                  omega
                · intro same
                  have first := (List.cons.inj same).1
                  rw [underscore] at first
                  cases first
              · refine ⟨.exact head :: elements, ?_, ?_, ?_, ?_⟩
                · rw [List.cons_append, readLike_exact backslash percent underscore, read]
                  rfl
                · intro rest
                  have same : (head == head) = true := beq_self_eq_true head
                  rw [shortest, List.cons_append, exactMatches, same, holds]
                  rfl
                · rw [← long, shortest, List.length_cons, List.length_cons]
                  omega
                · intro same char member
                  rcases List.mem_cons.mp member with isHead | inTail
                  · rw [isHead]
                    unfold isSpecial
                    rw [beq_eq_false_iff_ne.mpr percent, beq_eq_false_iff_ne.mpr underscore,
                      beq_eq_false_iff_ne.mpr backslash]
                    rfl
                  · exact plain (List.cons.inj same).2 char inTail

/-- Without special characters a pattern is read letter for letter. -/
theorem readLike_literal {text : Text} (plain : ∀ char ∈ text, isSpecial char = false)
    (rest : Text) :
    readLike '\\' (text ++ rest) = (readLike '\\' rest).map (text.map .exact ++ ·) := by
  induction text with
  | nil => exact Option.map_id'.symm
  | cons head tail ih =>
      have here := plain head List.mem_cons_self
      unfold isSpecial at here
      simp only [Bool.or_eq_false_iff, beq_eq_false_iff_ne] at here
      obtain ⟨⟨percent, underscore⟩, backslash⟩ := here
      rw [List.cons_append, readLike_exact backslash percent underscore,
        ih (fun char member => plain char (List.mem_cons_of_mem _ member)), Option.map_map]
      rfl

theorem readLike_plain {folder : Text} (plain : ∀ char ∈ folder, isSpecial char = false) :
    readLike '\\' (folder ++ "/%".toList) = some (folder.map .exact ++ [.exact '/', .many]) := by
  rw [readLike_literal plain]
  rfl

theorem exactLike_plain {folder : Text} (plain : ∀ char ∈ folder, isSpecial char = false)
    (text : Text) :
    exactLike '\\' (folder ++ "/%".toList) text = true ↔ folder ++ ['/'] <+: text := by
  unfold exactLike
  rw [readLike_plain plain]
  exact exactMatches_below folder text

/-- Without escapes `folder/%` stays at or below the folder only if it has no special
character. -/
theorem plain_of_below {folder : Text}
    (stays : ∀ text, exactLike '\\' (folder ++ "/%".toList) text = true →
      text = folder ∨ folder ++ ['/'] <+: text) :
    ∀ char ∈ folder, isSpecial char = false := by
  obtain ⟨elements, read, holds, short, plain⟩ := readLike_folder folder
  have taken : ∀ rest, shortest elements ++ rest = folder ∨
      folder ++ ['/'] <+: shortest elements ++ rest := by
    intro rest
    apply stays
    unfold exactLike
    rw [read]
    exact holds rest
  have slashLength : (folder ++ ['/']).length = folder.length + 1 := by
    rw [List.length_append, List.length_singleton]
  rcases Nat.lt_or_eq_of_le short with less | same
  · -- filled up with another letter, the shortest text ends in it
    exfalso
    have fill : (shortest elements ++ List.replicate (folder.length + 1 - (shortest elements).length)
        'x').length = folder.length + 1 := by
      rw [List.length_append, List.length_replicate]
      omega
    rcases taken (List.replicate (folder.length + 1 - (shortest elements).length) 'x')
      with equal | below
    · rw [equal] at fill
      omega
    · have equal := below.eq_of_length (slashLength.trans fill.symm)
      have last := congrArg List.getLast? equal
      have positive : folder.length + 1 - (shortest elements).length ≠ 0 := by omega
      rw [List.getLast?_concat, List.getLast?_append, List.getLast?_replicate, if_neg positive]
        at last
      cases last
  · apply plain
    rcases taken [] with equal | below
    · rw [List.append_nil] at equal
      rw [equal] at same
      omega
    · rw [List.append_nil] at below
      exact (below.eq_of_length (slashLength.trans same.symm)).symm

end VaultSearch.Sql
