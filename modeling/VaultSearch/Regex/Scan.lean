/-
Scans whose matches depend on the text ahead and nothing else: the positions at which a match is
looked for, the matches that are found there, and the text that a substitution puts together.
-/

import Mathlib.Data.List.Pairwise
import Mathlib.Logic.Relation
import VaultSearch.Regex.Basic

set_option autoImplicit false

namespace VaultSearch.Regex

/-- `size` tells the length of the match at every cursor from the text ahead; no match is
empty. -/
structure SizedBy (regex : Regex) (size : Text → Option Nat) : Prop where
  missing : ∀ cursor : Cursor, size cursor.rest = none → regex.firstMatch cursor = none
  found : ∀ (cursor : Cursor) (length : Nat), size cursor.rest = some length →
    0 < length ∧ length ≤ cursor.rest.length ∧
      ∃ next, regex.firstMatch cursor = some next ∧ next.rest = cursor.rest.drop length

variable {regex : Regex} {size : Text → Option Nat} {text : Text}

/-- From one position at which a match is looked for to the next. -/
inductive Moves (size : Text → Option Nat) (text : Text) : Nat → Nat → Prop
  | skip {position : Nat} (inside : position < text.length)
      (missing : size (text.drop position) = none) : Moves size text position (position + 1)
  | past {position length : Nat} (found : size (text.drop position) = some length) :
      Moves size text position (position + length)

/-- The second position is visited by a scan from the first. -/
def Visits (size : Text → Option Nat) (text : Text) : Nat → Nat → Prop :=
  Relation.ReflTransGen (Moves size text)

/-! ### The steps of a scan -/

theorem findFrom_past {cursor next : Cursor} {length : Nat} (positive : 0 < length)
    (inside : length ≤ cursor.rest.length) (attempt : regex.firstMatch cursor = some next)
    (behind : next.rest = cursor.rest.drop length) (fuel position : Nat) :
    regex.findFrom (fuel + 1) position cursor =
      { start := position, text := cursor.rest.take length, groups := next.groups } ::
        regex.findFrom fuel (position + length) next := by
  have consumed : cursor.consumed next = cursor.rest.take length := by
    unfold Cursor.consumed
    rw [behind, List.length_drop, Nat.sub_sub_self inside]
  have size : (cursor.rest.take length).length = length := List.length_take_of_le inside
  have filled : (cursor.rest.take length).isEmpty = false := by
    rw [List.isEmpty_eq_false_iff, ← List.length_pos_iff, size]
    exact positive
  rw [findFrom, attempt]
  dsimp only
  rw [consumed, filled, if_neg Bool.false_ne_true, size]

/-- The matches of a scan from a position. -/
inductive Scan (size : Text → Option Nat) (text : Text) : Nat → List Match → Prop
  | finished (missing : size [] = none) : Scan size text text.length []
  | skip {position : Nat} {others : List Match} (inside : position < text.length)
      (missing : size (text.drop position) = none) (rest : Scan size text (position + 1) others) :
      Scan size text position others
  | past {position : Nat} {found : Match} {others : List Match} (start : found.start = position)
      (sized : size (text.drop position) = some found.text.length)
      (stands : found.text = (text.drop position).take found.text.length)
      (positive : 0 < found.text.length) (within : position + found.text.length ≤ text.length)
      (rest : Scan size text (position + found.text.length) others) :
      Scan size text position (found :: others)

theorem findFrom_scan (sized : regex.SizedBy size) (fuel : Nat) :
    ∀ position (cursor : Cursor), cursor.rest.length < fuel → position ≤ text.length →
      cursor.rest = text.drop position →
      Scan size text position (regex.findFrom fuel position cursor) := by
  induction fuel with
  | zero =>
      intro position cursor short
      exact absurd short (Nat.not_lt_zero _)
  | succ fuel ih =>
      intro position cursor short within behind
      have left : cursor.rest.length = text.length - position := by
        rw [behind, List.length_drop]
      cases known : size cursor.rest with
      | none =>
          have missing := sized.missing cursor known
          cases shape : cursor.rest with
          | nil =>
              rw [shape] at left known
              have atEnd : position = text.length :=
                Nat.le_antisymm within (Nat.sub_eq_zero_iff_le.mp left.symm)
              rw [findFrom, missing, shape, atEnd]
              exact .finished known
          | cons head tail =>
              rw [findFrom_of_none missing shape]
              rw [behind] at known
              rw [shape, List.length_cons] at left short
              have inside : position < text.length := by omega
              apply Scan.skip inside known
              apply ih
              · exact Nat.lt_of_succ_lt_succ short
              · exact inside
              · rw [← List.drop_drop, ← behind, shape]
                rfl
      | some length =>
          obtain ⟨positive, inside, next, attempt, rest⟩ := sized.found cursor length known
          rw [findFrom_past positive inside attempt rest]
          have size := List.length_take_of_le inside
          have reach : position + length ≤ text.length := by omega
          rw [behind] at known
          refine .past rfl ?_ ?_ ?_ ?_ ?_
          · rw [size, known]
          · rw [size, ← behind]
          · rw [size]
            exact positive
          · rw [size]
            exact reach
          · rw [size]
            apply ih
            · rw [rest, List.length_drop]
              omega
            · exact reach
            · rw [rest, behind, List.drop_drop]

theorem finditer_scan (sized : regex.SizedBy size) (text : Text) :
    Scan size text 0 (regex.finditer text) :=
  findFrom_scan sized (text.length + 1) 0 (Cursor.start text) (Nat.lt_succ_self _)
    (Nat.zero_le _) rfl

/-! ### Visited positions -/

theorem Moves.le {position later : Nat} (moves : Moves size text position later) :
    position ≤ later := by
  cases moves with
  | skip inside missing => exact Nat.le_succ position
  | past found => exact Nat.le_add_right _ _

theorem Visits.le {position later : Nat} (visits : Visits size text position later) :
    position ≤ later := by
  induction visits with
  | refl => exact Nat.le_refl position
  | tail visited moves ih => exact ih.trans moves.le

/-- Behind a position without a match the next one is visited. -/
theorem visits_skip_iff {position later : Nat} (inside : position < text.length)
    (missing : size (text.drop position) = none) (apart : position ≠ later) :
    Visits size text position later ↔ Visits size text (position + 1) later := by
  constructor
  · intro visits
    cases visits.cases_head with
    | inl same => exact absurd same apart
    | inr first =>
        obtain ⟨middle, moves, visited⟩ := first
        cases moves with
        | skip inside missing => exact visited
        | past found =>
            rw [missing] at found
            cases found
  · intro visited
    exact Relation.ReflTransGen.head (.skip inside missing) visited

/-- Behind a position with a match its end is visited. -/
theorem visits_past_iff {position later length : Nat}
    (found : size (text.drop position) = some length) (apart : position ≠ later) :
    Visits size text position later ↔ Visits size text (position + length) later := by
  constructor
  · intro visits
    cases visits.cases_head with
    | inl same => exact absurd same apart
    | inr first =>
        obtain ⟨middle, moves, visited⟩ := first
        cases moves with
        | skip inside missing =>
            rw [missing] at found
            cases found
        | past other =>
            rw [Option.some.inj (other.symm.trans found)] at visited
            exact visited
  · intro visited
    exact Relation.ReflTransGen.head (.past found) visited

/-! ### The matches of a scan -/

theorem Scan.le_length {position : Nat} {found : List Match} (scan : Scan size text position found) :
    position ≤ text.length := by
  cases scan with
  | finished missing => exact Nat.le_refl _
  | skip inside missing rest => exact Nat.le_of_lt inside
  | past start sized stands positive within rest => exact (Nat.le_add_right _ _).trans within

theorem Scan.eq_nil {position : Nat} {found : List Match} (scan : Scan size text position found)
    (missing : ∀ later, size (text.drop later) = none) : found = [] := by
  induction scan with
  | finished atEnd => rfl
  | skip inside here rest ih => exact ih
  | @past position first others start sized stands positive within rest ih =>
      rw [missing position] at sized
      cases sized

/-- Every visited position with a match is the start of a match found. -/
theorem Scan.exists_match {position : Nat} {found : List Match}
    (scan : Scan size text position found) :
    ∀ {later length : Nat}, Visits size text position later →
      size (text.drop later) = some length →
      ∃ one ∈ found, one.start = later ∧ one.text.length = length := by
  induction scan with
  | finished missing =>
      intro later length visits known
      rw [List.drop_eq_nil_of_le visits.le, missing] at known
      cases known
  | @skip position others inside missing rest ih =>
      intro later length visits known
      have apart : position ≠ later := by
        intro same
        rw [same, known] at missing
        cases missing
      exact ih ((visits_skip_iff inside missing apart).mp visits) known
  | @past position first others start sized stands positive within rest ih =>
      intro later length visits known
      by_cases same : position = later
      · refine ⟨first, List.mem_cons_self, start.trans same, ?_⟩
        rw [same, known] at sized
        exact (Option.some.inj sized).symm
      · obtain ⟨one, member, facts⟩ := ih ((visits_past_iff sized same).mp visits) known
        exact ⟨one, List.mem_cons_of_mem _ member, facts⟩

theorem Scan.start_le {position : Nat} {found : List Match} (scan : Scan size text position found) :
    ∀ one ∈ found, position ≤ one.start := by
  induction scan with
  | finished missing =>
      intro one member
      cases member
  | skip inside missing rest ih =>
      intro one member
      exact Nat.le_of_succ_le (ih one member)
  | @past position first others start sized stands positive within rest ih =>
      intro one member
      cases List.mem_cons.mp member with
      | inl same => rw [same, start]
      | inr later => exact (Nat.le_add_right _ _).trans (ih one later)

/-- The matches follow one another. -/
theorem Scan.ordered {position : Nat} {found : List Match} (scan : Scan size text position found) :
    found.Pairwise (fun former latter => former.stop ≤ latter.start) := by
  induction scan with
  | finished missing => exact List.Pairwise.nil
  | skip inside missing rest ih => exact ih
  | @past position first others start sized stands positive within rest ih =>
      apply List.Pairwise.cons ?_ ih
      intro one member
      rw [Match.stop, start]
      exact rest.start_le one member

/-- The matches have no position in common. -/
def Match.Apart (one other : Match) : Prop :=
  one.stop ≤ other.start ∨ other.stop ≤ one.start

instance : Std.Symm Match.Apart where
  symm _one _other := Or.symm

theorem Scan.disjoint {position : Nat} {found : List Match} (scan : Scan size text position found)
    {one other : Match} (member : one ∈ found) (otherMember : other ∈ found) (apart : one ≠ other) :
    one.Apart other := by
  have either : found.Pairwise Match.Apart := scan.ordered.imp Or.inl
  exact either.forall member otherMember apart

theorem Scan.filled {position : Nat} {found : List Match} (scan : Scan size text position found) :
    ∀ one ∈ found, 0 < one.text.length := by
  induction scan with
  | finished missing =>
      intro one member
      cases member
  | skip inside missing rest ih => exact ih
  | @past position first others start sized stands positive within rest ih =>
      intro one member
      cases List.mem_cons.mp member with
      | inl same =>
          rw [same]
          exact positive
      | inr later => exact ih one later

/-- A position is visited exactly when no match that begins before it reaches across it. -/
theorem Scan.visits_iff {position : Nat} {found : List Match}
    (scan : Scan size text position found) :
    ∀ {later : Nat}, position ≤ later → later ≤ text.length →
      (Visits size text position later ↔ ∀ one ∈ found, one.start < later → one.stop ≤ later) := by
  induction scan with
  | finished missing =>
      intro later ahead within
      rw [Nat.le_antisymm within ahead]
      exact iff_of_true Relation.ReflTransGen.refl (fun one member => by cases member)
  | @skip position others inside missing rest ih =>
      intro later ahead within
      by_cases same : position = later
      · rw [same] at rest ⊢
        apply iff_of_true Relation.ReflTransGen.refl
        intro one member before
        exact absurd (rest.start_le one member) (by omega)
      · rw [visits_skip_iff inside missing same]
        exact ih (Nat.lt_of_le_of_ne ahead same) within
  | @past position first others start sized stands positive within rest ih =>
      intro later ahead reach
      rw [List.forall_mem_cons]
      by_cases same : position = later
      · rw [same] at rest start ⊢
        apply iff_of_true Relation.ReflTransGen.refl
        refine ⟨fun before => absurd start (Nat.ne_of_lt before), ?_⟩
        intro one member before
        have behind := rest.start_le one member
        omega
      · rw [visits_past_iff sized same, Match.stop, start]
        by_cases covered : later < position + first.text.length
        · apply iff_of_false
          · intro visits
            exact absurd visits.le (Nat.not_le.mpr covered)
          · intro free
            exact absurd (free.1 (Nat.lt_of_le_of_ne ahead same)) (Nat.not_le.mpr covered)
        · rw [ih (Nat.not_lt.mp covered) reach]
          exact (and_iff_right (fun _before => Nat.not_lt.mp covered)).symm

/-- A scan finds nothing if no match is possible behind any part of the text. -/
theorem findFrom_eq_nil (fuel : Nat) :
    ∀ (position : Nat) (cursor : Cursor),
      (∀ later : Cursor, later.rest <:+ cursor.rest → regex.firstMatch later = none) →
      regex.findFrom fuel position cursor = [] := by
  induction fuel with
  | zero =>
      intro position cursor _missing
      rfl
  | succ fuel ih =>
      intro position cursor missing
      have here := missing cursor (List.suffix_refl _)
      cases shape : cursor.rest with
      | nil => rw [findFrom, here, shape]
      | cons head tail =>
          rw [findFrom_of_none here shape]
          apply ih
          intro later behind
          apply missing
          rw [shape]
          exact behind.trans (List.suffix_cons head tail)

/-! ### Substitutions that insert texts around the matches -/

/-- The text from `position` on, each match replaced. -/
def replaceMatches (render : Match → Text) (text : Text) (position : Nat) : List Match → Text
  | [] => text.drop position
  | found :: rest =>
      (text.take found.start).drop position ++ render found ++
        replaceMatches render text found.stop rest

/-- `regex.sub(render, text)` -/
def sub (regex : Regex) (render : Match → Text) (text : Text) : Text :=
  replaceMatches render text 0 (regex.finditer text)

/-- A text without the characters that were inserted before and behind each match. -/
def withoutInserted (opening closing : Nat) : Nat → List Match → Text → Text
  | _position, [], marked => marked
  | position, found :: rest, marked =>
      let gap := found.start - position
      let size := found.text.length
      marked.take gap ++ (marked.drop (gap + opening)).take size ++
        withoutInserted opening closing found.stop rest
          (marked.drop (gap + opening + size + closing))

/-- Four pieces are taken apart by their lengths. -/
theorem take_apart (gap opening word closing rest : Text) :
    let whole := gap ++ (opening ++ word ++ closing) ++ rest
    whole.take gap.length = gap ∧
      (whole.drop (gap.length + opening.length)).take word.length = word ∧
      whole.drop (gap.length + opening.length + word.length + closing.length) = rest := by
  dsimp only
  refine ⟨?_, ?_, ?_⟩
  · rw [List.append_assoc, List.take_left]
  · have shape : gap ++ (opening ++ word ++ closing) ++ rest =
        (gap ++ opening) ++ (word ++ (closing ++ rest)) := by
      simp only [List.append_assoc]
    rw [shape, ← List.length_append, List.drop_left, List.take_left]
  · have shape : gap ++ (opening ++ word ++ closing) ++ rest =
        (gap ++ opening ++ word ++ closing) ++ rest := by
      simp only [List.append_assoc]
    rw [shape, ← List.length_append, ← List.length_append, ← List.length_append, List.drop_left]

/-- Without the inserted texts the result of the substitution is the text again. -/
theorem Scan.withoutInserted_replaceMatches (opening closing : Text) {position : Nat}
    {found : List Match} (scan : Scan size text position found) :
    ∀ {base : Nat}, base ≤ position →
      withoutInserted opening.length closing.length base found
        (replaceMatches (fun one => opening ++ one.text ++ closing) text base found) =
          text.drop base := by
  induction scan with
  | finished missing =>
      intro base _before
      rfl
  | skip inside missing rest ih =>
      intro base before
      exact ih (Nat.le_succ_of_le before)
  | @past position first others start sized stands positive within rest ih =>
      intro base before
      have gap : ((text.take first.start).drop base).length = first.start - base := by
        rw [List.length_drop, List.length_take_of_le (by omega)]
      obtain ⟨gapTaken, wordTaken, restLeft⟩ := take_apart ((text.take first.start).drop base)
        opening first.text closing (replaceMatches (fun one => opening ++ one.text ++ closing)
          text first.stop others)
      rw [gap] at gapTaken wordTaken restLeft
      have later := ih (Nat.le_refl (position + first.text.length))
      have stop : first.stop = position + first.text.length := by
        rw [Match.stop, start]
      have word : first.text ++ text.drop (position + first.text.length) = text.drop position := by
        rw [← List.drop_drop]
        nth_rewrite 1 [stands]
        exact List.take_append_drop _ _
      have whole : (text.take position).drop base ++ text.drop position = text.drop base := by
        rw [← List.drop_append_of_le_length (by rw [List.length_take]; omega),
          List.take_append_drop]
      rw [withoutInserted, replaceMatches, gapTaken, wordTaken, restLeft, stop, later, start,
        List.append_assoc, word, whole]

/-! ### Alternatives of words -/

/-- Whether a text begins with a word, up to what `same` does not tell apart. -/
def startsLike (same : Char → Char → Bool) : Text → Text → Bool
  | [], _text => true
  | _head :: _tail, [] => false
  | head :: tail, char :: rest => same head char && startsLike same tail rest

def likeLiteral (same : Char → Char → Bool) : Text → Regex
  | [] => empty
  | head :: tail => seq (chars (same head)) (likeLiteral same tail)

variable {same : Char → Char → Bool}

theorem startsLike_length {word : Text} :
    ∀ {text : Text}, startsLike same word text = true → word.length ≤ text.length := by
  induction word with
  | nil =>
      intro text _starts
      exact Nat.zero_le _
  | cons head tail ih =>
      intro text starts
      cases text with
      | nil => cases starts
      | cons char rest =>
          rw [startsLike, Bool.and_eq_true] at starts
          exact Nat.succ_le_succ (ih starts.2)

theorem startsLike_nil {word : Text} (filled : word ≠ []) : startsLike same word [] = false := by
  cases word with
  | nil => exact absurd rfl filled
  | cons head tail => rfl

/-- A word matches at a cursor in at most one way. -/
theorem likeLiteral_ends (word : Text) :
    ∀ cursor : Cursor, (likeLiteral same word).ends cursor =
      if startsLike same word cursor.rest then [cursor.advance (cursor.rest.take word.length)]
      else [] := by
  induction word with
  | nil =>
      intro cursor
      simp [likeLiteral, startsLike, ends_empty]
  | cons head tail ih =>
      intro cursor
      cases shape : cursor.rest with
      | nil => simp [likeLiteral, startsLike, ends_seq, ends_chars_nil shape]
      | cons char rest =>
          by_cases accepted : same head char = true
          · have moved : ({ cursor with before := some char, rest } : Cursor) =
                cursor.advance [char] := by
              simp [Cursor.advance, shape]
            have rested : (cursor.advance [char]).rest = rest := by
              rw [← moved]
            simp only [likeLiteral, ends_seq, ends_chars_cons shape, accepted, if_true,
              List.flatMap_singleton]
            rw [moved, ih, rested, Cursor.advance_advance]
            simp [startsLike, accepted]
          · simp [likeLiteral, ends_seq, ends_chars_cons shape, startsLike, accepted]

theorem anyOf_ends (expressions : List Regex) (cursor : Cursor) :
    (anyOf expressions).ends cursor = expressions.flatMap (fun one => one.ends cursor) := by
  induction expressions with
  | nil =>
      cases shape : cursor.rest with
      | nil => exact ends_chars_nil shape
      | cons head tail => exact ends_chars_cons shape
  | cons first rest ih =>
      cases rest with
      | nil => simp [anyOf]
      | cons second more =>
          change first.ends cursor ++ (anyOf (second :: more)).ends cursor = _
          rw [ih]
          rfl

/-- The first of the words with which the text goes on. -/
def firstWord (same : Char → Char → Bool) (words : List Text) (text : Text) : Option Text :=
  words.find? (fun word => startsLike same word text)

theorem firstWord_starts {words : List Text} {text word : Text}
    (first : firstWord same words text = some word) : startsLike same word text = true := by
  unfold firstWord at first
  exact @List.find?_some _ (fun word => startsLike same word text) _ _ first

theorem firstWord_mem {words : List Text} {text word : Text}
    (first : firstWord same words text = some word) : word ∈ words :=
  List.mem_of_find?_eq_some first

theorem exists_firstWord {words : List Text} {text word : Text} (member : word ∈ words)
    (starts : startsLike same word text = true) : ∃ first, firstWord same words text = some first :=
  Option.isSome_iff_exists.mp (List.find?_isSome.mpr ⟨word, member, starts⟩)

theorem firstWord_nil {words : List Text} (filled : ∀ word ∈ words, word ≠ []) :
    firstWord same words [] = none := by
  apply List.find?_eq_none.mpr
  intro word member
  rw [startsLike_nil (filled word member)]
  exact Bool.false_ne_true

theorem head_anyOf_likeLiteral (words : List Text) (cursor : Cursor) :
    ((anyOf (words.map (likeLiteral same))).ends cursor).head? =
      (firstWord same words cursor.rest).map
        (fun word => cursor.advance (cursor.rest.take word.length)) := by
  rw [anyOf_ends, firstWord]
  induction words with
  | nil => rfl
  | cons word rest ih =>
      rw [List.map_cons, List.flatMap_cons, likeLiteral_ends, List.find?_cons]
      cases startsLike same word cursor.rest with
      | true => rfl
      | false =>
          simp only [Bool.false_eq_true, if_false, List.nil_append]
          exact ih

/-- The words in a group are matched by the length of the first one that fits. -/
theorem sizedBy_words {words : List Text} (filled : ∀ word ∈ words, word ≠ []) (index : Nat) :
    (group index (anyOf (words.map (likeLiteral same)))).SizedBy
      (fun text => (firstWord same words text).map List.length) := by
  have attempt : ∀ cursor : Cursor,
      (group index (anyOf (words.map (likeLiteral same)))).firstMatch cursor =
        (firstWord same words cursor.rest).map (fun word =>
          let next := Cursor.advance { cursor with groups := [] } (cursor.rest.take word.length)
          { next with
            groups := (index, Cursor.consumed { cursor with groups := [] } next) :: next.groups }) := by
    intro cursor
    rw [firstMatch, ends_group, List.head?_map, head_anyOf_likeLiteral, Option.map_map]
    rfl
  constructor
  case missing =>
    intro cursor missing
    rw [attempt, Option.map_eq_none_iff.mp missing]
    rfl
  case found =>
    intro cursor length known
    obtain ⟨word, first, size⟩ := Option.map_eq_some_iff.mp known
    have short := startsLike_length (firstWord_starts first)
    refine ⟨?_, ?_, ?_⟩
    · rw [← size]
      exact List.length_pos_iff.mpr (filled word (firstWord_mem first))
    · rw [← size]
      exact short
    · rw [attempt, first]
      refine ⟨_, rfl, ?_⟩
      change cursor.rest.drop (cursor.rest.take word.length).length = cursor.rest.drop length
      rw [List.length_take_of_le short, size]

end VaultSearch.Regex
