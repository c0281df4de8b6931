/-
Runs of one character class, and what every match of a scan has in common.
-/

import VaultSearch.Regex.Basic

set_option autoImplicit false

namespace VaultSearch.Regex

/-! ### One class -/

theorem chars_ends {accepts : Char → Bool} {cursor : Cursor} {head : Char} {tail : Text}
    (shape : cursor.rest = head :: tail) :
    (chars accepts).ends cursor = if accepts head then [cursor.advance [head]] else [] := by
  have moved : ({ cursor with before := some head, rest := tail } : Cursor) =
      cursor.advance [head] := by
    simp [Cursor.advance, shape]
  rw [← moved, ends_chars_cons shape]

theorem advance_rest {cursor : Cursor} {passed later : Text}
    (shape : cursor.rest = passed ++ later) : (cursor.advance passed).rest = later := by
  unfold Cursor.advance
  rw [shape, List.drop_left]

theorem consumed_advance {cursor : Cursor} {passed later : Text}
    (shape : cursor.rest = passed ++ later) :
    cursor.consumed (cursor.advance passed) = passed := by
  unfold Cursor.consumed
  rw [advance_rest shape, shape, List.length_append, Nat.add_sub_cancel, List.take_left]

/-- The first run that is tried is the longest one. -/
theorem greedyRuns_chars (accepts : Char → Bool) (fuel : Nat) :
    ∀ cursor : Cursor, cursor.rest.length ≤ fuel → ∃ others,
      greedyRuns (chars accepts).ends fuel cursor =
        cursor.advance (cursor.rest.takeWhile accepts) :: others := by
  induction fuel with
  | zero =>
      intro cursor bound
      have empty : cursor.rest = [] := List.eq_nil_of_length_eq_zero (Nat.le_zero.mp bound)
      exists []
      rw [empty]
      rfl
  | succ fuel ih =>
      intro cursor bound
      cases shape : cursor.rest with
      | nil => exact ⟨[], by simp [greedyRuns, ends_chars_nil shape, shape]⟩
      | cons head tail =>
          by_cases accepted : accepts head = true
          · have rested : (cursor.advance [head]).rest = tail := advance_rest shape
            have tailBound : (cursor.advance [head]).rest.length ≤ fuel := by
              rw [rested]
              rw [shape, List.length_cons] at bound
              omega
            obtain ⟨others, runs⟩ := ih (cursor.advance [head]) tailBound
            rw [rested, Cursor.advance_advance] at runs
            exists others ++ [cursor]
            rw [greedyRuns, chars_ends shape, if_pos accepted, List.filter_cons_of_pos,
              List.filter_nil, List.flatMap_singleton, runs, List.takeWhile_cons_of_pos accepted]
            · rfl
            · rw [rested, shape]
              exact decide_eq_true (Nat.lt_succ_self _)
          · exists []
            rw [greedyRuns, chars_ends shape, if_neg accepted,
              List.takeWhile_cons_of_neg accepted]
            rfl

/-- At least one character of a class: the first attempt takes as many as there are. -/
theorem plus_chars {accepts : Char → Bool} {cursor : Cursor} {head : Char} {tail : Text}
    (shape : cursor.rest = head :: tail) (accepted : accepts head = true) :
    ∃ others, (plus (chars accepts)).ends cursor =
      cursor.advance (head :: tail.takeWhile accepts) :: others := by
  have rested : (cursor.advance [head]).rest = tail := advance_rest shape
  obtain ⟨others, runs⟩ := greedyRuns_chars accepts _ (cursor.advance [head]) (Nat.le_refl _)
  rw [rested, Cursor.advance_advance] at runs
  exists others
  rw [plus, ends_seq, chars_ends shape, if_pos accepted, List.flatMap_singleton, ends_star,
    rested, runs]
  rfl

/-- Up to so many characters of a class, before something that does not go on with the
class: only the whole run is of use. -/
theorem atMost_chars {value : Type} (accepts : Char → Bool) (next : Cursor → List value)
    (stops : ∀ cursor : Cursor, cursor.rest.head?.any accepts = true → next cursor = [])
    (bound : Nat) :
    ∀ cursor : Cursor, ((atMost (chars accepts) bound).ends cursor).flatMap next =
      if (cursor.rest.takeWhile accepts).length ≤ bound then
        next (cursor.advance (cursor.rest.takeWhile accepts))
      else [] := by
  induction bound with
  | zero =>
      intro cursor
      rw [atMost, ends_empty, List.flatMap_singleton]
      cases shape : cursor.rest with
      | nil => rfl
      | cons head tail =>
          by_cases accepted : accepts head = true
          · rw [List.takeWhile_cons_of_pos accepted, if_neg (by simp)]
            exact stops cursor (by rw [shape]; exact accepted)
          · rw [List.takeWhile_cons_of_neg accepted]
            rfl
  | succ bound ih =>
      intro cursor
      have split : (atMost (chars accepts) (bound + 1)).ends cursor =
          ((chars accepts).ends cursor).flatMap (atMost (chars accepts) bound).ends ++
            [cursor] := rfl
      rw [split, List.flatMap_append, List.flatMap_singleton]
      cases shape : cursor.rest with
      | nil =>
          have none : (chars accepts).ends cursor = [] := ends_chars_nil shape
          rw [none]
          rfl
      | cons head tail =>
          rw [chars_ends shape]
          by_cases accepted : accepts head = true
          · have rested : (cursor.advance [head]).rest = tail := advance_rest shape
            rw [if_pos accepted, List.flatMap_singleton, ih, rested,
              stops cursor (by rw [shape]; exact accepted), List.append_nil,
              List.takeWhile_cons_of_pos accepted, List.length_cons, Cursor.advance_advance]
            by_cases fits : (tail.takeWhile accepts).length ≤ bound
            · rw [if_pos fits, if_pos (Nat.succ_le_succ fits)]
              rfl
            · rw [if_neg fits, if_neg (fun less => fits (Nat.le_of_succ_le_succ less))]
          · rw [if_neg accepted, List.takeWhile_cons_of_neg accepted]
            rfl

/-! ### Scans -/

/-- A match of the whole text is the only one. -/
theorem finditer_whole {regex : Regex} {text : Text} {next : Cursor}
    (found : regex.firstMatch (Cursor.start text) = some next) (whole : next.rest = [])
    (filled : text ≠ []) (done : ∀ cursor : Cursor, cursor.rest = [] →
      regex.firstMatch cursor = none) :
    regex.finditer text = [{ start := 0, text, groups := next.groups }] := by
  have consumed : (Cursor.start text).consumed next = text := by
    unfold Cursor.consumed Cursor.start
    rw [whole, List.length_nil, Nat.sub_zero, List.take_length]
  have present : text.isEmpty = false := by
    rw [List.isEmpty_eq_false_iff]
    exact filled
  have last : ∀ fuel position, regex.findFrom fuel position next = [] := by
    intro fuel position
    cases fuel with
    | zero => rfl
    | succ fuel => rw [findFrom, done next whole, whole]
  unfold finditer
  rw [findFrom, found]
  simp only [consumed, present, Bool.false_eq_true, if_false, last]

/-- A match with groups, and the scan behind it. -/
theorem findFrom_of_groups {regex : Regex} {cursor : Cursor} {passed later : Text}
    {groups : List (Nat × Text)}
    (found : regex.firstMatch cursor = some { cursor.advance passed with groups })
    (present : passed ≠ []) (split : cursor.rest = passed ++ later) (fuel position : Nat) :
    regex.findFrom (fuel + 1) position cursor =
      { start := position, text := passed, groups } ::
        regex.findFrom fuel (position + passed.length)
          { cursor.advance passed with groups } := by
  have consumed : cursor.consumed { cursor.advance passed with groups } = passed :=
    consumed_advance split
  have filled : passed.isEmpty = false := by
    rw [List.isEmpty_eq_false_iff]
    exact present
  rw [findFrom, found]
  simp only [consumed, filled, Bool.false_eq_true, if_false]

/-- What holds of the groups at every end holds of the groups of every match. -/
theorem findFrom_groups {regex : Regex} {fact : List (Nat × Text) → Prop}
    (all : ∀ cursor : Cursor, cursor.groups = [] → ∀ next ∈ regex.ends cursor,
      fact next.groups) (fuel : Nat) :
    ∀ position cursor, ∀ found ∈ regex.findFrom fuel position cursor, fact found.groups := by
  induction fuel with
  | zero =>
      intro position cursor found member
      cases member
  | succ fuel ih =>
      intro position cursor found member
      have matched : ∀ next, regex.firstMatch cursor = some next → fact next.groups :=
        fun next attempt => all { cursor with groups := [] } rfl next (List.mem_of_head? attempt)
      have moved : ∀ head tail, found ∈ regex.findFrom fuel (position + 1) ⟨some head, tail, []⟩ →
          fact found.groups :=
        fun _head _tail inside => ih _ _ found inside
      unfold findFrom at member
      cases attempt : regex.firstMatch cursor with
      | none =>
          rw [attempt] at member
          cases shape : cursor.rest with
          | nil =>
              rw [shape] at member
              cases member
          | cons head tail =>
              rw [shape] at member
              exact moved head tail member
      | some next =>
          rw [attempt] at member
          simp only at member
          split at member
          · rcases List.mem_cons.mp member with same | later
            · rw [same]
              exact matched next attempt
            · cases shape : cursor.rest with
              | nil =>
                  rw [shape] at later
                  cases later
              | cons head tail =>
                  rw [shape] at later
                  exact moved head tail later
          · rcases List.mem_cons.mp member with same | later
            · rw [same]
              exact matched next attempt
            · exact ih _ _ found later

theorem finditer_groups {regex : Regex} {fact : List (Nat × Text) → Prop}
    (all : ∀ cursor : Cursor, cursor.groups = [] → ∀ next ∈ regex.ends cursor,
      fact next.groups) {text : Text} {found : Match} (member : found ∈ regex.finditer text) :
    fact found.groups :=
  findFrom_groups all _ 0 (Cursor.start text) found member

/-- A group that begins with a literal is not empty. -/
theorem group_literal_filled {index : Nat} {head : Char} {tail : Text} {rest : Regex}
    {cursor next : Cursor}
    (member : next ∈ (group index (seq (literal (head :: tail)) rest)).ends cursor) :
    (next.groups.lookup index).getD [] ≠ [] := by
  obtain ⟨inner, reached, same⟩ := List.mem_map.mp member
  obtain ⟨middle, afterLiteral, later⟩ := List.mem_flatMap.mp reached
  have front := literal_ends (head :: tail) cursor middle afterLiteral
  obtain ⟨passed, back⟩ := ends_leads rest middle inner later
  have leads := ends_leads _ cursor inner reached
  have whole := leads.consumed_append
  rw [← same]
  simp only [List.lookup_cons, beq_self_eq_true, Option.getD_some]
  intro empty
  rw [empty, List.nil_append, front, ← back] at whole
  have lengths := congrArg List.length whole
  simp only [List.length_append, List.length_cons] at lengths
  omega

end VaultSearch.Regex
