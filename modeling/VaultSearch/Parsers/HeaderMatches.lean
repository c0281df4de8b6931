/-
What the expression for headings, `^(#{1,levels})\s+(.+)$`, finds: where a line begins with
hashes and whitespace, the title is the rest of the first line that has more than whitespace,
be it this line or a later one.
-/

import VaultSearch.Parsers.Markdown
import VaultSearch.Regex.Runs

set_option autoImplicit false

namespace VaultSearch

open Regex

/-! ### At a cursor -/

/-- What `.+$` takes. -/
def titleHere (text : Text) : Option Text :=
  match text with
  | [] => none
  | head :: tail =>
      if head = '\n' then none else some (head :: tail.takeWhile (· ≠ '\n'))

/-- What `\s*` and `.+$` take, the whitespace as far as it leaves a title. -/
def titleFrom : Text → Option (Text × Text)
  | [] => none
  | head :: tail =>
      if Text.isSpace head then
        match titleFrom tail with
        | some (spaces, title) => some (head :: spaces, title)
        | none => (titleHere (head :: tail)).map (fun title => ([], title))
      else (titleHere (head :: tail)).map (fun title => ([], title))

/-- What `\s+` and `.+$` take. -/
def titleBehind : Text → Option (Text × Text)
  | [] => none
  | head :: tail =>
      if Text.isSpace head then
        (titleFrom tail).map (fun parts => (head :: parts.1, parts.2))
      else none

def hashes (text : Text) : Text :=
  text.takeWhile (· == '#')

/-- The hashes, the whitespace and the title of a heading at the start of a text. -/
def headingHere (levels : Nat) (text : Text) : Option (Text × Text × Text) :=
  if hashes text ≠ [] ∧ (hashes text).length ≤ levels then
    (titleBehind (text.drop (hashes text).length)).map (fun parts => (hashes text, parts))
  else none

/-- `(.+)$` -/
def titleRe : Regex :=
  .seq (.group 2 (.plus .dot)) .lineEnd

theorem titleRe_head (cursor : Cursor) :
    (titleRe.ends cursor).head? = (titleHere cursor.rest).map (fun title =>
      { cursor.advance title with groups := (2, title) :: cursor.groups }) := by
  cases shape : cursor.rest with
  | nil =>
      have none : titleRe.ends cursor = [] := by
        unfold titleRe plus dot noneOf
        simp [ends_seq, ends_group, ends_chars_nil shape]
      rw [none]
      rfl
  | cons head tail =>
      by_cases line : head = '\n'
      · have none : titleRe.ends cursor = [] := by
          unfold titleRe plus dot noneOf
          simp [ends_seq, ends_group, ends_chars_cons shape, line]
        rw [none, titleHere, if_pos line]
        rfl
      · have accepted : (!(['\n'] : Text).contains head) = true := by
          simpa using line
        obtain ⟨others, runs⟩ := @plus_chars (fun char => !(['\n'] : Text).contains char) _ _ _
          shape accepted
        have sameRun : tail.takeWhile (fun char => !(['\n'] : Text).contains char) =
            tail.takeWhile (· ≠ '\n') := by
          congr 1
          funext char
          simp
        have split : cursor.rest = (head :: tail.takeWhile (· ≠ '\n')) ++
            tail.dropWhile (· ≠ '\n') := by
          rw [shape, List.cons_append, List.takeWhile_append_dropWhile]
        rw [sameRun] at runs
        have consumed := consumed_advance split
        have ended : (cursor.advance (head :: tail.takeWhile (· ≠ '\n'))).rest.head?.all
            (· == '\n') = true := by
          rw [advance_rest split]
          have first := List.head?_dropWhile_not (· ≠ '\n') tail
          cases found : (tail.dropWhile (· ≠ '\n')).head? with
          | none => rfl
          | some char =>
              rw [found] at first
              simpa using first
        rw [titleHere, if_neg line, titleRe, ends_seq, ends_group, dot, noneOf, runs,
          List.map_cons, List.flatMap_cons, consumed, ends_lineEnd]
        simp only
        rw [if_pos ended]
        rfl

/-- Of all runs of whitespace, the first one that leaves a title. -/
theorem titleFrom_head (fuel : Nat) :
    ∀ cursor : Cursor, cursor.rest.length ≤ fuel →
      ((greedyRuns Regex.space.ends fuel cursor).flatMap titleRe.ends).head? =
        (titleFrom cursor.rest).map (fun parts =>
          { cursor.advance (parts.1 ++ parts.2) with
            groups := (2, parts.2) :: cursor.groups }) := by
  induction fuel with
  | zero =>
      intro cursor bound
      have empty : cursor.rest = [] := List.eq_nil_of_length_eq_zero (Nat.le_zero.mp bound)
      rw [greedyRuns, List.flatMap_singleton, titleRe_head, empty]
      rfl
  | succ fuel ih =>
      intro cursor bound
      cases shape : cursor.rest with
      | nil =>
          have alone : greedyRuns Regex.space.ends (fuel + 1) cursor = [cursor] := by
            simp [greedyRuns, Regex.space, ends_chars_nil shape, shape]
          rw [alone, List.flatMap_singleton, titleRe_head, shape]
          rfl
      | cons head tail =>
          by_cases space : Text.isSpace head = true
          · have rested : (cursor.advance [head]).rest = tail := advance_rest shape
            have tailBound : (cursor.advance [head]).rest.length ≤ fuel := by
              rw [rested]
              rw [shape, List.length_cons] at bound
              omega
            have later := ih (cursor.advance [head]) tailBound
            rw [rested] at later
            have shorter : (cursor.advance [head]).rest.length < cursor.rest.length := by
              rw [rested, shape]
              exact Nat.lt_succ_self _
            have runs : greedyRuns Regex.space.ends (fuel + 1) cursor =
                greedyRuns Regex.space.ends fuel (cursor.advance [head]) ++ [cursor] := by
              rw [greedyRuns, Regex.space, chars_ends shape, if_pos space, List.filter_cons_of_pos,
                List.filter_nil, List.flatMap_singleton]
              exact decide_eq_true shorter
            rw [runs, List.flatMap_append, List.flatMap_singleton, List.head?_append, later,
              titleRe_head, titleFrom, if_pos space, shape]
            cases titleFrom tail with
            | none =>
                simp only [Option.map_none, Option.none_or, Option.map_map]
                rfl
            | some parts =>
                simp only [Option.map_some, Option.some_or]
                rw [Cursor.advance_advance]
                rfl
          · have alone : greedyRuns Regex.space.ends (fuel + 1) cursor = [cursor] := by
              rw [greedyRuns, Regex.space, chars_ends shape, if_neg space]
              rfl
            rw [alone, List.flatMap_singleton, titleRe_head, titleFrom, if_neg space, shape,
              Option.map_map]
            rfl

/-- `\s+(.+)$` -/
def spacedTitleRe : Regex :=
  .seq (.plus .space) titleRe

theorem spacedTitleRe_head (cursor : Cursor) :
    (spacedTitleRe.ends cursor).head? = (titleBehind cursor.rest).map (fun parts =>
      { cursor.advance (parts.1 ++ parts.2) with groups := (2, parts.2) :: cursor.groups }) := by
  cases shape : cursor.rest with
  | nil =>
      have none : spacedTitleRe.ends cursor = [] := by
        unfold spacedTitleRe plus Regex.space
        simp [ends_seq, ends_chars_nil shape]
      rw [none]
      rfl
  | cons head tail =>
      have split : spacedTitleRe.ends cursor =
          ((Regex.space.ends cursor).flatMap (star .space).ends).flatMap titleRe.ends := rfl
      rw [split, Regex.space, chars_ends shape, titleBehind]
      by_cases space : Text.isSpace head = true
      · have rested : (cursor.advance [head]).rest = tail := advance_rest shape
        have later := titleFrom_head _ (cursor.advance [head]) (Nat.le_refl _)
        rw [rested] at later
        rw [if_pos space, if_pos space, List.flatMap_singleton, ends_star]
        rw [rested]
        refine later.trans ?_
        rw [Option.map_map]
        congr 1
        funext parts
        rw [Cursor.advance_advance]
        rfl
      · rw [if_neg space, if_neg space]
        rfl

/-- Behind the hashes: all of them are taken, or there is no match. -/
theorem hashes_head {levels : Nat} (positive : 0 < levels) (cursor : Cursor) :
    ((Regex.seq (.group 1 (.oneTo (.chars (· == '#')) levels)) spacedTitleRe).ends cursor).head? =
      (headingHere levels cursor.rest).map (fun parts =>
        { cursor.advance (parts.1 ++ (parts.2.1 ++ parts.2.2)) with
          groups := (2, parts.2.2) :: (1, parts.1) :: cursor.groups }) := by
  let next := fun later : Cursor => spacedTitleRe.ends
    { later with groups := (1, cursor.consumed later) :: later.groups }
  have split : (Regex.seq (.group 1 (.oneTo (.chars (· == '#')) levels)) spacedTitleRe).ends cursor =
      (((Regex.chars (· == '#')).ends cursor).flatMap
        (atMost (.chars (· == '#')) (levels - 1)).ends).flatMap next :=
    List.flatMap_map _ _ _
  have stops : ∀ later : Cursor, later.rest.head?.any (· == '#') = true → next later = [] := by
    intro later ahead
    have none : titleBehind later.rest = none := by
      cases shape : later.rest with
      | nil => rfl
      | cons head tail =>
          rw [shape] at ahead
          have hash : head = '#' := eq_of_beq ahead
          rw [titleBehind, hash, if_neg (by decide)]
    have head := spacedTitleRe_head
      { later with groups := (1, cursor.consumed later) :: later.groups }
    simp only at head
    rw [none, Option.map_none, List.head?_eq_none_iff] at head
    exact head
  rw [split]
  cases shape : cursor.rest with
  | nil =>
      have nothing : (Regex.chars (· == '#')).ends cursor = [] := ends_chars_nil shape
      rw [nothing]
      rfl
  | cons head tail =>
      rw [chars_ends shape]
      by_cases hash : (head == '#') = true
      · have rested : (cursor.advance [head]).rest = tail := advance_rest shape
        have run : hashes (head :: tail) = head :: hashes tail :=
          List.takeWhile_cons_of_pos hash
        have whole : cursor.rest = (head :: hashes tail) ++ tail.dropWhile (· == '#') := by
          rw [shape, List.cons_append, hashes, List.takeWhile_append_dropWhile]
        have behind : (head :: tail).drop (head :: hashes tail).length =
            tail.dropWhile (· == '#') := by
          rw [← shape, whole, List.drop_left]
        have consumed := consumed_advance whole
        have after := advance_rest whole
        rw [if_pos hash, List.flatMap_singleton, atMost_chars _ _ stops, rested,
          Cursor.advance_advance]
        change (if (hashes tail).length ≤ levels - 1 then
          next (cursor.advance (head :: hashes tail)) else []).head? = _
        unfold headingHere
        rw [run, behind]
        by_cases fits : (hashes tail).length ≤ levels - 1
        · have few : (head :: hashes tail).length ≤ levels := by
            rw [List.length_cons]
            omega
          have found := spacedTitleRe_head { cursor.advance (head :: hashes tail) with
            groups := (1, cursor.consumed (cursor.advance (head :: hashes tail))) ::
              cursor.groups }
          have sameTitle := congrArg titleBehind after
          rw [if_pos fits, if_pos ⟨List.cons_ne_nil _ _, few⟩]
          refine found.trans ?_
          simp only
          rw [sameTitle, consumed, Option.map_map]
          congr 1
          funext parts
          have moved := Cursor.advance_advance cursor (head :: hashes tail) (parts.1 ++ parts.2)
          simp only [Function.comp_apply]
          rw [← moved]
          rfl
        · have many : ¬(head :: hashes tail).length ≤ levels := by
            rw [List.length_cons]
            omega
          rw [if_neg fits, if_neg (fun both => many both.2)]
          rfl
      · have none : hashes (head :: tail) = [] := List.takeWhile_cons_of_neg hash
        rw [if_neg hash, headingHere, none, if_neg (fun both => both.1 rfl)]
        rfl

/-- At a line start the expression finds the heading of the text, elsewhere nothing. -/
theorem firstMatch_headerRe {levels : Nat} (positive : 0 < levels) (cursor : Cursor) :
    (headerRe levels).firstMatch cursor =
      if cursor.before.all (· == '\n') then
        (headingHere levels cursor.rest).map (fun parts =>
          { cursor.advance (parts.1 ++ (parts.2.1 ++ parts.2.2)) with
            groups := [(2, parts.2.2), (1, parts.1)] })
      else none := by
  let bare : Cursor := { cursor with groups := [] }
  have split : (headerRe levels).ends bare =
      (if bare.before.all (· == '\n') then [bare] else []).flatMap
        (Regex.seq (.group 1 (.oneTo (.chars (· == '#')) levels)) spacedTitleRe).ends := rfl
  rw [firstMatch]
  change ((headerRe levels).ends bare).head? = _
  rw [split]
  have sameStart : bare.before = cursor.before := rfl
  rw [sameStart]
  split
  · rw [List.flatMap_singleton, hashes_head positive]
    rfl
  · rfl

end VaultSearch
