/-
A backtracking matcher for the regular expressions of the program.  An
expression is a term, a match attempt lists every way to match from a cursor in
the order in which a backtracking engine tries them, and the first one is the
match.

Only the constructs that occur are there: classes, sequence, alternative, greedy
and lazy repetition, numbered groups with back references, the negative
lookbehind for one character, and the two line anchors of multiline mode.
-/

import VaultSearch.Text.Basic

set_option autoImplicit false

namespace VaultSearch

inductive Regex where
  | empty
  | chars (accepts : Char → Bool)
  | seq (first second : Regex)
  | alt (first second : Regex)
  | star (body : Regex)
  | lazyStar (body : Regex)
  | group (index : Nat) (body : Regex)
  | backref (index : Nat)
  | notBehind (accepts : Char → Bool)
  | lineStart
  | lineEnd

namespace Regex

/-! ### Cursors -/

structure Cursor where
  before : Option Char
  rest : Text
  groups : List (Nat × Text)

def Cursor.start (text : Text) : Cursor :=
  { before := none, rest := text, groups := [] }

/-- What lies between a cursor and a later one. -/
def Cursor.consumed (cursor later : Cursor) : Text :=
  cursor.rest.take (cursor.rest.length - later.rest.length)

def Cursor.advance (cursor : Cursor) (passed : Text) : Cursor :=
  { cursor with
    before := passed.getLast?.or cursor.before
    rest := cursor.rest.drop passed.length }

/-! ### Matching -/

/-- Repeat `step` as long as it makes progress; the longest run comes first. -/
def greedyRuns (step : Cursor → List Cursor) : Nat → Cursor → List Cursor
  | 0, cursor => [cursor]
  | fuel + 1, cursor =>
      ((step cursor).filter (fun next => next.rest.length < cursor.rest.length)).flatMap
        (greedyRuns step fuel) ++ [cursor]

/-- The same runs with the shortest one first. -/
def lazyRuns (step : Cursor → List Cursor) : Nat → Cursor → List Cursor
  | 0, cursor => [cursor]
  | fuel + 1, cursor =>
      cursor :: ((step cursor).filter
        (fun next => next.rest.length < cursor.rest.length)).flatMap (lazyRuns step fuel)

/-- The cursors at which a match from `cursor` can end, in order of preference. -/
def ends : Regex → Cursor → List Cursor
  | empty, cursor => [cursor]
  | chars accepts, cursor =>
      match cursor.rest with
      | [] => []
      | head :: tail =>
          if accepts head then [{ cursor with before := some head, rest := tail }] else []
  | seq first second, cursor => (first.ends cursor).flatMap second.ends
  | alt first second, cursor => first.ends cursor ++ second.ends cursor
  | star body, cursor => greedyRuns body.ends cursor.rest.length cursor
  | lazyStar body, cursor => lazyRuns body.ends cursor.rest.length cursor
  | group index body, cursor =>
      (body.ends cursor).map (fun next =>
        { next with groups := (index, cursor.consumed next) :: next.groups })
  | backref index, cursor =>
      match cursor.groups.lookup index with
      | none => []
      | some captured =>
          if captured.isPrefixOf cursor.rest then [cursor.advance captured] else []
  | notBehind accepts, cursor =>
      if cursor.before.any accepts then [] else [cursor]
  | lineStart, cursor =>
      if cursor.before.all (· == '\n') then [cursor] else []
  | lineEnd, cursor =>
      if cursor.rest.head?.all (· == '\n') then [cursor] else []

theorem ends_empty (cursor : Cursor) : empty.ends cursor = [cursor] := rfl

theorem ends_seq (first second : Regex) (cursor : Cursor) :
    (seq first second).ends cursor = (first.ends cursor).flatMap second.ends := rfl

theorem ends_alt (first second : Regex) (cursor : Cursor) :
    (alt first second).ends cursor = first.ends cursor ++ second.ends cursor := rfl

theorem ends_star (body : Regex) (cursor : Cursor) :
    (star body).ends cursor = greedyRuns body.ends cursor.rest.length cursor := rfl

theorem ends_group (index : Nat) (body : Regex) (cursor : Cursor) :
    (group index body).ends cursor =
      (body.ends cursor).map (fun next =>
        { next with groups := (index, cursor.consumed next) :: next.groups }) := rfl

theorem ends_notBehind (accepts : Char → Bool) (cursor : Cursor) :
    (notBehind accepts).ends cursor = if cursor.before.any accepts then [] else [cursor] := rfl

theorem ends_lineStart (cursor : Cursor) :
    lineStart.ends cursor = if cursor.before.all (· == '\n') then [cursor] else [] := rfl

theorem ends_lineEnd (cursor : Cursor) :
    lineEnd.ends cursor = if cursor.rest.head?.all (· == '\n') then [cursor] else [] := rfl

theorem ends_chars_nil {accepts : Char → Bool} {cursor : Cursor} (shape : cursor.rest = []) :
    (chars accepts).ends cursor = [] := by
  cases cursor
  cases shape
  rfl

theorem ends_chars_cons {accepts : Char → Bool} {cursor : Cursor} {head : Char} {tail : Text}
    (shape : cursor.rest = head :: tail) :
    (chars accepts).ends cursor =
      if accepts head then [{ cursor with before := some head, rest := tail }] else [] := by
  cases cursor
  cases shape
  rfl

/-- `match.start()`, `match.group(0)` and the numbered groups of one match. -/
structure Match where
  start : Nat
  text : Text
  groups : List (Nat × Text)

def Match.stop (found : Match) : Nat :=
  found.start + found.text.length

/-- `match.group(index)`, empty for a group that took no part. -/
def Match.groupText (found : Match) (index : Nat) : Text :=
  (found.groups.lookup index).getD []

def firstMatch (regex : Regex) (cursor : Cursor) : Option Cursor :=
  (regex.ends { cursor with groups := [] }).head?

/-- `regex.finditer`: scan from left to right and resume behind each match.  The
fuel is one more than the length of the text that is left. -/
def findFrom (regex : Regex) : Nat → Nat → Cursor → List Match
  | 0, _, _ => []
  | fuel + 1, position, cursor =>
      match regex.firstMatch cursor with
      | some next =>
          let text := cursor.consumed next
          if text.isEmpty then
            { start := position, text := [], groups := next.groups } ::
              (match cursor.rest with
              | [] => []
              | head :: tail =>
                  findFrom regex fuel (position + 1) ⟨some head, tail, []⟩)
          else
            { start := position, text, groups := next.groups } ::
              findFrom regex fuel (position + text.length) next
      | none =>
          match cursor.rest with
          | [] => []
          | head :: tail => findFrom regex fuel (position + 1) ⟨some head, tail, []⟩

def finditer (regex : Regex) (text : Text) : List Match :=
  regex.findFrom (text.length + 1) 0 (Cursor.start text)

/-- `regex.sub("", text)`: the text without its matches, taken from `position`. -/
def dropMatches (text : Text) (position : Nat) : List Match → Text
  | [] => text.drop position
  | found :: rest =>
      (text.take found.start).drop position ++ dropMatches text found.stop rest

def remove (regex : Regex) (text : Text) : Text :=
  dropMatches text 0 (regex.finditer text)

/-! ### Derived expressions -/

def literal : Text → Regex
  | [] => empty
  | head :: tail => seq (chars (· == head)) (literal tail)

def plus (body : Regex) : Regex :=
  seq body (star body)

def opt (body : Regex) : Regex :=
  alt body empty

/-- At most `bound` repetitions, as many as possible first. -/
def atMost (body : Regex) : Nat → Regex
  | 0 => empty
  | bound + 1 => opt (seq body (atMost body bound))

/-- `body{1,bound}` for a positive bound. -/
def oneTo (body : Regex) (bound : Nat) : Regex :=
  seq body (atMost body (bound - 1))

/-- Alternatives tried in order. -/
def anyOf : List Regex → Regex
  | [] => chars (fun _ => false)
  | [only] => only
  | first :: rest => alt first (anyOf rest)

def space : Regex :=
  chars Text.isSpace

def noneOf (excluded : Text) : Regex :=
  chars (fun char => !excluded.contains char)

/-- The dot of an expression that is not in `DOTALL` mode. -/
def dot : Regex :=
  noneOf ['\n']

/-! ### Every end is a suffix -/

/-- `later` stands behind `cursor`, both on the same text. -/
def Cursor.Leads (cursor later : Cursor) : Prop :=
  later.rest <:+ cursor.rest

theorem Cursor.Leads.refl (cursor : Cursor) : cursor.Leads cursor :=
  List.suffix_refl _

theorem Cursor.Leads.trans {first second third : Cursor}
    (left : first.Leads second) (right : second.Leads third) : first.Leads third :=
  List.IsSuffix.trans right left

theorem greedyRuns_leads (step : Cursor → List Cursor)
    (forward : ∀ cursor, ∀ next ∈ step cursor, cursor.Leads next) (fuel : Nat) :
    ∀ cursor, ∀ last ∈ greedyRuns step fuel cursor, cursor.Leads last := by
  induction fuel with
  | zero =>
      intro cursor last member
      simp only [greedyRuns, List.mem_singleton] at member
      rw [member]
      exact Cursor.Leads.refl cursor
  | succ fuel ih =>
      intro cursor last member
      simp only [greedyRuns, List.mem_append, List.mem_flatMap, List.mem_filter,
        List.mem_singleton] at member
      rcases member with ⟨next, ⟨reached, _shorter⟩, later⟩ | same
      · exact (forward cursor next reached).trans (ih next last later)
      · rw [same]
        exact Cursor.Leads.refl cursor

theorem lazyRuns_leads (step : Cursor → List Cursor)
    (forward : ∀ cursor, ∀ next ∈ step cursor, cursor.Leads next) (fuel : Nat) :
    ∀ cursor, ∀ last ∈ lazyRuns step fuel cursor, cursor.Leads last := by
  induction fuel with
  | zero =>
      intro cursor last member
      simp only [lazyRuns, List.mem_singleton] at member
      rw [member]
      exact Cursor.Leads.refl cursor
  | succ fuel ih =>
      intro cursor last member
      simp only [lazyRuns, List.mem_cons, List.mem_flatMap, List.mem_filter] at member
      rcases member with same | ⟨next, ⟨reached, _shorter⟩, later⟩
      · rw [same]
        exact Cursor.Leads.refl cursor
      · exact (forward cursor next reached).trans (ih next last later)

theorem ends_leads (regex : Regex) :
    ∀ cursor, ∀ last ∈ regex.ends cursor, cursor.Leads last := by
  induction regex with
  | empty =>
      intro cursor last member
      simp only [ends_empty, List.mem_singleton] at member
      rw [member]
      exact Cursor.Leads.refl cursor
  | chars accepts =>
      intro cursor last member
      cases found : cursor.rest with
      | nil => simp [ends_chars_nil found] at member
      | cons head tail =>
          by_cases accepted : accepts head = true
          · simp only [ends_chars_cons found, accepted, if_true, List.mem_singleton] at member
            rw [member]
            unfold Cursor.Leads
            rw [found]
            exact List.suffix_cons head tail
          · simp [ends_chars_cons found, accepted] at member
  | seq first second ihFirst ihSecond =>
      intro cursor last member
      simp only [ends_seq, List.mem_flatMap] at member
      obtain ⟨middle, reached, later⟩ := member
      exact (ihFirst cursor middle reached).trans (ihSecond middle last later)
  | alt first second ihFirst ihSecond =>
      intro cursor last member
      simp only [ends_alt, List.mem_append] at member
      rcases member with left | right
      · exact ihFirst cursor last left
      · exact ihSecond cursor last right
  | star body ih =>
      intro cursor last member
      exact greedyRuns_leads body.ends ih _ cursor last member
  | lazyStar body ih =>
      intro cursor last member
      exact lazyRuns_leads body.ends ih _ cursor last member
  | group index body ih =>
      intro cursor last member
      simp only [ends_group, List.mem_map] at member
      obtain ⟨next, reached, same⟩ := member
      rw [← same]
      exact ih cursor next reached
  | backref index =>
      intro cursor last member
      simp only [ends] at member
      split at member
      · cases member
      · split at member
        · rw [List.mem_singleton.mp member]
          exact List.drop_suffix _ _
        · cases member
  | notBehind accepts =>
      intro cursor last member
      rw [ends_notBehind] at member
      split at member
      · cases member
      · rw [List.mem_singleton.mp member]
        exact Cursor.Leads.refl cursor
  | lineStart =>
      intro cursor last member
      rw [ends_lineStart] at member
      split at member
      · rw [List.mem_singleton.mp member]
        exact Cursor.Leads.refl cursor
      · cases member
  | lineEnd =>
      intro cursor last member
      rw [ends_lineEnd] at member
      split at member
      · rw [List.mem_singleton.mp member]
        exact Cursor.Leads.refl cursor
      · cases member

theorem Cursor.Leads.consumed_append {cursor later : Cursor} (leads : cursor.Leads later) :
    cursor.consumed later ++ later.rest = cursor.rest := by
  obtain ⟨passed, split⟩ := leads
  unfold Cursor.consumed
  rw [← split, List.length_append, Nat.add_sub_cancel, List.take_left]

/-- A literal consumes itself. -/
theorem literal_ends (wanted : Text) :
    ∀ cursor, ∀ last ∈ (literal wanted).ends cursor, cursor.rest = wanted ++ last.rest := by
  induction wanted with
  | nil =>
      intro cursor last member
      simp only [literal, ends_empty, List.mem_singleton] at member
      rw [member]
      rfl
  | cons head tail ih =>
      intro cursor last member
      simp only [literal, ends_seq, List.mem_flatMap] at member
      obtain ⟨middle, reached, later⟩ := member
      cases found : cursor.rest with
      | nil => simp [ends_chars_nil found] at reached
      | cons char rest =>
          by_cases accepted : (char == head) = true
          · simp only [ends_chars_cons found, accepted, if_true, List.mem_singleton] at reached
            have tailSplit := ih middle last later
            rw [reached] at tailSplit
            rw [List.cons_append, ← tailSplit, eq_of_beq accepted]
          · simp [ends_chars_cons found, accepted] at reached

/-- Behind two texts that stand one after the other. -/
theorem Cursor.advance_advance (cursor : Cursor) (first second : Text) :
    (cursor.advance first).advance second = cursor.advance (first ++ second) := by
  unfold Cursor.advance
  simp only [List.getLast?_append, Option.or_assoc, List.drop_drop, List.length_append]

@[simp] theorem Cursor.advance_nil (cursor : Cursor) : cursor.advance [] = cursor := rfl

/-- A literal matches at a cursor in at most one way. -/
theorem literal_ends_eq (wanted : Text) :
    ∀ cursor : Cursor, (literal wanted).ends cursor =
      if wanted.isPrefixOf cursor.rest then [cursor.advance wanted] else [] := by
  induction wanted with
  | nil =>
      intro cursor
      simp [literal, ends_empty]
  | cons head tail ih =>
      intro cursor
      cases shape : cursor.rest with
      | nil => simp [literal, ends_seq, ends_chars_nil shape]
      | cons char rest =>
          by_cases accepted : char = head
          · subst accepted
            have moved : ({ cursor with before := some char, rest } : Cursor) =
                cursor.advance [char] := by
              simp [Cursor.advance, shape]
            have rested : (cursor.advance [char]).rest = rest := by
              rw [← moved]
            simp only [literal, ends_seq, ends_chars_cons shape, beq_self_eq_true, if_true,
              List.flatMap_singleton]
            rw [moved, ih, rested, Cursor.advance_advance]
            simp [List.isPrefixOf]
          · have refused : (head == char) = false := by
              rw [beq_eq_false_iff_ne]
              exact fun same => accepted same.symm
            simp [literal, ends_seq, ends_chars_cons shape, accepted, List.isPrefixOf, refused]

/-! ### The matches of a scan -/

theorem findFrom_of_none {regex : Regex} {cursor : Cursor} (none : regex.firstMatch cursor = none)
    {head : Char} {tail : Text} (shape : cursor.rest = head :: tail) (fuel position : Nat) :
    regex.findFrom (fuel + 1) position cursor =
      regex.findFrom fuel (position + 1) ⟨some head, tail, []⟩ := by
  rw [findFrom, none, shape]

theorem findFrom_of_advance {regex : Regex} {cursor : Cursor} {passed : Text}
    (found : regex.firstMatch cursor = some (cursor.advance passed)) (present : passed ≠ [])
    (inside : passed <+: cursor.rest) (fuel position : Nat) :
    regex.findFrom (fuel + 1) position cursor =
      { start := position, text := passed, groups := cursor.groups } ::
        regex.findFrom fuel (position + passed.length) (cursor.advance passed) := by
  have consumed : cursor.consumed (cursor.advance passed) = passed := by
    obtain ⟨later, whole⟩ := inside
    unfold Cursor.consumed Cursor.advance
    rw [← whole, List.length_drop, List.length_append, Nat.add_sub_cancel_left,
      Nat.add_sub_cancel, List.take_left]
  have filled : passed.isEmpty = false := by
    rw [List.isEmpty_eq_false_iff]
    exact present
  rw [findFrom, found]
  simp only [consumed, filled, Bool.false_eq_true, if_false]
  rfl

/-- A match whose text stands at its start, at or behind `position`. -/
def Match.On (found : Match) (position : Nat) (rest : Text) : Prop :=
  ∃ passed later, rest = passed ++ found.text ++ later ∧
    found.start = position + passed.length

/-- Every match of a scan stands in the text at its own start. -/
theorem findFrom_on (regex : Regex) (fuel : Nat) :
    ∀ position cursor, ∀ found ∈ regex.findFrom fuel position cursor,
      found.On position cursor.rest := by
  induction fuel with
  | zero =>
      intro position cursor found member
      cases member
  | succ fuel ih =>
      intro position cursor found member
      have later : ∀ head tail, cursor.rest = head :: tail →
          found ∈ regex.findFrom fuel (position + 1) ⟨some head, tail, []⟩ →
          found.On position cursor.rest := by
        intro head tail shape inside
        obtain ⟨passed, after, split, start⟩ := ih _ _ found inside
        refine ⟨head :: passed, after, ?_, ?_⟩
        · rw [shape]
          simp only at split
          rw [split]
          simp
        · rw [start, List.length_cons]
          omega
      unfold findFrom at member
      split at member
      · rename_i next attempt
        have reached : next ∈ regex.ends { cursor with groups := [] } :=
          List.mem_of_head? attempt
        have leads : cursor.Leads next := ends_leads regex { cursor with groups := [] } next reached
        have whole := leads.consumed_append
        simp only at member
        split at member
        · rcases List.mem_cons.mp member with same | inside
          · rw [same]
            exact ⟨[], cursor.rest, rfl, rfl⟩
          · split at inside
            · cases inside
            · rename_i head tail shape
              exact later head tail shape inside
        · rcases List.mem_cons.mp member with same | inside
          · rw [same]
            exact ⟨[], next.rest, whole.symm, rfl⟩
          · obtain ⟨passed, after, split, start⟩ := ih _ _ found inside
            refine ⟨cursor.consumed next ++ passed, after, ?_, ?_⟩
            · rw [← whole, split]
              simp
            · rw [start, List.length_append]
              omega
      · split at member
        · cases member
        · rename_i head tail shape
          exact later head tail shape member

theorem finditer_on (regex : Regex) (text : Text) (found : Match)
    (member : found ∈ regex.finditer text) : found.On 0 text :=
  findFrom_on regex _ 0 (Cursor.start text) found member

end Regex

end VaultSearch
