/-
Headings line by line.

A heading line has its title on the same line.  A bare line, hashes and nothing else, takes
the next line that is not blank for its title, and that line is not looked at any more.
-/

import VaultSearch.Parsers.HeaderMatches
import VaultSearch.Text.Lines

set_option autoImplicit false

namespace VaultSearch

open Regex

/-- Level and title of a single line of hashes, whitespace and a title. -/
def headingLine (levels : Nat) (line : Text) : Option (Nat × Text) :=
  let behind := line.drop (hashes line).length
  if hashes line ≠ [] ∧ (hashes line).length ≤ levels ∧ behind.head?.any Text.isSpace = true ∧
      Text.isBlank behind = false then
    some ((hashes line).length, Text.strip behind)
  else none

/-- A line of hashes with nothing but whitespace behind them. -/
def bareLine (levels : Nat) (line : Text) : Prop :=
  hashes line ≠ [] ∧ (hashes line).length ≤ levels ∧
    Text.isBlank (line.drop (hashes line).length) = true

instance (levels : Nat) (line : Text) : Decidable (bareLine levels line) := by
  unfold bareLine
  infer_instance

/-- The title that a bare line takes from the lines below.  When these are blank it still
needs a character to be its title, other than the first behind the hashes. -/
def takenTitle (line : Text) (below : List Text) : Option Text :=
  match below.find? (fun line => !Text.isBlank line) with
  | some title => some (Text.strip title)
  | none =>
      if 2 ≤ (line.drop (hashes line).length).length ∨ below.any (fun line => !line.isEmpty) then
        some []
      else none

/-- What the expression sees in each line; a title that was taken is passed over. -/
def countedHeadings (levels : Nat) : Bool → List Text → List (Option (Nat × Text))
  | _, [] => []
  | true, line :: below => none :: countedHeadings levels (Text.isBlank line) below
  | false, line :: below =>
      match headingLine levels line with
      | some heading => some heading :: countedHeadings levels false below
      | none =>
          if bareLine levels line then
            match takenTitle line below with
            | some title =>
                some ((hashes line).length, title) :: countedHeadings levels true below
            | none => none :: countedHeadings levels false below
          else none :: countedHeadings levels false below

/-- The headings with the positions at which their lines start. -/
def placed : Nat → List Text → List (Option (Nat × Text)) → List (Nat × Nat × Text)
  | position, line :: below, event :: events =>
      (event.map (fun heading => (position, heading))).toList ++
        placed (position + line.length + 1) below events
  | _, _, _ => []

/-- The headings of a text that starts at a position. -/
def placedHeadings (levels position : Nat) (skipping : Bool) (text : Text) :
    List (Nat × Nat × Text) :=
  placed position (Text.lines text) (countedHeadings levels skipping (Text.lines text))

/-! ### Titles -/

theorem titleHere_line {line : Text} (filled : line ≠ []) (free : '\n' ∉ line) {below : Text}
    (ends : Text.EndsLine below) : titleHere (line ++ below) = some line := by
  cases line with
  | nil => exact absurd rfl filled
  | cons head tail =>
      have apart : '\n' ≠ head ∧ '\n' ∉ tail := by simpa using free
      have kept : ∀ char ∈ tail, (decide (char ≠ '\n')) = true :=
        fun char member => decide_eq_true (fun same => apart.2 (same ▸ member))
      have stops : below.takeWhile (· ≠ '\n') = [] := by
        cases below with
        | nil => rfl
        | cons first rest =>
            have line : first = '\n' := eq_of_beq ends
            rw [line]
            rfl
      rw [List.cons_append, titleHere, if_neg (Ne.symm apart.1), List.takeWhile_append_of_pos kept,
        stops, List.append_nil]

/-- The title of a line that has one. -/
theorem titleFrom_line {line : Text} (free : '\n' ∉ line) (filled : Text.isBlank line = false)
    {below : Text} (ends : Text.EndsLine below) :
    titleFrom (line ++ below) =
      some (line.takeWhile Text.isSpace, line.dropWhile Text.isSpace) := by
  induction line with
  | nil => cases filled
  | cons head tail ih =>
      have apart : '\n' ≠ head ∧ '\n' ∉ tail := by simpa using free
      by_cases space : Text.isSpace head = true
      · have tailFilled : Text.isBlank tail = false := by
          unfold Text.isBlank at filled ⊢
          rw [List.all_cons, space, Bool.true_and] at filled
          exact filled
        rw [List.cons_append, titleFrom, if_pos space, ih apart.2 tailFilled,
          List.takeWhile_cons_of_pos space, List.dropWhile_cons_of_pos space]
      · have here := titleHere_line (List.cons_ne_nil head tail) free ends
        rw [List.cons_append] at here ⊢
        rw [titleFrom, if_neg space, here, List.takeWhile_cons_of_neg space,
          List.dropWhile_cons_of_neg space]
        rfl

/-- Whitespace in front of a title is passed over. -/
theorem titleFrom_of_blank {front : Text} (blank : Text.isBlank front = true) {text : Text}
    {spaces title : Text} (found : titleFrom text = some (spaces, title)) :
    titleFrom (front ++ text) = some (front ++ spaces, title) := by
  induction front with
  | nil => exact found
  | cons head tail ih =>
      have both := Bool.and_eq_true_iff.mp blank
      rw [List.cons_append, titleFrom, if_pos both.1, ih both.2]
      rfl

/-- In whitespace a title is found exactly if there is more than line breaks, and it is blank. -/
theorem titleFrom_blank {text : Text} (blank : Text.isBlank text = true) :
    ((titleFrom text).isSome = true ↔ ∃ char ∈ text, char ≠ '\n') ∧
      ∀ parts, titleFrom text = some parts → Text.isBlank parts.2 = true := by
  induction text with
  | nil => exact ⟨by simp [titleFrom], fun parts impossible => by cases impossible⟩
  | cons head tail ih =>
      have both := Bool.and_eq_true_iff.mp blank
      obtain ⟨exists_iff, titleBlank⟩ := ih both.2
      rw [titleFrom, if_pos both.1]
      cases later : titleFrom tail with
      | some parts =>
          rw [later] at exists_iff titleBlank
          have more := exists_iff.mp rfl
          constructor
          · apply iff_of_true rfl
            obtain ⟨char, member, solid⟩ := more
            exact ⟨char, List.mem_cons_of_mem _ member, solid⟩
          · intro found same
            rw [← Option.some.inj same]
            exact titleBlank parts rfl
      | none =>
          rw [later] at exists_iff
          have breaks : ∀ char ∈ tail, char = '\n' := by
            intro char member
            by_contra solid
            exact absurd (exists_iff.mpr ⟨char, member, solid⟩) (by decide)
          by_cases line : head = '\n'
          · have none : titleHere (head :: tail) = none := if_pos line
            simp only
            rw [none]
            constructor
            · apply iff_of_false Bool.false_ne_true
              rintro ⟨char, member, solid⟩
              rcases List.mem_cons.mp member with same | inside
              · exact solid (same.trans line)
              · exact solid (breaks char inside)
            · intro found impossible
              cases impossible
          · have here : titleHere (head :: tail) =
                some (head :: tail.takeWhile (· ≠ '\n')) := if_neg line
            simp only
            rw [here]
            constructor
            · exact iff_of_true rfl ⟨head, List.mem_cons_self, line⟩
            · intro found same
              rw [← Option.some.inj same]
              have subset : head :: tail.takeWhile (· ≠ '\n') ⊆ head :: tail :=
                List.cons_subset_cons _ (List.takeWhile_sublist _).subset
              exact List.all_eq_true.mpr
                (fun char member => List.all_eq_true.mp blank char (subset member))

theorem titleHere_shape {text title : Text} (found : titleHere text = some title) :
    title ≠ [] ∧ '\n' ∉ title ∧ ∃ after, text = title ++ after ∧ Text.EndsLine after := by
  cases text with
  | nil => cases found
  | cons head tail =>
      rw [titleHere] at found
      split at found
      · cases found
      case isFalse solid =>
        obtain ⟨line, after, whole, free, ends⟩ := Text.exists_line tail
        rw [← Option.some.inj found]
        have taken : tail.takeWhile (· ≠ '\n') = line := by
          rw [whole]
          cases after with
          | nil =>
              rw [List.append_nil]
              exact Text.takeWhile_last free
          | cons first rest =>
              have isBreak : first = '\n' := eq_of_beq ends
              rw [isBreak]
              exact Text.takeWhile_line free rest
        rw [taken]
        refine ⟨List.cons_ne_nil _ _, ?_, after, ?_, ends⟩
        · rw [List.mem_cons, not_or]
          exact ⟨Ne.symm solid, free⟩
        · rw [whole, List.cons_append]

theorem titleFrom_shape {text : Text} :
    ∀ {spaces title : Text}, titleFrom text = some (spaces, title) →
      title ≠ [] ∧ '\n' ∉ title ∧
        ∃ after, text = spaces ++ (title ++ after) ∧ Text.EndsLine after := by
  induction text with
  | nil =>
      intro spaces title found
      cases found
  | cons head tail ih =>
      intro spaces title found
      have here : (titleHere (head :: tail)).map (fun title => (([] : Text), title)) =
          some (spaces, title) → title ≠ [] ∧ '\n' ∉ title ∧
            ∃ after, head :: tail = spaces ++ (title ++ after) ∧ Text.EndsLine after := by
        intro mapped
        obtain ⟨own, isOwn, same⟩ := Option.map_eq_some_iff.mp mapped
        obtain ⟨rfl, rfl⟩ := Prod.mk.inj same
        exact titleHere_shape isOwn
      unfold titleFrom at found
      split at found
      · cases later : titleFrom tail with
        | none =>
            rw [later] at found
            exact here found
        | some parts =>
            rw [later] at found
            obtain ⟨rfl, rfl⟩ := Prod.mk.inj (Option.some.inj found)
            obtain ⟨filled, free, after, whole, ends⟩ := ih later
            exact ⟨filled, free, after, by rw [List.cons_append, ← whole], ends⟩
      · exact here found

theorem titleBehind_shape {text spaces title : Text}
    (found : titleBehind text = some (spaces, title)) :
    title ≠ [] ∧ '\n' ∉ title ∧
      ∃ after, text = spaces ++ (title ++ after) ∧ Text.EndsLine after := by
  cases text with
  | nil => cases found
  | cons head tail =>
      rw [titleBehind] at found
      split at found
      · obtain ⟨parts, isFound, same⟩ := Option.map_eq_some_iff.mp found
        obtain ⟨rfl, rfl⟩ := Prod.mk.inj same
        obtain ⟨filled, free, after, whole, ends⟩ := titleFrom_shape isFound
        exact ⟨filled, free, after, by rw [List.cons_append, ← whole], ends⟩
      · cases found

/-! ### The line below a bare one -/

/-- The headings below a line. -/
def placedBelow (levels position : Nat) (tail : Text) : List (Nat × Nat × Text) :=
  placed (position + 1) (Text.linesBelow tail)
    (countedHeadings levels false (Text.linesBelow tail))

theorem strip_dropWhile (text : Text) : Text.strip (text.dropWhile Text.isSpace) = Text.strip text := by
  have blank : Text.isBlank (text.takeWhile Text.isSpace) = true := List.all_takeWhile
  have whole := Text.strip_append_of_blank blank (text.dropWhile Text.isSpace)
  rw [List.takeWhile_append_dropWhile] at whole
  exact whole.symm

/-- The title that the text below gives, and what stands behind it. -/
theorem taken_spec (levels : Nat) (text : Text) (filled : Text.isBlank text = false) :
    ∃ spaces title after, titleFrom text = some (spaces, title) ∧
      text = spaces ++ (title ++ after) ∧
      (∃ named, (Text.lines text).find? (fun line => !Text.isBlank line) = some named ∧
        Text.strip title = Text.strip named) ∧
      ∀ position, placedHeadings levels position true text =
        placedBelow levels (position + (spaces ++ title).length) after := by
  induction text using Text.lines_induction with
  | last line free =>
      have atEnd : Text.EndsLine [] := rfl
      have found := titleFrom_line free filled atEnd
      rw [List.append_nil] at found
      refine ⟨_, _, [], found, ?_, ⟨line, ?_, strip_dropWhile line⟩, ?_⟩
      · rw [List.append_nil, List.takeWhile_append_dropWhile]
      · rw [Text.lines_of_free free, List.find?_cons_of_pos (by rw [filled]; rfl)]
      · intro position
        unfold placedHeadings
        rw [Text.lines_of_free free]
        rfl
  | more line rest free ih =>
      cases blank : Text.isBlank line with
      | true =>
          have restFilled : Text.isBlank rest = false := by
            unfold Text.isBlank at filled blank ⊢
            rw [List.all_append, blank, Bool.true_and, List.all_cons] at filled
            exact filled
          obtain ⟨spaces, title, after, found, whole, named, below⟩ := ih restFilled
          have front : Text.isBlank (line ++ ['\n']) = true := by
            unfold Text.isBlank at blank ⊢
            rw [List.all_append, blank]
            rfl
          have passed := titleFrom_of_blank front found
          rw [List.append_assoc] at passed
          refine ⟨_, title, after, passed, ?_, ?_, ?_⟩
          · rw [whole]
            simp
          · rw [Text.lines_cons free, List.find?_cons_of_neg (by rw [blank]; exact Bool.false_ne_true)]
            exact named
          · intro position
            have later := below (position + line.length + 1)
            unfold placedHeadings at later ⊢
            rw [Text.lines_cons free, countedHeadings, blank]
            refine later.trans ?_
            congr 1
            simp only [List.length_append, List.length_singleton]
            omega
      | false =>
          have atBreak : Text.EndsLine ('\n' :: rest) := rfl
          have found := titleFrom_line free blank atBreak
          refine ⟨_, _, '\n' :: rest, found, ?_, ⟨line, ?_, strip_dropWhile line⟩, ?_⟩
          · rw [← List.append_assoc, List.takeWhile_append_dropWhile]
          · rw [Text.lines_cons free, List.find?_cons_of_pos (by rw [blank]; rfl)]
          · intro position
            unfold placedHeadings placedBelow
            rw [Text.lines_cons free, countedHeadings, blank, List.takeWhile_append_dropWhile]
            rfl

/-- Blank lines have no headings. -/
theorem placed_blank (levels : Nat) {lines : List Text}
    (blank : ∀ line ∈ lines, Text.isBlank line = true) :
    ∀ position skipping, placed position lines (countedHeadings levels skipping lines) = [] := by
  induction lines with
  | nil =>
      intro position skipping
      cases skipping with
      | true => rfl
      | false => rfl
  | cons line below ih =>
      intro position skipping
      have later := ih (fun other member => blank other (List.mem_cons_of_mem _ member))
      have here := blank line List.mem_cons_self
      have unmarked : hashes line = [] := by
        cases line with
        | nil => rfl
        | cons head tail =>
            have space := (Bool.and_eq_true_iff.mp here).1
            apply List.takeWhile_cons_of_neg
            intro hash
            rw [eq_of_beq hash] at space
            exact absurd space (by decide)
      cases skipping with
      | true =>
          rw [countedHeadings, here]
          exact later _ true
      | false =>
          have noHeading : headingLine levels line = none := by
            unfold headingLine
            simp only
            rw [if_neg (fun both => both.1 unmarked)]
          have notBare : ¬ bareLine levels line := fun bare => bare.1 unmarked
          rw [countedHeadings, noHeading]
          simp only
          rw [if_neg notBare]
          exact later _ false

theorem isBlank_below {tail : Text} (ends : Text.EndsLine tail) :
    Text.isBlank tail = true ↔ ∀ line ∈ Text.linesBelow tail, Text.isBlank line = true := by
  have ofLines : ∀ text : Text,
      Text.isBlank text = true ↔ ∀ line ∈ Text.lines text, Text.isBlank line = true := by
    intro text
    induction text using Text.lines_induction with
    | last line free => rw [Text.lines_of_free free, List.forall_mem_singleton]
    | more line rest free ih =>
        rw [Text.lines_cons free, List.forall_mem_cons, ← ih]
        unfold Text.isBlank
        rw [List.all_append, List.all_cons, Bool.and_eq_true, Bool.and_eq_true]
        exact and_congr_right (fun _blank => and_iff_right (by decide))
  cases tail with
  | nil => exact iff_of_true rfl (fun line impossible => absurd impossible List.not_mem_nil)
  | cons head rest =>
      have isBreak : head = '\n' := eq_of_beq ends
      have split : Text.isBlank (head :: rest) = Text.isBlank rest := by
        rw [isBreak]
        rfl
      rw [split]
      exact ofLines rest

theorem solid_below {tail : Text} (ends : Text.EndsLine tail) :
    (∃ char ∈ tail, char ≠ '\n') ↔
      (Text.linesBelow tail).any (fun line => !line.isEmpty) = true := by
  have ofLines : ∀ text : Text, (∃ char ∈ text, char ≠ '\n') ↔
      (Text.lines text).any (fun line => !line.isEmpty) = true := by
    intro text
    induction text using Text.lines_induction with
    | last line free =>
        rw [Text.lines_of_free free]
        cases line with
        | nil => simp
        | cons head tail =>
            exact iff_of_true ⟨head, List.mem_cons_self, fun same => free (by simp [same])⟩ rfl
    | more line rest free ih =>
        rw [Text.lines_cons free, List.any_cons, Bool.or_eq_true, ← ih]
        constructor
        · rintro ⟨char, member, solid⟩
          rcases List.mem_append.mp member with inLine | behind
          · apply Or.inl
            cases line with
            | nil => cases inLine
            | cons head tail => rfl
          · rcases List.mem_cons.mp behind with isBreak | later
            · exact absurd isBreak solid
            · exact Or.inr ⟨char, later, solid⟩
        · rintro (filled | ⟨char, member, solid⟩)
          · cases line with
            | nil => cases filled
            | cons head tail =>
                exact ⟨head, List.mem_append_left _ List.mem_cons_self,
                  fun same => free (by simp [same])⟩
          · exact ⟨char, List.mem_append_right _ (List.mem_cons_of_mem _ member), solid⟩
  cases tail with
  | nil => exact iff_of_false (by simp) Bool.false_ne_true
  | cons head rest =>
      have isBreak : head = '\n' := eq_of_beq ends
      rw [isBreak]
      refine Iff.trans ?_ (ofLines rest)
      simp

/-- Behind the hashes of a bare line with nothing but whitespace below. -/
theorem titleBehind_blank {behind tail : Text} (free : '\n' ∉ behind) (ends : Text.EndsLine tail)
    (blankBehind : Text.isBlank behind = true) (blankTail : Text.isBlank tail = true) :
    ((titleBehind (behind ++ tail)).isSome = true ↔ 2 ≤ behind.length ∨
        (Text.linesBelow tail).any (fun line => !line.isEmpty) = true) ∧
      ∀ parts, titleBehind (behind ++ tail) = some parts → Text.isBlank parts.2 = true := by
  rw [← solid_below ends]
  have blank : Text.isBlank (behind ++ tail) = true := by
    unfold Text.isBlank at *
    rw [List.all_append, blankBehind, blankTail]
    rfl
  cases whole : behind ++ tail with
  | nil =>
      obtain ⟨noBehind, noTail⟩ := List.append_eq_nil_iff.mp whole
      rw [noBehind, noTail]
      exact ⟨by simp [titleBehind], fun parts impossible => by cases impossible⟩
  | cons head rest =>
      rw [whole] at blank
      have both := Bool.and_eq_true_iff.mp blank
      obtain ⟨exists_iff, titleBlank⟩ := titleFrom_blank both.2
      rw [titleBehind, if_pos both.1, Option.isSome_map, exists_iff]
      constructor
      · cases behind with
        | nil =>
            have isTail : tail = head :: rest := whole
            have isBreak : head = '\n' := by
              rw [isTail] at ends
              exact eq_of_beq ends
            rw [isTail, isBreak]
            simp
        | cons first others =>
            obtain ⟨rfl, isRest⟩ := List.cons.inj whole
            have apart : '\n' ≠ first ∧ '\n' ∉ others := by simpa using free
            rw [← isRest]
            constructor
            · rintro ⟨char, member, solid⟩
              rcases List.mem_append.mp member with inOthers | inTail
              · apply Or.inl
                rw [List.length_cons]
                exact Nat.succ_le_succ (List.length_pos_iff_exists_mem.mpr ⟨char, inOthers⟩)
              · exact Or.inr ⟨char, inTail, solid⟩
            · rintro (long | ⟨char, member, solid⟩)
              · rw [List.length_cons] at long
                obtain ⟨char, member⟩ :=
                  List.length_pos_iff_exists_mem.mp (Nat.le_of_succ_le_succ long)
                exact ⟨char, List.mem_append_left _ member,
                  fun same => apart.2 (same ▸ member)⟩
              · exact ⟨char, List.mem_append_right _ member, solid⟩
      · intro parts found
        obtain ⟨own, isOwn, same⟩ := Option.map_eq_some_iff.mp found
        rw [← same]
        exact titleBlank own isOwn

/-! ### The heading of a text and its first line -/

theorem hashes_line (line : Text) {tail : Text} (ends : Text.EndsLine tail) :
    hashes (line ++ tail) = hashes line := by
  have stops : tail.takeWhile (· == '#') = [] := by
    cases tail with
    | nil => rfl
    | cons head rest =>
        have isBreak : head = '\n' := eq_of_beq ends
        rw [isBreak]
        rfl
  unfold hashes
  rw [List.takeWhile_append, stops, List.append_nil]
  split
  case isTrue whole =>
    exact (List.IsPrefix.eq_of_length (List.takeWhile_prefix _) whole).symm
  case isFalse => rfl

theorem hashes_append_drop (line : Text) : hashes line ++ line.drop (hashes line).length = line := by
  have prefixed : hashes line <+: line := List.takeWhile_prefix _
  obtain ⟨rest, whole⟩ := prefixed
  have dropped : line.drop (hashes line).length = rest := by
    conv =>
      lhs
      rw [← whole]
    exact List.drop_left' (by rw [whole])
  rw [dropped, whole]

/-- Hashes, whitespace and title at the start of a text that has these headings. -/
structure HeadsText (levels : Nat) (text : Text) (parts : Text × Text × Text) : Prop where
  marked : parts.1 ≠ []
  titled : parts.2.2 ≠ []
  oneLine : '\n' ∉ parts.2.2
  splits : ∃ after, text = parts.1 ++ (parts.2.1 ++ parts.2.2) ++ after ∧ Text.EndsLine after ∧
    ∀ position, placedHeadings levels position false text =
      (position, parts.1.length, Text.strip parts.2.2) ::
        placedBelow levels (position + (parts.1 ++ (parts.2.1 ++ parts.2.2)).length) after

theorem headingHere_of_marked {levels : Nat} {line tail : Text} (ends : Text.EndsLine tail)
    (marked : hashes line ≠ []) (few : (hashes line).length ≤ levels) :
    headingHere levels (line ++ tail) =
      (titleBehind (line.drop (hashes line).length ++ tail)).map
        (fun parts => (hashes line, parts)) := by
  have short : (hashes line).length ≤ line.length := (List.takeWhile_prefix _).length_le
  unfold headingHere
  rw [hashes_line line ends, if_pos ⟨marked, few⟩, List.drop_append_of_le_length short]

/-- A line with its own title. -/
theorem headsText_of_titled {levels : Nat} {line tail : Text} (free : '\n' ∉ line)
    (ends : Text.EndsLine tail) (marked : hashes line ≠ [])
    (few : (hashes line).length ≤ levels) {head : Char} {rest : Text}
    (behind : line.drop (hashes line).length = head :: rest) (space : Text.isSpace head = true)
    (filled : Text.isBlank rest = false) :
    ∃ parts, headingHere levels (line ++ tail) = some parts ∧
      HeadsText levels (line ++ tail) parts := by
  have whole := hashes_append_drop line
  rw [behind] at whole
  have restFree : '\n' ∉ rest := by
    intro member
    apply free
    rw [← whole]
    exact List.mem_append_right _ (List.mem_cons_of_mem _ member)
  have taken := titleFrom_line restFree filled ends
  have rejoined := @List.takeWhile_append_dropWhile _ Text.isSpace rest
  have titled : rest.dropWhile Text.isSpace ≠ [] := by
    intro none
    have blank : Text.isBlank rest = true := by
      rw [none, List.append_nil] at rejoined
      rw [← rejoined]
      exact List.all_takeWhile
    rw [blank] at filled
    cases filled
  have stripped : Text.strip (head :: rest) = Text.strip (rest.dropWhile Text.isSpace) := by
    have dropped := strip_dropWhile (head :: rest)
    rw [List.dropWhile_cons_of_pos space] at dropped
    exact dropped.symm
  have isHeading : headingLine levels line =
      some ((hashes line).length, Text.strip (rest.dropWhile Text.isSpace)) := by
    have stillFilled : Text.isBlank (head :: rest) = false := by
      unfold Text.isBlank at filled ⊢
      rw [List.all_cons, filled, Bool.and_false]
    unfold headingLine
    simp only
    rw [behind, if_pos ⟨marked, few, space, stillFilled⟩, stripped]
  refine ⟨(hashes line, head :: rest.takeWhile Text.isSpace, rest.dropWhile Text.isSpace), ?_, ?_⟩
  · rw [headingHere_of_marked ends marked few, behind, List.cons_append, titleBehind, if_pos space,
      taken]
    rfl
  · have ownLine : hashes line ++ ((head :: rest.takeWhile Text.isSpace) ++
        rest.dropWhile Text.isSpace) = line := by
      rw [List.cons_append, rejoined]
      exact whole
    constructor
    · exact marked
    · exact titled
    · exact fun member => restFree ((List.dropWhile_sublist _).subset member)
    · refine ⟨tail, ?_, ends, ?_⟩
      · simp only
        rw [ownLine]
      · intro position
        simp only
        rw [ownLine]
        unfold placedHeadings placedBelow
        rw [Text.lines_line free ends, countedHeadings, isHeading]
        rfl

/-- A bare line with a title in a line below. -/
theorem headsText_of_taken {levels : Nat} {line rest : Text} (free : '\n' ∉ line)
    (bare : bareLine levels line) (filled : Text.isBlank rest = false) :
    ∃ parts, headingHere levels (line ++ '\n' :: rest) = some parts ∧
      HeadsText levels (line ++ '\n' :: rest) parts := by
  obtain ⟨marked, few, blank⟩ := bare
  have ends : Text.EndsLine ('\n' :: rest) := rfl
  obtain ⟨spaces, title, after, found, split, hasName, below⟩ := taken_spec levels rest filled
  obtain ⟨named, isNamed, sameTitle⟩ := hasName
  obtain ⟨titled, oneLine, other, otherSplit, otherEnds⟩ := titleFrom_shape found
  have same : other = after := by
    rw [split] at otherSplit
    exact (List.append_cancel_left (List.append_cancel_left otherSplit)).symm
  rw [same] at otherEnds
  have unmarked : headingLine levels line = none := by
    unfold headingLine
    simp only
    rw [if_neg]
    rintro ⟨_, _, _, notBlank⟩
    rw [blank] at notBlank
    cases notBlank
  have takes : takenTitle line (Text.lines rest) = some (Text.strip title) := by
    unfold takenTitle
    rw [isNamed]
    simp only
    rw [sameTitle]
  have whole := hashes_append_drop line
  obtain ⟨first, front, split_front⟩ : ∃ first front,
      line.drop (hashes line).length ++ ['\n'] = first :: front :=
    List.exists_cons_of_ne_nil (List.append_ne_nil_of_right_ne_nil _ (List.cons_ne_nil _ _))
  have frontBlank : Text.isBlank (first :: front) = true := by
    rw [← split_front]
    unfold Text.isBlank at blank ⊢
    rw [List.all_append, blank]
    rfl
  have both := Bool.and_eq_true_iff.mp frontBlank
  have passed := titleFrom_of_blank both.2 found
  have rejoined : line.drop (hashes line).length ++ '\n' :: rest = first :: (front ++ rest) := by
    rw [← List.cons_append, ← split_front, List.append_assoc]
    rfl
  refine ⟨(hashes line, first :: (front ++ spaces), title), ?_, ?_⟩
  · rw [headingHere_of_marked ends marked few, rejoined, titleBehind, if_pos both.1, passed]
    rfl
  · have upToTitle : hashes line ++ ((first :: (front ++ spaces)) ++ title) =
        line ++ '\n' :: (spaces ++ title) := by
      have moved : (first :: (front ++ spaces)) ++ title =
          (first :: front) ++ (spaces ++ title) := by simp
      rw [moved, ← split_front]
      conv =>
        rhs
        rw [← whole]
      simp
    constructor
    · exact marked
    · exact titled
    · exact oneLine
    · refine ⟨after, ?_, otherEnds, ?_⟩
      · simp only
        rw [upToTitle, split]
        simp
      · intro position
        simp only
        rw [upToTitle]
        have later := below (position + line.length + 1)
        unfold placedHeadings at later ⊢
        rw [Text.lines_cons free, countedHeadings, unmarked]
        simp only
        rw [if_pos ⟨marked, few, blank⟩, takes, placed, later, Option.map_some, Option.toList_some,
          List.singleton_append]
        congr 2
        simp only [List.length_append, List.length_cons]
        omega

/-- A bare line with nothing but whitespace below. -/
theorem headsText_of_blank {levels : Nat} {line tail : Text} (free : '\n' ∉ line)
    (ends : Text.EndsLine tail) (bare : bareLine levels line) (blank : Text.isBlank tail = true) :
    (headingHere levels (line ++ tail) = none ∧ ∀ position,
      placedHeadings levels position false (line ++ tail) =
        placedBelow levels (position + line.length) tail) ∨
    ∃ parts, headingHere levels (line ++ tail) = some parts ∧
      HeadsText levels (line ++ tail) parts := by
  obtain ⟨marked, few, blankBehind⟩ := bare
  have behindFree : '\n' ∉ line.drop (hashes line).length :=
    fun member => free ((List.drop_sublist _ _).subset member)
  obtain ⟨taken_iff, titleBlank⟩ := titleBehind_blank behindFree ends blankBehind blank
  have here := headingHere_of_marked ends marked few
  have blankBelow := (isBlank_below ends).mp blank
  have noName : (Text.linesBelow tail).find? (fun line => !Text.isBlank line) = none := by
    rw [List.find?_eq_none]
    intro other member
    rw [blankBelow other member]
    exact Bool.false_ne_true
  have unmarked : headingLine levels line = none := by
    unfold headingLine
    simp only
    rw [if_neg]
    rintro ⟨_, _, _, notBlank⟩
    rw [blankBehind] at notBlank
    cases notBlank
  have nothingBelow : ∀ position skipping, placed position (Text.linesBelow tail)
      (countedHeadings levels skipping (Text.linesBelow tail)) = [] :=
    placed_blank levels blankBelow
  by_cases takes : 2 ≤ (line.drop (hashes line).length).length ∨
      (Text.linesBelow tail).any (fun line => !line.isEmpty) = true
  · apply Or.inr
    obtain ⟨found, isFound⟩ := Option.isSome_iff_exists.mp (taken_iff.mpr takes)
    refine ⟨(hashes line, found), ?_, ?_⟩
    · rw [here, isFound]
      rfl
    · obtain ⟨titled, oneLine, after, split, afterEnds⟩ := titleBehind_shape isFound
      have noTitle : Text.strip found.2 = [] :=
        (Text.strip_eq_nil_iff _).mpr (titleBlank found isFound)
      have takes : takenTitle line (Text.linesBelow tail) = some [] := by
        unfold takenTitle
        rw [noName]
        simp only
        rw [if_pos takes]
      have blankAfter : Text.isBlank after = true := by
        have blankSplit : Text.isBlank (line.drop (hashes line).length ++ tail) = true := by
          unfold Text.isBlank at *
          rw [List.all_append, blankBehind, blank]
          rfl
        rw [split] at blankSplit
        unfold Text.isBlank at *
        rw [List.all_append, List.all_append] at blankSplit
        exact (Bool.and_eq_true_iff.mp (Bool.and_eq_true_iff.mp blankSplit).2).2
      have nothingAfter : ∀ position, placedBelow levels position after = [] :=
        fun position => placed_blank levels ((isBlank_below afterEnds).mp blankAfter) _ false
      constructor
      · exact marked
      · exact titled
      · exact oneLine
      · refine ⟨after, ?_, afterEnds, ?_⟩
        · conv =>
            lhs
            rw [← hashes_append_drop line]
          rw [List.append_assoc, split]
          simp
        · intro position
          simp only
          rw [nothingAfter, noTitle]
          unfold placedHeadings
          rw [Text.lines_line free ends, countedHeadings, unmarked]
          simp only
          rw [if_pos ⟨marked, few, blankBehind⟩, takes, placed, nothingBelow]
          rfl
  · apply Or.inl
    constructor
    · rw [here, Option.map_eq_none_iff, ← Option.not_isSome_iff_eq_none, taken_iff]
      exact takes
    · intro position
      have untaken : takenTitle line (Text.linesBelow tail) = none := by
        unfold takenTitle
        rw [noName]
        simp only
        rw [if_neg takes]
      unfold placedHeadings placedBelow
      rw [Text.lines_line free ends, countedHeadings, unmarked]
      simp only
      rw [if_pos ⟨marked, few, blankBehind⟩, untaken]
      rfl

/-- At the start of a line the expression finds what the lines have first. -/
theorem headingHere_line (levels : Nat) {line tail : Text} (free : '\n' ∉ line)
    (ends : Text.EndsLine tail) :
    (headingHere levels (line ++ tail) = none ∧ ∀ position,
      placedHeadings levels position false (line ++ tail) =
        placedBelow levels (position + line.length) tail) ∨
    ∃ parts, headingHere levels (line ++ tail) = some parts ∧
      HeadsText levels (line ++ tail) parts := by
  have passes : headingLine levels line = none → ¬ bareLine levels line → ∀ position,
      placedHeadings levels position false (line ++ tail) =
        placedBelow levels (position + line.length) tail := by
    intro unmarked notBare position
    unfold placedHeadings placedBelow
    rw [Text.lines_line free ends, countedHeadings, unmarked]
    simp only
    rw [if_neg notBare]
    rfl
  by_cases counted : hashes line ≠ [] ∧ (hashes line).length ≤ levels
  · obtain ⟨marked, few⟩ := counted
    cases blank : Text.isBlank (line.drop (hashes line).length) with
    | true =>
        have bare : bareLine levels line := ⟨marked, few, blank⟩
        cases blankTail : Text.isBlank tail with
        | true => exact headsText_of_blank free ends bare blankTail
        | false =>
            apply Or.inr
            cases tail with
            | nil => cases blankTail
            | cons head rest =>
                have isBreak : head = '\n' := eq_of_beq ends
                rw [isBreak] at blankTail ⊢
                exact headsText_of_taken free bare blankTail
    | false =>
        have notBare : ¬ bareLine levels line := by
          intro bare
          rw [bare.2.2] at blank
          cases blank
        cases behind : line.drop (hashes line).length with
        | nil =>
            rw [behind] at blank
            cases blank
        | cons head rest =>
            rw [behind] at blank
            by_cases space : Text.isSpace head = true
            · apply Or.inr
              have filled : Text.isBlank rest = false := by
                unfold Text.isBlank at blank ⊢
                rw [List.all_cons, space, Bool.true_and] at blank
                exact blank
              exact headsText_of_titled free ends marked few behind space filled
            · apply Or.inl
              constructor
              · rw [headingHere_of_marked ends marked few, behind, List.cons_append, titleBehind,
                  if_neg space]
                rfl
              · apply passes _ notBare
                unfold headingLine
                simp only
                rw [behind, if_neg]
                rintro ⟨_, _, spaced, _⟩
                exact space spaced
  · apply Or.inl
    constructor
    · unfold headingHere
      rw [hashes_line line ends, if_neg counted]
    · apply passes
      · unfold headingLine
        simp only
        rw [if_neg (fun marked => counted ⟨marked.1, marked.2.1⟩)]
      · exact fun bare => counted ⟨bare.1, bare.2.1⟩

end VaultSearch
