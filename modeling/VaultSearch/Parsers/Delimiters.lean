/-
The delimiter lines of a text.

`marks` lists where a delimiter line starts and where its match stops.  It is what the
regular expression of the frontmatter parser finds, in a form that says what happens when
the text is cut: only a delimiter in the last line can be affected.
-/

import VaultSearch.Parsers.Frontmatter

set_option autoImplicit false

namespace VaultSearch

open Regex

/-! ### One delimiter -/

/-- How far `\s*$` reaches: over all whitespace at the end of a text, otherwise up to the
last line break before the next other character. -/
def spaceRun : Text → Option Nat
  | [] => some 0
  | head :: tail =>
      if Text.isSpace head then
        match spaceRun tail with
        | some length => some (length + 1)
        | none => if head = '\n' then some 0 else none
      else none

theorem spaceRun_nil : spaceRun [] = some 0 := rfl

theorem spaceRun_solid {head : Char} (solid : ¬Text.isSpace head = true) (tail : Text) :
    spaceRun (head :: tail) = none :=
  if_neg solid

theorem spaceRun_space {head : Char} (space : Text.isSpace head = true) (tail : Text) :
    spaceRun (head :: tail) =
      ((spaceRun tail).map (· + 1)).or (if head = '\n' then some 0 else none) := by
  apply (if_pos space).trans
  cases spaceRun tail with
  | none => rfl
  | some length => rfl

/-- How far `---\s*$` reaches. -/
def delimiterRun (text : Text) : Option Nat :=
  if "---".toList.isPrefixOf text then (spaceRun (text.drop 3)).map (3 + ·) else none

/-- A delimiter that starts here; `fresh` says that a line starts here. -/
def delimiterHere (fresh : Bool) (text : Text) : Option Nat :=
  if fresh then delimiterRun text else none

theorem isSpace_newline : Text.isSpace '\n' = true := by decide

theorem spaceRun_append_of_solid {front : Text} (solid : front.all Text.isSpace = false)
    (rest : Text) : spaceRun (front ++ rest) = spaceRun front := by
  induction front with
  | nil => cases solid
  | cons head tail ih =>
      rw [List.cons_append]
      by_cases space : Text.isSpace head = true
      · rw [spaceRun_space space, spaceRun_space space]
        have tailSolid : tail.all Text.isSpace = false := by
          simpa [List.all_cons, space] using solid
        rw [ih tailSolid]
      · rw [spaceRun_solid space, spaceRun_solid space]

theorem spaceRun_of_blank {text : Text} (blank : text.all Text.isSpace = true) :
    spaceRun text = some text.length := by
  induction text with
  | nil => rfl
  | cons head tail ih =>
      have both := Bool.and_eq_true_iff.mp blank
      rw [spaceRun_space both.1, ih both.2]
      rfl

/-- A run exists exactly when the line holds nothing but whitespace. -/
theorem spaceRun_isSome_iff (text : Text) :
    (spaceRun text).isSome = true ↔ (text.takeWhile (· ≠ '\n')).all Text.isSpace = true := by
  induction text with
  | nil => simp [spaceRun_nil]
  | cons head tail ih =>
      by_cases line : head = '\n'
      · subst line
        rw [spaceRun_space isSpace_newline]
        cases spaceRun tail with
        | none => simp
        | some length => simp
      · rw [List.takeWhile_cons_of_pos (by simpa using line), List.all_cons]
        by_cases space : Text.isSpace head = true
        · rw [spaceRun_space space, space, Bool.true_and, ← ih]
          cases spaceRun tail with
          | none => simp [line]
          | some length => simp
        · rw [spaceRun_solid space]
          simp [space]

theorem spaceRun_le {text : Text} {length : Nat} (found : spaceRun text = some length) :
    length ≤ text.length ∧ (text.take length).all Text.isSpace = true := by
  induction text generalizing length with
  | nil =>
      rw [← Option.some.inj found]
      exact ⟨Nat.le_refl _, rfl⟩
  | cons head tail ih =>
      by_cases space : Text.isSpace head = true
      · rw [spaceRun_space space] at found
        cases inner : spaceRun tail with
        | some later =>
            rw [inner] at found
            obtain ⟨bound, spaces⟩ := ih inner
            rw [← Option.some.inj found]
            exact ⟨Nat.succ_le_succ bound, by simp [space, spaces]⟩
        | none =>
            rw [inner, Option.map_none, Option.none_or] at found
            by_cases line : head = '\n'
            · rw [if_pos line] at found
              rw [← Option.some.inj found]
              exact ⟨Nat.zero_le _, rfl⟩
            · rw [if_neg line] at found
              cases found
      · rw [spaceRun_solid space] at found
        cases found

theorem delimiterRun_le {text : Text} {length : Nat} (found : delimiterRun text = some length) :
    3 ≤ length ∧ length ≤ text.length ∧ "---".toList.isPrefixOf text = true ∧
      ((text.drop 3).take (length - 3)).all Text.isSpace = true := by
  unfold delimiterRun at found
  by_cases dashes : "---".toList.isPrefixOf text = true
  · rw [if_pos dashes] at found
    obtain ⟨spaces, inner, same⟩ := Option.map_eq_some_iff.mp found
    obtain ⟨bound, blank⟩ := spaceRun_le inner
    have long := (List.isPrefixOf_iff_prefix.mp dashes).length_le
    rw [List.length_drop] at bound
    rw [← same]
    refine ⟨Nat.le_add_right _ _, ?_, dashes, ?_⟩
    · simp only [show "---".toList.length = 3 from rfl] at long
      omega
    · rw [Nat.add_sub_cancel_left]
      exact blank
  · rw [if_neg dashes] at found
    cases found

/-! ### The matcher -/

/-- Of all runs of whitespace up to the end of a line, the first one that is tried. -/
theorem spaceRun_head (fuel : Nat) :
    ∀ cursor : Cursor, cursor.rest.length ≤ fuel →
      ((greedyRuns Regex.space.ends fuel cursor).flatMap Regex.lineEnd.ends).head? =
        (spaceRun cursor.rest).map (fun length => cursor.advance (cursor.rest.take length)) := by
  induction fuel with
  | zero =>
      intro cursor bound
      have empty : cursor.rest = [] := List.eq_nil_of_length_eq_zero (Nat.le_zero.mp bound)
      simp [greedyRuns, ends_lineEnd, empty, spaceRun_nil]
  | succ fuel ih =>
      intro cursor bound
      cases shape : cursor.rest with
      | nil =>
          simp [greedyRuns, Regex.space, ends_chars_nil shape, ends_lineEnd, shape, spaceRun_nil]
      | cons head tail =>
          by_cases space : Text.isSpace head = true
          · have moved : ({ cursor with before := some head, rest := tail } : Cursor) =
                cursor.advance [head] := by
              simp [Cursor.advance, shape]
            have rested : (cursor.advance [head]).rest = tail := by
              rw [← moved]
            have tailBound : (cursor.advance [head]).rest.length ≤ fuel := by
              rw [rested]
              rw [shape, List.length_cons] at bound
              omega
            have later := ih (cursor.advance [head]) tailBound
            rw [rested] at later
            have runs : greedyRuns Regex.space.ends (fuel + 1) cursor =
                greedyRuns Regex.space.ends fuel (cursor.advance [head]) ++ [cursor] := by
              simp [greedyRuns, Regex.space, ends_chars_cons shape, shape, space, moved, rested]
            rw [runs, List.flatMap_append, List.head?_append, later, spaceRun_space space]
            cases inner : spaceRun tail with
            | some length =>
                simp [Cursor.advance_advance]
            | none =>
                by_cases line : head = '\n'
                · simp [ends_lineEnd, shape, line]
                · simp [ends_lineEnd, shape, line]
          · have solid : head ≠ '\n' := by
              intro same
              exact space (same ▸ isSpace_newline)
            simp [greedyRuns, Regex.space, ends_chars_cons shape, ends_lineEnd, shape, space,
              spaceRun_solid space, solid]

/-- At a line start the expression matches as far as `delimiterRun` says, elsewhere it does
not match. -/
theorem firstMatch_frontmatterRe (cursor : Cursor) (bare : cursor.groups = []) :
    frontmatterRe.firstMatch cursor =
      (delimiterHere (cursor.before.all (· == '\n')) cursor.rest).map
        (fun length => cursor.advance (cursor.rest.take length)) := by
  have same : ({ cursor with groups := [] } : Cursor) = cursor := by
    rw [← bare]
  unfold firstMatch frontmatterRe
  rw [same]
  by_cases opening : cursor.before.all (· == '\n') = true
  · rw [delimiterHere, if_pos opening]
    by_cases dashes : "---".toList.isPrefixOf cursor.rest = true
    · have rested : (cursor.advance "---".toList).rest = cursor.rest.drop 3 := rfl
      have run := spaceRun_head (cursor.rest.drop 3).length (cursor.advance "---".toList)
        (by rw [rested])
      have head : (Regex.ends (.seq .lineStart (.seq (.literal "---".toList)
            (.seq (.star .space) .lineEnd))) cursor).head? =
          ((greedyRuns Regex.space.ends (cursor.rest.drop 3).length
            (cursor.advance "---".toList)).flatMap Regex.lineEnd.ends).head? := by
        simp only [ends_seq, ends_lineStart, ends_star, opening, if_true, List.flatMap_singleton,
          literal_ends_eq, dashes, rested]
      have shown : "---".toList ++ (cursor.rest.drop 3) = cursor.rest := by
        obtain ⟨tail, whole⟩ := List.isPrefixOf_iff_prefix.mp dashes
        rw [← whole]
        rfl
      rw [head, run, rested, delimiterRun, if_pos dashes, Option.map_map]
      congr 1
      funext length
      rw [Function.comp_apply, Cursor.advance_advance]
      congr 1
      rw [List.take_add]
      congr 1
      rw [← shown]
      rfl
    · rw [delimiterRun, if_neg dashes]
      simp only [ends_seq, ends_lineStart, opening, if_true, List.flatMap_singleton,
        literal_ends_eq, dashes]
      rfl
  · rw [delimiterHere, if_neg opening]
    simp [ends_seq, ends_lineStart, opening]

/-! ### All delimiters -/

/-- Start and stop of every delimiter line of a text that stands at `position`. -/
def marks : Nat → Bool → Text → List (Nat × Nat)
  | _, _, [] => []
  | position, fresh, head :: tail =>
      ((delimiterHere fresh (head :: tail)).map
        (fun length => (position, position + length))).toList ++
          marks (position + 1) (head == '\n') tail

theorem marks_start_le (text : Text) :
    ∀ position fresh, ∀ mark ∈ marks position fresh text, position ≤ mark.1 := by
  induction text with
  | nil =>
      intro position fresh mark member
      cases member
  | cons head tail ih =>
      intro position fresh mark member
      rcases List.mem_append.mp member with here | later
      · rw [Option.mem_toList] at here
        obtain ⟨length, _found, same⟩ := Option.map_eq_some_iff.mp here
        rw [← same]
      · exact (Nat.le_succ position).trans (ih _ _ mark later)

theorem marks_start_add_le (text : Text) :
    ∀ position fresh, ∀ mark ∈ marks position fresh text,
      mark.1 + 3 ≤ position + text.length ∧ mark.2 ≤ position + text.length ∧
        mark.1 + 3 ≤ mark.2 := by
  induction text with
  | nil =>
      intro position fresh mark member
      cases member
  | cons head tail ih =>
      intro position fresh mark member
      rcases List.mem_append.mp member with here | later
      · rw [Option.mem_toList] at here
        obtain ⟨length, found, same⟩ := Option.map_eq_some_iff.mp here
        cases fresh with
        | false => cases found
        | true =>
            obtain ⟨atLeast, atMost, _dashes, _blank⟩ := delimiterRun_le found
            rw [← same]
            simp only
            omega
      · have bound := ih (position + 1) (head == '\n') mark later
        rw [List.length_cons]
        omega

/-- No delimiter starts inside whitespace. -/
theorem marks_of_blank {lead : Text} (blank : lead.all Text.isSpace = true) (rest : Text) :
    ∀ position fresh, marks position fresh (lead ++ rest) =
      marks (position + lead.length) ((lead.getLast?.map (· == '\n')).getD fresh) rest := by
  induction lead with
  | nil =>
      intro position fresh
      rfl
  | cons head tail ih =>
      intro position fresh
      have both := Bool.and_eq_true_iff.mp blank
      have notDash : head ≠ '-' := by
        intro same
        rw [same] at both
        exact absurd both.1 (by decide)
      have none : delimiterHere fresh (head :: (tail ++ rest)) = none := by
        cases fresh with
        | false => rfl
        | true =>
            unfold delimiterHere delimiterRun
            rw [if_pos rfl, if_neg]
            intro dashes
            obtain ⟨later, whole⟩ := List.isPrefixOf_iff_prefix.mp dashes
            exact notDash (List.cons.inj whole).1.symm
      rw [List.cons_append, marks, none, ih both.2]
      rw [List.length_cons, Nat.add_right_comm, Nat.add_assoc]
      cases tail with
      | nil => rfl
      | cons second others => rw [List.getLast?_cons_cons]; rfl

/-- No delimiter starts inside a delimiter. -/
theorem marks_of_delimiter {spaces : Text} (blank : spaces.all Text.isSpace = true)
    (rest : Text) (position : Nat) :
    marks (position + 1) false ("--".toList ++ (spaces ++ rest)) =
      marks (position + (3 + spaces.length))
        ((spaces.getLast?.map (· == '\n')).getD false) rest := by
  have moved := marks_of_blank blank rest (position + 3) false
  rw [Nat.add_assoc] at moved
  rw [← moved]
  rfl

theorem delimiterRun_shape {text : Text} {length : Nat} (found : delimiterRun text = some length) :
    ∃ spaces rest, text = "---".toList ++ (spaces ++ rest) ∧ length = 3 + spaces.length ∧
      spaces.all Text.isSpace = true := by
  obtain ⟨atLeast, atMost, dashes, blank⟩ := delimiterRun_le found
  obtain ⟨tail, whole⟩ := List.isPrefixOf_iff_prefix.mp dashes
  have dropped : text.drop 3 = tail := by
    rw [← whole]
    rfl
  rw [dropped] at blank
  rw [← whole, List.length_append] at atMost
  exists tail.take (length - 3), tail.drop (length - 3)
  rw [List.take_append_drop, List.length_take]
  exact ⟨whole.symm, by simp only [show "---".toList.length = 3 from rfl] at atMost; omega, blank⟩

theorem delimiterHere_shape {fresh : Bool} {text : Text} {length : Nat}
    (found : delimiterHere fresh text = some length) :
    ∃ spaces rest, text = "---".toList ++ (spaces ++ rest) ∧ length = 3 + spaces.length ∧
      spaces.all Text.isSpace = true := by
  cases fresh with
  | false => cases found
  | true => exact delimiterRun_shape found

/-- What `finditer` finds are the delimiter lines. -/
theorem findFrom_frontmatterRe (fuel : Nat) :
    ∀ position (cursor : Cursor), cursor.groups = [] → cursor.rest.length < fuel →
      (frontmatterRe.findFrom fuel position cursor).map (fun found => (found.start, found.stop)) =
        marks position (cursor.before.all (· == '\n')) cursor.rest := by
  induction fuel with
  | zero =>
      intro position cursor bare bound
      exact absurd bound (Nat.not_lt_zero _)
  | succ fuel ih =>
      intro position cursor bare bound
      have attempt := firstMatch_frontmatterRe cursor bare
      cases shape : cursor.rest with
      | nil =>
          have none : frontmatterRe.firstMatch cursor = none := by
            rw [attempt, shape]
            cases cursor.before.all (· == '\n') <;> rfl
          rw [findFrom, none, shape]
          rfl
      | cons head tail =>
          rw [shape, List.length_cons] at bound
          rw [marks, ← shape]
          cases run : delimiterHere (cursor.before.all (· == '\n')) cursor.rest with
          | none =>
              have none : frontmatterRe.firstMatch cursor = none := by
                rw [attempt, run]
                rfl
              rw [findFrom_of_none none shape, ih _ _ rfl (Nat.lt_of_succ_lt_succ bound)]
              rfl
          | some length =>
              obtain ⟨spaces, rest, whole, long, blank⟩ := delimiterHere_shape run
              have passed : cursor.rest.take length = "---".toList ++ spaces := by
                rw [whole, long, ← List.append_assoc, List.take_left']
                rw [List.length_append]
                rfl
              have found : frontmatterRe.firstMatch cursor =
                  some (cursor.advance ("---".toList ++ spaces)) := by
                rw [attempt, run, Option.map_some, passed]
              have inside : "---".toList ++ spaces <+: cursor.rest := by
                rw [← passed]
                exact List.take_prefix _ _
              have left : (cursor.advance ("---".toList ++ spaces)).rest = rest := by
                unfold Cursor.advance
                simp only
                rw [whole, ← List.append_assoc, List.drop_left]
              have short : (cursor.advance ("---".toList ++ spaces)).rest.length < fuel := by
                have total := congrArg List.length whole
                rw [shape, List.length_append, List.length_append, List.length_cons] at total
                simp only [show "---".toList.length = 3 from rfl] at total
                rw [left]
                omega
              rw [findFrom_of_advance found (by simp) inside, List.map_cons,
                ih _ (cursor.advance ("---".toList ++ spaces)) bare short, left]
              have tailed : tail = "--".toList ++ (spaces ++ rest) := by
                rw [shape] at whole
                exact (List.cons.inj whole).2
              have dash : head = '-' := by
                rw [shape] at whole
                exact (List.cons.inj whole).1
              have behind : (cursor.advance ("---".toList ++ spaces)).before.all (· == '\n') =
                  (spaces.getLast?.map (· == '\n')).getD false := by
                unfold Cursor.advance
                simp only [List.getLast?_append]
                cases spaces.getLast? <;> rfl
              rw [tailed, dash, show ('-' == '\n') = false from rfl,
                marks_of_delimiter blank rest position, behind, long]
              have taken : ("---".toList ++ spaces).length = 3 + spaces.length :=
                List.length_append
              rw [Match.stop, taken]
              rfl

/-- Start and stop of the delimiters of a whole text. -/
theorem finditer_frontmatterRe (text : Text) :
    (frontmatterRe.finditer text).map (fun found => (found.start, found.stop)) =
      marks 0 true text :=
  findFrom_frontmatterRe _ 0 (Cursor.start text) rfl (Nat.lt_succ_self _)

/-! ### A text that is cut -/

/-- `front` ends in dashes that look like a delimiter, but the line goes on in `rest`. -/
def CutLine (fresh : Bool) (front rest : Text) : Prop :=
  ∃ lead spaces, front = lead ++ ("---".toList ++ spaces) ∧
    (lead.getLast?.map (· == '\n')).getD fresh = true ∧
    spaces.all Text.isSpace = true ∧ '\n' ∉ spaces ∧
    (rest.takeWhile (· ≠ '\n')).all Text.isSpace = false

theorem dashes_append {front : Text} (long : 3 ≤ front.length) (rest : Text) :
    "---".toList.isPrefixOf (front ++ rest) = "---".toList.isPrefixOf front := by
  rw [Bool.eq_iff_iff, List.isPrefixOf_iff_prefix, List.isPrefixOf_iff_prefix]
  constructor
  · intro both
    exact List.prefix_of_prefix_length_le both (List.prefix_append front rest) long
  · intro first
    exact first.trans (List.prefix_append front rest)

theorem delimiterRun_append_of_solid {front : Text} (long : 3 ≤ front.length)
    (solid : (front.drop 3).all Text.isSpace = false) (rest : Text) :
    delimiterRun (front ++ rest) = delimiterRun front := by
  unfold delimiterRun
  rw [dashes_append long, List.drop_append_of_le_length long, spaceRun_append_of_solid solid]

/-- A text without a delimiter at its start gets one only when it is too short to tell, or
when what stands behind its dashes is not whitespace. -/
theorem delimiterRun_append_of_none {front : Text} (long : 3 ≤ front.length)
    (absent : delimiterRun front = none) (rest : Text) : delimiterRun (front ++ rest) = none := by
  by_cases solid : (front.drop 3).all Text.isSpace = false
  · rw [delimiterRun_append_of_solid long solid, absent]
  · rw [Bool.not_eq_false] at solid
    unfold delimiterRun at absent ⊢
    rw [dashes_append long]
    by_cases dashes : "---".toList.isPrefixOf front = true
    · rw [if_pos dashes, spaceRun_of_blank solid] at absent
      cases absent
    · rw [if_neg dashes]

theorem spaceRun_append_isSome {spaces : Text} (blank : spaces.all Text.isSpace = true)
    (rest : Text) : (spaceRun (spaces ++ rest)).isSome = true ↔
      '\n' ∈ spaces ∨ (rest.takeWhile (· ≠ '\n')).all Text.isSpace = true := by
  rw [spaceRun_isSome_iff]
  induction spaces with
  | nil => simp
  | cons head tail ih =>
      have both := Bool.and_eq_true_iff.mp blank
      by_cases line : head = '\n'
      · simp [line]
      · rw [List.cons_append, List.takeWhile_cons_of_pos (by simpa using line), List.all_cons,
          both.1, Bool.true_and, ih both.2, List.mem_cons]
        simp [Ne.symm line]

/-- Dashes and whitespace that stop being a delimiter when the text goes on are a cut line. -/
theorem cutLine_of_none {gap : Text} (blank : gap.all Text.isSpace = true) {rest : Text}
    (absent : delimiterRun ("---".toList ++ (gap ++ rest)) = none) :
    CutLine true ("---".toList ++ gap) rest := by
  have stopped : ¬(spaceRun (gap ++ rest)).isSome = true := by
    intro found
    obtain ⟨length, run⟩ := Option.isSome_iff_exists.mp found
    have dashes : "---".toList.isPrefixOf ("---".toList ++ (gap ++ rest)) = true :=
      List.isPrefixOf_iff_prefix.mpr (List.prefix_append _ _)
    rw [delimiterRun, if_pos dashes] at absent
    have kept : ("---".toList ++ (gap ++ rest)).drop 3 = gap ++ rest := rfl
    rw [kept, run] at absent
    cases absent
  rw [spaceRun_append_isSome blank, not_or, Bool.not_eq_true] at stopped
  exact ⟨[], gap, rfl, rfl, blank, stopped.1, stopped.2⟩

theorem marks_of_short {text : Text} (short : text.length < 3) :
    ∀ position fresh, marks position fresh text = [] := by
  induction text with
  | nil =>
      intro position fresh
      rfl
  | cons head tail ih =>
      intro position fresh
      have none : delimiterHere fresh (head :: tail) = none := by
        cases run : delimiterHere fresh (head :: tail) with
        | none => rfl
        | some length =>
            obtain ⟨spaces, rest, whole, _long, _blank⟩ := delimiterHere_shape run
            rw [whole, List.length_append] at short
            exact absurd short (Nat.not_lt.mpr (Nat.le_add_right 3 _))
      rw [marks, none, ih (Nat.lt_of_succ_lt short)]
      rfl

/-- How the delimiters `near` of a text and `far` of a longer one differ behind those they
share.  The texts part at `border`. -/
inductive Parted (border : Nat) (cut : Prop) (near far : List (Nat × Nat)) : Prop
  | open (none : near = []) (later : ∀ mark ∈ far, border < mark.1 + 3)
  | closed (start stop farther : Nat) (others : List (Nat × Nat))
      (last : near = [(start, stop)]) (first : far = (start, farther) :: others)
      (later : ∀ mark ∈ others, border ≤ mark.1)
  | cut (start stop : Nat) (last : near = [(start, stop)]) (broken : cut)
      (later : ∀ mark ∈ far, border ≤ mark.1)

theorem Parted.mono {border : Nat} {cut wider : Prop} {near far : List (Nat × Nat)}
    (parted : Parted border cut near far) (widen : cut → wider) : Parted border wider near far := by
  cases parted with
  | «open» none later => exact .open none later
  | closed start stop farther others last first later =>
      exact .closed start stop farther others last first later
  | cut start stop last broken later => exact .cut start stop last (widen broken) later

theorem CutLine.cons {head : Char} {tail rest : Text} {fresh : Bool}
    (cut : CutLine (head == '\n') tail rest) : CutLine fresh (head :: tail) rest := by
  obtain ⟨lead, spaces, whole, line, blank, single, goesOn⟩ := cut
  exists head :: lead, spaces
  constructor
  · rw [whole]
    rfl
  · constructor
    · cases lead with
      | nil => exact line
      | cons second others =>
          rw [List.getLast?_cons_cons]
          exact line
    · exact ⟨blank, single, goesOn⟩

/-- A text that ends in dashes and whitespace holds no delimiter behind the dashes. -/
theorem marks_of_last {spaces : Text} (blank : spaces.all Text.isSpace = true) (rest : Text)
    (position : Nat) :
    marks (position + 1) false ("--".toList ++ spaces) = [] ∧
      ∀ mark ∈ marks (position + 1) false ("--".toList ++ (spaces ++ rest)),
        position + (3 + spaces.length) ≤ mark.1 := by
  constructor
  · have none := marks_of_delimiter blank [] position
    rw [List.append_nil] at none
    rw [none]
    rfl
  · intro mark member
    rw [marks_of_delimiter blank] at member
    exact marks_start_le _ _ _ mark member

/-- Two texts, one the beginning of the other, share all delimiters up to the last of the
shorter one. -/
theorem marks_append (front rest : Text) :
    ∀ position fresh, ∃ shared near far,
      marks position fresh front = shared ++ near ∧
      marks position fresh (front ++ rest) = shared ++ far ∧
      Parted (position + front.length) (CutLine fresh front rest) near far := by
  induction front with
  | nil =>
      intro position fresh
      exists [], [], marks position fresh rest
      constructor
      · rfl
      · constructor
        · rfl
        · apply Parted.open rfl
          intro mark member
          exact Nat.lt_add_right 2 (Nat.lt_succ_of_le (marks_start_le _ _ _ mark member))
  | cons head tail ih =>
      intro position fresh
      by_cases short : (head :: tail).length < 3
      · exists [], [], marks position fresh (head :: tail ++ rest)
        rw [marks_of_short short]
        constructor
        · rfl
        · constructor
          · rfl
          · apply Parted.open rfl
            intro mark member
            have start := marks_start_le _ _ _ mark member
            omega
      · have long : 3 ≤ (head :: tail).length := Nat.le_of_not_lt short
        obtain ⟨shared, near, far, nearMarks, farMarks, parted⟩ :=
          ih (position + 1) (head == '\n')
        have border : position + 1 + tail.length = position + (head :: tail).length := by
          rw [List.length_cons]
          omega
        rw [border] at parted
        by_cases solid : ((head :: tail).drop 3).all Text.isSpace = false
        · have same : delimiterHere fresh (head :: (tail ++ rest)) =
              delimiterHere fresh (head :: tail) := by
            cases fresh with
            | false => rfl
            | true => exact delimiterRun_append_of_solid long solid rest
          exists ((delimiterHere fresh (head :: tail)).map
            (fun length => (position, position + length))).toList ++ shared, near, far
          rw [marks, List.cons_append, marks, same, nearMarks, farMarks, List.append_assoc,
            List.append_assoc]
          exact ⟨rfl, rfl, parted.mono CutLine.cons⟩
        · rw [Bool.not_eq_false] at solid
          cases run : delimiterHere fresh (head :: tail) with
          | none =>
              have still : delimiterHere fresh (head :: (tail ++ rest)) = none := by
                cases fresh with
                | false => rfl
                | true => exact delimiterRun_append_of_none long run rest
              exists shared, near, far
              rw [marks, List.cons_append, marks, run, still, nearMarks, farMarks]
              exact ⟨rfl, rfl, parted.mono CutLine.cons⟩
          | some length =>
              obtain ⟨spaces, beyond, whole, _long, _blank⟩ := delimiterHere_shape run
              rw [whole] at solid
              have blank : (spaces ++ beyond).all Text.isSpace = true := solid
              generalize spaces ++ beyond = gap at whole blank
              have dash : head = '-' := (List.cons.inj whole).1
              have tailed : tail = "--".toList ++ gap := (List.cons.inj whole).2
              have size : (head :: tail).length = 3 + gap.length := by
                rw [whole, List.length_append]
                rfl
              obtain ⟨nothing, beyondBorder⟩ := marks_of_last blank rest position
              have plain : (head == '\n') = false := by
                rw [dash]
                rfl
              exists [], [(position, position + length)],
                marks position fresh (head :: tail ++ rest)
              constructor
              · rw [marks, run, plain, tailed, nothing]
                rfl
              · constructor
                · rfl
                · rw [size, List.cons_append, marks, plain, tailed, List.append_assoc]
                  cases onward : delimiterHere fresh (head :: ("--".toList ++ (gap ++ rest))) with
                  | some farther =>
                      exact Parted.closed position (position + length) (position + farther) _ rfl
                        rfl beyondBorder
                  | none =>
                      apply Parted.cut position (position + length) rfl _ beyondBorder
                      cases fresh with
                      | false => cases run
                      | true =>
                          rw [dash] at onward ⊢
                          exact cutLine_of_none blank onward

end VaultSearch
