/-
Sections under the titles that enclose them.

A section keeps the titles that were open where it began.  Read off the sections, every
character of a body that is not whitespace comes once, in order, and under the headings that
the expression counts; these are the heading lines where no bare line takes a title.
-/

import VaultSearch.Parsers.HeaderLines
import VaultSearch.Text.Placement

set_option autoImplicit false

namespace VaultSearch

open Regex

/-! ### The matches of a body -/

/-- Start, level and title of a match. -/
def countedHeading (found : Match) : Nat × Nat × Text :=
  (found.start, (found.groupText 1).length, Text.strip (found.groupText 2))

theorem getLast_filled {front title : Text} (titled : title ≠ []) (oneLine : '\n' ∉ title) :
    ∃ last, (front ++ title).getLast? = some last ∧ last ≠ '\n' := by
  refine ⟨title.getLast titled, ?_, ?_⟩
  · rw [List.getLast?_append, List.getLast?_eq_some_getLast titled]
    rfl
  · intro same
    apply oneLine
    rw [← same]
    exact List.getLast_mem titled

/-- From the start of a line the scan finds the headings of the lines; from inside a line it
finds those of the lines below. -/
theorem findFrom_headerRe {levels : Nat} (positive : 0 < levels) (fuel : Nat) :
    ∀ (position : Nat) (cursor : Cursor), cursor.rest.length < fuel →
      (cursor.before.all (· == '\n') = true →
        ((headerRe levels).findFrom fuel position cursor).map countedHeading =
          placedHeadings levels position false cursor.rest) ∧
      (cursor.before.all (· == '\n') = false → ∀ line tail, cursor.rest = line ++ tail →
        '\n' ∉ line → Text.EndsLine tail →
        ((headerRe levels).findFrom fuel position cursor).map countedHeading =
          placedBelow levels (position + line.length) tail) := by
  induction fuel with
  | zero =>
      intro position cursor bound
      exact absurd bound (Nat.not_lt_zero _)
  | succ fuel ih =>
      intro position cursor bound
      -- without a match the scan goes on to the next character
      have moves : (headerRe levels).firstMatch cursor = none → ∀ line tail,
          cursor.rest = line ++ tail → '\n' ∉ line → Text.EndsLine tail →
          ((headerRe levels).findFrom (fuel + 1) position cursor).map countedHeading =
            placedBelow levels (position + line.length) tail := by
        intro none line tail whole free ends
        cases shape : cursor.rest with
        | nil =>
            obtain ⟨noLine, noTail⟩ := List.append_eq_nil_iff.mp (whole.symm.trans shape)
            rw [findFrom, none, shape, noTail]
            rfl
        | cons head rest =>
            rw [findFrom_of_none none shape]
            have shorter : rest.length < fuel := by
              rw [shape, List.length_cons] at bound
              exact Nat.lt_of_succ_lt_succ bound
            obtain ⟨atStart, inside⟩ := ih (position + 1) ⟨some head, rest, []⟩ shorter
            rw [shape] at whole
            cases line with
            | nil =>
                have isTail : tail = head :: rest := whole.symm
                rw [isTail] at ends ⊢
                exact atStart ends
            | cons first others =>
                obtain ⟨isFirst, isOthers⟩ := List.cons.inj whole
                have apart : '\n' ≠ first ∧ '\n' ∉ others := by simpa using free
                have notBreak : (some head).all (· == '\n') = false := by
                  rw [isFirst]
                  exact beq_eq_false_iff_ne.mpr (Ne.symm apart.1)
                refine (inside notBreak others tail isOthers apart.2 ends).trans ?_
                rw [List.length_cons, Nat.add_assoc, Nat.add_comm 1]
      constructor
      · intro atStart
        have first := firstMatch_headerRe positive cursor
        rw [if_pos atStart] at first
        obtain ⟨line, tail, whole, free, ends⟩ := Text.exists_line cursor.rest
        rcases headingHere_line levels free ends with ⟨none, below⟩ | ⟨parts, found, heads⟩
        · rw [whole, none] at first
          rw [moves first line tail whole free ends, whole, below]
        · rw [← whole] at found heads
          rw [found, Option.map_some] at first
          obtain ⟨after, split, afterEnds, placedHere⟩ := heads.splits
          have present : parts.1 ++ (parts.2.1 ++ parts.2.2) ≠ [] :=
            List.append_ne_nil_of_left_ne_nil heads.marked _
          rw [findFrom_of_groups first present split, List.map_cons, placedHere]
          have rested := advance_rest split
          have shorter : (cursor.advance (parts.1 ++ (parts.2.1 ++ parts.2.2))).rest.length <
              fuel := by
            have positiveLength := List.length_pos_of_ne_nil present
            rw [rested]
            rw [split, List.length_append] at bound
            omega
          obtain ⟨last, isLast, notBreak⟩ :=
            @getLast_filled (parts.1 ++ parts.2.1) _ heads.titled heads.oneLine
          rw [List.append_assoc] at isLast
          have inLine : (cursor.advance (parts.1 ++ (parts.2.1 ++ parts.2.2))).before.all
              (· == '\n') = false := by
            unfold Cursor.advance
            rw [isLast]
            exact beq_eq_false_iff_ne.mpr notBreak
          have later := (ih (position + (parts.1 ++ (parts.2.1 ++ parts.2.2)).length)
            { cursor.advance (parts.1 ++ (parts.2.1 ++ parts.2.2)) with
              groups := [(2, parts.2.2), (1, parts.1)] } shorter).2 inLine [] after rested
              List.not_mem_nil afterEnds
          rw [later]
          rfl
      · intro inLine
        have first := firstMatch_headerRe positive cursor
        rw [if_neg (by rw [inLine]; exact Bool.false_ne_true)] at first
        exact moves first

/-- The matches in a body are what its lines count. -/
theorem finditer_headerRe {levels : Nat} (positive : 0 < levels) (body : Text) :
    ((headerRe levels).finditer body).map countedHeading =
      placedHeadings levels 0 false body := by
  have found := (findFrom_headerRe positive (body.length + 1) 0 (Cursor.start body)
    (Nat.lt_succ_self _)).1 rfl
  exact found

/-! ### Enclosing headings -/

/-- The latest heading of each level that none of a lower level follows. -/
def enclosing : List (Nat × Text) → List (Nat × Text)
  | [] => []
  | heading :: later =>
      if later.all (fun other => heading.1 < other.1) then heading :: enclosing later
      else enclosing later

theorem enclosing_subset (headings : List (Nat × Text)) : enclosing headings ⊆ headings := by
  induction headings with
  | nil => exact List.Subset.refl _
  | cons heading later ih =>
      rw [enclosing]
      split
      · exact List.cons_subset_cons _ ih
      · exact List.subset_cons_of_subset _ ih

/-- Enclosing headings go down, one of a level. -/
theorem enclosing_increasing (headings : List (Nat × Text)) :
    ((enclosing headings).map Prod.fst).Pairwise (· < ·) := by
  induction headings with
  | nil => exact List.Pairwise.nil
  | cons heading later ih =>
      rw [enclosing]
      split
      case isTrue lower =>
        rw [List.map_cons, List.pairwise_cons]
        refine ⟨?_, ih⟩
        intro level member
        obtain ⟨other, inside, same⟩ := List.mem_map.mp member
        rw [← same]
        exact of_decide_eq_true (List.all_eq_true.mp lower other (enclosing_subset later inside))
      case isFalse => exact ih

/-- A further heading ends those of its level and below. -/
theorem enclosing_concat (headings : List (Nat × Text)) (heading : Nat × Text) :
    enclosing (headings ++ [heading]) =
      (enclosing headings).filter (fun entry => entry.1 < heading.1) ++ [heading] := by
  induction headings with
  | nil => rfl
  | cons first later ih =>
      rw [List.cons_append, enclosing, enclosing, List.all_append, ih]
      by_cases lower : later.all (fun other => first.1 < other.1) = true
      · by_cases below : first.1 < heading.1
        · simp [lower, below]
        · simp [lower, below]
      · simp [lower]

/-! ### Characters in context -/

/-- The characters of the sections with the titles above them. -/
def sectionChars (sections : List HeaderSection) : List (Char × List Text) :=
  sections.flatMap (fun part => (Text.solid part.content).map (fun char => (char, part.headers)))

/-- The characters of lines with the titles of the enclosing headings, after those seen. -/
def charsUnder (seen : List (Nat × Text)) :
    List Text → List (Option (Nat × Text)) → List (Char × List Text)
  | line :: below, event :: events =>
      let seen := seen ++ event.toList
      (Text.solid line).map (fun char => (char, (enclosing seen).map (·.2))) ++
        charsUnder seen below events
  | _, _ => []

/-- The characters that a scan has behind it. -/
def SectionScan.chars (scan : SectionScan) (before : Text) : List (Char × List Text) :=
  sectionChars scan.sections ++ (Text.solid (before.drop scan.lastEnd)).map
    (fun char => (char, scan.current.map (·.2)))

theorem sectionChars_close (scan : SectionScan) (content : Text) :
    sectionChars (scan.close content) = sectionChars scan.sections ++
      (Text.solid content).map (fun char => (char, scan.current.map (·.2))) := by
  unfold SectionScan.close
  split
  case isTrue empty =>
    have blank := (Text.strip_eq_nil_iff content).mp (List.isEmpty_iff.mp empty)
    rw [Text.solid_eq_nil_iff.mpr blank, List.map_nil, List.append_nil]
  case isFalse =>
    unfold sectionChars
    rw [List.flatMap_append, List.flatMap_singleton, Text.solid_strip]

/-- The step of the loop: opening a section loses no character. -/
theorem SectionScan.chars_heading (scan : SectionScan) {body before after : Text}
    (split : body = before ++ after) (within : scan.lastEnd ≤ before.length) {found : Match}
    (start : found.start = before.length) :
    (scan.heading body found).chars before = scan.chars before := by
  have dropped : before.drop before.length = [] := List.drop_length
  have taken : (body.take found.start).drop scan.lastEnd = before.drop scan.lastEnd := by
    rw [split, start, List.take_left]
  unfold SectionScan.chars SectionScan.heading
  simp only
  rw [start, dropped, Text.solid_nil, List.map_nil, List.append_nil]
  split
  · rw [← start, taken, sectionChars_close]
  case isFalse atEnd =>
    have same : scan.lastEnd = before.length := Nat.le_antisymm within (Nat.le_of_not_lt atEnd)
    rw [same, dropped, Text.solid_nil, List.map_nil, List.append_nil]

theorem SectionScan.chars_line (scan : SectionScan) {before : Text}
    (within : scan.lastEnd ≤ before.length) (line : Text) :
    scan.chars (before ++ line) = scan.chars before ++
      (Text.solid line).map (fun char => (char, scan.current.map (·.2))) := by
  unfold SectionScan.chars
  rw [List.drop_append_of_le_length within, Text.solid_append, List.map_append, List.append_assoc]

/-- What the loop does at the start of a line, with the match there if there is one. -/
theorem exists_opened {body before after : Text} (split : body = before ++ after)
    {scan : SectionScan} (within : scan.lastEnd ≤ before.length) {seen : List (Nat × Text)}
    (isOpen : scan.current = enclosing seen) {event : Option (Nat × Text)}
    {found : List Match} {later : List (Nat × Nat × Text)}
    (counted : found.map countedHeading =
      (event.map (fun heading => (before.length, heading))).toList ++ later) :
    ∃ (opened : SectionScan) (rest : List Match),
      found.foldl (SectionScan.heading body) scan =
        rest.foldl (SectionScan.heading body) opened ∧
      rest.map countedHeading = later ∧ opened.lastEnd ≤ before.length ∧
      opened.current = enclosing (seen ++ event.toList) ∧
      opened.chars before = scan.chars before := by
  cases event with
  | none =>
      refine ⟨scan, found, rfl, counted, within, ?_, rfl⟩
      rw [isOpen, Option.toList_none, List.append_nil]
  | some heading =>
      cases found with
      | nil => cases counted
      | cons first rest =>
          obtain ⟨here, others⟩ := List.cons.inj counted
          obtain ⟨start, same⟩ := Prod.mk.inj here
          refine ⟨scan.heading body first, rest, rfl, others, Nat.le_of_eq start, ?_,
            scan.chars_heading split within start⟩
          rw [Option.toList_some, enclosing_concat, ← isOpen, ← same]
          rfl

/-- The loop over all matches: every character comes under the headings counted so far. -/
theorem chars_foldl (body : Text) (text : Text) :
    ∀ {scan : SectionScan} {before : Text} {seen : List (Nat × Text)}
      {events : List (Option (Nat × Text))} {found : List Match},
      body = before ++ text → scan.lastEnd ≤ before.length → scan.current = enclosing seen →
      events.length = (Text.lines text).length →
      found.map countedHeading = placed before.length (Text.lines text) events →
      (found.foldl (SectionScan.heading body) scan).chars body =
        scan.chars before ++ charsUnder seen (Text.lines text) events := by
  induction text using Text.lines_induction with
  | last line free =>
      intro scan before seen events found split within isOpen sameLength counted
      rw [Text.lines_of_free free] at sameLength counted ⊢
      obtain ⟨event, rfl⟩ := List.length_eq_one_iff.mp sameLength
      obtain ⟨opened, rest, sameScan, none, inside, current, sameChars⟩ :=
        exists_opened split within isOpen counted
      have finished : rest = [] := List.map_eq_nil_iff.mp none
      rw [sameScan, finished, List.foldl_nil, split, opened.chars_line inside, sameChars, current]
      exact congrArg (scan.chars before ++ ·) (List.append_nil _).symm
  | more line rest free ih =>
      intro scan before seen events found split within isOpen sameLength counted
      rw [Text.lines_cons free] at sameLength counted ⊢
      obtain ⟨event, others, rfl⟩ := List.exists_cons_of_length_eq_add_one sameLength
      obtain ⟨opened, after, sameScan, below, inside, current, sameChars⟩ :=
        exists_opened split within isOpen counted
      have moved : (before ++ (line ++ ['\n'])).length = before.length + line.length + 1 := by
        simp only [List.length_append, List.length_singleton]
        omega
      have splitBelow : body = (before ++ (line ++ ['\n'])) ++ rest := by
        rw [split]
        simp
      have farther : opened.lastEnd ≤ (before ++ (line ++ ['\n'])).length := by
        rw [moved]
        omega
      have solidLine : Text.solid (line ++ ['\n']) = Text.solid line := by
        rw [Text.solid_append]
        exact List.append_nil _
      have sameRest : others.length = (Text.lines rest).length := Nat.succ.inj sameLength
      rw [← moved] at below
      rw [sameScan, ih splitBelow farther current sameRest below, opened.chars_line inside,
        solidLine, sameChars, current, charsUnder, List.append_assoc]

theorem length_countedHeadings (levels : Nat) (lines : List Text) :
    ∀ skipping, (countedHeadings levels skipping lines).length = lines.length := by
  induction lines with
  | nil =>
      intro skipping
      cases skipping with
      | true => rfl
      | false => rfl
  | cons line below ih =>
      intro skipping
      cases skipping with
      | true => rw [countedHeadings, List.length_cons, List.length_cons, ih]
      | false =>
          rw [countedHeadings]
          split
          · rw [List.length_cons, List.length_cons, ih]
          · split
            · split
              · rw [List.length_cons, List.length_cons, ih]
              · rw [List.length_cons, List.length_cons, ih]
            · rw [List.length_cons, List.length_cons, ih]

theorem charsUnder_chars {lines : List Text} :
    ∀ {seen : List (Nat × Text)} {events : List (Option (Nat × Text))},
      events.length = lines.length →
      (charsUnder seen lines events).map Prod.fst = lines.flatMap Text.solid := by
  induction lines with
  | nil =>
      intro seen events _sameLength
      rw [charsUnder]
      · rfl
      · exact fun _line _below _event _events impossible => by cases impossible
  | cons line below ih =>
      intro seen events sameLength
      obtain ⟨event, others, rfl⟩ := List.exists_cons_of_length_eq_add_one sameLength
      rw [charsUnder, List.map_append, List.map_map, ih (Nat.succ.inj sameLength),
        List.flatMap_cons]
      congr 1
      exact List.map_id _

theorem solid_lines (text : Text) : (Text.lines text).flatMap Text.solid = Text.solid text := by
  induction text using Text.lines_induction with
  | last line free => rw [Text.lines_of_free free, List.flatMap_singleton]
  | more line rest free ih =>
      rw [Text.lines_cons free, List.flatMap_cons, ih, Text.solid_append]
      rfl

theorem charsUnder_lines {text : Text} {events : List (Option (Nat × Text))}
    (sameLength : events.length = (Text.lines text).length) :
    (charsUnder [] (Text.lines text) events).map Prod.fst = Text.solid text := by
  rw [charsUnder_chars sameLength, solid_lines]

/-- The sections hold the characters of the lines, under the headings that are counted. -/
theorem sectionChars_split {levels : Nat} (positive : 0 < levels) (body : Text) :
    sectionChars (splitByHeaders levels body) =
      charsUnder [] (Text.lines body) (countedHeadings levels false (Text.lines body)) := by
  have sameLength := length_countedHeadings levels (Text.lines body) false
  have counted := finditer_headerRe positive body
  have scanned := @chars_foldl body body {} [] [] _ _ rfl (Nat.le_refl _) rfl sameLength counted
  have closed := sectionChars_close
    (((headerRe levels).finditer body).foldl (SectionScan.heading body) {})
    (body.drop (((headerRe levels).finditer body).foldl (SectionScan.heading body) {}).lastEnd)
  have whole := closed.trans scanned
  change _ = charsUnder [] (Text.lines body) _ at whole
  unfold splitByHeaders
  simp only
  split
  case isFalse => exact whole
  case isTrue fallback =>
    obtain ⟨none, filled⟩ := Bool.and_eq_true_iff.mp fallback
    rw [List.isEmpty_iff.mp none] at whole
    have chars := charsUnder_lines sameLength
    rw [← whole] at chars
    have blank := Text.solid_eq_nil_iff.mp chars.symm
    rw [(Text.strip_eq_nil_iff body).mpr blank] at filled
    cases filled

/-! ### Two readings of the same lines -/

def titles (chain : List (Nat × Text)) : List Text :=
  chain.map (·.2)

/-- The headings of the lines at and above a position. -/
def upTo (count : Nat) (events : List (Option (Nat × Text))) : List (Nat × Text) :=
  (events.take (count + 1)).reduceOption

/-- At every line that is not blank two readings give the enclosing titles alike. -/
def ReadAlike (lines : List Text) (first second : List (Option (Nat × Text))) : Prop :=
  ∀ above line below, lines = above ++ line :: below → Text.isBlank line = false →
    titles (enclosing (upTo above.length first)) = titles (enclosing (upTo above.length second))

theorem upTo_zero (event : Option (Nat × Text)) (events : List (Option (Nat × Text))) :
    upTo 0 (event :: events) = event.toList := by
  cases event with
  | none => rfl
  | some heading => rfl

theorem upTo_succ (count : Nat) (event : Option (Nat × Text))
    (events : List (Option (Nat × Text))) :
    upTo (count + 1) (event :: events) = event.toList ++ upTo count events := by
  cases event with
  | none => rfl
  | some heading => rfl

theorem map_pair_eq_iff {first second : List Text} (chars : Text) :
    chars.map (fun char => (char, first)) = chars.map (fun char => (char, second)) ↔
      (chars ≠ [] → first = second) := by
  cases chars with
  | nil => exact iff_of_true rfl (fun filled => absurd rfl filled)
  | cons head tail =>
      constructor
      · intro same _filled
        exact (Prod.mk.inj (List.cons.inj same).1).2
      · intro same
        rw [same (List.cons_ne_nil _ _)]

/-- The characters come under the same titles exactly if the readings agree on them. -/
theorem charsUnder_eq_iff {lines : List Text} :
    ∀ {seen other : List (Nat × Text)} {first second : List (Option (Nat × Text))},
      first.length = lines.length → second.length = lines.length →
      (charsUnder seen lines first = charsUnder other lines second ↔
        ∀ above line below, lines = above ++ line :: below → Text.isBlank line = false →
          titles (enclosing (seen ++ upTo above.length first)) =
            titles (enclosing (other ++ upTo above.length second))) := by
  induction lines with
  | nil =>
      intro seen other first second noFirst noSecond
      rw [List.eq_nil_of_length_eq_zero noFirst, List.eq_nil_of_length_eq_zero noSecond]
      apply iff_of_true
      · rw [charsUnder, charsUnder]
        · exact fun _line _below _event _events impossible => by cases impossible
        · exact fun _line _below _event _events impossible => by cases impossible
      · intro above line below split _filled
        cases above with
        | nil => cases split
        | cons head tail => cases split
  | cons line below ih =>
      intro seen other first second firstLength secondLength
      obtain ⟨event, events, rfl⟩ := List.exists_cons_of_length_eq_add_one firstLength
      obtain ⟨twin, twins, rfl⟩ := List.exists_cons_of_length_eq_add_one secondLength
      have later := @ih (seen ++ event.toList) (other ++ twin.toList) events twins
        (Nat.succ.inj firstLength) (Nat.succ.inj secondLength)
      have here := @map_pair_eq_iff (titles (enclosing (seen ++ event.toList)))
        (titles (enclosing (other ++ twin.toList))) (Text.solid line)
      have filled_iff : Text.solid line ≠ [] ↔ Text.isBlank line = false := by
        rw [Ne, Text.solid_eq_nil_iff, Bool.not_eq_true]
      rw [filled_iff] at here
      constructor
      · intro same
        rw [charsUnder, charsUnder] at same
        obtain ⟨sameHere, sameBelow⟩ := List.append_inj same (by simp)
        intro above named under split filled
        cases above with
        | nil =>
            obtain ⟨isLine, _isBelow⟩ := List.cons.inj split
            rw [← isLine] at filled
            rw [List.length_nil, upTo_zero, upTo_zero]
            exact here.mp sameHere filled
        | cons head others =>
            obtain ⟨_isLine, isBelow⟩ := List.cons.inj split
            rw [List.length_cons, upTo_succ, upTo_succ, ← List.append_assoc, ← List.append_assoc]
            exact later.mp sameBelow others named under isBelow filled
      · intro agree
        rw [charsUnder, charsUnder]
        congr 1
        · apply here.mpr
          intro filled
          have atLine := agree [] line below rfl filled
          rw [List.length_nil, upTo_zero, upTo_zero] at atLine
          exact atLine
        · apply later.mpr
          intro above named under split filled
          have atLine := agree (line :: above) named under (by rw [split]; rfl) filled
          rw [List.length_cons, upTo_succ, upTo_succ, ← List.append_assoc,
            ← List.append_assoc] at atLine
          exact atLine

/-- Without a bare line that takes a title only heading lines are counted. -/
theorem countedHeadings_of_untaken {levels : Nat} {lines : List Text}
    (untaken : ∀ above line below, lines = above ++ line :: below → bareLine levels line →
      takenTitle line below = none) :
    countedHeadings levels false lines = lines.map (headingLine levels) := by
  induction lines with
  | nil => rfl
  | cons line below ih =>
      have later := ih (fun above named under split =>
        untaken (line :: above) named under (by rw [split]; rfl))
      rw [countedHeadings, List.map_cons, later]
      cases own : headingLine levels line with
      | some heading => rfl
      | none =>
          by_cases bare : bareLine levels line
          · simp only
            rw [if_pos bare, untaken [] line below rfl bare]
          · simp only
            rw [if_neg bare]

/-! ### Sections in context -/

/-- The sections cover the body, each under the titles of the heading lines around it. -/
structure InContext (levels : Nat) (body : Text) : Prop where
  covered : Text.solid ((splitByHeaders levels body).flatMap (·.content)) = Text.solid body
  context : sectionChars (splitByHeaders levels body) =
    charsUnder [] (Text.lines body) ((Text.lines body).map (headingLine levels))
  increasing : ∀ part ∈ splitByHeaders levels body, ∃ chain,
    part.headers = titles chain ∧ (chain.map (·.1)).Pairwise (· < ·) ∧
      ∀ heading ∈ chain, some heading ∈ (Text.lines body).map (headingLine levels)

theorem solid_flatMap (sections : List HeaderSection) :
    Text.solid (sections.flatMap (·.content)) = (sectionChars sections).map Prod.fst := by
  induction sections with
  | nil => rfl
  | cons part later ih =>
      have here : sectionChars (part :: later) =
          (Text.solid part.content).map (fun char => (char, part.headers)) ++
            sectionChars later := List.flatMap_cons
      rw [here, List.flatMap_cons, Text.solid_append, ih, List.map_append, List.map_map]
      congr 1
      exact (List.map_id _).symm

/-- Nothing but whitespace is lost, however the headings are counted. -/
theorem splitByHeaders_covered {levels : Nat} (positive : 0 < levels) (body : Text) :
    Text.solid ((splitByHeaders levels body).flatMap (·.content)) = Text.solid body := by
  rw [solid_flatMap, sectionChars_split positive,
    charsUnder_lines (length_countedHeadings levels _ false)]

theorem close_filled {scan : SectionScan} {content : Text}
    (filled : ∀ part ∈ scan.sections, Text.solid part.content ≠ []) :
    ∀ part ∈ scan.close content, Text.solid part.content ≠ [] := by
  intro part member
  unfold SectionScan.close at member
  split at member
  · exact filled part member
  case isFalse solid =>
    rcases List.mem_append.mp member with earlier | last
    · exact filled part earlier
    · rw [List.mem_singleton.mp last]
      simp only
      rw [Text.solid_strip, Ne, Text.solid_eq_nil_iff, ← Text.strip_eq_nil_iff,
        ← List.isEmpty_iff]
      exact solid

/-- No section is blank. -/
theorem splitByHeaders_filled (levels : Nat) (body : Text) :
    ∀ part ∈ splitByHeaders levels body, Text.solid part.content ≠ [] := by
  have run : ∀ (found : List Match) (scan : SectionScan),
      (∀ part ∈ scan.sections, Text.solid part.content ≠ []) →
      ∀ part ∈ (found.foldl (SectionScan.heading body) scan).sections,
        Text.solid part.content ≠ [] := by
    intro found
    induction found with
    | nil => exact fun scan filled => filled
    | cons first later ih =>
        intro scan filled
        apply ih
        unfold SectionScan.heading
        simp only
        split
        · exact close_filled filled
        · exact filled
  have opened := run ((headerRe levels).finditer body) {}
    (fun part none => absurd none List.not_mem_nil)
  have closed := @close_filled _ (body.drop
    (((headerRe levels).finditer body).foldl (SectionScan.heading body) {}).lastEnd) opened
  intro part member
  unfold splitByHeaders at member
  simp only at member
  split at member
  case isFalse => exact closed part member
  case isTrue fallback =>
    have filled := (Bool.and_eq_true_iff.mp fallback).2
    rw [List.mem_singleton.mp member]
    simp only
    rw [Text.solid_strip, Ne, Text.solid_eq_nil_iff, ← Text.strip_eq_nil_iff, ← List.isEmpty_iff]
    rw [Bool.not_eq_true'] at filled
    rw [filled]
    exact Bool.false_ne_true

theorem charsUnder_chain {lines : List Text} :
    ∀ {seen : List (Nat × Text)} {events : List (Option (Nat × Text))} {char : Char}
      {headers : List Text}, (char, headers) ∈ charsUnder seen lines events →
      ∃ headings, headers = titles (enclosing headings) ∧
        ∀ heading ∈ headings, heading ∈ seen ∨ some heading ∈ events := by
  induction lines with
  | nil =>
      intro seen events char headers member
      rw [charsUnder] at member
      · cases member
      · exact fun _line _below _event _events impossible => by cases impossible
  | cons line below ih =>
      intro seen events char headers member
      cases events with
      | nil =>
          rw [charsUnder] at member
          · cases member
          · exact fun _line _below _event _events _same impossible => by cases impossible
      | cons event others =>
          have near : ∀ heading ∈ seen ++ event.toList,
              heading ∈ seen ∨ some heading ∈ event :: others := by
            intro heading inside
            rcases List.mem_append.mp inside with earlier | here
            · exact Or.inl earlier
            · rw [Option.mem_toList.mp here]
              exact Or.inr List.mem_cons_self
          rw [charsUnder] at member
          rcases List.mem_append.mp member with here | later
          · obtain ⟨_, _inLine, same⟩ := List.mem_map.mp here
            exact ⟨seen ++ event.toList, (Prod.mk.inj same).2.symm, near⟩
          · obtain ⟨headings, same, known⟩ := ih later
            refine ⟨headings, same, ?_⟩
            intro heading inside
            rcases known heading inside with inSeen | inOthers
            · exact near heading inSeen
            · exact Or.inr (List.mem_cons_of_mem _ inOthers)

/-- The sections stand in context exactly where counting the titles that bare lines take makes
no difference at any line with text, and so where no bare line takes one. -/
theorem splitByHeaders_inContext_iff {levels : Nat} (positive : 0 < levels) (body : Text) :
    (InContext levels body ↔ ReadAlike (Text.lines body)
      (countedHeadings levels false (Text.lines body))
      ((Text.lines body).map (headingLine levels))) ∧
    ((∀ above line below, Text.lines body = above ++ line :: below → bareLine levels line →
      takenTitle line below = none) → InContext levels body) := by
  have sameLength := length_countedHeadings levels (Text.lines body) false
  have covered := splitByHeaders_covered positive body
  have alike_iff := @charsUnder_eq_iff (Text.lines body) [] [] _ _ sameLength
    (List.length_map (headingLine levels))
  have inContext_iff : InContext levels body ↔ ReadAlike (Text.lines body)
      (countedHeadings levels false (Text.lines body))
      ((Text.lines body).map (headingLine levels)) := by
    refine Iff.trans ?_ alike_iff
    rw [← sectionChars_split positive]
    constructor
    · exact fun inContext => inContext.context
    · intro context
      refine ⟨covered, context, ?_⟩
      intro part member
      obtain ⟨char, inside⟩ :=
        List.exists_mem_of_ne_nil _ (splitByHeaders_filled levels body part member)
      have present : (char, part.headers) ∈ sectionChars (splitByHeaders levels body) :=
        List.mem_flatMap_of_mem member (List.mem_map_of_mem inside)
      rw [context] at present
      obtain ⟨headings, same, known⟩ := charsUnder_chain present
      refine ⟨enclosing headings, same, enclosing_increasing headings, ?_⟩
      intro heading enclosed
      rcases known heading (enclosing_subset headings enclosed) with impossible | isLine
      · exact absurd impossible List.not_mem_nil
      · exact isLine
  refine ⟨inContext_iff, ?_⟩
  intro untaken
  rw [inContext_iff, countedHeadings_of_untaken untaken]
  exact fun _above _line _below _split _filled => rfl

theorem splitByHeaders_inContext_skipped : InContext 4 "intro\n\n# A\n### B\nb\n## C".toList := by
  apply (splitByHeaders_inContext_iff (by decide) _).2
  intro above line below split bare
  have member : line ∈ Text.lines "intro\n\n# A\n### B\nb\n## C".toList := by
    rw [split]
    simp
  have none : ∀ line ∈ Text.lines "intro\n\n# A\n### B\nb\n## C".toList, ¬ bareLine 4 line := by
    decide
  exact absurd bare (none line member)

/-- A bare line takes the paragraph below it for its title. -/
theorem splitByHeaders_takes_paragraph : ¬ InContext 4 "#\nfoo".toList := by
  intro inContext
  have context := inContext.context
  revert context
  decide

end VaultSearch
