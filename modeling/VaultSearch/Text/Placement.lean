/-
Pieces of a text and where they stand in it.

A placement runs through the text in segments: each is a piece, or what is left out between
two pieces.
-/

import VaultSearch.Text.Basic

set_option autoImplicit false

namespace VaultSearch

inductive Segment where
  | piece (text : Text)
  | gap (text : Text)
  deriving DecidableEq

namespace Segment

def text : Segment → Text
  | .piece text => text
  | .gap text => text

def kept : Segment → Option Text
  | .piece text => some text
  | .gap _ => none

end Segment

namespace Placement

/-- The text that the segments run through. -/
def whole (segments : List Segment) : Text :=
  segments.flatMap Segment.text

def pieces (segments : List Segment) : List Text :=
  segments.filterMap Segment.kept

/-- The pieces occur in the text in order and without overlapping. -/
structure Places (segments : List Segment) (found : List Text) (text : Text) : Prop where
  whole : whole segments = text
  pieces : pieces segments = found

@[simp] theorem whole_nil : whole [] = [] := rfl

@[simp] theorem whole_cons (segment : Segment) (rest : List Segment) :
    whole (segment :: rest) = segment.text ++ whole rest := List.flatMap_cons

@[simp] theorem whole_append (front back : List Segment) :
    whole (front ++ back) = whole front ++ whole back := List.flatMap_append

@[simp] theorem pieces_nil : pieces [] = [] := rfl

@[simp] theorem pieces_piece (text : Text) (rest : List Segment) :
    pieces (.piece text :: rest) = text :: pieces rest := rfl

@[simp] theorem pieces_gap (text : Text) (rest : List Segment) :
    pieces (.gap text :: rest) = pieces rest := rfl

@[simp] theorem pieces_append (front back : List Segment) :
    pieces (front ++ back) = pieces front ++ pieces back := List.filterMap_append

theorem exists_first_piece {segments : List Segment} {first : Text} {others : List Text}
    (found : pieces segments = first :: others) :
    ∃ front back, segments = front ++ .piece first :: back ∧ pieces back = others := by
  induction segments with
  | nil => cases found
  | cons segment rest ih =>
      cases segment with
      | piece text =>
          obtain ⟨same, later⟩ := List.cons.inj found
          rw [same]
          exact ⟨[], rest, rfl, later⟩
      | gap text =>
          obtain ⟨front, back, split, later⟩ := ih found
          exact ⟨.gap text :: front, back, congrArg _ split, later⟩

/-! ### Boundaries -/

variable {cut : Text → Text → Prop}

/-- Every boundary between segments, and both ends, are where the text may be cut; `before` and
`after` are what stands around the segments. -/
def Bounded (cut : Text → Text → Prop) (before : Text) (segments : List Segment)
    (after : Text) : Prop :=
  ∀ front back, segments = front ++ back → cut (before ++ whole front) (whole back ++ after)

theorem bounded_nil {before after : Text} : Bounded cut before [] after ↔ cut before after := by
  constructor
  · intro bounded
    have atEnd := bounded [] [] rfl
    rw [whole_nil, List.append_nil] at atEnd
    exact atEnd
  · intro atEnd front back split
    obtain ⟨emptyFront, emptyBack⟩ := List.append_eq_nil_iff.mp split.symm
    rw [emptyFront, emptyBack, whole_nil, List.append_nil]
    exact atEnd

theorem bounded_cons {before after : Text} {segment : Segment} {rest : List Segment} :
    Bounded cut before (segment :: rest) after ↔
      cut before (segment.text ++ (whole rest ++ after)) ∧
        Bounded cut (before ++ segment.text) rest after := by
  constructor
  · intro bounded
    constructor
    · have atStart := bounded [] (segment :: rest) rfl
      rw [whole_nil, List.append_nil, whole_cons, List.append_assoc] at atStart
      exact atStart
    · intro front back split
      have later := bounded (segment :: front) back (congrArg _ split)
      rw [whole_cons, ← List.append_assoc] at later
      exact later
  · rintro ⟨atStart, later⟩ front back split
    cases front with
    | nil =>
        rw [List.nil_append] at split
        rw [← split, whole_nil, List.append_nil, whole_cons, List.append_assoc]
        exact atStart
    | cons first others =>
        obtain ⟨same, sameRest⟩ := List.cons.inj split
        rw [← same, whole_cons, ← List.append_assoc]
        exact later others back sameRest

theorem bounded_append {before after : Text} {front back : List Segment} :
    Bounded cut before (front ++ back) after ↔
      Bounded cut before front (whole back ++ after) ∧
        Bounded cut (before ++ whole front) back after := by
  induction front generalizing before with
  | nil =>
      rw [List.nil_append, whole_nil, List.append_nil, bounded_nil]
      constructor
      · intro bounded
        have atStart := bounded [] back rfl
        rw [whole_nil, List.append_nil] at atStart
        exact ⟨atStart, bounded⟩
      · exact And.right
  | cons segment rest ih =>
      rw [List.cons_append, bounded_cons, bounded_cons, ih, whole_append, whole_cons,
        List.append_assoc, List.append_assoc, and_assoc]

/-- Where a text may be cut it may be cut as part of a longer text. -/
def Widens (cut : Text → Text → Prop) : Prop :=
  ∀ before front back after, front ≠ [] → back ≠ [] → cut front back →
    cut (before ++ front) (back ++ after)

theorem Bounded.widen (widens : Widens cut) {before after : Text} {segments : List Segment}
    (bounded : Bounded cut [] segments []) (atStart : cut before (whole segments ++ after))
    (atEnd : cut (before ++ whole segments) after) : Bounded cut before segments after := by
  intro front back split
  have here := bounded front back split
  rw [List.nil_append, List.append_nil] at here
  rw [split, whole_append] at atStart atEnd
  by_cases emptyFront : whole front = []
  · rw [emptyFront, List.nil_append] at atStart
    rw [emptyFront, List.append_nil]
    exact atStart
  · by_cases emptyBack : whole back = []
    · rw [emptyBack, List.append_nil] at atEnd
      rw [emptyBack, List.nil_append]
      exact atEnd
    · exact widens before (whole front) (whole back) after emptyFront emptyBack here

theorem whole_flatMap {refine : Segment → List Segment} {segments : List Segment}
    (same : ∀ segment ∈ segments, whole (refine segment) = segment.text) :
    whole (segments.flatMap refine) = whole segments := by
  induction segments with
  | nil => rfl
  | cons segment rest ih =>
      rw [List.flatMap_cons, whole_append, same segment List.mem_cons_self, whole_cons,
        ih (fun other member => same other (List.mem_cons_of_mem _ member))]

/-- Segments may be cut into smaller ones. -/
theorem Bounded.refine (widens : Widens cut) {refine : Segment → List Segment}
    {segments : List Segment}
    (same : ∀ segment ∈ segments, whole (refine segment) = segment.text)
    (finer : ∀ segment ∈ segments, Bounded cut [] (refine segment) []) {before after : Text}
    (bounded : Bounded cut before segments after) :
    Bounded cut before (segments.flatMap refine) after := by
  induction segments generalizing before with
  | nil => exact bounded
  | cons segment rest ih =>
      obtain ⟨atStart, later⟩ := bounded_cons.mp bounded
      have sameRest : ∀ other ∈ rest, whole (refine other) = other.text :=
        fun other member => same other (List.mem_cons_of_mem _ member)
      have sameFirst := same segment List.mem_cons_self
      have atNext : cut (before ++ segment.text) (whole rest ++ after) := by
        have next := later [] rest rfl
        rw [whole_nil, List.append_nil] at next
        exact next
      rw [List.flatMap_cons, bounded_append, sameFirst, whole_flatMap sameRest]
      constructor
      · apply (finer segment List.mem_cons_self).widen widens
        · rw [sameFirst]
          exact atStart
        · rw [sameFirst]
          exact atNext
      · exact ih sameRest (fun other member => finer other (List.mem_cons_of_mem _ member)) later

/-! ### Coverage -/

/-- The pieces stand in the text, and only whitespace is left out. -/
def Covered (found : List Text) (text : Text) : Prop :=
  ∃ segments, Places segments found text ∧
    ∀ gap, .gap gap ∈ segments → Text.isBlank gap = true

/-- The number of characters that are not whitespace. -/
def inked (text : Text) : Nat :=
  text.countP (fun char => !Text.isSpace char)

theorem inked_append (front back : Text) : inked (front ++ back) = inked front + inked back :=
  List.countP_append

theorem inked_eq_zero_iff {text : Text} : inked text = 0 ↔ Text.isBlank text = true := by
  unfold inked Text.isBlank
  rw [List.countP_eq_zero, List.all_eq_true]
  simp only [Bool.not_eq_true', Bool.not_eq_false]

theorem inked_pieces_le (segments : List Segment) :
    inked (pieces segments).flatten ≤ inked (whole segments) := by
  induction segments with
  | nil => exact Nat.le_refl _
  | cons segment rest ih =>
      rw [whole_cons, inked_append]
      cases segment with
      | piece text =>
          rw [pieces_piece, List.flatten_cons, inked_append]
          exact Nat.add_le_add_left ih _
      | gap text =>
          rw [pieces_gap]
          exact ih.trans (Nat.le_add_left _ _)

/-- Nothing but whitespace is left out exactly if the pieces have all other characters. -/
theorem blank_gaps_iff (segments : List Segment) :
    (∀ gap, .gap gap ∈ segments → Text.isBlank gap = true) ↔
      inked (whole segments) = inked (pieces segments).flatten := by
  induction segments with
  | nil =>
      constructor
      · intro _blank
        rfl
      · intro _same gap impossible
        cases impossible
  | cons segment rest ih =>
      have bound := inked_pieces_le rest
      rw [whole_cons, inked_append]
      cases segment with
      | piece text =>
          rw [pieces_piece, List.flatten_cons, inked_append]
          change _ ↔ inked text + _ = inked text + _
          rw [Nat.add_left_cancel_iff]
          exact (forall_congr' (fun gap => by simp)).trans ih
      | gap text =>
          have first : Segment.gap text ∈ Segment.gap text :: rest := List.mem_cons_self
          rw [pieces_gap]
          constructor
          · intro blank
            have empty := inked_eq_zero_iff.mpr (blank text first)
            have later := ih.mp (fun gap member => blank gap (List.mem_cons_of_mem _ member))
            change inked text + _ = _
            omega
          · intro same gap member
            change inked text + _ = _ at same
            rcases List.mem_cons.mp member with isFirst | later
            · rw [Segment.gap.inj isFirst]
              exact inked_eq_zero_iff.mp (by omega)
            · exact ih.mpr (by omega) gap later

/-- Whether a text is covered can be read off any placement of the pieces. -/
theorem covered_iff {segments : List Segment} {found : List Text} {text : Text}
    (places : Places segments found text) :
    Covered found text ↔ ∀ gap, .gap gap ∈ segments → Text.isBlank gap = true := by
  constructor
  · rintro ⟨others, placesToo, blank⟩
    rw [blank_gaps_iff, placesToo.whole, placesToo.pieces] at blank
    rw [blank_gaps_iff, places.whole, places.pieces]
    exact blank
  · exact fun blank => ⟨segments, places, blank⟩

end Placement

/-! ### What is not whitespace -/

namespace Text

def solid (text : Text) : Text :=
  text.filter (fun char => !isSpace char)

@[simp] theorem solid_nil : solid [] = [] := rfl

@[simp] theorem solid_append (front back : Text) : solid (front ++ back) = solid front ++ solid back :=
  List.filter_append _ _

theorem solid_eq_nil_iff {text : Text} : solid text = [] ↔ isBlank text = true := by
  unfold solid isBlank
  rw [List.filter_eq_nil_iff, List.all_eq_true]
  simp only [Bool.not_eq_true', Bool.not_eq_false]

theorem solid_lstrip (text : Text) : solid (lstrip text) = solid text := by
  have blank : solid (text.takeWhile isSpace) = [] :=
    solid_eq_nil_iff.mpr List.all_takeWhile
  conv =>
    rhs
    rw [← @List.takeWhile_append_dropWhile _ isSpace text]
  rw [solid_append, blank, List.nil_append, lstrip]

theorem solid_reverse (text : Text) : solid text.reverse = (solid text).reverse :=
  List.filter_reverse

theorem solid_rstrip (text : Text) : solid (rstrip text) = solid text := by
  have dropped := solid_lstrip text.reverse
  unfold lstrip at dropped
  unfold rstrip
  rw [solid_reverse, dropped, solid_reverse, List.reverse_reverse]

theorem solid_strip (text : Text) : solid (strip text) = solid text := by
  unfold strip
  rw [solid_rstrip, solid_lstrip]

end Text

end VaultSearch
