/-
Where the chunks of a text stand in it.

The segments follow the hierarchical split and keep what it leaves out: a separator between two
groups, or one that an empty group would begin with.
-/

import VaultSearch.Core.Chunker
import VaultSearch.Text.Placement
import VaultSearch.Text.Split

set_option autoImplicit false

namespace VaultSearch

open Placement

/-! ### Segments -/

/-- The groups, with the separators between them. -/
def groupSegments (chunkSize : Nat) (separator : Text) : Text → List Text → List Segment
  | current, [] => if current.isEmpty then [] else [.piece current]
  | current, part :: rest =>
      if current.isEmpty then .gap separator :: groupSegments chunkSize separator part rest
      else if (current ++ separator ++ part).length ≤ chunkSize then
        groupSegments chunkSize separator (current ++ separator ++ part) rest
      else .piece current :: .gap separator :: groupSegments chunkSize separator part rest

/-- The segments of a chunk that is split further. -/
def refineSegment (chunkSize : Nat) (further : Text → List Segment) : Segment → List Segment
  | .gap text => [.gap text]
  | .piece text => if chunkSize < text.length then further text else [.piece text]

def chunkSegments (chunkSize : Nat) : List Text → Text → List Segment
  | [], text =>
      if text.length ≤ chunkSize then [.piece text]
      else (hardCuts chunkSize text.length text).map .piece
  | separator :: separators, text =>
      if text.length ≤ chunkSize then [.piece text]
      else
        match Text.split separator text with
        | first :: second :: rest =>
            (groupSegments chunkSize separator first (second :: rest)).flatMap
              (refineSegment chunkSize (chunkSegments chunkSize separators))
        | _ => chunkSegments chunkSize separators text

variable {chunkSize : Nat} {separator : Text}

theorem groupSegments_nil (current : Text) :
    groupSegments chunkSize separator current [] =
      if current.isEmpty then [] else [.piece current] := rfl

theorem groupSegments_cons (current part : Text) (rest : List Text) :
    groupSegments chunkSize separator current (part :: rest) =
      if current.isEmpty then .gap separator :: groupSegments chunkSize separator part rest
      else if (current ++ separator ++ part).length ≤ chunkSize then
        groupSegments chunkSize separator (current ++ separator ++ part) rest
      else .piece current :: .gap separator :: groupSegments chunkSize separator part rest := rfl

theorem chunkSegments_nil (text : Text) :
    chunkSegments chunkSize [] text =
      if text.length ≤ chunkSize then [.piece text]
      else (hardCuts chunkSize text.length text).map .piece := rfl

theorem chunkSegments_short {separators : List Text} {text : Text}
    (short : text.length ≤ chunkSize) :
    chunkSegments chunkSize separators text = [.piece text] := by
  cases separators with
  | nil => exact if_pos short
  | cons separator separators => exact if_pos short

/-- What stands behind the open group. -/
def remaining (separator : Text) (parts : List Text) : Text :=
  parts.flatMap (separator ++ ·)

theorem join_eq_remaining (first : Text) (rest : List Text) :
    Text.join separator (first :: rest) = first ++ remaining separator rest := by
  induction rest generalizing first with
  | nil => exact (List.append_nil first).symm
  | cons second others ih =>
      rw [Text.join_cons (List.cons_ne_nil _ _), ih]
      unfold remaining
      rw [List.flatMap_cons, List.append_assoc, List.append_assoc]

theorem groupParts_nil_cons (first : Text) (rest : List Text) :
    groupParts chunkSize separator [] (first :: rest) =
      groupParts chunkSize separator first rest := by
  rw [groupParts]
  simp only [List.isEmpty_nil, if_true, ite_self]

theorem pieces_groupSegments (current : Text) (parts : List Text) :
    pieces (groupSegments chunkSize separator current parts) =
      groupParts chunkSize separator current parts := by
  induction parts generalizing current with
  | nil =>
      rw [groupSegments_nil]
      unfold groupParts
      split
      · rfl
      · rfl
  | cons part rest ih =>
      cases current with
      | nil =>
          rw [groupParts_nil_cons, ← ih]
          rfl
      | cons head tail =>
          rw [groupSegments_cons]
          unfold groupParts
          rw [List.isEmpty_cons, if_neg Bool.false_ne_true, if_neg Bool.false_ne_true,
            if_neg Bool.false_ne_true]
          dsimp only
          split
          · exact ih _
          · rw [pieces_piece, pieces_gap, ih]

theorem whole_groupSegments (current : Text) (parts : List Text) :
    whole (groupSegments chunkSize separator current parts) =
      current ++ remaining separator parts := by
  have longer : ∀ part rest, remaining separator (part :: rest) =
      separator ++ (part ++ remaining separator rest) := by
    intro part rest
    unfold remaining
    rw [List.flatMap_cons, List.append_assoc]
  induction parts generalizing current with
  | nil =>
      rw [groupSegments_nil]
      cases current with
      | nil => rfl
      | cons head tail => rfl
  | cons part rest ih =>
      rw [groupSegments_cons]
      rw [longer]
      split
      · rename_i empty
        rw [whole_cons, ih, List.isEmpty_iff.mp empty]
        rfl
      · split
        · rw [ih, List.append_assoc, List.append_assoc]
        · rw [whole_cons, whole_cons, ih]
          rfl

/-- A chunk is small, or it is a part of its own. -/
theorem groupSegments_piece {current : Text} {parts : List Text} {chunk : Text}
    (member : .piece chunk ∈ groupSegments chunkSize separator current parts) :
    chunk.length ≤ chunkSize ∨ chunk ∈ current :: parts := by
  induction parts generalizing current with
  | nil =>
      rw [groupSegments_nil] at member
      split at member
      · cases member
      · rw [Segment.piece.inj (List.mem_singleton.mp member)]
        exact Or.inr List.mem_cons_self
  | cons part rest ih =>
      have later : chunk.length ≤ chunkSize ∨ chunk ∈ part :: rest →
          chunk.length ≤ chunkSize ∨ chunk ∈ current :: part :: rest :=
        Or.imp_right (List.mem_cons_of_mem _)
      rw [groupSegments_cons] at member
      split at member
      · rcases List.mem_cons.mp member with impossible | member
        · cases impossible
        · exact later (ih member)
      · split at member
        · rename_i fits
          rcases ih member with small | among
          · exact Or.inl small
          · rcases List.mem_cons.mp among with same | among
            · rw [same]
              exact Or.inl fits
            · exact later (Or.inr (List.mem_cons_of_mem _ among))
        · rcases List.mem_cons.mp member with same | member
          · rw [Segment.piece.inj same]
            exact Or.inr List.mem_cons_self
          · rcases List.mem_cons.mp member with impossible | member
            · cases impossible
            · exact later (ih member)

/-- What is left out between groups is the separator. -/
theorem groupSegments_gap {current gap : Text} {parts : List Text}
    (member : .gap gap ∈ groupSegments chunkSize separator current parts) : gap = separator := by
  induction parts generalizing current with
  | nil =>
      rw [groupSegments_nil] at member
      split at member
      · cases member
      · cases List.mem_singleton.mp member
  | cons part rest ih =>
      rw [groupSegments_cons] at member
      split at member
      · rcases List.mem_cons.mp member with same | member
        · exact Segment.gap.inj same
        · exact ih member
      · split at member
        · exact ih member
        · rcases List.mem_cons.mp member with impossible | member
          · cases impossible
          · rcases List.mem_cons.mp member with same | member
            · exact Segment.gap.inj same
            · exact ih member

/-- Groups that do not fit in one chunk leave a separator out. -/
theorem gap_of_long {current : Text} {parts : List Text} (several : parts ≠ [])
    (long : chunkSize < (current ++ remaining separator parts).length) :
    .gap separator ∈ groupSegments chunkSize separator current parts := by
  induction parts generalizing current with
  | nil => exact absurd rfl several
  | cons part rest ih =>
      rw [groupSegments_cons]
      split
      · exact List.mem_cons_self
      · split
        · rename_i fits
          have regrouped : current ++ remaining separator (part :: rest) =
              current ++ separator ++ part ++ remaining separator rest := by
            unfold remaining
            rw [List.flatMap_cons, List.append_assoc, List.append_assoc, List.append_assoc]
          rw [regrouped] at long
          apply ih _ long
          intro empty
          rw [empty] at long
          unfold remaining at long
          rw [List.flatMap_nil, List.append_nil] at long
          omega
        · exact List.mem_cons_of_mem _ List.mem_cons_self

theorem hardCuts_flatten (positive : 1 ≤ chunkSize) (fuel : Nat) :
    ∀ text : Text, text.length ≤ fuel → (hardCuts chunkSize fuel text).flatten = text := by
  induction fuel with
  | zero =>
      intro text short
      rw [List.length_eq_zero_iff.mp (Nat.le_zero.mp short)]
      rfl
  | succ fuel ih =>
      intro text short
      unfold hardCuts
      split
      · rename_i empty
        rw [List.isEmpty_iff.mp empty]
        rfl
      · rename_i filled
        have some : 0 < text.length := by
          apply List.length_pos_iff.mpr
          intro empty
          exact filled (List.isEmpty_iff.mpr empty)
        rw [List.flatten_cons, ih, List.take_append_drop]
        rw [List.length_drop]
        omega

theorem hardCuts_length (fuel : Nat) :
    ∀ text, ∀ cut ∈ hardCuts chunkSize fuel text, cut.length ≤ chunkSize := by
  induction fuel with
  | zero =>
      intro text cut impossible
      cases impossible
  | succ fuel ih =>
      intro text cut member
      unfold hardCuts at member
      split at member
      · cases member
      · rcases List.mem_cons.mp member with same | later
        · rw [same, List.length_take]
          exact Nat.min_le_left _ _
        · exact ih _ cut later

/-! ### The hierarchical split -/

theorem pieces_refine (further : Text → List Segment) (segments : List Segment) :
    pieces (segments.flatMap (refineSegment chunkSize further)) =
      (pieces segments).flatMap (fun chunk =>
        if chunkSize < chunk.length then pieces (further chunk) else [chunk]) := by
  induction segments with
  | nil => rfl
  | cons segment rest ih =>
      rw [List.flatMap_cons, pieces_append, ih]
      cases segment with
      | gap text => rfl
      | piece text =>
          rw [pieces_piece, List.flatMap_cons]
          unfold refineSegment
          dsimp only
          split
          · rfl
          · rfl

theorem pieces_map_piece (texts : List Text) : pieces (texts.map .piece) = texts := by
  induction texts with
  | nil => rfl
  | cons text rest ih => rw [List.map_cons, pieces_piece, ih]

theorem whole_map_piece (texts : List Text) : whole (texts.map .piece) = texts.flatten := by
  induction texts with
  | nil => rfl
  | cons text rest ih =>
      rw [List.map_cons, whole_cons, ih]
      rfl

theorem pieces_chunkSegments (separators : List Text) :
    ∀ text, pieces (chunkSegments chunkSize separators text) =
      chunkWithSeparators chunkSize separators text := by
  induction separators with
  | nil =>
      intro text
      unfold chunkSegments chunkWithSeparators
      split
      · rfl
      · exact pieces_map_piece _
  | cons separator separators ih =>
      intro text
      unfold chunkSegments chunkWithSeparators
      split
      · rfl
      · cases parts : Text.split separator text with
        | nil => exact ih text
        | cons first rest =>
            cases rest with
            | nil => exact ih text
            | cons second others =>
                dsimp only
                rw [if_neg (by simp), pieces_refine, pieces_groupSegments, groupParts_nil_cons]
                simp only [ih]

/-- What the segments of a longer text are: those of its groups, split further, unless the
separator does not occur. -/
theorem chunkSegments_cons (nonempty : separator ≠ []) {separators : List Text} {text : Text}
    (long : chunkSize < text.length) :
    (Text.split separator text = [text] ∧
        chunkSegments chunkSize (separator :: separators) text =
          chunkSegments chunkSize separators text) ∨
      ∃ first rest, rest ≠ [] ∧ Text.split separator text = first :: rest ∧
        chunkSegments chunkSize (separator :: separators) text =
          (groupSegments chunkSize separator first rest).flatMap
            (refineSegment chunkSize (chunkSegments chunkSize separators)) := by
  have few := @Text.split_of_few separator nonempty text
  rw [chunkSegments, if_neg (Nat.not_le.mpr long)]
  cases parts : Text.split separator text with
  | nil => exact absurd parts (Text.split_ne_nil nonempty text)
  | cons first rest =>
      rw [parts] at few
      cases rest with
      | nil => exact Or.inl ⟨few (Nat.le_refl 1), rfl⟩
      | cons second others => exact Or.inr ⟨first, _, List.cons_ne_nil _ _, rfl, rfl⟩

theorem text_of_parts (nonempty : separator ≠ []) {text first : Text} {rest : List Text}
    (parts : Text.split separator text = first :: rest) :
    first ++ remaining separator rest = text := by
  rw [← join_eq_remaining, ← parts, Text.join_split nonempty]

theorem whole_refineSegment {further : Text → List Segment}
    (same : ∀ text, whole (further text) = text) (segment : Segment) :
    whole (refineSegment chunkSize further segment) = segment.text := by
  unfold refineSegment
  cases segment with
  | gap text => exact List.append_nil _
  | piece text =>
      dsimp only
      split
      · exact same text
      · exact List.append_nil _

/-- The segments run through the whole text. -/
theorem whole_chunkSegments (positive : 1 ≤ chunkSize) {separators : List Text}
    (nonempty : ∀ separator ∈ separators, separator ≠ []) :
    ∀ text, whole (chunkSegments chunkSize separators text) = text := by
  induction separators with
  | nil =>
      intro text
      rw [chunkSegments_nil]
      split
      · exact List.append_nil _
      · rw [whole_map_piece, hardCuts_flatten positive _ _ (Nat.le_refl _)]
  | cons separator separators ih =>
      have later := ih (fun other member => nonempty other (List.mem_cons_of_mem _ member))
      have isText := nonempty separator List.mem_cons_self
      intro text
      by_cases short : text.length ≤ chunkSize
      · rw [chunkSegments_short short]
        exact List.append_nil _
      · rcases chunkSegments_cons isText (Nat.not_le.mp short) with
          ⟨_single, same⟩ | ⟨first, rest, _several, parts, same⟩
        · rw [same]
          exact later text
        · rw [same, whole_flatMap (fun segment _member => whole_refineSegment later segment),
            whole_groupSegments, text_of_parts isText parts]

/-! ### Boundaries -/

/-- No separator occurs in the text. -/
def Free (separators : List Text) (text : Text) : Prop :=
  ∀ separator ∈ separators, ¬ separator <:+: text

/-- A piece may begin or end here: at an end of the text, at an end of a separator, or within a
run that is free of every separator and longer than a chunk. -/
def AtBoundary (separators : List Text) (chunkSize : Nat) (front back : Text) : Prop :=
  front = [] ∨ back = [] ∨
    (∃ separator ∈ separators, separator <:+ front ∨ separator <+: back) ∨
      ∃ left right, left ≠ [] ∧ right ≠ [] ∧ left <:+ front ∧ right <+: back ∧
        Free separators (left ++ right) ∧ chunkSize < (left ++ right).length

theorem atBoundary_widens (separators : List Text) (chunkSize : Nat) :
    Widens (AtBoundary separators chunkSize) := by
  intro before front back after filledFront filledBack boundary
  rcases boundary with empty | empty | ⟨separator, member, edge⟩ |
    ⟨left, right, someLeft, someRight, ends, begins, free, long⟩
  · exact absurd empty filledFront
  · exact absurd empty filledBack
  · refine Or.inr (Or.inr (Or.inl ⟨separator, member, ?_⟩))
    exact edge.imp (fun ends => ends.trans (List.suffix_append _ _))
      (fun begins => begins.trans (List.prefix_append _ _))
  · exact Or.inr (Or.inr (Or.inr ⟨left, right, someLeft, someRight,
      ends.trans (List.suffix_append _ _), begins.trans (List.prefix_append _ _), free, long⟩))

section Boundaries

variable {separators : List Text}

theorem atBoundary_before (member : separator ∈ separators) (front back : Text) :
    AtBoundary separators chunkSize front (separator ++ back) :=
  Or.inr (Or.inr (Or.inl ⟨separator, member, Or.inr (List.prefix_append _ _)⟩))

theorem atBoundary_after (member : separator ∈ separators) (front back : Text) :
    AtBoundary separators chunkSize (front ++ separator) back :=
  Or.inr (Or.inr (Or.inl ⟨separator, member, Or.inl (List.suffix_append _ _)⟩))

theorem bounded_groupSegments (member : separator ∈ separators) (parts : List Text) :
    ∀ before current after,
      AtBoundary separators chunkSize before (current ++ (remaining separator parts ++ after)) →
      AtBoundary separators chunkSize (before ++ current ++ remaining separator parts) after →
        Bounded (AtBoundary separators chunkSize) before
          (groupSegments chunkSize separator current parts) after := by
  have longer : ∀ part rest, remaining separator (part :: rest) =
      separator ++ (part ++ remaining separator rest) := by
    intro part rest
    unfold remaining
    rw [List.flatMap_cons, List.append_assoc]
  induction parts with
  | nil =>
      intro before current after atStart atEnd
      have nothing : remaining separator [] = [] := rfl
      rw [nothing, List.nil_append] at atStart
      rw [nothing, List.append_nil] at atEnd
      rw [groupSegments_nil]
      split
      · rename_i empty
        rw [List.isEmpty_iff.mp empty, List.nil_append] at atStart
        exact bounded_nil.mpr atStart
      · exact bounded_cons.mpr ⟨atStart, bounded_nil.mpr atEnd⟩
  | cons part rest ih =>
      intro before current after atStart atEnd
      rw [longer] at atStart atEnd
      have open' : Bounded (AtBoundary separators chunkSize) (before ++ current)
          (.gap separator :: groupSegments chunkSize separator part rest) after := by
        rw [bounded_cons]
        constructor
        · exact atBoundary_before member _ _
        · apply ih
          · exact atBoundary_after member _ _
          · change AtBoundary separators chunkSize
              (before ++ current ++ separator ++ part ++ remaining separator rest) after
            rw [List.append_assoc, List.append_assoc _ separator]
            exact atEnd
      rw [groupSegments_cons]
      split
      · rename_i empty
        rw [List.isEmpty_iff.mp empty, List.append_nil] at open'
        exact open'
      · split
        · apply ih
          · rw [List.append_assoc, List.append_assoc]
            rw [List.append_assoc, List.append_assoc] at atStart
            exact atStart
          · rw [← List.append_assoc, ← List.append_assoc, List.append_assoc _ part,
              List.append_assoc _ separator]
            exact atEnd
        · rw [bounded_cons]
          constructor
          · rw [whole_cons, whole_groupSegments]
            exact atStart
          · exact open'

/-- Every boundary of the hierarchical split is at a separator or within a long free run. -/
theorem bounded_chunkSegments (positive : 1 ≤ chunkSize) {all : List Text}
    (nonempty : ∀ separator ∈ all, separator ≠ []) :
    ∀ separators, separators ⊆ all → ∀ text,
      (∀ separator ∈ all, separator ∈ separators ∨ ¬ separator <:+: text) →
        Bounded (AtBoundary all chunkSize) [] (chunkSegments chunkSize separators text) [] := by
  have single : ∀ text, Bounded (AtBoundary all chunkSize) [] [.piece text] [] := by
    intro text
    rw [bounded_cons, bounded_nil]
    exact ⟨Or.inl rfl, Or.inr (Or.inl rfl)⟩
  intro separators
  induction separators with
  | nil =>
      intro _subset text free
      by_cases short : text.length ≤ chunkSize
      · rw [chunkSegments_short short]
        exact single text
      · rw [chunkSegments_nil, if_neg short]
        intro front back split
        have cutText : whole front ++ whole back = text := by
          rw [← whole_append, ← split, whole_map_piece,
            hardCuts_flatten positive _ _ (Nat.le_refl _)]
        rw [List.nil_append, List.append_nil]
        by_cases emptyFront : whole front = []
        · exact Or.inl emptyFront
        · by_cases emptyBack : whole back = []
          · exact Or.inr (Or.inl emptyBack)
          · refine Or.inr (Or.inr (Or.inr ⟨whole front, whole back, emptyFront, emptyBack,
              List.suffix_refl _, List.prefix_refl _, ?_, ?_⟩))
            · rw [cutText]
              intro separator member
              exact (free separator member).resolve_left List.not_mem_nil
            · rw [cutText]
              exact Nat.not_le.mp short
  | cons separator separators ih =>
      intro subset text free
      have among : separator ∈ all := subset List.mem_cons_self
      have isText := nonempty separator among
      have later := ih (fun other member => subset (List.mem_cons_of_mem _ member))
      by_cases short : text.length ≤ chunkSize
      · rw [chunkSegments_short short]
        exact single text
      · rcases chunkSegments_cons isText (Nat.not_le.mp short) with
          ⟨parts, same⟩ | ⟨first, rest, _several, parts, same⟩
        · have absent : ¬ separator <:+: text := by
            apply Text.split_free isText
            rw [parts]
            exact List.mem_singleton_self text
          rw [same]
          apply later
          intro other member
          rcases free other member with consumed | free
          · rcases List.mem_cons.mp consumed with isSeparator | remaining
            · rw [isSeparator]
              exact Or.inr absent
            · exact Or.inl remaining
          · exact Or.inr free
        · rw [same]
          have remainingFree : ∀ chunk, chunk ∈ first :: rest → ∀ other ∈ all,
              other ∈ separators ∨ ¬ other <:+: chunk := by
            intro chunk isPart other member
            rw [← parts] at isPart
            rcases free other member with consumed | free
            · rcases List.mem_cons.mp consumed with isSeparator | remaining
              · rw [isSeparator]
                exact Or.inr (Text.split_free isText isPart)
              · exact Or.inl remaining
            · exact Or.inr (fun inside =>
                free (inside.trans (Text.infix_of_mem_split isText isPart)))
          have wholes := whole_chunkSegments positive
            (fun other member => nonempty other (subset (List.mem_cons_of_mem separator member)))
          apply Bounded.refine (atBoundary_widens all chunkSize)
            (fun segment _member => whole_refineSegment wholes segment)
          · intro segment member
            cases segment with
            | gap gap =>
                change Bounded _ [] [.gap gap] []
                rw [bounded_cons, bounded_nil]
                exact ⟨Or.inl rfl, Or.inr (Or.inl rfl)⟩
            | piece chunk =>
                unfold refineSegment
                dsimp only
                by_cases large : chunkSize < chunk.length
                · have isPart := (groupSegments_piece member).resolve_left (by omega)
                  rw [if_pos large]
                  exact later chunk (remainingFree chunk isPart)
                · rw [if_neg large]
                  exact single chunk
          · exact bounded_groupSegments among rest [] first [] (Or.inl rfl) (Or.inr (Or.inl rfl))

end Boundaries

/-! ### Sizes and overlap -/

theorem chunkWithSeparators_length (separators : List Text) :
    ∀ text, ∀ chunk ∈ chunkWithSeparators chunkSize separators text, chunk.length ≤ chunkSize := by
  induction separators with
  | nil =>
      intro text chunk member
      unfold chunkWithSeparators at member
      split at member
      · rename_i short
        rw [List.mem_singleton.mp member]
        exact short
      · exact hardCuts_length _ _ chunk member
  | cons separator separators ih =>
      intro text chunk member
      unfold chunkWithSeparators at member
      split at member
      · rename_i short
        rw [List.mem_singleton.mp member]
        exact short
      · dsimp only at member
        split at member
        · exact ih text chunk member
        · obtain ⟨group, _isGroup, inGroup⟩ := List.mem_flatMap.mp member
          split at inGroup
          · exact ih group chunk inGroup
          · rename_i small
            rw [List.mem_singleton.mp inGroup]
            exact Nat.not_lt.mp small

theorem getOverlapPrefix_spec (text : Text) (overlap : Nat) :
    getOverlapPrefix text overlap <:+ text ∧ (getOverlapPrefix text overlap).length ≤ overlap := by
  have candidate : (text.drop (text.length - overlap)).length ≤ overlap := by
    rw [List.length_drop]
    omega
  unfold getOverlapPrefix
  split
  · rename_i short
    exact ⟨List.suffix_refl text, short⟩
  · dsimp only
    split
    · exact ⟨List.drop_suffix _ _, candidate⟩
    · split
      · refine ⟨(List.drop_suffix _ _).trans (List.drop_suffix _ _), ?_⟩
        rw [List.length_drop]
        omega
      · exact ⟨List.drop_suffix _ _, candidate⟩

/-- A later chunk is its piece behind an end of the piece before it, as far as there is room. -/
theorem overlapFrom_cons (overlap : Nat) (previous piece : Text) (rest : List Text) :
    ∃ kept, overlapFrom chunkSize overlap previous (piece :: rest) =
        (kept ++ piece) :: overlapFrom chunkSize overlap piece rest ∧
      kept <:+ previous ∧ kept.length ≤ overlap ∧
        (piece.length ≤ chunkSize → (kept ++ piece).length ≤ chunkSize) := by
  obtain ⟨ends, short⟩ := getOverlapPrefix_spec previous overlap
  refine ⟨_, rfl, ?_, ?_, ?_⟩
  · split
    · exact (List.drop_suffix _ _).trans ends
    · exact ends
  · split
    · rw [List.length_drop]
      omega
    · exact short
  · intro fits
    rw [List.length_append]
    split
    · rw [List.length_drop]
      omega
    · omega

theorem overlapFrom_length (overlap : Nat) (rest : List Text) :
    ∀ previous, (overlapFrom chunkSize overlap previous rest).length = rest.length := by
  induction rest with
  | nil =>
      intro previous
      rfl
  | cons piece rest ih =>
      intro previous
      obtain ⟨kept, shape, _ends, _short, _fits⟩ :=
        @overlapFrom_cons chunkSize overlap previous piece rest
      rw [shape, List.length_cons, ih, List.length_cons]

theorem overlapFrom_fits (overlap : Nat) {rest : List Text}
    (fit : ∀ piece ∈ rest, piece.length ≤ chunkSize) :
    ∀ previous, ∀ chunk ∈ overlapFrom chunkSize overlap previous rest,
      chunk.length ≤ chunkSize := by
  induction rest with
  | nil =>
      intro previous chunk impossible
      cases impossible
  | cons piece rest ih =>
      intro previous chunk member
      obtain ⟨kept, shape, _ends, _short, fits⟩ :=
        @overlapFrom_cons chunkSize overlap previous piece rest
      rw [shape] at member
      rcases List.mem_cons.mp member with same | later
      · rw [same]
        exact fits (fit piece List.mem_cons_self)
      · exact ih (fun other isLater => fit other (List.mem_cons_of_mem _ isLater)) piece chunk later

/-- The chunks are their pieces, each but the first behind an end of the piece before it. -/
structure Overlaps (overlap : Nat) (pieces chunks : List Text) : Prop where
  length : chunks.length = pieces.length
  first : chunks.head? = pieces.head?
  later : ∀ index previous piece, pieces[index]? = some previous →
    pieces[index + 1]? = some piece →
      ∃ kept, chunks[index + 1]? = some (kept ++ piece) ∧ kept <:+ previous ∧
        kept.length ≤ overlap

theorem overlaps_self (overlap : Nat) (pieces : List Text) : Overlaps overlap pieces pieces := by
  constructor
  · rfl
  · rfl
  · intro index previous piece _isPrevious isPiece
    exact ⟨[], isPiece, List.nil_suffix, Nat.zero_le _⟩

theorem overlapFrom_get (overlap : Nat) (rest : List Text) :
    ∀ (previous : Text) (index : Nat) (before piece : Text),
      (previous :: rest)[index]? = some before → rest[index]? = some piece →
        ∃ kept, (overlapFrom chunkSize overlap previous rest)[index]? = some (kept ++ piece) ∧
          kept <:+ before ∧ kept.length ≤ overlap := by
  induction rest with
  | nil =>
      intro previous index before piece _isBefore impossible
      cases impossible
  | cons next rest ih =>
      intro previous index before piece isBefore isPiece
      obtain ⟨kept, shape, ends, short, _fits⟩ :=
        @overlapFrom_cons chunkSize overlap previous next rest
      rw [shape]
      cases index with
      | zero =>
          have samePrevious : previous = before := Option.some.inj isBefore
          have samePiece : next = piece := Option.some.inj isPiece
          rw [← samePrevious, ← samePiece]
          exact ⟨kept, rfl, ends, short⟩
      | succ index => exact ih next index before piece isBefore isPiece

/-- The chunks with overlap and the pieces without it. -/
theorem chunkText_overlaps (separators : List Text) (text : Text) (overlap : Nat) :
    Overlaps overlap (chunkText separators text chunkSize 0)
      (chunkText separators text chunkSize overlap) := by
  unfold chunkText
  split
  · exact overlaps_self overlap _
  · cases chunkWithSeparators chunkSize separators text with
    | nil => exact overlaps_self overlap _
    | cons first rest =>
        cases rest with
        | nil => exact overlaps_self overlap _
        | cons second others =>
            dsimp only
            rw [if_neg (Nat.lt_irrefl 0)]
            split
            · constructor
              · rw [List.length_cons, overlapFrom_length]
                rfl
              · rfl
              · intro index previous piece isPrevious isPiece
                exact overlapFrom_get overlap _ first index previous piece isPrevious isPiece
            · exact overlaps_self overlap _

theorem chunkText_pieces (separators : List Text) (text : Text) :
    chunkText separators text chunkSize 0 = chunkWithSeparators chunkSize separators text := by
  unfold chunkText
  split
  · rename_i short
    cases separators with
    | nil => exact (if_pos short).symm
    | cons separator separators => exact (if_pos short).symm
  · cases chunkWithSeparators chunkSize separators text with
    | nil => rfl
    | cons first rest =>
        cases rest with
        | nil => rfl
        | cons second others =>
            dsimp only
            rw [if_neg (Nat.lt_irrefl 0)]

theorem chunkText_length (separators : List Text) (text : Text) (overlap : Nat) :
    ∀ chunk ∈ chunkText separators text chunkSize overlap, chunk.length ≤ chunkSize := by
  have pieces := @chunkWithSeparators_length chunkSize separators text
  unfold chunkText
  intro chunk member
  split at member
  · rename_i short
    rw [List.mem_singleton.mp member]
    exact short
  · cases shape : chunkWithSeparators chunkSize separators text with
    | nil =>
        rw [shape] at member
        cases member
    | cons first rest =>
        rw [shape] at member pieces
        cases rest with
        | nil => exact pieces chunk member
        | cons second others =>
            dsimp only at member
            split at member
            · rcases List.mem_cons.mp member with same | later
              · rw [same]
                exact pieces first List.mem_cons_self
              · exact overlapFrom_fits overlap
                  (fun piece isPiece => pieces piece (List.mem_cons_of_mem _ isPiece)) first chunk
                  later
            · exact pieces chunk member

/-! ### Runs without separators -/

/-- A maximal run that is free of every separator, with a boundary inside: `left` stands before
the boundary and `right` behind it. -/
structure InsideRun (separators : List Text) (front back left right : Text) : Prop where
  ends : left <:+ front
  begins : right <+: back
  someLeft : left ≠ []
  someRight : right ≠ []
  free : Free separators (left ++ right)
  maximal : ∀ left' right', left <:+ left' → left' <:+ front → right <+: right' →
    right' <+: back → Free separators (left' ++ right') → left' = left ∧ right' = right

/-- No boundary falls inside a maximal run that fits in a chunk. -/
def SparesRuns (separators : List Text) (chunkSize : Nat) (front back : Text) : Prop :=
  ∀ left right, InsideRun separators front back left right → chunkSize < (left ++ right).length

theorem infix_of_char {char : Char} {text : Text} : [char] <:+: text ↔ char ∈ text := by
  constructor
  · intro inside
    exact inside.subset (List.mem_singleton_self char)
  · intro member
    obtain ⟨front, back, split⟩ := List.append_of_mem member
    exact ⟨front, back, by rw [split, List.append_assoc, List.singleton_append]⟩

/-- Where separators are single characters, a text is free of them if its characters are. -/
theorem free_append {separators : List Text} (single : ∀ separator ∈ separators, separator.length = 1)
    {left right : Text} :
    Free separators (left ++ right) ↔ Free separators left ∧ Free separators right := by
  have each : ∀ separator ∈ separators, (¬ separator <:+: left ++ right) ↔
      ¬ separator <:+: left ∧ ¬ separator <:+: right := by
    intro separator member
    obtain ⟨char, isChar⟩ := List.length_eq_one_iff.mp (single separator member)
    rw [isChar, infix_of_char, infix_of_char, infix_of_char, List.mem_append, not_or]
  constructor
  · intro free
    exact ⟨fun separator member => ((each separator member).mp (free separator member)).1,
      fun separator member => ((each separator member).mp (free separator member)).2⟩
  · intro both separator member
    exact (each separator member).mpr ⟨both.1 separator member, both.2 separator member⟩

/-- With separators of one character every long run is part of the maximal one. -/
theorem sparesRuns_of_single {separators : List Text}
    (single : ∀ separator ∈ separators, separator.length = 1) {front back : Text}
    (boundary : AtBoundary separators chunkSize front back) :
    SparesRuns separators chunkSize front back := by
  intro left right inside
  obtain ⟨freeLeft, freeRight⟩ := (free_append single).mp inside.free
  rcases boundary with empty | empty | ⟨separator, member, edge⟩ |
    ⟨left', right', _someLeft, _someRight, ends, begins, free, long⟩
  · have ends := inside.ends
    rw [empty] at ends
    exact absurd (List.suffix_nil.mp ends) inside.someLeft
  · have begins := inside.begins
    rw [empty] at begins
    exact absurd (List.prefix_nil.mp begins) inside.someRight
  · exfalso
    have short := single separator member
    cases edge with
    | inl endsFront =>
        apply freeLeft separator member
        rcases List.suffix_or_suffix_of_suffix endsFront inside.ends with within | within
        · exact within.isInfix
        · have same := within.eq_of_length (by
            have bound := within.length_le
            have some := List.length_pos_iff.mpr inside.someLeft
            omega)
          rw [same]
    | inr beginsBack =>
        apply freeRight separator member
        rcases List.prefix_or_prefix_of_prefix beginsBack inside.begins with within | within
        · exact within.isInfix
        · have same := within.eq_of_length (by
            have bound := within.length_le
            have some := List.length_pos_iff.mpr inside.someRight
            omega)
          rw [same]
  · obtain ⟨freeLeft', freeRight'⟩ := (free_append single).mp free
    have withinLeft : left'.length ≤ left.length := by
      rcases List.suffix_or_suffix_of_suffix ends inside.ends with within | within
      · exact within.length_le
      · have same := (inside.maximal left' right within ends (List.prefix_refl _) inside.begins
          ((free_append single).mpr ⟨freeLeft', freeRight⟩)).1
        rw [same]
    have withinRight : right'.length ≤ right.length := by
      rcases List.prefix_or_prefix_of_prefix begins inside.begins with within | within
      · exact within.length_le
      · have same := (inside.maximal left right' (List.suffix_refl _) inside.ends within begins
          ((free_append single).mpr ⟨freeLeft, freeRight'⟩)).2
        rw [same]
    rw [List.length_append] at long ⊢
    omega

/-- The chunks fit, they are pieces with an overlap, and the pieces are cut where they may be. -/
structure WellChunked (cut : Text → Text → Prop) (text : Text) (chunkSize overlap : Nat)
    (pieces chunks : List Text) : Prop where
  fit : ∀ chunk ∈ chunks, chunk.length ≤ chunkSize
  overlaps : Overlaps overlap pieces chunks
  placed : ∃ segments, Places segments pieces text ∧
    ∀ front back, segments = front ++ back → cut (whole front) (whole back)

theorem chunkText_wellChunked {separators : List Text}
    (nonempty : ∀ separator ∈ separators, separator ≠ []) (positive : 1 ≤ chunkSize)
    (text : Text) (overlap : Nat) :
    WellChunked (AtBoundary separators chunkSize) text chunkSize overlap
      (chunkText separators text chunkSize 0) (chunkText separators text chunkSize overlap) := by
  constructor
  · exact chunkText_length separators text overlap
  · exact chunkText_overlaps separators text overlap
  · refine ⟨chunkSegments chunkSize separators text, ⟨?_, ?_⟩, ?_⟩
    · exact whole_chunkSegments positive nonempty text
    · rw [pieces_chunkSegments, chunkText_pieces]
    · intro front back split
      have bounded := bounded_chunkSegments positive nonempty separators (List.Subset.refl _) text
        (fun separator member => Or.inl member) front back split
      rw [List.nil_append, List.append_nil] at bounded
      exact bounded

/-- A separator of several characters is taken out whole, so that a piece may end inside a run
that only holds some of its characters; with separators of one character it does not. -/
theorem chunkText_contract {separators : List Text}
    (nonempty : ∀ separator ∈ separators, separator ≠ []) (positive : 1 ≤ chunkSize)
    (text : Text) (overlap : Nat) :
    WellChunked (AtBoundary separators chunkSize) text chunkSize overlap
        (chunkText separators text chunkSize 0) (chunkText separators text chunkSize overlap) ∧
      ((∀ separator ∈ separators, separator.length = 1) →
        WellChunked (SparesRuns separators chunkSize) text chunkSize overlap
          (chunkText separators text chunkSize 0)
          (chunkText separators text chunkSize overlap)) := by
  have chunked := chunkText_wellChunked nonempty positive text overlap
  refine ⟨chunked, fun single => ⟨chunked.fit, chunked.overlaps, ?_⟩⟩
  obtain ⟨segments, places, bounded⟩ := chunked.placed
  exact ⟨segments, places, fun front back split =>
    sparesRuns_of_single single (bounded front back split)⟩

/-! ### A sentence that is cut before its full stop -/

/-- The separators that are configured by default. -/
def defaultSeparators : List Text :=
  Env.plain.config.chunkSeparators

theorem chunkText_contract_default :
    WellChunked (AtBoundary defaultSeparators 2) "a. b".toList 2 1
        (chunkText defaultSeparators "a. b".toList 2 0)
        (chunkText defaultSeparators "a. b".toList 2 1) ∧
      ((∀ separator ∈ defaultSeparators, separator.length = 1) →
        WellChunked (SparesRuns defaultSeparators 2) "a. b".toList 2 1
          (chunkText defaultSeparators "a. b".toList 2 0)
          (chunkText defaultSeparators "a. b".toList 2 1)) :=
  chunkText_contract (by decide) (by decide) "a. b".toList 1

theorem sentence_pieces : chunkText defaultSeparators "a. b".toList 2 0 =
    ["a".toList, "b".toList] := by decide

/-- The run up to the full stop would fit in a chunk, and the first piece ends within it. -/
theorem sentence_cut :
    ¬ WellChunked (SparesRuns defaultSeparators 2) "a. b".toList 2 0
      (chunkText defaultSeparators "a. b".toList 2 0)
      (chunkText defaultSeparators "a. b".toList 2 0) := by
  intro chunked
  obtain ⟨segments, places, spares⟩ := chunked.placed
  rw [sentence_pieces] at places
  obtain ⟨front, back, split, _later⟩ := exists_first_piece places.pieces
  have text := places.whole
  rw [split, whole_append, whole_cons] at text
  change whole front ++ 'a' :: whole back = 'a' :: ". b".toList at text
  have atStart : whole front = [] := by
    cases shape : whole front with
    | nil => rfl
    | cons head tail =>
        rw [shape] at text
        have within : 'a' ∈ ". b".toList := by
          rw [← (List.cons.inj text).2]
          exact List.mem_append_right _ List.mem_cons_self
        exact absurd within (by decide)
  rw [atStart] at text
  have behind : whole back = ". b".toList := (List.cons.inj text).2
  have before : whole (front ++ [.piece "a".toList]) = "a".toList := by
    rw [whole_append, atStart]
    rfl
  have cut := spares (front ++ [.piece "a".toList]) back (by rw [split, List.append_assoc]; rfl)
  rw [before, behind] at cut
  have long := cut "a".toList ".".toList
    { ends := List.suffix_refl _
      begins := by decide
      someLeft := by decide
      someRight := by decide
      free := by
        unfold Free
        decide
      maximal := by
        intro left right longer ends longer' begins free
        refine ⟨longer.eq_of_length_le ends.length_le |>.symm, ?_⟩
        -- a longer run behind the boundary would hold the separator
        by_cases short : right.length ≤ 1
        · exact (longer'.eq_of_length_le short).symm
        · have held : ". ".toList <+: right := by
            apply List.prefix_of_prefix_length_le _ begins
            · exact Nat.not_le.mp short
            · decide
          exact absurd (held.isInfix.trans (List.suffix_append left right).isInfix)
            (free ". ".toList (by decide)) }
  exact absurd long (by decide)

end VaultSearch
