/-
Which characters of a text its chunks leave out.

With the default separators only `. ` holds a character that is no whitespace.  It is left out
where a line is split into sentences, which happens to the lines that are longer than a chunk.
-/

import VaultSearch.Core.ChunkPlacement

set_option autoImplicit false

namespace VaultSearch

open Placement

variable {chunkSize : Nat} {separator : Text}

/-! ### Separators that are left out -/

theorem infix_of_several (nonempty : separator ≠ []) {text first : Text} {rest : List Text}
    (several : rest ≠ []) (parts : Text.split separator text = first :: rest) :
    separator <:+: text := by
  rw [← text_of_parts nonempty parts]
  cases rest with
  | nil => exact absurd rfl several
  | cons second others =>
      unfold remaining
      rw [List.flatMap_cons]
      exact ((List.prefix_append separator second).isInfix.trans
        (List.prefix_append _ _).isInfix).trans (List.suffix_append _ _).isInfix

/-- A separator is left out of a part that is too long and free of the separators before it. -/
theorem gap_chunkSegments {separators : List Text}
    (nonempty : ∀ separator ∈ separators, separator ≠ []) {gap : Text} :
    ∀ text, .gap gap ∈ chunkSegments chunkSize separators text →
      ∃ earlier later held, separators = earlier ++ gap :: later ∧ held <:+: text ∧
        chunkSize < held.length ∧ gap <:+: held ∧ Free earlier held := by
  induction separators with
  | nil =>
      intro text member
      rw [chunkSegments_nil] at member
      split at member
      · cases List.mem_singleton.mp member
      · obtain ⟨cut, _isCut, impossible⟩ := List.mem_map.mp member
        cases impossible
  | cons separator separators ih =>
      have isText := nonempty separator List.mem_cons_self
      have later := ih (fun other member => nonempty other (List.mem_cons_of_mem _ member))
      have further : ∀ {part text : Text}, part <:+: text → ¬ separator <:+: part →
          .gap gap ∈ chunkSegments chunkSize separators part →
            ∃ earlier later held, separator :: separators = earlier ++ gap :: later ∧
              held <:+: text ∧ chunkSize < held.length ∧ gap <:+: held ∧ Free earlier held := by
        intro part text within free member
        obtain ⟨earlier, others, held, split, inside, long, holds, freeEarlier⟩ := later part member
        refine ⟨separator :: earlier, others, held, congrArg _ split, inside.trans within, long,
          holds, ?_⟩
        intro other isEarlier
        rcases List.mem_cons.mp isEarlier with same | isEarlier
        · rw [same]
          exact fun found => free (found.trans inside)
        · exact freeEarlier other isEarlier
      intro text member
      by_cases short : text.length ≤ chunkSize
      · rw [chunkSegments_short short] at member
        cases List.mem_singleton.mp member
      · rcases chunkSegments_cons isText (Nat.not_le.mp short) with
          ⟨parts, same⟩ | ⟨first, rest, several, parts, same⟩
        · rw [same] at member
          apply further (List.infix_refl text) _ member
          apply Text.split_free isText
          rw [parts]
          exact List.mem_singleton_self text
        · rw [same] at member
          obtain ⟨segment, isGroup, inGroup⟩ := List.mem_flatMap.mp member
          cases segment with
          | gap left =>
              have isLeft : gap = separator := by
                rw [Segment.gap.inj (List.mem_singleton.mp inGroup)]
                exact groupSegments_gap isGroup
              rw [isLeft]
              exact ⟨[], separators, text, rfl, List.infix_refl text, Nat.not_le.mp short,
                infix_of_several isText several parts,
                fun _other impossible => absurd impossible List.not_mem_nil⟩
          | piece chunk =>
              unfold refineSegment at inGroup
              dsimp only at inGroup
              by_cases large : chunkSize < chunk.length
              · have isPart := (groupSegments_piece isGroup).resolve_left (Nat.not_le.mpr large)
                rw [if_pos large] at inGroup
                rw [← parts] at isPart
                exact further (Text.infix_of_mem_split isText isPart) (Text.split_free isText isPart)
                  inGroup
              · rw [if_neg large] at inGroup
                cases List.mem_singleton.mp inGroup

/-- A part that is too long is a chunk of its own. -/
theorem piece_of_large {part : Text} (large : chunkSize < part.length) {parts : List Text} :
    ∀ current, part ∈ current :: parts →
      .piece part ∈ groupSegments chunkSize separator current parts := by
  induction parts with
  | nil =>
      intro current member
      have same := List.mem_singleton.mp member
      rw [groupSegments_nil]
      rw [← same]
      cases part with
      | nil => exact absurd large (Nat.not_lt_zero _)
      | cons head tail => exact List.mem_singleton_self _
  | cons next rest ih =>
      intro current member
      rw [groupSegments_cons]
      split
      · rename_i empty
        apply List.mem_cons_of_mem
        rcases List.mem_cons.mp member with same | later
        · rw [same, List.isEmpty_iff.mp empty] at large
          exact absurd large (Nat.not_lt_zero _)
        · exact ih next later
      · split
        · rename_i fits
          rw [List.length_append, List.length_append] at fits
          apply ih
          rcases List.mem_cons.mp member with same | later
          · rw [same] at large
            omega
          · rcases List.mem_cons.mp later with same | later
            · rw [same] at large
              omega
            · exact List.mem_cons_of_mem _ later
        · rcases List.mem_cons.mp member with same | later
          · rw [same]
            exact List.mem_cons_self
          · exact List.mem_cons_of_mem _ (List.mem_cons_of_mem _ (ih next later))

/-- A stretch that is too long and shares no character with the earlier separators loses the
next separator that it holds. -/
theorem gap_of_held {held gap : Text} (long : chunkSize < held.length) (holds : gap <:+: held)
    (isText : gap ≠ []) (later : List Text) {earlier : List Text}
    (nonempty : ∀ separator ∈ earlier, separator ≠ [])
    (apart : ∀ separator ∈ earlier, ∀ char ∈ separator, char ∉ held) :
    ∀ text, held <:+: text → .gap gap ∈ chunkSegments chunkSize (earlier ++ gap :: later) text := by
  have filled : held ≠ [] := List.length_pos_iff.mp (Nat.zero_lt_of_lt long)
  induction earlier with
  | nil =>
      intro text inside
      have longText : chunkSize < text.length := Nat.lt_of_lt_of_le long inside.length_le
      rcases chunkSegments_cons isText longText with
        ⟨parts, _same⟩ | ⟨first, rest, several, parts, same⟩
      · have absent : ¬ gap <:+: text := by
          apply Text.split_free isText
          rw [parts]
          exact List.mem_singleton_self text
        exact absurd (holds.trans inside) absent
      · rw [List.nil_append, same]
        apply List.mem_flatMap.mpr
        refine ⟨.gap gap, ?_, List.mem_singleton_self _⟩
        apply gap_of_long several
        rw [text_of_parts isText parts]
        exact longText
  | cons separator earlier ih =>
      have ihLater := ih (fun other member => nonempty other (List.mem_cons_of_mem _ member))
        (fun other member => apart other (List.mem_cons_of_mem _ member))
      have isSeparator := nonempty separator List.mem_cons_self
      intro text inside
      have longText : chunkSize < text.length := Nat.lt_of_lt_of_le long inside.length_le
      rcases chunkSegments_cons isSeparator longText with
        ⟨_parts, same⟩ | ⟨first, rest, _several, parts, same⟩
      · rw [List.cons_append, same]
        exact ihLater text inside
      · rw [← Text.join_split isSeparator text] at inside
        obtain ⟨part, isPart, inPart⟩ :=
          Text.infix_part isSeparator (apart separator List.mem_cons_self) filled inside
        have large : chunkSize < part.length := Nat.lt_of_lt_of_le long inPart.length_le
        rw [parts] at isPart
        rw [List.cons_append, same]
        apply List.mem_flatMap.mpr
        refine ⟨.piece part, piece_of_large large first isPart, ?_⟩
        unfold refineSegment
        dsimp only
        rw [if_pos large]
        exact ihLater part inPart

/-! ### Coverage -/

/-- No line that is longer than a chunk holds the end of a sentence followed by a blank. -/
def ShortSentences (chunkSize : Nat) (text : Text) : Prop :=
  ∀ line ∈ Text.split "\n".toList text, chunkSize < line.length → ¬ ". ".toList <:+: line

/-- The separators before the end of a sentence. -/
theorem newline_earlier {earlier later : List Text}
    (split : defaultSeparators = earlier ++ ". ".toList :: later) : "\n".toList ∈ earlier := by
  cases earlier with
  | nil => exact absurd (List.cons.inj split).1 (by decide)
  | cons first rest =>
      have others := (List.cons.inj split).2
      cases rest with
      | nil => exact absurd (List.cons.inj others).1 (by decide)
      | cons second rest =>
          rw [← (List.cons.inj others).1]
          exact List.mem_cons_of_mem _ List.mem_cons_self

theorem no_newline {line : Text} (free : ¬ "\n".toList <:+: line) :
    ∀ char ∈ "\n".toList, char ∉ line := by
  intro char isNewline member
  rw [List.mem_singleton.mp isNewline] at member
  exact free (infix_of_char.mpr member)

/-- The end of a sentence is left out exactly if a line that is longer than a chunk holds one. -/
theorem gap_sentence_iff (text : Text) :
    .gap ". ".toList ∈ chunkSegments chunkSize defaultSeparators text ↔
      ¬ ShortSentences chunkSize text := by
  have nonempty : ∀ separator ∈ defaultSeparators, separator ≠ [] := by decide
  constructor
  · intro member spared
    obtain ⟨earlier, later, held, split, inside, long, holds, free⟩ :=
      gap_chunkSegments nonempty text member
    have filled : held ≠ [] := List.length_pos_iff.mp (Nat.zero_lt_of_lt long)
    have unbroken := free "\n".toList (newline_earlier split)
    rw [← Text.join_split (by decide : "\n".toList ≠ []) text] at inside
    obtain ⟨line, isLine, inLine⟩ :=
      Text.infix_part (by decide) (no_newline unbroken) filled inside
    exact spared line isLine (Nat.lt_of_lt_of_le long inLine.length_le) (holds.trans inLine)
  · intro broken
    unfold ShortSentences at broken
    simp only [not_forall, not_not, exists_prop] at broken
    obtain ⟨line, isLine, long, holds⟩ := broken
    have unbroken := Text.split_free (by decide : "\n".toList ≠ []) isLine
    have earlier : ∀ separator ∈ ["\n\n".toList, "\n".toList], separator ≠ [] := by decide
    apply gap_of_held long holds (by decide) [" ".toList] earlier _ text
      (Text.infix_of_mem_split (by decide) isLine)
    intro separator member char inSeparator
    apply no_newline unbroken
    rcases List.mem_cons.mp member with same | member
    · rw [same] at inSeparator
      exact List.mem_of_mem_cons_of_mem inSeparator List.mem_cons_self
    · rw [List.mem_singleton.mp member] at inSeparator
      exact inSeparator

theorem gap_default {gap text : Text}
    (member : .gap gap ∈ chunkSegments chunkSize defaultSeparators text) :
    gap ∈ defaultSeparators := by
  obtain ⟨earlier, later, _held, split, _rest⟩ := gap_chunkSegments (by decide) text member
  rw [split]
  exact List.mem_append_right _ List.mem_cons_self

/-- The chunks leave out nothing but whitespace exactly if no line that is longer than a chunk
holds a sentence end. -/
theorem chunkText_covers_iff (positive : 1 ≤ chunkSize) (text : Text) :
    Covered (chunkText defaultSeparators text chunkSize 0) text ↔
      ShortSentences chunkSize text := by
  have nonempty : ∀ separator ∈ defaultSeparators, separator ≠ [] := by decide
  have places : Places (chunkSegments chunkSize defaultSeparators text)
      (chunkText defaultSeparators text chunkSize 0) text := by
    constructor
    · exact whole_chunkSegments positive nonempty text
    · rw [pieces_chunkSegments, chunkText_pieces]
  rw [covered_iff places]
  have sentence := @gap_sentence_iff chunkSize text
  constructor
  · intro blank
    by_contra long
    have isGap := blank ". ".toList (sentence.mpr long)
    exact absurd isGap (by decide)
  · intro short gap member
    have listed := gap_default member
    have differ : gap ≠ ". ".toList := by
      intro same
      rw [same] at member
      exact sentence.mp member short
    have blank : ∀ separator ∈ defaultSeparators, separator ≠ ". ".toList →
        Text.isBlank separator = true := by decide
    exact blank gap listed differ

/-! ### A sentence that loses its full stop -/

theorem chunkText_covers_two : Covered (chunkText defaultSeparators "a. b".toList 4 0)
    "a. b".toList ↔ ShortSentences 4 "a. b".toList :=
  chunkText_covers_iff (by decide) "a. b".toList

/-- The line is longer than a chunk, and its full stop is in no piece. -/
theorem sentence_uncovered :
    ¬ Covered (chunkText defaultSeparators "a. b".toList 2 0) "a. b".toList := by
  have places : Places [.piece "a".toList, .gap ". ".toList, .piece "b".toList]
      (chunkText defaultSeparators "a. b".toList 2 0) "a. b".toList := by
    constructor
    · rfl
    · rw [sentence_pieces]
      rfl
  rw [covered_iff places]
  intro blank
  exact absurd (blank ". ".toList (by decide)) (by decide)

end VaultSearch
