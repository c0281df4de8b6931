/-
`core/highlight.py`: the terms of a query are marked in a text by one alternation of all terms,
in the order of the query and without regard to case.

The scan takes the first term that fits, not the longest.
-/

import Mathlib.Data.List.MinMax
import VaultSearch.Regex.Scan
import VaultSearch.Types

set_option autoImplicit false

namespace VaultSearch

/-- `ALLOWED_HIGHLIGHT_MARKERS` -/
def allowedHighlightMarkers : List Text :=
  ["**", "*", "__", "_", "==", "~~", "\x60\x60", "\x60", "<mark>", "</mark>", "<em>", "</em>",
    "<strong>", "</strong>", "<b>", "</b>", "<i>", "</i>", "[[", "]]", "<<", ">>"].map String.toList

/-- `HIGHLIGHT_STOPWORDS` -/
def highlightStopwords : List Text :=
  ["the", "and", "for", "that", "this", "with", "from", "are", "was", "were", "been", "have",
    "has", "had", "but", "not", "you", "all", "can", "her", "his", "they", "will", "would",
    "could", "should", "que", "para", "com", "uma", "por", "mais", "como", "mas", "foi", "ser",
    "tem", "seu", "sua", "ele", "ela", "isso", "este", "esta"].map String.toList

def minTermLength : Nat := 3

/-- `extract_highlight_terms` -/
def extractHighlightTerms (env : Env) (query : Text) : List Text :=
  if query.isEmpty then []
  else
    (Text.words query).filter (fun term =>
      minTermLength ≤ term.length && !highlightStopwords.contains (env.lower term))

def validateMarkers (startMarker endMarker : Text) : Text × Text :=
  (if allowedHighlightMarkers.contains startMarker then startMarker else "**".toList,
    if allowedHighlightMarkers.contains endMarker then endMarker else "**".toList)

/-- What `re.IGNORECASE` does not tell apart: the characters with one `fold`. -/
def sameLetter (fold : Char → Char) (wanted char : Char) : Bool :=
  fold wanted == fold char

/-- `"(" + "|".join(re.escape(term) for term in terms) + ")"`, without regard to case. -/
def highlightPattern (fold : Char → Char) (terms : List Text) : Regex :=
  .group 1 (.anyOf (terms.map (Regex.likeLiteral (sameLetter fold))))

def highlightText (env : Env) (fold : Char → Char) (text query startMarker endMarker : Text) :
    Text :=
  if query.isEmpty || text.isEmpty then text
  else
    let (startMarker, endMarker) := validateMarkers startMarker endMarker
    let terms := extractHighlightTerms env query
    if terms.isEmpty then text
    else
      (highlightPattern fold terms).sub (fun found => startMarker ++ found.text ++ endMarker) text

/-! ### What is marked -/

section

variable (env : Env) (fold : Char → Char) (text query : Text)

/-- The matches between the markers. -/
def highlightSpans : List Regex.Match :=
  (highlightPattern fold (extractHighlightTerms env query)).finditer text

/-- Whether the text has this term at this position. -/
def termAt (term : Text) (position : Nat) : Prop :=
  Regex.startsLike (sameLetter fold) term (text.drop position) = true

/-- The term that the alternation takes at a position. -/
def firstTermAt (position : Nat) : Option Text :=
  Regex.firstWord (sameLetter fold) (extractHighlightTerms env query) (text.drop position)

/-- Text preserved, spans disjoint, and the longest term at every free position inside a span. -/
structure Highlights (startMarker endMarker : Text) : Prop where
  preserved : Regex.withoutInserted (validateMarkers startMarker endMarker).1.length
    (validateMarkers startMarker endMarker).2.length 0 (highlightSpans env fold text query)
    (highlightText env fold text query startMarker endMarker) = text
  disjoint : (highlightSpans env fold text query).Pairwise
    (fun former latter => former.stop ≤ latter.start)
  covered : ∀ position, ∀ term ∈ extractHighlightTerms env query, termAt fold text term position →
    (∀ span ∈ highlightSpans env fold text query, span.start < position → span.stop ≤ position) →
    (∀ other ∈ extractHighlightTerms env query, termAt fold text other position →
      other.length ≤ term.length) →
    ∃ span ∈ highlightSpans env fold text query,
      span.start ≤ position ∧ position + term.length ≤ span.stop

/-- The scan looks for a term at this position. -/
def Looks : Nat → Prop :=
  Regex.Visits (fun rest => (Regex.firstWord (sameLetter fold) (extractHighlightTerms env query)
    rest).map List.length) text 0

/-- Wherever the scan looks, the first term that fits is as long as any other that fits. -/
def FirstIsLongest : Prop :=
  ∀ position, Looks env fold text query position →
    ∀ first, firstTermAt env fold text query position = some first →
      ∀ other ∈ extractHighlightTerms env query, termAt fold text other position →
        other.length ≤ first.length

end

/-- Of the terms that begin another one, the first is as long as it. -/
def NoneShadowed (fold : Char → Char) (terms : List Text) : Prop :=
  ∀ term ∈ terms, ∀ first, Regex.firstWord (sameLetter fold) terms term = some first →
    term.length ≤ first.length

section

variable {env : Env} {fold : Char → Char} {text query startMarker endMarker : Text}

theorem terms_long : ∀ term ∈ extractHighlightTerms env query, minTermLength ≤ term.length := by
  intro term member
  unfold extractHighlightTerms at member
  split at member
  case isTrue => cases member
  case isFalse =>
    have checks := (List.mem_filter.mp member).2
    rw [Bool.and_eq_true, decide_eq_true_iff] at checks
    exact checks.1

theorem terms_filled : ∀ term ∈ extractHighlightTerms env query, term ≠ [] := by
  intro term member empty
  have long := terms_long term member
  rw [empty] at long
  exact absurd long (by decide)

theorem scan_highlight (env : Env) (fold : Char → Char) (text query : Text) :
    Regex.Scan (fun rest => (Regex.firstWord (sameLetter fold) (extractHighlightTerms env query)
      rest).map List.length) text 0 (highlightSpans env fold text query) :=
  Regex.finditer_scan (Regex.sizedBy_words terms_filled 1) text

/-- The early returns make no difference. -/
theorem highlightText_eq :
    highlightText env fold text query startMarker endMarker =
      Regex.replaceMatches (fun found => (validateMarkers startMarker endMarker).1 ++ found.text ++
        (validateMarkers startMarker endMarker).2) text 0 (highlightSpans env fold text query) := by
  have idle : (extractHighlightTerms env query = [] ∨ text = []) →
      highlightSpans env fold text query = [] := by
    intro either
    apply (scan_highlight env fold text query).eq_nil
    intro later
    cases either with
    | inl noTerms =>
        rw [noTerms]
        rfl
    | inr noText => rw [noText, List.drop_nil, Regex.firstWord_nil terms_filled, Option.map_none]
  have kept : highlightSpans env fold text query = [] →
      text = Regex.replaceMatches (fun found => (validateMarkers startMarker endMarker).1 ++
        found.text ++ (validateMarkers startMarker endMarker).2) text 0
        (highlightSpans env fold text query) := by
    intro noSpan
    rw [noSpan]
    rfl
  unfold highlightText
  by_cases early : (query.isEmpty || text.isEmpty) = true
  · rw [if_pos early]
    apply kept
    apply idle
    rw [Bool.or_eq_true, List.isEmpty_iff, List.isEmpty_iff] at early
    apply early.imp_left
    intro noQuery
    rw [noQuery]
    rfl
  · rw [if_neg early]
    dsimp only
    by_cases noTerms : (extractHighlightTerms env query).isEmpty = true
    · rw [if_pos noTerms]
      exact kept (idle (Or.inl (List.isEmpty_iff.mp noTerms)))
    · rw [if_neg noTerms]
      rfl

/-! ### Exactly when the terms are covered -/

theorem firstTermAt_isSome {position : Nat} {term : Text}
    (member : term ∈ extractHighlightTerms env query) (here : termAt fold text term position) :
    ∃ first, firstTermAt env fold text query position = some first :=
  Regex.exists_firstWord member here

theorem looks_iff {position : Nat} (within : position ≤ text.length) :
    Looks env fold text query position ↔
      ∀ span ∈ highlightSpans env fold text query, span.start < position → span.stop ≤ position :=
  (scan_highlight env fold text query).visits_iff (Nat.zero_le _) within

/-- The span at a position where the scan looks and a term is found. -/
theorem exists_span {position : Nat} {first : Text} (looks : Looks env fold text query position)
    (taken : firstTermAt env fold text query position = some first) :
    ∃ span ∈ highlightSpans env fold text query,
      span.start = position ∧ span.text.length = first.length := by
  apply (scan_highlight env fold text query).exists_match looks
  exact congrArg (Option.map List.length) taken

theorem termAt_within {position : Nat} {term : Text}
    (member : term ∈ extractHighlightTerms env query) (here : termAt fold text term position) :
    0 < term.length ∧ position + term.length ≤ text.length := by
  have positive := (by decide : 0 < minTermLength).trans_le (terms_long term member)
  have short := Regex.startsLike_length here
  rw [List.length_drop] at short
  omega

/-- A longest term among those at a position. -/
theorem exists_longest {position : Nat} {term : Text}
    (member : term ∈ extractHighlightTerms env query) (here : termAt fold text term position) :
    ∃ longest ∈ extractHighlightTerms env query, termAt fold text longest position ∧
      ∀ other ∈ extractHighlightTerms env query, termAt fold text other position →
        other.length ≤ longest.length := by
  let present := (extractHighlightTerms env query).filter
    (fun term => Regex.startsLike (sameLetter fold) term (text.drop position))
  have inside : ∀ other, other ∈ present ↔
      other ∈ extractHighlightTerms env query ∧ termAt fold text other position := by
    intro other
    exact List.mem_filter
  cases best : present.argmax List.length with
  | none =>
      have nothing := List.argmax_eq_none.mp best
      have this := (inside term).mpr ⟨member, here⟩
      rw [nothing] at this
      cases this
  | some longest =>
      have isMember := (inside longest).mp (List.argmax_mem best)
      refine ⟨longest, isMember.1, isMember.2, ?_⟩
      intro other otherMember otherHere
      exact List.le_of_mem_argmax ((inside other).mpr ⟨otherMember, otherHere⟩) best

theorem highlights_iff :
    Highlights env fold text query startMarker endMarker ↔
      FirstIsLongest env fold text query := by
  have scan := scan_highlight env fold text query
  constructor
  · intro highlights position looks first taken other member here
    obtain ⟨longest, longestMember, longestHere, most⟩ := exists_longest member here
    obtain ⟨positive, within⟩ := termAt_within longestMember longestHere
    obtain ⟨span, spanMember, start, size⟩ := exists_span looks taken
    have free := (looks_iff (by omega)).mp looks
    obtain ⟨wide, wideMember, before, reach⟩ :=
      highlights.covered position longest longestMember longestHere free most
    have spanFilled := scan.filled span spanMember
    have same : wide = span := by
      by_contra apart
      have disjoint := scan.disjoint wideMember spanMember apart
      rw [Regex.Match.Apart, Regex.Match.stop, Regex.Match.stop] at disjoint
      rw [Regex.Match.stop] at reach
      omega
    rw [same, Regex.Match.stop, start, size] at reach
    have longer := most other member here
    omega
  · intro firstIsLongest
    constructor
    case preserved =>
      rw [highlightText_eq]
      exact scan.withoutInserted_replaceMatches _ _ (Nat.le_refl 0)
    case disjoint => exact scan.ordered
    case covered =>
      intro position term member here free _most
      have within := (termAt_within member here).2
      have looks := (looks_iff (by omega)).mpr free
      obtain ⟨first, taken⟩ := firstTermAt_isSome member here
      obtain ⟨span, spanMember, start, size⟩ := exists_span looks taken
      refine ⟨span, spanMember, Nat.le_of_eq start, ?_⟩
      rw [Regex.Match.stop, start, size]
      have long := firstIsLongest position looks first taken term member here
      omega

/-! ### Queries without shadowed terms -/

theorem startsLike_iff {word rest : Text} :
    Regex.startsLike (sameLetter fold) word rest = true ↔ word.map fold <+: rest.map fold := by
  induction word generalizing rest with
  | nil => exact iff_of_true rfl List.nil_prefix
  | cons head tail ih =>
      cases rest with
      | nil =>
          apply iff_of_false Bool.false_ne_true
          intro ahead
          cases List.prefix_nil.mp ahead
      | cons char more =>
          rw [Regex.startsLike, Bool.and_eq_true, ih, sameLetter, beq_iff_eq, List.map_cons,
            List.map_cons, List.cons_prefix_cons]

/-- Of two items that pass both tests, each first for one of them, none comes before the other. -/
theorem find_eq_find {item : Type} {first second : item → Bool} {items : List item}
    {one other : item} (found : items.find? first = some one)
    (foundOther : items.find? second = some other) (passed : first other = true)
    (passedOther : second one = true) : one = other := by
  induction items with
  | nil => cases found
  | cons head tail ih =>
      rw [List.find?_cons] at found foundOther
      cases ofFirst : first head with
      | true =>
          rw [ofFirst] at found
          rw [Option.some.inj found, passedOther] at foundOther
          exact Option.some.inj foundOther
      | false =>
          rw [ofFirst] at found
          cases ofSecond : second head with
          | true =>
              rw [ofSecond] at foundOther
              rw [Option.some.inj foundOther, passed] at ofFirst
              cases ofFirst
          | false =>
              rw [ofSecond] at foundOther
              exact ih found foundOther

theorem firstIsLongest_of_noneShadowed
    (clear : NoneShadowed fold (extractHighlightTerms env query)) (text : Text) :
    FirstIsLongest env fold text query := by
  intro position _looks first taken other member here
  by_contra longer
  have firstHere := startsLike_iff.mp (Regex.firstWord_starts taken)
  have otherHere := startsLike_iff.mp here
  have firstOther : Regex.startsLike (sameLetter fold) first other = true := by
    rw [startsLike_iff]
    apply List.prefix_of_prefix_length_le firstHere otherHere
    rw [List.length_map, List.length_map]
    omega
  obtain ⟨copy, isCopy⟩ := Regex.exists_firstWord (Regex.firstWord_mem taken) firstOther
  have copyHere : Regex.startsLike (sameLetter fold) copy (text.drop position) = true := by
    rw [startsLike_iff]
    exact (startsLike_iff.mp (Regex.firstWord_starts isCopy)).trans otherHere
  have same : first = copy := find_eq_find taken isCopy copyHere firstOther
  have long := clear other member copy isCopy
  rw [← same] at long
  exact longer long

/-- A text is marked as claimed exactly when the first term is the longest wherever the scan
looks, and all texts are exactly when no term of the query is shadowed. -/
theorem highlightText_law_iff (env : Env) (fold : Char → Char) (query : Text) :
    (∀ text startMarker endMarker, Highlights env fold text query startMarker endMarker ↔
      FirstIsLongest env fold text query) ∧
    ((∀ text startMarker endMarker, Highlights env fold text query startMarker endMarker) ↔
      NoneShadowed fold (extractHighlightTerms env query)) := by
  refine ⟨fun _text _startMarker _endMarker => highlights_iff, ?_⟩
  constructor
  · intro highlights term member first taken
    -- The term is a text of its own.
    have whole := highlights_iff.mp (highlights term [] [])
    apply whole 0 Relation.ReflTransGen.refl first taken term member
    rw [termAt, List.drop_zero, startsLike_iff]
  · intro clear text startMarker endMarker
    exact highlights_iff.mpr (firstIsLongest_of_noneShadowed clear text)

/-- The longer term comes second and is cut. -/
theorem highlightText_cuts_foobar :
    highlightText Env.plain Char.toLower "foobar".toList "foo foobar".toList "**".toList
        "**".toList = "**foo**bar".toList ∧
      ¬ Highlights Env.plain Char.toLower "foobar".toList "foo foobar".toList "**".toList
        "**".toList := by
  refine ⟨by decide, ?_⟩
  intro highlights
  have long := highlights_iff.mp highlights 0 Relation.ReflTransGen.refl "foo".toList (by decide)
    "foobar".toList (by decide) (by unfold termAt; decide)
  exact absurd long (by decide)

end

end VaultSearch
