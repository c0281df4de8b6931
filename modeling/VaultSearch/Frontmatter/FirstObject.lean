/-
When `_extract_json_object` returns the first object of a text without a code fence.

Between the readings an object at the first brace is passed over if more follows behind it: the
first one behind that brace is taken instead.
-/

import Mathlib.Data.Nat.Find
import VaultSearch.Frontmatter.JsonExtraction

set_option autoImplicit false

namespace VaultSearch

open JsonText

variable {limits : Limits}

/-! ### The readings of a text without a fence -/

theorem strip_within (text : Text) : Text.strip text <:+: text := by
  obtain ⟨lead, trail, _leadBlank, _trailBlank, split⟩ := strip_split text
  exact ⟨lead, trail, split.symm⟩

theorem fencedBlock_missing {text : Text} (noFence : ¬ "\x60\x60\x60".toList <:+: text) :
    fencedBlock.finditer text = [] := by
  apply Regex.findFrom_eq_nil
  intro later behind
  unfold Regex.firstMatch fencedBlock
  rw [Regex.ends_seq, Regex.literal_ends_eq, if_neg]
  · rfl
  · intro opens
    have starts := List.isPrefixOf_iff_prefix.mp opens
    exact noFence (starts.isInfix.trans behind.isInfix)

theorem loads_nil : loads limits [] = .malformed := by
  have scalar : rawDecode limits [] = scanScalar limits [] :=
    scanOnce_scalar limits limits.depth (by decide) (by decide)
  have nothing : skipSpace [] = [] := rfl
  unfold loads
  rw [if_neg (by decide), nothing, scalar]
  rfl

theorem loadsBraces_eq (text : Text) :
    loadsBraces limits text = loads limits (betweenBraces text) := by
  unfold loadsBraces
  split
  case isTrue empty =>
    rw [List.isEmpty_iff.mp empty]
    exact loads_nil.symm
  case isFalse => rfl

theorem readings_eq {text : Text} (noFence : ¬ "\x60\x60\x60".toList <:+: text) :
    readings limits text = (loads limits text).orElse ((loads limits (betweenBraces text)).orElse
      (scanBraces limits (behindFirstBrace text))) := by
  have malformed : loadsFenced limits text = .malformed := by
    unfold loadsFenced
    rw [fencedBlock_missing noFence]
    rfl
  unfold readings
  rw [malformed, loadsBraces_eq]
  rfl

/-! ### What the decoder raises -/

theorem braceRaises_cons {char : Char} {rest : Text}
    (missing : ∀ members, ¬ ObjectBehind (char :: rest) [] members)
    (calm : char = '{' → ∀ error, rawDecode limits (char :: rest) ≠ .fault error) :
    BraceRaises limits (char :: rest) ↔ BraceRaises limits rest := by
  constructor
  · intro raises
    obtain ⟨front, behind, error, split, raised, earliest⟩ := raises
    cases front with
    | nil =>
        rw [List.nil_append, List.cons.injEq] at split
        rw [← split.2, ← split.1] at raised
        exact absurd raised (calm split.1 error)
    | cons head front =>
        rw [List.cons_append, List.cons.injEq] at split
        refine ⟨front, behind, error, split.2, raised, ?_⟩
        intro other others otherBehind
        have least := earliest (char :: other) others (objectBehind_cons.mpr ⟨rfl, otherBehind⟩)
        exact Nat.le_of_succ_le_succ least
  · intro raises
    obtain ⟨front, behind, error, split, raised, earliest⟩ := raises
    refine ⟨char :: front, behind, error, ?_, raised, ?_⟩
    · rw [split]
      rfl
    · intro other others otherBehind
      cases other with
      | nil => exact absurd otherBehind (missing others)
      | cons head other =>
          exact Nat.succ_le_succ (earliest other others (objectBehind_cons.mp otherBehind).2)

theorem scanBraces_raises (text : Text) :
    (∃ error, scanBraces limits text = .fault error) ↔ BraceRaises limits text := by
  induction text with
  | nil =>
      apply iff_of_false
      · intro raised
        obtain ⟨error, impossible⟩ := raised
        cases impossible
      · intro raises
        obtain ⟨front, behind, error, split, _raised, _earliest⟩ := raises
        simp at split
  | cons char rest ih =>
      rw [scanBraces]
      by_cases brace : char = '{'
      · rw [if_pos brace]
        cases decoded : rawDecode limits (char :: rest) with
        | malformed =>
            rw [braceRaises_cons, ← ih]
            · rfl
            · intro members behind
              obtain ⟨used, left, split, isObject⟩ := behind
              rw [List.nil_append] at split
              rw [split] at decoded
              exact not_malformed isObject decoded
            · intro _brace error raised
              rw [decoded] at raised
              cases raised
        | fault error =>
            apply iff_of_true
            · exact ⟨error, rfl⟩
            · refine ⟨[], rest, error, ?_, ?_, fun _other _others _behind => Nat.zero_le _⟩
              · rw [brace]
                rfl
              · rw [← brace]
                exact decoded
        | found tree left =>
            have read := decoded
            rw [brace] at read
            obtain ⟨members, isObjectTree⟩ := rawDecode_brace read
            rw [isObjectTree] at decoded ⊢
            obtain ⟨used, split, isObject⟩ := rawDecode_sound decoded
            apply iff_of_false
            · intro raised
              obtain ⟨error, impossible⟩ := raised
              cases impossible
            · intro raises
              obtain ⟨front, behind, error, otherSplit, raised, earliest⟩ := raises
              have least := earliest [] members ⟨used, left, split, isObject⟩
              rw [List.length_eq_zero_iff.mp (Nat.le_zero.mp least), List.nil_append] at otherSplit
              rw [← otherSplit, decoded] at raised
              cases raised
      · rw [if_neg brace, ih, braceRaises_cons]
        · exact fun members behind => brace (objectBehind_nil behind)
        · exact fun isBrace => absurd isBrace brace

theorem JsonText.Outcome.orElse_raises (outcome next : JsonText.Outcome Tree) :
    (∃ error, outcome.orElse next = .fault error) ↔ (∃ error, outcome = .fault error) ∨
      (∀ members left, outcome ≠ .found (.object members) left) ∧ ∃ error, next = .fault error := by
  cases JsonText.Outcome.orElse_cases outcome next with
  | inl found =>
      obtain ⟨members, left, found, same⟩ := found
      rw [same, found]
      apply iff_of_false
      · intro raised
        obtain ⟨error, impossible⟩ := raised
        cases impossible
      · intro either
        cases either with
        | inl raised =>
            obtain ⟨error, impossible⟩ := raised
            cases impossible
        | inr passed => exact passed.1 members left rfl
  | inr others =>
      cases others with
      | inl fault =>
          obtain ⟨error, same, raised⟩ := fault
          exact iff_of_true ⟨error, same⟩ (Or.inl ⟨error, raised⟩)
      | inr neither =>
          obtain ⟨notObject, calm, same⟩ := neither
          rw [same]
          constructor
          · exact fun raised => Or.inr ⟨notObject, raised⟩
          · intro either
            cases either with
            | inl raised =>
                obtain ⟨error, raised⟩ := raised
                exact absurd raised (calm error)
            | inr passed => exact passed.2

/-- The readings raise what the decoder raises. -/
theorem readings_raises {text : Text} (noFence : ¬ "\x60\x60\x60".toList <:+: text) :
    (∃ error, readings limits text = .fault error) ↔ DecoderRaises limits text := by
  rw [readings_eq noFence, JsonText.Outcome.orElse_raises, JsonText.Outcome.orElse_raises,
    scanBraces_raises]
  constructor
  · intro raises
    cases raises with
    | inl raised =>
        obtain ⟨error, raised⟩ := raised
        exact .whole error raised
    | inr passed =>
        obtain ⟨notWhole, raises⟩ := passed
        cases raises with
        | inl raised =>
            obtain ⟨error, raised⟩ := raised
            exact .between error notWhole raised
        | inr passed => exact .behind notWhole passed.1 passed.2
  · intro raises
    cases raises with
    | whole error raised => exact Or.inl ⟨error, raised⟩
    | between error notWhole raised => exact Or.inr ⟨notWhole, Or.inl ⟨error, raised⟩⟩
    | behind notWhole notBetween raised => exact Or.inr ⟨notWhole, Or.inr ⟨notBetween, raised⟩⟩

/-! ### Verdicts -/

theorem exists_firstObject {text front : Text} {members : JsonMembers}
    (behind : ObjectBehind text front members) : ∃ others, FirstObject text others := by
  classical
  have nonempty : ∃ length, ∃ other others,
      ObjectBehind text other others ∧ other.length = length :=
    ⟨front.length, front, members, behind, rfl⟩
  obtain ⟨other, others, otherBehind, least⟩ := Nat.find_spec nonempty
  refine ⟨others, other, otherBehind, ?_⟩
  intro later laterMembers laterBehind
  rw [least]
  exact Nat.find_min' nonempty ⟨later, laterMembers, laterBehind, rfl⟩

variable {mapping : Type} {build : JsonMembers → mapping}

theorem extractsFirst_iff_ok {text : Text} {members : JsonMembers}
    {outcome : Except ExtractionError mapping}
    (unique : ∀ others, FirstObject text others ↔ others = members) :
    ExtractsFirst build text outcome ↔ outcome = .ok (build members) := by
  have isFirst := (unique members).mpr rfl
  constructor
  · exact fun extracts => extracts.first members isFirst
  · intro returned
    constructor
    case first =>
      intro others otherFirst
      rw [(unique others).mp otherFirst]
      exact returned
    case none =>
      intro missing
      obtain ⟨front, behind, _earliest⟩ := isFirst
      exact absurd behind (missing front members)

theorem extractsFirst_missing {text : Text} (message : Text)
    (missing : ∀ front members, ¬ ObjectBehind text front members) :
    ExtractsFirst build text (.error (.enrichment message)) where
  first := by
    intro members isFirst
    obtain ⟨front, behind, _earliest⟩ := isFirst
    exact absurd behind (missing front members)
  none := fun _missing => ⟨message, rfl⟩

/-- Another error than the one that is promised. -/
theorem not_extractsFirst_raised (text : Text) (error : DecodeFault) :
    ¬ ExtractsFirst build text (.error (.raised error)) := by
  intro extracts
  by_cases present : ∃ front members, ObjectBehind text front members
  · obtain ⟨front, members, behind⟩ := present
    obtain ⟨others, isFirst⟩ := exists_firstObject behind
    cases extracts.first others isFirst
  · obtain ⟨message, same⟩ := extracts.none
      (fun front members behind => present ⟨front, members, behind⟩)
    cases same

/-- What finds the first object gives the answer that is claimed, unless it raises. -/
theorem FindsFirst.extracts {text : Text} {outcome : JsonText.Outcome Tree}
    (finds : FindsFirst text outcome) :
    ExtractsFirst build text (answer build outcome) ↔ ¬ ∃ error, outcome = .fault error := by
  cases outcome with
  | found tree left =>
      obtain ⟨members, isObject, unique⟩ := finds.found rfl
      rw [isObject, extractsFirst_iff_ok unique]
      apply iff_of_true rfl
      intro raised
      obtain ⟨error, impossible⟩ := raised
      cases impossible
  | malformed =>
      apply iff_of_true (extractsFirst_missing _ (finds.malformed rfl))
      intro raised
      obtain ⟨error, impossible⟩ := raised
      cases impossible
  | fault error =>
      apply iff_of_false (not_extractsFirst_raised text error)
      exact fun calm => calm ⟨error, rfl⟩

/-! ### An object at the first brace -/

/-- An object at the first brace reaches to the last closing brace. -/
def ReachesLast (text : Text) : Prop :=
  ∀ front used rest members, text = front ++ used ++ rest → '{' ∉ front →
    IsObject members used → '}' ∉ rest

theorem ReachesLast.firstReachesLast {text : Text} (reaches : ReachesLast text) :
    FirstReachesLast build text := by
  intro front used rest members split free isObject more
  exact absurd more (reaches front used rest members split free isObject)

theorem ReachesLast.within {lead text trail : Text} (reaches : ReachesLast text)
    (leadFree : '{' ∉ lead) (trailFree : '}' ∉ trail) : ReachesLast (lead ++ text ++ trail) := by
  intro front used rest members split free isObject
  obtain ⟨body, braces⟩ := isObject.braces
  have opening : lead ++ (text ++ trail) = front ++ '{' :: (body ++ ['}'] ++ rest) := by
    rw [← List.append_assoc, split, braces]
    simp only [List.append_assoc, List.cons_append]
  obtain ⟨inner, isFront, behindLead⟩ := split_front leadFree opening
  have closing : text ++ trail = (inner ++ '{' :: body) ++ '}' :: rest := by
    rw [behindLead]
    simp only [List.append_assoc, List.cons_append, List.nil_append]
  obtain ⟨left, isRest, isText⟩ := split_back trailFree closing
  have inside : text = inner ++ used ++ left := by
    rw [isText, braces]
    simp only [List.append_assoc, List.cons_append, List.nil_append]
  rw [isRest, List.mem_append, not_or]
  constructor
  · apply reaches inner used left members inside _ isObject
    rw [isFront, List.mem_append, not_or] at free
    exact free.2
  · exact trailFree

theorem reachesLast_loads {text left : Text} {members : JsonMembers}
    (read : loads limits text = .found (.object members) left) : ReachesLast text :=
  fun _front _used _rest _others split free isObject => loads_reaches read split free isObject

/-- No object starts at the first brace. -/
theorem reachesLast_missing {front tail : Text} (free : '{' ∉ front)
    (missing : ∀ members, ¬ ObjectBehind ('{' :: tail) [] members) :
    ReachesLast (front ++ '{' :: tail) := by
  intro other used rest members split otherFree isObject
  obtain ⟨usedTail, shape⟩ := isObject.start
  rw [shape, List.append_assoc, List.cons_append] at split
  obtain ⟨_same, behind⟩ := fronts_eq free otherFree split
  apply absurd _ (missing members)
  refine ⟨used, rest, ?_, isObject⟩
  rw [behind, shape]
  rfl

theorem reachesLast_free {text : Text} (free : '{' ∉ text) : ReachesLast text := by
  intro front used rest members split _frontFree isObject
  obtain ⟨tail, shape⟩ := isObject.start
  rw [split, shape] at free
  simp at free

/-! ### The braces of a text -/

theorem betweenBraces_split {front body trail : Text} (free : '{' ∉ front)
    (trailFree : '}' ∉ trail) :
    betweenBraces (front ++ ('{' :: body ++ ['}']) ++ trail) = '{' :: body ++ ['}'] := by
  have shape : front ++ ('{' :: body ++ ['}']) ++ trail =
      front ++ '{' :: (body ++ '}' :: trail) := by
    simp only [List.append_assoc, List.cons_append, List.nil_append]
  unfold betweenBraces
  rw [shape, fromFirstBrace_split free, ← List.cons_append, toLastBrace_split trailFree]

theorem betweenBraces_unclosed {front tail : Text} (free : '{' ∉ front) (unclosed : '}' ∉ tail) :
    betweenBraces (front ++ '{' :: tail) = [] := by
  unfold betweenBraces toLastBrace
  rw [fromFirstBrace_split free, List.reverse_eq_nil_iff, List.dropWhile_eq_nil_iff]
  intro char member
  rw [bne_iff_ne]
  intro same
  rw [same, List.mem_reverse, List.mem_cons] at member
  cases member with
  | inl impossible => exact absurd impossible (by decide)
  | inr inside => exact unclosed inside

theorem fromFirstBrace_free {text : Text} (free : '{' ∉ text) : fromFirstBrace text = [] := by
  unfold fromFirstBrace
  rw [List.dropWhile_eq_nil_iff]
  intro char member
  rw [bne_iff_ne]
  intro same
  rw [same] at member
  exact free member

theorem behindFirstBrace_split {front tail : Text} (free : '{' ∉ front) :
    behindFirstBrace (front ++ '{' :: tail) = tail := by
  unfold behindFirstBrace
  rw [fromFirstBrace_split free, if_neg (List.cons_ne_nil _ _)]
  rfl

theorem behindFirstBrace_free {text : Text} (free : '{' ∉ text) : behindFirstBrace text = text := by
  unfold behindFirstBrace
  rw [if_pos (fromFirstBrace_free free)]

/-- The two braces of a text with what lies around them. -/
structure Braced (text front body trail : Text) : Prop where
  split : text = front ++ ('{' :: body ++ ['}']) ++ trail
  frontFree : '{' ∉ front
  trailFree : '}' ∉ trail

theorem Braced.between {text front body trail : Text} (braced : Braced text front body trail) :
    betweenBraces text = '{' :: body ++ ['}'] := by
  rw [braced.split, betweenBraces_split braced.frontFree braced.trailFree]

theorem braced_of_closing {front tail : Text} (free : '{' ∉ front) (closing : '}' ∈ tail) :
    ∃ body trail, Braced (front ++ '{' :: tail) front body trail := by
  obtain ⟨body, trail, split, trailFree⟩ := exists_split_last closing
  refine ⟨body, trail, ?_, free, trailFree⟩
  rw [split]
  simp only [List.append_assoc, List.cons_append, List.nil_append]

theorem exists_braced {text : Text} (filled : betweenBraces text ≠ []) :
    ∃ front body trail, Braced text front body trail := by
  by_cases opening : '{' ∈ text
  · obtain ⟨front, tail, split, free⟩ := exists_split opening
    rw [split] at filled ⊢
    by_cases closing : '}' ∈ tail
    · exact ⟨front, braced_of_closing free closing⟩
    · exact absurd (betweenBraces_unclosed free closing) filled
  · apply absurd _ filled
    unfold betweenBraces
    rw [fromFirstBrace_free opening]
    rfl

/-! ### The object at the first brace -/

theorem loads_start {used : Text} {members : JsonMembers} (isObject : IsObject members used)
    (rest : Text) : loads limits (used ++ rest) =
      (rawDecode limits (used ++ rest)).bind (fun value behind =>
        if (skipSpace behind).isEmpty then .found value [] else .malformed) := by
  obtain ⟨tail, shape⟩ := isObject.start
  unfold loads
  rw [shape, if_neg]
  · rfl
  · intro mark
    exact absurd (Option.some.inj mark) (by decide)

theorem rawDecode_of_calm {used rest : Text} {members : JsonMembers}
    (isObject : IsObject members used)
    (calm : ∀ error, loads limits (used ++ rest) ≠ .fault error) :
    rawDecode limits (used ++ rest) = .found (.object members) rest := by
  cases rawDecode_complete limits isObject rest with
  | inl found => exact found
  | inr fault =>
      obtain ⟨error, raised⟩ := fault
      apply absurd _ (calm error)
      rw [loads_start isObject, raised]
      rfl

/-- Braces that hold more than one object end behind it. -/
theorem closing_behind {body used rest : Text} {members : JsonMembers}
    (isObject : IsObject members used) (split : '{' :: body ++ ['}'] = used ++ rest)
    (calm : ∀ error, loads limits (used ++ rest) ≠ .fault error)
    (notObject : ∀ others left, loads limits (used ++ rest) ≠ .found (.object others) left) :
    '}' ∈ rest := by
  by_cases empty : rest = []
  · rw [empty, List.append_nil] at calm notObject
    cases @loads_complete limits used members isObject with
    | inl found => exact absurd found (notObject _ _)
    | inr fault =>
        obtain ⟨error, raised⟩ := fault
        exact absurd raised (calm error)
  · have last := congrArg List.getLast? split
    rw [List.getLast?_append, List.getLast?_append, List.getLast?_eq_some_getLast empty] at last
    have closes : '}' = rest.getLast empty := Option.some.inj last
    rw [closes]
    exact List.getLast_mem empty

theorem findsFirst_behind {front tail : Text} (free : '{' ∉ front)
    (missing : ∀ members, ¬ ObjectBehind ('{' :: tail) [] members) :
    FindsFirst (front ++ '{' :: tail) (scanBraces limits tail) := by
  have finds := ((scanBraces_first limits tail).skip missing).within free List.not_mem_nil
  rwa [List.append_nil] at finds

/-- The object at the first brace is followed by a closing brace, and the readings go on behind
the first brace. -/
structure PassedOver (limits : Limits) (text front tail : Text) (members : JsonMembers) :
    Prop where
  split : text = front ++ '{' :: tail
  free : '{' ∉ front
  unique : ∀ others, FirstObject text others ↔ others = members
  object : ∃ used rest, '{' :: tail = used ++ rest ∧ IsObject members used ∧ '}' ∈ rest
  read : readings limits text = scanBraces limits tail

/-- An object between the braces is the first one. -/
theorem between_finds {text left : Text} {members : JsonMembers}
    (read : loads limits (betweenBraces text) = .found (.object members) left) :
    FindsFirst text (.found (.object members) left) ∧ ReachesLast text := by
  have filled : betweenBraces text ≠ [] := by
    intro empty
    rw [empty, loads_nil] at read
    cases read
  obtain ⟨front, body, trail, braced⟩ := exists_braced filled
  rw [braced.between] at read
  rw [braced.split]
  constructor
  · exact (findsFirst_object (loads_first read)).within braced.frontFree braced.trailFree
  · exact (reachesLast_loads read).within braced.frontFree braced.trailFree

theorem closing_of_object {tail : Text} {members : JsonMembers}
    (behind : ObjectBehind ('{' :: tail) [] members) : '}' ∈ tail := by
  obtain ⟨used, rest, opened, isObject⟩ := behind
  obtain ⟨inside, braces⟩ := isObject.braces
  rw [braces, List.nil_append, List.append_assoc, List.cons_append, List.cons.injEq] at opened
  rw [opened.2]
  simp

theorem passedOver_of_object {front tail : Text} {members : JsonMembers} (free : '{' ∉ front)
    (behind : ObjectBehind ('{' :: tail) [] members)
    (calm : ∀ error, loads limits (betweenBraces (front ++ '{' :: tail)) ≠ .fault error)
    (notBetween : ∀ others left,
      loads limits (betweenBraces (front ++ '{' :: tail)) ≠ .found (.object others) left)
    (read : readings limits (front ++ '{' :: tail) = scanBraces limits tail) :
    PassedOver limits (front ++ '{' :: tail) front tail members := by
  obtain ⟨body, trail, braced⟩ := braced_of_closing free (closing_of_object behind)
  rw [braced.between] at calm notBetween
  have whole : '{' :: tail = [] ++ ('{' :: body ++ ['}']) ++ trail := by
    have same := braced.split
    rw [List.append_assoc] at same
    exact List.append_cancel_left same
  rw [whole, objectBehind_within List.not_mem_nil braced.trailFree] at behind
  obtain ⟨inner, empty, within⟩ := behind
  rw [List.nil_append] at empty
  rw [← empty] at within
  obtain ⟨used, rest, split, isObject⟩ := within
  rw [List.nil_append] at split
  rw [split] at calm notBetween
  constructor
  case split => rfl
  case free => exact free
  case unique =>
    intro others
    rw [braced.split, firstObject_within braced.frontFree braced.trailFree, split]
    exact firstObject_start isObject (rawDecode_of_calm isObject calm) others
  case object =>
    refine ⟨used, rest ++ trail, ?_, isObject, ?_⟩
    · rw [whole, List.nil_append, split, List.append_assoc]
    · exact List.mem_append_left _ (closing_behind isObject split calm notBetween)
  case read => exact read

/-- What the scan of the braces gives for a text that was not read before. -/
theorem scan_cases {text : Text}
    (calm : ∀ error, loads limits (betweenBraces text) ≠ .fault error)
    (notBetween : ∀ others left, loads limits (betweenBraces text) ≠ .found (.object others) left)
    (read : readings limits text = scanBraces limits (behindFirstBrace text)) :
    FindsFirst text (readings limits text) ∧ ReachesLast text ∨
      ∃ front tail members, PassedOver limits text front tail members := by
  by_cases opening : '{' ∈ text
  · obtain ⟨front, tail, split, free⟩ := exists_split opening
    rw [split] at calm notBetween read ⊢
    rw [behindFirstBrace_split free] at read
    by_cases present : ∃ members, ObjectBehind ('{' :: tail) [] members
    · obtain ⟨members, behind⟩ := present
      right
      exact ⟨front, tail, members, passedOver_of_object free behind calm notBetween read⟩
    · have missing := not_exists.mp present
      left
      rw [read]
      exact ⟨findsFirst_behind free missing, reachesLast_missing free missing⟩
  · rw [behindFirstBrace_free opening] at read
    left
    rw [read]
    exact ⟨scanBraces_first limits text, reachesLast_free opening⟩

theorem readings_cases {text : Text} (noFence : ¬ "\x60\x60\x60".toList <:+: text)
    (calm : ¬ DecoderRaises limits text) :
    FindsFirst text (readings limits text) ∧ ReachesLast text ∨
      ∃ front tail members, PassedOver limits text front tail members := by
  have stages := @readings_eq limits text noFence
  cases JsonText.Outcome.orElse_cases (loads limits text)
    ((loads limits (betweenBraces text)).orElse (scanBraces limits (behindFirstBrace text))) with
  | inl found =>
      obtain ⟨members, left, read, same⟩ := found
      rw [stages, same]
      exact Or.inl ⟨findsFirst_object (loads_first read), reachesLast_loads read⟩
  | inr others =>
      cases others with
      | inl fault =>
          obtain ⟨error, _same, raised⟩ := fault
          exact absurd (.whole error raised) calm
      | inr neither =>
          obtain ⟨notWhole, _calm, same⟩ := neither
          rw [same] at stages
          have betweenCalm : ∀ error, loads limits (betweenBraces text) ≠ .fault error :=
            fun error raised => calm (.between error notWhole raised)
          cases JsonText.Outcome.orElse_cases (loads limits (betweenBraces text))
            (scanBraces limits (behindFirstBrace text)) with
          | inl found =>
              obtain ⟨members, left, read, same⟩ := found
              rw [stages, same]
              exact Or.inl (between_finds read)
          | inr others =>
              cases others with
              | inl fault =>
                  obtain ⟨error, _same, raised⟩ := fault
                  exact absurd raised (betweenCalm error)
              | inr neither =>
                  obtain ⟨notBetween, _calm, same⟩ := neither
                  rw [same] at stages
                  exact scan_cases betweenCalm notBetween stages

/-! ### The first object of a text -/

/-- An object that is passed over is replaced by the first one behind its brace. -/
theorem PassedOver.reaches_iff {text front tail : Text} {members : JsonMembers}
    (passed : PassedOver limits text front tail members) :
    FirstReachesLast build text ↔
      ∃ others, FirstObject tail others ∧ build others = build members := by
  obtain ⟨used, rest, opened, isObject, closes⟩ := passed.object
  constructor
  · intro reaches
    have split : text = front ++ used ++ rest := by
      rw [passed.split, opened, List.append_assoc]
    have replaced := reaches front used rest members split passed.free isObject closes
    rw [← opened] at replaced
    exact replaced
  · intro replaced otherFront otherUsed otherRest otherMembers split free otherObject _closes
    obtain ⟨others, isFirst, same⟩ := replaced
    obtain ⟨otherTail, shape⟩ := otherObject.start
    have both : front ++ '{' :: tail = otherFront ++ '{' :: (otherTail ++ otherRest) := by
      rw [← passed.split, split, shape, List.append_assoc, List.cons_append]
    have sameMembers : otherMembers = members := by
      apply (passed.unique otherMembers).mp
      rw [split]
      exact firstObject_of_free free otherObject
    refine ⟨others, ?_, ?_⟩
    · rw [shape, List.cons_append, List.tail_cons, ← (fronts_eq passed.free free both).2]
      exact isFirst
    · rw [sameMembers]
      exact same

theorem PassedOver.extracts {text front tail : Text} {members : JsonMembers}
    (passed : PassedOver limits text front tail members)
    (calm : ¬ ∃ error, readings limits text = .fault error) :
    ExtractsFirst build text (answer build (readings limits text)) ↔
      FirstReachesLast build text := by
  rw [extractsFirst_iff_ok passed.unique, passed.reaches_iff]
  have finds := scanBraces_first limits tail
  rw [passed.read] at calm ⊢
  cases scanned : scanBraces limits tail with
  | found tree left =>
      obtain ⟨found, isObject, unique⟩ := finds.found scanned
      rw [isObject]
      constructor
      · intro returned
        exact ⟨found, (unique found).mpr rfl, Except.ok.inj returned⟩
      · intro replaced
        obtain ⟨others, isFirst, same⟩ := replaced
        rw [(unique others).mp isFirst] at same
        exact congrArg Except.ok same
  | malformed =>
      apply iff_of_false
      · intro returned
        cases returned
      · intro replaced
        obtain ⟨others, isFirst, _same⟩ := replaced
        obtain ⟨otherFront, behind, _earliest⟩ := isFirst
        exact finds.malformed scanned otherFront others behind
  | fault error => exact absurd ⟨error, scanned⟩ calm

theorem extracts_readings (build : JsonMembers → mapping) {text : Text}
    (noFence : ¬ "\x60\x60\x60".toList <:+: text) :
    ExtractsFirst build text (answer build (readings limits text)) ↔
      ¬ DecoderRaises limits text ∧ FirstReachesLast build text := by
  by_cases raises : DecoderRaises limits text
  · obtain ⟨error, raised⟩ := (readings_raises noFence).mpr raises
    rw [raised]
    apply iff_of_false (not_extractsFirst_raised text error)
    exact fun both => both.1 raises
  · have calm : ¬ ∃ error, readings limits text = .fault error :=
      fun raised => raises ((readings_raises noFence).mp raised)
    rw [and_iff_right raises]
    cases readings_cases noFence raises with
    | inl reached => exact iff_of_true (reached.1.extracts.mpr calm) reached.2.firstReachesLast
    | inr passes =>
        obtain ⟨front, tail, members, passed⟩ := passes
        exact passed.extracts calm

/-- The answer to a text without a fence is its first object unless the decoder raises, or unless
that object stands at the first brace and more follows. -/
theorem extractJsonObject_first_iff (build : JsonMembers → mapping) (limits : Limits)
    {rawOutput : Text} (noFence : ¬ "\x60\x60\x60".toList <:+: rawOutput) :
    ExtractsFirst build rawOutput (extractJsonObject build limits rawOutput) ↔
      ¬ DecoderRaises limits (Text.strip rawOutput) ∧
        FirstReachesLast build (Text.strip rawOutput) := by
  have stripped : ¬ "\x60\x60\x60".toList <:+: Text.strip rawOutput :=
    fun fence => noFence (fence.trans (strip_within rawOutput))
  rw [extractsFirst_strip, ← extracts_readings build stripped]
  unfold extractJsonObject
  dsimp only
  split
  case isFalse => rfl
  case isTrue empty =>
    have noObject : ∀ front members, ¬ ObjectBehind (Text.strip rawOutput) front members := by
      rw [List.isEmpty_iff.mp empty]
      exact (scanBraces_first limits []).malformed rfl
    have nothing : readings limits (Text.strip rawOutput) = .malformed := by
      rw [readings_eq stripped, List.isEmpty_iff.mp empty, loads_nil]
      exact congrArg (fun outcome => JsonText.Outcome.orElse outcome .malformed) loads_nil
    rw [nothing]
    exact iff_of_true (extractsFirst_missing _ noObject) (extractsFirst_missing _ noObject)

/-- The keys of a mapping. -/
def memberNames (members : JsonMembers) : List Text :=
  members.map Prod.fst

theorem extractJsonObject_first_prose :
    ¬ "\x60\x60\x60".toList <:+: "Found x \x7b\"a\":1\x7d".toList ∧
      (ExtractsFirst memberNames "Found x \x7b\"a\":1\x7d".toList
          (extractJsonObject memberNames {} "Found x \x7b\"a\":1\x7d".toList) ↔
        ¬ DecoderRaises {} (Text.strip "Found x \x7b\"a\":1\x7d".toList) ∧
          FirstReachesLast memberNames (Text.strip "Found x \x7b\"a\":1\x7d".toList)) :=
  ⟨by decide, extractJsonObject_first_iff memberNames {} (by decide)⟩

/-- Of two objects the second one is returned. -/
theorem extractJsonObject_takes_second :
    ¬ "\x60\x60\x60".toList <:+: "\x7b\"a\":1\x7d \x7b\"b\":2\x7d".toList ∧
      ¬ ExtractsFirst memberNames "\x7b\"a\":1\x7d \x7b\"b\":2\x7d".toList
        (extractJsonObject memberNames {} "\x7b\"a\":1\x7d \x7b\"b\":2\x7d".toList) := by
  have returned : extractJsonObject memberNames {} "\x7b\"a\":1\x7d \x7b\"b\":2\x7d".toList =
      .ok ["b".toList] := rfl
  have decoded : rawDecode {} "\x7b\"a\":1\x7d".toList =
      .found (.object [("a".toList, .number "1".toList)]) [] := rfl
  obtain ⟨used, split, isObject⟩ := rawDecode_sound decoded
  rw [List.append_nil] at split
  have isFirst : FirstObject ([] ++ "\x7b\"a\":1\x7d".toList ++ " \x7b\"b\":2\x7d".toList)
      [("a".toList, .number "1".toList)] := by
    rw [split]
    exact firstObject_of_free List.not_mem_nil isObject
  constructor
  · decide
  · intro extracts
    rw [returned] at extracts
    have wrong := Except.ok.inj (extracts.first _ isFirst)
    exact absurd wrong (by decide)

end VaultSearch
