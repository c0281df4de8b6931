/-
`_extract_json_object` of `frontmatter/enrichment.py`: an object out of the output of a model.

Four readings are tried in turn: the whole text, a fenced block, what lies between the first
opening and the last closing brace, and what follows each opening brace behind the first one.
-/

import VaultSearch.Json.Completeness
import VaultSearch.Regex.Scan

set_option autoImplicit false

namespace VaultSearch

open JsonText

abbrev JsonMembers := List (Text × Tree)

inductive ExtractionError where
  /-- `FrontmatterEnrichmentError` -/
  | enrichment (message : Text)
  /-- what the decoder raises besides `JSONDecodeError` -/
  | raised (fault : DecodeFault)

/-- The next reading, unless this one gives an object or raises. -/
def JsonText.Outcome.orElse (outcome next : JsonText.Outcome Tree) : JsonText.Outcome Tree :=
  match outcome with
  | .found (.object members) rest => .found (.object members) rest
  | .fault error => .fault error
  | _ => next

/-- A fence, perhaps `json`, an object up to the first closing brace before another fence. -/
def fencedBlock : Regex :=
  .seq (.literal "\x60\x60\x60".toList) (.seq (.opt (.literal "json".toList)) (.seq (.star .space)
    (.seq (.group 1 (.seq (.literal "\x7b".toList) (.seq (.lazyStar (.chars (fun _char => true)))
      (.literal "\x7d".toList)))) (.seq (.star .space) (.literal "\x60\x60\x60".toList)))))

def loadsFenced (limits : Limits) (text : Text) : JsonText.Outcome Tree :=
  match (fencedBlock.finditer text).head? with
  | none => .malformed
  | some found => loads limits (found.groupText 1)

/-- `text[text.find("{"):]`, empty without a brace. -/
def fromFirstBrace (text : Text) : Text :=
  text.dropWhile (· != '{')

/-- `text[:text.rfind("}") + 1]` -/
def toLastBrace (text : Text) : Text :=
  (text.reverse.dropWhile (· != '}')).reverse

/-- `text[first_brace : last_brace + 1]` if the last closing brace lies behind the first opening
one. -/
def betweenBraces (text : Text) : Text :=
  toLastBrace (fromFirstBrace text)

def loadsBraces (limits : Limits) (text : Text) : JsonText.Outcome Tree :=
  if (betweenBraces text).isEmpty then .malformed else loads limits (betweenBraces text)

/-- `text[first_brace + 1 :]`, all of the text without a brace. -/
def behindFirstBrace (text : Text) : Text :=
  if fromFirstBrace text = [] then text else (fromFirstBrace text).tail

/-- `raw_decode` at the opening braces, one after the other. -/
def scanBraces (limits : Limits) : Text → JsonText.Outcome Tree
  | [] => .malformed
  | char :: rest =>
      if char = '{' then (rawDecode limits (char :: rest)).orElse (scanBraces limits rest)
      else scanBraces limits rest

/-- The readings in turn. -/
def readings (limits : Limits) (text : Text) : JsonText.Outcome Tree :=
  (loads limits text).orElse ((loadsFenced limits text).orElse ((loadsBraces limits text).orElse
    (scanBraces limits (behindFirstBrace text))))

/-- What is returned or raised after the readings. -/
def answer {mapping : Type} (build : JsonMembers → mapping) :
    JsonText.Outcome Tree → Except ExtractionError mapping
  | .found (.object members) _ => .ok (build members)
  | .fault error => .error (.raised error)
  | _ => .error (.enrichment "Could not extract a valid JSON object from output".toList)

/-- `_extract_json_object`; `build` makes the mapping of the members as they are written. -/
def extractJsonObject {mapping : Type} (build : JsonMembers → mapping) (limits : Limits)
    (rawOutput : Text) : Except ExtractionError mapping :=
  let text := Text.strip rawOutput
  if text.isEmpty then .error (.enrichment "Output is empty".toList)
  else answer build (readings limits text)

/-! ### The first object of a text -/

/-- A complete object follows this part of the text. -/
def ObjectBehind (text front : Text) (members : JsonMembers) : Prop :=
  ∃ used rest, text = front ++ used ++ rest ∧ IsObject members used

/-- The object at the earliest brace at which one starts. -/
def FirstObject (text : Text) (members : JsonMembers) : Prop :=
  ∃ front, ObjectBehind text front members ∧
    ∀ other others, ObjectBehind text other others → front.length ≤ other.length

/-- What is claimed of the outcome: the first object, or the error if there is none. -/
structure ExtractsFirst {mapping : Type} (build : JsonMembers → mapping) (rawOutput : Text)
    (outcome : Except ExtractionError mapping) : Prop where
  first : ∀ members, FirstObject rawOutput members → outcome = .ok (build members)
  none : (∀ front members, ¬ ObjectBehind rawOutput front members) →
    ∃ message, outcome = .error (.enrichment message)

/-- An object at the first brace reaches to the last closing brace, or the first object behind
that brace makes the same mapping. -/
def FirstReachesLast {mapping : Type} (build : JsonMembers → mapping) (text : Text) : Prop :=
  ∀ front used rest members, text = front ++ used ++ rest → '{' ∉ front →
    IsObject members used → '}' ∈ rest →
    ∃ others, FirstObject (used ++ rest).tail others ∧ build others = build members

/-- The decoder raises at a brace before which no object starts. -/
def BraceRaises (limits : Limits) (text : Text) : Prop :=
  ∃ front rest error, text = front ++ '{' :: rest ∧
    rawDecode limits ('{' :: rest) = .fault error ∧
    ∀ other others, ObjectBehind text other others → front.length ≤ other.length

/-- The decoder raises something else than `JSONDecodeError` before it has given an object: on the
whole text, between the first and the last brace, or at a brace behind the first one. -/
inductive DecoderRaises (limits : Limits) (text : Text) : Prop where
  | whole (error : DecodeFault) (raised : loads limits text = .fault error)
  | between (error : DecodeFault)
      (notWhole : ∀ members left, loads limits text ≠ .found (.object members) left)
      (raised : loads limits (betweenBraces text) = .fault error)
  | behind (notWhole : ∀ members left, loads limits text ≠ .found (.object members) left)
      (notBetween : ∀ members left,
        loads limits (betweenBraces text) ≠ .found (.object members) left)
      (raised : BraceRaises limits (behindFirstBrace text))

/-! ### Objects in longer texts -/

/-- A brace behind a text without one lies behind all of it. -/
theorem split_front {brace : Char} {lead text front rest : Text} (free : brace ∉ lead)
    (same : lead ++ text = front ++ brace :: rest) :
    ∃ inner, front = lead ++ inner ∧ text = inner ++ brace :: rest := by
  cases List.append_eq_append_iff.mp same with
  | inl longer =>
      obtain ⟨inner, isFront, isText⟩ := longer
      exact ⟨inner, isFront, isText⟩
  | inr shorter =>
      obtain ⟨more, isLead, isRest⟩ := shorter
      cases more with
      | nil =>
          refine ⟨[], ?_, isRest.symm⟩
          rw [isLead, List.append_nil, List.append_nil]
      | cons head tail =>
          rw [List.cons_append, List.cons.injEq] at isRest
          rw [isLead, ← isRest.1] at free
          exact absurd (List.mem_append_right _ List.mem_cons_self) free

/-- A brace before a text without one lies before all of it. -/
theorem split_back {brace : Char} {text trail front rest : Text} (free : brace ∉ trail)
    (same : text ++ trail = front ++ brace :: rest) :
    ∃ inner, rest = inner ++ trail ∧ text = front ++ brace :: inner := by
  have reversed : trail.reverse ++ text.reverse = rest.reverse ++ brace :: front.reverse := by
    have both := congrArg List.reverse same
    rw [List.reverse_append, List.reverse_append, List.reverse_cons, List.append_assoc] at both
    exact both
  obtain ⟨inner, isRest, isText⟩ := split_front (by rwa [List.mem_reverse]) reversed
  refine ⟨inner.reverse, ?_, ?_⟩
  · rw [← List.reverse_reverse rest, isRest, List.reverse_append, List.reverse_reverse]
  · rw [← List.reverse_reverse text, isText, List.reverse_append, List.reverse_cons,
      List.reverse_reverse, List.append_assoc]
    rfl

theorem objectBehind_within {lead text trail front : Text} {members : JsonMembers}
    (leadFree : '{' ∉ lead) (trailFree : '}' ∉ trail) :
    ObjectBehind (lead ++ text ++ trail) front members ↔
      ∃ inner, front = lead ++ inner ∧ ObjectBehind text inner members := by
  constructor
  · intro behind
    obtain ⟨used, rest, split, isObject⟩ := behind
    obtain ⟨body, braces⟩ := isObject.braces
    have opening : lead ++ (text ++ trail) = front ++ '{' :: (body ++ ['}'] ++ rest) := by
      rw [← List.append_assoc, split, braces]
      simp only [List.append_assoc, List.cons_append]
    obtain ⟨inner, isFront, behindLead⟩ := split_front leadFree opening
    have closing : text ++ trail = (inner ++ '{' :: body) ++ '}' :: rest := by
      rw [behindLead]
      simp only [List.append_assoc, List.cons_append, List.nil_append]
    obtain ⟨left, isRest, isText⟩ := split_back trailFree closing
    refine ⟨inner, isFront, used, left, ?_, isObject⟩
    rw [isText, braces]
    simp only [List.append_assoc, List.cons_append, List.nil_append]
  · intro within
    obtain ⟨inner, isFront, used, rest, split, isObject⟩ := within
    refine ⟨used, rest ++ trail, ?_, isObject⟩
    rw [isFront, split]
    simp only [List.append_assoc]

theorem firstObject_within {lead text trail : Text} {members : JsonMembers}
    (leadFree : '{' ∉ lead) (trailFree : '}' ∉ trail) :
    FirstObject (lead ++ text ++ trail) members ↔ FirstObject text members := by
  constructor
  · intro isFirst
    obtain ⟨front, behind, earliest⟩ := isFirst
    obtain ⟨inner, isFront, within⟩ := (objectBehind_within leadFree trailFree).mp behind
    refine ⟨inner, within, ?_⟩
    intro other others otherWithin
    have least := earliest (lead ++ other) others
      ((objectBehind_within leadFree trailFree).mpr ⟨other, rfl, otherWithin⟩)
    rw [isFront, List.length_append, List.length_append] at least
    exact Nat.add_le_add_iff_left.mp least
  · intro isFirst
    obtain ⟨inner, within, earliest⟩ := isFirst
    refine ⟨lead ++ inner, (objectBehind_within leadFree trailFree).mpr ⟨inner, rfl, within⟩, ?_⟩
    intro other others behind
    obtain ⟨otherInner, isOther, otherWithin⟩ := (objectBehind_within leadFree trailFree).mp behind
    rw [isOther, List.length_append, List.length_append]
    exact Nat.add_le_add_left (earliest otherInner others otherWithin) _

theorem strip_split (text : Text) :
    ∃ lead trail, Text.isBlank lead = true ∧ Text.isBlank trail = true ∧
      text = lead ++ Text.strip text ++ trail := by
  have leftSplit := @List.takeWhile_append_dropWhile _ Text.isSpace text
  have rightSplit := @List.takeWhile_append_dropWhile _ Text.isSpace (Text.lstrip text).reverse
  refine ⟨text.takeWhile Text.isSpace, ((Text.lstrip text).reverse.takeWhile Text.isSpace).reverse,
    ?_, ?_, ?_⟩
  · exact List.all_eq_true.mpr (fun _char member => List.mem_takeWhile_imp member)
  · apply List.all_eq_true.mpr
    intro char member
    exact List.mem_takeWhile_imp (List.mem_reverse.mp member)
  · unfold Text.strip Text.rstrip
    rw [List.append_assoc, ← List.reverse_append, rightSplit, List.reverse_reverse]
    exact leftSplit.symm

theorem not_mem_blank {space : Text} (blank : Text.isBlank space = true) {char : Char}
    (solid : Text.isSpace char = false) : char ∉ space := by
  intro member
  have isSpace := List.all_eq_true.mp blank char member
  rw [solid] at isSpace
  cases isSpace

/-- Whitespace around a text changes nothing about its objects. -/
theorem extractsFirst_strip {mapping : Type} {build : JsonMembers → mapping} {rawOutput : Text}
    {outcome : Except ExtractionError mapping} :
    ExtractsFirst build rawOutput outcome ↔ ExtractsFirst build (Text.strip rawOutput) outcome := by
  obtain ⟨lead, trail, leadBlank, trailBlank, split⟩ := strip_split rawOutput
  have leadFree := not_mem_blank leadBlank (by decide : Text.isSpace '{' = false)
  have trailFree := not_mem_blank trailBlank (by decide : Text.isSpace '}' = false)
  have sameFirst : ∀ members,
      FirstObject rawOutput members ↔ FirstObject (Text.strip rawOutput) members := by
    intro members
    nth_rewrite 1 [split]
    exact firstObject_within leadFree trailFree
  have sameNone : (∀ front members, ¬ ObjectBehind rawOutput front members) ↔
      ∀ front members, ¬ ObjectBehind (Text.strip rawOutput) front members := by
    nth_rewrite 1 [split]
    constructor
    · intro missing inner members within
      exact missing _ members ((objectBehind_within leadFree trailFree).mpr ⟨inner, rfl, within⟩)
    · intro missing front members behind
      obtain ⟨inner, _isFront, within⟩ := (objectBehind_within leadFree trailFree).mp behind
      exact missing inner members within
  constructor
  · intro extracts
    exact ⟨fun members isFirst => extracts.first members ((sameFirst members).mpr isFirst),
      fun missing => extracts.none (sameNone.mpr missing)⟩
  · intro extracts
    exact ⟨fun members isFirst => extracts.first members ((sameFirst members).mp isFirst),
      fun missing => extracts.none (sameNone.mp missing)⟩

/-! ### One reading -/

variable {limits : Limits}

/-- At a brace where an object starts nothing else is decoded. -/
theorem rawDecode_object {members : JsonMembers} {used rest left : Text} {tree : Tree}
    (isObject : IsObject members used) (read : rawDecode limits (used ++ rest) = .found tree left) :
    tree = .object members ∧ left = rest := by
  cases rawDecode_complete limits isObject rest with
  | inl found =>
      rw [found] at read
      obtain ⟨sameTree, sameRest⟩ := JsonText.Outcome.found.inj read
      exact ⟨sameTree.symm, sameRest.symm⟩
  | inr fault =>
      obtain ⟨error, raised⟩ := fault
      rw [raised] at read
      cases read

theorem not_malformed {members : JsonMembers} {used rest : Text}
    (isObject : IsObject members used) : rawDecode limits (used ++ rest) ≠ .malformed := by
  intro malformed
  cases rawDecode_complete limits isObject rest with
  | inl found =>
      rw [found] at malformed
      cases malformed
  | inr fault =>
      obtain ⟨error, raised⟩ := fault
      rw [raised] at malformed
      cases malformed

/-- What starts with a brace is an object or nothing. -/
theorem rawDecode_brace {rest left : Text} {tree : Tree}
    (read : rawDecode limits ('{' :: rest) = .found tree left) :
    ∃ members, tree = .object members := by
  unfold rawDecode at read
  cases depth : limits.depth with
  | zero =>
      rw [depth] at read
      cases read
  | succ room =>
      rw [depth, scanOnce] at read
      obtain ⟨members, _bodyRead, same⟩ := JsonText.Outcome.map_eq_found.mp read
      exact ⟨members, same.symm⟩

theorem JsonText.Outcome.orElse_cases (outcome next : JsonText.Outcome Tree) :
    (∃ members rest, outcome = .found (.object members) rest ∧
      outcome.orElse next = .found (.object members) rest) ∨
    (∃ error, outcome.orElse next = .fault error ∧ outcome = .fault error) ∨
    ((∀ members rest, outcome ≠ .found (.object members) rest) ∧
      (∀ error, outcome ≠ .fault error) ∧ outcome.orElse next = next) := by
  unfold JsonText.Outcome.orElse
  split
  case h_1 members rest => exact Or.inl ⟨members, rest, rfl, rfl⟩
  case h_2 error => exact Or.inr (Or.inl ⟨error, rfl, rfl⟩)
  case h_3 notObject notFault => exact Or.inr (Or.inr ⟨notObject, notFault, rfl⟩)

theorem loads_object {text left : Text} {members : JsonMembers}
    (read : loads limits text = .found (.object members) left) :
    ∃ lead used trail, JsonText.Blank lead ∧ JsonText.Blank trail ∧
      text = lead ++ used ++ trail ∧ IsObject members used ∧
      rawDecode limits (used ++ trail) = .found (.object members) trail := by
  unfold loads at read
  split at read
  case isTrue => cases read
  case isFalse =>
    obtain ⟨tree, behind, decoded, read⟩ := JsonText.Outcome.bind_eq_found.mp read
    split at read
    case isFalse => cases read
    case isTrue onlySpace =>
      obtain ⟨sameTree, _sameRest⟩ := JsonText.Outcome.found.inj read
      rw [sameTree] at decoded
      obtain ⟨lead, leadBlank, split⟩ := skipSpace_split text
      obtain ⟨used, usedSplit, isObject⟩ := rawDecode_sound decoded
      obtain ⟨trail, trailBlank, trailSplit⟩ := skipSpace_split behind
      rw [List.isEmpty_iff.mp onlySpace, List.append_nil] at trailSplit
      refine ⟨lead, used, behind, leadBlank, ?_, ?_, isObject, ?_⟩
      · rw [trailSplit]
        exact trailBlank
      · rw [List.append_assoc, ← usedSplit]
        exact split
      · rw [← usedSplit]
        exact decoded

/-- An object alone is loaded, unless a limit is met. -/
theorem loads_complete {used : Text} {members : JsonMembers} (isObject : IsObject members used) :
    (loads limits used).Reads (.object members) [] := by
  obtain ⟨body, braces⟩ := isObject.braces
  have noMark : used.head? ≠ some '\ufeff' := by
    rw [braces]
    intro mark
    exact absurd (Option.some.inj mark) (by decide)
  have noSpace : skipSpace used = used ++ [] := by
    rw [List.append_nil, braces]
    rfl
  unfold loads
  rw [if_neg noMark, noSpace]
  apply (rawDecode_complete limits isObject []).bind
  exact Or.inl (if_pos rfl)

/-! ### The scan of the braces -/

theorem objectBehind_nil {char : Char} {rest : Text} {members : JsonMembers}
    (behind : ObjectBehind (char :: rest) [] members) : char = '{' := by
  obtain ⟨used, left, split, isObject⟩ := behind
  obtain ⟨body, braces⟩ := isObject.braces
  rw [braces] at split
  exact (List.cons.inj split).1

theorem objectBehind_cons {char head : Char} {rest front : Text} {members : JsonMembers} :
    ObjectBehind (char :: rest) (head :: front) members ↔
      head = char ∧ ObjectBehind rest front members := by
  constructor
  · intro behind
    obtain ⟨used, left, split, isObject⟩ := behind
    rw [List.cons_append, List.cons_append, List.cons.injEq] at split
    exact ⟨split.1.symm, used, left, split.2, isObject⟩
  · intro both
    obtain ⟨same, used, left, split, isObject⟩ := both
    refine ⟨used, left, ?_, isObject⟩
    rw [same, split]
    rfl

/-- Behind a character at which no object starts the same objects follow. -/
theorem firstObject_cons {char : Char} {rest : Text}
    (missing : ∀ members, ¬ ObjectBehind (char :: rest) [] members) (members : JsonMembers) :
    FirstObject (char :: rest) members ↔ FirstObject rest members := by
  constructor
  · intro isFirst
    obtain ⟨front, behind, earliest⟩ := isFirst
    cases front with
    | nil => exact absurd behind (missing members)
    | cons head front =>
        obtain ⟨_same, within⟩ := objectBehind_cons.mp behind
        refine ⟨front, within, ?_⟩
        intro other others otherWithin
        have least := earliest (char :: other) others (objectBehind_cons.mpr ⟨rfl, otherWithin⟩)
        exact Nat.le_of_succ_le_succ least
  · intro isFirst
    obtain ⟨front, behind, earliest⟩ := isFirst
    refine ⟨char :: front, objectBehind_cons.mpr ⟨rfl, behind⟩, ?_⟩
    intro other others otherBehind
    cases other with
    | nil => exact absurd otherBehind (missing others)
    | cons head other =>
        exact Nat.succ_le_succ (earliest other others (objectBehind_cons.mp otherBehind).2)

theorem no_objects_cons {char : Char} {rest : Text}
    (missing : ∀ members, ¬ ObjectBehind (char :: rest) [] members) :
    (∀ front members, ¬ ObjectBehind (char :: rest) front members) ↔
      ∀ front members, ¬ ObjectBehind rest front members := by
  constructor
  · intro nothing front members within
    exact nothing (char :: front) members (objectBehind_cons.mpr ⟨rfl, within⟩)
  · intro nothing front members behind
    cases front with
    | nil => exact missing members behind
    | cons head front => exact nothing front members (objectBehind_cons.mp behind).2

/-- An object at the start of a text is its first one, and the only one there. -/
theorem firstObject_start {used rest left : Text} {members : JsonMembers}
    (isObject : IsObject members used)
    (read : rawDecode limits (used ++ rest) = .found (.object members) left)
    (others : JsonMembers) : FirstObject (used ++ rest) others ↔ others = members := by
  have here : ObjectBehind (used ++ rest) [] members := ⟨used, rest, rfl, isObject⟩
  constructor
  · intro isFirst
    obtain ⟨front, behind, earliest⟩ := isFirst
    have empty := List.length_eq_zero_iff.mp (Nat.le_zero.mp (earliest [] members here))
    rw [empty] at behind
    obtain ⟨otherUsed, otherRest, split, otherObject⟩ := behind
    rw [List.nil_append] at split
    rw [split] at read
    exact (Tree.object.inj (rawDecode_object otherObject read).1).symm
  · intro same
    rw [same]
    exact ⟨[], here, fun _other _others _behind => Nat.zero_le _⟩

/-- An object that was found is the first one of the text; if none was, there is none. -/
structure FindsFirst (text : Text) (outcome : JsonText.Outcome Tree) : Prop where
  found : ∀ {tree : Tree} {left : Text}, outcome = .found tree left →
    ∃ members, tree = .object members ∧ ∀ others, FirstObject text others ↔ others = members
  malformed : outcome = .malformed → ∀ front members, ¬ ObjectBehind text front members

theorem FindsFirst.skip {char : Char} {rest : Text} {outcome : JsonText.Outcome Tree}
    (finds : FindsFirst rest outcome)
    (missing : ∀ members, ¬ ObjectBehind (char :: rest) [] members) :
    FindsFirst (char :: rest) outcome where
  found := by
    intro tree left read
    obtain ⟨members, isObject, isFirst⟩ := finds.found read
    refine ⟨members, isObject, ?_⟩
    intro others
    rw [firstObject_cons missing, isFirst]
  malformed := by
    intro malformed
    exact (no_objects_cons missing).mpr (finds.malformed malformed)

theorem FindsFirst.within {lead text trail : Text} {outcome : JsonText.Outcome Tree}
    (finds : FindsFirst text outcome) (leadFree : '{' ∉ lead) (trailFree : '}' ∉ trail) :
    FindsFirst (lead ++ text ++ trail) outcome where
  found := by
    intro tree left read
    obtain ⟨members, isObject, isFirst⟩ := finds.found read
    refine ⟨members, isObject, ?_⟩
    intro others
    rw [firstObject_within leadFree trailFree, isFirst]
  malformed := by
    intro malformed front members behind
    obtain ⟨inner, _isFront, isWithin⟩ := (objectBehind_within leadFree trailFree).mp behind
    exact finds.malformed malformed inner members isWithin

theorem findsFirst_fault (text : Text) (error : DecodeFault) :
    FindsFirst text (.fault error) where
  found := fun impossible => by cases impossible
  malformed := fun impossible => by cases impossible

theorem findsFirst_object {text left : Text} {members : JsonMembers}
    (unique : ∀ others, FirstObject text others ↔ others = members) :
    FindsFirst text (.found (.object members) left) where
  found := by
    intro tree behind same
    exact ⟨members, (JsonText.Outcome.found.inj same).1.symm, unique⟩
  malformed := fun impossible => by cases impossible

theorem scanBraces_first (limits : Limits) (text : Text) :
    FindsFirst text (scanBraces limits text) := by
  induction text with
  | nil =>
      constructor
      case found =>
        intro tree left read
        cases read
      case malformed =>
        intro _malformed front members behind
        obtain ⟨used, rest, split, isObject⟩ := behind
        obtain ⟨body, braces⟩ := isObject.braces
        rw [braces] at split
        simp at split
  | cons char rest ih =>
      rw [scanBraces]
      by_cases brace : char = '{'
      · rw [if_pos brace]
        cases decoded : rawDecode limits (char :: rest) with
        | malformed =>
            apply ih.skip
            intro members behind
            obtain ⟨used, left, split, isObject⟩ := behind
            rw [List.nil_append] at split
            rw [split] at decoded
            exact not_malformed isObject decoded
        | fault error => exact findsFirst_fault _ error
        | found tree left =>
            have read := decoded
            rw [brace] at read
            obtain ⟨members, isObjectTree⟩ := rawDecode_brace read
            rw [isObjectTree] at decoded ⊢
            obtain ⟨used, split, isObject⟩ := rawDecode_sound decoded
            apply findsFirst_object
            rw [split] at decoded ⊢
            exact firstObject_start isObject decoded
      · rw [if_neg brace]
        exact ih.skip (fun members behind => brace (objectBehind_nil behind))

theorem scanBraces_free {text : Text} (free : '{' ∉ text) :
    scanBraces limits text = .malformed := by
  induction text with
  | nil => rfl
  | cons char rest ih =>
      rw [List.mem_cons, not_or] at free
      rw [scanBraces, if_neg (Ne.symm free.1)]
      exact ih free.2

/-! ### Texts around the braces -/

/-- Two parts without an opening brace that are followed by one are equal. -/
theorem fronts_eq {front other behind otherBehind : Text} (free : '{' ∉ front)
    (otherFree : '{' ∉ other) (same : front ++ '{' :: behind = other ++ '{' :: otherBehind) :
    front = other ∧ behind = otherBehind := by
  obtain ⟨inner, isOther, split⟩ := split_front free same
  cases inner with
  | nil =>
      rw [List.append_nil] at isOther
      exact ⟨isOther.symm, (List.cons.inj split).2⟩
  | cons head tail =>
      rw [List.cons_append, List.cons.injEq] at split
      rw [isOther, ← split.1] at otherFree
      exact absurd (List.mem_append_right _ List.mem_cons_self) otherFree

theorem JsonText.IsObject.start {members : JsonMembers} {used : Text}
    (isObject : IsObject members used) : ∃ tail, used = '{' :: tail := by
  obtain ⟨body, braces⟩ := isObject.braces
  exact ⟨body ++ ['}'], braces⟩

/-- An object at the first brace is the first object. -/
theorem firstObject_of_free {front used rest : Text} {members : JsonMembers}
    (free : '{' ∉ front) (isObject : IsObject members used) :
    FirstObject (front ++ used ++ rest) members := by
  refine ⟨front, ⟨used, rest, rfl, isObject⟩, ?_⟩
  intro other others behind
  obtain ⟨otherUsed, otherRest, split, otherObject⟩ := behind
  obtain ⟨tail, shape⟩ := isObject.start
  obtain ⟨otherTail, otherShape⟩ := otherObject.start
  have opening : front ++ (used ++ rest) = other ++ '{' :: (otherTail ++ otherRest) := by
    rw [← List.append_assoc, split, otherShape]
    simp only [List.append_assoc, List.cons_append]
  obtain ⟨inner, isOther, _behind⟩ := split_front free opening
  rw [isOther, List.length_append]
  exact Nat.le_add_right _ _

theorem not_mem_jsonBlank {space : Text} (blank : JsonText.Blank space) {char : Char}
    (solid : JsonText.isBlank char = false) : char ∉ space := by
  intro member
  have isSpace := blank char member
  rw [solid] at isSpace
  cases isSpace

/-- A loaded object is the first one of its text. -/
theorem loads_first {text left : Text} {members : JsonMembers}
    (read : loads limits text = .found (.object members) left) (others : JsonMembers) :
    FirstObject text others ↔ others = members := by
  obtain ⟨lead, used, trail, leadBlank, _trailBlank, split, isObject, decoded⟩ := loads_object read
  have leadFree := not_mem_jsonBlank leadBlank (by decide : JsonText.isBlank '{' = false)
  have whole : text = lead ++ (used ++ trail) ++ [] := by
    rw [split, List.append_nil, List.append_assoc]
  rw [whole, firstObject_within leadFree List.not_mem_nil]
  exact firstObject_start isObject decoded others

/-- Behind a loaded object there is no closing brace. -/
theorem loads_reaches {text left : Text} {members : JsonMembers}
    (read : loads limits text = .found (.object members) left) {front used rest : Text}
    {others : JsonMembers} (split : text = front ++ used ++ rest) (free : '{' ∉ front)
    (isObject : IsObject others used) : '}' ∉ rest := by
  obtain ⟨lead, loaded, trail, leadBlank, trailBlank, loadedSplit, loadedObject, decoded⟩ :=
    loads_object read
  have leadFree := not_mem_jsonBlank leadBlank (by decide : JsonText.isBlank '{' = false)
  obtain ⟨tail, shape⟩ := isObject.start
  obtain ⟨loadedTail, loadedShape⟩ := loadedObject.start
  have same : front ++ '{' :: (tail ++ rest) = lead ++ '{' :: (loadedTail ++ trail) := by
    rw [split, shape, loadedShape] at loadedSplit
    simpa only [List.append_assoc, List.cons_append] using loadedSplit
  have behind : used ++ rest = loaded ++ trail := by
    rw [shape, loadedShape, List.cons_append, List.cons_append, (fronts_eq free leadFree same).2]
  rw [← behind] at decoded
  rw [← (rawDecode_object isObject decoded).2]
  exact not_mem_jsonBlank trailBlank (by decide)

/-! ### From the first brace to the last one -/

theorem fromFirstBrace_split {front behind : Text} (free : '{' ∉ front) :
    fromFirstBrace (front ++ '{' :: behind) = '{' :: behind := by
  unfold fromFirstBrace
  rw [List.dropWhile_append_of_pos]
  · rfl
  · intro char member
    rw [bne_iff_ne]
    intro same
    rw [same] at member
    exact free member

theorem toLastBrace_split {front behind : Text} (free : '}' ∉ behind) :
    toLastBrace (front ++ '}' :: behind) = front ++ ['}'] := by
  unfold toLastBrace
  have passed : ∀ char ∈ behind.reverse, (char != '}') = true := by
    intro char member
    rw [bne_iff_ne]
    intro same
    rw [same] at member
    exact free (List.mem_reverse.mp member)
  rw [List.reverse_append, List.reverse_cons, List.append_assoc,
    List.dropWhile_append_of_pos passed]
  simp

theorem exists_split {brace : Char} {text : Text} (member : brace ∈ text) :
    ∃ front behind, text = front ++ brace :: behind ∧ brace ∉ front :=
  List.eq_append_cons_of_mem member

theorem exists_split_last {brace : Char} {text : Text} (member : brace ∈ text) :
    ∃ front behind, text = front ++ brace :: behind ∧ brace ∉ behind := by
  obtain ⟨front, behind, split, free⟩ := exists_split (List.mem_reverse.mpr member)
  refine ⟨behind.reverse, front.reverse, ?_, ?_⟩
  · rw [← List.reverse_reverse text, split, List.reverse_append, List.reverse_cons,
      List.append_assoc]
    rfl
  · rwa [List.mem_reverse]

end VaultSearch
