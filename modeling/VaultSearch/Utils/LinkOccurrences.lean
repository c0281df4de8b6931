/-
What is recorded of the links of a text: one target for each link between brackets, and of
all links of one type each target once.

A wikilink and an embed take their inner text apart by different code.  Markdown links and
bare URLs share one set of targets seen, so that a link to a note can stand in the way of
an external one and the other way round.
-/

import VaultSearch.Core.Resolution
import VaultSearch.Regex.Runs
import VaultSearch.Text.AsciiCase
import VaultSearch.Utils.Links

set_option autoImplicit false

namespace VaultSearch

open Regex

/-- What `str.lower` is relied on for: it neither makes nor removes whitespace around a
text, leaves no text without characters, and keeps the signs of a link as they are. -/
structure LowerLaw (env : Env) : Prop where
  strip : ∀ text, env.lower (Text.strip text) = Text.strip (env.lower text)
  empty : ∀ text, env.lower text = [] ↔ text = []
  signs : ∀ sign ∈ ['|', '#', '^'], ∀ text, sign ∈ env.lower text ↔ sign ∈ text

theorem sign_facts {sign : Char} (isSign : sign ∈ ['|', '#', '^']) :
    Text.isSpace sign = false ∧ sign ≠ ' ' ∧ sign ≠ '-' ∧
      (sign.toNat < 65 ∨ 90 < sign.toNat) ∧ (sign.toNat < 97 ∨ 122 < sign.toNat) ∧
        ∀ extension ∈ strippedExtensions, sign ∉ extension := by
  simp only [List.mem_cons, List.not_mem_nil, or_false] at isSign
  rcases isSign with bar | heading | block
  · rw [bar]
    decide
  · rw [heading]
    decide
  · rw [block]
    decide

/-! ### The text between the brackets -/

theorem splitPart_front (separator : Char) (text : Text) :
    (splitPart separator text).1 = text.takeWhile (· ≠ separator) := by
  have cuts : ((Text.cut separator text).map Prod.fst).getD text =
      text.takeWhile (· ≠ separator) := by
    induction text with
    | nil => rfl
    | cons head tail ih =>
        by_cases same : head = separator
        · rw [List.takeWhile_cons_of_neg (by simpa using same), Text.cut, if_pos same]
          rfl
        · rw [List.takeWhile_cons_of_pos (by simpa using same), Text.cut, if_neg same, ← ih]
          cases Text.cut separator tail with
          | none => rfl
          | some parts => rfl
  rw [← cuts, splitPart]
  cases Text.cut separator text with
  | none => rfl
  | some parts => rfl

/-- What stands in front of the alias. -/
def aliasFree (inner : Text) : Text :=
  inner.takeWhile (· ≠ '|')

/-- What stands in front of a heading or a block reference as well. -/
def pathPart (inner : Text) : Text :=
  ((aliasFree inner).takeWhile (· ≠ '^')).takeWhile (· ≠ '#')

def wikilinkTarget (inner : Text) : Text :=
  if (Text.strip (pathPart inner)).isEmpty then inner else Text.strip (pathPart inner)

def embedTarget (inner : Text) : Text :=
  Text.strip (aliasFree inner)

theorem parseWikilinkParts_target (inner : Text) :
    (parseWikilinkParts inner).target = wikilinkTarget inner := by
  unfold parseWikilinkParts wikilinkTarget pathPart aliasFree
  simp only [splitPart_front]

/-- `front([^\]]+)\]\]` -/
def bracketed (front : Text) : Regex :=
  .seq (.literal front) (.seq (.group 1 (.plus (.noneOf [']']))) (.literal "]]".toList))

/-- Between the brackets the first attempt takes the whole inner text. -/
theorem bracketed_ends {front inner : Text} (present : inner ≠ []) (closed : ']' ∉ inner)
    {cursor : Cursor} (shape : cursor.rest = front ++ inner ++ "]]".toList) :
    ((bracketed front).ends cursor).head? =
      some { cursor.advance (front ++ inner ++ "]]".toList) with
        groups := (1, inner) :: cursor.groups } := by
  cases inner with
  | nil => exact absurd rfl present
  | cons head tail =>
      have ahead : front.isPrefixOf cursor.rest = true := by
        rw [List.isPrefixOf_iff_prefix, shape, List.append_assoc]
        exact List.prefix_append _ _
      have rested : (cursor.advance front).rest = head :: (tail ++ "]]".toList) := by
        apply advance_rest
        rw [shape, List.append_assoc]
        rfl
      have accepted : ∀ char ∈ head :: tail, (!([']'] : Text).contains char) = true := by
        intro char member
        have different : char ≠ ']' := fun same => closed (same ▸ member)
        simp [different]
      have taken : (tail ++ "]]".toList).takeWhile (fun char => !([']'] : Text).contains char) =
          tail := by
        rw [List.takeWhile_append_of_pos
          (fun char member => accepted char (List.mem_cons_of_mem _ member))]
        exact List.append_nil tail
      obtain ⟨others, runs⟩ := @plus_chars (fun char => !([']'] : Text).contains char) _ _ _
        rested (accepted head List.mem_cons_self)
      rw [taken, Cursor.advance_advance] at runs
      have consumed : (cursor.advance front).consumed (cursor.advance (front ++ head :: tail)) =
          head :: tail := by
        rw [← Cursor.advance_advance]
        exact consumed_advance rested
      have closing : (cursor.advance (front ++ head :: tail)).rest = "]]".toList :=
        advance_rest shape
      have ending : (literal "]]".toList).ends
          { cursor.advance (front ++ head :: tail) with
            groups := (1, head :: tail) :: cursor.groups } =
          [{ cursor.advance (front ++ head :: tail ++ "]]".toList) with
            groups := (1, head :: tail) :: cursor.groups }] := by
        rw [literal_ends_eq, if_pos]
        · have moved := Cursor.advance_advance cursor (front ++ head :: tail) "]]".toList
          rw [← moved]
          rfl
        · simp only
          rw [closing]
          rfl
      rw [bracketed, ends_seq, literal_ends_eq, if_pos ahead, List.flatMap_singleton, ends_seq,
        ends_group, noneOf, runs, List.map_cons, List.flatMap_cons, consumed]
      have kept : (cursor.advance (front ++ head :: tail)).groups = cursor.groups := rfl
      rw [kept, ending]
      rfl

theorem bracketed_ends_nil {first : Char} {others : Text} {cursor : Cursor}
    (empty : cursor.rest = []) : (bracketed (first :: others)).ends cursor = [] := by
  rw [bracketed, ends_seq, literal_ends_eq, empty]
  rfl

def bracketedMatch (front inner : Text) : Regex.Match :=
  { start := 0, text := front ++ inner ++ "]]".toList, groups := [(1, inner)] }

theorem finditer_embed {inner : Text} (present : inner ≠ []) (closed : ']' ∉ inner) :
    embedFullPattern.finditer ("![[".toList ++ inner ++ "]]".toList) =
      [bracketedMatch "![[".toList inner] := by
  have found := @bracketed_ends "![[".toList inner present closed
    (Cursor.start ("![[".toList ++ inner ++ "]]".toList)) rfl
  apply finditer_whole found
  · exact List.drop_length
  · exact List.cons_ne_nil _ _
  · intro cursor empty
    have none : (bracketed "![[".toList).ends { cursor with groups := [] } = [] :=
      bracketed_ends_nil empty
    exact congrArg List.head? none

theorem finditer_wikilink {inner : Text} (present : inner ≠ []) (closed : ']' ∉ inner) :
    wikilinkFullPattern.finditer ("[[".toList ++ inner ++ "]]".toList) =
      [bracketedMatch "[[".toList inner] := by
  have ends : ∀ cursor : Cursor, wikilinkFullPattern.ends cursor =
      (if cursor.before.any (· == '!') then [] else [cursor]).flatMap
        (bracketed "[[".toList).ends := fun _cursor => rfl
  have found := @bracketed_ends "[[".toList inner present closed
    (Cursor.start ("[[".toList ++ inner ++ "]]".toList)) rfl
  have attempt : wikilinkFullPattern.firstMatch
      (Cursor.start ("[[".toList ++ inner ++ "]]".toList)) = _ :=
    (congrArg List.head? (List.flatMap_singleton ..)).trans found
  apply finditer_whole attempt
  · exact List.drop_length
  · exact List.cons_ne_nil _ _
  · intro cursor empty
    have none : (bracketed "[[".toList).ends { cursor with groups := [] } = [] :=
      bracketed_ends_nil empty
    rw [firstMatch, ends]
    split
    · rfl
    · rw [List.flatMap_singleton, none]
      rfl

/-- The normalized targets recorded for a wikilink that stands alone. -/
def wikilinkTargets (env : Env) (inner : Text) : List Text :=
  (extractAllLinks env ("[[".toList ++ inner ++ "]]".toList) true).wikilinks.map
    (fun link => normalizeLinkTarget env link.target)

/-- The normalized targets recorded for an embed that stands alone. -/
def embedTargets (env : Env) (inner : Text) : List Text :=
  (extractAllLinks env ("![[".toList ++ inner ++ "]]".toList) true).embeds.map
    (fun link => normalizeLinkTarget env link.target)

theorem keepFirst_of_empty {item : Type} {key : item → Text} {only : item}
    (empty : key only = []) : keepFirst key [] [only] = [] := by
  unfold keepFirst
  rw [empty]
  rfl

theorem keepFirst_of_filled {item : Type} {key : item → Text} {only : item}
    (filled : key only ≠ []) : keepFirst key [] [only] = [only] := by
  unfold keepFirst
  rw [if_neg (by simp [filled])]
  rfl

theorem wikilinkTargets_eq {env : Env} (law : LowerLaw env) {inner : Text} (present : inner ≠ [])
    (closed : ']' ∉ inner) :
    wikilinkTargets env inner = [normalizeLinkTarget env (wikilinkTarget inner)] := by
  have target : (wikilinkOf (bracketedMatch "[[".toList inner)).target = wikilinkTarget inner :=
    parseWikilinkParts_target inner
  have filled : wikilinkTarget inner ≠ [] := by
    unfold wikilinkTarget
    split
    · exact present
    case isFalse nonblank => exact fun empty => nonblank (List.isEmpty_iff.mpr empty)
  unfold wikilinkTargets extractAllLinks
  rw [if_neg (by simp)]
  simp only
  rw [finditer_wikilink present closed, List.map_singleton, keepFirst_of_filled,
    List.map_singleton, target]
  rw [target, Ne, law.empty]
  exact filled

theorem embedTargets_eq {env : Env} (law : LowerLaw env) {inner : Text} (present : inner ≠ [])
    (closed : ']' ∉ inner) :
    embedTargets env inner =
      if embedTarget inner = [] then [] else [normalizeLinkTarget env (embedTarget inner)] := by
  have target : (embedOf (bracketedMatch "![[".toList inner)).target = embedTarget inner := by
    unfold embedOf embedTarget aliasFree
    rw [← splitPart_front]
    rfl
  unfold embedTargets extractAllLinks
  rw [if_neg (by simp)]
  simp only
  rw [finditer_embed present closed, List.map_singleton]
  by_cases empty : embedTarget inner = []
  · rw [keepFirst_of_empty, if_pos empty, List.map_nil]
    rw [target, law.empty]
    exact empty
  · rw [keepFirst_of_filled, if_neg empty, List.map_singleton, target]
    rw [target, Ne, law.empty]
    exact empty

/-! ### Normalized targets -/

theorem mem_strip {char : Char} (solid : Text.isSpace char = false) (text : Text) :
    char ∈ Text.strip text ↔ char ∈ text := by
  have dropped : ∀ text : Text, char ∈ text.dropWhile Text.isSpace ↔ char ∈ text := by
    intro text
    constructor
    · exact fun member => (List.dropWhile_sublist _).subset member
    · intro member
      rw [← List.takeWhile_append_dropWhile (p := Text.isSpace) (l := text),
        List.mem_append] at member
      rcases member with inside | outside
      · have space := List.mem_takeWhile_imp inside
        rw [solid] at space
        cases space
      · exact outside
  unfold Text.strip Text.rstrip Text.lstrip
  rw [List.mem_reverse, dropped, List.mem_reverse, dropped]

theorem mem_dropKnownExtension {char : Char}
    (foreign : ∀ extension ∈ strippedExtensions, char ∉ extension) (target : Text) :
    char ∈ dropKnownExtension target ↔ char ∈ target := by
  unfold dropKnownExtension
  cases found : strippedExtensions.find? (fun extension => Text.endsWith target extension) with
  | none => rfl
  | some extension =>
      have ending : Text.endsWith target extension = true := by
        have held := List.find?_some found
        exact held
      obtain ⟨front, whole⟩ := List.isSuffixOf_iff_suffix.mp ending
      have outside := foreign extension (List.mem_of_find?_eq_some found)
      simp only
      rw [← whole, List.length_append, Nat.add_sub_cancel, List.take_left, List.mem_append]
      exact (or_iff_left outside).symm

/-- The signs of a link survive normalization. -/
theorem mem_normalizeLinkTarget {env : Env} (law : LowerLaw env) {sign : Char}
    (isSign : sign ∈ ['|', '#', '^']) (target : Text) :
    sign ∈ normalizeLinkTarget env target ↔ sign ∈ target := by
  obtain ⟨solid, notBlank, notHyphen, _notUpper, _notLower, foreign⟩ := sign_facts isSign
  have replaced : ∀ text : Text, sign ∈ Text.replaceChar ' ' "-".toList text ↔ sign ∈ text := by
    intro text
    unfold Text.replaceChar
    rw [List.mem_flatMap]
    constructor
    · rintro ⟨char, member, inside⟩
      split at inside
      · exact absurd (List.mem_singleton.mp inside) notHyphen
      · rwa [List.mem_singleton.mp inside]
    · intro member
      refine ⟨sign, member, ?_⟩
      rw [if_neg notBlank]
      exact List.mem_singleton_self _
  unfold normalizeLinkTarget
  rw [replaced, mem_dropKnownExtension foreign, mem_strip solid, law.signs sign isSign]

theorem normalizeLinkTarget_strip {env : Env} (law : LowerLaw env) (target : Text) :
    normalizeLinkTarget env (Text.strip target) = normalizeLinkTarget env target := by
  unfold normalizeLinkTarget
  rw [law.strip, Text.strip_strip]

/-- The inner texts that an embed and a wikilink take apart alike. -/
def UniformTarget (inner : Text) : Prop :=
  inner = [] ∨
    Text.isBlank (aliasFree inner) = false ∧ pathPart inner = aliasFree inner ∨
    '|' ∉ inner ∧ Text.isBlank (pathPart inner) = true ∧ Text.isBlank inner = false

theorem takeWhile_ne_self {separator : Char} {text : Text} :
    text.takeWhile (· ≠ separator) = text ↔ separator ∉ text := by
  rw [List.takeWhile_eq_self_iff]
  constructor
  · exact fun all member => of_decide_eq_true (all separator member) rfl
  · exact fun absent char member => decide_eq_true (fun same => absent (same ▸ member))

theorem not_mem_takeWhile_ne (separator : Char) (text : Text) :
    separator ∉ text.takeWhile (· ≠ separator) := by
  intro member
  have apart := List.mem_takeWhile_imp member
  exact of_decide_eq_true apart rfl

/-- The path part is all of the text exactly if that has neither sign. -/
theorem pathPart_eq_iff (inner : Text) :
    pathPart inner = aliasFree inner ↔ '^' ∉ aliasFree inner ∧ '#' ∉ aliasFree inner := by
  unfold pathPart
  constructor
  · intro same
    have lengths := congrArg List.length same
    have outer := (List.takeWhile_prefix (l := aliasFree inner) (· ≠ '^')).length_le
    have middle := (List.takeWhile_prefix
      (l := (aliasFree inner).takeWhile (· ≠ '^')) (· ≠ '#')).length_le
    have first : (aliasFree inner).takeWhile (· ≠ '^') = aliasFree inner :=
      (List.takeWhile_prefix _).eq_of_length (by omega)
    rw [first] at same
    exact ⟨takeWhile_ne_self.mp first, takeWhile_ne_self.mp same⟩
  · rintro ⟨noBlock, noHeading⟩
    rw [takeWhile_ne_self.mpr noBlock, takeWhile_ne_self.mpr noHeading]

theorem pathPart_subset (inner : Text) : pathPart inner ⊆ aliasFree inner :=
  fun _char member => (List.takeWhile_sublist _).subset ((List.takeWhile_sublist _).subset member)

theorem pathPart_free (inner : Text) : '^' ∉ pathPart inner ∧ '#' ∉ pathPart inner := by
  constructor
  · exact fun member => not_mem_takeWhile_ne '^' _ ((List.takeWhile_sublist _).subset member)
  · exact not_mem_takeWhile_ne '#' _

theorem isBlank_of_subset {part text : Text} (inside : part ⊆ text)
    (blank : Text.isBlank text = true) : Text.isBlank part = true :=
  List.all_eq_true.mpr (fun char member => List.all_eq_true.mp blank char (inside member))

/-- The two targets are normalized alike exactly for the uniform inner texts. -/
theorem targets_iff {env : Env} (law : LowerLaw env) {inner : Text} (present : inner ≠ []) :
    (embedTarget inner ≠ [] ∧
      normalizeLinkTarget env (wikilinkTarget inner) =
        normalizeLinkTarget env (embedTarget inner)) ↔ UniformTarget inner := by
  have inTarget : ∀ sign ∈ ['|', '#', '^'], ∀ text,
      sign ∈ normalizeLinkTarget env (Text.strip text) ↔ sign ∈ text := by
    intro sign isSign text
    rw [mem_normalizeLinkTarget law isSign, mem_strip (sign_facts isSign).1]
  unfold UniformTarget embedTarget
  rw [or_iff_right present, Ne, Text.strip_eq_nil_iff, Bool.not_eq_true]
  by_cases plain : pathPart inner = aliasFree inner
  · by_cases blank : Text.isBlank (aliasFree inner) = true
    · -- nothing but whitespace in front of the alias
      rw [blank]
      apply iff_of_false (fun both => absurd both.1 (by decide))
      rintro (⟨filled, _same⟩ | ⟨noAlias, _blankPath, filled⟩)
      · cases filled
      · rw [aliasFree, takeWhile_ne_self.mpr noAlias] at blank
        rw [blank] at filled
        cases filled
    · have filled : (Text.strip (pathPart inner)).isEmpty = false := by
        rw [List.isEmpty_eq_false_iff, Ne, Text.strip_eq_nil_iff, plain]
        exact blank
      rw [Bool.not_eq_true] at blank
      unfold wikilinkTarget
      rw [filled, if_neg Bool.false_ne_true, plain]
      exact iff_of_true ⟨blank, rfl⟩ (Or.inl ⟨blank, rfl⟩)
  · -- the text in front of the alias goes on behind its path
    obtain ⟨sign, isSign, inside, outside⟩ : ∃ sign ∈ ['|', '#', '^'],
        sign ∈ aliasFree inner ∧ sign ∉ pathPart inner := by
      rw [pathPart_eq_iff, Decidable.not_and_iff_not_or_not, not_not, not_not] at plain
      rcases plain with block | heading
      · exact ⟨'^', by decide, block, (pathPart_free inner).1⟩
      · exact ⟨'#', by decide, heading, (pathPart_free inner).2⟩
    have filled : Text.isBlank (aliasFree inner) = false := by
      rw [← Bool.not_eq_true]
      intro blank
      have space := List.all_eq_true.mp blank sign inside
      rw [(sign_facts isSign).1] at space
      cases space
    rw [and_iff_right filled]
    unfold wikilinkTarget
    by_cases blankPath : Text.isBlank (pathPart inner) = true
    · rw [if_pos (by rw [List.isEmpty_iff, Text.strip_eq_nil_iff]; exact blankPath)]
      by_cases aliased : '|' ∈ inner
      · have different : normalizeLinkTarget env inner ≠
            normalizeLinkTarget env (Text.strip (aliasFree inner)) := by
          intro same
          have member := (@mem_normalizeLinkTarget env law '|' (by decide) inner).mpr aliased
          rw [same, inTarget '|' (by decide)] at member
          exact not_mem_takeWhile_ne '|' inner member
        apply iff_of_false different
        rintro (⟨_filled, same⟩ | ⟨noAlias, _rest⟩)
        · exact plain same
        · exact noAlias aliased
      · have whole : aliasFree inner = inner := takeWhile_ne_self.mpr aliased
        rw [whole, normalizeLinkTarget_strip law]
        rw [whole] at filled
        exact iff_of_true rfl (Or.inr ⟨aliased, blankPath, filled⟩)
    · rw [if_neg (by rw [List.isEmpty_iff, Text.strip_eq_nil_iff]; exact blankPath)]
      apply iff_of_false
      · intro same
        have member := (inTarget sign isSign (aliasFree inner)).mpr inside
        rw [← same, inTarget sign isSign] at member
        exact outside member
      · rintro (⟨_filled, same⟩ | ⟨_noAlias, blank, _filled⟩)
        · exact plain same
        · exact blankPath blank

theorem wikilinkTargets_nil (env : Env) : wikilinkTargets env [] = [] := by
  rfl

theorem embedTargets_nil (env : Env) : embedTargets env [] = [] := by
  rfl

theorem uniformTarget_iff {env : Env} (law : LowerLaw env) {inner : Text} (closed : ']' ∉ inner) :
    wikilinkTargets env inner = embedTargets env inner ↔ UniformTarget inner := by
  by_cases present : inner = []
  · rw [present, wikilinkTargets_nil, embedTargets_nil]
    exact iff_of_true rfl (Or.inl rfl)
  · rw [← targets_iff law present, wikilinkTargets_eq law present closed,
      embedTargets_eq law present closed]
    by_cases empty : embedTarget inner = []
    · rw [if_pos empty]
      exact iff_of_false (List.cons_ne_nil _ _) (fun both => both.1 empty)
    · rw [if_neg empty, List.singleton_inj]
      exact (and_iff_right empty).symm

/-! ### Each target once -/

/-- What is recorded of some occurrences: the occurrences themselves, each key once, and none
left out. -/
structure EachOnce {item : Type} (key : item → Text) (occurrences recorded : List item) : Prop where
  found : recorded.Sublist occurrences
  once : (recorded.map key).Nodup
  all : ∀ occurrence ∈ occurrences, key occurrence ≠ [] → key occurrence ∈ recorded.map key

theorem keepFirst_sublist {item : Type} (key : item → Text) (items : List item) :
    ∀ seen, (keepFirst key seen items).Sublist items := by
  induction items with
  | nil =>
      intro seen
      exact List.nil_sublist _
  | cons head tail ih =>
      intro seen
      rw [keepFirst]
      split
      · exact (ih seen).cons head
      · exact (ih _).cons_cons head

theorem keepFirst_all {item : Type} (key : item → Text) (items : List item) :
    ∀ seen, ∀ occurrence ∈ items, key occurrence ≠ [] → key occurrence ∉ seen →
      key occurrence ∈ (keepFirst key seen items).map key := by
  induction items with
  | nil =>
      intro seen occurrence member
      cases member
  | cons head tail ih =>
      intro seen occurrence member filled fresh
      rw [keepFirst]
      rcases List.mem_cons.mp member with same | later
      · rw [if_neg (by simp [← same, filled, fresh]), List.map_cons, same]
        exact List.mem_cons_self
      · split
        · exact ih seen occurrence later filled fresh
        · rw [List.map_cons]
          by_cases again : key occurrence = key head
          · rw [again]
            exact List.mem_cons_self
          · apply List.mem_cons_of_mem
            apply ih _ occurrence later filled
            rw [List.mem_cons, not_or]
            exact ⟨again, fresh⟩

theorem keepFirst_eachOnce {item : Type} (key : item → Text) (items : List item) :
    EachOnce key items (keepFirst key [] items) :=
  { found := keepFirst_sublist key items []
    once := keepFirst_keys_nodup key items []
    all := fun occurrence member filled =>
      keepFirst_all key items [] occurrence member filled List.not_mem_nil }

/-- Of the first items with their keys, those of one kind. -/
theorem eachOnce_filterMap_iff {item kind : Type} {key : item → Text} {select : item → Option kind}
    {name : kind → Text} (named : ∀ entry chosen, select entry = some chosen →
      name chosen = key entry) (items : List item) :
    EachOnce name (items.filterMap select) ((keepFirst key [] items).filterMap select) ↔
      ∀ entry ∈ items, (select entry).isSome = true → key entry ≠ [] →
        ∃ kept ∈ keepFirst key [] items, (select kept).isSome = true ∧ key kept = key entry := by
  have whole := keepFirst_eachOnce key items
  constructor
  · intro each entry member selected filled
    obtain ⟨chosen, isChosen⟩ := Option.isSome_iff_exists.mp selected
    have inside : chosen ∈ items.filterMap select :=
      List.mem_filterMap.mpr ⟨entry, member, isChosen⟩
    have listed := each.all chosen inside (by rw [named entry chosen isChosen]; exact filled)
    obtain ⟨other, otherMember, sameName⟩ := List.mem_map.mp listed
    obtain ⟨kept, keptMember, isOther⟩ := List.mem_filterMap.mp otherMember
    refine ⟨kept, keptMember, by rw [isOther]; rfl, ?_⟩
    rw [← named kept other isOther, sameName, named entry chosen isChosen]
  · intro complete
    constructor
    · exact whole.found.filterMap select
    · have names : ((keepFirst key [] items).filterMap select).map name =
          ((keepFirst key [] items).filter (fun entry => (select entry).isSome)).map key := by
        generalize keepFirst key [] items = entries
        induction entries with
        | nil => rfl
        | cons head tail ih =>
            cases chosen : select head with
            | none =>
                rw [List.filterMap_cons_none chosen, List.filter_cons_of_neg (by simp [chosen]), ih]
            | some kind =>
                rw [List.filterMap_cons_some chosen, List.filter_cons_of_pos (by simp [chosen]),
                  List.map_cons, List.map_cons, ih, named head kind chosen]
      rw [names]
      exact whole.once.sublist (List.filter_sublist.map key)
    · intro occurrence member filled
      obtain ⟨entry, entryMember, isOccurrence⟩ := List.mem_filterMap.mp member
      have sameName := named entry occurrence isOccurrence
      obtain ⟨kept, keptMember, selected, sameKey⟩ := complete entry entryMember
        (by rw [isOccurrence]; rfl) (by rw [← sameName]; exact filled)
      obtain ⟨other, isOther⟩ := Option.isSome_iff_exists.mp selected
      rw [List.mem_map]
      refine ⟨other, List.mem_filterMap.mpr ⟨kept, keptMember, isOther⟩, ?_⟩
      rw [named kept other isOther, sameKey, sameName]

/-- Two kinds of items that share the keys seen are both recorded in full exactly if they
have no key in common. -/
theorem eachOnce_sum_iff {left right : Type} (leftKey : left → Text) (rightKey : right → Text)
    (items : List (left ⊕ right)) :
    (EachOnce leftKey (items.filterMap Sum.getLeft?)
        ((keepFirst (Sum.elim leftKey rightKey) [] items).filterMap Sum.getLeft?) ∧
      EachOnce rightKey (items.filterMap Sum.getRight?)
        ((keepFirst (Sum.elim leftKey rightKey) [] items).filterMap Sum.getRight?)) ↔
      ∀ near ∈ items.filterMap Sum.getLeft?, ∀ far ∈ items.filterMap Sum.getRight?,
        leftKey near ≠ [] → leftKey near ≠ rightKey far := by
  have leftNamed : ∀ (entry : left ⊕ right) chosen, entry.getLeft? = some chosen →
      leftKey chosen = Sum.elim leftKey rightKey entry := by
    intro entry chosen isChosen
    rw [Sum.getLeft?_eq_some_iff.mp isChosen]
    rfl
  have rightNamed : ∀ (entry : left ⊕ right) chosen, entry.getRight? = some chosen →
      rightKey chosen = Sum.elim leftKey rightKey entry := by
    intro entry chosen isChosen
    rw [Sum.getRight?_eq_some_iff.mp isChosen]
    rfl
  have whole := keepFirst_eachOnce (Sum.elim leftKey rightKey) items
  rw [eachOnce_filterMap_iff leftNamed, eachOnce_filterMap_iff rightNamed]
  constructor
  · rintro ⟨leftAll, rightAll⟩ near nearMember far farMember filled same
    obtain ⟨nearEntry, nearInside, isNear⟩ := List.mem_filterMap.mp nearMember
    obtain ⟨farEntry, farInside, isFar⟩ := List.mem_filterMap.mp farMember
    have nearName := leftNamed nearEntry near isNear
    have farName := rightNamed farEntry far isFar
    obtain ⟨first, firstKept, isLeft, firstKey⟩ := leftAll nearEntry nearInside
      (by rw [isNear]; rfl) (by rw [← nearName]; exact filled)
    obtain ⟨second, secondKept, isRight, secondKey⟩ := rightAll farEntry farInside
      (by rw [isFar]; rfl) (by rw [← farName, ← same]; exact filled)
    have together : first = second := by
      apply List.inj_on_of_nodup_map whole.once firstKept secondKept
      rw [firstKey, secondKey, ← nearName, ← farName, same]
    rw [together] at isLeft
    cases second with
    | inl near => cases isRight
    | inr far => cases isLeft
  · intro apart
    constructor
    · intro entry member selected filled
      obtain ⟨kept, keptMember, sameKey⟩ := List.mem_map.mp (whole.all entry member filled)
      refine ⟨kept, keptMember, ?_, sameKey⟩
      cases kept with
      | inl near => rfl
      | inr far =>
          obtain ⟨near, isNear⟩ := Option.isSome_iff_exists.mp selected
          have name := leftNamed entry near isNear
          have inside : far ∈ items.filterMap Sum.getRight? :=
            List.mem_filterMap.mpr ⟨.inr far, whole.found.subset keptMember, rfl⟩
          exact absurd (name.trans sameKey.symm) (apart near
            (List.mem_filterMap.mpr ⟨entry, member, isNear⟩) far inside
              (by rw [name]; exact filled))
    · intro entry member selected filled
      obtain ⟨kept, keptMember, sameKey⟩ := List.mem_map.mp (whole.all entry member filled)
      refine ⟨kept, keptMember, ?_, sameKey⟩
      cases kept with
      | inr far => rfl
      | inl near =>
          obtain ⟨far, isFar⟩ := Option.isSome_iff_exists.mp selected
          have name := rightNamed entry far isFar
          have inside : near ∈ items.filterMap Sum.getLeft? :=
            List.mem_filterMap.mpr ⟨.inl near, whole.found.subset keptMember, rfl⟩
          have sameName : leftKey near = rightKey far := sameKey.trans name.symm
          exact absurd sameName (apart near inside far
            (List.mem_filterMap.mpr ⟨entry, member, isFar⟩)
              (by rw [sameName, name]; exact filled))

/-! ### The occurrences in a text -/

def wikilinkOccurrences (text : Text) : List WikilinkInfo :=
  (wikilinkFullPattern.finditer text).map wikilinkOf

def embedOccurrences (text : Text) : List EmbedInfo :=
  (embedFullPattern.finditer text).map embedOf

/-- A Markdown link leads to a note or out of the vault. -/
def markdownOccurrence (found : Regex.Match) : MarkdownLinkInfo ⊕ ExternalLinkInfo :=
  let href := Text.strip (found.groupText 2)
  if externalPrefixes.any (Text.startsWith href) then
    .inr { raw := found.text, url := href, text := some (found.groupText 1) }
  else
    .inl
      { raw := found.text
        text := found.groupText 1
        target := Text.strip (splitPart '#' href).1 }

def bareOccurrence (found : Regex.Match) : ExternalLinkInfo :=
  { raw := found.groupText 1, url := found.groupText 1, text := none }

/-- In the order in which they are looked at: Markdown links, then bare URLs. -/
def sharedOccurrences (text : Text) : List (MarkdownLinkInfo ⊕ ExternalLinkInfo) :=
  (mdLinkPattern.finditer text).map markdownOccurrence ++
    (bareUrlPattern.finditer text).map (fun found => .inr (bareOccurrence found))

def markdownOccurrences (text : Text) : List MarkdownLinkInfo :=
  (sharedOccurrences text).filterMap Sum.getLeft?

def externalOccurrences (text : Text) : List ExternalLinkInfo :=
  (sharedOccurrences text).filterMap Sum.getRight?

def MarkdownScan.add (env : Env) (scan : MarkdownScan) :
    MarkdownLinkInfo ⊕ ExternalLinkInfo → MarkdownScan
  | .inl link => scan.addInternal env link
  | .inr link => scan.addExternal link

def sharedKey (env : Env) : MarkdownLinkInfo ⊕ ExternalLinkInfo → Text :=
  Sum.elim (fun link => env.lower link.target) (fun link => link.url)

theorem markdownLink_add (env : Env) (scan : MarkdownScan) (found : Regex.Match) :
    scan.markdownLink env true found = scan.add env (markdownOccurrence found) := by
  unfold MarkdownScan.markdownLink markdownOccurrence
  simp only
  split
  · rfl
  · rfl

/-- The scan keeps the first occurrence of each key. -/
theorem foldl_add {env : Env} (law : LowerLaw env)
    (items : List (MarkdownLinkInfo ⊕ ExternalLinkInfo))
    (filled : ∀ link, .inr link ∈ items → link.url ≠ []) :
    ∀ scan : MarkdownScan,
      (items.foldl (MarkdownScan.add env) scan).internal =
          scan.internal ++ (keepFirst (sharedKey env) scan.seen items).filterMap Sum.getLeft? ∧
        (items.foldl (MarkdownScan.add env) scan).external =
          scan.external ++ (keepFirst (sharedKey env) scan.seen items).filterMap Sum.getRight? := by
  induction items with
  | nil =>
      intro scan
      exact ⟨(List.append_nil _).symm, (List.append_nil _).symm⟩
  | cons head tail ih =>
      intro scan
      have later := ih (fun link member => filled link (List.mem_cons_of_mem _ member))
      rw [List.foldl_cons, keepFirst]
      cases head with
      | inl link =>
          have sameEmpty : link.target.isEmpty = (env.lower link.target).isEmpty := by
            rw [Bool.eq_iff_iff, List.isEmpty_iff, List.isEmpty_iff, law.empty]
          rw [MarkdownScan.add, MarkdownScan.addInternal, sameEmpty]
          by_cases skipped :
              ((env.lower link.target).isEmpty || scan.seen.contains (env.lower link.target)) = true
          · rw [if_pos skipped]
            rw [if_pos (show ((sharedKey env (.inl link)).isEmpty ||
              scan.seen.contains (sharedKey env (.inl link))) = true from skipped)]
            exact later scan
          · rw [if_neg skipped]
            rw [if_neg (show ¬ ((sharedKey env (.inl link)).isEmpty ||
              scan.seen.contains (sharedKey env (.inl link))) = true from skipped)]
            obtain ⟨internal, external⟩ := later
              { scan with
                seen := env.lower link.target :: scan.seen
                internal := scan.internal ++ [link] }
            rw [internal, external, List.append_assoc]
            exact ⟨rfl, rfl⟩
      | inr link =>
          have present := filled link List.mem_cons_self
          rw [MarkdownScan.add, MarkdownScan.addExternal]
          have sameTest : ((sharedKey env (.inr link)).isEmpty ||
              scan.seen.contains (sharedKey env (.inr link))) = scan.seen.contains link.url := by
            have notEmpty : (sharedKey env (.inr link)).isEmpty = false :=
              List.isEmpty_eq_false_iff.mpr present
            rw [notEmpty, Bool.false_or]
            rfl
          rw [sameTest]
          by_cases skipped : scan.seen.contains link.url = true
          · rw [if_pos skipped, if_pos skipped]
            exact later scan
          · rw [if_neg skipped, if_neg skipped]
            obtain ⟨internal, external⟩ := later
              { scan with
                seen := link.url :: scan.seen
                external := scan.external ++ [link] }
            rw [internal, external, List.append_assoc]
            exact ⟨rfl, rfl⟩

theorem bareUrl_filled {text : Text} {found : Regex.Match}
    (member : found ∈ bareUrlPattern.finditer text) : found.groupText 1 ≠ [] := by
  apply @finditer_groups bareUrlPattern (fun groups => (groups.lookup 1).getD [] ≠ []) _ text
    found member
  intro cursor _bare next reached
  obtain ⟨middle, _here, inGroup⟩ := List.mem_flatMap.mp reached
  exact group_literal_filled inGroup

theorem sharedOccurrences_filled {text : Text} {link : ExternalLinkInfo}
    (member : .inr link ∈ sharedOccurrences text) : link.url ≠ [] := by
  rcases List.mem_append.mp member with inMarkdown | bare
  · obtain ⟨found, _isFound, same⟩ := List.mem_map.mp inMarkdown
    unfold markdownOccurrence at same
    simp only at same
    split at same
    case isTrue outside =>
      rw [← Sum.inr.inj same]
      intro empty
      simp only at empty
      rw [empty] at outside
      exact absurd outside (by decide)
    · cases same
  · obtain ⟨found, isFound, same⟩ := List.mem_map.mp bare
    rw [← Sum.inr.inj same]
    exact bareUrl_filled isFound

theorem extractAllLinks_shared {env : Env} (law : LowerLaw env) (text : Text) :
    (extractAllLinks env text true).markdownLinks =
        (keepFirst (sharedKey env) [] (sharedOccurrences text)).filterMap Sum.getLeft? ∧
      (extractAllLinks env text true).external =
        (keepFirst (sharedKey env) [] (sharedOccurrences text)).filterMap Sum.getRight? := by
  cases text with
  | nil => exact ⟨rfl, rfl⟩
  | cons head tail =>
      have scanned : (bareUrlPattern.finditer (head :: tail)).foldl MarkdownScan.bareUrl
          ((mdLinkPattern.finditer (head :: tail)).foldl (MarkdownScan.markdownLink env true) {}) =
            (sharedOccurrences (head :: tail)).foldl (MarkdownScan.add env) {} := by
        unfold sharedOccurrences
        rw [List.foldl_append, List.foldl_map, List.foldl_map]
        simp only [← markdownLink_add]
        rfl
      have kept := foldl_add law (sharedOccurrences (head :: tail))
        (fun _link member => sharedOccurrences_filled member) {}
      rw [← scanned] at kept
      exact kept

/-- Every link of the text is recorded, once for each target. -/
structure RecordsEach (env : Env) (text : Text) : Prop where
  wikilinks : EachOnce (fun link => env.lower link.target) (wikilinkOccurrences text)
    (extractAllLinks env text true).wikilinks
  embeds : EachOnce (fun link => env.lower link.target) (embedOccurrences text)
    (extractAllLinks env text true).embeds
  markdownLinks : EachOnce (fun link => env.lower link.target) (markdownOccurrences text)
    (extractAllLinks env text true).markdownLinks
  external : EachOnce (fun link => link.url) (externalOccurrences text)
    (extractAllLinks env text true).external

/-- Wikilinks and embeds are always recorded. -/
theorem extractAllLinks_bracketed (env : Env) (text : Text) :
    (extractAllLinks env text true).wikilinks =
        keepFirst (fun link => env.lower link.target) [] (wikilinkOccurrences text) ∧
      (extractAllLinks env text true).embeds =
        keepFirst (fun link => env.lower link.target) [] (embedOccurrences text) := by
  cases text with
  | nil => exact ⟨rfl, rfl⟩
  | cons head tail => exact ⟨rfl, rfl⟩

theorem recordsEach_iff {env : Env} (law : LowerLaw env) (text : Text) :
    RecordsEach env text ↔
      ∀ link ∈ markdownOccurrences text, ∀ outside ∈ externalOccurrences text,
        env.lower link.target ≠ outside.url := by
  obtain ⟨wikilinks, embeds⟩ := extractAllLinks_bracketed env text
  obtain ⟨internal, external⟩ := extractAllLinks_shared law text
  have both := eachOnce_sum_iff (fun link : MarkdownLinkInfo => env.lower link.target)
    (fun link : ExternalLinkInfo => link.url) (sharedOccurrences text)
  have shared : (EachOnce (fun link => env.lower link.target) (markdownOccurrences text)
        (extractAllLinks env text true).markdownLinks ∧
      EachOnce (fun link => link.url) (externalOccurrences text)
        (extractAllLinks env text true).external) ↔
      ∀ link ∈ markdownOccurrences text, ∀ outside ∈ externalOccurrences text,
        env.lower link.target ≠ outside.url := by
    rw [internal, external]
    refine both.trans ?_
    constructor
    · intro apart link member outside outsideMember same
      have filled : outside.url ≠ [] := by
        obtain ⟨entry, inside, isOutside⟩ := List.mem_filterMap.mp outsideMember
        rw [Sum.getRight?_eq_some_iff.mp isOutside] at inside
        exact sharedOccurrences_filled inside
      exact apart link member outside outsideMember (by rw [same]; exact filled) same
    · exact fun apart link member outside outsideMember _filled =>
        apart link member outside outsideMember
  rw [← shared]
  constructor
  · exact fun each => ⟨each.markdownLinks, each.external⟩
  · intro parts
    constructor
    · rw [wikilinks]
      exact keepFirst_eachOnce _ _
    · rw [embeds]
      exact keepFirst_eachOnce _ _
    · exact parts.1
    · exact parts.2

/-! ### Resolution -/

theorem resolveLink_isResolved (pathMap : List (Text × Text)) {link : LinkRecord}
    (fresh : link.isResolved = false) :
    (resolveLink pathMap link).isResolved =
      (pathMap.lookup link.linkTargetNormalized).any (fun path => !path.isEmpty) := by
  unfold resolveLink linkUpdate
  cases pathMap.lookup link.linkTargetNormalized with
  | none => exact fresh
  | some path =>
      cases path with
      | nil => exact fresh
      | cons head tail => rfl

/-- Whether the rows of a wikilink that stands alone get resolved. -/
def wikilinkResolved (env : Env) (source : LinkSource) (pathMap : List (Text × Text))
    (inner : Text) : List Bool :=
  (extractAllLinks env ("[[".toList ++ inner ++ "]]".toList) true).wikilinks.map
    (fun link => (resolveLink pathMap (source.wikilink env link)).isResolved)

def embedResolved (env : Env) (source : LinkSource) (pathMap : List (Text × Text))
    (inner : Text) : List Bool :=
  (extractAllLinks env ("![[".toList ++ inner ++ "]]".toList) true).embeds.map
    (fun link => (resolveLink pathMap (source.embed env link)).isResolved)

theorem resolved_alike {env : Env} {inner : Text}
    (same : wikilinkTargets env inner = embedTargets env inner) (source : LinkSource)
    (pathMap : List (Text × Text)) :
    wikilinkResolved env source pathMap inner = embedResolved env source pathMap inner := by
  have wikilinks : wikilinkResolved env source pathMap inner = (wikilinkTargets env inner).map
      (fun target => (pathMap.lookup target).any (fun path => !path.isEmpty)) := by
    unfold wikilinkResolved wikilinkTargets
    rw [List.map_map]
    exact List.map_congr_left (fun _link _member => resolveLink_isResolved pathMap rfl)
  have embeds : embedResolved env source pathMap inner = (embedTargets env inner).map
      (fun target => (pathMap.lookup target).any (fun path => !path.isEmpty)) := by
    unfold embedResolved embedTargets
    rw [List.map_map]
    exact List.map_congr_left (fun _link _member => resolveLink_isResolved pathMap rfl)
  rw [wikilinks, embeds, same]

theorem lowerLaw_plain : LowerLaw Env.plain := by
  constructor
  · exact fun text => (Text.strip_map_toLower text).symm
  · exact fun text => List.map_eq_nil_iff
  · intro sign isSign text
    obtain ⟨_solid, _notBlank, _notHyphen, notUpper, notLower, _foreign⟩ := sign_facts isSign
    change sign ∈ text.map Char.toLower ↔ sign ∈ text
    simp only [List.mem_map, Text.toLower_eq_iff notUpper notLower, exists_eq_right]

end VaultSearch
