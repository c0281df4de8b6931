/-
What `split` makes of a text: the parts hold no separator, and joined they are the text again.
-/

import VaultSearch.Text.Basic

set_option autoImplicit false

namespace VaultSearch.Text

variable {separator : Text}

theorem splitFrom_skip (current text : Text) (skip : Nat) :
    splitFrom separator skip current text = splitFrom separator 0 current (text.drop skip) := by
  induction text generalizing skip with
  | nil =>
      rw [List.drop_nil]
      cases skip with
      | zero => rfl
      | succ skip => rfl
  | cons head tail ih =>
      cases skip with
      | zero => rfl
      | succ skip =>
          rw [List.drop_succ_cons]
          exact ih skip

/-- A part ends before the next separator. -/
theorem splitFrom_separator (nonempty : separator ≠ []) (current rest : Text) :
    splitFrom separator 0 current (separator ++ rest) =
      current :: splitFrom separator 0 [] rest := by
  cases separator with
  | nil => exact absurd rfl nonempty
  | cons first others =>
      rw [List.cons_append, splitFrom, if_pos (by simp), splitFrom_skip, List.length_cons,
        Nat.add_sub_cancel, List.drop_left]

theorem splitFrom_char {head : Char} {tail : Text} (current : Text)
    (plain : ¬ separator <+: head :: tail) :
    splitFrom separator 0 current (head :: tail) =
      splitFrom separator 0 (current ++ [head]) tail := by
  rw [splitFrom, if_neg (fun isPrefix => plain (List.isPrefixOf_iff_prefix.mp isPrefix))]

/-- An induction along the scan: a separator is passed as a whole, another character alone. -/
theorem splitFrom_induction {motive : Text → Text → Prop} (nonempty : separator ≠ [])
    (done : ∀ current, motive current [])
    (cut : ∀ current rest, motive [] rest → motive current (separator ++ rest))
    (step : ∀ current head tail, ¬ separator <+: head :: tail →
      motive (current ++ [head]) tail → motive current (head :: tail)) :
    ∀ current text, motive current text := by
  intro current text
  induction long : text.length using Nat.strong_induction_on generalizing current text with
  | _ size ih =>
      cases text with
      | nil => exact done current
      | cons head tail =>
          by_cases found : separator <+: head :: tail
          · obtain ⟨rest, whole⟩ := found
            have shorter : rest.length < size := by
              have positive := List.length_pos_iff.mpr nonempty
              rw [← long, ← whole, List.length_append]
              omega
            rw [← whole]
            exact cut current rest (ih _ shorter [] rest rfl)
          · have shorter : tail.length < size := by
              rw [← long, List.length_cons]
              omega
            exact step current head tail found (ih _ shorter _ tail rfl)

theorem splitFrom_ne_nil (nonempty : separator ≠ []) :
    ∀ current text, splitFrom separator 0 current text ≠ [] := by
  intro current text
  induction current, text using splitFrom_induction nonempty with
  | done current => exact List.cons_ne_nil _ _
  | cut current rest _later =>
      rw [splitFrom_separator nonempty]
      exact List.cons_ne_nil _ _
  | step current head tail plain later =>
      rw [splitFrom_char current plain]
      exact later

theorem split_ne_nil (nonempty : separator ≠ []) (text : Text) : split separator text ≠ [] :=
  splitFrom_ne_nil nonempty [] text

theorem join_cons {part : Text} {rest : List Text} (filled : rest ≠ []) :
    join separator (part :: rest) = part ++ separator ++ join separator rest := by
  cases rest with
  | nil => exact absurd rfl filled
  | cons second others => rfl

theorem join_splitFrom (nonempty : separator ≠ []) :
    ∀ current text, join separator (splitFrom separator 0 current text) = current ++ text := by
  intro current text
  induction current, text using splitFrom_induction nonempty with
  | done current => exact (List.append_nil current).symm
  | cut current rest later =>
      rw [splitFrom_separator nonempty, join_cons (splitFrom_ne_nil nonempty [] rest), later,
        List.nil_append, List.append_assoc]
  | step current head tail plain later =>
      rw [splitFrom_char current plain, later, List.append_assoc, List.singleton_append]

theorem join_split (nonempty : separator ≠ []) (text : Text) :
    join separator (split separator text) = text :=
  join_splitFrom nonempty [] text

/-! ### Parts without the first character of the separator -/

theorem splitFrom_part {char : Char} {part : Text} (free : char ∉ part) :
    ∀ current rest, splitFrom [char] 0 current (part ++ char :: rest) =
      (current ++ part) :: splitFrom [char] 0 [] rest := by
  induction part with
  | nil =>
      intro current rest
      rw [List.append_nil]
      exact splitFrom_separator (List.cons_ne_nil _ _) current rest
  | cons head tail ih =>
      intro current rest
      have apart : char ≠ head ∧ char ∉ tail := by simpa using free
      rw [List.cons_append, splitFrom_char current (by simp [apart.1]), ih apart.2,
        List.append_assoc, List.singleton_append]

theorem splitFrom_last {char : Char} {part : Text} (free : char ∉ part) :
    ∀ current, splitFrom [char] 0 current part = [current ++ part] := by
  induction part with
  | nil =>
      intro current
      rw [List.append_nil]
      rfl
  | cons head tail ih =>
      intro current
      have apart : char ≠ head ∧ char ∉ tail := by simpa using free
      rw [splitFrom_char current (by simp [apart.1]), ih apart.2, List.append_assoc,
        List.singleton_append]

/-- What is being collected comes before the first part. -/
theorem splitFrom_current (nonempty : separator ≠ []) (text : Text) :
    ∃ first others, ∀ current,
      splitFrom separator 0 current text = (current ++ first) :: others := by
  induction long : text.length using Nat.strong_induction_on generalizing text with
  | _ size ih =>
      by_cases found : separator <+: text
      · obtain ⟨rest, shape⟩ := found
        refine ⟨[], splitFrom separator 0 [] rest, ?_⟩
        intro current
        rw [← shape, splitFrom_separator nonempty, List.append_nil]
      · cases text with
        | nil =>
            refine ⟨[], [], ?_⟩
            intro current
            rw [List.append_nil]
            rfl
        | cons head tail =>
            have shorter : tail.length < size := by
              rw [← long]
              exact Nat.lt_succ_self _
            obtain ⟨first, others, later⟩ := ih tail.length shorter tail rfl
            refine ⟨head :: first, others, ?_⟩
            intro current
            rw [splitFrom_char current found, later, List.append_assoc, List.singleton_append]

/-- At a separator of one character a text is split in two. -/
theorem split_append {char : Char} (front back : Text) :
    split [char] (front ++ char :: back) = split [char] front ++ split [char] back := by
  have scan : ∀ current, splitFrom [char] 0 current (front ++ char :: back) =
      splitFrom [char] 0 current front ++ split [char] back := by
    induction front with
    | nil =>
        intro current
        exact splitFrom_separator (List.cons_ne_nil _ _) current back
    | cons head tail ih =>
        intro current
        by_cases isChar : char = head
        · have cut : ∀ rest, splitFrom [char] 0 current (char :: rest) =
              current :: splitFrom [char] 0 [] rest :=
            fun rest => splitFrom_separator (List.cons_ne_nil _ _) current rest
          rw [← isChar, List.cons_append, cut, cut, ih, List.cons_append]
        · rw [List.cons_append, splitFrom_char current (by simp [isChar]),
            splitFrom_char current (by simp [isChar]), ih]
  exact scan []

/-- A joined text is split before the rest of each separator. -/
theorem split_join {char : Char} {rest : Text} (first : Text) (others : List Text)
    (free : ∀ part ∈ first :: others, char ∉ part) (restFree : char ∉ rest) :
    split [char] (join (char :: rest) (first :: others)) = first :: others.map (rest ++ ·) := by
  have scan : ∀ (others : List Text) (current first : Text),
      (∀ part ∈ first :: others, char ∉ part) →
        splitFrom [char] 0 current (join (char :: rest) (first :: others)) =
          (current ++ first) :: others.map (rest ++ ·) := by
    intro others
    induction others with
    | nil =>
        intro current first free
        exact splitFrom_last (free first List.mem_cons_self) current
    | cons second later ih =>
        intro current first free
        rw [join_cons (List.cons_ne_nil _ _), List.append_assoc, List.cons_append,
          splitFrom_part (free first List.mem_cons_self)]
        have spread : rest ++ join (char :: rest) (second :: later) =
            join (char :: rest) ((rest ++ second) :: later) := by
          cases later with
          | nil => rfl
          | cons third more =>
              rw [join_cons (List.cons_ne_nil _ _), join_cons (List.cons_ne_nil _ _)]
              simp only [List.append_assoc]
        rw [spread, ih [] (rest ++ second)]
        · rfl
        · intro part member
          cases List.mem_cons.mp member with
          | inl same =>
              rw [same, List.mem_append, not_or]
              exact ⟨restFree, free second (List.mem_cons_of_mem _ List.mem_cons_self)⟩
          | inr inside =>
              exact free part (List.mem_cons_of_mem _ (List.mem_cons_of_mem _ inside))
  exact scan others [] first free

/-- A part between what stands before it and behind it. -/
theorem join_middle (front : List Text) (part : Text) (back : List Text) :
    join separator (front ++ part :: back) =
      front.flatMap (· ++ separator) ++ (part ++ back.flatMap (separator ++ ·)) := by
  induction front with
  | nil =>
      rw [List.nil_append, List.flatMap_nil, List.nil_append]
      induction back generalizing part with
      | nil => exact (List.append_nil part).symm
      | cons second others ih =>
          rw [join_cons (List.cons_ne_nil _ _), ih, List.flatMap_cons]
          simp only [List.append_assoc]
  | cons head tail ih =>
      rw [List.cons_append, join_cons (by simp), ih, List.flatMap_cons]
      simp only [List.append_assoc]

/-- What begins with a character begins behind a text without it. -/
theorem infix_behind {char : Char} {held front back : Text} (free : char ∉ front)
    (inside : char :: held <:+: front ++ back) : char :: held <:+: back := by
  induction front with
  | nil => exact inside
  | cons head tail ih =>
      have apart : char ≠ head ∧ char ∉ tail := by simpa using free
      rw [List.cons_append, List.infix_cons_iff] at inside
      cases inside with
      | inl begins => exact absurd (List.cons_prefix_cons.mp begins).1 apart.1
      | inr later => exact ih apart.2 later

theorem eq_of_free {char : Char} {left right before after : Text} (leftFree : char ∉ left)
    (rightFree : char ∉ right) (same : left ++ char :: before = right ++ char :: after) :
    left = right := by
  have taken : ∀ {front : Text} (back : Text), char ∉ front →
      (front ++ char :: back).takeWhile (· ≠ char) = front := by
    intro front back free
    rw [List.takeWhile_append_of_pos]
    · simp
    · intro other member
      apply decide_eq_true
      intro isChar
      rw [isChar] at member
      exact free member
  rw [← taken before leftFree, same, taken after rightFree]

/-- A part between separators stands in the text between separators only where it is a part. -/
theorem mem_of_infix_between {char : Char} {rest part : Text} (restFree : char ∉ rest)
    (partFree : char ∉ part) {parts : List Text} (free : ∀ other ∈ parts, char ∉ other)
    (inside : char :: rest ++ (part ++ char :: rest) <:+:
      parts.flatMap (char :: rest ++ ·) ++ char :: rest) : part ∈ parts := by
  induction parts with
  | nil =>
      have short := inside.length_le
      simp only [List.flatMap_nil, List.nil_append, List.length_append, List.length_cons] at short
      omega
  | cons first others ih =>
      have later : ∃ more, others.flatMap (char :: rest ++ ·) ++ char :: rest = char :: more := by
        cases others with
        | nil => exact ⟨rest, rfl⟩
        | cons second others => exact ⟨_, rfl⟩
      obtain ⟨more, isMore⟩ := later
      rw [List.flatMap_cons, List.append_assoc, List.append_assoc, List.cons_append,
        List.cons_append, List.infix_cons_iff] at inside
      cases inside with
      | inl begins =>
          rw [List.cons_prefix_cons, List.prefix_append_right_inj, isMore] at begins
          obtain ⟨back, same⟩ := begins.2
          rw [List.append_assoc, List.cons_append] at same
          rw [eq_of_free partFree (free first List.mem_cons_self) same]
          exact List.mem_cons_self
      | inr behind =>
          have passed := infix_behind (free first List.mem_cons_self)
            (infix_behind restFree behind)
          have inOthers := ih (fun other member => free other (List.mem_cons_of_mem _ member)) passed
          exact List.mem_cons_of_mem _ inOthers

/-- No part holds the separator, if none begins in the part that is being collected. -/
theorem splitFrom_free (nonempty : separator ≠ []) :
    ∀ current text,
      (∀ front back, current = front ++ back → back ≠ [] → ¬ separator <+: back ++ text) →
        ∀ part ∈ splitFrom separator 0 current text, ¬ separator <:+: part := by
  have within : ∀ {current text : Text},
      (∀ front back, current = front ++ back → back ≠ [] → ¬ separator <+: back ++ text) →
        ¬ separator <:+: current := by
    rintro current text free ⟨front, back, whole⟩
    apply free front (separator ++ back)
    · rw [← whole, List.append_assoc]
    · exact List.append_ne_nil_of_left_ne_nil nonempty _
    · exact ⟨back ++ text, (List.append_assoc _ _ _).symm⟩
  intro current text
  induction current, text using splitFrom_induction nonempty with
  | done current =>
      intro free part member
      rw [List.mem_singleton.mp member]
      exact within free
  | cut current rest later =>
      intro free part member
      rw [splitFrom_separator nonempty] at member
      rcases List.mem_cons.mp member with same | others
      · rw [same]
        exact within free
      · apply later _ part others
        intro front back empty filled
        exact absurd (List.append_eq_nil_iff.mp empty.symm).2 filled
  | step current head tail plain later =>
      intro free part member
      rw [splitFrom_char current plain] at member
      apply later _ part member
      intro front back longer filled found
      rcases List.eq_nil_or_concat back with empty | ⟨early, last, concat⟩
      · exact filled empty
      · rw [concat, List.concat_eq_append, ← List.append_assoc] at longer
        obtain ⟨sameFront, sameLast⟩ := List.append_inj' longer rfl
        rw [concat, List.concat_eq_append, ← List.singleton_inj.mp sameLast, List.append_assoc,
          List.singleton_append] at found
        by_cases atHead : early = []
        · rw [atHead] at found
          exact plain found
        · exact free front early sameFront atHead found

theorem split_free (nonempty : separator ≠ []) {text part : Text}
    (member : part ∈ split separator text) : ¬ separator <:+: part := by
  apply splitFrom_free nonempty [] text _ part member
  intro front back empty filled
  exact absurd (List.append_eq_nil_iff.mp empty.symm).2 filled

/-- Nothing is split where the separator does not occur. -/
theorem split_of_few (nonempty : separator ≠ []) {text : Text}
    (few : (split separator text).length ≤ 1) : split separator text = [text] := by
  have joined := join_split nonempty text
  cases parts : split separator text with
  | nil => exact absurd parts (split_ne_nil nonempty text)
  | cons part rest =>
      rw [parts, List.length_cons] at few
      have empty : rest = [] := List.length_eq_zero_iff.mp (by omega)
      rw [parts, empty] at joined
      rw [empty]
      exact congrArg (fun only => [only]) joined

theorem infix_join {parts : List Text} {part : Text} (member : part ∈ parts) :
    part <:+: join separator parts := by
  induction parts with
  | nil => cases member
  | cons first rest ih =>
      cases rest with
      | nil =>
          rw [List.mem_singleton.mp member]
          exact List.infix_refl _
      | cons second others =>
          rw [join_cons (List.cons_ne_nil _ _)]
          rcases List.mem_cons.mp member with same | later
          · rw [same, List.append_assoc]
            exact (List.prefix_append _ _).isInfix
          · exact (ih later).trans (List.suffix_append _ _).isInfix

/-- Every part of a text stands in it. -/
theorem infix_of_mem_split (nonempty : separator ≠ []) {text part : Text}
    (member : part ∈ split separator text) : part <:+: text := by
  have inside := @infix_join separator _ _ member
  rw [join_split nonempty] at inside
  exact inside

/-- A stretch without characters of the separator stands before it or behind it. -/
theorem infix_beside {held before after : Text} (nonempty : separator ≠ [])
    (apart : ∀ char ∈ separator, char ∉ held) (filled : held ≠ [])
    (inside : held <:+: before ++ (separator ++ after)) :
    held <:+: before ∨ held <:+: after := by
  have shared : ∀ {left : Text}, left ≠ [] → left ⊆ held → ¬ left ⊆ separator := by
    intro left some inHeld inSeparator
    obtain ⟨char, member⟩ := List.exists_mem_of_ne_nil _ some
    exact apart char (inSeparator member) (inHeld member)
  rcases List.infix_append_iff_ne_nil.mp inside with
    inBefore | behind | ⟨left, right, _some, someRight, same, _ends, begins⟩
  · exact Or.inl inBefore
  · rcases List.infix_append_iff_ne_nil.mp behind with
      inSeparator | inAfter | ⟨left, right, someLeft, _some, same, ends, _begins⟩
    · exact absurd inSeparator.subset (shared filled (List.Subset.refl held))
    · exact Or.inr inAfter
    · have within : left ⊆ held := by
        rw [same]
        exact List.subset_append_left left right
      exact absurd ends.subset (shared someLeft within)
  · exfalso
    cases separator with
    | nil => exact nonempty rfl
    | cons char others =>
        cases right with
        | nil => exact someRight rfl
        | cons head tail =>
            have first : head = char := (List.cons_prefix_cons.mp begins).1
            apply apart char List.mem_cons_self
            rw [same, first]
            exact List.mem_append_right _ List.mem_cons_self

/-- A stretch without characters of the separator stands within one part. -/
theorem infix_part {held : Text} (nonempty : separator ≠ [])
    (apart : ∀ char ∈ separator, char ∉ held) (filled : held ≠ []) {parts : List Text}
    (inside : held <:+: join separator parts) : ∃ part ∈ parts, held <:+: part := by
  induction parts with
  | nil => exact absurd (List.infix_nil.mp inside) filled
  | cons first rest ih =>
      cases rest with
      | nil => exact ⟨first, List.mem_cons_self, inside⟩
      | cons second others =>
          rw [join_cons (List.cons_ne_nil _ _), List.append_assoc] at inside
          rcases infix_beside nonempty apart filled inside with inFirst | later
          · exact ⟨first, List.mem_cons_self, inFirst⟩
          · obtain ⟨part, member, inPart⟩ := ih later
            exact ⟨part, List.mem_cons_of_mem _ member, inPart⟩

end VaultSearch.Text
